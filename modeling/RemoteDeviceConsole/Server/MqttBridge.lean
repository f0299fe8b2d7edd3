import RemoteDeviceConsole.Protocol.StatusParser

/-!
# The MQTT bridge

`json_escape`, `status_payload`, `status_topic` and `publish_status`.  The bridge
hands a topic and a payload to the MQTT library; what the library makes of them
is not modelled, so publishing is recorded as the arguments of the call.  The
topic is passed as a C string, which ends at its first zero byte.
-/

namespace RemoteDeviceConsole

open Framing

variable {D : Type} [CharconvDouble D]

def quote : UInt8 := 34

def backslash : UInt8 := 92

/-- A backslash goes in front of every quote and every backslash. -/
def jsonEscape (value : Bytes) : Bytes :=
  value.flatMap fun ch => if ch = quote ∨ ch = backslash then [backslash, ch] else [ch]

def statusPayload (status : DeviceStatus D) : Bytes :=
  ascii "\x7b\"device_id\":\"" ++ jsonEscape status.deviceId ++ ascii "\",\"state\":\"" ++
  jsonEscape status.state ++ ascii "\",\"battery\":" ++ toStringInt status.batteryPercent ++
  ascii ",\"x\":" ++ CharconvDouble.toString status.x ++
  ascii ",\"y\":" ++ CharconvDouble.toString status.y ++
  ascii ",\"z\":" ++ CharconvDouble.toString status.z ++ ascii "\x7d"

def statusTopic (status : DeviceStatus D) : Bytes :=
  ascii "devices/" ++ status.deviceId ++ ascii "/status"

/-- What `c_str()` shows of a string. -/
def cString (text : Bytes) : Bytes := text.takeWhile (· ≠ 0)

/-- The arguments of one `mosquitto_publish`. -/
structure Publication where
  topic : Bytes
  payload : Bytes
  deriving DecidableEq

/-- The bridge, connected to a broker or not. -/
structure MqttBridge where
  enabled : Bool
  deriving DecidableEq

def MqttBridge.publishStatus (bridge : MqttBridge) (status : DeviceStatus D) :
    Option Publication :=
  if bridge.enabled then some ⟨cString (statusTopic status), statusPayload status⟩ else none

def commandFilter : Bytes := ascii "devices/+/commands/reset"

/-- `handle_connect`: the filter that the bridge subscribes to, once it is connected. -/
def MqttBridge.handleConnect (result : ℤ) : Option Bytes :=
  if result ≠ 0 then none else some commandFilter

end RemoteDeviceConsole
