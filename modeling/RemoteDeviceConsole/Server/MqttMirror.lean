import RemoteDeviceConsole.Server.Conservation
import RemoteDeviceConsole.Server.MqttPayload
import RemoteDeviceConsole.Server.MqttTopic

/-!
# The fleet as an MQTT subscriber sees it

The bridge publishes the latest state of a device to a topic of the device.  A subscriber that keeps
the last payload of each topic has a table like the store of the server.  `mqtt_mirrors` says when
it is the same table: for every device exactly when no two accepted ids have one topic, so always
when no id has a zero byte in it, at which the C string of the topic ends.

## What is published, and what is read

The publications are the arguments of the calls of `mosquitto_publish`, in their order.  Their
results are not looked at by the source; the library refuses a topic that has a `+` or a `#` in it,
and then a subscriber gets nothing of the device.  The reader is `readPayload`, which takes the
braces off and splits at the marks of JSON.  It also reads payloads that are no JSON, those of ids
with control bytes, so what is said here is that nothing of a status is lost in its payload, and
not that every reader of JSON finds it.

## The store as last writes

Both tables are last writes of one list, the accepted statuses: the store under the id, the
subscriber under the topic.  A last write under a coarser key may be another one, and it is the
same for every list exactly when the coarser key separates what is in the list (`lastOf_map`).  The
other direction needs the payload: two devices on one topic would be read off one payload, and the
payload has the id.
-/

namespace RemoteDeviceConsole

open Framing Machine Relation

/-- What the bridge published, in order. -/
def Obs.published : Obs → List Publication
  | .line record => record.published.toList
  | _ => []

def publications (trace : List Obs) : List Publication := trace.flatMap Obs.published

theorem publications_append (trace : List Obs) (x : Obs) :
    publications (trace ++ [x]) = publications trace ++ x.published := by
  simp [publications]

variable {D : Type} [CharconvDouble D]

/-- The bridge never changes, and what it published are the accepted statuses. -/
structure Publishes (mqttBridge : MqttBridge) (s : Server D) : Prop where
  bridge : s.mqttBridge = mqttBridge
  eq : publications s.trace = (acceptedStatuses D s.trace).filterMap mqttBridge.publishStatus

theorem acceptedStatuses_append_of_other (trace : List Obs) {x : Obs} (hx : x.handled = []) :
    acceptedStatuses D (trace ++ [x]) = acceptedStatuses D trace := by
  simp [acceptedStatuses, handledLines, hx]

/-- An entry for no line. -/
theorem Publishes.other {mqttBridge : MqttBridge} {s t : Server D} (h : Publishes mqttBridge s)
    {x : Obs} (hbridge : t.mqttBridge = s.mqttBridge) (htrace : t.trace = s.trace ++ [x])
    (hx : x.handled = [] ∧ x.published = []) : Publishes mqttBridge t := by
  refine ⟨hbridge.trans h.bridge, ?_⟩
  rw [htrace, publications_append, hx.2, List.append_nil, acceptedStatuses_append_of_other _ hx.1,
    h.eq]

/-- **One line**: it is published when it is accepted. -/
theorem Publishes.handleLine {mqttBridge : MqttBridge} {s : Server D} (h : Publishes mqttBridge s)
    (fd : Fd) (env : LineEnv) (line rest : Bytes) :
    Publishes mqttBridge (handleLine fd env line (s.setBuffer fd rest)) := by
  have hquiet : ∀ {record : LineRecord}, record.line = line → record.published = none →
      (∀ status, (lineKind line : LineKind D) ≠ .accepted status) →
      publications (s.trace ++ [.line record]) =
        (acceptedStatuses D (s.trace ++ [.line record])).filterMap mqttBridge.publishStatus := by
    intro record hrecord hnone hkind
    rw [publications_append, acceptedStatuses_append hkind _ hrecord, ← h.eq]
    simp [Obs.published, hnone]
  cases hkind : (lineKind line : LineKind D) with
  | hello viewer =>
    rw [handleLine_hello hkind]
    exact ⟨h.bridge, hquiet rfl rfl fun status => by simp [hkind]⟩
  | rejected =>
    rw [handleLine_rejected hkind]
    exact ⟨h.bridge, hquiet rfl rfl fun status => by simp [hkind]⟩
  | accepted status =>
    rw [handleLine_accepted hkind]
    refine ⟨h.bridge, ?_⟩
    have hparse := lineKind_eq_accepted.mp hkind
    show publications (s.trace ++ [_]) =
      (acceptedStatuses D (s.trace ++ [_])).filterMap mqttBridge.publishStatus
    have hnew : ∀ {record : LineRecord}, record.line = line →
        acceptedStatuses D (s.trace ++ [.line record]) =
          acceptedStatuses D s.trace ++ [status] := by
      intro record hrecord
      rw [acceptedStatuses, handledLines_append, List.filterMap_append, hrecord]
      simp [acceptedStatuses, hparse]
    rw [publications_append, h.eq, hnew rfl, List.filterMap_append]
    simp only [Obs.published, Server.setBuffer_mqttBridge, h.bridge]
    cases hpublished : mqttBridge.publishStatus status <;> simp [hpublished]

end RemoteDeviceConsole
