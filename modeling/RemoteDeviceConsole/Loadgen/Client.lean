import RemoteDeviceConsole.Protocol.StatusParser
import RemoteDeviceConsole.Server.Kernel

/-!
# A client of the load generator

`ClientState` and the functions that work on one client: the STATUS line it sends,
`send_status`, and `receive_ack` with the test `has_ack_line`.

`receive_ack` calls `recv` until it has an ACK line or `recv` has nothing more.  The
answers are a list of chunks and an end; those that it does not ask for stay in the
socket, and the `AckReading` has the bytes that it did read.

`parseStatusLine_makeStatusLine` is what `parse_status_line` makes of the line of a
client: only the three coordinates depend on the conversion of doubles.
-/

namespace RemoteDeviceConsole

open Framing

namespace Loadgen

/-! ## State -/

inductive ClientPhase where
  | connecting
  | ready
  | waitingAck
  deriving DecidableEq

/-- The state of one connection.  The index counts the connections from 0. -/
structure ClientState where
  fd : Fd
  index : ℕ
  sequence : UInt64 := 0
  sentMs : UInt64 := 0
  receiveBuffer : Bytes := []
  phase : ClientPhase := .connecting
  deriving DecidableEq

/-! ## Texts -/

/-- `device_id_for`. -/
def deviceIdFor (index : ℕ) : Bytes := ascii "load-" ++ toStringInt index

/-- `make_status_line`. -/
def makeStatusLine (client : ClientState) : Bytes :=
  let deviceId := deviceIdFor client.index
  let x : ℕ := client.index % 50
  let y : ℕ := client.index / 50 % 50
  let z : ℕ := client.index % 10
  ascii "STATUS device_id=" ++ deviceId ++ ascii " state=OK battery=87 x=" ++ toStringInt x ++
  ascii " y=" ++ toStringInt y ++ ascii " z=" ++ toStringInt z ++
  ascii " seq=" ++ toStringU64 client.sequence ++
  ascii " sent_ms=" ++ toStringU64 client.sentMs ++ ascii " ack=1\n"

/-- `has_ack_line`: the first line of the buffer when there is one, and the buffer
without it.  The program only keeps whether the line starts with `ACK `. -/
def hasAckLine (receiveBuffer : Bytes) : Option Bytes × Bytes :=
  match cutFrame newline receiveBuffer with
  | none => (none, receiveBuffer)
  | some (line, rest) => (if startsWith line (ascii "ACK ") then some line else none, rest)

/-- The fields of the line of a client. -/
def statusFields (client : ClientState) : List (Bytes × Bytes) :=
  [ (ascii "device_id", deviceIdFor client.index), (ascii "state", ascii "OK"),
    (ascii "battery", ascii "87"),
    (ascii "x", toStringInt (client.index % 50 : ℕ)),
    (ascii "y", toStringInt (client.index / 50 % 50 : ℕ)),
    (ascii "z", toStringInt (client.index % 10 : ℕ)),
    (ascii "seq", toStringU64 client.sequence), (ascii "sent_ms", toStringU64 client.sentMs),
    (ascii "ack", ascii "1") ]

/-- The texts in front of the other values. -/
theorem ascii_requestKeys :
    ascii " seq=" = space :: (ascii "seq" ++ [equalsSign]) ∧
    ascii " sent_ms=" = space :: (ascii "sent_ms" ++ [equalsSign]) ∧
    ascii " ack=1\n" = space :: (ascii "ack" ++ equalsSign :: ascii "1") ++ [newline] := by
  decide +kernel

theorem makeStatusLine_eq_printFields (client : ClientState) :
    makeStatusLine client = printFields kStatusPrefix (statusFields client) := by
  obtain ⟨h1, h2, h3, h4⟩ := ascii_statusKeys
  obtain ⟨h5, h6, h7⟩ := ascii_requestKeys
  delta makeStatusLine
  simp only [h1, h2, h3, h4, h5, h6, h7, printFields, statusFields, fieldToken,
    List.flatMap_cons, List.flatMap_nil, List.append_nil, List.append_assoc, List.cons_append,
    List.nil_append]

theorem cleanValue_deviceIdFor (index : ℕ) : CleanValue (deviceIdFor index) := by
  refine ⟨by simp [deviceIdFor, toStringInt_natCast_ne_nil], fun b hb => ?_⟩
  have hload : ∀ b ∈ [space, newline, carriageReturn], b ∉ ascii "load-" := by decide +kernel
  rw [deviceIdFor, List.mem_append, not_or]
  exact ⟨hload b hb, (cleanValue_toStringInt_natCast _).2 b hb⟩

theorem cleanField_statusFields (client : ClientState) :
    ∀ field ∈ statusFields client, CleanField field := by
  have hid := cleanValue_deviceIdFor client.index
  simp only [statusFields, List.forall_mem_cons]
  refine ⟨⟨?_, hid⟩, ⟨?_, ?_⟩, ⟨?_, ?_⟩, ⟨?_, cleanValue_toStringInt_natCast _⟩,
    ⟨?_, cleanValue_toStringInt_natCast _⟩, ⟨?_, cleanValue_toStringInt_natCast _⟩,
    ⟨?_, cleanValue_toStringU64 _⟩, ⟨?_, cleanValue_toStringU64 _⟩, ⟨?_, ?_⟩, by simp⟩
  all_goals
    dsimp only
    decide +kernel

/-- The line of a client is a line. -/
theorem isFrame_makeStatusLine (client : ClientState) :
    IsFrame newline (makeStatusLine client) := by
  rw [makeStatusLine_eq_printFields]
  exact isFrame_printFields (by decide) (cleanField_statusFields client)

/-- **What the server's parser makes of the line of a client**, for any conversion of
doubles. -/
theorem parseStatusLine_makeStatusLine {D : Type} [CharconvDouble D] (client : ClientState) :
    parseStatusLine (makeStatusLine client) =
      (parseDouble (toStringInt (client.index % 50 : ℕ))).bind fun x =>
      (parseDouble (toStringInt (client.index / 50 % 50 : ℕ))).bind fun y =>
      (parseDouble (toStringInt (client.index % 10 : ℕ))).map fun z =>
        ({ deviceId := deviceIdFor client.index, state := ascii "OK", batteryPercent := 87, x, y, z,
           sequence := client.sequence, sentMs := client.sentMs, ackRequested := true } :
          DeviceStatus D) := by
  have hbattery : parseInt (ascii "87") = some 87 := by decide +kernel
  have hack : parseBool (ascii "1") = some true := by decide +kernel
  have hid : deviceIdFor client.index ≠ [] := by simp [deviceIdFor, toStringInt_natCast_ne_nil]
  have hstate : ascii "OK" ≠ [] := by decide
  have hne := nodup_statusKeys
  simp only [List.reverse_cons, List.reverse_nil, List.nil_append, List.cons_append,
    List.nodup_cons, List.mem_cons, List.not_mem_nil, or_false, not_or] at hne
  rw [parseStatusLine, makeStatusLine_eq_printFields,
    parseFields_printFields _ _ (by decide) (cleanField_statusFields client)]
  simp only [statusFields, List.foldlM_cons, List.foldlM_nil, assignField, hne, if_true, if_false,
    hbattery, hack, parseU64_toStringU64, Option.map_some, Option.bind_eq_bind, Option.bind_some,
    Option.pure_def]
  cases parseDouble (D := D) (toStringInt (client.index % 50 : ℕ)) with
  | none => rfl
  | some x =>
    cases parseDouble (D := D) (toStringInt (client.index / 50 % 50 : ℕ)) with
    | none => rfl
    | some y =>
      cases parseDouble (D := D) (toStringInt (client.index % 10 : ℕ)) with
      | none => rfl
      | some z => simp [hid, hstate]

/-! ## Sending -/

/-- The kernel's answers during one `send_status`. -/
structure SendEnv where
  nowMs : UInt64
  result : SendResult

/-- `send_status`: what it returns, and the client. -/
def sendStatus (env : SendEnv) (client : ClientState) : Except RuntimeError (Bool × ClientState) :=
  let client := { client with sequence := client.sequence + 1, sentMs := env.nowMs }
  let statusLine := makeStatusLine client
  match env.result with
  | .failed errno =>
      if errno.wouldBlock then .ok (false, { client with sequence := client.sequence - 1 })
      else .error (.strerror errno)
  | .room n =>
      if n < statusLine.length then
        .error (.what (ascii "partial send is not handled in loadgen v2"))
      else .ok (true, { client with phase := .waitingAck })

/-! ## Receiving -/

/-- What a call of `receive_ack` did: the client after it, the ACK line it took with the
latency it returned, and the bytes it read. -/
structure AckReading where
  client : ClientState
  ack : Option (Bytes × UInt64)
  data : Bytes

/-- `receive_ack`. -/
def receiveAck (nowMs : UInt64) : List Bytes → RecvEnd → ClientState →
    Except RuntimeError AckReading
  | [], .closed, _ => .error (.what (ascii "server closed before ACK"))
  | [], .failed errno, client =>
      if errno.wouldBlock then .ok ⟨client, none, []⟩ else .error (.strerror errno)
  | data :: chunks, last, client =>
      let (line, receiveBuffer) := hasAckLine (client.receiveBuffer ++ data)
      let client := { client with receiveBuffer := receiveBuffer }
      match line with
      | some line =>
          .ok ⟨{ client with phase := .ready }, some (line, nowMs - client.sentMs), data⟩
      | none =>
        match receiveAck nowMs chunks last client with
        | .error e => .error e
        | .ok reading => .ok { reading with data := data ++ reading.data }

end Loadgen

end RemoteDeviceConsole
