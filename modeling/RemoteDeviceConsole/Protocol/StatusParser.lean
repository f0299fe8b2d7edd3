import RemoteDeviceConsole.Protocol.FieldScan
import RemoteDeviceConsole.Framing.Frames

/-!
# The STATUS line

`DeviceStatus` and `parse_status_line` of the protocol library.  The record is
generic in the type of doubles, whose conversions come with `CharconvDouble`.

The rest of the development uses two facts about an accepted line: it is the word
`STATUS`, a space and more (`exists_eq_of_parseStatusLine`), and the device id is
one of its values, so no separator is in it (`mem_deviceId_of_parseStatusLine`).
-/

namespace RemoteDeviceConsole

open Framing

/-- The wire record of one device. -/
structure DeviceStatus (D : Type) where
  deviceId : Bytes
  state : Bytes
  batteryPercent : ℤ
  x : D
  y : D
  z : D
  sequence : UInt64
  sentMs : UInt64
  ackRequested : Bool
  deriving DecidableEq

variable {D : Type} [CharconvDouble D]

/-- `DeviceStatus{}`: every field at its default. -/
def DeviceStatus.default : DeviceStatus D where
  deviceId := []
  state := []
  batteryPercent := 0
  x := CharconvDouble.zero
  y := CharconvDouble.zero
  z := CharconvDouble.zero
  sequence := 0
  sentMs := 0
  ackRequested := false

def kStatusPrefix : Bytes := ascii "STATUS"

/-- Assign one field.  A key that no branch knows is accepted and ignored. -/
def assignField (status : DeviceStatus D) (key value : Bytes) : Option (DeviceStatus D) :=
  if key = ascii "device_id" then some { status with deviceId := value }
  else if key = ascii "state" then some { status with state := value }
  else if key = ascii "battery" then
    (parseInt value).map fun n => { status with batteryPercent := n }
  else if key = ascii "x" then (parseDouble value).map fun d => { status with x := d }
  else if key = ascii "y" then (parseDouble value).map fun d => { status with y := d }
  else if key = ascii "z" then (parseDouble value).map fun d => { status with z := d }
  else if key = ascii "seq" then (parseU64 value).map fun n => { status with sequence := n }
  else if key = ascii "sent_ms" then (parseU64 value).map fun n => { status with sentMs := n }
  else if key = ascii "ack" then (parseBool value).map fun b => { status with ackRequested := b }
  else some status

/-- The keys of the STATUS line are nine different ones. -/
theorem nodup_statusKeys :
    ([ascii "device_id", ascii "state", ascii "battery", ascii "x", ascii "y", ascii "z",
      ascii "seq", ascii "sent_ms", ascii "ack"] : List Bytes).reverse.Nodup := by
  decide +kernel

/-- The texts that the encoders put in front of an id and of coordinates. -/
theorem ascii_statusKeys :
    ascii "STATUS device_id=" = kStatusPrefix ++ space :: (ascii "device_id" ++ [equalsSign]) ∧
    ascii " state=OK battery=87 x=" =
      space :: (ascii "state" ++ equalsSign :: ascii "OK") ++
      space :: (ascii "battery" ++ equalsSign :: ascii "87") ++
      space :: (ascii "x" ++ [equalsSign]) ∧
    ascii " y=" = space :: (ascii "y" ++ [equalsSign]) ∧
    ascii " z=" = space :: (ascii "z" ++ [equalsSign]) := by
  decide +kernel

/-- `parse_status_line`: the fields, then the two that may not be empty. -/
def parseStatusLine (line : Bytes) : Option (DeviceStatus D) :=
  match parseFields kStatusPrefix assignField DeviceStatus.default line with
  | none => none
  | some status => if status.deviceId = [] ∨ status.state = [] then none else some status

/-! ## What an accepted line looks like -/

theorem exists_tokens_of_parseStatusLine {line : Bytes} {status : DeviceStatus D}
    (h : parseStatusLine line = some status) :
    ∃ rest, stripLineEnd line = kStatusPrefix ++ rest ∧
      (rest = [] ∨ rest.head? = some space) ∧
      (words space rest).foldlM (assignToken assignField) DeviceStatus.default = some status ∧
      status.deviceId ≠ [] := by
  rw [parseStatusLine] at h
  split at h
  · exact absurd h (by simp)
  · next result hresult =>
    split at h
    · exact absurd h (by simp)
    · next hne =>
      rw [not_or] at hne
      rw [Option.some.injEq] at h
      subst h
      obtain ⟨rest, hstrip, hrest, hfold⟩ := exists_rest_of_parseFields hresult
      exact ⟨rest, hstrip, hrest, hfold, hne.1⟩

theorem removeSuffix_isPrefix (c : UInt8) (line : Bytes) : removeSuffix c line <+: line := by
  unfold removeSuffix
  split
  · exact List.dropLast_prefix line
  · exact List.prefix_rfl

theorem stripLineEnd_isPrefix (line : Bytes) : stripLineEnd line <+: line :=
  (removeSuffix_isPrefix _ _).trans (removeSuffix_isPrefix _ _)

/-- **An accepted line is the word `STATUS`, a space and more.**  The record must
have a device id, so the line has a field, so something follows the word. -/
theorem exists_eq_of_parseStatusLine {line : Bytes} {status : DeviceStatus D}
    (h : parseStatusLine line = some status) :
    ∃ tail, line = kStatusPrefix ++ space :: tail := by
  obtain ⟨rest, hstrip, hrest, hfold, hid⟩ := exists_tokens_of_parseStatusLine h
  obtain ⟨ending, hline⟩ := stripLineEnd_isPrefix line
  rcases rest with _ | ⟨b, rest⟩
  · have hdefault : DeviceStatus.default = status := by simpa using hfold
    exact absurd (by rw [← hdefault]; rfl) hid
  · have hb : b = space := by simpa using hrest
    refine ⟨rest ++ ending, ?_⟩
    rw [← hline, hstrip, hb]
    simp

/-- A line that starts like another kind of message is not accepted. -/
theorem parseStatusLine_eq_none_of_head {line : Bytes} {b : UInt8}
    (h : line.head? = some b) (hb : b ≠ 83) :
    (parseStatusLine line : Option (DeviceStatus D)) = none := by
  by_contra hsome
  obtain ⟨status, hstatus⟩ := Option.ne_none_iff_exists'.mp hsome
  obtain ⟨tail, rfl⟩ := exists_eq_of_parseStatusLine hstatus
  exact hb (Option.some.inj h).symm

/-- Only the first branch of the decoder writes the device id. -/
theorem deviceId_of_assignField {s s' : DeviceStatus D} {key value : Bytes}
    (h : assignField s key value = some s') :
    s'.deviceId = value ∨ s'.deviceId = s.deviceId := by
  have hsome : ∀ {t : DeviceStatus D}, t.deviceId = s.deviceId → some t = some s' →
      s'.deviceId = s.deviceId := by
    intro t ht heq
    rw [← Option.some.inj heq, ht]
  have hmap : ∀ {α : Type} {o : Option α} {f : α → DeviceStatus D},
      (∀ a, (f a).deviceId = s.deviceId) → o.map f = some s' → s'.deviceId = s.deviceId := by
    intro α o f hf heq
    obtain ⟨a, -, rfl⟩ := Option.map_eq_some_iff.mp heq
    exact hf a
  revert h
  refine iteInduction (motive := fun r => r = some s' → _) (fun _ h => Or.inl ?_)
    fun _ h => Or.inr ?_
  · rw [← Option.some.inj h]
  revert h
  iterate 8
    refine iteInduction (motive := fun r => r = some s' → _) (fun _ => ?_) fun _ => ?_
    · first
      | exact hsome rfl
      | exact hmap fun _ => rfl
  exact hsome rfl

/-- The device id is a value of the line, so it has neither a space nor a byte that
the line, its end stripped, does not have. -/
theorem mem_deviceId_of_parseStatusLine {line : Bytes} {status : DeviceStatus D}
    (h : parseStatusLine line = some status) {b : UInt8} (hb : b ∈ status.deviceId) :
    b ≠ space ∧ b ∈ stripLineEnd line := by
  obtain ⟨rest, hstrip, -, hfold, -⟩ := exists_tokens_of_parseStatusLine h
  have hinv : ∀ c ∈ status.deviceId, c ≠ space ∧ c ∈ rest := by
    refine foldlM_invariant (P := fun s : DeviceStatus D => ∀ c ∈ s.deviceId, c ≠ space ∧ c ∈ rest)
      ?_ (by simp [DeviceStatus.default]) hfold
    intro token htoken r r' hr hstep
    obtain ⟨key, value, rfl, -, -, -, hassign⟩ := exists_key_value_of_assignToken hstep
    have hvalue : ∀ c ∈ value, c ≠ space ∧ c ∈ rest := by
      intro c hc
      have hmem : c ∈ key ++ equalsSign :: value := by simp [hc]
      refine ⟨?_, mem_of_mem_words htoken hmem⟩
      rintro rfl
      exact (notMem_and_ne_nil_of_mem_words htoken).1 hmem
    rcases deviceId_of_assignField hassign with hid | hid
    · rw [hid]
      exact hvalue
    · rw [hid]
      exact hr
  exact ⟨(hinv b hb).1, by rw [hstrip]; exact List.mem_append_right _ (hinv b hb).2⟩

/-- The device id of a framed line has no newline. -/
theorem newline_notMem_deviceId {line : Bytes} {status : DeviceStatus D}
    (hline : IsFrame newline line) (h : parseStatusLine line = some status) :
    newline ∉ status.deviceId := by
  obtain ⟨body, hbody, hbe⟩ := hline
  intro hmem
  have hstrip := (mem_deviceId_of_parseStatusLine h hmem).2
  rw [stripLineEnd_of_frame hbe] at hstrip
  exact hbody (mem_of_mem_removeSuffix hstrip)

end RemoteDeviceConsole
