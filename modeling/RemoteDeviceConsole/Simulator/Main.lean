import RemoteDeviceConsole.Protocol.StatusGrammar
import RemoteDeviceConsole.Loadgen.Client

/-!
# The simulator, and the encoders of STATUS lines

The simulator sends one STATUS line: `make_status_line` with the texts of its command
line, which it does not look into, and `send_status_line`.

Two programs write STATUS lines and a third reads them.  `encoders_inverted` says that
`parse_status_line` gets back what the load generator and the simulator put in.  Of the
double conversions it needs that a text that is read as a double has no separator in it,
and that small whole numbers are read as such.
-/

namespace RemoteDeviceConsole

open Framing

namespace Simulator

/-- The command line, with the defaults of the missing arguments. -/
structure Arguments where
  deviceId : Bytes
  x : Bytes
  y : Bytes
  z : Bytes
  ackRequested : Bool

/-- The arguments behind the program's name. -/
def arguments (argv : List Bytes) : Arguments where
  deviceId := argv.getD 0 (ascii "sim-001")
  x := argv.getD 1 (ascii "0")
  y := argv.getD 2 (ascii "0")
  z := argv.getD 3 (ascii "0")
  ackRequested := argv[4]? = some (ascii "--ack")

/-- `make_status_line`. -/
def makeStatusLine (deviceId x y z : Bytes) (ackRequested : Bool) (nowMs : UInt64) : Bytes :=
  let line := ascii "STATUS device_id=" ++ deviceId ++ ascii " state=OK battery=87 x=" ++ x ++
    ascii " y=" ++ y ++ ascii " z=" ++ z
  let line :=
    if ackRequested then
      line ++ ascii " seq=1 sent_ms=" ++ toStringU64 nowMs ++ ascii " ack=1"
    else line
  line ++ [newline]

/-- `send_status_line`. -/
def sendStatusLine (result : SendResult) (statusLine : Bytes) : Except RuntimeError Unit :=
  match result with
  | .failed errno => .error (.strerror errno)
  | .room n =>
      if n < statusLine.length then
        .error (.what (ascii "partial send is not handled in Phase 4"))
      else .ok ()

/-- `main`, up to the `send` that it ends with when no ACK is asked for: the line it sends. -/
def main (argv : List Bytes) (nowMs : UInt64) (result : SendResult) : Except RuntimeError Bytes :=
  let args := arguments argv
  let statusLine := makeStatusLine args.deviceId args.x args.y args.z args.ackRequested nowMs
  (sendStatusLine result statusLine).map fun _ => statusLine

/-- The fields of the line. -/
def statusFields (deviceId x y z : Bytes) (ackRequested : Bool) (nowMs : UInt64) :
    List (Bytes × Bytes) :=
  [ (ascii "device_id", deviceId), (ascii "state", ascii "OK"), (ascii "battery", ascii "87"),
    (ascii "x", x), (ascii "y", y), (ascii "z", z) ] ++
  if ackRequested then
    [(ascii "seq", ascii "1"), (ascii "sent_ms", toStringU64 nowMs), (ascii "ack", ascii "1")]
  else []

theorem ascii_ackKeys :
    ascii " seq=1 sent_ms=" =
      space :: (ascii "seq" ++ equalsSign :: ascii "1") ++
      space :: (ascii "sent_ms" ++ [equalsSign]) ∧
    ascii " ack=1" = space :: (ascii "ack" ++ equalsSign :: ascii "1") := by
  decide +kernel

variable (deviceId x y z : Bytes) (ackRequested : Bool) (nowMs : UInt64)

theorem makeStatusLine_eq_printFields :
    makeStatusLine deviceId x y z ackRequested nowMs =
      printFields kStatusPrefix (statusFields deviceId x y z ackRequested nowMs) := by
  obtain ⟨h1, h2, h3, h4⟩ := ascii_statusKeys
  obtain ⟨h5, h6⟩ := ascii_ackKeys
  delta makeStatusLine
  cases ackRequested <;>
    simp only [h1, h2, h3, h4, h5, h6, printFields, statusFields, fieldToken, if_true,
      Bool.false_eq_true, if_false, List.flatMap_cons, List.flatMap_nil, List.append_nil,
      List.append_assoc, List.cons_append, List.nil_append]

/-- The keys of the line have no byte that means something else. -/
theorem cleanKey_statusKeys :
    ∀ key ∈ ([ascii "device_id", ascii "state", ascii "battery", ascii "x", ascii "y", ascii "z",
      ascii "seq", ascii "sent_ms", ascii "ack"] : List Bytes), CleanKey key := by
  decide +kernel

variable {deviceId x y z}

theorem isField_statusFields (hid : deviceId ≠ []) (hspace : space ∉ deviceId)
    (hx : CleanValue x) (hy : CleanValue y) (hz : CleanValue z) :
    ∀ field ∈ statusFields deviceId x y z ackRequested nowMs,
      IsField field ∧ space ∉ fieldToken field := by
  have hkeys := cleanKey_statusKeys
  simp only [List.forall_mem_cons] at hkeys
  obtain ⟨k1, k2, k3, k4, k5, k6, k7, k8, k9, -⟩ := hkeys
  have hclean : ∀ {key value : Bytes}, CleanKey key → CleanValue value →
      IsField (key, value) ∧ space ∉ fieldToken (key, value) :=
    fun hkey hvalue => hkey.isField hvalue.1 (hvalue.2 _ (by simp))
  rw [statusFields, List.forall_mem_append]
  simp only [List.forall_mem_cons]
  refine ⟨⟨k1.isField hid hspace, hclean k2 (by decide +kernel), hclean k3 (by decide +kernel),
    hclean k4 hx, hclean k5 hy, hclean k6 hz, by simp⟩, ?_⟩
  cases ackRequested with
  | true =>
    rw [if_pos rfl]
    simp only [List.forall_mem_cons]
    exact ⟨hclean k7 (by decide +kernel), hclean k8 (cleanValue_toStringU64 _),
      hclean k9 (by decide +kernel), by simp⟩
  | false => simp

/-- The line, its newline taken off, ends in a value without a carriage return. -/
theorem getLast?_statusFields (hz : CleanValue z) :
    (kStatusPrefix ++ (statusFields deviceId x y z ackRequested nowMs).flatMap
      fun field => space :: fieldToken field).getLast? ≠ some carriageReturn := by
  cases ackRequested with
  | true =>
    exact getLast?_fields _ (statusFields deviceId x y z false nowMs ++
      [(ascii "seq", ascii "1"), (ascii "sent_ms", toStringU64 nowMs)]) _ (by decide +kernel)
  | false => exact getLast?_fields _ ((statusFields deviceId x y z false nowMs).take 5) _ hz

/-- **What the server's parser makes of the line of the simulator.** -/
theorem parseStatusLine_makeStatusLine {D : Type} [CharconvDouble D] (hid : deviceId ≠ [])
    (hspace : space ∉ deviceId) (hx : CleanValue x) (hy : CleanValue y) (hz : CleanValue z) :
    parseStatusLine (makeStatusLine deviceId x y z ackRequested nowMs) =
      (parseDouble x).bind fun dx => (parseDouble y).bind fun dy => (parseDouble z).map fun dz =>
        ({ deviceId, state := ascii "OK", batteryPercent := 87, x := dx, y := dy, z := dz,
           sequence := if ackRequested then 1 else 0
           sentMs := if ackRequested then nowMs else 0
           ackRequested } : DeviceStatus D) := by
  have hbattery : parseInt (ascii "87") = some 87 := by decide +kernel
  have hseq : parseU64 (ascii "1") = some 1 := by decide +kernel
  have hack : parseBool (ascii "1") = some true := by decide +kernel
  have hstate : ascii "OK" ≠ [] := by decide
  have hne := nodup_statusKeys
  simp only [List.reverse_cons, List.reverse_nil, List.nil_append, List.cons_append,
    List.nodup_cons, List.mem_cons, List.not_mem_nil, or_false, not_or] at hne
  rw [parseStatusLine, makeStatusLine_eq_printFields,
    parseFields_printFields_of_getLast? _ _ (isField_statusFields _ _ hid hspace hx hy hz)
      (getLast?_statusFields _ _ hz)]
  simp only [statusFields, List.foldlM_append, List.foldlM_cons, List.foldlM_nil, assignField, hne,
    if_true, if_false, hbattery, Option.map_some, Option.bind_eq_bind, Option.bind_some,
    Option.pure_def]
  cases parseDouble (D := D) x with
  | none => rfl
  | some dx =>
    cases parseDouble (D := D) y with
    | none => rfl
    | some dy =>
      cases parseDouble (D := D) z with
      | none => rfl
      | some dz =>
        cases ackRequested with
        | false => simp [hid, hstate, DeviceStatus.default]
        | true =>
          simp only [if_true, List.foldlM_cons, List.foldlM_nil, hne, if_false, hseq, hack,
            parseU64_toStringU64, Option.map_some, Option.bind_eq_bind, Option.bind_some,
            Option.pure_def]
          simp [hid, hstate]

end Simulator

/-! ## Reading the lines back -/

/-- `std::from_chars` skips no space: a text that it reads as a double to its end is not empty
and has no space and no line end. -/
def ReadsCleanTexts (D : Type) [CharconvDouble D] : Prop :=
  ∀ (text : Bytes) (d : D), parseDouble text = some d → CleanValue text

/-- `std::from_chars` reads the decimal text of a whole number below 50 as that number. -/
def ReadsWholeNumbers {D : Type} [CharconvDouble D] (ofNat : ℕ → D) : Prop :=
  ∀ n : ℕ, n < 50 → parseDouble (toStringInt n) = some (ofNat n)

variable {D : Type} [CharconvDouble D]

/-- A line that the simulator sends is accepted when its arguments can be. -/
theorem Simulator.exists_status_of_main (htexts : ReadsCleanTexts D) {argv : List Bytes}
    {nowMs : UInt64} {result : SendResult} {line : Bytes}
    (h : Simulator.main argv nowMs result = .ok line)
    (hid : (Simulator.arguments argv).deviceId ≠ [])
    (hspace : space ∉ (Simulator.arguments argv).deviceId)
    (hx : ∃ d : D, parseDouble (Simulator.arguments argv).x = some d)
    (hy : ∃ d : D, parseDouble (Simulator.arguments argv).y = some d)
    (hz : ∃ d : D, parseDouble (Simulator.arguments argv).z = some d) :
    ∃ status : DeviceStatus D, parseStatusLine line = some status ∧
      status.deviceId = (Simulator.arguments argv).deviceId ∧
      status.ackRequested = (Simulator.arguments argv).ackRequested := by
  obtain ⟨dx, hx⟩ := hx
  obtain ⟨dy, hy⟩ := hy
  obtain ⟨dz, hz⟩ := hz
  have hline : line = Simulator.makeStatusLine (Simulator.arguments argv).deviceId
      (Simulator.arguments argv).x (Simulator.arguments argv).y (Simulator.arguments argv).z
      (Simulator.arguments argv).ackRequested nowMs := by
    cases hsend : Simulator.sendStatusLine result (Simulator.makeStatusLine
        (Simulator.arguments argv).deviceId (Simulator.arguments argv).x
        (Simulator.arguments argv).y (Simulator.arguments argv).z
        (Simulator.arguments argv).ackRequested nowMs) with
    | error e => simp [Simulator.main, hsend, Except.map] at h
    | ok _ => simpa [Simulator.main, hsend, Except.map] using h.symm
  rw [hline, Simulator.parseStatusLine_makeStatusLine _ _ hid hspace (htexts _ _ hx)
    (htexts _ _ hy) (htexts _ _ hz), hx, hy, hz]
  exact ⟨_, rfl, rfl, rfl⟩

theorem deviceIdFor_injective : Function.Injective Loadgen.deviceIdFor := by
  intro i j h
  have hdecimal : toStringInt (i : ℤ) = toStringInt (j : ℤ) := List.append_cancel_left h
  rw [toStringInt, toStringInt, if_neg (by omega), if_neg (by omega)] at hdecimal
  simpa using decimal_injective hdecimal

/-- **The encoders and the parser.**  `parse_status_line` reads the line of every client of the
load generator back, and no two clients have the same id.  It reads the line of the simulator
back for every id without a space and all coordinates that are read as doubles. -/
theorem encoders_inverted (htexts : ReadsCleanTexts D) {ofNat : ℕ → D}
    (hnumbers : ReadsWholeNumbers ofNat) :
    (∀ client : Loadgen.ClientState, parseStatusLine (Loadgen.makeStatusLine client) =
      some ({ deviceId := ascii "load-" ++ decimal client.index, state := ascii "OK",
              batteryPercent := 87, x := ofNat (client.index % 50),
              y := ofNat (client.index / 50 % 50), z := ofNat (client.index % 10),
              sequence := client.sequence, sentMs := client.sentMs, ackRequested := true } :
        DeviceStatus D)) ∧
    Function.Injective Loadgen.deviceIdFor ∧
    ∀ (deviceId x y z : Bytes) (dx dy dz : D) (ackRequested : Bool) (nowMs : UInt64),
      deviceId ≠ [] → space ∉ deviceId → parseDouble x = some dx → parseDouble y = some dy →
      parseDouble z = some dz →
        parseStatusLine (Simulator.makeStatusLine deviceId x y z ackRequested nowMs) =
          some { deviceId, state := ascii "OK", batteryPercent := 87, x := dx, y := dy, z := dz,
                 sequence := if ackRequested then 1 else 0
                 sentMs := if ackRequested then nowMs else 0
                 ackRequested } := by
  refine ⟨fun client => ?_, deviceIdFor_injective, ?_⟩
  · have hid : Loadgen.deviceIdFor client.index = ascii "load-" ++ decimal client.index := by
      rw [Loadgen.deviceIdFor, toStringInt, if_neg (by omega), Int.natAbs_natCast]
    rw [Loadgen.parseStatusLine_makeStatusLine, hnumbers _ (Nat.mod_lt _ (by omega)),
      hnumbers _ (Nat.mod_lt _ (by omega)),
      hnumbers _ ((Nat.mod_lt _ (by omega)).trans (by omega : 10 < 50)), hid]
    rfl
  · intro deviceId x y z dx dy dz ackRequested nowMs hid hspace hx hy hz
    rw [Simulator.parseStatusLine_makeStatusLine _ _ hid hspace (htexts x dx hx) (htexts y dy hy)
      (htexts z dz hz), hx, hy, hz]
    rfl

theorem readsCleanTexts_whole : ReadsCleanTexts ℤ := by
  intro text n h
  obtain ⟨-, digits, hne, hdigits, htext⟩ := parseInt_eq_some.mp h
  have hsep : ∀ b ∈ [space, newline, carriageReturn], isDigit b = false ∧ b ≠ minusSign := by
    decide +kernel
  have hclean : ∀ b ∈ [space, newline, carriageReturn], b ∉ digits := by
    intro b hb hmem
    exact absurd (hdigits b hmem) (by simp [(hsep b hb).1])
  rcases htext with ⟨rfl, -⟩ | ⟨rfl, -⟩
  · exact ⟨hne, hclean⟩
  · refine ⟨List.cons_ne_nil _ _, fun b hb hmem => ?_⟩
    rcases List.mem_cons.mp hmem with hmem | hmem
    · exact (hsep b hb).2 hmem
    · exact hclean b hb hmem

/-- An id of odd bytes, with whole coordinates. -/
theorem encoders_inverted_whole :
    parseStatusLine (Simulator.makeStatusLine (ascii "a=\r=") (ascii "-3") (ascii "07") (ascii "4")
        true 9) =
      some ({ deviceId := ascii "a=\r=", state := ascii "OK", batteryPercent := 87, x := -3, y := 7,
              z := 4, sequence := 1, sentMs := 9, ackRequested := true } : DeviceStatus ℤ) := by
  have hnumbers : ReadsWholeNumbers (fun n : ℕ => (n : ℤ)) :=
    fun n hn => parseInt_toStringInt ⟨by omega, by omega⟩
  exact (encoders_inverted readsCleanTexts_whole hnumbers).2.2 _ _ _ _ _ _ _ _ _ (by decide)
    (by decide) (by decide +kernel) (by decide +kernel) (by decide +kernel)

end RemoteDeviceConsole
