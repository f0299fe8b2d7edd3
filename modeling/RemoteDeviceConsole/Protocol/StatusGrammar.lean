import RemoteDeviceConsole.Protocol.StatusParser
import RemoteDeviceConsole.Framing.KeyedFields
import Mathlib.Data.List.Nodup

/-!
# The STATUS grammar

What a STATUS line is and what it says, without a scanner: the word `STATUS`, then words
of the form `key=value`, where the values of some keys must be numbers or flags and two
keys must occur.  `StatusLine` is the form of the line, `WellFormed` the conditions on the
fields and `SaysStatus` the record that they stand for.

`parseStatusLine_iff` says that `parse_status_line` accepts these lines and no others and
returns that record, and that its loop comes to an end.  The proof looks at one member of
the record at a time: `assignField_eq_some_iff` splits an assignment into the nine
members, and `foldlM_stepCell` answers for each.
-/

namespace RemoteDeviceConsole

open Framing

/-! ## Values -/

/-- The text is a decimal number in the range of a 32-bit `int`. -/
def DenotesInt (text : Bytes) (n : ℤ) : Prop :=
  (-2 ^ 31 ≤ n ∧ n < 2 ^ 31) ∧ ∃ digits, digits ≠ [] ∧ (∀ b ∈ digits, isDigit b = true) ∧
    (text = digits ∧ n = digitsValue digits ∨
      text = minusSign :: digits ∧ n = -(digitsValue digits : ℤ))

/-- The text is a digit string whose value fits into 64 bits. -/
def DenotesU64 (text : Bytes) (n : UInt64) : Prop :=
  text ≠ [] ∧ (∀ b ∈ text, isDigit b = true) ∧ digitsValue text = n.toNat

/-- `std::from_chars` reads the whole text as a double. -/
def DenotesDouble {D : Type} [CharconvDouble D] (text : Bytes) (d : D) : Prop :=
  CharconvDouble.fromChars text = some (d, [])

/-- The text is one of the four spellings of a flag. -/
def DenotesBool (text : Bytes) (b : Bool) : Prop :=
  (text = ascii "1" ∨ text = ascii "true") ∧ b = true ∨
    (text = ascii "0" ∨ text = ascii "false") ∧ b = false

theorem readToEnd_eq_some {α : Type*} {r : Option (α × Bytes)} {a : α} :
    readToEnd r = some a ↔ r = some (a, []) := by
  unfold readToEnd
  split
  · simp
  · next hne => simpa using fun h => hne a h

theorem parseDouble_eq_some {D : Type} [CharconvDouble D] {text : Bytes} {d : D} :
    parseDouble text = some d ↔ DenotesDouble text d :=
  readToEnd_eq_some

/-- A text is read to its end when it is all digits. -/
theorem takeWhile_isDigit_eq {text digits : Bytes} :
    text.takeWhile isDigit = digits ∧ text.dropWhile isDigit = [] ↔
      text = digits ∧ ∀ b ∈ digits, isDigit b = true := by
  rw [List.dropWhile_eq_nil_iff]
  constructor
  · rintro ⟨rfl, hall⟩
    rw [List.takeWhile_eq_self_iff.mpr hall]
    exact ⟨rfl, hall⟩
  · rintro ⟨rfl, hall⟩
    exact ⟨List.takeWhile_eq_self_iff.mpr hall, hall⟩

/-- **A number that is read to the end of its text**: all digits, and in range. -/
theorem readDigits_eq_some {α : Type*} {P : Bytes → Prop} [DecidablePred P] {f : Bytes → α}
    {text : Bytes} {a : α} :
    (if text.takeWhile isDigit = [] then none
      else if P (text.takeWhile isDigit) then
        some (f (text.takeWhile isDigit), text.dropWhile isDigit)
      else none) = some (a, []) ↔
      text ≠ [] ∧ (∀ b ∈ text, isDigit b = true) ∧ P text ∧ f text = a := by
  constructor
  · intro h
    split at h
    · exact absurd h (by simp)
    · next hne =>
      split at h
      · next hrange =>
        obtain ⟨hvalue, hrest⟩ := Prod.mk.inj (Option.some.inj h)
        obtain ⟨htext, hdigits⟩ := takeWhile_isDigit_eq.mp ⟨rfl, hrest⟩
        rw [← htext] at hne hdigits hrange hvalue
        exact ⟨hne, hdigits, hrange, hvalue⟩
      · exact absurd h (by simp)
  · rintro ⟨hne, hdigits, hrange, rfl⟩
    obtain ⟨htake, hdrop⟩ := takeWhile_isDigit_eq.mpr ⟨rfl, hdigits⟩
    rw [htake, hdrop, if_neg hne, if_pos hrange]

theorem parseU64_eq_some {text : Bytes} {n : UInt64} :
    parseU64 text = some n ↔ DenotesU64 text n := by
  have hread : fromCharsU64 text = some (n, []) ↔ _ :=
    readDigits_eq_some (P := fun digits => digitsValue digits < 2 ^ 64)
      (f := fun digits => UInt64.ofNat (digitsValue digits))
  rw [parseU64, readToEnd_eq_some, hread, DenotesU64]
  refine and_congr_right fun _ => and_congr_right fun _ => ?_
  constructor
  · rintro ⟨hlt, rfl⟩
    rw [UInt64.toNat_ofNat', Nat.mod_eq_of_lt hlt]
  · intro hvalue
    have hlt : digitsValue text < 2 ^ 64 := hvalue ▸ n.toNat_lt
    exact ⟨hlt, by rw [hvalue, UInt64.ofNat_toNat]⟩

theorem parseBool_eq_some {text : Bytes} {b : Bool} :
    parseBool text = some b ↔ DenotesBool text b := by
  have hdiff : ascii "1" ≠ ascii "0" ∧ ascii "1" ≠ ascii "false" ∧ ascii "true" ≠ ascii "0" ∧
      ascii "true" ≠ ascii "false" := by decide +kernel
  rw [parseBool, DenotesBool]
  split
  · next htrue =>
    have hfalse : ¬ (text = ascii "0" ∨ text = ascii "false") := by
      rcases htrue with rfl | rfl <;> simp [hdiff]
    simp [htrue, hfalse, eq_comm]
  · next htrue =>
    split
    · next hfalse => simp [htrue, hfalse, eq_comm]
    · next hfalse => simp [htrue, hfalse]

theorem notMem_minusSign {digits : Bytes} (h : ∀ b ∈ digits, isDigit b = true) :
    digits.head? ≠ some minusSign := by
  intro hhead
  have hdigit := h minusSign (List.mem_of_mem_head? hhead)
  exact absurd hdigit (by decide)

theorem parseInt_eq_some {text : Bytes} {n : ℤ} : parseInt text = some n ↔ DenotesInt text n := by
  rw [parseInt, readToEnd_eq_some, DenotesInt]
  by_cases hminus : text.head? = some minusSign
  · -- the sign is taken off first
    obtain ⟨text, rfl⟩ := List.head?_eq_some_iff.mp hminus
    have hread : fromCharsInt (minusSign :: text) = some (n, []) ↔ _ :=
      readDigits_eq_some
        (P := fun digits =>
          -2 ^ 31 ≤ -(digitsValue digits : ℤ) ∧ -(digitsValue digits : ℤ) < 2 ^ 31)
        (f := fun digits => -(digitsValue digits : ℤ))
    rw [hread]
    constructor
    · rintro ⟨hne, hdigits, hrange, rfl⟩
      exact ⟨hrange, text, hne, hdigits, Or.inr ⟨rfl, rfl⟩⟩
    · rintro ⟨hrange, digits, hne, hdigits, ⟨rfl, -⟩ | ⟨htext, rfl⟩⟩
      · exact absurd rfl (notMem_minusSign hdigits)
      · obtain rfl := (List.cons.inj htext).2
        exact ⟨hne, hdigits, hrange, rfl⟩
  · have hread : fromCharsInt text = some (n, []) ↔ text ≠ [] ∧ (∀ b ∈ text, isDigit b = true) ∧
        (-2 ^ 31 ≤ (digitsValue text : ℤ) ∧ (digitsValue text : ℤ) < 2 ^ 31) ∧
        (digitsValue text : ℤ) = n := by
      rw [fromCharsInt]
      simp only [hminus, decide_false, Bool.false_eq_true, if_false]
      exact readDigits_eq_some
        (P := fun digits => -2 ^ 31 ≤ (digitsValue digits : ℤ) ∧ (digitsValue digits : ℤ) < 2 ^ 31)
        (f := fun digits => (digitsValue digits : ℤ))
    rw [hread]
    constructor
    · rintro ⟨hne, hdigits, hrange, rfl⟩
      exact ⟨hrange, text, hne, hdigits, Or.inl ⟨rfl, rfl⟩⟩
    · rintro ⟨hrange, digits, hne, hdigits, ⟨rfl, rfl⟩ | ⟨rfl, -⟩⟩
      · exact ⟨hne, hdigits, hrange, rfl⟩
      · exact absurd rfl hminus

/-- **What `std::to_string` prints, the parser reads back.** -/
theorem parseInt_toStringInt {n : ℤ} (h : -2 ^ 31 ≤ n ∧ n < 2 ^ 31) :
    parseInt (toStringInt n) = some n := by
  have hdigits : ∀ b ∈ decimal n.natAbs, isDigit b = true := fun b hb => isDigit_of_mem_decimal hb
  rw [parseInt_eq_some, toStringInt]
  refine ⟨h, decimal n.natAbs, decimal_ne_nil _, hdigits, ?_⟩
  rw [digitsValue_decimal]
  split
  · exact Or.inr ⟨rfl, by omega⟩
  · exact Or.inl ⟨rfl, by omega⟩

/-! ## Lines -/

/-- The line, its end stripped, is the word `STATUS`, which ends there or at a space, and
words that are these fields. -/
def StatusLine (line : Bytes) (fields : List (Bytes × Bytes)) : Prop :=
  ∃ rest, stripLineEnd line = ascii "STATUS" ++ rest ∧ (rest = [] ∨ rest.head? = some space) ∧
    words space rest = fields.map fieldToken ∧ ∀ field ∈ fields, IsField field

/-- The values of the keys that the protocol knows can be read, and an id and a state are
given.  A key that it does not know may have any value. -/
structure WellFormed (D : Type) [CharconvDouble D] (fields : List (Bytes × Bytes)) : Prop where
  deviceId : valuesOf (ascii "device_id") fields ≠ []
  state : valuesOf (ascii "state") fields ≠ []
  battery : ∀ value ∈ valuesOf (ascii "battery") fields, ∃ n, DenotesInt value n
  x : ∀ value ∈ valuesOf (ascii "x") fields, ∃ d : D, DenotesDouble value d
  y : ∀ value ∈ valuesOf (ascii "y") fields, ∃ d : D, DenotesDouble value d
  z : ∀ value ∈ valuesOf (ascii "z") fields, ∃ d : D, DenotesDouble value d
  seq : ∀ value ∈ valuesOf (ascii "seq") fields, ∃ n, DenotesU64 value n
  sentMs : ∀ value ∈ valuesOf (ascii "sent_ms") fields, ∃ n, DenotesU64 value n
  ack : ∀ value ∈ valuesOf (ascii "ack") fields, ∃ b, DenotesBool value b

/-- What the last of these values says, or the default when there is none. -/
def LastSays {α : Type*} (denotes : Bytes → α → Prop) (absent : α) (values : List Bytes) (a : α) :
    Prop :=
  match values.getLast? with
  | none => a = absent
  | some value => denotes value a

/-- Every member of the record is what the last value of its key says. -/
structure SaysStatus {D : Type} [CharconvDouble D] (fields : List (Bytes × Bytes))
    (status : DeviceStatus D) : Prop where
  deviceId : LastSays Eq [] (valuesOf (ascii "device_id") fields) status.deviceId
  state : LastSays Eq [] (valuesOf (ascii "state") fields) status.state
  battery : LastSays DenotesInt 0 (valuesOf (ascii "battery") fields) status.batteryPercent
  x : LastSays DenotesDouble CharconvDouble.zero (valuesOf (ascii "x") fields) status.x
  y : LastSays DenotesDouble CharconvDouble.zero (valuesOf (ascii "y") fields) status.y
  z : LastSays DenotesDouble CharconvDouble.zero (valuesOf (ascii "z") fields) status.z
  seq : LastSays DenotesU64 0 (valuesOf (ascii "seq") fields) status.sequence
  sentMs : LastSays DenotesU64 0 (valuesOf (ascii "sent_ms") fields) status.sentMs
  ack : LastSays DenotesBool false (valuesOf (ascii "ack") fields) status.ackRequested

/-! ## Assignments, member by member -/

variable {D : Type} [CharconvDouble D]

/-- An assignment is one step for each member of the record. -/
@[mk_iff]
structure AssignCells (s s' : DeviceStatus D) (field : Bytes × Bytes) : Prop where
  deviceId : stepCell some (ascii "device_id") s.deviceId field = some s'.deviceId
  state : stepCell some (ascii "state") s.state field = some s'.state
  battery : stepCell parseInt (ascii "battery") s.batteryPercent field = some s'.batteryPercent
  x : stepCell parseDouble (ascii "x") s.x field = some s'.x
  y : stepCell parseDouble (ascii "y") s.y field = some s'.y
  z : stepCell parseDouble (ascii "z") s.z field = some s'.z
  seq : stepCell parseU64 (ascii "seq") s.sequence field = some s'.sequence
  sentMs : stepCell parseU64 (ascii "sent_ms") s.sentMs field = some s'.sentMs
  ack : stepCell parseBool (ascii "ack") s.ackRequested field = some s'.ackRequested

theorem assignField_eq_some_iff {s s' : DeviceStatus D} {field : Bytes × Bytes} :
    assignField s field.1 field.2 = some s' ↔ AssignCells s s' field := by
  obtain ⟨key, value⟩ := field
  obtain ⟨deviceId, state, battery, x, y, z, sequence, sentMs, ack⟩ := s
  obtain ⟨deviceId', state', battery', x', y', z', sequence', sentMs', ack'⟩ := s'
  have hne := nodup_statusKeys
  have hne' := List.nodup_reverse.mp nodup_statusKeys
  simp only [List.reverse_cons, List.reverse_nil, List.nil_append, List.cons_append,
    List.nodup_cons, List.mem_cons, List.not_mem_nil, or_false, not_or] at hne hne'
  rw [assignCells_iff, assignField]
  simp only [stepCell]
  by_cases h1 : key = ascii "device_id"
  · subst h1
    simp [hne', and_left_comm]
  by_cases h2 : key = ascii "state"
  · subst h2
    simp [hne, hne', and_left_comm]
  by_cases h3 : key = ascii "battery"
  · subst h3
    simp [hne, hne', and_left_comm]
  by_cases h4 : key = ascii "x"
  · subst h4
    simp [hne, hne', and_left_comm]
  by_cases h5 : key = ascii "y"
  · subst h5
    simp [hne, hne', and_left_comm]
  by_cases h6 : key = ascii "z"
  · subst h6
    simp [hne, hne', and_left_comm]
  by_cases h7 : key = ascii "seq"
  · subst h7
    simp [hne, hne', and_left_comm]
  by_cases h8 : key = ascii "sent_ms"
  · subst h8
    simp [hne, hne', and_left_comm]
  by_cases h9 : key = ascii "ack"
  · subst h9
    simp [hne, and_left_comm]
  -- a key of no member
  simp [h1, h2, h3, h4, h5, h6, h7, h8, h9]

/-- The fold over the fields, member by member. -/
theorem foldlM_assignField_iff {fields : List (Bytes × Bytes)} {s s' : DeviceStatus D} :
    fields.foldlM (fun status field => assignField status field.1 field.2) s = some s' ↔
      fields.foldlM (stepCell some (ascii "device_id")) s.deviceId = some s'.deviceId ∧
      fields.foldlM (stepCell some (ascii "state")) s.state = some s'.state ∧
      fields.foldlM (stepCell parseInt (ascii "battery")) s.batteryPercent =
        some s'.batteryPercent ∧
      fields.foldlM (stepCell parseDouble (ascii "x")) s.x = some s'.x ∧
      fields.foldlM (stepCell parseDouble (ascii "y")) s.y = some s'.y ∧
      fields.foldlM (stepCell parseDouble (ascii "z")) s.z = some s'.z ∧
      fields.foldlM (stepCell parseU64 (ascii "seq")) s.sequence = some s'.sequence ∧
      fields.foldlM (stepCell parseU64 (ascii "sent_ms")) s.sentMs = some s'.sentMs ∧
      fields.foldlM (stepCell parseBool (ascii "ack")) s.ackRequested = some s'.ackRequested := by
  induction fields generalizing s with
  | nil =>
    obtain ⟨deviceId, state, battery, x, y, z, sequence, sentMs, ack⟩ := s
    obtain ⟨deviceId', state', battery', x', y', z', sequence', sentMs', ack'⟩ := s'
    simp
  | cons field fields ih =>
    simp only [List.foldlM_cons, Option.bind_eq_bind, Option.bind_eq_some_iff,
      assignField_eq_some_iff, ih]
    constructor
    · rintro ⟨t, h, h1, h2, h3, h4, h5, h6, h7, h8, h9⟩
      exact ⟨⟨_, h.deviceId, h1⟩, ⟨_, h.state, h2⟩, ⟨_, h.battery, h3⟩, ⟨_, h.x, h4⟩,
        ⟨_, h.y, h5⟩, ⟨_, h.z, h6⟩, ⟨_, h.seq, h7⟩, ⟨_, h.sentMs, h8⟩, ⟨_, h.ack, h9⟩⟩
    · rintro ⟨⟨a, ha, h1⟩, ⟨b, hb, h2⟩, ⟨c, hc, h3⟩, ⟨d, hd, h4⟩, ⟨e, he, h5⟩, ⟨f, hf, h6⟩,
        ⟨g, hg, h7⟩, ⟨h, hh, h8⟩, ⟨i, hi, h9⟩⟩
      exact ⟨⟨a, b, c, d, e, f, g, h, i⟩, ⟨ha, hb, hc, hd, he, hf, hg, hh, hi⟩, h1, h2, h3, h4, h5,
        h6, h7, h8, h9⟩

/-! ## The parser -/

/-- The parser as a fold over the words of the line. -/
theorem parseStatusLine_eq_some_iff {line : Bytes} {status : DeviceStatus D} :
    parseStatusLine line = some status ↔
      ∃ fields, StatusLine line fields ∧ status.deviceId ≠ [] ∧ status.state ≠ [] ∧
        fields.foldlM (fun status field => assignField status field.1 field.2)
          DeviceStatus.default = some status := by
  have hparse : parseStatusLine line = some status ↔
      parseFields kStatusPrefix assignField DeviceStatus.default line = some status ∧
        status.deviceId ≠ [] ∧ status.state ≠ [] := by
    rw [parseStatusLine]
    split
    · next hnone => simp [hnone]
    · next result hresult =>
      rw [hresult]
      split
      · next hempty =>
        constructor
        · exact fun h => absurd h (by simp)
        · rintro ⟨h, hid, hstate⟩
          rw [Option.some.inj h] at hempty
          exact absurd hempty (by simp [hid, hstate])
      · next hempty =>
        rw [not_or] at hempty
        constructor
        · intro h
          exact ⟨h, Option.some.inj h ▸ hempty⟩
        · exact fun h => h.1
  rw [hparse]
  constructor
  · rintro ⟨h, hid, hstate⟩
    obtain ⟨rest, hstrip, hrest, hfold⟩ := exists_rest_of_parseFields h
    obtain ⟨fields, hwords, hfields, hassign⟩ := foldlM_assignToken_iff.mp hfold
    exact ⟨fields, ⟨rest, hstrip, hrest, hwords, hfields⟩, hid, hstate, hassign⟩
  · rintro ⟨fields, ⟨rest, hstrip, hrest, hwords, hfields⟩, hid, hstate, hassign⟩
    refine ⟨?_, hid, hstate⟩
    have hword : stripLineEnd line = kStatusPrefix ++ rest := hstrip
    rw [parseFields_eq assignField DeviceStatus.default hword hrest]
    exact foldlM_assignToken_iff.mpr ⟨fields, hwords, hfields, hassign⟩

omit [CharconvDouble D] in
theorem isLast_iff {α : Type*} {read : Bytes → Option α} {denotes : Bytes → α → Prop} {absent a : α}
    {values : List Bytes} (h : ∀ {value a}, read value = some a ↔ denotes value a) :
    IsLast read absent values a ↔ LastSays denotes absent values a := by
  unfold IsLast LastSays
  cases values.getLast? with
  | none => rfl
  | some value => exact h

/-- The fold over the fields of a line: all values can be read, and the last ones count. -/
theorem foldlM_assignField_default_iff {fields : List (Bytes × Bytes)} {status : DeviceStatus D} :
    fields.foldlM (fun status field => assignField status field.1 field.2) DeviceStatus.default =
        some status ↔
      ((∀ value ∈ valuesOf (ascii "battery") fields, ∃ n, DenotesInt value n) ∧
        (∀ value ∈ valuesOf (ascii "x") fields, ∃ d : D, DenotesDouble value d) ∧
        (∀ value ∈ valuesOf (ascii "y") fields, ∃ d : D, DenotesDouble value d) ∧
        (∀ value ∈ valuesOf (ascii "z") fields, ∃ d : D, DenotesDouble value d) ∧
        (∀ value ∈ valuesOf (ascii "seq") fields, ∃ n, DenotesU64 value n) ∧
        (∀ value ∈ valuesOf (ascii "sent_ms") fields, ∃ n, DenotesU64 value n) ∧
        (∀ value ∈ valuesOf (ascii "ack") fields, ∃ b, DenotesBool value b)) ∧
      SaysStatus fields status := by
  have hid : ∀ {value text : Bytes}, some value = some text ↔ value = text := by simp
  rw [foldlM_assignField_iff]
  simp only [foldlM_stepCell, DeviceStatus.default, isLast_iff hid, isLast_iff parseInt_eq_some,
    isLast_iff parseDouble_eq_some, isLast_iff parseU64_eq_some, isLast_iff parseBool_eq_some,
    parseInt_eq_some, parseDouble_eq_some, parseU64_eq_some, parseBool_eq_some]
  constructor
  · rintro ⟨⟨-, h1⟩, ⟨-, h2⟩, ⟨v3, h3⟩, ⟨v4, h4⟩, ⟨v5, h5⟩, ⟨v6, h6⟩, ⟨v7, h7⟩, ⟨v8, h8⟩, v9, h9⟩
    exact ⟨⟨v3, v4, v5, v6, v7, v8, v9⟩, h1, h2, h3, h4, h5, h6, h7, h8, h9⟩
  · rintro ⟨⟨v3, v4, v5, v6, v7, v8, v9⟩, h1, h2, h3, h4, h5, h6, h7, h8, h9⟩
    exact ⟨⟨by simp, h1⟩, ⟨by simp, h2⟩, ⟨v3, h3⟩, ⟨v4, h4⟩, ⟨v5, h5⟩, ⟨v6, h6⟩, ⟨v7, h7⟩, ⟨v8, h8⟩,
      v9, h9⟩

/-- What the last of some non-empty values says is not empty. -/
theorem LastSays.ne_nil_iff {values : List Bytes} {text : Bytes} (h : LastSays Eq [] values text)
    (hvalues : ∀ value ∈ values, value ≠ []) : text ≠ [] ↔ values ≠ [] := by
  unfold LastSays at h
  split at h
  · next hnone => simp [h, List.getLast?_eq_none_iff.mp hnone]
  · next value hlast =>
    have hmem := List.mem_of_getLast? hlast
    exact iff_of_true (h ▸ hvalues value hmem) (List.ne_nil_of_mem hmem)

/-- When all values can be read, the last one says something. -/
theorem exists_lastSays {α : Type*} {denotes : Bytes → α → Prop} (absent : α) {values : List Bytes}
    (h : ∀ value ∈ values, ∃ a, denotes value a) : ∃ a, LastSays denotes absent values a := by
  unfold LastSays
  cases hlast : values.getLast? with
  | none => exact ⟨absent, rfl⟩
  | some value => exact h value (List.mem_of_getLast? hlast)

theorem WellFormed.exists_saysStatus {fields : List (Bytes × Bytes)} (h : WellFormed D fields) :
    ∃ status : DeviceStatus D, SaysStatus fields status := by
  obtain ⟨deviceId, h1⟩ := exists_lastSays [] fun value (_ : value ∈
    valuesOf (ascii "device_id") fields) => (⟨value, rfl⟩ : ∃ text, value = text)
  obtain ⟨state, h2⟩ := exists_lastSays [] fun value (_ : value ∈
    valuesOf (ascii "state") fields) => (⟨value, rfl⟩ : ∃ text, value = text)
  obtain ⟨battery, h3⟩ := exists_lastSays 0 h.battery
  obtain ⟨x, h4⟩ := exists_lastSays CharconvDouble.zero h.x
  obtain ⟨y, h5⟩ := exists_lastSays CharconvDouble.zero h.y
  obtain ⟨z, h6⟩ := exists_lastSays CharconvDouble.zero h.z
  obtain ⟨sequence, h7⟩ := exists_lastSays 0 h.seq
  obtain ⟨sentMs, h8⟩ := exists_lastSays 0 h.sentMs
  obtain ⟨ack, h9⟩ := exists_lastSays false h.ack
  exact ⟨⟨deviceId, state, battery, x, y, z, sequence, sentMs, ack⟩, h1, h2, h3, h4, h5, h6, h7, h8,
    h9⟩

/-- The parser and the grammar, with the record. -/
theorem parseStatusLine_eq_some_iff_grammar {line : Bytes} {status : DeviceStatus D} :
    parseStatusLine line = some status ↔
      ∃ fields, StatusLine line fields ∧ WellFormed D fields ∧ SaysStatus fields status := by
  rw [parseStatusLine_eq_some_iff]
  refine exists_congr fun fields => and_congr_right fun hline => ?_
  have hne : ∀ key, ∀ value ∈ valuesOf key fields, value ≠ [] := by
    obtain ⟨-, -, -, -, hfields⟩ := hline
    exact fun key value hvalue => (hfields _ (mem_valuesOf.mp hvalue)).2.2
  rw [foldlM_assignField_default_iff]
  constructor
  · rintro ⟨hid, hstate, ⟨h3, h4, h5, h6, h7, h8, h9⟩, hmeans⟩
    exact ⟨⟨(hmeans.deviceId.ne_nil_iff (hne _)).mp hid,
      (hmeans.state.ne_nil_iff (hne _)).mp hstate, h3, h4, h5, h6, h7, h8, h9⟩, hmeans⟩
  · rintro ⟨⟨hid, hstate, h3, h4, h5, h6, h7, h8, h9⟩, hmeans⟩
    exact ⟨(hmeans.deviceId.ne_nil_iff (hne _)).mpr hid,
      (hmeans.state.ne_nil_iff (hne _)).mpr hstate, ⟨h3, h4, h5, h6, h7, h8, h9⟩, hmeans⟩

variable (D) in
/-- **The STATUS grammar.**  `parse_status_line` returns a value for the lines of the grammar
and for no others.  The value is the record that the fields of the line stand for: the last
value of each key counts, and an absent key leaves the default.  The loop over the tokens
takes no more rounds than the line has bytes. -/
theorem parseStatusLine_iff (line : Bytes) :
    ((∃ status : DeviceStatus D, parseStatusLine line = some status) ↔
      ∃ fields, StatusLine line fields ∧ WellFormed D fields) ∧
    (∀ status : DeviceStatus D, parseStatusLine line = some status ↔
      ∃ fields, StatusLine line fields ∧ WellFormed D fields ∧ SaysStatus fields status) ∧
    ∀ record : DeviceStatus D,
      scanRounds assignField (stripLineEnd line) line.length kStatusPrefix.length record =
        some (scanFields assignField (stripLineEnd line) kStatusPrefix.length record) := by
  refine ⟨⟨?_, ?_⟩, fun status => parseStatusLine_eq_some_iff_grammar, fun record => ?_⟩
  · rintro ⟨status, h⟩
    obtain ⟨fields, hline, hwell, -⟩ := parseStatusLine_eq_some_iff_grammar.mp h
    exact ⟨fields, hline, hwell⟩
  · rintro ⟨fields, hline, hwell⟩
    obtain ⟨status, hmeans⟩ := hwell.exists_saysStatus
    exact ⟨status, parseStatusLine_eq_some_iff_grammar.mpr ⟨fields, hline, hwell, hmeans⟩⟩
  · have hlen := (stripLineEnd_isPrefix line).length_le
    exact scanRounds_eq _ _ record (by omega)

end RemoteDeviceConsole
