import RemoteDeviceConsole.Protocol.Text
import RemoteDeviceConsole.Framing.Frames
import RemoteDeviceConsole.Framing.Words

/-!
# The scanning loop of the line parsers

`parse_status_line` and `parse_metrics_line` are the same loop over the same
token grammar; they differ in the first word of the line, in the record and in
`assign_field`.  `parseFields` is that common function with the three as
parameters.

The loop keeps an index into the line and advances it in two ways, over one
space or over one token.  `scanFields_eq` says that it computes the fold of
`assignToken` over the words of the rest of the line, and `parseFields_eq` says
so for the whole function.  Everything proved about the parsers uses the fold.

The programs print their lines in the same grammar: `printFields` is a word and a
token for each field, and `parseFields_printFields` says that the parser assigns
the fields in their order when they are clean.
-/

namespace RemoteDeviceConsole

open Framing

variable {σ : Type*}

/-! ## The code -/

/-- Drop the last byte when it is `b`. -/
def removeSuffix (b : UInt8) (line : Bytes) : Bytes :=
  if line.getLast? = some b then line.dropLast else line

/-- One trailing newline is dropped, then one trailing carriage return. -/
def stripLineEnd (line : Bytes) : Bytes :=
  removeSuffix carriageReturn (removeSuffix newline line)

/-- `line.find(' ', position)`, or the end of the line. -/
def tokenEnd (line : Bytes) (position : ℕ) : ℕ :=
  match (line.drop position).findIdx? (· = space) with
  | none => line.length
  | some i => position + i

/-- One token: split at its first `=`, both sides non-empty, and assign. -/
def assignToken (assign : σ → Bytes → Bytes → Option σ) (record : σ) (token : Bytes) :
    Option σ :=
  match token.findIdx? (· = equalsSign) with
  | none => none
  | some equals =>
      if equals = 0 ∨ equals + 1 = token.length then none
      else assign record (token.take equals) (token.drop (equals + 1))

theorem lt_tokenEnd {line : Bytes} {position : ℕ} (h : position < line.length)
    (hs : (line)[position] ≠ space) : position < tokenEnd line position := by
  unfold tokenEnd
  split
  · exact h
  · next i hi =>
    rcases i with _ | i
    · rw [List.drop_eq_getElem_cons h, List.findIdx?_cons] at hi
      simp [hs] at hi
    · omega

/-- The loop `while (position < line.size())`. -/
def scanFields (assign : σ → Bytes → Bytes → Option σ) (line : Bytes) (position : ℕ)
    (record : σ) : Option σ :=
  if h : position < line.length then
    if hs : (line)[position] = space then scanFields assign line (position + 1) record
    else
      let token := (line.drop position).take (tokenEnd line position - position)
      match assignToken assign record token with
      | none => none
      | some record =>
          have := lt_tokenEnd h hs
          scanFields assign line (tokenEnd line position) record
  else some record
termination_by line.length - position

/-- The same loop, left after a number of rounds: `none` when it has not come to its end. -/
def scanRounds (assign : σ → Bytes → Bytes → Option σ) (line : Bytes) :
    ℕ → ℕ → σ → Option (Option σ)
  | 0, position, record => if position < line.length then none else some (some record)
  | rounds + 1, position, record =>
      if h : position < line.length then
        if (line)[position] = space then scanRounds assign line rounds (position + 1) record
        else
          let token := (line.drop position).take (tokenEnd line position - position)
          match assignToken assign record token with
          | none => some none
          | some record => scanRounds assign line rounds (tokenEnd line position) record
      else some (some record)

/-- **The loop ends**: every round takes it forward, so the length of the line bounds their
number. -/
theorem scanRounds_eq (assign : σ → Bytes → Bytes → Option σ) (line : Bytes) {rounds : ℕ} :
    ∀ {position : ℕ} (record : σ), line.length ≤ position + rounds →
      scanRounds assign line rounds position record =
        some (scanFields assign line position record) := by
  induction rounds with
  | zero =>
    intro position record hlen
    have hend : ¬ position < line.length := by omega
    rw [scanRounds, scanFields, if_neg hend, dif_neg hend]
  | succ rounds ih =>
    intro position record hlen
    rw [scanRounds, scanFields]
    split
    · next h =>
      split
      · exact ih record (by omega)
      · next hs =>
        have hlt := lt_tokenEnd h hs
        cases htoken : assignToken assign record
            ((line.drop position).take (tokenEnd line position - position)) with
        | none => simp only [htoken]
        | some record => simp only [htoken]; exact ih record (by omega)
    · rfl

/-- The function both parsers are: strip the line end, check the first word and
what follows it, then scan the fields. -/
def parseFields (word : Bytes) (assign : σ → Bytes → Bytes → Option σ) (record : σ)
    (line : Bytes) : Option σ :=
  let line := stripLineEnd line
  if startsWith line word = false then none
  else if line.length > word.length ∧ (line)[word.length]? ≠ some space then none
  else scanFields assign line word.length record

/-! ## The loop is a fold over the words -/

/-- The token at a position that is not a space, and what follows it. -/
theorem exists_token {line : Bytes} {position : ℕ} (h : position < line.length)
    (hs : (line)[position] ≠ space) :
    ∃ rest, line.drop position =
        (line.drop position).take (tokenEnd line position - position) ++ rest ∧
      rest = line.drop (tokenEnd line position) ∧
      space ∉ (line.drop position).take (tokenEnd line position - position) ∧
      (rest = [] ∨ rest.head? = some space) := by
  have hlt := lt_tokenEnd h hs
  have hrest : (line.drop position).drop (tokenEnd line position - position) =
      line.drop (tokenEnd line position) := by
    rw [List.drop_drop]
    congr 1
    omega
  refine ⟨line.drop (tokenEnd line position), ?_, rfl, ?_, ?_⟩
  · rw [← hrest, List.take_append_drop]
  · unfold tokenEnd
    cases hi : (line.drop position).findIdx? (· = space) with
    | none =>
      rw [List.findIdx?_eq_none_iff] at hi
      exact fun hmem => absurd (hi _ (List.mem_of_mem_take hmem)) (by simp)
    | some i =>
      rw [List.findIdx?_eq_some_iff_getElem] at hi
      obtain ⟨hilt, -, hbefore⟩ := hi
      intro hmem
      simp only [Nat.add_sub_cancel_left] at hmem
      obtain ⟨j, hj, hje⟩ := List.getElem_of_mem hmem
      rw [List.length_take] at hj
      rw [List.getElem_take] at hje
      exact absurd hje (by simpa using hbefore j (by omega))
  · unfold tokenEnd
    cases hi : (line.drop position).findIdx? (· = space) with
    | none => exact Or.inl (List.drop_length ..)
    | some i =>
      rw [List.findIdx?_eq_some_iff_getElem] at hi
      obtain ⟨hilt, hsp, -⟩ := hi
      right
      rw [← List.drop_drop, List.head?_drop, List.getElem?_eq_getElem hilt]
      simpa using hsp

/-- **The scanning loop is a fold over the words of the rest of the line.** -/
theorem scanFields_eq (assign : σ → Bytes → Bytes → Option σ) (line : Bytes) (position : ℕ)
    (record : σ) :
    scanFields assign line position record =
      (words space (line.drop position)).foldlM (assignToken assign) record := by
  induction hn : line.length - position using Nat.strong_induction_on
    generalizing position record with
  | _ n ih =>
    rw [scanFields]
    by_cases h : position < line.length
    · rw [dif_pos h]
      by_cases hs : (line)[position] = space
      · rw [dif_pos hs, ih _ (by omega) (position + 1) record rfl,
          List.drop_eq_getElem_cons h, hs, words_cons_self]
      · rw [dif_neg hs]
        obtain ⟨rest, hdrop, hrest, hno, hnext⟩ := exists_token h hs
        have hlt := lt_tokenEnd h hs
        have hne : (line.drop position).take (tokenEnd line position - position) ≠ [] := by
          rw [List.drop_eq_getElem_cons h]
          obtain ⟨k, hk⟩ := Nat.exists_eq_succ_of_ne_zero
            (show tokenEnd line position - position ≠ 0 by omega)
          rw [hk]
          exact List.cons_ne_nil _ _
        conv_rhs => rw [hdrop, words_word_append hno hne hnext, List.foldlM_cons]
        cases ha : assignToken assign record
            ((line.drop position).take (tokenEnd line position - position)) with
        | none => simp only [ha]; rfl
        | some record' =>
          simp only [ha]
          rw [hrest]
          exact ih (line.length - tokenEnd line position) (by omega) _ record' rfl
    · rw [dif_neg h, List.drop_eq_nil_of_le (by omega), words_nil]
      rfl

/-- **The parser on a line**: the first word, then a fold over the words after it. -/
theorem parseFields_eq {word line rest : Bytes} (assign : σ → Bytes → Bytes → Option σ)
    (record : σ) (hline : stripLineEnd line = word ++ rest)
    (hrest : rest = [] ∨ rest.head? = some space) :
    parseFields word assign record line =
      (words space rest).foldlM (assignToken assign) record := by
  have hstart : startsWith (word ++ rest) word = true := startsWith_iff.mpr ⟨rest, rfl⟩
  have hspace : ¬ ((word ++ rest).length > word.length ∧
      (word ++ rest)[word.length]? ≠ some space) := by
    rintro ⟨hlen, hne⟩
    rcases hrest with rfl | hrest
    · simp at hlen
    · rw [List.getElem?_append_right (le_refl _), Nat.sub_self, ← List.head?_eq_getElem?] at hne
      exact hne hrest
  simp only [parseFields, hline, hstart]
  rw [if_neg (by simp), if_neg hspace, scanFields_eq, List.drop_left]

/-- A line that the parser accepts starts with the word, and the word ends there. -/
theorem exists_rest_of_parseFields {word line : Bytes} {assign : σ → Bytes → Bytes → Option σ}
    {record result : σ} (h : parseFields word assign record line = some result) :
    ∃ rest, stripLineEnd line = word ++ rest ∧ (rest = [] ∨ rest.head? = some space) ∧
      (words space rest).foldlM (assignToken assign) record = some result := by
  have hstart : startsWith (stripLineEnd line) word = true := by
    by_contra hno
    simp [parseFields, hno] at h
  obtain ⟨rest, hrest⟩ := startsWith_iff.mp hstart
  have hspace : rest = [] ∨ rest.head? = some space := by
    by_contra hno
    rw [not_or] at hno
    have hlen : (word ++ rest).length > word.length := by
      have := List.length_pos_of_ne_nil hno.1
      rw [List.length_append]
      omega
    have hne : (word ++ rest)[word.length]? ≠ some space := by
      rw [List.getElem?_append_right (le_refl _), Nat.sub_self, ← List.head?_eq_getElem?]
      exact hno.2
    simp only [parseFields, hrest, startsWith_iff.mpr ⟨rest, rfl⟩] at h
    rw [if_neg (by simp), if_pos ⟨hlen, hne⟩] at h
    exact absurd h (by simp)
  exact ⟨rest, hrest, hspace, by rw [← parseFields_eq assign record hrest hspace, h]⟩

/-! ## Tokens -/

theorem findIdx?_equals {key value : Bytes} (h : equalsSign ∉ key) :
    (key ++ equalsSign :: value).findIdx? (· = equalsSign) = some key.length := by
  have hnone : key.findIdx? (· = equalsSign) = none := by
    rw [List.findIdx?_eq_none_iff]
    intro b hb
    simpa using fun e : b = equalsSign => h (e ▸ hb)
  rw [List.findIdx?_append, hnone]
  simp [List.findIdx?_cons]

/-- A well-formed token is assigned under its key. -/
theorem assignToken_key_value (assign : σ → Bytes → Bytes → Option σ) (record : σ)
    {key value : Bytes} (hkey : equalsSign ∉ key) (hk : key ≠ []) (hv : value ≠ []) :
    assignToken assign record (key ++ equalsSign :: value) = assign record key value := by
  have hk' := List.length_pos_of_ne_nil hk
  have hv' := List.length_pos_of_ne_nil hv
  simp only [assignToken, findIdx?_equals hkey]
  rw [if_neg (by rw [List.length_append, List.length_cons]; omega), List.take_left]
  congr 1
  rw [List.drop_append, List.drop_eq_nil_of_le (by omega)]
  simp

/-- A token without `=` is rejected. -/
theorem assignToken_of_notMem (assign : σ → Bytes → Bytes → Option σ) (record : σ)
    {token : Bytes} (h : equalsSign ∉ token) : assignToken assign record token = none := by
  have hnone : token.findIdx? (· = equalsSign) = none := by
    rw [List.findIdx?_eq_none_iff]
    intro b hb
    simpa using fun e : b = equalsSign => h (e ▸ hb)
  rw [assignToken, hnone]

/-- A token that is accepted is a key and a value. -/
theorem exists_key_value_of_assignToken {assign : σ → Bytes → Bytes → Option σ}
    {record result : σ} {token : Bytes} (h : assignToken assign record token = some result) :
    ∃ key value, token = key ++ equalsSign :: value ∧ equalsSign ∉ key ∧ key ≠ [] ∧
      value ≠ [] ∧ assign record key value = some result := by
  by_cases hmem : equalsSign ∈ token
  · obtain ⟨key, value, hkey, rfl⟩ := exists_eq_append_cons_of_mem hmem
    have hside : key ≠ [] ∧ value ≠ [] := by
      rw [assignToken, findIdx?_equals hkey] at h
      constructor
      · rintro rfl
        simp at h
      · rintro rfl
        simp at h
    rw [assignToken_key_value assign record hkey hside.1 hside.2] at h
    exact ⟨key, value, rfl, hkey, hside.1, hside.2, h⟩
  · rw [assignToken_of_notMem assign record hmem] at h
    exact absurd h (by simp)

/-- A key and a value around the first `=` of a word, none of them empty. -/
def IsField (field : Bytes × Bytes) : Prop :=
  equalsSign ∉ field.1 ∧ field.1 ≠ [] ∧ field.2 ≠ []

/-- The token `key=value`. -/
def fieldToken (field : Bytes × Bytes) : Bytes := field.1 ++ equalsSign :: field.2

/-- The tokens of fields are assigned like the fields. -/
theorem foldlM_map_fieldToken {assign : σ → Bytes → Bytes → Option σ}
    {fields : List (Bytes × Bytes)} (h : ∀ field ∈ fields, IsField field) (record : σ) :
    (fields.map fieldToken).foldlM (assignToken assign) record =
      fields.foldlM (fun r field => assign r field.1 field.2) record := by
  rw [List.foldlM_map]
  induction fields generalizing record with
  | nil => rfl
  | cons field fields ih =>
    obtain ⟨⟨hkey, hk, hv⟩, hrest⟩ := List.forall_mem_cons.mp h
    rw [List.foldlM_cons, List.foldlM_cons, fieldToken,
      assignToken_key_value assign record hkey hk hv]
    congr 1
    funext r
    exact ih hrest r

/-- A fold that accepts all tokens is a fold over fields. -/
theorem foldlM_assignToken_iff {assign : σ → Bytes → Bytes → Option σ} {tokens : List Bytes}
    {record result : σ} :
    tokens.foldlM (assignToken assign) record = some result ↔
      ∃ fields : List (Bytes × Bytes), tokens = fields.map fieldToken ∧
        (∀ field ∈ fields, IsField field) ∧
        fields.foldlM (fun r field => assign r field.1 field.2) record = some result := by
  constructor
  · intro h
    induction tokens generalizing record with
    | nil => exact ⟨[], rfl, by simp, h⟩
    | cons token tokens ih =>
      rw [List.foldlM_cons, Option.bind_eq_bind, Option.bind_eq_some_iff] at h
      obtain ⟨next, hnext, hrest⟩ := h
      obtain ⟨key, value, rfl, hkey, hk, hv, hassign⟩ := exists_key_value_of_assignToken hnext
      obtain ⟨fields, rfl, hfields, hfold⟩ := ih hrest
      refine ⟨(key, value) :: fields, rfl, ?_, ?_⟩
      · exact List.forall_mem_cons.mpr ⟨⟨hkey, hk, hv⟩, hfields⟩
      · rw [List.foldlM_cons, hassign]
        exact hfold
  · rintro ⟨fields, rfl, hfields, h⟩
    rw [foldlM_map_fieldToken hfields, h]

/-- A fold over tokens that meets a rejected one fails, wherever it is. -/
theorem foldlM_eq_none_of_mem {step : σ → Bytes → Option σ} {token : Bytes}
    (h : ∀ record, step record token = none) :
    ∀ {tokens : List Bytes} (record : σ), token ∈ tokens → tokens.foldlM step record = none
  | [], _, hmem => absurd hmem (by simp)
  | t :: tokens, record, hmem => by
    rw [List.foldlM_cons]
    rcases List.mem_cons.mp hmem with rfl | hmem
    · rw [h record]; rfl
    · cases ht : step record t with
      | none => rfl
      | some record' => exact foldlM_eq_none_of_mem h record' hmem

/-- An invariant of a fold over tokens. -/
theorem foldlM_invariant {step : σ → Bytes → Option σ} {P : σ → Prop} :
    ∀ {tokens : List Bytes} {record result : σ},
      (∀ token ∈ tokens, ∀ r r', P r → step r token = some r' → P r') →
      P record → tokens.foldlM step record = some result → P result
  | [], record, result, _, h0, h => by
    have hres : record = result := by simpa using h
    exact hres ▸ h0
  | t :: tokens, record, result, hstep, h0, h => by
    rw [List.foldlM_cons] at h
    cases ht : step record t with
    | none => rw [ht] at h; exact absurd h (by simp)
    | some record' =>
      rw [ht] at h
      exact foldlM_invariant (fun t' ht' => hstep t' (by simp [ht']))
        (hstep t (by simp) record record' h0 ht) h

/-! ## Line ends -/

/-- Stripping only ever takes bytes off the end. -/
theorem removeSuffix_append {a b : Bytes} (c : UInt8) (hb : b ≠ []) :
    removeSuffix c (a ++ b) = a ++ removeSuffix c b := by
  have hlast : (a ++ b).getLast? = b.getLast? := List.getLast?_append_of_ne_nil a hb
  unfold removeSuffix
  rw [hlast]
  split
  · exact List.dropLast_append_of_ne_nil hb
  · rfl

theorem mem_of_mem_removeSuffix {b c : UInt8} {line : Bytes} (h : b ∈ removeSuffix c line) :
    b ∈ line := by
  unfold removeSuffix at h
  split at h
  · exact List.mem_of_mem_dropLast h
  · exact h

/-- The carriage return goes only with the newline behind it. -/
theorem stripLineEnd_of_frame {line body : Bytes} (h : line = body ++ [newline]) :
    stripLineEnd line = removeSuffix carriageReturn body := by
  rw [stripLineEnd, h]
  congr 1
  simp [removeSuffix]

theorem removeSuffix_of_getLast?_ne {c : UInt8} {line : Bytes} (h : line.getLast? ≠ some c) :
    removeSuffix c line = line := by
  rw [removeSuffix, if_neg h]

/-- Stripping the line end leaves a space, and all before it, alone. -/
theorem exists_stripLineEnd_append_space (a b : Bytes) :
    ∃ rest, stripLineEnd (a ++ space :: b) = a ++ space :: rest := by
  have hstep : ∀ (c : UInt8) (b : Bytes), c ≠ space → ∃ rest,
      removeSuffix c (a ++ space :: b) = a ++ space :: rest := by
    intro c b hc
    rw [removeSuffix_append c (List.cons_ne_nil _ _)]
    cases b with
    | nil => exact ⟨[], by rw [removeSuffix_of_getLast?_ne (by simpa using hc.symm)]⟩
    | cons x b =>
      rw [← List.singleton_append, removeSuffix_append c (List.cons_ne_nil _ _)]
      exact ⟨_, rfl⟩
  obtain ⟨rest, hrest⟩ := hstep newline b (by decide)
  obtain ⟨rest', hrest'⟩ := hstep carriageReturn rest (by decide)
  exact ⟨rest', by rw [stripLineEnd, hrest, hrest']⟩

/-- A line with a token that no record takes is rejected. -/
theorem parseFields_eq_none_of_token {word before token after : Bytes}
    {assign : σ → Bytes → Bytes → Option σ} (record : σ)
    (hbefore : before = [] ∨ before.head? = some space) (hspace : space ∉ token)
    (hne : token ≠ []) (hreject : ∀ r, assignToken assign r token = none) :
    parseFields word assign record (word ++ (before ++ space :: (token ++ space :: after))) =
      none := by
  obtain ⟨rest, hrest⟩ :=
    exists_stripLineEnd_append_space (word ++ before ++ space :: token) after
  have hstrip : stripLineEnd (word ++ (before ++ space :: (token ++ space :: after))) =
      word ++ (before ++ space :: (token ++ space :: rest)) := by
    simpa only [List.append_assoc, List.cons_append] using hrest
  have hhead : (before ++ space :: (token ++ space :: rest)).head? = some space := by
    rcases hbefore with rfl | hbefore
    · rfl
    · rw [List.head?_append, hbefore]
      rfl
  rw [parseFields_eq assign record hstrip (Or.inr hhead)]
  refine foldlM_eq_none_of_mem hreject record ?_
  rw [words_append_cons, words_word_append hspace hne (Or.inr rfl)]
  exact List.mem_append_right _ List.mem_cons_self

/-! ## Printing fields -/

/-- A line with one token for each field. -/
def printFields (word : Bytes) (fields : List (Bytes × Bytes)) : Bytes :=
  word ++ (fields.flatMap fun field => space :: fieldToken field) ++ [newline]

/-- A key without a byte that means something else. -/
def CleanKey (key : Bytes) : Prop :=
  key ≠ [] ∧ ∀ b ∈ [equalsSign, space, newline, carriageReturn], b ∉ key

/-- A value without a byte that would end it. -/
def CleanValue (value : Bytes) : Prop :=
  value ≠ [] ∧ ∀ b ∈ [space, newline, carriageReturn], b ∉ value

instance (key : Bytes) : Decidable (CleanKey key) := inferInstanceAs (Decidable (_ ∧ _))

instance (value : Bytes) : Decidable (CleanValue value) := inferInstanceAs (Decidable (_ ∧ _))

theorem cleanValue_toStringU64 (n : UInt64) : CleanValue (toStringU64 n) := by
  have hdigit : ∀ b ∈ [space, newline, carriageReturn], isDigit b = false := by decide +kernel
  exact ⟨toStringU64_ne_nil n, fun b hb => notMem_toStringU64 (hdigit b hb)⟩

theorem cleanValue_toStringInt_natCast (n : ℕ) : CleanValue (toStringInt (n : ℤ)) := by
  have hdigit : ∀ b ∈ [space, newline, carriageReturn], isDigit b = false := by decide +kernel
  exact ⟨toStringInt_natCast_ne_nil n, fun b hb => notMem_toStringInt_natCast (hdigit b hb)⟩

/-- A field that the parsers read back. -/
structure CleanField (field : Bytes × Bytes) : Prop where
  key : CleanKey field.1
  value : CleanValue field.2

theorem CleanField.equals_notMem {field : Bytes × Bytes} (h : CleanField field) :
    equalsSign ∉ field.1 :=
  h.key.2 _ (by simp)

theorem CleanField.notMem_fieldToken {field : Bytes × Bytes} (h : CleanField field) {b : UInt8}
    (hb : b ∈ [space, newline, carriageReturn]) : b ∉ fieldToken field := by
  have hsign : b ≠ equalsSign := by
    rintro rfl
    exact absurd hb (by decide)
  rw [fieldToken, List.mem_append, List.mem_cons, not_or, not_or]
  exact ⟨h.key.2 b (List.mem_cons_of_mem _ hb), hsign, h.value.2 b hb⟩

/-- Under a clean key the parsers take any value without a space. -/
theorem CleanKey.isField {key value : Bytes} (hkey : CleanKey key) (hv : value ≠ [])
    (hspace : space ∉ value) : IsField (key, value) ∧ space ∉ fieldToken (key, value) := by
  refine ⟨⟨hkey.2 _ (by simp), hkey.1, hv⟩, ?_⟩
  rw [fieldToken, List.mem_append, List.mem_cons, not_or, not_or]
  exact ⟨hkey.2 _ (by simp), by decide, hspace⟩

/-- A byte that is in no field and not in the word is not in front of the newline. -/
theorem notMem_word_append_fields {word : Bytes} {fields : List (Bytes × Bytes)} {b : UInt8}
    (hword : b ∉ word) (hb : b ≠ space) (hfields : ∀ field ∈ fields, b ∉ fieldToken field) :
    b ∉ word ++ fields.flatMap fun field => space :: fieldToken field := by
  rw [List.mem_append, List.mem_flatMap]
  rintro (hmem | ⟨field, hfield, hmem⟩)
  · exact hword hmem
  · rcases List.mem_cons.mp hmem with hmem | hmem
    · exact hb hmem
    · exact hfields field hfield hmem

/-- A printed line has one newline, at its end. -/
theorem isFrame_printFields {word : Bytes} {fields : List (Bytes × Bytes)}
    (hword : newline ∉ word) (h : ∀ field ∈ fields, CleanField field) :
    IsFrame newline (printFields word fields) :=
  ⟨_, notMem_word_append_fields hword (by decide)
    fun field hfield => (h field hfield).notMem_fieldToken (by simp), rfl⟩

/-- **Printing and parsing**: the parser assigns the fields in their order, when no token has
a space and the last one does not end in a carriage return. -/
theorem parseFields_printFields_of_getLast? {word : Bytes} {fields : List (Bytes × Bytes)}
    (assign : σ → Bytes → Bytes → Option σ) (record : σ)
    (hfields : ∀ field ∈ fields, IsField field ∧ space ∉ fieldToken field)
    (hlast : (word ++ fields.flatMap fun field => space :: fieldToken field).getLast? ≠
      some carriageReturn) :
    parseFields word assign record (printFields word fields) =
      fields.foldlM (fun r field => assign r field.1 field.2) record := by
  have hstrip : stripLineEnd (printFields word fields) =
      word ++ fields.flatMap fun field => space :: fieldToken field := by
    rw [printFields, stripLineEnd_of_frame rfl]
    exact removeSuffix_of_getLast?_ne hlast
  have hrest : (fields.flatMap fun field => space :: fieldToken field) = [] ∨
      (fields.flatMap fun field => space :: fieldToken field).head? = some space := by
    cases fields with
    | nil => exact Or.inl rfl
    | cons field fields => exact Or.inr rfl
  have hwords : words space (fields.flatMap fun field => space :: fieldToken field) =
      fields.map fieldToken := by
    rw [← @words_flatMap_cons _ _ space (fields.map fieldToken), List.flatMap_map]
    intro token htoken
    obtain ⟨field, hfield, rfl⟩ := List.mem_map.mp htoken
    exact ⟨(hfields field hfield).2, by simp [fieldToken]⟩
  rw [parseFields_eq assign record hstrip hrest, hwords]
  exact foldlM_map_fieldToken (fun field hfield => (hfields field hfield).1) record

/-- A line whose last value is clean ends, without its newline, in no carriage return. -/
theorem getLast?_fields {value : Bytes} (word : Bytes) (front : List (Bytes × Bytes)) (key : Bytes)
    (h : CleanValue value) :
    (word ++ (front ++ [(key, value)]).flatMap fun field => space :: fieldToken field).getLast? ≠
      some carriageReturn := by
  have hend : (word ++ (front ++ [(key, value)]).flatMap fun field => space :: fieldToken field) =
      (word ++ (front.flatMap fun field => space :: fieldToken field) ++
        space :: (key ++ [equalsSign])) ++ value := by
    simp [fieldToken]
  rw [hend, List.getLast?_append_of_ne_nil _ h.1]
  exact fun hlast => h.2 _ (by simp) (List.mem_of_getLast? hlast)

theorem parseFields_printFields {word : Bytes} {fields : List (Bytes × Bytes)}
    (assign : σ → Bytes → Bytes → Option σ) (record : σ) (hword : carriageReturn ∉ word)
    (h : ∀ field ∈ fields, CleanField field) :
    parseFields word assign record (printFields word fields) =
      fields.foldlM (fun r field => assign r field.1 field.2) record := by
  refine parseFields_printFields_of_getLast? assign record (fun field hfield => ?_) fun hlast => ?_
  · have hclean := h field hfield
    exact ⟨⟨hclean.equals_notMem, hclean.key.1, hclean.value.1⟩, hclean.notMem_fieldToken (by simp)⟩
  · exact notMem_word_append_fields hword (by decide)
      (fun field hfield => (h field hfield).notMem_fieldToken (by simp))
      (List.mem_of_getLast? hlast)

/-- A part of the ` key=value` groups ends inside one of them. -/
theorem exists_token_of_prefix {fields : List (Bytes × Bytes)} {q : Bytes} (hne : q ≠ [])
    (hq : q <+: fields.flatMap fun field => space :: fieldToken field) :
    ∃ before t, ∃ field ∈ fields, q = before ++ space :: t ∧ t <+: fieldToken field ∧
      (before = [] ∨ before.head? = some space) := by
  induction fields generalizing q with
  | nil => exact absurd (List.prefix_nil.mp hq) hne
  | cons field fields ih =>
    obtain ⟨q, rfl⟩ : ∃ tail, q = space :: tail := by
      cases q with
      | nil => exact absurd rfl hne
      | cons b q => exact ⟨q, by rw [(List.cons_prefix_cons.mp hq).1]⟩
    rw [List.flatMap_cons, List.cons_append, List.prefix_cons_inj] at hq
    obtain ⟨r, hr⟩ := hq
    rcases List.append_eq_append_iff.mp hr with ⟨c, hc, -⟩ | ⟨c, rfl, hc⟩
    · exact ⟨[], q, field, by simp, rfl, ⟨c, hc.symm⟩, Or.inl rfl⟩
    · by_cases hnil : c = []
      · exact ⟨[], fieldToken field, field, by simp, by simp [hnil], List.prefix_rfl, Or.inl rfl⟩
      · obtain ⟨before, t, g, hg, rfl, ht, -⟩ := ih hnil ⟨r, hc.symm⟩
        exact ⟨space :: (fieldToken field ++ before), t, g, by simp [hg], by simp, ht,
          Or.inr rfl⟩

end RemoteDeviceConsole
