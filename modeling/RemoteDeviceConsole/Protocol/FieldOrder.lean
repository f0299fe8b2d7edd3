import RemoteDeviceConsole.Protocol.StatusGrammar
import RemoteDeviceConsole.Protocol.ServerMetrics

/-!
# Order, spacing and unknown keys

Both parsers read a line as its tokens and a token as a key and a value.  The record that
they return has one member for each key that they know, and a member depends on the values
of its key alone, so what else is in the line and where it stands does not matter:

* `foldlM_assignToken_eq`: a token without a key or a value spoils the line wherever it is,
  and otherwise the fields are assigned.
* `foldlM_assignField_congr`, one for each parser: the assignments depend on the values of
  each known key.
* `parseFields_spacedLine`: the spacing and the line end are not in the tokens.

`parse_eq_of_tokenChanges` puts them together.
-/

namespace RemoteDeviceConsole

open Framing

/-! ## Tokens -/

/-- The text before the first `=`. -/
def keyOf (token : Bytes) : Bytes := token.takeWhile (· ≠ equalsSign)

/-- The text behind the first `=`. -/
def valueOf (token : Bytes) : Bytes := (token.dropWhile (· ≠ equalsSign)).tail

/-- A token that the scanner takes: a key, a sign and a value. -/
def IsKeyed (token : Bytes) : Prop :=
  equalsSign ∈ token ∧ keyOf token ≠ [] ∧ valueOf token ≠ []

instance (token : Bytes) : Decidable (IsKeyed token) := inferInstanceAs (Decidable (_ ∧ _))

theorem keyOf_valueOf {key : Bytes} (h : equalsSign ∉ key) (value : Bytes) :
    keyOf (key ++ equalsSign :: value) = key ∧ valueOf (key ++ equalsSign :: value) = value := by
  have hkey : ∀ b ∈ key, decide (b ≠ equalsSign) = true := by
    intro b hb
    simpa using fun heq : b = equalsSign => h (heq ▸ hb)
  rw [keyOf, valueOf, List.takeWhile_append_of_pos hkey, List.dropWhile_append_of_pos hkey]
  simp

/-- What the scanner does with a token. -/
theorem assignToken_eq {σ : Type*} (assign : σ → Bytes → Bytes → Option σ) (record : σ)
    (token : Bytes) :
    assignToken assign record token =
      if IsKeyed token then assign record (keyOf token) (valueOf token) else none := by
  split
  · next h =>
    obtain ⟨hmem, hk, hv⟩ := h
    obtain ⟨key, value, hkey, rfl⟩ := exists_eq_append_cons_of_mem hmem
    obtain ⟨h1, h2⟩ := keyOf_valueOf hkey value
    rw [h1] at hk ⊢
    rw [h2] at hv ⊢
    exact assignToken_key_value assign record hkey hk hv
  · next h =>
    by_contra hsome
    obtain ⟨result, hresult⟩ := Option.ne_none_iff_exists'.mp hsome
    obtain ⟨key, value, rfl, hkey, hk, hv, -⟩ := exists_key_value_of_assignToken hresult
    obtain ⟨h1, h2⟩ := keyOf_valueOf hkey value
    exact h ⟨by simp, by rwa [h1], by rwa [h2]⟩

/-- The fields of some tokens. -/
def fieldsOf (tokens : List Bytes) : List (Bytes × Bytes) :=
  tokens.map fun token => (keyOf token, valueOf token)

/-- **A list of tokens is rejected for a single one, or its fields are assigned.** -/
theorem foldlM_assignToken_eq {σ : Type*} (assign : σ → Bytes → Bytes → Option σ) (record : σ)
    (tokens : List Bytes) :
    tokens.foldlM (assignToken assign) record =
      if ∀ token ∈ tokens, IsKeyed token then
        (fieldsOf tokens).foldlM (fun r field => assign r field.1 field.2) record
      else none := by
  split
  · next h =>
    rw [fieldsOf, List.foldlM_map]
    induction tokens generalizing record with
    | nil => rfl
    | cons token tokens ih =>
      obtain ⟨htoken, htokens⟩ := List.forall_mem_cons.mp h
      rw [List.foldlM_cons, List.foldlM_cons, assignToken_eq, if_pos htoken]
      congr 1
      funext r
      exact ih r htokens
  · next h =>
    push Not at h
    obtain ⟨token, hmem, htoken⟩ := h
    refine foldlM_eq_none_of_mem (fun r => ?_) record hmem
    rw [assignToken_eq, if_neg htoken]

/-! ## The known keys -/

def statusKeys : List Bytes :=
  [ascii "device_id", ascii "state", ascii "battery", ascii "x", ascii "y", ascii "z",
    ascii "seq", ascii "sent_ms", ascii "ack"]

/-- The STATUS record depends on the values of each known key. -/
theorem foldlM_assignField_congr {D : Type} [CharconvDouble D]
    {fields fields' : List (Bytes × Bytes)}
    (h : ∀ key ∈ statusKeys, valuesOf key fields = valuesOf key fields') (status : DeviceStatus D) :
    fields.foldlM (fun status field => assignField status field.1 field.2) status =
      fields'.foldlM (fun status field => assignField status field.1 field.2) status := by
  simp only [statusKeys, List.forall_mem_cons, List.not_mem_nil, false_implies, implies_true,
    and_true] at h
  obtain ⟨h1, h2, h3, h4, h5, h6, h7, h8, h9⟩ := h
  ext result
  rw [foldlM_assignField_iff, foldlM_assignField_iff, foldlM_stepCell_congr h1,
    foldlM_stepCell_congr h2, foldlM_stepCell_congr h3, foldlM_stepCell_congr h4,
    foldlM_stepCell_congr h5, foldlM_stepCell_congr h6, foldlM_stepCell_congr h7,
    foldlM_stepCell_congr h8, foldlM_stepCell_congr h9]

namespace ServerMetrics

/-- An assignment is one step for each member of the snapshot. -/
@[mk_iff]
structure AssignCells (m m' : ServerMetrics) (field : Bytes × Bytes) : Prop where
  uptimeSec : stepCell parseU64 (ascii "uptime_sec") m.uptimeSec field = some m'.uptimeSec
  active : stepCell parseU64 (ascii "active") m.active field = some m'.active
  accepted : stepCell parseU64 (ascii "accepted") m.accepted field = some m'.accepted
  disconnected : stepCell parseU64 (ascii "disconnected") m.disconnected field =
    some m'.disconnected
  devices : stepCell parseU64 (ascii "devices") m.devices field = some m'.devices
  received : stepCell parseU64 (ascii "received") m.received field = some m'.received
  ackSent : stepCell parseU64 (ascii "ack_sent") m.ackSent field = some m'.ackSent
  parseErrors : stepCell parseU64 (ascii "parse_errors") m.parseErrors field = some m'.parseErrors
  broadcastErrors : stepCell parseU64 (ascii "broadcast_errors") m.broadcastErrors field =
    some m'.broadcastErrors
  msgPerSec : stepCell parseU64 (ascii "msg_per_sec") m.msgPerSec field = some m'.msgPerSec

theorem assignField_eq_some_iff {m m' : ServerMetrics} {field : Bytes × Bytes} :
    assignField m field.1 field.2 = some m' ↔ AssignCells m m' field := by
  obtain ⟨key, value⟩ := field
  obtain ⟨a1, a2, a3, a4, a5, a6, a7, a8, a9, a10⟩ := m
  obtain ⟨b1, b2, b3, b4, b5, b6, b7, b8, b9, b10⟩ := m'
  have hne := nodup_reverse_metricsKeys
  have hne' := List.nodup_reverse.mp nodup_reverse_metricsKeys
  simp only [metricsKeys, List.reverse_cons, List.reverse_nil, List.nil_append, List.cons_append,
    List.nodup_cons, List.mem_cons, List.not_mem_nil, or_false, not_or] at hne hne'
  rw [assignCells_iff, assignField]
  simp only [stepCell]
  by_cases h1 : key = ascii "uptime_sec"
  · subst h1
    simp [hne', and_left_comm]
  by_cases h2 : key = ascii "active"
  · subst h2
    simp [hne, hne', and_left_comm]
  by_cases h3 : key = ascii "accepted"
  · subst h3
    simp [hne, hne', and_left_comm]
  by_cases h4 : key = ascii "disconnected"
  · subst h4
    simp [hne, hne', and_left_comm]
  by_cases h5 : key = ascii "devices"
  · subst h5
    simp [hne, hne', and_left_comm]
  by_cases h6 : key = ascii "received"
  · subst h6
    simp [hne, hne', and_left_comm]
  by_cases h7 : key = ascii "ack_sent"
  · subst h7
    simp [hne, hne', and_left_comm]
  by_cases h8 : key = ascii "parse_errors"
  · subst h8
    simp [hne, hne', and_left_comm]
  by_cases h9 : key = ascii "broadcast_errors"
  · subst h9
    simp [hne, hne', and_left_comm]
  by_cases h10 : key = ascii "msg_per_sec"
  · subst h10
    simp [hne, and_left_comm]
  -- a key of no member
  simp [h1, h2, h3, h4, h5, h6, h7, h8, h9, h10]

/-- The fold over the fields, member by member. -/
theorem foldlM_assignField_iff {fields : List (Bytes × Bytes)} {m m' : ServerMetrics} :
    fields.foldlM (fun metrics field => assignField metrics field.1 field.2) m = some m' ↔
      List.Forall₂ (fun a b => fields.foldlM (stepCell parseU64 a.1) a.2 = some b.2)
        (metricsFields m) (metricsFields m') := by
  simp only [metricsFields, metricsKeys, List.zip_cons_cons, List.zip_nil_right,
    List.forall₂_cons, List.Forall₂.nil, and_true]
  induction fields generalizing m with
  | nil =>
    obtain ⟨a1, a2, a3, a4, a5, a6, a7, a8, a9, a10⟩ := m
    obtain ⟨b1, b2, b3, b4, b5, b6, b7, b8, b9, b10⟩ := m'
    simp
  | cons field fields ih =>
    simp only [List.foldlM_cons, Option.bind_eq_bind, Option.bind_eq_some_iff,
      assignField_eq_some_iff, ih]
    constructor
    · rintro ⟨t, h, h1, h2, h3, h4, h5, h6, h7, h8, h9, h10⟩
      exact ⟨⟨_, h.uptimeSec, h1⟩, ⟨_, h.active, h2⟩, ⟨_, h.accepted, h3⟩,
        ⟨_, h.disconnected, h4⟩, ⟨_, h.devices, h5⟩, ⟨_, h.received, h6⟩, ⟨_, h.ackSent, h7⟩,
        ⟨_, h.parseErrors, h8⟩, ⟨_, h.broadcastErrors, h9⟩, ⟨_, h.msgPerSec, h10⟩⟩
    · rintro ⟨⟨a, ha, h1⟩, ⟨b, hb, h2⟩, ⟨c, hc, h3⟩, ⟨d, hd, h4⟩, ⟨e, he, h5⟩, ⟨f, hf, h6⟩,
        ⟨g, hg, h7⟩, ⟨h, hh, h8⟩, ⟨i, hi, h9⟩, ⟨j, hj, h10⟩⟩
      exact ⟨⟨a, b, c, d, e, f, g, h, i, j⟩, ⟨ha, hb, hc, hd, he, hf, hg, hh, hi, hj⟩, h1, h2, h3,
        h4, h5, h6, h7, h8, h9, h10⟩

/-- The snapshot depends on the values of each known key. -/
theorem foldlM_assignField_congr {fields fields' : List (Bytes × Bytes)}
    (h : ∀ key ∈ metricsKeys, valuesOf key fields = valuesOf key fields') (m : ServerMetrics) :
    fields.foldlM (fun metrics field => assignField metrics field.1 field.2) m =
      fields'.foldlM (fun metrics field => assignField metrics field.1 field.2) m := by
  ext result
  rw [foldlM_assignField_iff, foldlM_assignField_iff, List.forall₂_iff_zip, List.forall₂_iff_zip]
  refine and_congr_right fun _ => forall_congr' fun a => forall_congr' fun b =>
    imp_congr_right fun hmem => ?_
  have hkey : a.1 ∈ metricsKeys := (List.of_mem_zip (List.of_mem_zip hmem).1).1
  rw [foldlM_stepCell_congr (h a.1 hkey)]

end ServerMetrics

/-! ## Changes of the tokens -/

/-- What may be done to the tokens of a line: another order when the keys are different, or
one more token with a key that nobody knows and a value. -/
inductive TokenChange (known : List Bytes) : List Bytes → List Bytes → Prop
  | permute {tokens tokens' : List Bytes}
      (hkeys : tokens.Pairwise fun a b => equalsSign ∈ a → equalsSign ∈ b → keyOf a ≠ keyOf b)
      (h : tokens.Perm tokens') : TokenChange known tokens tokens'
  | insert (front back : List Bytes) {token : Bytes} (htoken : IsKeyed token)
      (hunknown : keyOf token ∉ known) :
      TokenChange known (front ++ back) (front ++ token :: back)

theorem nodup_keys_of_pairwise {tokens : List Bytes}
    (hkeys : tokens.Pairwise fun a b => equalsSign ∈ a → equalsSign ∈ b → keyOf a ≠ keyOf b)
    (h : ∀ token ∈ tokens, IsKeyed token) : ((fieldsOf tokens).map Prod.fst).Nodup := by
  rw [fieldsOf, List.map_map, List.Nodup, List.pairwise_map]
  refine hkeys.imp_of_mem fun ha hb hne => ?_
  exact hne (h _ ha).1 (h _ hb).1

/-- A change keeps whether the tokens are fields, and then the values of the known keys. -/
theorem TokenChange.values_eq {known tokens tokens' : List Bytes}
    (h : TokenChange known tokens tokens') :
    ((∀ token ∈ tokens, IsKeyed token) ↔ ∀ token ∈ tokens', IsKeyed token) ∧
      ((∀ token ∈ tokens, IsKeyed token) →
        ∀ key ∈ known, valuesOf key (fieldsOf tokens) = valuesOf key (fieldsOf tokens')) := by
  cases h with
  | permute hkeys h =>
    refine ⟨forall_congr' fun token => by rw [h.mem_iff], fun hall key _ => ?_⟩
    exact valuesOf_eq_of_perm (h.map _) (nodup_keys_of_pairwise hkeys hall)
  | @insert front back token htoken hunknown =>
    refine ⟨⟨fun hall t ht => ?_, fun hall t ht => hall t ?_⟩, fun _ key hkey => ?_⟩
    · rw [List.mem_append, List.mem_cons] at ht
      rcases ht with ht | rfl | ht
      · exact hall t (List.mem_append_left _ ht)
      · exact htoken
      · exact hall t (List.mem_append_right _ ht)
    · rw [List.mem_append, List.mem_cons]
      exact (List.mem_append.mp ht).imp_right Or.inr
    · have hne : keyOf token ≠ key := fun heq => hunknown (heq ▸ hkey)
      have hfields : fieldsOf (front ++ token :: back) =
          fieldsOf front ++ ([(keyOf token, valueOf token)] ++ fieldsOf back) := by
        simp [fieldsOf]
      rw [hfields, valuesOf_append, valuesOf_append, valuesOf_singleton, if_neg hne,
        List.nil_append, fieldsOf, List.map_append, valuesOf_append]
      rfl

/-- Tokens without a letter are no tokens. -/
theorem TokenChange.filter {known tokens tokens' : List Bytes}
    (h : TokenChange known tokens tokens') :
    TokenChange known (tokens.filter (· ≠ [])) (tokens'.filter (· ≠ [])) := by
  cases h with
  | permute hkeys h => exact .permute (hkeys.filter _) (h.filter _)
  | @insert front back token htoken hunknown =>
    have hne : token ≠ [] := List.ne_nil_of_mem htoken.1
    rw [List.filter_append, List.filter_append, List.filter_cons_of_pos (by simpa)]
    exact .insert _ _ htoken hunknown

theorem tokenChanges_filter {known tokens tokens' : List Bytes}
    (h : Relation.ReflTransGen (TokenChange known) tokens tokens') :
    Relation.ReflTransGen (TokenChange known) (tokens.filter (· ≠ [])) (tokens'.filter (· ≠ [])) :=
  h.lift (fun tokens => tokens.filter (· ≠ [])) fun _ _ => TokenChange.filter

/-- A parser that depends on the values of its keys does not see any changes. -/
theorem foldlM_eq_of_tokenChanges {σ : Type*} {assign : σ → Bytes → Bytes → Option σ}
    {known tokens tokens' : List Bytes} {record : σ}
    (h : Relation.ReflTransGen (TokenChange known) tokens tokens')
    (hcongr : ∀ {fields fields'}, (∀ key ∈ known, valuesOf key fields = valuesOf key fields') →
      fields.foldlM (fun r field => assign r field.1 field.2) record =
        fields'.foldlM (fun r field => assign r field.1 field.2) record) :
    tokens.foldlM (assignToken assign) record = tokens'.foldlM (assignToken assign) record := by
  induction h with
  | refl => rfl
  | @tail tokens' tokens'' _ hchange ih =>
    obtain ⟨hkeyed, hvalues⟩ := hchange.values_eq
    rw [ih, foldlM_assignToken_eq, foldlM_assignToken_eq]
    by_cases hall : ∀ token ∈ tokens', IsKeyed token
    · rw [if_pos hall, if_pos (hkeyed.mp hall)]
      exact hcongr (hvalues hall)
    · rw [if_neg hall, if_neg fun h' => hall (hkeyed.mpr h')]

/-! ## Changes of the layout -/

/-- A line with these tokens, one space or more in front of each and any number behind the
last one, and a line end. -/
def spacedLine (word : Bytes) (items : List (ℕ × Bytes)) (after : ℕ) (ending : Bytes) : Bytes :=
  word ++ ((items.flatMap fun item => List.replicate (item.1 + 1) space ++ item.2) ++
    List.replicate after space) ++ ending

/-- A token without a space and the bytes of a line end. -/
def IsToken (token : Bytes) : Prop := space ∉ token ∧ newline ∉ token ∧ carriageReturn ∉ token

instance (token : Bytes) : Decidable (IsToken token) := inferInstanceAs (Decidable (_ ∧ _))

/-- The line ends: none, a newline, or a carriage return and a newline. -/
def lineEnds : List Bytes := [[], [newline], [carriageReturn, newline]]

/-- A text without the bytes of a line end is what is left of it with any line end. -/
theorem stripLineEnd_append {body ending : Bytes} (hending : ending ∈ lineEnds)
    (hnewline : newline ∉ body) (hreturn : carriageReturn ∉ body) :
    stripLineEnd (body ++ ending) = body := by
  have hkeep : ∀ {b : UInt8}, b ∉ body → removeSuffix b body = body := fun hb =>
    removeSuffix_of_getLast?_ne fun hlast => hb (List.mem_of_getLast? hlast)
  simp only [lineEnds, List.mem_cons, List.not_mem_nil, or_false] at hending
  rcases hending with rfl | rfl | rfl
  · rw [List.append_nil, stripLineEnd, hkeep hnewline, hkeep hreturn]
  · rw [stripLineEnd_of_frame rfl, hkeep hreturn]
  · have hline : body ++ [carriageReturn, newline] = body ++ [carriageReturn] ++ [newline] := by
      simp
    rw [stripLineEnd_of_frame hline]
    simp [removeSuffix]

theorem notMem_spaced {items : List (ℕ × Bytes)} {b : UInt8} (hb : b ≠ space)
    (h : ∀ item ∈ items, b ∉ item.2) (after : ℕ) :
    b ∉ (items.flatMap fun item => List.replicate (item.1 + 1) space ++ item.2) ++
      List.replicate after space := by
  simp only [List.mem_append, List.mem_flatMap, List.mem_replicate, not_or, not_exists, not_and]
  refine ⟨fun item hitem => ⟨fun _ heq => hb heq, h item hitem⟩, fun _ heq => hb heq⟩

/-- **The layout of a line is not in its fields.** -/
theorem parseFields_spacedLine {σ : Type*} (assign : σ → Bytes → Bytes → Option σ) (record : σ)
    {word : Bytes} (hword : newline ∉ word ∧ carriageReturn ∉ word) {items : List (ℕ × Bytes)}
    (hitems : ∀ item ∈ items, IsToken item.2) {ending : Bytes} (hending : ending ∈ lineEnds)
    (after : ℕ) :
    parseFields word assign record (spacedLine word items after ending) =
      ((items.map Prod.snd).filter (· ≠ [])).foldlM (assignToken assign) record := by
  have hnewline := notMem_spaced (b := newline) (by decide)
    (fun item hitem => (hitems item hitem).2.1) after
  have hreturn := notMem_spaced (b := carriageReturn) (by decide)
    (fun item hitem => (hitems item hitem).2.2) after
  have hstrip := stripLineEnd_append hending
    (List.not_mem_append hword.1 hnewline) (List.not_mem_append hword.2 hreturn)
  rw [spacedLine, parseFields_eq assign record hstrip]
  · rw [words_spaced fun item hitem => (hitems item hitem).1]
  · cases items with
    | nil => cases after <;> simp [List.replicate_succ]
    | cons item items => exact Or.inr rfl

variable {D : Type} [CharconvDouble D]

variable (D) in
/-- **Order, spacing and unknown keys do not matter**, to neither parser.  Two lines with any
spacing and any line ends have the same result, a record or a rejection, when the tokens of
one come from those of the other by reordering them, where their keys are different, and by
inserting tokens with unknown keys. -/
theorem parse_eq_of_tokenChanges (items items' : List (ℕ × Bytes)) (after after' : ℕ)
    {ending ending' : Bytes} (hitems : ∀ item ∈ items, IsToken item.2)
    (hitems' : ∀ item ∈ items', IsToken item.2) (hending : ending ∈ lineEnds)
    (hending' : ending' ∈ lineEnds) :
    (Relation.ReflTransGen (TokenChange statusKeys) (items.map Prod.snd) (items'.map Prod.snd) →
      (parseStatusLine (spacedLine kStatusPrefix items after ending) : Option (DeviceStatus D)) =
        parseStatusLine (spacedLine kStatusPrefix items' after' ending')) ∧
    (Relation.ReflTransGen (TokenChange metricsKeys) (items.map Prod.snd) (items'.map Prod.snd) →
      parseMetricsLine (spacedLine ServerMetrics.kMetricsPrefix items after ending) =
        parseMetricsLine (spacedLine ServerMetrics.kMetricsPrefix items' after' ending')) := by
  have hstatus : newline ∉ kStatusPrefix ∧ carriageReturn ∉ kStatusPrefix := by decide +kernel
  have hmetrics : newline ∉ ServerMetrics.kMetricsPrefix ∧
      carriageReturn ∉ ServerMetrics.kMetricsPrefix := by decide +kernel
  constructor
  · intro h
    rw [parseStatusLine, parseStatusLine, parseFields_spacedLine _ _ hstatus hitems hending,
      parseFields_spacedLine _ _ hstatus hitems' hending',
      foldlM_eq_of_tokenChanges (tokenChanges_filter h) fun hvalues =>
        foldlM_assignField_congr hvalues _]
  · intro h
    rw [parseMetricsLine, parseMetricsLine, parseFields_spacedLine _ _ hmetrics hitems hending,
      parseFields_spacedLine _ _ hmetrics hitems' hending',
      foldlM_eq_of_tokenChanges (tokenChanges_filter h) fun hvalues =>
        ServerMetrics.foldlM_assignField_congr hvalues _]

/-- The coordinates swapped, one key more, other spacing and another line end; and a snapshot
with a number that cannot be read, in both orders. -/
theorem parse_eq_of_tokenChanges_xy :
    (parseStatusLine (ascii "STATUS device_id=a state=OK x=1 y=2\n") : Option (DeviceStatus ℤ)) =
      parseStatusLine (ascii "STATUS  device_id=a v=7 state=OK y=2  x=1 \r\n") ∧
    parseMetricsLine (ascii "METRICS active=1 received=-\n") =
      parseMetricsLine (ascii "METRICS received=-   active=1") := by
  have hnewline : [newline] ∈ lineEnds := by decide
  have hreturn : [carriageReturn, newline] ∈ lineEnds := by decide
  have hnone : [] ∈ lineEnds := by decide
  constructor
  · have hpermute : TokenChange statusKeys
        [ascii "device_id=a", ascii "state=OK", ascii "x=1", ascii "y=2"]
        ([ascii "device_id=a"] ++ [ascii "state=OK", ascii "y=2", ascii "x=1"]) :=
      .permute (by decide +kernel) (by decide +kernel)
    have hinsert : TokenChange statusKeys
        ([ascii "device_id=a"] ++ [ascii "state=OK", ascii "y=2", ascii "x=1"])
        ([ascii "device_id=a"] ++ ascii "v=7" :: [ascii "state=OK", ascii "y=2", ascii "x=1"]) :=
      .insert _ _ (by decide +kernel) (by decide +kernel)
    have h := (parse_eq_of_tokenChanges ℤ
      [(0, ascii "device_id=a"), (0, ascii "state=OK"), (0, ascii "x=1"), (0, ascii "y=2")]
      [(1, ascii "device_id=a"), (0, ascii "v=7"), (0, ascii "state=OK"), (0, ascii "y=2"),
        (1, ascii "x=1")] 0 1 (by decide +kernel) (by decide +kernel) hnewline hreturn).1
      (.head hpermute (.single hinsert))
    exact h
  · have hpermute : TokenChange metricsKeys [ascii "active=1", ascii "received=-"]
        [ascii "received=-", ascii "active=1"] :=
      .permute (by decide +kernel) (by decide +kernel)
    exact (parse_eq_of_tokenChanges ℤ [(0, ascii "active=1"), (0, ascii "received=-")]
      [(0, ascii "received=-"), (2, ascii "active=1")] 0 0 (by decide +kernel) (by decide +kernel)
      hnewline hnone).2 (.single hpermute)

end RemoteDeviceConsole
