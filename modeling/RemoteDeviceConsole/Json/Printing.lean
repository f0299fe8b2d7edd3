import RemoteDeviceConsole.Json.Grammar

/-!
# Printed records and the JSON grammar

A program that prints an object by `Delimiters.printMembers`, with the marks of JSON,
produces JSON exactly when each of its parts does: `text_printMembers_iff`.  The escapes of
`Delimiters.escaped` are two of the nine that JSON has, so what they leave alone must be
allowed in a string as it stands (`chars_escaped_iff`): the text has to be UTF-8 without
control characters.

That valid parts make a valid object is a walk along the grammar.  The converse is the hard
half, because the grammar might read the text in another way than it was printed: a string might
end at another quotation mark, a number might go on, and what was printed as one member might be
read as two.  Two facts rule this out.  In an escaped text no quotation mark stands without a
backslash in front of it, and the backslashes come in pairs, so the string ends where it was
meant to (`exists_of_escaped_eq_append`, `exists_of_escaped_eq_pair`).  And a value that was
printed bare is made of bytes that no mark has (`isTokenByte`), so it ends at the next mark
(`Value.bare_inv`).  With these the members come off the front one by one
(`validMember_of_members`).
-/

namespace RemoteDeviceConsole
namespace Json

open Framing

/-- The marks of JSON. -/
def marks : Delimiters UInt8 where
  quote := quotationMark
  escape := reverseSolidus
  colon := nameSeparator
  comma := valueSeparator
  escape_ne_quote := by decide
  comma_ne_quote := by decide

/-- UTF-8 without control characters. -/
def Plain (text : List UInt8) : Prop :=
  ∃ cs : List Char, (∀ c ∈ cs, 32 ≤ c.toNat) ∧ text = cs.flatMap String.utf8EncodeChar

variable {t r s text : List UInt8} {a b : UInt8}

/-! ## Strings -/

/-- The bytes of an unescaped character are neither of the two marks. -/
theorem utf8EncodeChar_unmarked {c : Char} (hquote : c ≠ '"') (hescape : c ≠ '\\')
    (hb : b ∈ String.utf8EncodeChar c) : b ≠ quotationMark ∧ b ≠ reverseSolidus := by
  refine ⟨?_, ?_⟩
  · rintro rfl
    exact hquote (Char.toNat_inj.mp (eq_of_mem_utf8EncodeChar hb (by decide)).1)
  · rintro rfl
    exact hescape (Char.toNat_inj.mp (eq_of_mem_utf8EncodeChar hb (by decide)).1)

theorem escaped_of_unmarked (h : ∀ b ∈ text, b ≠ quotationMark ∧ b ≠ reverseSolidus) :
    marks.Escaped text := by
  induction text with
  | nil => exact .nil
  | cons b text ih =>
    have hb := h b List.mem_cons_self
    exact .plain hb.1 hb.2 (ih fun c hc => h c (List.mem_cons_of_mem _ hc))

/-- In the inside of a string every quotation mark is escaped. -/
theorem Chars.escaped (h : Chars s) : marks.Escaped s := by
  induction h with
  | nil => exact .nil
  | unescaped _ hquote hescape _ ih =>
    exact (escaped_of_unmarked fun b hb => utf8EncodeChar_unmarked hquote hescape hb).append ih
  | escape _ _ ih => exact .pair _ ih
  | unicode hhex _ ih =>
    have hmark : ∀ x ∈ _, x ≠ quotationMark ∧ x ≠ reverseSolidus := fun x hx =>
      ⟨fun h => absurd (hhex x hx) (by rw [h]; decide),
        fun h => absurd (hhex x hx) (by rw [h]; decide)⟩
    exact .pair _ ((escaped_of_unmarked hmark).append ih)

theorem escaped_append_of_unmarked (h : ∀ b ∈ text, b ≠ quotationMark ∧ b ≠ reverseSolidus)
    (rest : List UInt8) : marks.escaped (text ++ rest) = text ++ marks.escaped rest := by
  induction text with
  | nil => rfl
  | cons b text ih =>
    have hb : ¬ (b = marks.quote ∨ b = marks.escape) := by
      rw [not_or]
      exact h b List.mem_cons_self
    rw [List.cons_append, Delimiters.escaped_cons, if_neg hb,
      ih fun c hc => h c (List.mem_cons_of_mem _ hc)]
    rfl

/-- Unmarked bytes in front come from the text itself. -/
theorem exists_of_escaped_eq_append (hs : ∀ b ∈ s, b ≠ quotationMark ∧ b ≠ reverseSolidus)
    (h : marks.escaped text = s ++ r) : ∃ rest, text = s ++ rest ∧ marks.escaped rest = r := by
  induction s generalizing text with
  | nil => exact ⟨text, rfl, h⟩
  | cons b s ih =>
    have hb := hs b List.mem_cons_self
    rcases text with _ | ⟨a, text⟩
    · exact absurd h (by simp [Delimiters.escaped])
    · rw [Delimiters.escaped_cons] at h
      split at h
      · -- the first byte would be the escape mark
        exact absurd (List.cons.inj h).1.symm hb.2
      · obtain ⟨rfl, htail⟩ := List.cons.inj h
        obtain ⟨rest, rfl, hrest⟩ := ih (fun c hc => hs c (List.mem_cons_of_mem _ hc)) htail
        exact ⟨rest, rfl, hrest⟩

/-- An escape in front comes from one of the two marks. -/
theorem exists_of_escaped_eq_pair (h : marks.escaped text = reverseSolidus :: b :: r) :
    (b = quotationMark ∨ b = reverseSolidus) ∧
      ∃ rest, text = b :: rest ∧ marks.escaped rest = r := by
  rcases text with _ | ⟨a, text⟩
  · exact absurd h (by simp [Delimiters.escaped])
  · rw [Delimiters.escaped_cons] at h
    split at h
    · next hmark =>
      obtain ⟨-, htail⟩ := List.cons.inj h
      obtain ⟨rfl, hrest⟩ := List.cons.inj htail
      exact ⟨hmark, text, rfl, hrest⟩
    · next hmark => exact absurd (Or.inr (List.cons.inj h).1) hmark

theorem Plain.append {c : Char} (hc : 32 ≤ c.toNat) (h : Plain text) :
    Plain (String.utf8EncodeChar c ++ text) := by
  obtain ⟨cs, hcs, rfl⟩ := h
  refine ⟨c :: cs, ?_, rfl⟩
  rw [List.forall_mem_cons]
  exact ⟨hc, hcs⟩

theorem plain_of_chars (h : Chars s) (heq : marks.escaped text = s) : Plain text := by
  induction h generalizing text with
  | nil =>
    have hnil : text = [] := Delimiters.escaped_injective heq
    exact ⟨[], by simp, hnil⟩
  | unescaped hcontrol hquote hescape _ ih =>
    obtain ⟨rest, rfl, hrest⟩ := exists_of_escaped_eq_append
      (fun b hb => utf8EncodeChar_unmarked hquote hescape hb) heq
    exact (ih hrest).append hcontrol
  | escape hb _ ih =>
    obtain ⟨hmark | hmark, rest, rfl, hrest⟩ := exists_of_escaped_eq_pair heq
    · subst hmark
      exact (ih hrest).append (c := '"') (by decide)
    · subst hmark
      exact (ih hrest).append (c := '\\') (by decide)
  | unicode _ _ _ =>
    obtain ⟨hmark, -⟩ := exists_of_escaped_eq_pair heq
    exact absurd hmark (by decide)

theorem chars_of_plain (h : Plain text) : Chars (marks.escaped text) := by
  obtain ⟨cs, hcs, rfl⟩ := h
  induction cs with
  | nil => exact .nil
  | cons c cs ih =>
    rw [List.forall_mem_cons] at hcs
    have htail := ih hcs.2
    rw [List.flatMap_cons]
    by_cases hquote : c = '"'
    · subst hquote
      exact Chars.escape (by decide +kernel) htail
    by_cases hescape : c = '\\'
    · subst hescape
      exact Chars.escape (by decide +kernel) htail
    rw [escaped_append_of_unmarked fun b hb => utf8EncodeChar_unmarked hquote hescape hb]
    exact .unescaped hcs.1 hquote hescape htail

/-- **What the two escapes achieve**: the inside of a string, when the text was UTF-8
without control characters, and only then. -/
theorem chars_escaped_iff : Chars (marks.escaped text) ↔ Plain text :=
  ⟨fun h => plain_of_chars h rfl, chars_of_plain⟩

/-! ## Values -/

/-- A byte of a number or of a literal name. -/
def isTokenByte (b : UInt8) : Bool :=
  isDigit b || (97 ≤ b && b ≤ 122) || b = 43 || b = 45 || b = 46 || b = 69

/-- What may follow a value inside an object. -/
def EndsValue (b : UInt8) : Prop := b = valueSeparator ∨ b = endObject ∨ isWs b = true

theorem EndsValue.not_tokenByte (h : EndsValue b) : isTokenByte b = false := by
  rcases h with rfl | rfl | h
  · decide
  · decide
  · simp only [isWs, Bool.or_eq_true, decide_eq_true_eq] at h
    rcases h with ((rfl | rfl) | rfl) | rfl <;> decide

theorem Digits.tokenByte (h : Digits s) : ∀ b ∈ s, isTokenByte b = true := fun b hb => by
  simp [isTokenByte, h.2 b hb]

theorem Number.tokenByte (h : Number s) : ∀ b ∈ s, isTokenByte b = true := by
  obtain ⟨sign, i, f, e, hsign, hi, hf, he, rfl⟩ := h
  intro b hb
  simp only [List.mem_append] at hb
  rcases hb with ((hb | hb) | hb) | hb
  · rcases hsign with rfl | rfl
    · exact absurd hb (by simp)
    · rw [List.mem_singleton.mp hb]
      decide
  · exact hi.1.tokenByte b hb
  · rcases hf with rfl | ⟨ds, hds, rfl⟩
    · exact absurd hb (by simp)
    · rcases List.mem_cons.mp hb with rfl | hb
      · decide
      · exact hds.tokenByte b hb
  · rcases he with rfl | ⟨m, sign, ds, hm, hsign, hds, rfl⟩
    · exact absurd hb (by simp)
    · rcases List.mem_cons.mp hb with rfl | hb
      · rcases hm with rfl | rfl <;> decide
      · rcases List.mem_append.mp hb with hb | hb
        · rcases hsign with rfl | rfl | rfl
          · exact absurd hb (by simp)
          · rw [List.mem_singleton.mp hb]
            decide
          · rw [List.mem_singleton.mp hb]
            decide
        · exact hds.tokenByte b hb

theorem Scalar.tokenByte (h : Scalar s) : ∀ b ∈ s, isTokenByte b = true := by
  rcases h with rfl | rfl | rfl | h
  · decide +kernel
  · decide +kernel
  · decide +kernel
  · exact h.tokenByte

theorem Scalar.ne_nil (h : Scalar s) : s ≠ [] := by
  rcases h with rfl | rfl | rfl | ⟨sign, i, f, e, -, hi, -, -, rfl⟩
  · decide
  · decide
  · decide
  · intro h
    simp only [List.append_eq_nil_iff] at h
    exact hi.1.1 h.1.1.2

/-- The byte that a value starts with, unless white space comes first. -/
theorem Token.head_eq (h : Token a (b :: t) r) : b = a ∨ isWs b = true := by
  obtain ⟨c, s, heq, hc⟩ := h.head
  obtain ⟨rfl, -⟩ := List.cons.inj heq
  exact hc

/-- **A text that starts with a quotation mark** starts with a string. -/
theorem Value.string_inv (h : Value (quotationMark :: t) r) :
    ∃ s, Chars s ∧ t = s ++ quotationMark :: r := by
  have hno : ∀ {c t'}, Token c (quotationMark :: t) t' → c = quotationMark := by
    intro c t' htoken
    rcases htoken.head_eq with rfl | hws
    · rfl
    · exact absurd hws (by decide)
  generalize hu : quotationMark :: t = u at h
  cases h with
  | @scalar w _ hscalar =>
    rcases w with _ | ⟨b, w⟩
    · exact absurd rfl hscalar.ne_nil
    · obtain ⟨rfl, -⟩ := List.cons.inj hu
      exact absurd (hscalar.tokenByte quotationMark List.mem_cons_self) (by decide)
  | @string s _ hs => exact ⟨s, hs, (List.cons.inj hu).2⟩
  | emptyObject hb => exact absurd (hno (hu ▸ hb)) (by decide)
  | object hb => exact absurd (hno (hu ▸ hb)) (by decide)
  | emptyArray hb => exact absurd (hno (hu ▸ hb)) (by decide)
  | array hb => exact absurd (hno (hu ▸ hb)) (by decide)

/-- Two ways to cut a text where the bytes of a token end are the same. -/
theorem append_inj_of_tokenByte {u v : List UInt8} {x y : UInt8}
    (hu : ∀ b ∈ u, isTokenByte b = true) (hv : ∀ b ∈ v, isTokenByte b = true)
    (hx : isTokenByte x = false) (hy : isTokenByte y = false)
    (heq : u ++ x :: t = v ++ y :: r) : u = v ∧ x :: t = y :: r := by
  have htake := congrArg (List.takeWhile isTokenByte) heq
  rw [List.takeWhile_append_of_pos hu, List.takeWhile_append_of_pos hv,
    List.takeWhile_cons_of_neg (by simp [hx]), List.takeWhile_cons_of_neg (by simp [hy]),
    List.append_nil, List.append_nil] at htake
  subst htake
  exact ⟨rfl, List.append_cancel_left heq⟩

/-- **A text that starts with bytes of a token** starts with a number or a name, and that is
all of them. -/
theorem Value.bare_inv {u : List UInt8} {x y : UInt8} (hne : u ≠ [])
    (hu : ∀ b ∈ u, isTokenByte b = true) (hx : EndsValue x) (hy : EndsValue y)
    (h : Value (u ++ x :: t) (y :: r)) : Scalar u ∧ x :: t = y :: r := by
  obtain ⟨a, u', rfl⟩ := List.exists_cons_of_ne_nil hne
  have ha : isTokenByte a = true := hu a List.mem_cons_self
  have hno : ∀ {c t'}, isTokenByte c = false → Token c ((a :: u') ++ x :: t) t' → False := by
    intro c t' hc htoken
    rcases htoken.head_eq with rfl | hws
    · exact absurd ha (by simp [hc])
    · exact absurd ha (by simp [EndsValue.not_tokenByte (Or.inr (Or.inr hws))])
  generalize hz : (a :: u') ++ x :: t = z at h hno
  cases h with
  | @scalar w _ hscalar =>
    obtain ⟨rfl, hrest⟩ := append_inj_of_tokenByte hu hscalar.tokenByte hx.not_tokenByte
      hy.not_tokenByte hz
    exact ⟨hscalar, hrest⟩
  | string =>
    obtain ⟨rfl, -⟩ := List.cons.inj hz
    exact absurd ha (by decide)
  | emptyObject hb => exact (hno (by decide) hb).elim
  | object hb => exact (hno (by decide) hb).elim
  | emptyArray hb => exact (hno (by decide) hb).elim
  | array hb => exact (hno (by decide) hb).elim

/-! ## Objects -/

/-- A bare value is made of bytes of a token. -/
def IsTokenText : Delimiters.MemberValue UInt8 → Prop
  | .text _ => True
  | .bare t => t ≠ [] ∧ ∀ b ∈ t, isTokenByte b = true

/-- What a printed value has to satisfy. -/
def ValidValue : Delimiters.MemberValue UInt8 → Prop
  | .text t => Plain t
  | .bare t => Scalar t

/-- What a printed member has to satisfy. -/
def ValidMember (member : List UInt8 × Delimiters.MemberValue UInt8) : Prop :=
  Plain member.1 ∧ ValidValue member.2

variable {member : List UInt8 × Delimiters.MemberValue UInt8}
  {members : List (List UInt8 × Delimiters.MemberValue UInt8)}
  {value : Delimiters.MemberValue UInt8}

/-- A literal ends where the printer ended it. -/
theorem Chars.eq_of_append (h : Chars s)
    (heq : marks.escaped text ++ quotationMark :: t = s ++ quotationMark :: r) :
    Plain text ∧ t = r := by
  have hsplit := (Delimiters.escaped_isEscaped (d := marks) text).splitLiteral t
  have hsplit' : marks.splitLiteral (s ++ quotationMark :: r) = some (s, r) :=
    h.escaped.splitLiteral r
  rw [← heq] at hsplit'
  obtain ⟨htext, hrest⟩ := Prod.mk.inj (Option.some.inj (hsplit.symm.trans hsplit'))
  exact ⟨chars_escaped_iff.mp (htext ▸ h), hrest⟩

theorem printValue_head (h : IsTokenText value) (t : List UInt8) :
    ∃ a s, marks.printValue value ++ t = a :: s ∧ isWs a = false := by
  cases value with
  | text u => exact ⟨quotationMark, _, rfl, by decide⟩
  | bare u =>
    obtain ⟨a, u', rfl⟩ := List.exists_cons_of_ne_nil h.1
    refine ⟨a, u' ++ t, rfl, ?_⟩
    by_contra hws
    rw [Bool.not_eq_false] at hws
    exact absurd (h.2 a List.mem_cons_self)
      (by simp [EndsValue.not_tokenByte (Or.inr (Or.inr hws))])

theorem printValue_text_append (u t : List UInt8) : marks.printValue (.text u) ++ t =
    quotationMark :: (marks.escaped u ++ quotationMark :: t) := by
  simp [Delimiters.printValue, marks]

/-- The value read is the value printed. -/
theorem validValue_of_value {x y : UInt8} (htoken : IsTokenText value) (hx : EndsValue x)
    (hy : EndsValue y) (h : Value (marks.printValue value ++ x :: t) (y :: r)) :
    ValidValue value ∧ x :: t = y :: r := by
  cases value with
  | text u =>
    rw [printValue_text_append] at h
    obtain ⟨s, hs, heq⟩ := h.string_inv
    exact hs.eq_of_append heq
  | bare u => exact h.bare_inv htoken.1 htoken.2 hx hy

theorem printMember_append (t : List UInt8) : marks.printMember member ++ t =
    quotationMark :: (marks.escaped member.1 ++ quotationMark :: nameSeparator ::
      (marks.printValue member.2 ++ t)) := by
  simp [Delimiters.printMember, marks]

/-- The member read is the member printed. -/
theorem validMember_of_member {x y : UInt8} (htoken : IsTokenText member.2) (hx : EndsValue x)
    (hy : EndsValue y) (h : Member (marks.printMember member ++ x :: t) (y :: r)) :
    ValidMember member ∧ x :: t = y :: r := by
  rw [printMember_append] at h
  generalize hu : quotationMark :: (marks.escaped member.1 ++ quotationMark :: nameSeparator ::
    (marks.printValue member.2 ++ x :: t)) = u at h
  cases h with
  | mk hk hc hv =>
    obtain ⟨hkey, rfl⟩ := hk.eq_of_append (List.cons.inj hu).2
    obtain ⟨-, hws⟩ := hc.of_cons (by decide)
    obtain ⟨a, s, hhead, ha⟩ := printValue_head htoken (x :: t)
    rw [hhead] at hws
    rw [hws.eq_of_cons ha, ← hhead] at hv
    obtain ⟨hvalue, hrest⟩ := validValue_of_value htoken hx hy hv
    exact ⟨⟨hkey, hvalue⟩, hrest⟩

theorem member_of_validMember (h : ValidMember member) (t : List UInt8) :
    Member (marks.printMember member ++ t) t := by
  obtain ⟨hkey, hvalue⟩ := h
  rw [printMember_append]
  refine .mk (chars_escaped_iff.mpr hkey) (Token.mk _ _) ?_
  revert hvalue
  cases member.2 with
  | text u =>
    intro hvalue
    rw [printValue_text_append]
    exact .string (chars_escaped_iff.mpr hvalue)
  | bare u => exact fun hvalue => .scalar hvalue

theorem members_of_validMember (hne : members ≠ []) (h : ∀ m ∈ members, ValidMember m)
    (t : List UInt8) : Members (marks.printMembers members ++ t) t := by
  induction members with
  | nil => exact absurd rfl hne
  | cons m members ih =>
    have hm := h m List.mem_cons_self
    cases members with
    | nil => exact .one (member_of_validMember hm t)
    | cons next rest =>
      have htail := ih (by simp) fun m' hm' => h m' (List.mem_cons_of_mem _ hm')
      show Members (marks.printMember m ++ valueSeparator ::
        marks.printMembers (next :: rest) ++ t) t
      rw [List.append_assoc]
      exact .more (member_of_validMember hm _) (Token.mk _ _) htail

theorem printMembers_head (hne : members ≠ []) (t : List UInt8) :
    ∃ s, marks.printMembers members ++ t = quotationMark :: s := by
  match members with
  | [] => exact absurd rfl hne
  | [m] => exact ⟨_, rfl⟩
  | m :: next :: rest => exact ⟨_, rfl⟩

theorem validMember_of_members {r' : List UInt8} (htoken : ∀ m ∈ members, IsTokenText m.2)
    (h : Members (marks.printMembers members ++ endObject :: t) r) (he : Token endObject r r') :
    ∀ m ∈ members, ValidMember m := by
  induction members with
  | nil => simp
  | cons m members ih =>
    have hm := htoken m List.mem_cons_self
    have hend : ∀ {c t₁ t₂}, Token c t₁ t₂ → c = valueSeparator ∨ c = endObject →
        ∃ y s, t₁ = y :: s ∧ EndsValue y := by
      intro c t₁ t₂ htok hc
      obtain ⟨y, s, rfl, rfl | hws⟩ := htok.head
      · exact ⟨y, s, rfl, hc.imp_right Or.inl⟩
      · exact ⟨y, s, rfl, Or.inr (Or.inr hws)⟩
    cases members with
    | nil =>
      rw [List.forall_mem_singleton]
      generalize hu : marks.printMembers [m] ++ endObject :: t = u at h
      cases h with
      | one hmember =>
        obtain ⟨y, s, rfl, hy⟩ := hend he (Or.inr rfl)
        subst hu
        exact (validMember_of_member hm (Or.inr (Or.inl rfl)) hy hmember).1
      | more hmember hc =>
        obtain ⟨y, s, rfl, hy⟩ := hend hc (Or.inl rfl)
        subst hu
        exact (validMember_of_member hm (Or.inr (Or.inl rfl)) hy hmember).1
    | cons next rest =>
      have hsplit : marks.printMembers (m :: next :: rest) ++ endObject :: t =
          marks.printMember m ++ valueSeparator ::
            (marks.printMembers (next :: rest) ++ endObject :: t) := by
        show (marks.printMember m ++ valueSeparator :: marks.printMembers (next :: rest)) ++ _ = _
        rw [List.append_assoc]
        rfl
      rw [hsplit] at h
      rw [List.forall_mem_cons]
      generalize hu : marks.printMember m ++ valueSeparator ::
        (marks.printMembers (next :: rest) ++ endObject :: t) = u at h
      cases h with
      | one hmember =>
        -- a comma comes next, not the closing brace
        obtain ⟨y, s, rfl, hy⟩ := hend he (Or.inr rfl)
        subst hu
        obtain ⟨-, heq⟩ := validMember_of_member hm (Or.inl rfl) hy hmember
        rw [← heq] at he
        exact absurd (he.of_cons (by decide)).1 (by decide)
      | more hmember hc hs =>
        obtain ⟨y, s, rfl, hy⟩ := hend hc (Or.inl rfl)
        subst hu
        obtain ⟨hvalid, heq⟩ := validMember_of_member hm (Or.inl rfl) hy hmember
        rw [← heq] at hc
        obtain ⟨q, hq⟩ := printMembers_head (List.cons_ne_nil next rest) (endObject :: t)
        have hws := (hc.of_cons (by decide)).2
        rw [hq] at hws
        rw [hws.eq_of_cons (by decide), ← hq] at hs
        exact ⟨hvalid, ih (fun m' hm' => htoken m' (List.mem_cons_of_mem _ hm')) hs⟩

/-- **A printed object is JSON exactly when its parts are.** -/
theorem text_printMembers_iff (hne : members ≠ []) (htoken : ∀ m ∈ members, IsTokenText m.2) :
    Text (beginObject :: (marks.printMembers members ++ [endObject])) ↔
      ∀ m ∈ members, ValidMember m := by
  constructor
  · rintro ⟨t₁, t₂, hws, hvalue, -⟩
    rw [hws.eq_of_cons (by decide)] at hvalue
    obtain ⟨q, hq⟩ := printMembers_head hne [endObject]
    have hbegin : ∀ {c t'},
        Token c (beginObject :: (marks.printMembers members ++ [endObject])) t' →
        c = beginObject ∧ t' = marks.printMembers members ++ [endObject] := by
      intro c t' htok
      obtain ⟨rfl, hrest⟩ := htok.of_cons (by decide)
      rw [hq] at hrest ⊢
      exact ⟨rfl, hrest.eq_of_cons (by decide)⟩
    generalize hu : beginObject :: (marks.printMembers members ++ [endObject]) = u at hvalue hbegin
    cases hvalue with
    | @scalar w _ hscalar =>
      obtain ⟨b, w', rfl⟩ := List.exists_cons_of_ne_nil hscalar.ne_nil
      obtain ⟨rfl, -⟩ := List.cons.inj hu
      exact absurd (hscalar.tokenByte _ List.mem_cons_self) (by decide)
    | string => exact absurd (List.cons.inj hu).1 (by decide)
    | emptyObject hb he =>
      rw [(hbegin hb).2, hq] at he
      exact absurd (he.of_cons (by decide)).1 (by decide)
    | object hb hs he =>
      rw [(hbegin hb).2] at hs
      exact validMember_of_members htoken hs he
    | emptyArray hb => exact absurd (hbegin hb).1 (by decide)
    | array hb => exact absurd (hbegin hb).1 (by decide)
  · intro h
    have hmembers := members_of_validMember hne h [endObject]
    exact ⟨_, [], Ws.refl _, .object (Token.mk _ _) hmembers (Token.mk _ _), Ws.refl _⟩

end Json
end RemoteDeviceConsole
