import RemoteDeviceConsole.Protocol.StatusGrammar
import RemoteDeviceConsole.Server.MqttPayload

/-!
# Which payloads are JSON

`json_escape` puts a backslash in front of quotes and backslashes and leaves every other
byte as it is, and `std::to_string` prints whatever double it is given.  The parser of
STATUS lines lets through more than JSON has a place for: an id or a state may hold any byte
but a space and a newline, and a coordinate may be `inf` or `nan`.
`statusPayload_isJson_iff` says for which lines the payload is JSON.

The payload is printed member by member, so the condition is one for each value
(`Json.text_printMembers_iff`): a text must be UTF-8 without control characters, and a double
must be finite.  The texts are those of the accepted line, in which the last value of a key
counts; this is why the condition speaks of the last id and the last state (`LastSays`).

How a double is printed is not modelled.  `PrintsFixed` has what is needed of it: a finite one
is printed with a point and six decimals, and any other one as one of four names.
-/

namespace RemoteDeviceConsole

open Framing

variable {D : Type} [CharconvDouble D]

/-- `std::to_string` of a double: a sign, the whole part and six decimals, or the name of a
value that is not finite. -/
structure PrintsFixed (finite : D → Prop) : Prop where
  zero : finite CharconvDouble.zero
  fixed : ∀ d, finite d → ∃ (sign : Bytes) (n : ℕ) (decimals : Bytes),
    (sign = [] ∨ sign = [minusSign]) ∧ decimals.length = 6 ∧ (∀ b ∈ decimals, isDigit b = true) ∧
      CharconvDouble.toString d = sign ++ decimal n ++ 46 :: decimals
  name : ∀ d, ¬ finite d →
    CharconvDouble.toString d ∈ [ascii "inf", ascii "-inf", ascii "nan", ascii "-nan"]

/-- The last id and the last state of the fields are UTF-8 without control characters, and
the last coordinates are finite. -/
structure SafeFields (finite : D → Prop) (fields : List (Bytes × Bytes)) : Prop where
  deviceId : ∀ value ∈ (valuesOf (ascii "device_id") fields).getLast?, Json.Plain value
  state : ∀ value ∈ (valuesOf (ascii "state") fields).getLast?, Json.Plain value
  x : ∀ value ∈ (valuesOf (ascii "x") fields).getLast?, ∀ d, DenotesDouble value d → finite d
  y : ∀ value ∈ (valuesOf (ascii "y") fields).getLast?, ∀ d, DenotesDouble value d → finite d
  z : ∀ value ∈ (valuesOf (ascii "z") fields).getLast?, ∀ d, DenotesDouble value d → finite d

/-! ## Numbers -/

theorem intPart_decimal (n : ℕ) : Json.IntPart (decimal n) := by
  refine ⟨⟨decimal_ne_nil n, fun b hb => isDigit_of_mem_decimal hb⟩, fun hhead => ?_⟩
  rcases Nat.eq_zero_or_pos n with rfl | hpos
  · decide
  · exact absurd hhead (head?_decimal_ne hpos)

/-- An `int` is printed as a JSON number. -/
theorem number_toStringInt (n : ℤ) : Json.Number (toStringInt n) := by
  have hplain : ∀ sign, sign = [] ∨ sign = [minusSign] →
      Json.Number (sign ++ decimal n.natAbs) := fun sign hsign =>
    ⟨sign, decimal n.natAbs, [], [], hsign, intPart_decimal _, Or.inl rfl, Or.inl rfl, by simp⟩
  rw [toStringInt]
  split
  · exact hplain [minusSign] (Or.inr rfl)
  · exact hplain [] (Or.inl rfl)

/-- A number has a digit at its front, or behind a minus sign. -/
theorem exists_digit_of_number {w : Bytes} (h : Json.Number w) :
    ∃ b s, isDigit b = true ∧ (w = b :: s ∨ w = minusSign :: b :: s) := by
  obtain ⟨sign, i, f, e, hsign, hi, -, -, rfl⟩ := h
  obtain ⟨b, i', rfl⟩ := List.exists_cons_of_ne_nil hi.1.1
  refine ⟨b, i' ++ f ++ e, hi.1.2 b List.mem_cons_self, ?_⟩
  rcases hsign with rfl | rfl
  · exact Or.inl (by simp)
  · exact Or.inr (by simp [minusSign])

section Doubles

variable {finite : D → Prop}

theorem PrintsFixed.number (h : PrintsFixed finite) {d : D} (hd : finite d) :
    Json.Number (CharconvDouble.toString d) := by
  obtain ⟨sign, n, decimals, hsign, hlength, hdigits, heq⟩ := h.fixed d hd
  have hne : decimals ≠ [] := by
    rintro rfl
    exact absurd hlength (by decide)
  exact ⟨sign, decimal n, 46 :: decimals, [], hsign, intPart_decimal n,
    Or.inr ⟨decimals, ⟨hne, hdigits⟩, rfl⟩, Or.inl rfl, by rw [heq, List.append_nil]⟩

/-- **A double is printed as a JSON value exactly when it is finite.** -/
theorem PrintsFixed.scalar_iff (h : PrintsFixed finite) (d : D) :
    Json.Scalar (CharconvDouble.toString d) ↔ finite d := by
  refine ⟨fun hscalar => ?_, fun hd => Or.inr (Or.inr (Or.inr (h.number hd)))⟩
  by_contra hd
  have hnames : ∀ w ∈ [ascii "inf", ascii "-inf", ascii "nan", ascii "-nan"],
      (w ≠ ascii "false" ∧ w ≠ ascii "null" ∧ w ≠ ascii "true") ∧
        (∀ b ∈ w.head?, isDigit b = false) ∧
        (w.head? = some minusSign → ∀ b ∈ w.tail.head?, isDigit b = false) := by
    decide +kernel
  obtain ⟨⟨hfalse, hnull, htrue⟩, hfirst, hsecond⟩ := hnames _ (h.name d hd)
  rcases hscalar with hw | hw | hw | hw
  · exact hfalse hw
  · exact hnull hw
  · exact htrue hw
  · obtain ⟨b, s, hb, heq | heq⟩ := exists_digit_of_number hw
    · exact absurd hb (by simp [hfirst b (by rw [heq]; rfl)])
    · exact absurd hb (by simp [hsecond (by rw [heq]; rfl) b (by rw [heq]; rfl)])

theorem PrintsFixed.isTokenText (h : PrintsFixed finite) (d : D) :
    Json.IsTokenText (.bare (CharconvDouble.toString d)) := by
  by_cases hd : finite d
  · have hscalar := (h.scalar_iff d).mpr hd
    exact ⟨hscalar.ne_nil, hscalar.tokenByte⟩
  · have hnames : ∀ w ∈ [ascii "inf", ascii "-inf", ascii "nan", ascii "-nan"],
        w ≠ [] ∧ ∀ b ∈ w, Json.isTokenByte b = true := by
      decide +kernel
    exact hnames _ (h.name d hd)

/-! ## Payloads -/

theorem isTokenText_payloadMembers (h : PrintsFixed finite) (status : DeviceStatus D) :
    ∀ m ∈ payloadMembers status, Json.IsTokenText m.2 := by
  have hbattery : Json.IsTokenText (.bare (toStringInt status.batteryPercent)) :=
    have hscalar : Json.Scalar (toStringInt status.batteryPercent) :=
      Or.inr (Or.inr (Or.inr (number_toStringInt _)))
    ⟨hscalar.ne_nil, hscalar.tokenByte⟩
  simp only [payloadMembers, List.forall_mem_cons, List.not_mem_nil, IsEmpty.forall_iff,
    implies_true, and_true]
  exact ⟨trivial, trivial, hbattery, h.isTokenText _, h.isTokenText _, h.isTokenText _⟩

/-- The keys of the payload are plain texts. -/
theorem plain_payloadKeys : ∀ key ∈ ["device_id", "state", "battery", "x", "y", "z"],
    Json.Plain (ascii key) := by
  have hkeys : ∀ key ∈ ["device_id", "state", "battery", "x", "y", "z"],
      key.toList.all (fun c => decide (32 ≤ c.toNat)) = true ∧
        ascii key = key.toList.flatMap String.utf8EncodeChar := by
    decide +kernel
  intro key hkey
  obtain ⟨hchars, hbytes⟩ := hkeys key hkey
  exact ⟨key.toList, fun c hc => of_decide_eq_true (List.all_eq_true.mp hchars c hc), hbytes⟩

/-- **The payload of a status is JSON** exactly when its id and its state are UTF-8 without
control characters and its coordinates are finite. -/
theorem text_statusPayload_iff (h : PrintsFixed finite) (status : DeviceStatus D) :
    Json.Text (statusPayload status) ↔ Json.Plain status.deviceId ∧ Json.Plain status.state ∧
      finite status.x ∧ finite status.y ∧ finite status.z := by
  have hkeys := plain_payloadKeys
  simp only [List.forall_mem_cons, List.not_mem_nil, IsEmpty.forall_iff, implies_true,
    and_true] at hkeys
  have hbattery : Json.Scalar (toStringInt status.batteryPercent) :=
    Or.inr (Or.inr (Or.inr (number_toStringInt _)))
  rw [statusPayload_eq, Json.text_printMembers_iff (by simp [payloadMembers])
    (isTokenText_payloadMembers h status)]
  simp only [payloadMembers, List.forall_mem_cons, List.not_mem_nil, IsEmpty.forall_iff,
    implies_true, and_true, Json.ValidMember, Json.ValidValue, hkeys, hbattery, true_and,
    h.scalar_iff]

/-! ## Lines -/

omit [CharconvDouble D] in
/-- A property of what the last value says is a property of the last value. -/
theorem LastSays.iff_getLast? {α : Type*} {denotes : Bytes → α → Prop} {absent a : α}
    {values : List Bytes} {P : α → Prop} (h : LastSays denotes absent values a) (habsent : P absent)
    (hfun : ∀ {value b c}, denotes value b → denotes value c → b = c) :
    P a ↔ ∀ value ∈ values.getLast?, ∀ b, denotes value b → P b := by
  unfold LastSays at h
  split at h
  · next hnone => simp [h, habsent, hnone]
  · next value hlast =>
    rw [hlast]
    constructor
    · rintro ha value' hvalue b hb
      obtain rfl := Option.some.inj hvalue
      exact hfun h hb ▸ ha
    · exact fun hall => hall value rfl a h

theorem plain_nil : Json.Plain [] := ⟨[], by simp, rfl⟩

theorem safeFields_iff (h : PrintsFixed finite) {fields : List (Bytes × Bytes)}
    {status : DeviceStatus D} (hmeans : SaysStatus fields status) :
    SafeFields finite fields ↔ Json.Plain status.deviceId ∧ Json.Plain status.state ∧
      finite status.x ∧ finite status.y ∧ finite status.z := by
  have htext : ∀ {value b c : Bytes}, value = b → value = c → b = c := fun hb hc => hb.symm.trans hc
  have hdouble : ∀ {value} {b c : D}, DenotesDouble value b → DenotesDouble value c → b = c := by
    intro value b c hb hc
    exact (Prod.mk.inj (Option.some.inj (hb.symm.trans hc))).1
  rw [hmeans.deviceId.iff_getLast? plain_nil htext, hmeans.state.iff_getLast? plain_nil htext,
    hmeans.x.iff_getLast? h.zero hdouble, hmeans.y.iff_getLast? h.zero hdouble,
    hmeans.z.iff_getLast? h.zero hdouble]
  constructor
  · rintro ⟨hid, hstate, hx, hy, hz⟩
    exact ⟨fun v hv _ heq => heq ▸ hid v hv, fun v hv _ heq => heq ▸ hstate v hv, hx, hy, hz⟩
  · rintro ⟨hid, hstate, hx, hy, hz⟩
    exact ⟨fun v hv => hid v hv v rfl, fun v hv => hstate v hv v rfl, hx, hy, hz⟩

/-- **Which lines are published as JSON.**  What an accepted line stands for is published as
a JSON text exactly when the last id and the last state of the line are UTF-8 without control
characters and its last coordinates are finite. -/
theorem statusPayload_isJson_iff (h : PrintsFixed finite) (line : Bytes) :
    (∀ status : DeviceStatus D, parseStatusLine line = some status →
        Json.Text (statusPayload status)) ↔
      ∀ fields, StatusLine line fields → WellFormed D fields → SafeFields finite fields := by
  constructor
  · intro hjson fields hline hwell
    obtain ⟨status, hmeans⟩ := hwell.exists_saysStatus
    have hparse := parseStatusLine_eq_some_iff_grammar.mpr ⟨fields, hline, hwell, hmeans⟩
    exact (safeFields_iff h hmeans).mpr ((text_statusPayload_iff h status).mp (hjson status hparse))
  · intro hsafe status hparse
    obtain ⟨fields, hline, hwell, hmeans⟩ := parseStatusLine_eq_some_iff_grammar.mp hparse
    exact (text_statusPayload_iff h status).mpr
      ((safeFields_iff h hmeans).mp (hsafe fields hline hwell))

end Doubles

/-- Whole coordinates are printed with their decimals. -/
theorem printsFixed_whole : PrintsFixed fun _ : ℤ => True where
  zero := trivial
  fixed d _ := by
    have hdecimals : ∀ b ∈ ascii "000000", isDigit b = true := by decide +kernel
    have htext : CharconvDouble.toString d = toStringInt d ++ 46 :: ascii "000000" := rfl
    rw [htext, toStringInt]
    split
    · exact ⟨[minusSign], d.natAbs, _, Or.inr rfl, by decide, hdecimals, rfl⟩
    · exact ⟨[], d.natAbs, _, Or.inl rfl, by decide, hdecimals, rfl⟩
  name _ h := absurd trivial h

/-- A line with safe fields, and what is published for it. -/
theorem statusPayload_isJson_iff_whole :
    let line := ascii "STATUS device_id=r\"1 state=OK x=-3 y=4 z=0\n"
    (∃ status : DeviceStatus ℤ, parseStatusLine line = some status) ∧
    ((∀ status : DeviceStatus ℤ, parseStatusLine line = some status →
        Json.Text (statusPayload status)) ↔
      ∀ fields, StatusLine line fields → WellFormed ℤ fields →
        SafeFields (fun _ : ℤ => True) fields) := by
  refine ⟨Option.isSome_iff_exists.mp ?_, statusPayload_isJson_iff printsFixed_whole _⟩
  decide +kernel

/-- A tab in a device id is accepted, and is published as it is. -/
theorem statusPayload_tab_not_json :
    PrintsFixed (fun _ : ℤ => True) ∧
    ∃ status : DeviceStatus ℤ,
      parseStatusLine (ascii "STATUS device_id=a\tb state=OK\n") = some status ∧
        ¬ Json.Text (statusPayload status) := by
  refine ⟨printsFixed_whole, ⟨ascii "a\tb", ascii "OK", 0, 0, 0, 0, 0, 0, false⟩, by decide +kernel,
    fun h => ?_⟩
  obtain ⟨⟨cs, hcs, htext⟩, -⟩ := (text_statusPayload_iff printsFixed_whole _).mp h
  have htab : (9 : UInt8) ∈ cs.flatMap String.utf8EncodeChar := by
    rw [← htext]
    decide +kernel
  obtain ⟨c, hc, hmem⟩ := List.mem_flatMap.mp htab
  have hnine := (Json.eq_of_mem_utf8EncodeChar hmem (by decide)).1
  exact absurd (hcs c hc) (by rw [hnine]; decide)

end RemoteDeviceConsole
