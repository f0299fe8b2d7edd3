import RemoteDeviceConsole.Json.Printing
import RemoteDeviceConsole.Server.MqttBridge

/-!
# Reading MQTT payloads

What a subscriber gets back from `status_payload`.  A payload is an object of six members,
printed by the rules of `Framing.Delimiters` with the marks of JSON; `readPayload` takes
the braces off and reads the members.  Ids and states come from the devices and may hold
quotes, backslashes and texts that look like further members: the reader returns them
unchanged (`statusPayload_recovered`).
-/

namespace RemoteDeviceConsole

open Framing

variable {D : Type} [CharconvDouble D]

theorem jsonEscape_eq (value : Bytes) : jsonEscape value = Json.marks.escaped value := rfl

/-- The members of an object, its braces taken off. -/
def readPayload (payload : Bytes) : Option (List (Bytes × Delimiters.MemberValue UInt8)) :=
  if payload.head? = some Json.beginObject ∧ payload.getLast? = some Json.endObject then
    Json.marks.readMembers payload.length payload.tail.dropLast
  else none

/-- The members that a payload of this status has. -/
def payloadMembers (status : DeviceStatus D) : List (Bytes × Delimiters.MemberValue UInt8) :=
  [(ascii "device_id", .text status.deviceId), (ascii "state", .text status.state),
    (ascii "battery", .bare (toStringInt status.batteryPercent)),
    (ascii "x", .bare (CharconvDouble.toString status.x)),
    (ascii "y", .bare (CharconvDouble.toString status.y)),
    (ascii "z", .bare (CharconvDouble.toString status.z))]

/-- The coordinate texts are free of quotes and commas. -/
def PlainCoordinates (status : DeviceStatus D) : Prop :=
  ∀ d ∈ [status.x, status.y, status.z],
    quote ∉ CharconvDouble.toString d ∧ Json.valueSeparator ∉ CharconvDouble.toString d

/-- The number that a decimal text denotes. -/
def intOfText (text : Bytes) : ℤ :=
  if text.head? = some minusSign then -(digitsValue text.tail : ℤ) else digitsValue text

theorem intOfText_toStringInt (n : ℤ) : intOfText (toStringInt n) = n := by
  by_cases hneg : n < 0
  · rw [toStringInt, if_pos hneg, intOfText, if_pos List.head?_cons, List.tail_cons,
      digitsValue_decimal]
    omega
  · have hhead : (decimal n.natAbs).head? ≠ some minusSign := by
      intro h
      have hdigit := isDigit_of_mem_decimal (List.mem_of_mem_head? h)
      exact absurd hdigit (by decide)
    rw [toStringInt, if_neg hneg, intOfText, if_neg hhead, digitsValue_decimal]
    omega

theorem toStringInt_injective : Function.Injective toStringInt :=
  Function.LeftInverse.injective intOfText_toStringInt

/-- The decimal text of a number has digits and minus signs only. -/
theorem notMem_toStringInt {n : ℤ} {b : UInt8} (hminus : b ≠ minusSign)
    (hdigit : isDigit b = false) : b ∉ toStringInt n := by
  have hdecimal : b ∉ decimal n.natAbs := fun h => by
    rw [isDigit_of_mem_decimal h] at hdigit
    exact absurd hdigit (by simp)
  rw [toStringInt]
  split
  · simp [hminus, hdecimal]
  · exact hdecimal

/-- **The code prints an object of six members.** -/
theorem statusPayload_eq (status : DeviceStatus D) :
    statusPayload status = Json.beginObject ::
      (Json.marks.printMembers (payloadMembers status) ++ [Json.endObject]) := by
  have hkeys : ascii "\x7b\"device_id\":\"" =
        123 :: quote :: (Json.marks.escaped (ascii "device_id") ++ [quote, 58, quote]) ∧
      ascii "\",\"state\":\"" =
        [quote, 44, quote] ++ Json.marks.escaped (ascii "state") ++ [quote, 58, quote] ∧
      ascii "\",\"battery\":" =
        [quote, 44, quote] ++ Json.marks.escaped (ascii "battery") ++ [quote, 58] ∧
      ascii ",\"x\":" = [44, quote] ++ Json.marks.escaped (ascii "x") ++ [quote, 58] ∧
      ascii ",\"y\":" = [44, quote] ++ Json.marks.escaped (ascii "y") ++ [quote, 58] ∧
      ascii ",\"z\":" = [44, quote] ++ Json.marks.escaped (ascii "z") ++ [quote, 58] ∧
      ascii "\x7d" = [125] := by
    decide +kernel
  obtain ⟨hid, hstate, hbattery, hx, hy, hz, hend⟩ := hkeys
  simp only [statusPayload, payloadMembers, Delimiters.printMembers, Delimiters.printMember,
    Delimiters.printValue, jsonEscape_eq, hid, hstate, hbattery, hx, hy, hz, hend,
    List.append_assoc, List.cons_append, List.nil_append]
  rfl

theorem isBare_payloadMembers {status : DeviceStatus D} (h : PlainCoordinates status) :
    ∀ member ∈ payloadMembers status, Json.marks.IsBare member.2 := by
  have hbattery : Json.marks.IsBare (.bare (toStringInt status.batteryPercent)) :=
    ⟨notMem_toStringInt (by decide) (by decide), notMem_toStringInt (by decide) (by decide)⟩
  simp only [payloadMembers, List.forall_mem_cons, List.not_mem_nil, IsEmpty.forall_iff,
    implies_true, and_true]
  exact ⟨trivial, trivial, hbattery, h _ (by simp), h _ (by simp), h _ (by simp)⟩

theorem readPayload_statusPayload {status : DeviceStatus D} (h : PlainCoordinates status) :
    readPayload (statusPayload status) = some (payloadMembers status) := by
  have hlength : (payloadMembers status).length ≤ (statusPayload status).length := by
    have hmembers := Delimiters.length_le_length_printMembers (d := Json.marks)
      (payloadMembers status)
    rw [statusPayload_eq, List.length_cons, List.length_append]
    omega
  have hread := Delimiters.readMembers_printMembers (d := Json.marks) (by simp [payloadMembers])
    (isBare_payloadMembers h) hlength
  have hbody : (statusPayload status).tail.dropLast =
      Json.marks.printMembers (payloadMembers status) := by
    rw [statusPayload_eq, List.tail_cons, List.dropLast_concat]
  have hlast : (statusPayload status).getLast? = some Json.endObject := by
    rw [statusPayload_eq, ← List.cons_append, List.getLast?_concat]
  have hhead : (statusPayload status).head? = some Json.beginObject := by rw [statusPayload_eq]; rfl
  rw [readPayload, if_pos ⟨hhead, hlast⟩, hbody, hread]

/-- **What a device sends cannot change the shape of its payload.**  The reader finds the
six members in their order, with the id and the state of the status as the bytes they
are, and its battery; so two payloads agree only when these three do. -/
theorem statusPayload_recovered (status : DeviceStatus D) (h : PlainCoordinates status) :
    readPayload (statusPayload status) =
        some [(ascii "device_id", .text status.deviceId), (ascii "state", .text status.state),
          (ascii "battery", .bare (toStringInt status.batteryPercent)),
          (ascii "x", .bare (CharconvDouble.toString status.x)),
          (ascii "y", .bare (CharconvDouble.toString status.y)),
          (ascii "z", .bare (CharconvDouble.toString status.z))] ∧
      intOfText (toStringInt status.batteryPercent) = status.batteryPercent ∧
      ∀ other : DeviceStatus D, PlainCoordinates other →
        (status.deviceId ≠ other.deviceId ∨ status.state ≠ other.state ∨
          status.batteryPercent ≠ other.batteryPercent) →
        statusPayload status ≠ statusPayload other := by
  refine ⟨readPayload_statusPayload h, intOfText_toStringInt _, fun other hother hne heq => ?_⟩
  have hmembers : payloadMembers status = payloadMembers other := by
    have hread := readPayload_statusPayload h
    rw [heq, readPayload_statusPayload hother, Option.some.injEq] at hread
    exact hread.symm
  simp only [payloadMembers, List.cons.injEq, Prod.mk.injEq, true_and, and_true,
    Delimiters.MemberValue.text.injEq, Delimiters.MemberValue.bare.injEq] at hmembers
  obtain ⟨hid, hstate, hbattery, -⟩ := hmembers
  rcases hne with hne | hne | hne
  · exact hne hid
  · exact hne hstate
  · exact hne (toStringInt_injective hbattery)

/-- An id that ends in a backslash, and one that imitates a further member. -/
theorem statusPayload_recovered_quotes :
    let status : DeviceStatus ℤ :=
      ⟨ascii "a\",\"state\":\"DOWN\\", ascii "OK", -3, 1, -2, 0, 0, 0, false⟩
    PlainCoordinates status ∧
      readPayload (statusPayload status) =
        some [(ascii "device_id", .text (ascii "a\",\"state\":\"DOWN\\")),
          (ascii "state", .text (ascii "OK")), (ascii "battery", .bare (toStringInt (-3))),
          (ascii "x", .bare (ascii "1.000000")), (ascii "y", .bare (ascii "-2.000000")),
          (ascii "z", .bare (ascii "0.000000"))] ∧
      intOfText (toStringInt (-3)) = -3 ∧
      statusPayload status ≠ statusPayload { status with deviceId := ascii "a" } := by
  have hplain : ∀ id : Bytes, PlainCoordinates
      (⟨id, ascii "OK", -3, 1, -2, 0, 0, 0, false⟩ : DeviceStatus ℤ) := by
    have hcoordinates : ∀ d ∈ ([1, -2, 0] : List ℤ),
        quote ∉ CharconvDouble.toString d ∧ Json.valueSeparator ∉ CharconvDouble.toString d := by
      decide +kernel
    exact fun _ => hcoordinates
  obtain ⟨hread, hbattery, hother⟩ := statusPayload_recovered
    (⟨ascii "a\",\"state\":\"DOWN\\", ascii "OK", -3, 1, -2, 0, 0, 0, false⟩ : DeviceStatus ℤ)
    (hplain _)
  exact ⟨hplain _, hread, hbattery, hother _ (hplain _) (Or.inl (by decide +kernel))⟩

end RemoteDeviceConsole
