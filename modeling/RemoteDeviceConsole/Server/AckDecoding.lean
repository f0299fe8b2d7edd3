import RemoteDeviceConsole.Server.Outgoing
import RemoteDeviceConsole.Loadgen.Client

/-!
# Reading an ACK

`send_ack` writes the device id of an accepted line into the ACK as it is.  The id has
neither a space nor a newline, because the scanner cut it out of a framed line at spaces, so
the words of the ACK are those that were written, and `decodeAck` reads the record back.  Any
other byte may be in an id, the sign `=` and a carriage return among them.

So the reader must not look for the next `=` or trim the line: it takes the four words, and of
each word what stands behind the text that `send_ack` puts in front of the value.

`ackTokens_decodable` is the result for a line that the server cuts and accepts: the load
generator takes the ACK for one, and the id, the sequence and the time come back; so two ACKs
are the same bytes only if they say the same.
-/

namespace RemoteDeviceConsole

open Framing

/-- The words of an ACK. -/
def ackTokens (deviceId : Bytes) (sequence serverMs : UInt64) : List Bytes :=
  [ascii "ACK", ascii "device_id=" ++ deviceId, ascii "seq=" ++ toStringU64 sequence,
    ascii "server_ms=" ++ toStringU64 serverMs]

/-- An ACK read back: its newline goes, and it has four words with these beginnings. -/
def decodeAck (text : Bytes) : Option (Bytes × UInt64 × UInt64) :=
  match (removeSuffix newline text).splitOn space with
  | [word, idToken, seqToken, msToken] =>
      if word = ascii "ACK" ∧ startsWith idToken (ascii "device_id=") ∧
          startsWith seqToken (ascii "seq=") ∧ startsWith msToken (ascii "server_ms=") then do
        let sequence ← parseU64 (seqToken.drop (ascii "seq=").length)
        let serverMs ← parseU64 (msToken.drop (ascii "server_ms=").length)
        return (idToken.drop (ascii "device_id=").length, sequence, serverMs)
      else none
  | _ => none

variable {deviceId : Bytes} {sequence serverMs : UInt64}

/-- An ACK is its words with spaces between them, and a newline. -/
theorem ackText_eq_intercalate (deviceId : Bytes) (sequence serverMs : UInt64) :
    ackText deviceId sequence serverMs =
      [space].intercalate (ackTokens deviceId sequence serverMs) ++ [newline] := by
  have hid : ascii "ACK device_id=" = ascii "ACK" ++ [space] ++ ascii "device_id=" := by
    decide +kernel
  have hseq : ascii " seq=" = [space] ++ ascii "seq=" := by decide +kernel
  have hms : ascii " server_ms=" = [space] ++ ascii "server_ms=" := by decide +kernel
  simp only [ackText, ackTokens, hid, hseq, hms, List.intercalate, List.intersperse,
    List.flatten_cons, List.flatten_nil, List.append_assoc, List.append_nil]

/-- No word of an ACK has a space. -/
theorem space_notMem_ackTokens (h : space ∉ deviceId) :
    ∀ token ∈ ackTokens deviceId sequence serverMs, space ∉ token := by
  have hfixed : space ∉ ascii "ACK" ∧ space ∉ ascii "device_id=" ∧ space ∉ ascii "seq=" ∧
      space ∉ ascii "server_ms=" := by decide +kernel
  have hdigits : ∀ n : UInt64, space ∉ toStringU64 n := fun n => notMem_toStringU64 (by decide)
  simp [ackTokens, hfixed, hdigits, h]

theorem splitOn_ackTokens (h : space ∉ deviceId) :
    ([space].intercalate (ackTokens deviceId sequence serverMs)).splitOn space =
      ackTokens deviceId sequence serverMs :=
  List.splitOn_intercalate space (space_notMem_ackTokens h) (by simp [ackTokens])

theorem removeSuffix_append_singleton (b : UInt8) (text : Bytes) :
    removeSuffix b (text ++ [b]) = text := by
  rw [removeSuffix, List.getLast?_append_cons, List.getLast?_singleton, if_pos rfl,
    List.dropLast_concat]

/-- **What the words say.** -/
theorem decodeAck_ackText (h : space ∉ deviceId) (sequence serverMs : UInt64) :
    decodeAck (ackText deviceId sequence serverMs) = some (deviceId, sequence, serverMs) := by
  have hstart : ∀ word value : Bytes, startsWith (word ++ value) word = true :=
    fun word value => startsWith_iff.mpr ⟨value, rfl⟩
  rw [decodeAck, ackText_eq_intercalate, removeSuffix_append_singleton, splitOn_ackTokens h]
  simp only [ackTokens, hstart, and_self, if_true, List.drop_left, parseU64_toStringU64,
    Option.bind_eq_bind, Option.bind_some, Option.pure_def]

/-- The load generator takes the text for an ACK line, whatever follows it. -/
theorem hasAckLine_ackText (h : newline ∉ deviceId) (more : Bytes) :
    Loadgen.hasAckLine (ackText deviceId sequence serverMs ++ more) =
      (some (ackText deviceId sequence serverMs), more) := by
  rw [Loadgen.hasAckLine, cutFrame_frame_append (isFrame_ackText h _ _)]
  simp [startsWith_ackText]

variable {D : Type} [CharconvDouble D]

/-- The id of an accepted line has no byte that separates. -/
theorem notMem_deviceId_of_accepted {inputBuffer line rest : Bytes} {status : DeviceStatus D}
    (hcut : takeNextLine inputBuffer = some (line, rest))
    (hparse : parseStatusLine line = some status) :
    space ∉ status.deviceId ∧ newline ∉ status.deviceId := by
  obtain ⟨hline, -⟩ := cutFrame_eq_some.mp hcut
  exact ⟨fun h => (mem_deviceId_of_parseStatusLine hparse h).1 rfl,
    newline_notMem_deviceId hline hparse⟩

variable (D) in
/-- **ACKs can be read back.**  For a line that the server cuts from its buffer and accepts
with an ACK requested, the text that `send_ack` builds is one line of four words, a decoder
finds the id and the sequence in it, and the load generator takes it for an ACK.  So two
accepted lines with the same ACK have the same id and the same sequence. -/
theorem ackTokens_decodable :
    (∀ (inputBuffer line rest : Bytes) (status : DeviceStatus D),
      takeNextLine inputBuffer = some (line, rest) → parseStatusLine line = some status →
      status.ackRequested = true → ∀ (clientFd : Fd) (nowMs : UInt64) (result : SendResult),
        ∃ text, (sendAck clientFd nowMs result status).2.text = text ++ [newline] ∧
          newline ∉ text ∧
          text.splitOn space =
            [ascii "ACK", ascii "device_id=" ++ status.deviceId,
              ascii "seq=" ++ toStringU64 status.sequence,
              ascii "server_ms=" ++ toStringU64 nowMs] ∧
          decodeAck (text ++ [newline]) = some (status.deviceId, status.sequence, nowMs) ∧
          ∀ more, Loadgen.hasAckLine (text ++ [newline] ++ more) =
            (some (text ++ [newline]), more)) ∧
    ∀ (inputBuffer line rest inputBuffer' line' rest' : Bytes) (status status' : DeviceStatus D),
      takeNextLine inputBuffer = some (line, rest) → parseStatusLine line = some status →
      status.ackRequested = true → takeNextLine inputBuffer' = some (line', rest') →
      parseStatusLine line' = some status' → status'.ackRequested = true →
      ∀ (clientFd clientFd' : Fd) (nowMs nowMs' : UInt64) (result result' : SendResult),
        (sendAck clientFd nowMs result status).2.text =
          (sendAck clientFd' nowMs' result' status').2.text →
        status.deviceId = status'.deviceId ∧ status.sequence = status'.sequence := by
  constructor
  · intro inputBuffer line rest status hcut hparse _ clientFd nowMs result
    obtain ⟨hspace, hnewline⟩ := notMem_deviceId_of_accepted hcut hparse
    have htext := ackText_eq_intercalate status.deviceId status.sequence nowMs
    obtain ⟨body, hbody, heq⟩ := isFrame_ackText hnewline status.sequence nowMs
    have hsame : body = [space].intercalate (ackTokens status.deviceId status.sequence nowMs) :=
      List.append_cancel_right (heq.symm.trans htext)
    refine ⟨body, heq, hbody, ?_, ?_, fun more => ?_⟩
    · rw [hsame]
      exact splitOn_ackTokens hspace
    · rw [← heq]
      exact decodeAck_ackText hspace _ _
    · rw [← heq]
      exact hasAckLine_ackText hnewline more
  · intro inputBuffer line rest inputBuffer' line' rest' status status' hcut hparse _ hcut' hparse'
      _ clientFd clientFd' nowMs nowMs' result result' heq
    have hdecode := decodeAck_ackText (notMem_deviceId_of_accepted hcut hparse).1
      status.sequence nowMs
    have hdecode' := decodeAck_ackText (notMem_deviceId_of_accepted hcut' hparse').1
      status'.sequence nowMs'
    have hboth : ackText status.deviceId status.sequence nowMs =
      ackText status'.deviceId status'.sequence nowMs' := heq
    rw [hboth, hdecode', Option.some.injEq, Prod.mk.injEq, Prod.mk.injEq] at hdecode
    exact ⟨hdecode.1.symm, hdecode.2.1.symm⟩

/-- An accepted record whose id has the sign between key and value in it. -/
def requestStatus (sequence : UInt64) : DeviceStatus ℤ :=
  { DeviceStatus.default with
    deviceId := ascii "r=1", state := ascii "OK", sequence, ackRequested := true }

/-- The ACK of that record, and those of two records that differ in the sequence. -/
theorem ackTokens_decodable_request :
    (∃ text, (sendAck 4 9 (.room 64) (requestStatus 7)).2.text = text ++ [newline] ∧
      text.splitOn space =
        [ascii "ACK", ascii "device_id=" ++ ascii "r=1", ascii "seq=" ++ toStringU64 7,
          ascii "server_ms=" ++ toStringU64 9]) ∧
    (sendAck 4 9 (.room 64) (requestStatus 7)).2.text ≠
      (sendAck 4 9 (.room 64) (requestStatus 8)).2.text := by
  let line : Bytes := ascii "STATUS device_id=r=1 state=OK seq=7 ack=1" ++ [newline]
  let line' : Bytes := ascii "STATUS device_id=r=1 state=OK seq=8 ack=1" ++ [newline]
  have hcut : takeNextLine line = some (line, []) := by decide +kernel
  have hcut' : takeNextLine line' = some (line', []) := by decide +kernel
  have hparse : parseStatusLine line = some (requestStatus 7) := by decide +kernel
  have hparse' : parseStatusLine line' = some (requestStatus 8) := by decide +kernel
  constructor
  · obtain ⟨text, htext, -, hwords, -⟩ :=
      (ackTokens_decodable ℤ).1 line line [] (requestStatus 7) hcut hparse rfl 4 9 (.room 64)
    exact ⟨text, htext, hwords⟩
  · intro hsame
    have hseq := ((ackTokens_decodable ℤ).2 line line [] line' line' [] (requestStatus 7)
      (requestStatus 8) hcut hparse rfl hcut' hparse' rfl 4 4 9 9 (.room 64) (.room 64) hsame).2
    exact absurd hseq (by decide)

end RemoteDeviceConsole
