import RemoteDeviceConsole.Viewer.Delivery

/-!
# The snapshots that a viewer shows

A line at the viewer is a chain of cut lines closed by a whole one
(`mem_frames_flatten`).  The word at the front of the closing line cannot be undone
by what stands before it: a piece that is cut inside its own first word only makes
that word longer (`Headed.glue`), and a METRICS line that is cut behind its first
word glues the next word to a key or to a number, which no field takes
(`parseMetricsLine_glued`).  So the viewer parses a snapshot only from a line that
is one whole formatted line (`metricsReceived_authentic`).

For STATUS lines nothing of the kind is true, see `fabricated_status`.  The
difference is in the fields: those of a METRICS line take digits and nothing else,
while a text field of a STATUS line takes whatever was glued to it.
-/

namespace RemoteDeviceConsole

open Framing Machine Relation
open ServerMetrics (kMetricsPrefix)

/-! ## Words at the front of a line -/

/-- An upper-case letter. -/
def isUpper (b : UInt8) : Bool := 65 ≤ b && b ≤ 90

/-- What the first words of the server's lines have in common, and keep when pieces of
them are glued together: capitals, at least three, that start as `METRICS`, `STATUS` or
`ACK` does. -/
structure Keyword (word : Bytes) : Prop where
  upper : ∀ b ∈ word, isUpper b = true
  long : 3 ≤ word.length
  head : word.head? = some 77 ∨ word.head? = some 83 ∨ word.head? = some 65

/-- A text whose first word is such a word. -/
def Headed (text : Bytes) : Prop := ∃ word tail, Keyword word ∧ text = word ++ space :: tail

theorem keyword_metrics : Keyword kMetricsPrefix :=
  ⟨by decide +kernel, by decide, by decide⟩

theorem keyword_status : Keyword kStatusPrefix :=
  ⟨by decide +kernel, by decide, by decide⟩

theorem keyword_ack : Keyword (ascii "ACK") :=
  ⟨by decide +kernel, by decide, by decide⟩

theorem Keyword.notMem {word : Bytes} (h : Keyword word) {b : UInt8} (hb : isUpper b = false) :
    b ∉ word := fun hmem => by
  rw [h.upper b hmem] at hb
  exact absurd hb (by simp)

/-- The first part of one such word and another one make a third. -/
theorem Keyword.glue {word other q : Bytes} (hword : Keyword word) (hother : Keyword other)
    (hq : q <+: word) : Keyword (q ++ other) := by
  refine ⟨fun b hb => ?_, ?_, ?_⟩
  · rcases List.mem_append.mp hb with hb | hb
    · exact hword.upper b (hq.subset hb)
    · exact hother.upper b hb
  · have hlong := hother.long
    rw [List.length_append]
    omega
  · cases q with
    | nil => exact hother.head
    | cons b q =>
      obtain ⟨r, rfl⟩ := hq
      exact hword.head

/-- **A cut text in front of such a text** leaves a text with such a first word. -/
theorem Headed.glue {text q rest : Bytes} (htext : Headed text) (hq : q <+: text)
    (hrest : Headed rest) : Headed (q ++ rest) := by
  obtain ⟨word, tail, hword, rfl⟩ := htext
  obtain ⟨word', tail', hword', rfl⟩ := hrest
  rcases prefix_append_cons_iff.mp hq with hq | ⟨t, rfl, -⟩
  · exact ⟨q ++ word', tail', hword.glue hword' hq, by rw [List.append_assoc]⟩
  · exact ⟨word, t ++ (word' ++ space :: tail'), hword, by simp⟩

theorem headed_flatten_append {pieces : List Bytes} {last : Bytes}
    (h : ∀ piece ∈ pieces, ∃ text, Headed text ∧ piece <+: text) (hlast : Headed last) :
    Headed (pieces.flatten ++ last) := by
  induction pieces with
  | nil => exact hlast
  | cons piece pieces ih =>
    obtain ⟨text, htext, hpiece⟩ := h piece (by simp)
    rw [List.flatten_cons, List.append_assoc]
    exact htext.glue hpiece (ih fun other hother => h other (by simp [hother]))

/-- No end of `METRICS` but the word itself is such a word. -/
theorem not_keyword_drop_metrics {n : ℕ} (hn : 0 < n) : ¬ Keyword (kMetricsPrefix.drop n) := by
  intro h
  have hlong := h.long
  have hlength : kMetricsPrefix.length = 7 := by decide
  rw [List.length_drop] at hlong
  have hcases : n = 1 ∨ n = 2 ∨ n = 3 ∨ n = 4 := by omega
  rcases hcases with rfl | rfl | rfl | rfl <;> exact absurd h.head (by decide)

/-! ## METRICS lines that are cut -/

/-- **A token of the line that is cut and runs on in a word** is taken by no field: it
has no `=`, or the value of a known key is no number. -/
theorem assignToken_glued {m : ServerMetrics} {field : Bytes × Bytes}
    (hfield : field ∈ metricsTexts m) {t word : Bytes} (ht : t <+: fieldToken field)
    (hword : Keyword word) (metrics : ServerMetrics) :
    assignToken ServerMetrics.assignField metrics (t ++ word) = none := by
  obtain ⟨hkey, -⟩ := exists_of_mem_metricsTexts hfield
  have hclean := cleanField_of_mem_metricsTexts field hfield
  rcases prefix_append_cons_iff.mp ht with ht | ⟨digits, rfl, -⟩
  · refine assignToken_of_notMem _ _ ?_
    rw [List.mem_append, not_or]
    exact ⟨fun hmem => hclean.equals_notMem (ht.subset hmem), hword.notMem (by decide)⟩
  · have hlong := hword.long
    have hvalue : digits ++ word ≠ [] := by
      rw [← List.length_pos_iff, List.length_append]
      omega
    obtain ⟨b, hb⟩ := List.exists_mem_of_length_pos (l := word) (by omega)
    have hdigit : isDigit b = false := by
      have hupper := hword.upper b hb
      simp only [isUpper, Bool.and_eq_true, decide_eq_true_eq, UInt8.le_iff_toNat_le] at hupper
      simp only [isDigit, Bool.and_eq_false_iff, decide_eq_false_iff_not, UInt8.le_iff_toNat_le]
      have h90 : (57 : UInt8).toNat = 57 := rfl
      have h65 : (65 : UInt8).toNat = 65 := rfl
      omega
    rw [List.append_assoc, List.cons_append,
      assignToken_key_value _ _ hclean.equals_notMem hclean.key.1 hvalue]
    exact assignField_of_mem_metricsKeys hkey _
      (parseU64_eq_none_of_mem (List.mem_append_right digits hb) hdigit)

/-- **A METRICS line that is cut behind its first word** and runs on in another line is
rejected. -/
theorem parseMetricsLine_glued {m : ServerMetrics} {q rest : Bytes} (hrest : Headed rest)
    (hq : kMetricsPrefix ++ q <+: formatMetricsLine m) (hne : q ≠ [])
    (hnewline : newline ∉ q) : parseMetricsLine (kMetricsPrefix ++ (q ++ rest)) = none := by
  rw [formatMetricsLine_eq_printFields, printFields, List.append_assoc,
    List.prefix_append_right_inj] at hq
  have hfields : q <+: (metricsTexts m).flatMap fun field => space :: fieldToken field := by
    rcases prefix_append_cons_iff.mp hq with hq | ⟨t, rfl, -⟩
    · exact hq
    · exact absurd (by simp) hnewline
  obtain ⟨before, t, field, hfield, rfl, ht, hbefore⟩ := exists_token_of_prefix hne hfields
  obtain ⟨word, tail, hword, rfl⟩ := hrest
  have hspace : space ∉ t ++ word := by
    rw [List.mem_append, not_or]
    have hclean := cleanField_of_mem_metricsTexts field hfield
    exact ⟨fun hmem => hclean.notMem_fieldToken (by simp) (ht.subset hmem),
      hword.notMem (by decide)⟩
  have hnonempty : t ++ word ≠ [] := by
    have hlong := hword.long
    rw [← List.length_pos_iff, List.length_append]
    omega
  have htext : before ++ space :: t ++ (word ++ space :: tail) =
      before ++ space :: ((t ++ word) ++ space :: tail) := by simp
  rw [htext, parseMetricsLine]
  exact parseFields_eq_none_of_token _ hbefore hspace hnonempty
    fun metrics => assignToken_glued hfield ht hword metrics

/-! ## The lines of the server -/

variable {D : Type} [CharconvDouble D]

/-- The first word of a wire line, and what kind it is when the word is `METRICS`. -/
theorem WireLine.exists_word {trace : List Obs} {sent : Sent} (h : WireLine D trace sent) :
    ∃ word tail, Keyword word ∧ sent.text = word ++ space :: tail ∧
      (word.head? = some 77 → word = kMetricsPrefix ∧
        ∃ record, .report record ∈ trace ∧ sent.text = formatMetricsLine record.metrics) := by
  cases h with
  | ack deviceId sequence serverMs hid htext =>
    refine ⟨ascii "ACK", _, keyword_ack, htext, fun hhead => absurd hhead (by decide)⟩
  | status record status hrecord hsent htext hline hparse =>
    obtain ⟨tail, htail⟩ := exists_eq_of_parseStatusLine hparse
    exact ⟨kStatusPrefix, tail, keyword_status, htext.trans htail,
      fun hhead => absurd hhead (by decide)⟩
  | metrics record hrecord htext =>
    obtain ⟨tail, htail⟩ := exists_formatMetricsLine_eq record.metrics
    exact ⟨kMetricsPrefix, tail, keyword_metrics, htext.trans htail,
      fun _ => ⟨rfl, record, hrecord, htext⟩⟩

/-- **A wire line that is cut and runs on in another** is no snapshot. -/
theorem WireLine.parseMetricsLine_cut {trace : List Obs} {sent : Sent}
    (h : WireLine D trace sent) {q rest : Bytes} (hq : q <+: sent.text) (hne : q ≠ [])
    (hnewline : newline ∉ q) (hrest : Headed rest)
    (hstart : startsWith (q ++ rest) (ascii "METRICS ") = true) :
    parseMetricsLine (q ++ rest) = none := by
  obtain ⟨word, tail, hword, htext, hmetrics⟩ := h.exists_word
  obtain ⟨u, hu⟩ : ∃ u, q ++ rest = kMetricsPrefix ++ space :: u := by
    obtain ⟨u, hu⟩ := startsWith_iff.mp hstart
    have hsplit : ascii "METRICS " = kMetricsPrefix ++ [space] := by decide
    exact ⟨u, by rw [hu, hsplit, List.append_assoc]; rfl⟩
  have hspace : space ∉ kMetricsPrefix := keyword_metrics.notMem (by decide)
  rw [htext] at hq
  rcases prefix_append_cons_iff.mp hq with hq | ⟨t, rfl, -⟩
  · -- the cut is inside the first word, and what follows it would have to complete `METRICS`
    obtain ⟨other, tail', hother, rfl⟩ := hrest
    have hglued : space ∉ q ++ other := (hword.glue hother hq).notMem (by decide)
    rw [← List.append_assoc] at hu
    obtain ⟨hmetrics, -⟩ := (append_cons_inj hglued hspace).mp hu
    refine absurd ?_ (not_keyword_drop_metrics (List.length_pos_of_ne_nil hne))
    rw [← hmetrics, List.drop_left]
    exact hother
  · have hfirst : word ++ space :: (t ++ rest) = kMetricsPrefix ++ space :: u := by
      simpa using hu
    obtain ⟨rfl, -⟩ := (append_cons_inj (hword.notMem (by decide)) hspace).mp hfirst
    obtain ⟨-, record, -, hformat⟩ := hmetrics (by decide)
    rw [List.append_assoc]
    refine @parseMetricsLine_glued record.metrics _ _ hrest ?_ (List.cons_ne_nil _ _) ?_
    · rw [← hformat, htext]
      exact hq
    · exact fun hmem => hnewline (List.mem_append_right _ hmem)

theorem WireLine.headed {trace : List Obs} {sent : Sent} (h : WireLine D trace sent) :
    Headed sent.text := by
  obtain ⟨word, tail, hword, htext, -⟩ := h.exists_word
  exact ⟨word, tail, hword, htext⟩

/-- A line that arrives and is dispatched as METRICS is whole, or the parser rejects it. -/
theorem exists_sent_of_parseMetricsLine {trace : List Obs} {sends : List Sent}
    (hsends : ∀ sent ∈ sends, WireLine D trace sent) {line : Bytes}
    (hline : line ∈ frames newline (sends.flatMap Sent.bytes))
    (hstart : startsWith line (ascii "METRICS ") = true) {m : ServerMetrics}
    (hparse : parseMetricsLine line = some m) : ∃ sent ∈ sends, line = sent.text := by
  have hpieces : ∀ piece ∈ sends.map Sent.bytes, IsFrame newline piece ∨ newline ∉ piece := by
    intro piece hpiece
    obtain ⟨sent, hsent, rfl⟩ := List.mem_map.mp hpiece
    have hframe := (hsends sent hsent).isFrame
    rcases sent.whole_or_torn_or_nil with hwhole | htorn | hnil
    · exact Or.inl (by rwa [Sent.bytes_of_whole hwhole])
    · exact Or.inr (newline_notMem_of_torn hframe htorn)
    · exact Or.inr (by simp [hnil])
  rw [List.flatMap_def] at hline
  obtain ⟨pieces, last, rfl, hlast, hmem, hopen⟩ := mem_frames_flatten hpieces hline
  obtain ⟨sent, hsent, rfl⟩ := List.mem_map.mp hmem
  -- the piece that has the newline is whole
  have hwhole : sent.bytes = sent.text := by
    rcases sent.whole_or_torn_or_nil with hwhole | htorn | hnil
    · exact Sent.bytes_of_whole hwhole
    · exact absurd hlast.mem (newline_notMem_of_torn (hsends sent hsent).isFrame htorn)
    · exact absurd hnil hlast.ne_nil
  have hcut : ∀ piece ∈ pieces, newline ∉ piece ∧ ∃ other, WireLine D trace other ∧
      piece <+: other.text := by
    intro piece hpiece
    obtain ⟨other, hother, rfl⟩ := List.mem_map.mp (hopen piece hpiece).2
    exact ⟨(hopen _ hpiece).1, other, hsends other hother, other.bytes_isPrefix⟩
  rw [hwhole] at hstart hparse ⊢
  have hheaded : Headed sent.text := (hsends sent hsent).headed
  clear hline hopen
  -- the first piece with bytes in it spoils the line
  induction pieces with
  | nil => exact ⟨sent, hsent, rfl⟩
  | cons piece pieces ih =>
    obtain ⟨hnewline, other, hother, hpre⟩ := hcut piece (by simp)
    have hrest : ∀ p ∈ pieces, newline ∉ p ∧ ∃ other, WireLine D trace other ∧
        p <+: other.text := fun p hp => hcut p (by simp [hp])
    by_cases hnil : piece = []
    · subst hnil
      exact ih hstart hparse hrest
    · rw [List.flatten_cons, List.append_assoc] at hstart hparse
      have htail : Headed (pieces.flatten ++ sent.text) := by
        refine headed_flatten_append (fun p hp => ?_) hheaded
        obtain ⟨-, other, hother, hp⟩ := hrest p hp
        exact ⟨other.text, hother.headed, hp⟩
      rw [hother.parseMetricsLine_cut hpre hnil hnewline htail hstart] at hparse
      exact absurd hparse (by simp)

theorem startsWith_of_metricsReceived_mem {line other : Bytes}
    (h : (.metricsReceived line : Emitted D) ∈ emittedLine other) :
    line = other ∧ startsWith line (ascii "METRICS ") = true := by
  unfold emittedLine at h
  split at h
  · next hstart =>
    have heq : line = other := by simpa using h
    exact ⟨heq, heq ▸ hstart⟩
  · split at h <;> simp at h

/-! ## No fabricated snapshot -/

/-- **Where an accepted snapshot comes from.**  Whatever the sends took, a METRICS line
that the worker passes on and that the decoder accepts is a line the server formatted
for a report, and it decodes to the snapshot of that report. -/
theorem metricsReceived_authentic {nowMs : UInt64} {mqttBridge : MqttBridge}
    {steps : List LoopStep} {s : Server D} (h : ServerRun nowMs mqttBridge steps s)
    {closed : List ViewerConnection} {last : ViewerConnection}
    (hconns : ∀ c ∈ closed ++ [last], c.DeliveredIn s.trace) {line : Bytes} {m : ServerMetrics}
    (hline : (.metricsReceived line : Emitted D) ∈ viewerEvents D closed last)
    (hparse : parseMetricsLine line = some m) :
    ∃ record, .report record ∈ s.trace ∧ line = formatMetricsLine record.metrics ∧
      m = record.metrics := by
  rw [viewerEvents_eq] at hline
  obtain ⟨c, hc, hevent⟩ := List.mem_flatMap.mp hline
  obtain ⟨other, hframe, hemitted⟩ := List.mem_flatMap.mp hevent
  obtain ⟨rfl, hstart⟩ := startsWith_of_metricsReceived_mem hemitted
  obtain ⟨⟨pre, hpre, hsession⟩, hdelivered⟩ := hconns c hc
  have hwire : ∀ sent ∈ sendsTo c.fd c.obs, WireLine D s.trace sent := fun sent hsent =>
    (h.reachable.wireLine_of_mem_sendsTo hpre hsession hsent).1
  obtain ⟨sent, hsent, rfl⟩ := exists_sent_of_parseMetricsLine hwire
    ((frames_of_isPrefix hdelivered).subset hframe) hstart hparse
  cases hwire sent hsent with
  | ack deviceId sequence serverMs hid htext =>
    rw [htext, emittedLine_ackText] at hemitted
    simp at hemitted
  | status record status hrecord hbroadcast htext hframe' hstatus =>
    rw [htext, emittedLine_status hstatus] at hemitted
    simp at hemitted
  | metrics record hrecord htext =>
    rw [htext, parseMetricsLine_formatMetricsLine, Option.some.injEq] at hparse
    exact ⟨record, hrecord, htext, hparse.symm⟩

/-- A report is cut behind `MET`, the next one is lost with it, and the third is shown. -/
theorem metricsReceived_authentic_torn :
    ∃ (steps : List LoopStep) (s : Server ℤ) (c : ViewerConnection) (m : ServerMetrics),
      ServerRun 0 ⟨false⟩ steps s ∧ c.DeliveredIn s.trace ∧
      viewerEvents ℤ [] c = [.metricsReceived (formatMetricsLine m)] ∧
      ∃ record, .report record ∈ s.trace ∧ record.metrics = m := by
  let torn : ReportEnv := ⟨10000, fun _ => .room 3, .increasing⟩
  let last : ServerMetrics := ⟨30, 1, 1, 0, 0, 0, 0, 0, 0, 0⟩
  obtain ⟨s, hrun, hs⟩ := exists_serverRun
    (P := fun s : Server ℤ => (session 5 s.trace).any fun obs =>
      viewerEvents ℤ [] ⟨5, obs, [bytesTo 5 obs]⟩ =
        [.metricsReceived (formatMetricsLine last)]) 0 ⟨false⟩
    [ .event (.listening [⟨5, none, none⟩] .EAGAIN),
      .event (.client 5 [ascii "HELLO role=viewer\n"] (.failed .EAGAIN) fun _ => .roomy 1),
      .report torn, .report (.roomy 20000), .report (.roomy 30000)]
    (by decide +kernel)
  obtain ⟨obs, hsession, hobs⟩ := (Option.any_eq_true _ _).mp hs
  have hevents := of_decide_eq_true hobs
  have hdelivered : (⟨5, obs, [bytesTo 5 obs]⟩ : ViewerConnection).DeliveredIn s.trace :=
    ⟨⟨s.trace, List.prefix_rfl, hsession⟩, by simp⟩
  have hconns : ∀ c ∈ ([] : List ViewerConnection) ++ [⟨5, obs, [bytesTo 5 obs]⟩],
      c.DeliveredIn s.trace := by
    intro c hc
    rw [List.mem_singleton.mp hc]
    exact hdelivered
  obtain ⟨record, hrecord, -, hmetrics⟩ := metricsReceived_authentic hrun hconns
    (by rw [hevents]; simp) (parseMetricsLine_formatMetricsLine last)
  exact ⟨_, s, _, last, hrun, hdelivered, hevents, record, hrecord, hmetrics.symm⟩

end RemoteDeviceConsole
