import RemoteDeviceConsole.Server.Conservation

/-!
# Reports

`print_metrics_if_due` is called once an iteration and reports when a second has passed since
the last report.  `reportOf` is what one call works with, its clock reading and the locals of
`make_metrics_line`, and `reports` collects it over a run.  The baselines of the next report
are set after the snapshot was broadcast, which only counts failed calls of `send`, so nothing
falls between two reports.

`Reported` is what ties the reports of a run to its state and its trace, and
`ServerRun.reports_partition` reads the result off it: with a clock that does not go back the
reports are a second apart, every accepted line is in the figure of one report or comes after
the last one, and the rates are exact.
-/

namespace RemoteDeviceConsole

open Framing Machine Relation

variable {D : Type}

/-! ## What a report computes -/

/-- One report: the clock, the locals of `make_metrics_line` and its snapshot. -/
structure Report where
  currentMs : UInt64
  elapsedMs : UInt64
  messagesDelta : ℕ
  metrics : ServerMetrics

/-- What a call of `print_metrics_if_due` reports. -/
def reportOf (env : ReportEnv) (s : Server D) : Option Report :=
  if env.nowMs - s.counters.lastReportMs < 1000 then none
  else some {
    currentMs := env.nowMs
    elapsedMs := max 1 (env.nowMs - s.counters.lastReportMs)
    messagesDelta := s.counters.statusReceived - s.counters.lastReportStatusReceived
    metrics := makeMetrics s.counters s.telemetryClientFds s.statusStore env.nowMs }

def stepReports (s : Server D) : LoopStep → List Report
  | .event _ => []
  | .report env => (reportOf env s).toList

/-- The entry is a report. -/
def Obs.isReport : Obs → Bool
  | .report _ => true
  | _ => false

/-- The snapshot of a report. -/
def Obs.snapshot : Obs → Option ServerMetrics
  | .report record => some record.metrics
  | _ => none

/-- The clock readings of the calls. -/
def callTimes (steps : List LoopStep) : List UInt64 :=
  steps.filterMap fun
    | .report env => some env.nowMs
    | .event _ => none

/-- The clock does not go back, from the start of the server and from call to call. -/
def MonotoneClock (nowMs : UInt64) (steps : List LoopStep) : Prop :=
  (nowMs :: callTimes steps).Pairwise (· ≤ ·)

instance (nowMs : UInt64) (steps : List LoopStep) : Decidable (MonotoneClock nowMs steps) :=
  inferInstanceAs (Decidable (List.Pairwise _ _))

theorem callTimes_append (a b : List LoopStep) : callTimes (a ++ b) = callTimes a ++ callTimes b :=
  List.filterMap_append ..

theorem MonotoneClock.of_append {nowMs : UInt64} {a b : List LoopStep}
    (h : MonotoneClock nowMs (a ++ b)) : MonotoneClock nowMs a := by
  rw [MonotoneClock, callTimes_append, ← List.cons_append] at h
  exact (List.pairwise_append.mp h).1

/-- A call comes after the start and after all calls before it. -/
theorem MonotoneClock.le {nowMs : UInt64} {steps : List LoopStep} {env : ReportEnv}
    (h : MonotoneClock nowMs (steps ++ [.report env])) {ms : UInt64}
    (hms : ms ∈ nowMs :: callTimes steps) : ms ≤ env.nowMs := by
  rw [MonotoneClock, callTimes_append, ← List.cons_append] at h
  exact (List.pairwise_append.mp h).2.2 ms hms env.nowMs (by simp [callTimes])

/-! ## Events do not report -/

/-- What an event leaves alone: the baselines of the next report, and the reports of the
trace. -/
structure NoReport (s t : Server D) : Prop where
  startMs : t.counters.startMs = s.counters.startMs
  lastReportMs : t.counters.lastReportMs = s.counters.lastReportMs
  lastReportStatusReceived :
    t.counters.lastReportStatusReceived = s.counters.lastReportStatusReceived
  trace : ∃ entries, t.trace = s.trace ++ entries ∧ ∀ x ∈ entries, x.isReport = false

theorem NoReport.refl (s : Server D) : NoReport s s := ⟨rfl, rfl, rfl, [], by simp, by simp⟩

theorem NoReport.trans {s t u : Server D} (h : NoReport s t) (h' : NoReport t u) :
    NoReport s u := by
  obtain ⟨a, ha, hno⟩ := h.trace
  obtain ⟨b, hb, hno'⟩ := h'.trace
  refine ⟨h'.startMs.trans h.startMs, h'.lastReportMs.trans h.lastReportMs,
    h'.lastReportStatusReceived.trans h.lastReportStatusReceived, a ++ b, ?_, ?_⟩
  · rw [hb, ha, List.append_assoc]
  · intro x hx
    rcases List.mem_append.mp hx with hx | hx
    · exact hno x hx
    · exact hno' x hx

/-- One entry that is no report. -/
theorem NoReport.of_append {s t : Server D} {x : Obs}
    (hcounters : t.counters.startMs = s.counters.startMs ∧
      t.counters.lastReportMs = s.counters.lastReportMs ∧
      t.counters.lastReportStatusReceived = s.counters.lastReportStatusReceived)
    (htrace : t.trace = s.trace ++ [x]) (hx : x.isReport = false) : NoReport s t :=
  ⟨hcounters.1, hcounters.2.1, hcounters.2.2, [x], htrace, by simpa using hx⟩

variable [CharconvDouble D]

theorem noReport_handleLine (fd : Fd) (env : LineEnv) (line : Bytes) (s : Server D) :
    NoReport s (handleLine fd env line s) := by
  refine NoReport.of_append ?_ (trace_handleLine fd env line s) rfl
  cases h : (lineKind line : LineKind D) with
  | hello viewer => rw [handleLine_hello h]; exact ⟨rfl, rfl, rfl⟩
  | accepted status => rw [handleLine_accepted h]; exact ⟨rfl, rfl, rfl⟩
  | rejected => rw [handleLine_rejected h]; exact ⟨rfl, rfl, rfl⟩

theorem noReport_receiveLines (fd : Fd) (env : ℕ → LineEnv) (data buffer : Bytes) (s : Server D) :
    NoReport s (receiveLines fd env data buffer s) := by
  have hreceived : NoReport s ((s.setBuffer fd (buffer ++ data)).log (.received fd data)) :=
    .of_append ⟨rfl, rfl, rfl⟩ rfl rfl
  have hbuffer : ∀ (u : Server D) rest, NoReport u (u.setBuffer fd rest) :=
    fun u rest => ⟨rfl, rfl, rfl, [], by simp, by simp⟩
  refine hreceived.trans (drainFrames_induction (d := newline)
    (P := fun (acc : ℕ × Server D) _ => NoReport _ acc.2) (fun acc line rest _ hacc => ?_)
    (.refl _))
  exact hacc.trans ((hbuffer acc.2 rest).trans (noReport_handleLine fd _ line _))

theorem noReport_dispatch {event : Event} {s t : Server D} (h : dispatch event s = .ok t) :
    NoReport s t := by
  cases event with
  | listening clients last =>
    exact acceptReadyClients_induction (P := NoReport s) h (.refl s)
      fun client _ u hu => hu.trans (.of_append ⟨rfl, rfl, rfl⟩ rfl rfl)
  | client fd chunks last env =>
    cases hbuffer : s.clientBuffers.lookup fd with
    | none =>
      rw [dispatch_client_unknown hbuffer, Except.ok.injEq] at h
      exact h ▸ .of_append ⟨rfl, rfl, rfl⟩ rfl rfl
    | some buffer =>
      have hlines := noReport_receiveLines fd env chunks.flatten buffer s
      rcases dispatch_client_cases hbuffer h with rfl | ⟨-, rfl⟩
      · exact hlines
      · exact hlines.trans (.of_append ⟨rfl, rfl, rfl⟩ rfl rfl)

/-! ## The reports of a run -/

/-- The reports of a run. -/
def reports (nowMs : UInt64) (mqttBridge : MqttBridge) (D : Type) [CharconvDouble D]
    (steps : List LoopStep) : List Report :=
  outputs loopStep stepReports (Server.start nowMs mqttBridge : Server D) steps

/-- The accepted lines between the reports of a trace, before the first and behind the last
one included. -/
def acceptedBetween (D : Type) [CharconvDouble D] (trace : List Obs) : List ℕ :=
  (trace.splitOnP Obs.isReport).map fun part => (acceptedStatuses D part).length

/-- A rate is the whole part of the exact one. -/
def Report.ExactRate (report : Report) : Prop :=
  report.metrics.msgPerSec.toNat * report.elapsedMs.toNat ≤ 1000 * report.messagesDelta ∧
    1000 * report.messagesDelta < (report.metrics.msgPerSec.toNat + 1) * report.elapsedMs.toNat

/-- What ties the reports of a run to its last state. -/
structure Reported (nowMs : UInt64) (steps : List LoopStep) (rs : List Report) (s : Server D) :
    Prop where
  startMs : s.counters.startMs = nowMs
  lastReportMs : s.counters.lastReportMs ∈ nowMs :: callTimes steps
  received : s.counters.lastReportStatusReceived ≤ s.counters.statusReceived
  deltas : (rs.map Report.messagesDelta).sum = s.counters.lastReportStatusReceived
  between : acceptedBetween D s.trace = rs.map Report.messagesDelta ++
    [s.counters.statusReceived - s.counters.lastReportStatusReceived]
  printed : s.trace.filterMap Obs.snapshot = rs.map Report.metrics
  before : ∀ report ∈ rs, report.currentMs ≤ s.counters.lastReportMs
  apart : rs.Pairwise fun a b => a.currentMs.toNat + 1000 ≤ b.currentMs.toNat
  rates : s.counters.statusReceived < 2 ^ 64 →
    ∀ report ∈ rs, 1000 ≤ report.elapsedMs.toNat ∧ report.ExactRate

theorem acceptedStatuses_append_trace (a b : List Obs) :
    acceptedStatuses D (a ++ b) = acceptedStatuses D a ++ acceptedStatuses D b := by
  simp [acceptedStatuses, handledLines]

/-- Entries without a report add to the accepted lines behind the last one. -/
theorem acceptedBetween_append {trace entries : List Obs} {counts : List ℕ} {n : ℕ}
    (h : acceptedBetween D trace = counts ++ [n]) (hentries : ∀ x ∈ entries, x.isReport = false) :
    acceptedBetween D (trace ++ entries) =
      counts ++ [n + (acceptedStatuses D entries).length] := by
  obtain ⟨parts, last, htrace, hall⟩ := exists_splitOnP_append trace hentries
  rw [acceptedBetween, htrace, List.map_append] at h
  obtain ⟨hcounts, hn⟩ := List.append_inj' h rfl
  obtain rfl := List.singleton_inj.mp hn
  rw [acceptedBetween, hall, List.map_append, hcounts, List.map_singleton,
    acceptedStatuses_append_trace, List.length_append]

/-- A report starts a new part. -/
theorem acceptedBetween_append_report (trace : List Obs) (record : ReportRecord) :
    acceptedBetween D (trace ++ [.report record]) = acceptedBetween D trace ++ [0] := by
  rw [acceptedBetween, List.splitOnP_append_cons trace [] (show Obs.isReport _ = true from rfl),
    List.map_append]
  rfl

theorem filterMap_snapshot_eq_nil {entries : List Obs} (h : ∀ x ∈ entries, x.isReport = false) :
    entries.filterMap Obs.snapshot = [] := by
  rw [List.filterMap_eq_nil_iff]
  intro x hx
  cases x with
  | report record => exact absurd (h _ hx) (by simp [Obs.isReport])
  | _ => rfl

/-- An event keeps the ties. -/
theorem Reported.event {nowMs : UInt64} {steps : List LoopStep} {rs : List Report} {s t : Server D}
    (h : Reported nowMs steps rs s) {event : Event} (hs : Reachable s) (ht : Reachable t)
    (hok : dispatch event s = .ok t) : Reported nowMs (steps ++ [.event event]) rs t := by
  have hno := noReport_dispatch hok
  obtain ⟨entries, htrace, hentries⟩ := hno.trace
  have hreceived : t.counters.statusReceived =
      s.counters.statusReceived + (acceptedStatuses D entries).length := by
    rw [ht.counted.received, hs.counted.received, htrace, acceptedStatuses_append_trace,
      List.length_append]
  have hle := h.received
  have hcalls : callTimes (steps ++ [.event event]) = callTimes steps := by
    rw [callTimes_append]
    exact List.append_nil _
  refine ⟨hno.startMs.trans h.startMs, ?_, ?_, ?_, ?_, ?_, ?_, h.apart, ?_⟩
  · rw [hno.lastReportMs, hcalls]
    exact h.lastReportMs
  · rw [hno.lastReportStatusReceived]
    omega
  · rw [hno.lastReportStatusReceived]
    exact h.deltas
  · rw [htrace, acceptedBetween_append h.between hentries, hno.lastReportStatusReceived, hreceived]
    congr 2
    omega
  · rw [htrace, List.filterMap_append, filterMap_snapshot_eq_nil hentries, List.append_nil]
    exact h.printed
  · rw [hno.lastReportMs]
    exact h.before
  · intro hlt
    exact h.rates (by omega)

omit [CharconvDouble D] in
/-- The rate of a report, when a second has passed and the messages fit into 64 bits. -/
theorem exactRate_makeMetrics {s : Server D} {nowMs : UInt64}
    (helapsed : 1000 ≤ (nowMs - s.counters.lastReportMs).toNat)
    (hreceived : s.counters.statusReceived < 2 ^ 64) :
    (max 1 (nowMs - s.counters.lastReportMs)).toNat = (nowMs - s.counters.lastReportMs).toNat ∧
      (makeMetrics s.counters s.telemetryClientFds s.statusStore nowMs).msgPerSec.toNat =
        (s.counters.statusReceived - s.counters.lastReportStatusReceived) * 1000 /
          (nowMs - s.counters.lastReportMs).toNat := by
  have hmax : max 1 (nowMs - s.counters.lastReportMs) = nowMs - s.counters.lastReportMs := by
    refine if_pos (UInt64.le_iff_toNat_le.mpr ?_)
    have hone : (1 : UInt64).toNat = 1 := rfl
    omega
  refine ⟨by rw [hmax], ?_⟩
  have hrate : (s.counters.statusReceived - s.counters.lastReportStatusReceived) * 1000 /
      (nowMs - s.counters.lastReportMs).toNat < 2 ^ 64 := by
    calc _ ≤ (s.counters.statusReceived - s.counters.lastReportStatusReceived) * 1000 / 1000 :=
          Nat.div_le_div_left helapsed (by norm_num)
      _ = s.counters.statusReceived - s.counters.lastReportStatusReceived :=
          Nat.mul_div_cancel _ (by norm_num)
      _ < 2 ^ 64 := by omega
  rw [makeMetrics, hmax, UInt64.toNat_ofNat', Nat.mod_eq_of_lt hrate]

/-- A report that is due comes a second after the last one. -/
theorem second_of_due {lastMs nowMs : UInt64} (hlast : lastMs ≤ nowMs)
    (hdue : ¬ nowMs - lastMs < 1000) :
    1000 ≤ (nowMs - lastMs).toNat ∧ lastMs.toNat + 1000 ≤ nowMs.toNat := by
  have helapsed : (nowMs - lastMs).toNat = nowMs.toNat - lastMs.toNat :=
    UInt64.toNat_sub_of_le _ _ hlast
  have hge := UInt64.lt_iff_toNat_lt.not.mp hdue
  have hthousand : (1000 : UInt64).toNat = 1000 := rfl
  omega

omit [CharconvDouble D] in
/-- The figures of a report a second after the last one. -/
theorem exactRate_reportOf {s : Server D} {env : ReportEnv} {report : Report}
    (hsecond : 1000 ≤ (env.nowMs - s.counters.lastReportMs).toNat)
    (hreceived : s.counters.statusReceived < 2 ^ 64) (h : reportOf env s = some report) :
    1000 ≤ report.elapsedMs.toNat ∧ report.ExactRate := by
  obtain ⟨hmax, hrate⟩ := exactRate_makeMetrics hsecond hreceived
  rw [reportOf] at h
  split at h
  · exact absurd h (by simp)
  · rw [← Option.some.inj h, Report.ExactRate]
    dsimp only
    rw [hmax, hrate]
    refine ⟨hsecond, ?_, ?_⟩
    · rw [Nat.mul_comm 1000]
      exact Nat.div_mul_le_self _ _
    · rw [Nat.mul_comm 1000, Nat.mul_comm (_ + 1)]
      exact Nat.lt_mul_div_succ _ (by omega)

/-- A call keeps the ties, whether it reports or not. -/
theorem Reported.report {nowMs : UInt64} {steps : List LoopStep} {rs : List Report}
    {s : Server D} (h : Reported nowMs steps rs s) {env : ReportEnv}
    (hclock : MonotoneClock nowMs (steps ++ [.report env])) :
    Reported nowMs (steps ++ [.report env]) (rs ++ (reportOf env s).toList)
      (printMetricsIfDue env s) := by
  have hcalls : callTimes (steps ++ [.report env]) = callTimes steps ++ [env.nowMs] := by
    rw [callTimes_append]
    rfl
  have hlast : s.counters.lastReportMs ≤ env.nowMs := hclock.le h.lastReportMs
  by_cases hdue : env.nowMs - s.counters.lastReportMs < 1000
  · rw [printMetricsIfDue, if_pos hdue, reportOf, if_pos hdue, Option.toList_none, List.append_nil]
    refine { h with lastReportMs := ?_ }
    rw [hcalls, ← List.cons_append]
    exact List.mem_append_left _ h.lastReportMs
  · obtain ⟨hsecond, hapart⟩ := second_of_due hlast hdue
    have hle := h.received
    rw [printMetricsIfDue_of_due hdue, reportOf, if_neg hdue, Option.toList_some]
    refine ⟨h.startMs, ?_, le_rfl, ?_, ?_, ?_, ?_, ?_, ?_⟩
    · rw [hcalls, ← List.cons_append]
      exact List.mem_append_right _ (List.mem_singleton_self _)
    · rw [List.map_append, List.sum_append, h.deltas]
      simp only [List.map_singleton, List.sum_singleton]
      omega
    · dsimp only
      rw [acceptedBetween_append_report, h.between, List.map_append, Nat.sub_self]
      rfl
    · rw [List.filterMap_append, h.printed, List.map_append]
      rfl
    · intro report hreport
      rcases List.mem_append.mp hreport with hreport | hreport
      · exact UInt64.le_trans (h.before report hreport) hlast
      · rw [List.mem_singleton.mp hreport]
        exact UInt64.le_refl _
    · rw [List.pairwise_append]
      refine ⟨h.apart, List.pairwise_singleton _ _, fun a ha b hb => ?_⟩
      rw [List.mem_singleton.mp hb]
      have hbefore := UInt64.le_iff_toNat_le.mp (h.before a ha)
      dsimp only
      omega
    · intro hlt report hreport
      rcases List.mem_append.mp hreport with hreport | hreport
      · exact h.rates hlt report hreport
      · rw [List.mem_singleton.mp hreport]
        exact exactRate_reportOf hsecond hlt (if_neg hdue)

/-- **The reports of a run**, step by step. -/
theorem ServerRun.reported {nowMs : UInt64} {mqttBridge : MqttBridge} {steps : List LoopStep}
    {s : Server D} (h : ServerRun nowMs mqttBridge steps s) (hclock : MonotoneClock nowMs steps) :
    Reported nowMs steps (reports nowMs mqttBridge D steps) s := by
  induction h with
  | nil => exact ⟨rfl, by simp, le_rfl, rfl, rfl, rfl, by simp [reports, outputs],
      by simp [reports, outputs], by simp [reports, outputs]⟩
  | @snoc steps t u step hrun hadm hok ih =>
    have ht := ih hclock.of_append
    have hreports : reports nowMs mqttBridge D (steps ++ [step]) =
        reports nowMs mqttBridge D steps ++ stepReports t step :=
      hrun.outputs_append_singleton stepReports step
    rw [hreports]
    cases step with
    | event event =>
      rw [stepReports, List.append_nil]
      exact ht.event (ServerRun.reachable hrun) (ServerRun.reachable (hrun.snoc hadm hok)) hok
    | report env =>
      rw [loopStep, Except.ok.injEq] at hok
      exact hok ▸ ht.report hclock

/-- **The reports partition the traffic.**  The clock does not go back and there are fewer
than `2 ^ 64` messages.  At every call of `print_metrics_if_due` the subtractions of the
reporting path are exact; the snapshots of the reports are those that were printed, two of
them are a second apart, their figures are the accepted lines between them, so together with
the lines behind the last one they are all accepted lines; and the rates are exact. -/
theorem ServerRun.reports_partition {nowMs : UInt64} {mqttBridge : MqttBridge}
    {steps : List LoopStep} {s : Server D} (h : ServerRun nowMs mqttBridge steps s)
    (hclock : MonotoneClock nowMs steps) (hfew : s.counters.statusReceived < 2 ^ 64) :
    (∀ before env after (u : Server D), steps = before ++ .report env :: after →
      ServerRun nowMs mqttBridge before u →
      u.counters.startMs ≤ env.nowMs ∧ u.counters.lastReportMs ≤ env.nowMs ∧
        u.counters.lastReportStatusReceived ≤ u.counters.statusReceived) ∧
    s.trace.filterMap Obs.snapshot = (reports nowMs mqttBridge D steps).map Report.metrics ∧
    (reports nowMs mqttBridge D steps).Pairwise
      (fun a b => a.currentMs.toNat + 1000 ≤ b.currentMs.toNat) ∧
    ((reports nowMs mqttBridge D steps).map Report.messagesDelta).sum =
      s.counters.lastReportStatusReceived ∧
    acceptedBetween D s.trace = (reports nowMs mqttBridge D steps).map Report.messagesDelta ++
      [s.counters.statusReceived - s.counters.lastReportStatusReceived] ∧
    ∀ report ∈ reports nowMs mqttBridge D steps,
      1000 ≤ report.elapsedMs.toNat ∧ report.ExactRate := by
  have hs := h.reported hclock
  refine ⟨?_, hs.printed, hs.apart, hs.deltas, hs.between, hs.rates hfew⟩
  rintro before env after u rfl hrun
  have hcall : MonotoneClock nowMs (before ++ [.report env]) := by
    refine MonotoneClock.of_append (b := after) ?_
    simpa using hclock
  have hu := hrun.reported hcall.of_append
  refine ⟨?_, hcall.le hu.lastReportMs, hu.received⟩
  rw [hu.startMs]
  exact hcall.le (by simp)

/-- Two lines before the first report and one before the second; a call too early in between
reports nothing. -/
theorem exists_reports_partition :
    ∃ (steps : List LoopStep) (s : Server ℤ), ServerRun 0 ⟨false⟩ steps s ∧
      (reports 0 ⟨false⟩ ℤ steps).map Report.messagesDelta = [2, 1] ∧
      acceptedBetween ℤ s.trace = [2, 1] ++ [0] ∧
      ∀ report ∈ reports 0 ⟨false⟩ ℤ steps, report.ExactRate := by
  let line : Bytes := ascii "STATUS device_id=a state=OK\n"
  let steps : List LoopStep := [.event (.listening [⟨5, none, none⟩] .EAGAIN),
    .event (.client 5 [line, line] (.failed .EAGAIN) fun _ => .roomy 1), .report (.roomy 1500),
    .report (.roomy 1700), .event (.client 5 [line] (.failed .EAGAIN) fun _ => .roomy 2),
    .report (.roomy 2600)]
  obtain ⟨s, hrun, hchecked⟩ := exists_serverRun
    (P := fun s : Server ℤ => s.counters.statusReceived = 3 ∧
      s.counters.lastReportStatusReceived = 3)
    0 ⟨false⟩ steps (by decide +kernel)
  obtain ⟨hthree, hlast⟩ := of_decide_eq_true hchecked
  have hdeltas : (reports 0 ⟨false⟩ ℤ steps).map Report.messagesDelta = [2, 1] := by
    decide +kernel
  have h := hrun.reports_partition (by decide +kernel) (by omega)
  refine ⟨steps, s, hrun, hdeltas, ?_, fun report hreport => (h.2.2.2.2.2 report hreport).2⟩
  rw [h.2.2.2.2.1, hdeltas, hthree, hlast]

end RemoteDeviceConsole
