import RemoteDeviceConsole.Loadgen.MainLoop
import RemoteDeviceConsole.Machine.OrderStatistic
import Mathlib.Algebra.Order.Floor.Semiring
import Mathlib.Data.Rat.Floor

/-!
# Percentiles

`percentile` and the summary that `run_loadgen` prints at its end.  The ratio is an exact
number, and so is the place in the sorted latencies before it is cut.

A place outside the latencies is `none`, as is the summary with it; `percentile_correct` says
that there is none for a ratio between zero and one.
-/

namespace RemoteDeviceConsole
namespace Loadgen

open Machine

/-! ## Computation -/

/-- `raw_index`. -/
def rawIndex (size : ℕ) (ratio : ℚ) : ℕ := ⌊((size - 1 : ℕ) : ℚ) * ratio⌋₊

def percentile (values : List UInt64) (ratio : ℚ) : Option UInt64 :=
  if values = [] then some 0
  else orderStatistic (· ≤ ·) values (rawIndex values.length ratio)

/-- The numbers that `print_summary` prints. -/
structure Summary where
  connections : ℤ
  targetRatePerSec : ℤ
  durationSec : ℤ
  sent : ℕ
  acked : ℕ
  errors : ℕ
  elapsedMs : UInt64
  trafficMs : UInt64
  throughputAckPerSec : ℚ
  latencyMsP50 : UInt64
  latencyMsP95 : UInt64
  latencyMsP99 : UInt64
  deriving DecidableEq

/-- The two last arguments are what `now_ms` returns. -/
def printSummary (options : Options) (startedMs connectedMs : UInt64) (sent : ℕ)
    (latencies : List UInt64) (errors : ℕ) (elapsedNowMs trafficNowMs : UInt64) :
    Option Summary := do
  let elapsedMs := max 1 (elapsedNowMs - startedMs)
  let trafficMs := max 1 (trafficNowMs - connectedMs)
  let latencyMsP50 ← percentile latencies (50 / 100)
  let latencyMsP95 ← percentile latencies (95 / 100)
  let latencyMsP99 ← percentile latencies (99 / 100)
  return {
    connections := options.connections
    targetRatePerSec := options.ratePerSecond
    durationSec := options.durationSeconds
    sent := sent
    acked := latencies.length
    errors := errors
    elapsedMs := elapsedMs
    trafficMs := trafficMs
    throughputAckPerSec := latencies.length * 1000 / trafficMs.toNat
    latencyMsP50 := latencyMsP50
    latencyMsP95 := latencyMsP95
    latencyMsP99 := latencyMsP99 }

/-! ## Ranks -/

instance : Std.Total (α := UInt64) (· ≤ ·) := ⟨UInt64.le_total⟩

instance : IsTrans UInt64 (· ≤ ·) := ⟨fun _ _ _ => UInt64.le_trans⟩

instance : Std.Antisymm (α := UInt64) (· ≤ ·) := ⟨fun _ _ => UInt64.le_antisymm⟩

variable {values : List UInt64} {size : ℕ} {ratio ratio' : ℚ} {v w : UInt64}

theorem rawIndex_mono (h : ratio ≤ ratio') (size : ℕ) :
    rawIndex size ratio ≤ rawIndex size ratio' :=
  Nat.floor_mono (mul_le_mul_of_nonneg_left h (Nat.cast_nonneg _))

/-- The place is in range. -/
theorem rawIndex_lt (hsize : 0 < size) (h1 : ratio ≤ 1) : rawIndex size ratio < size := by
  have hlast : rawIndex size 1 = size - 1 := by rw [rawIndex, mul_one, Nat.floor_natCast]
  have hle := rawIndex_mono h1 size
  omega

theorem percentile_of_ne_nil (h : values ≠ []) (ratio : ℚ) :
    percentile values ratio = orderStatistic (· ≤ ·) values (rawIndex values.length ratio) :=
  if_neg h

theorem exists_percentile (values : List UInt64) (h1 : ratio ≤ 1) :
    ∃ v, percentile values ratio = some v := by
  by_cases h : values = []
  · exact ⟨0, if_pos h⟩
  · rw [percentile_of_ne_nil h]
    exact exists_orderStatistic (rawIndex_lt (List.length_pos_iff.mpr h) h1)

/-- A higher ratio has a higher percentile. -/
theorem percentile_mono (h : ratio ≤ ratio') (hv : percentile values ratio = some v)
    (hw : percentile values ratio' = some w) : v ≤ w := by
  by_cases hnil : values = []
  · rw [percentile, if_pos hnil] at hv hw
    rw [← Option.some.inj hv, ← Option.some.inj hw]
    exact UInt64.le_refl 0
  · rw [percentile_of_ne_nil hnil] at hv hw
    exact orderStatistic_mono (rawIndex_mono h _) hv hw

/-- **A percentile is an order statistic.**  For a ratio between zero and one the place is in
range, the percentile is one of the latencies, it has the ranks of its place, the order of the
latencies does not matter, and a higher ratio has a higher percentile.  So every summary is
printed, and its percentiles are in order. -/
theorem percentile_correct :
    (∀ (values : List UInt64) (ratio : ℚ), values ≠ [] → 0 ≤ ratio → ratio ≤ 1 →
      rawIndex values.length ratio < values.length ∧
      ∃ v, percentile values ratio = some v ∧ v ∈ values ∧
        rawIndex values.length ratio + 1 ≤ values.countP (· ≤ v) ∧
        values.length - rawIndex values.length ratio ≤ values.countP (v ≤ ·) ∧
        (∀ values', values.Perm values' → percentile values' ratio = some v) ∧
        ∀ ratio' w, ratio ≤ ratio' → ratio' ≤ 1 → percentile values ratio' = some w → v ≤ w) ∧
    ∀ options startedMs connectedMs sent latencies errors elapsedNowMs trafficNowMs,
      ∃ summary, printSummary options startedMs connectedMs sent latencies errors elapsedNowMs
          trafficNowMs = some summary ∧
        percentile latencies (50 / 100) = some summary.latencyMsP50 ∧
        percentile latencies (95 / 100) = some summary.latencyMsP95 ∧
        percentile latencies (99 / 100) = some summary.latencyMsP99 ∧
        summary.latencyMsP50 ≤ summary.latencyMsP95 ∧
        summary.latencyMsP95 ≤ summary.latencyMsP99 := by
  constructor
  · intro values ratio hvalues _ h1
    obtain ⟨v, hv⟩ := exists_percentile values h1
    have hrank : orderStatistic (· ≤ ·) values (rawIndex values.length ratio) = some v := by
      rwa [percentile_of_ne_nil hvalues] at hv
    have hbelow := lt_countP_of_orderStatistic hrank
    have habove := length_le_countP_of_orderStatistic hrank
    refine ⟨rawIndex_lt (List.length_pos_iff.mpr hvalues) h1, v, hv, mem_of_orderStatistic hrank,
      hbelow, by omega, ?_, fun ratio' w hratio _ hw => percentile_mono hratio hv hw⟩
    intro values' hperm
    have hvalues' : values' ≠ [] := fun hnil => hvalues (List.perm_nil.mp (hnil ▸ hperm))
    rw [percentile_of_ne_nil hvalues', ← hperm.length_eq, ← orderStatistic_perm hperm]
    exact hrank
  · intro options startedMs connectedMs sent latencies errors elapsedNowMs trafficNowMs
    obtain ⟨p50, h50⟩ := exists_percentile latencies (show (50 / 100 : ℚ) ≤ 1 by norm_num)
    obtain ⟨p95, h95⟩ := exists_percentile latencies (show (95 / 100 : ℚ) ≤ 1 by norm_num)
    obtain ⟨p99, h99⟩ := exists_percentile latencies (show (99 / 100 : ℚ) ≤ 1 by norm_num)
    refine ⟨_, by rw [printSummary, h50, h95, h99]; rfl, h50, h95, h99, ?_, ?_⟩
    · exact percentile_mono (by norm_num) h50 h95
    · exact percentile_mono (by norm_num) h95 h99

/-- Two of four latencies are below the 95th percentile, which is not the greatest one. -/
theorem percentile_correct_four :
    percentile [30, 10, 40, 20] (95 / 100) = some 30 ∧
      3 ≤ [30, 10, 40, 20].countP (fun x : UInt64 => x ≤ 30) ∧
      2 ≤ [30, 10, 40, 20].countP (fun x : UInt64 => 30 ≤ x) ∧
      percentile [10, 20, 30, 40] (95 / 100) = some 30 := by
  have hrank : rawIndex 4 (95 / 100) = 2 := by decide +kernel
  obtain ⟨-, v, hv, -, hbelow, habove, hperm, -⟩ :=
    percentile_correct.1 [30, 10, 40, 20] (95 / 100) (by simp) (by norm_num) (by norm_num)
  have h30 : percentile [30, 10, 40, 20] (95 / 100) = some 30 := by decide +kernel
  obtain rfl : v = 30 := Option.some.inj (hv.symm.trans h30)
  simp only [List.length_cons, List.length_nil, hrank] at hbelow habove
  exact ⟨h30, hbelow, habove, hperm [10, 20, 30, 40] (by decide)⟩

end Loadgen
end RemoteDeviceConsole
