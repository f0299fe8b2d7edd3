import RemoteDeviceConsole.Loadgen.Moves
import RemoteDeviceConsole.Loadgen.ParseOptions
import Mathlib.Tactic.Ring
import Mathlib.Tactic.LinearCombination

/-!
# The rate of the load generator

A tick before the end of the test earns credit for the time since the tick before it, and a
STATUS that goes out costs one.  With a clock that does not go back the ticks before the end
come first and follow one another without a gap, so the credit that was earned is the rate
times the time of the last of them, counted from the connection (`Credited`).

`GenRun.credit_balance` draws the consequences for the number of messages that were sent.

A tick behind the end moves the clock of the loop on and earns nothing.  If a tick before the
end could follow it, the time in between would be lost and the balance with it.  It cannot, and
`Credited` has this as an invariant: as long as the last tick is before the end, it is the last
one that earned.

The difference of two clock readings is one of 64-bit numbers; since the clock does not go back
it is the exact one.
-/

namespace RemoteDeviceConsole
namespace Loadgen

open Framing Machine

/-! ## Clocks -/

/-- The clock readings of the ticks. -/
def tickTimes (steps : List Step) : List UInt64 :=
  steps.filterMap fun
    | .tick _ currentMs => some currentMs
    | _ => none

/-- The clock does not go back, from the connection and from tick to tick. -/
def MonotoneTicks (connectedMs : UInt64) (steps : List Step) : Prop :=
  (connectedMs :: tickTimes steps).Pairwise (· ≤ ·)

instance (connectedMs : UInt64) (steps : List Step) : Decidable (MonotoneTicks connectedMs steps) :=
  inferInstanceAs (Decidable (List.Pairwise _ _))

/-- The last of these readings before the end, or the time of the connection. -/
def lastTickBefore (endMs connectedMs : UInt64) (times : List UInt64) : UInt64 :=
  ((times.filter (· < endMs)).getLast?).getD connectedMs

theorem tickTimes_append (a b : List Step) : tickTimes (a ++ b) = tickTimes a ++ tickTimes b :=
  List.filterMap_append ..

theorem MonotoneTicks.of_append {connectedMs : UInt64} {a b : List Step}
    (h : MonotoneTicks connectedMs (a ++ b)) : MonotoneTicks connectedMs a := by
  rw [MonotoneTicks, tickTimes_append, ← List.cons_append] at h
  exact (List.pairwise_append.mp h).1

theorem MonotoneTicks.le {connectedMs guardMs currentMs : UInt64} {steps : List Step}
    (h : MonotoneTicks connectedMs (steps ++ [.tick guardMs currentMs])) {ms : UInt64}
    (hms : ms ∈ connectedMs :: tickTimes steps) : ms ≤ currentMs := by
  rw [MonotoneTicks, tickTimes_append, ← List.cons_append] at h
  exact (List.pairwise_append.mp h).2.2 ms hms currentMs (by simp [tickTimes])

theorem lastTickBefore_append (endMs connectedMs currentMs : UInt64) (times : List UInt64) :
    lastTickBefore endMs connectedMs (times ++ [currentMs]) =
      if currentMs < endMs then currentMs else lastTickBefore endMs connectedMs times := by
  rw [lastTickBefore, lastTickBefore, List.filter_append]
  by_cases h : currentMs < endMs
  · rw [if_pos h, List.filter_cons_of_pos (by simpa using h)]
    simp
  · rw [if_neg h, List.filter_cons_of_neg (by simpa using h)]
    simp

/-! ## Credit -/

variable {options : Options} {clients : Clients} {errors : ℕ} {connectedMs : UInt64}
  {steps : List Step} {g g' : Loadgen}

/-- What ties the credit to the clock: `t` is the last tick before the end. -/
structure Credited (options : Options) (connectedMs t : UInt64) (g : Loadgen) : Prop where
  nonneg : 0 ≤ g.sendCredit
  balance : g.sendCredit + g.sent =
    options.ratePerSecond * ((t.toNat : ℚ) - connectedMs.toNat) / 1000
  connected : connectedMs ≤ t
  last : t ≤ g.lastTickMs
  beforeEnd : t = connectedMs ∨ t < testEndMs options connectedMs
  current : g.lastTickMs < testEndMs options connectedMs → t = g.lastTickMs

/-- Nothing that the credit is about has changed. -/
theorem Credited.of_eq {t : UInt64} (h : Credited options connectedMs t g)
    (hcredit : g'.sendCredit = g.sendCredit) (hsent : g'.sent = g.sent)
    (hlast : g'.lastTickMs = g.lastTickMs) : Credited options connectedMs t g' where
  nonneg := hcredit ▸ h.nonneg
  balance := by rw [hcredit, hsent, h.balance]
  connected := h.connected
  last := hlast ▸ h.last
  beforeEnd := h.beforeEnd
  current := by rw [hlast]; exact h.current

/-- A message costs one, and there must be one to spend. -/
theorem Credited.sent {t : UInt64} (h : Credited options connectedMs t g)
    (hguard : 1 ≤ g.sendCredit) (hcredit : g'.sendCredit = g.sendCredit - 1)
    (hsent : g'.sent = g.sent + 1) (hlast : g'.lastTickMs = g.lastTickMs) :
    Credited options connectedMs t g' where
  nonneg := by rw [hcredit]; linarith
  balance := by
    rw [hcredit, hsent, ← h.balance]
    push_cast
    ring
  connected := h.connected
  last := hlast ▸ h.last
  beforeEnd := h.beforeEnd
  current := by rw [hlast]; exact h.current

/-- A tick before the end earns the rate for the time since the last tick. -/
theorem Credited.ticked {t : UInt64} (h : Credited options connectedMs t g)
    (hrate : 0 < options.ratePerSecond) {currentMs : UInt64} (hclock : g.lastTickMs ≤ currentMs) :
    Credited options connectedMs
      (if currentMs < testEndMs options connectedMs then currentMs else t)
      (tick options connectedMs currentMs g) := by
  by_cases hend : currentMs < testEndMs options connectedMs
  · rw [if_pos hend]
    -- the tick before was before the end as well, so there is no gap
    have ht : t = g.lastTickMs := h.current (UInt64.lt_of_le_of_lt hclock hend)
    have hdelta : (currentMs - g.lastTickMs).toNat = currentMs.toNat - g.lastTickMs.toNat :=
      UInt64.toNat_sub_of_le _ _ hclock
    have hle : g.lastTickMs.toNat ≤ currentMs.toNat := UInt64.le_iff_toNat_le.mp hclock
    have hcredit : (tick options connectedMs currentMs g).sendCredit =
        g.sendCredit + options.ratePerSecond *
          ((currentMs.toNat : ℚ) - g.lastTickMs.toNat) / 1000 := by
      rw [tick, if_pos hend, hdelta, Nat.cast_sub hle]
    have hearned : (0 : ℚ) ≤ options.ratePerSecond *
        ((currentMs.toNat : ℚ) - g.lastTickMs.toNat) / 1000 := by
      have hpositive : (0 : ℚ) < options.ratePerSecond := by exact_mod_cast hrate
      have htime : (0 : ℚ) ≤ (currentMs.toNat : ℚ) - g.lastTickMs.toNat :=
        sub_nonneg.mpr (by exact_mod_cast hle)
      exact div_nonneg (mul_nonneg hpositive.le htime) (by norm_num)
    refine ⟨?_, ?_, UInt64.le_trans h.connected (ht ▸ hclock), UInt64.le_refl _, .inr hend,
      fun _ => rfl⟩
    · rw [hcredit]
      exact add_nonneg h.nonneg hearned
    · have hbalance := h.balance
      rw [ht] at hbalance
      rw [hcredit, show (tick options connectedMs currentMs g).sent = g.sent from rfl]
      linear_combination hbalance
  · rw [if_neg hend]
    have hcredit : (tick options connectedMs currentMs g).sendCredit = g.sendCredit := by
      rw [tick, if_neg hend]
    exact ⟨hcredit ▸ h.nonneg, hcredit ▸ h.balance, h.connected, UInt64.le_trans h.last hclock,
      h.beforeEnd, fun hlt => absurd hlt hend⟩

theorem credited_start : Credited options connectedMs connectedMs (start clients errors connectedMs)
    where
  nonneg := le_rfl
  balance := by simp [start]
  connected := UInt64.le_refl _
  last := UInt64.le_refl _
  beforeEnd := .inl rfl
  current := fun _ => rfl

/-- **Credit and messages of a run.** -/
theorem GenRun.credited (h : GenRun options clients errors connectedMs steps g)
    (hrate : 0 < options.ratePerSecond) (hclock : MonotoneTicks connectedMs steps) :
    Credited options connectedMs
        (lastTickBefore (testEndMs options connectedMs) connectedMs (tickTimes steps)) g ∧
      g.lastTickMs ∈ connectedMs :: tickTimes steps := by
  obtain ⟨-, hrun⟩ := h
  induction hrun with
  | nil => exact ⟨credited_start, List.mem_cons_self⟩
  | @snoc steps g g' st hrun henabled hok ih =>
    obtain ⟨hcredited, hmem⟩ := ih hclock.of_append
    have hquiet : ∀ more : List Step, tickTimes more = [] →
        tickTimes (steps ++ more) = tickTimes steps := by
      intro more hmore
      rw [tickTimes_append, hmore, List.append_nil]
    cases st with
    | tick guardMs currentMs =>
      have htimes : tickTimes (steps ++ [.tick guardMs currentMs]) =
          tickTimes steps ++ [currentMs] := tickTimes_append _ _
      rw [← Except.ok.inj hok, htimes, lastTickBefore_append]
      refine ⟨hcredited.ticked hrate (hclock.le hmem), ?_⟩
      rw [← List.cons_append]
      exact List.mem_append_right _ (List.mem_singleton_self _)
    | send env =>
      have hguard : 1 ≤ g.sendCredit := (of_decide_eq_true henabled).1
      obtain ⟨goesOn, hround⟩ := exists_sendRound_of_step hok
      have hlast := lastTickMs_of_sendRound hround
      rw [hquiet _ rfl, hlast]
      refine ⟨?_, hmem⟩
      rcases sendRound_cases hround with ⟨-, rfl⟩ | ⟨fd, client, -, -, ⟨-, rfl⟩ | ⟨-, rfl⟩⟩
      · exact hcredited
      · exact hcredited.sent hguard rfl rfl rfl
      · exact hcredited.of_eq rfl rfl rfl
    | event event =>
      obtain ⟨hcredit, hsent, hlast, -⟩ := handleEvent_sending g event
      rw [← Except.ok.inj hok, hquiet _ rfl, hlast]
      exact ⟨hcredited.of_eq hcredit hsent hlast, hmem⟩

/-! ## The rate -/

/-- The sum of the two clocks may wrap, but then the end is earlier. -/
theorem toNat_testEndMs_le (hrange : InRange options) (hduration : 0 < options.durationSeconds) :
    ((testEndMs options connectedMs).toNat : ℤ) ≤
      connectedMs.toNat + options.durationSeconds * 1000 := by
  have hlength := testLengthMs_eq hrange hduration
  have hsum : (testEndMs options connectedMs).toNat =
      (connectedMs.toNat + (testLengthMs options).toNat) % 2 ^ 64 := UInt64.toNat_add _ _
  omega

/-- The ticks before the end come less than the length of the test after the connection. -/
theorem Credited.time_lt {t : UInt64} (h : Credited options connectedMs t g)
    (hrange : InRange options) (hduration : 0 < options.durationSeconds) :
    (t.toNat : ℤ) - connectedMs.toNat < options.durationSeconds * 1000 := by
  rcases h.beforeEnd with rfl | hlt
  · rw [sub_self]
    omega
  · have hend := @toNat_testEndMs_le options connectedMs hrange hduration
    have hnat := UInt64.lt_iff_toNat_lt.mp hlt
    omega

/-- **The rate limit.**  For accepted options and a clock that does not go back: the credit is
never negative, credit and messages together are the rate times the time from the connection to
the last tick before the end, so the messages never exceed the rate times the time that has
passed, and stay below the rate times the duration. -/
theorem GenRun.credit_balance {args : List Bytes} (haccepted : parseOptions args = .ok options)
    (h : GenRun options clients errors connectedMs steps g)
    (hclock : MonotoneTicks connectedMs steps) :
    0 ≤ g.sendCredit ∧
    connectedMs ≤ lastTickBefore (testEndMs options connectedMs) connectedMs (tickTimes steps) ∧
    g.sendCredit + g.sent = options.ratePerSecond *
      (((lastTickBefore (testEndMs options connectedMs) connectedMs (tickTimes steps)).toNat : ℚ) -
        connectedMs.toNat) / 1000 ∧
    (∀ nowMs : UInt64, g.lastTickMs ≤ nowMs →
      (g.sent : ℚ) ≤ options.ratePerSecond * (((nowMs.toNat : ℚ) - connectedMs.toNat) / 1000)) ∧
    (g.sent : ℤ) < options.ratePerSecond * options.durationSeconds := by
  obtain ⟨hrange, -, hrate, hduration⟩ := accepted_of_parseOptions haccepted
  obtain ⟨hcredited, -⟩ := h.credited hrate hclock
  generalize lastTickBefore (testEndMs options connectedMs) connectedMs (tickTimes steps) = t at *
  have hpositive : (0 : ℚ) < options.ratePerSecond := by exact_mod_cast hrate
  have hsent : (g.sent : ℚ) ≤
      options.ratePerSecond * (((t.toNat : ℚ) - connectedMs.toNat) / 1000) := by
    have hbalance := hcredited.balance
    have hnonneg := hcredited.nonneg
    rw [← mul_div_assoc]
    linarith
  refine ⟨hcredited.nonneg, hcredited.connected, hcredited.balance, fun nowMs hnow => ?_, ?_⟩
  · have hle : t.toNat ≤ nowMs.toNat :=
      UInt64.le_iff_toNat_le.mp (UInt64.le_trans hcredited.last hnow)
    have hcast : (t.toNat : ℚ) ≤ nowMs.toNat := by exact_mod_cast hle
    calc (g.sent : ℚ)
        ≤ options.ratePerSecond * (((t.toNat : ℚ) - connectedMs.toNat) / 1000) := hsent
      _ ≤ options.ratePerSecond * (((nowMs.toNat : ℚ) - connectedMs.toNat) / 1000) := by
          gcongr
  · have htime := hcredited.time_lt hrange hduration
    have hseconds : ((t.toNat : ℚ) - connectedMs.toNat) / 1000 < options.durationSeconds := by
      rw [div_lt_iff₀ (by norm_num)]
      exact_mod_cast htime
    have hlt : (g.sent : ℚ) < options.ratePerSecond * options.durationSeconds :=
      hsent.trans_lt (mul_lt_mul_of_pos_left hseconds hpositive)
    exact_mod_cast hlt

/-- One message of a test of a second, half a second after the connection. -/
theorem GenRun.credit_balance_sole :
    ∃ (steps : List Step) (g : Loadgen), GenRun soleOptions soleClients 0 0 steps g ∧
      g.sent = 1 ∧ 0 ≤ g.sendCredit ∧ g.sendCredit + g.sent = 10 * (500 - 0) / 1000 := by
  have haccepted : parseOptions [ascii "--connections", ascii "1", ascii "--rate", ascii "10",
      ascii "--duration", ascii "1"] = .ok soleOptions := rfl
  let steps : List Step := [.tick 0 500, .send ⟨500, .room 1000⟩, .tick 1000 1000]
  obtain ⟨g, hrun, hg⟩ := exists_genRun connected_sole 0 steps
    (P := fun g => g.sent = 1) (by decide +kernel)
  have h := hrun.credit_balance haccepted (by decide +kernel)
  refine ⟨steps, g, hrun, of_decide_eq_true hg, h.1, ?_⟩
  rw [h.2.2.1]
  rfl

end Loadgen
end RemoteDeviceConsole
