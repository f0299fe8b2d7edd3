import Mathlib.Logic.Relation
import Mathlib.Data.List.Basic
import Mathlib.Data.List.Infix
import Mathlib.Tactic.Common

/-!
# Runs of a fallible step function, and logs that runs write

The states, the inputs and the errors are arbitrary types.

* `Run step adm s is t`: from `s` the inputs `is` lead to `t`, every step
  succeeding and every input admissible in the state that takes it.
  `Run.invariant` is the induction over a run, `Run.reflTransGen` reads a run as
  a path of any relation that each step is a path of.  `run_of_foldlM` finds a
  run in a monadic fold.
* `runChecked` computes a run; `exists_run_of_runChecked` turns the computation
  into a proof.
* `StopsAt step s is t i e`: the inputs before `i` lead to `t`, where `i` fails with `e`.
* `outputs step out s is` is what the inputs put out in the states that take them.
* A log is a list that every step of a relation extends by one entry.
  `exists_reachable_of_prefix` says that every prefix of a log was the whole log
  once, so what holds of reachable states holds of every moment of the log.
* A log falls into the parts between some of its entries (`List.splitOnP`);
  `exists_splitOnP_append` says how the last part grows.
* `current opens closes log` is the part of a log after the last entry that opens
  a session, unless the session has been closed since.
-/

namespace RemoteDeviceConsole
namespace Machine

open Relation

variable {σ ι ε o : Type*}

/-! ## Runs -/

/-- A run: inputs taken one after another, each admissible and each successful. -/
inductive Run (step : σ → ι → Except ε σ) (adm : σ → ι → Prop) (s : σ) : List ι → σ → Prop where
  | nil : Run step adm s [] s
  | snoc {is : List ι} {t u : σ} {i : ι} :
      Run step adm s is t → adm t i → step t i = .ok u → Run step adm s (is ++ [i]) u

variable {step : σ → ι → Except ε σ} {adm : σ → ι → Prop} {s t u : σ} {is js : List ι}

/-- **Induction over a run.**  What the first state has and every step preserves,
the last state has. -/
theorem Run.invariant {P : σ → Prop}
    (hstep : ∀ s i t, P s → adm s i → step s i = .ok t → P t)
    (h : Run step adm s is t) (hs : P s) : P t := by
  induction h with
  | nil => exact hs
  | snoc _ hadm hok ih => exact hstep _ _ _ ih hadm hok

/-- A run is a path of every relation that each of its steps is a path of. -/
theorem Run.reflTransGen {R : σ → σ → Prop}
    (hstep : ∀ s i t, adm s i → step s i = .ok t → ReflTransGen R s t)
    (h : Run step adm s is t) : ReflTransGen R s t := by
  induction h with
  | nil => exact ReflTransGen.refl
  | snoc _ hadm hok ih => exact ih.trans (hstep _ _ _ hadm hok)

theorem Run.append (h : Run step adm s is t) (h' : Run step adm t js u) :
    Run step adm s (is ++ js) u := by
  induction h' with
  | nil => simpa using h
  | snoc _ hadm hok ih => rw [← List.append_assoc]; exact ih.snoc hadm hok

theorem Run.single {i : ι} (hadm : adm s i) (hok : step s i = .ok t) :
    Run step adm s [i] t := by
  have hnil : Run step adm s [] s := Run.nil
  simpa using hnil.snoc hadm hok

/-- Every input is admissible in the state that the inputs before it lead to. -/
def Admissible (step : σ → ι → Except ε σ) (adm : σ → ι → Prop) : σ → List ι → Prop
  | _, [] => True
  | s, i :: is => adm s i ∧ ∀ t, step s i = .ok t → Admissible step adm t is

instance decidableAdmissible [∀ s i, Decidable (adm s i)] :
    ∀ (s : σ) (is : List ι), Decidable (Admissible step adm s is)
  | _, [] => isTrue trivial
  | s, i :: is =>
    match h : step s i with
    | .ok t =>
      have := decidableAdmissible t is
      decidable_of_iff (adm s i ∧ Admissible step adm t is) (by simp [Admissible, h])
    | .error _ => decidable_of_iff (adm s i) (by simp [Admissible, h])

theorem Admissible.of_append : ∀ {is js : List ι} {s : σ},
    Admissible step adm s (is ++ js) → Admissible step adm s is
  | [], _, _, _ => trivial
  | _ :: _, _, _, h => ⟨h.1, fun t ht => (h.2 t ht).of_append⟩

theorem admissible_append : ∀ {is js : List ι} {s : σ},
    Admissible step adm s (is ++ js) ↔
      Admissible step adm s is ∧ ∀ t, is.foldlM step s = .ok t → Admissible step adm t js
  | [], js, s => by
    constructor
    · intro h
      refine ⟨trivial, fun t ht => ?_⟩
      have hst : s = t := by simpa [pure, Except.pure] using ht
      exact hst ▸ h
    · exact fun h => h.2 s rfl
  | i :: is, js, s => by
    cases hv : step s i with
    | error e => simp [Admissible, hv, bind, Except.bind]
    | ok v =>
      have ih := @admissible_append is js v
      simp only [List.cons_append, Admissible, hv, Except.ok.injEq, forall_eq', List.foldlM_cons,
        bind, Except.bind, ih, and_assoc]

theorem Run.foldlM_eq (h : Run step adm s is t) : is.foldlM step s = .ok t := by
  induction h with
  | nil => rfl
  | snoc _ _ hok ih =>
    rw [List.foldlM_append, ih]
    simp only [bind, Except.bind, List.foldlM_cons, List.foldlM_nil, hok, pure, Except.pure]

/-- **A count that only some inputs raise** is zero at the end of a run when the run had
none of them, and only then. -/
theorem Run.count_eq_zero_iff {count : σ → ℕ} {quiet : σ → ι → Prop}
    (hstep : ∀ s i t, adm s i → step s i = .ok t →
      count s ≤ count t ∧ (count t = count s ↔ quiet s i))
    (h : Run step adm s is t) (hs : count s = 0) :
    count t = 0 ↔ Admissible step quiet s is := by
  induction h with
  | nil => exact iff_of_true hs trivial
  | @snoc is t u i hrun hadm hok ih =>
    obtain ⟨hle, hquiet⟩ := hstep t i u hadm hok
    have hcount : count u = 0 ↔ count t = 0 ∧ count u = count t := by omega
    rw [hcount, ih, hquiet, admissible_append]
    refine and_congr_right fun _ => ?_
    simp [hrun.foldlM_eq, Admissible]

/-- A fold of the step function over admissible inputs is a run. -/
theorem run_of_foldlM : ∀ {is : List ι} {s t : σ},
    is.foldlM step s = .ok t → Admissible step adm s is → Run step adm s is t
  | [], s, t, h, _ => by
    have hst : s = t := by simpa [pure, Except.pure] using h
    rw [hst]
    exact Run.nil
  | i :: is, s, t, h, ha => by
    rw [List.foldlM_cons] at h
    cases hv : step s i with
    | error e => rw [hv] at h; exact absurd h (by simp [bind, Except.bind])
    | ok v =>
      rw [hv] at h
      simpa using (Run.single ha.1 hv).append (run_of_foldlM h (ha.2 v hv))

/-- Run the inputs, checking each before it is taken. -/
def runChecked (step : σ → ι → Except ε σ) (check : σ → ι → Bool) : σ → List ι → Option σ
  | s, [] => some s
  | s, i :: is =>
      if check s i then
        match step s i with
        | .ok t => runChecked step check t is
        | .error _ => none
      else none

theorem run_of_runChecked {check : σ → ι → Bool} (hcheck : ∀ s i, check s i = true → adm s i) :
    ∀ {is : List ι} {s t : σ}, runChecked step check s is = some t → Run step adm s is t
  | [], s, t, h => by
    rw [runChecked, Option.some.injEq] at h
    rw [h]
    exact Run.nil
  | i :: is, s, t, h => by
    rw [runChecked] at h
    split at h
    · next hc =>
      split at h
      · next v hv =>
        simpa using (Run.single (hcheck s i hc) hv).append (run_of_runChecked hcheck h)
      · exact absurd h (by simp)
    · exact absurd h (by simp)

/-- A computed run that ends in a state with a checked property. -/
theorem exists_run_of_runChecked {check : σ → ι → Bool}
    (hcheck : ∀ s i, check s i = true → adm s i) {P : σ → Bool}
    (h : (runChecked step check s is).any P = true) : ∃ t, Run step adm s is t ∧ P t = true := by
  cases hr : runChecked step check s is with
  | none => rw [hr] at h; exact absurd h (by simp)
  | some t =>
    rw [hr] at h
    exact ⟨t, run_of_runChecked hcheck hr, by simpa using h⟩

/-! ## Where a run stops -/

/-- The first inputs lead from `s` to `t`, and the next one, `i`, fails there. -/
def StopsAt (step : σ → ι → Except ε σ) (s : σ) (is : List ι) (t : σ) (i : ι) (e : ε) : Prop :=
  ∃ before after, is = before ++ i :: after ∧ before.foldlM step s = .ok t ∧ step t i = .error e

theorem stopsAt_head {i : ι} {e : ε} (h : step s i = .error e) (is : List ι) :
    StopsAt step s (i :: is) s i e :=
  ⟨[], is, rfl, rfl, h⟩

theorem StopsAt.cons {i j : ι} {e : ε} (h : StopsAt step t is u j e) (hok : step s i = .ok t) :
    StopsAt step s (i :: is) u j e := by
  obtain ⟨before, after, rfl, hbefore, hfails⟩ := h
  refine ⟨i :: before, after, rfl, ?_, hfails⟩
  rw [List.foldlM_cons, hok]
  exact hbefore

/-! ## Outputs -/

/-- What the inputs put out, each in the state that takes it. -/
def outputs (step : σ → ι → Except ε σ) (out : σ → ι → List o) : σ → List ι → List o
  | _, [] => []
  | s, i :: is =>
      out s i ++ match step s i with
        | .ok t => outputs step out t is
        | .error _ => []

/-- The last input of a run puts out in the state that the run led to. -/
theorem Run.outputs_append_singleton (out : σ → ι → List o) (h : Run step adm s is t) (i : ι) :
    outputs step out s (is ++ [i]) = outputs step out s is ++ out t i := by
  have hfold := h.foldlM_eq
  clear h
  induction is generalizing s with
  | nil =>
    have hst : s = t := by simpa [pure, Except.pure] using hfold
    rw [List.nil_append, outputs, outputs, hst, List.nil_append]
    cases step t i with
    | ok u => simp [outputs]
    | error e => simp
  | cons j is ih =>
    rw [List.foldlM_cons] at hfold
    cases hj : step s j with
    | error e => rw [hj] at hfold; exact absurd hfold (by simp [bind, Except.bind])
    | ok u =>
      rw [hj] at hfold
      simp only [List.cons_append, outputs, hj, ih hfold, List.append_assoc]

/-! ## Logs -/

/-- **Every moment of a log was a state.**  If each step writes one entry, every
prefix of the final log is the whole log of some state on the way. -/
theorem exists_reachable_of_prefix {R : σ → σ → Prop} {log : σ → List o}
    (happ : ∀ s t, R s t → ∃ x, log t = log s ++ [x]) (h : ReflTransGen R s t)
    {pre : List o} (hs : log s <+: pre) (ht : pre <+: log t) :
    ∃ u, ReflTransGen R s u ∧ ReflTransGen R u t ∧ log u = pre := by
  induction h with
  | refl => exact ⟨s, .refl, .refl, hs.eq_of_length (hs.length_le.antisymm ht.length_le)⟩
  | @tail v w hsv hvw ih =>
    obtain ⟨x, hx⟩ := happ v w hvw
    rw [hx, List.prefix_concat_iff] at ht
    rcases ht with hw | hv
    · exact ⟨w, hsv.tail hvw, .refl, by rw [hx, hw]⟩
    · obtain ⟨u, hsu, huv, hu⟩ := ih hv
      exact ⟨u, hsu, huv.tail hvw, hu⟩

/-- Entries at which a log is not cut belong to its last part. -/
theorem exists_splitOnP_append {p : o → Bool} (log : List o) {entries : List o}
    (h : ∀ x ∈ entries, p x = false) :
    ∃ parts last, log.splitOnP p = parts ++ [last] ∧
      (log ++ entries).splitOnP p = parts ++ [last ++ entries] := by
  induction log with
  | nil => exact ⟨[], [], rfl, List.splitOnP_eq_singleton h⟩
  | cons x log ih =>
    obtain ⟨parts, last, hlog, hall⟩ := ih
    rw [List.cons_append, List.splitOnP_cons_eq_if_modifyHead,
      List.splitOnP_cons_eq_if_modifyHead, hlog, hall]
    cases p x with
    | true => exact ⟨[] :: parts, last, rfl, rfl⟩
    | false =>
      cases parts with
      | nil => exact ⟨[], x :: last, rfl, rfl⟩
      | cons part parts => exact ⟨(x :: part) :: parts, last, rfl, rfl⟩

/-! ## Sessions of a log -/

/-- One entry of the log, for the session that may be open. -/
def track (opens closes : o → Bool) (acc : Option (List o)) (x : o) : Option (List o) :=
  if opens x then some []
  else if closes x then none
  else acc.map (· ++ [x])

/-- The entries of the session that is open at the end of the log. -/
def current (opens closes : o → Bool) (log : List o) : Option (List o) :=
  log.foldl (track opens closes) none

variable {opens closes : o → Bool}

@[simp] theorem current_nil : current opens closes [] = none := rfl

@[simp] theorem current_append_singleton (log : List o) (x : o) :
    current opens closes (log ++ [x]) = track opens closes (current opens closes log) x := by
  simp [current]

/-- The last entry of a list is the entry it was split at, or ends the rest. -/
theorem append_singleton_eq_append_cons {log pre obs : List o} {x y : o} :
    log ++ [x] = pre ++ y :: obs ↔
      (obs = [] ∧ y = x ∧ pre = log) ∨ ∃ obs', obs = obs' ++ [x] ∧ log = pre ++ y :: obs' := by
  constructor
  · intro h
    rcases obs.eq_nil_or_concat' with rfl | ⟨obs, z, rfl⟩
    · obtain ⟨hlog, hx⟩ := List.append_inj' h rfl
      exact Or.inl ⟨rfl, (List.cons.inj hx).1.symm, hlog.symm⟩
    · rw [← List.cons_append, ← List.append_assoc] at h
      obtain ⟨hlog, hx⟩ := List.append_inj' h rfl
      exact Or.inr ⟨obs, by rw [(List.cons.inj hx).1], hlog⟩
  · rintro (⟨rfl, rfl, rfl⟩ | ⟨obs', rfl, rfl⟩)
    · rfl
    · simp

/-- **What the current session is**: the log ends in an opening entry followed by
entries that neither open nor close. -/
theorem current_eq_some_iff {log obs : List o} :
    current opens closes log = some obs ↔
      ∃ pre x, log = pre ++ x :: obs ∧ opens x = true ∧
        ∀ y ∈ obs, opens y = false ∧ closes y = false := by
  induction log using List.reverseRecOn generalizing obs with
  | nil => simp
  | append_singleton log x ih =>
    simp only [current_append_singleton, append_singleton_eq_append_cons, track]
    cases ho : opens x with
    | true =>
      -- an opening entry starts afresh, and cannot lie inside a session
      rw [if_pos rfl, Option.some.injEq]
      constructor
      · rintro rfl
        exact ⟨log, x, Or.inl ⟨rfl, rfl, rfl⟩, ho, by simp⟩
      · rintro ⟨pre, y, ⟨rfl, -, -⟩ | ⟨obs', rfl, -⟩, -, hobs⟩
        · rfl
        · exact absurd (hobs x (by simp)).1 (by simp [ho])
    | false =>
      rw [if_neg Bool.false_ne_true]
      cases hc : closes x with
      | true =>
        rw [if_pos rfl]
        constructor
        · intro h; exact absurd h (by simp)
        · rintro ⟨pre, y, ⟨-, rfl, -⟩ | ⟨obs', rfl, -⟩, hy, hobs⟩
          · exact absurd hy (by simp [ho])
          · exact absurd (hobs x (by simp)).2 (by simp [hc])
      | false =>
        rw [if_neg Bool.false_ne_true, Option.map_eq_some_iff]
        constructor
        · rintro ⟨obs', hobs', rfl⟩
          obtain ⟨pre, y, hlog, hy, hall⟩ := ih.mp hobs'
          refine ⟨pre, y, Or.inr ⟨obs', rfl, hlog⟩, hy, fun z hz => ?_⟩
          rcases List.mem_append.mp hz with hz | hz
          · exact hall z hz
          · rw [List.mem_singleton.mp hz]
            exact ⟨ho, hc⟩
        · rintro ⟨pre, y, ⟨-, rfl, -⟩ | ⟨obs', rfl, hlog⟩, hy, hobs⟩
          · exact absurd hy (by simp [ho])
          · exact ⟨obs', ih.mpr ⟨pre, y, hlog, hy, fun z hz => hobs z (by simp [hz])⟩, rfl⟩

end Machine
end RemoteDeviceConsole
