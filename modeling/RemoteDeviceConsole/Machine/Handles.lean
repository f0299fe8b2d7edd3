import Mathlib.Data.Finset.Basic
import Mathlib.Data.Finset.Lattice.Lemmas
import Mathlib.Tactic.Common

/-!
# Handles that a program makes and gives up

Handles of any type: descriptors, memory, sessions of a library.  A program is the list of the
calls that make a handle or give one up, and a result, `Traced`; it is a monad with exceptions,
and `withLocal` is the scope of an object that has a destructor.

* `FreshOpens` is what the system promises: it hands out no handle that is held.  `HeldCloses` is
  what the program owes: it gives up only what is held, so nothing twice.
* `Turns ops before after` says that calls turn the handles `before` into `after`, whatever else
  is held.  `Traced.Holds` is the triple for programs, with a postcondition for both ways to end.
  The frame is in both definitions, so the frame rule holds for every program.
* `Owning own held` says that every held handle has one owner; it survives that an owner of nothing
  acquires a handle, that one gives its handle up, and that one takes the handle of another.
* `Traced.Holds.bind`, `foldlM` and `withLocal` are the rules for sequences, loops and scopes.
* `count_closed` turns the two properties of a list of calls into a count: a handle is given up as
  often as it is made, less one when it is still held.
-/

namespace RemoteDeviceConsole
namespace Machine

/-! ## Calls -/

/-- A call that makes a handle, or one that gives it up. -/
inductive HandleOp (H : Type*) where
  | opened (h : H)
  | closed (h : H)
  deriving DecidableEq

variable {H : Type*} [DecidableEq H]

/-- The handles that are held after a call. -/
def HandleOp.apply (held : Finset H) : HandleOp H → Finset H
  | .opened h => insert h held
  | .closed h => held.erase h

/-- The call makes no handle that is held. -/
def HandleOp.Fresh (held : Finset H) : HandleOp H → Prop
  | .opened h => h ∉ held
  | .closed _ => True

/-- The call gives up only a handle that is held. -/
def HandleOp.Owned (held : Finset H) : HandleOp H → Prop
  | .opened _ => True
  | .closed h => h ∈ held

instance (held : Finset H) (op : HandleOp H) : Decidable (op.Fresh held) :=
  match op with
  | .opened h => inferInstanceAs (Decidable (h ∉ held))
  | .closed _ => isTrue trivial

/-- The handles that are held after some calls. -/
def heldAfter (held : Finset H) (ops : List (HandleOp H)) : Finset H :=
  ops.foldl HandleOp.apply held

/-- Every call has the property, of the handles that are held when it is made. -/
def Along (P : HandleOp H → Finset H → Prop) : Finset H → List (HandleOp H) → Prop
  | _, [] => True
  | held, op :: ops => P op held ∧ Along P (op.apply held) ops

/-- Every call makes only handles that are not held. -/
abbrev FreshOpens : Finset H → List (HandleOp H) → Prop := Along fun op held => op.Fresh held

/-- Every call gives up only handles that are held. -/
abbrev HeldCloses : Finset H → List (HandleOp H) → Prop := Along fun op held => op.Owned held

instance decidableFreshOpens : ∀ (held : Finset H) (ops : List (HandleOp H)),
    Decidable (FreshOpens held ops)
  | _, [] => isTrue trivial
  | held, op :: ops =>
    have := decidableFreshOpens (op.apply held) ops
    inferInstanceAs (Decidable (op.Fresh held ∧ FreshOpens (op.apply held) ops))

variable {held before after a b c d : Finset H} {ops ops' : List (HandleOp H)} {h : H}

@[simp] theorem heldAfter_append :
    heldAfter held (ops ++ ops') = heldAfter (heldAfter held ops) ops' :=
  List.foldl_append

@[simp] theorem heldAfter_append_closed :
    heldAfter held (ops ++ [.closed h]) = (heldAfter held ops).erase h :=
  heldAfter_append

theorem along_append {P : HandleOp H → Finset H → Prop} :
    Along P held (ops ++ ops') ↔ Along P held ops ∧ Along P (heldAfter held ops) ops' := by
  induction ops generalizing held with
  | nil => exact ⟨fun h => ⟨trivial, h⟩, fun h => h.2⟩
  | cons op ops ih =>
    show P op held ∧ Along P (op.apply held) (ops ++ ops') ↔
      (P op held ∧ Along P (op.apply held) ops) ∧ Along P (heldAfter (op.apply held) ops) ops'
    rw [ih, and_assoc]

/-- **Given up as often as made**, but for what is held before and after. -/
theorem count_closed (hfresh : FreshOpens held ops) (hcloses : HeldCloses held ops) (h : H) :
    ops.count (.closed h) + (if h ∈ heldAfter held ops then 1 else 0) =
      ops.count (.opened h) + if h ∈ held then 1 else 0 := by
  induction ops generalizing held with
  | nil => rfl
  | cons op ops ih =>
    have hrest := ih hfresh.2 hcloses.2
    show (op :: ops).count (.closed h) + (if h ∈ heldAfter (op.apply held) ops then 1 else 0) = _
    cases op with
    | opened h' =>
      have hnew : h' ∉ held := hfresh.1
      rw [List.count_cons_of_ne (by simp), hrest]
      by_cases hh : h' = h
      · subst hh
        simp [HandleOp.apply, hnew]
      · have hne : h ≠ h' := fun heq => hh heq.symm
        simp [HandleOp.apply, hh, hne]
    | closed h' =>
      have howned : h' ∈ held := hcloses.1
      have hopened : (HandleOp.closed h' :: ops).count (.opened h) = ops.count (.opened h) :=
        List.count_cons_of_ne (by simp)
      rw [hopened]
      by_cases hh : h' = h
      · subst hh
        rw [if_neg (show h' ∉ (HandleOp.closed h').apply held from Finset.notMem_erase h' held)]
          at hrest
        rw [List.count_cons_self, if_pos howned]
        omega
      · have hne : h ≠ h' := fun heq => hh heq.symm
        simpa [HandleOp.apply, List.count_cons, hh, hne] using hrest

/-! ## What calls turn into what -/

/-- Whatever else is held: when the handles that are made are new, the calls give up only what is
held, and turn the handles `before` into `after`. -/
def Turns (ops : List (HandleOp H)) (before after : Finset H) : Prop :=
  ∀ frame, Disjoint frame before → FreshOpens (frame ∪ before) ops →
    HeldCloses (frame ∪ before) ops ∧ heldAfter (frame ∪ before) ops = frame ∪ after ∧
      Disjoint frame after

theorem turns_nil (a : Finset H) : Turns [] a a := fun _ hdisjoint _ => ⟨trivial, rfl, hdisjoint⟩

theorem turns_opened (h : H) : Turns [.opened h] ∅ {h} := by
  intro frame _ hfresh
  have hnew : h ∉ frame := (Finset.union_empty frame) ▸ hfresh.1
  refine ⟨⟨trivial, trivial⟩, ?_, Finset.disjoint_singleton_right.mpr hnew⟩
  show insert h (frame ∪ ∅) = _
  rw [Finset.union_empty, Finset.union_singleton]

theorem turns_closed (h : H) : Turns [.closed h] {h} ∅ := by
  intro frame hdisjoint _
  have hnew : h ∉ frame := Finset.disjoint_singleton_right.mp hdisjoint
  refine ⟨⟨?_, trivial⟩, ?_, Finset.disjoint_empty_right _⟩
  · show h ∈ frame ∪ {h}
    simp
  · show (frame ∪ {h}).erase h = _
    rw [Finset.union_empty, Finset.union_singleton, Finset.erase_insert hnew]

theorem Turns.append (h : Turns ops a b) (h' : Turns ops' b c) : Turns (ops ++ ops') a c := by
  intro frame hdisjoint hfresh
  obtain ⟨hfirst, hrest⟩ := along_append.mp hfresh
  obtain ⟨hcloses, hheld, hdisjoint'⟩ := h frame hdisjoint hfirst
  rw [hheld] at hrest
  obtain ⟨hcloses', hheld', hlast⟩ := h' frame hdisjoint' hrest
  refine ⟨along_append.mpr ⟨hcloses, hheld.symm ▸ hcloses'⟩, ?_, hlast⟩
  rw [heldAfter_append, hheld, hheld']

/-- Calls beside which other handles are held, and then calls on those. -/
theorem Turns.append_beside (h : Turns ops a b) (h' : Turns ops' c d) (hdisjoint : Disjoint a c) :
    Turns (ops ++ ops') (a ∪ c) (b ∪ d) := by
  intro frame hframe hfresh
  rw [Finset.disjoint_union_right] at hframe
  obtain ⟨hfirst, hrest⟩ := along_append.mp hfresh
  rw [Finset.union_comm a c, ← Finset.union_assoc] at hfirst hrest ⊢
  obtain ⟨hcloses, hheld, hbeside⟩ := h (frame ∪ c)
    (Finset.disjoint_union_left.mpr ⟨hframe.1, hdisjoint.symm⟩) hfirst
  rw [Finset.disjoint_union_left] at hbeside
  rw [hheld, Finset.union_right_comm] at hrest
  obtain ⟨hcloses', hheld', hlast⟩ := h' (frame ∪ b)
    (Finset.disjoint_union_left.mpr ⟨hframe.2, hbeside.2.symm⟩) hrest
  rw [Finset.disjoint_union_left] at hlast
  refine ⟨along_append.mpr ⟨hcloses, ?_⟩, ?_, Finset.disjoint_union_right.mpr ⟨hbeside.1, hlast.1⟩⟩
  · rwa [hheld, Finset.union_right_comm]
  · rw [heldAfter_append, hheld, Finset.union_right_comm, hheld', Finset.union_assoc]

/-- **The frame rule.** -/
theorem Turns.frame (h : Turns ops a b) (hdisjoint : Disjoint a c) : Turns ops (a ∪ c) (b ∪ c) := by
  simpa using h.append_beside (turns_nil c) hdisjoint

/-- A new handle, beside those that are held. -/
theorem turns_opened_insert (h : H) (a : Finset H) : Turns [.opened h] a (insert h a) := by
  have hframe := (turns_opened h).frame (Finset.disjoint_empty_left a)
  rwa [Finset.empty_union, Finset.singleton_union] at hframe

/-- A handle among those that are held. -/
theorem turns_closed_erase (hmem : h ∈ a) : Turns [.closed h] a (a.erase h) := by
  have hframe := (turns_closed h).frame
    (Finset.disjoint_singleton_left.mpr (Finset.notMem_erase h a))
  rwa [Finset.singleton_union, Finset.insert_erase hmem, Finset.empty_union] at hframe

/-- Every handle of a list. -/
theorem turns_closed_all {hs : List H} (hnodup : hs.Nodup) :
    Turns (hs.map .closed) hs.toFinset ∅ := by
  induction hs with
  | nil => exact turns_nil ∅
  | cons h hs ih =>
    rw [List.nodup_cons] at hnodup
    have hrest : (h :: hs).toFinset.erase h = hs.toFinset := by
      rw [List.toFinset_cons, Finset.erase_insert (by simpa using hnodup.1)]
    have hfirst : Turns [.closed h] (h :: hs).toFinset ((h :: hs).toFinset.erase h) :=
      turns_closed_erase (by simp)
    rw [hrest] at hfirst
    exact hfirst.append (ih hnodup.2)

/-! ## Owners -/

section Owners

variable {V : Type*} [DecidableEq V] {own : V → Option H} {v w : V}

/-- Every held handle has one owner. -/
structure Owning (own : V → Option H) (held : Finset H) : Prop where
  unique : ∀ v w h, own v = some h → own w = some h → v = w
  mem_iff : ∀ h, h ∈ held ↔ ∃ v, own v = some h

omit [DecidableEq H] [DecidableEq V] in
theorem owning_none : Owning (fun _ : V => none) (∅ : Finset H) :=
  ⟨fun _ _ _ h => absurd h (by simp), fun h => by simp⟩

/-- An owner of nothing gets a new handle. -/
theorem Owning.acquire (hown : Owning own held) (hv : own v = none) (hnew : h ∉ held) :
    Owning (Function.update own v (some h)) (insert h held) := by
  have hfree : ∀ w, own w ≠ some h := fun w hw => hnew ((hown.mem_iff h).mpr ⟨w, hw⟩)
  constructor
  · intro w w' x hw hw'
    rw [Function.update_apply] at hw hw'
    split at hw <;> split at hw'
    · next h1 h2 => rw [h1, h2]
    · rw [← Option.some.inj hw] at hw'
      exact absurd hw' (hfree w')
    · rw [← Option.some.inj hw'] at hw
      exact absurd hw (hfree w)
    · exact hown.unique w w' x hw hw'
  · intro x
    rw [Finset.mem_insert, hown.mem_iff]
    constructor
    · rintro (rfl | ⟨w, hw⟩)
      · exact ⟨v, Function.update_self v _ own⟩
      · have hne : w ≠ v := by
          rintro rfl
          rw [hv] at hw
          exact absurd hw (by simp)
        exact ⟨w, by rwa [Function.update_of_ne hne]⟩
    · rintro ⟨w, hw⟩
      rw [Function.update_apply] at hw
      split at hw
      · exact .inl (Option.some.inj hw).symm
      · exact .inr ⟨w, hw⟩

/-- An owner gives up its handle. -/
theorem Owning.release (hown : Owning own held) (hv : own v = some h) :
    Owning (Function.update own v none) (held.erase h) := by
  constructor
  · intro w w' x hw hw'
    rw [Function.update_apply] at hw hw'
    split at hw <;> split at hw'
    · exact absurd hw (by simp)
    · exact absurd hw (by simp)
    · exact absurd hw' (by simp)
    · exact hown.unique w w' x hw hw'
  · intro x
    rw [Finset.mem_erase, hown.mem_iff]
    constructor
    · rintro ⟨hne, w, hw⟩
      have hwv : w ≠ v := by
        rintro rfl
        exact hne (Option.some.inj (hw.symm.trans hv))
      exact ⟨w, by rwa [Function.update_of_ne hwv]⟩
    · rintro ⟨w, hw⟩
      rw [Function.update_apply] at hw
      split at hw
      · exact absurd hw (by simp)
      · next hwv =>
        exact ⟨fun heq => hwv (hown.unique w v h (heq ▸ hw) hv), w, hw⟩

/-- An owner of nothing takes what another has. -/
theorem Owning.transfer (hown : Owning own held) (hv : own v = none) (w : V) :
    Owning (Function.update (Function.update own w none) v (own w)) held := by
  cases hw : own w with
  | none =>
    have hsame : Function.update (Function.update own w none) v none = own := by
      rw [← hw, Function.update_eq_self, hw, ← hv, Function.update_eq_self]
    rwa [hsame]
  | some h =>
    have hheld : h ∈ held := (hown.mem_iff h).mpr ⟨w, hw⟩
    have hne : v ≠ w := by
      rintro rfl
      rw [hv] at hw
      exact absurd hw (by simp)
    have hnext := (hown.release hw).acquire (v := v) (by rwa [Function.update_of_ne hne])
      (Finset.notMem_erase h held)
    rwa [Finset.insert_erase hheld] at hnext

end Owners

/-! ## Programs -/

universe v

variable {E : Type*} {A B O : Type v}

/-- The calls of a program, and how it ends. -/
@[ext]
structure Traced (H E : Type*) (A : Type v) where
  ops : List (HandleOp H)
  result : Except E A

/-- What holds of the result and of what is held, for each way to end. -/
def Ends (ok : A → Finset H → Prop) (error : E → Finset H → Prop) :
    Except E A → Finset H → Prop
  | .ok x, held => ok x held
  | .error e, held => error e held

namespace Traced

instance : Monad (Traced H E) where
  pure x := ⟨[], .ok x⟩
  bind p f :=
    match p.result with
    | .error e => ⟨p.ops, .error e⟩
    | .ok x => ⟨p.ops ++ (f x).ops, (f x).result⟩

/-- A call that makes no handle and gives none up. -/
def lift (result : Except E A) : Traced H E A := ⟨[], result⟩

/-- A program whose exceptions are made into others. -/
def mapError {E' : Type*} (f : E → E') (p : Traced H E A) : Traced H E' A :=
  ⟨p.ops, p.result.mapError f⟩

/-- Calls that do not fail. -/
def calls (ops : List (HandleOp H)) : Traced H E Unit := ⟨ops, .ok ()⟩

/-- The scope of a local object.  However the body ends, the object is destroyed: as the body
leaves it, or as it was when the body throws. -/
def withLocal (destroy : O → List (HandleOp H)) (object : O) (body : Traced H E (A × O)) :
    Traced H E A :=
  match body.result with
  | .error e => ⟨body.ops ++ destroy object, .error e⟩
  | .ok (x, object) => ⟨body.ops ++ destroy object, .ok x⟩

omit [DecidableEq H] in
/-- The calls do not matter to the result. -/
theorem result_bind (p : Traced H E A) (f : A → Traced H E B) :
    (p >>= f).result = p.result >>= fun x => (f x).result := by
  obtain ⟨ops, result⟩ := p
  cases result <;> rfl

omit [DecidableEq H] in
theorem ops_bind (p : Traced H E A) (f : A → Traced H E B) :
    (p >>= f).ops = p.ops ++ match p.result with
      | .ok x => (f x).ops
      | .error _ => [] := by
  obtain ⟨ops, result⟩ := p
  cases result with
  | ok x => rfl
  | error e => exact (List.append_nil ops).symm

omit [DecidableEq H] in
theorem bind_assoc (p : Traced H E A) (f : A → Traced H E B) (g : B → Traced H E O) :
    p >>= f >>= g = p >>= fun x => f x >>= g := by
  ext1
  · rw [ops_bind, ops_bind, ops_bind, result_bind]
    cases p.result with
    | error e => exact List.append_nil _
    | ok x =>
      show p.ops ++ (f x).ops ++ _ = p.ops ++ (f x >>= g).ops
      rw [ops_bind, List.append_assoc]
      rfl
  · rw [result_bind, result_bind, result_bind]
    cases p.result with
    | error e => rfl
    | ok x => exact (result_bind (f x) g).symm

instance : LawfulMonad (Traced H E) := by
  refine .mk' _ (fun p => ?_) (fun x f => rfl) bind_assoc
  obtain ⟨ops, result⟩ := p
  cases result with
  | error e => rfl
  | ok x => exact congrArg (Traced.mk · _) (List.append_nil ops)

omit [DecidableEq H] in
theorem result_foldlM {body : B → A → Traced H E B} (xs : List A) (y : B) :
    (xs.foldlM body y).result = xs.foldlM (fun y x => (body y x).result) y := by
  induction xs generalizing y with
  | nil => rfl
  | cons x xs ih =>
    rw [List.foldlM_cons, List.foldlM_cons, result_bind]
    exact congrArg _ (funext ih)

/-- Whatever else is held: when the handles that are made are new, the program gives up only what is
held, and turns the handles `before` into handles that `ok` allows when it returns, and `error` when
it throws. -/
def Holds (p : Traced H E A) (before : Finset H) (ok : A → Finset H → Prop)
    (error : E → Finset H → Prop) : Prop :=
  ∀ frame, Disjoint frame before → FreshOpens (frame ∪ before) p.ops →
    HeldCloses (frame ∪ before) p.ops ∧ ∃ held, heldAfter (frame ∪ before) p.ops = frame ∪ held ∧
      Disjoint frame held ∧ Ends ok error p.result held

variable {p : Traced H E A} {f : A → Traced H E B} {ok ok' : A → Finset H → Prop}
  {okB : B → Finset H → Prop} {error error' : E → Finset H → Prop}

/-- The calls are known. -/
theorem Holds.of_turns (hturns : Turns p.ops before after) (h : Ends ok error p.result after) :
    p.Holds before ok error := by
  intro frame hdisjoint hfresh
  obtain ⟨hcloses, hheld, hbeside⟩ := hturns frame hdisjoint hfresh
  exact ⟨hcloses, after, hheld, hbeside, h⟩

theorem Holds.mono (h : p.Holds before ok error) (hok : ∀ x held, ok x held → ok' x held)
    (herror : ∀ e held, error e held → error' e held) : p.Holds before ok' error' := by
  intro frame hdisjoint hfresh
  obtain ⟨hcloses, held, hheld, hbeside, hends⟩ := h frame hdisjoint hfresh
  refine ⟨hcloses, held, hheld, hbeside, ?_⟩
  cases hresult : p.result with
  | ok x => exact hok x held (by rwa [hresult] at hends)
  | error e => exact herror e held (by rwa [hresult] at hends)

theorem Holds.mapError {E' : Type*} {g : E → E'} {error' : E' → Finset H → Prop}
    (h : p.Holds before ok error) (herror : ∀ e held, error e held → error' (g e) held) :
    (p.mapError g).Holds before ok error' := by
  intro frame hdisjoint hfresh
  obtain ⟨hcloses, held, hheld, hbeside, hends⟩ := h frame hdisjoint hfresh
  refine ⟨hcloses, held, hheld, hbeside, ?_⟩
  obtain ⟨ops, result⟩ := p
  cases result with
  | ok x => exact hends
  | error e => exact herror e held hends

theorem holds_pure {x : A} (h : ok x before) : (pure x : Traced H E A).Holds before ok error :=
  .of_turns (turns_nil before) h

theorem holds_lift {result : Except E A} (h : Ends ok error result before) :
    (lift result : Traced H E A).Holds before ok error :=
  .of_turns (turns_nil before) h

/-- A call that makes no handle and gives none up, and what comes behind it when it succeeds. -/
theorem holds_lift_bind {result : Except E A} (hok : ∀ x, (f x).Holds before okB error)
    (herror : ∀ e, result = .error e → error e before) :
    ((lift result : Traced H E A) >>= f).Holds before okB error := by
  cases result with
  | error e => exact .of_turns (turns_nil before) (herror e rfl)
  | ok x => exact hok x

/-- The result is the result. -/
theorem Holds.with_result (h : p.Holds before ok error) :
    p.Holds before (fun x held => p.result = .ok x ∧ ok x held) error := by
  intro frame hdisjoint hfresh
  obtain ⟨hcloses, held, hheld, hbeside, hends⟩ := h frame hdisjoint hfresh
  refine ⟨hcloses, held, hheld, hbeside, ?_⟩
  cases hresult : p.result with
  | ok x =>
    rw [hresult] at hends
    exact ⟨rfl, hends⟩
  | error e =>
    rw [hresult] at hends
    exact hends

/-- The exception is the exception. -/
theorem Holds.with_error (h : p.Holds before ok error) :
    p.Holds before ok fun e held => p.result = .error e ∧ error e held := by
  intro frame hdisjoint hfresh
  obtain ⟨hcloses, held, hheld, hbeside, hends⟩ := h frame hdisjoint hfresh
  refine ⟨hcloses, held, hheld, hbeside, ?_⟩
  cases hresult : p.result with
  | ok x =>
    rw [hresult] at hends
    exact hends
  | error e =>
    rw [hresult] at hends
    exact ⟨rfl, hends⟩

theorem holds_calls (hturns : Turns ops before after) :
    (calls ops : Traced H E Unit).Holds before (fun _ held => held = after) error :=
  .of_turns hturns rfl

/-- A handle that is made is none of those that are held. -/
theorem holds_opened (h : H) (a : Finset H) :
    (calls [.opened h] : Traced H E Unit).Holds a (fun _ held => h ∉ a ∧ held = insert h a)
      error := by
  intro frame hdisjoint hfresh
  have hnew : h ∉ frame ∪ a := hfresh.1
  obtain ⟨hcloses, hheld, hbeside⟩ := turns_opened_insert h a frame hdisjoint hfresh
  exact ⟨hcloses, insert h a, hheld, hbeside, fun hmem => hnew (Finset.mem_union_right _ hmem), rfl⟩

/-- **The frame rule**: what is held beside stays, and what the program leaves is not among it. -/
theorem Holds.frame (h : p.Holds a ok error) (hdisjoint : Disjoint a c) :
    p.Holds (a ∪ c) (fun x held => ∃ b, ok x b ∧ Disjoint b c ∧ held = b ∪ c)
      fun e held => ∃ b, error e b ∧ Disjoint b c ∧ held = b ∪ c := by
  intro frame hframe hfresh
  rw [Finset.disjoint_union_right] at hframe
  rw [Finset.union_comm a c, ← Finset.union_assoc] at hfresh ⊢
  obtain ⟨hcloses, held, hheld, hbeside, hends⟩ := h (frame ∪ c)
    (Finset.disjoint_union_left.mpr ⟨hframe.1, hdisjoint.symm⟩) hfresh
  rw [Finset.disjoint_union_left] at hbeside
  refine ⟨hcloses, held ∪ c, ?_, Finset.disjoint_union_right.mpr ⟨hbeside.1, hframe.2⟩, ?_⟩
  · rw [hheld, Finset.union_right_comm, Finset.union_assoc]
  · cases hresult : p.result with
    | ok x => exact ⟨held, by rwa [hresult] at hends, hbeside.2.symm, rfl⟩
    | error e => exact ⟨held, by rwa [hresult] at hends, hbeside.2.symm, rfl⟩

/-- **Sequences.** -/
theorem Holds.bind (h : p.Holds before ok error)
    (hrest : ∀ x held, ok x held → (f x).Holds held okB error) :
    (p >>= f).Holds before okB error := by
  intro frame hdisjoint hfresh
  obtain ⟨ops, result⟩ := p
  cases result with
  | error e => exact h frame hdisjoint hfresh
  | ok x =>
    obtain ⟨hfirst, hsecond⟩ := along_append.mp hfresh
    obtain ⟨hcloses, held, hheld, hbeside, hends⟩ := h frame hdisjoint hfirst
    rw [show heldAfter (frame ∪ before) ops = _ from hheld] at hsecond
    obtain ⟨hcloses', held', hheld', hbeside', hends'⟩ := hrest x held hends frame hbeside hsecond
    refine ⟨along_append.mpr ⟨hcloses, hheld.symm ▸ hcloses'⟩, held', ?_, hbeside', hends'⟩
    show heldAfter (frame ∪ before) (ops ++ (f x).ops) = _
    rw [heldAfter_append, show heldAfter (frame ∪ before) ops = _ from hheld, hheld']

/-- **Loops**, with an invariant that ties the state of the loop to what is held. -/
theorem holds_foldlM {body : B → A → Traced H E B} {xs : List A} {y : B} (hbefore : okB y before)
    (hstep : ∀ y x held, x ∈ xs → okB y held → (body y x).Holds held okB error) :
    (xs.foldlM body y).Holds before okB error := by
  induction xs generalizing y before with
  | nil => exact holds_pure hbefore
  | cons x xs ih =>
    rw [List.foldlM_cons]
    exact (hstep y x before List.mem_cons_self hbefore).bind fun y held hinv =>
      ih hinv fun y x held hmem => hstep y x held (List.mem_cons_of_mem _ hmem)

/-- **Scopes.**  The object has the handles `owned`, which the body does not touch; whichever way
the body ends, the destructor turns them into what is left of them. -/
theorem Holds.withLocal {destroy : O → List (HandleOp H)} {object : O} {body : Traced H E (A × O)}
    {okO : A × O → Finset H → Prop} {errorO : E → Finset H → Prop} {owned : Finset H}
    (h : body.Holds before okO errorO) (hdisjoint : Disjoint before owned)
    (hok : ∀ x object held, okO (x, object) held →
      ∃ left, Turns (destroy object) owned left ∧ ok x (held ∪ left))
    (herror : ∀ e held, errorO e held →
      ∃ left, Turns (destroy object) owned left ∧ error e (held ∪ left)) :
    (Traced.withLocal destroy object body).Holds (before ∪ owned) ok error := by
  -- the destructor runs beside what the body leaves, which is the frame of its calls
  have hscope : ∀ {destruct : List (HandleOp H)} (frame : Finset H),
      Disjoint frame (before ∪ owned) →
      FreshOpens (frame ∪ (before ∪ owned)) (body.ops ++ destruct) →
      ∃ held, Ends okO errorO body.result held ∧ ∀ left, Turns destruct owned left →
        HeldCloses (frame ∪ (before ∪ owned)) (body.ops ++ destruct) ∧
        heldAfter (frame ∪ (before ∪ owned)) (body.ops ++ destruct) = frame ∪ (held ∪ left) ∧
        Disjoint frame (held ∪ left) := by
    intro destruct frame hframe hfresh
    rw [Finset.disjoint_union_right] at hframe
    rw [Finset.union_comm before owned, ← Finset.union_assoc] at hfresh ⊢
    obtain ⟨hbody, hdestruct⟩ := along_append.mp hfresh
    obtain ⟨hcloses, held, hheld, hbeside, hends⟩ := h (frame ∪ owned)
      (Finset.disjoint_union_left.mpr ⟨hframe.1, hdisjoint.symm⟩) hbody
    rw [Finset.disjoint_union_left] at hbeside
    refine ⟨held, hends, fun left hturns => ?_⟩
    rw [hheld, Finset.union_right_comm] at hdestruct
    obtain ⟨hcloses', hheld', hleft⟩ := hturns (frame ∪ held)
      (Finset.disjoint_union_left.mpr ⟨hframe.2, hbeside.2.symm⟩) hdestruct
    rw [Finset.disjoint_union_left] at hleft
    refine ⟨along_append.mpr ⟨hcloses, ?_⟩, ?_,
      Finset.disjoint_union_right.mpr ⟨hbeside.1, hleft.1⟩⟩
    · rwa [hheld, Finset.union_right_comm]
    · rw [heldAfter_append, hheld, Finset.union_right_comm, hheld', Finset.union_assoc]
  intro frame hframe hfresh
  obtain ⟨ops, result⟩ := body
  cases result with
  | error e =>
    obtain ⟨held, hends, hall⟩ := hscope frame hframe hfresh
    obtain ⟨left, hdestroy, hpost⟩ := herror e held hends
    obtain ⟨hcloses, hheld, hbeside⟩ := hall left hdestroy
    exact ⟨hcloses, _, hheld, hbeside, hpost⟩
  | ok result =>
    obtain ⟨held, hends, hall⟩ := hscope frame hframe hfresh
    obtain ⟨left, hdestroy, hpost⟩ := hok result.1 result.2 held hends
    obtain ⟨hcloses, hheld, hbeside⟩ := hall left hdestroy
    exact ⟨hcloses, _, hheld, hbeside, hpost⟩

/-- The scope of an object with one handle, which it gives up at the end. -/
theorem holds_owner {destroy : O → List (HandleOp H)} {object : O}
    (hdestroy : destroy object = [.closed h]) {body : Traced H E (A × O)}
    (hbody : body.Holds ∅ (fun result held => result.2 = object ∧ ok result.1 held) error) :
    (Traced.withLocal destroy object body).Holds {h} ok error := by
  rw [← Finset.empty_union {h}]
  refine hbody.withLocal (Finset.disjoint_empty_left _) ?_ ?_
  · rintro x object' held ⟨rfl, hx⟩
    refine ⟨∅, hdestroy ▸ turns_closed h, ?_⟩
    rwa [Finset.union_empty]
  · intro e held he
    refine ⟨∅, hdestroy ▸ turns_closed h, ?_⟩
    rwa [Finset.union_empty]

omit [DecidableEq H] in
/-- The last calls of a scope whose body leaves the object as it was. -/
theorem ops_withLocal {destroy : O → List (HandleOp H)} {object : O} {body : Traced H E (A × O)}
    (h : ∀ x object', body.result = .ok (x, object') → object' = object) :
    (Traced.withLocal destroy object body).ops = body.ops ++ destroy object := by
  obtain ⟨ops, result⟩ := body
  cases result with
  | error e => rfl
  | ok result => exact congrArg (fun o => ops ++ destroy o) (h result.1 result.2 rfl)

/-- **What a triple says of a whole program.** -/
theorem Holds.run (h : p.Holds ∅ ok error) (hfresh : FreshOpens ∅ p.ops) :
    HeldCloses ∅ p.ops ∧ Ends ok error p.result (heldAfter ∅ p.ops) := by
  have hempty : (∅ : Finset H) ∪ ∅ = ∅ := rfl
  obtain ⟨hcloses, held, hheld, -, hends⟩ := h ∅ (Finset.disjoint_empty_left ∅) (by rwa [hempty])
  rw [hempty] at hcloses hheld
  rw [hheld, Finset.empty_union]
  exact ⟨hcloses, hends⟩

end Traced

end Machine
end RemoteDeviceConsole
