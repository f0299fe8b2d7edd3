import RemoteDeviceConsole.Machine.Handles
import RemoteDeviceConsole.Machine.Run
import RemoteDeviceConsole.Server.Kernel
import Mathlib.Data.Finmap

/-!
# The class `Socket`

The server and the simulator have the same class: a descriptor, or -1 in an object that has been
moved from.  Here are its members, and the objects of a program, on which they are called in any
order that the language allows: `Sockets.step`.

`Sockets.owning` is what the class is for.  Every descriptor that is open belongs to one object,
none is closed twice, and when the last object has gone all have been closed.

The invariant is about the objects together and not about one of them: a move is right only when
the object that is moved from gives its descriptor up, and an assignment only when the descriptor
that was there before is closed first.  An object that is assigned to itself must not lose its
own; that is the case that the test for `this != &other` is there for, and a case of its own here.
-/

namespace RemoteDeviceConsole

open Machine Traced

/-- What the programs hold: descriptors, and of the MQTT library its state and a client. -/
inductive Handle where
  | fd (fd : Fd)
  | mosquittoLib
  | mosquitto
  deriving DecidableEq

/-- A call that fails with an `errno` or not. -/
def check (errno : Option Errno) : Traced Handle RuntimeError Unit :=
  .lift (match errno with
    | none => .ok ()
    | some errno => .error (.strerror errno))

theorem holds_check_bind {A : Type} {errno : Option Errno} {f : Unit → Traced Handle RuntimeError A}
    {before : Finset Handle} {ok : A → Finset Handle → Prop}
    {error : RuntimeError → Finset Handle → Prop}
    (hok : (f ()).Holds before ok error) (herror : ∀ e, error e before) :
    (check errno >>= f).Holds before ok error :=
  holds_lift_bind (fun _ => hok) fun e _ => herror e

/-- An object of the class; `none` is -1. -/
structure Socket where
  fd : Option Fd
  deriving DecidableEq

namespace Socket

/-- The constructor, with the call that makes its argument. -/
def construct : Except Errno Fd → Traced Handle RuntimeError Socket
  | .error errno => .lift (.error (.strerror errno))
  | .ok fd => do
      .calls [.opened (.fd fd)]
      return ⟨some fd⟩

/-- The move constructor: the new object, and the other. -/
def moveConstruct (other : Socket) : Socket × Socket := (⟨other.fd⟩, ⟨none⟩)

/-- `close`: the call it makes, and the object. -/
def close (socket : Socket) : List (HandleOp Handle) × Socket :=
  match socket.fd with
  | some fd => ([.closed (.fd fd)], ⟨none⟩)
  | none => ([], socket)

/-- The move assignment from another object: the call it makes, and both objects. -/
def moveAssign (socket other : Socket) : List (HandleOp Handle) × Socket × Socket :=
  let (ops, _) := socket.close
  (ops, ⟨other.fd⟩, ⟨none⟩)

/-- The destructor. -/
def destroy (socket : Socket) : List (HandleOp Handle) := socket.close.1

theorem destroy_some (fd : Fd) : destroy ⟨some fd⟩ = [.closed (.fd fd)] := rfl

/-- The constructor throws when the call that makes its argument has failed. -/
theorem holds_construct (answer : Except Errno Fd) :
    (construct answer).Holds ∅ (fun socket held => ∃ fd, answer = .ok fd ∧
      socket = ⟨some fd⟩ ∧ held = {.fd fd}) fun _ held => held = ∅ := by
  cases answer with
  | error errno => exact holds_lift rfl
  | ok fd => exact (holds_calls (turns_opened _)).bind fun _ held hheld =>
      holds_pure ⟨fd, rfl, rfl, hheld⟩

/-- The scope of a local object that is moved into the one that is returned. -/
theorem holds_moved {fd : Fd} {body : Traced Handle RuntimeError (Socket × Socket)}
    (h : body.Holds ∅ (fun result held => result = moveConstruct ⟨some fd⟩ ∧ held = ∅)
      fun _ held => held = ∅) :
    (withLocal destroy ⟨some fd⟩ body).Holds {.fd fd}
      (fun socket held => socket = ⟨some fd⟩ ∧ held = {.fd fd}) fun _ held => held = ∅ := by
  rw [← Finset.empty_union {Handle.fd fd}]
  refine h.withLocal (Finset.disjoint_empty_left _) ?_ ?_
  · rintro x object held ⟨heq, rfl⟩
    obtain ⟨rfl, rfl⟩ := Prod.mk.inj heq
    exact ⟨_, turns_nil _, rfl, Finset.empty_union _⟩
  · rintro e held rfl
    exact ⟨∅, turns_closed _, rfl⟩

end Socket

/-! ## The objects of a program -/

/-- The objects that live, by their names, and the calls that were made. -/
structure Sockets (V : Type) where
  objects : Finmap fun _ : V => Socket := ∅
  ops : List (HandleOp Handle) := []

/-- A member is called. -/
inductive SocketCall (V : Type) where
  | construct (v : V) (answer : Except Errno Fd)
  | moveConstruct (v other : V)
  | moveAssign (v other : V)
  | destroy (v : V)

variable {V : Type} [DecidableEq V]

namespace Sockets

/-- A constructor makes an object that does not live; the other members are called on objects
that do. -/
def Allowed (s : Sockets V) : SocketCall V → Prop
  | .construct v _ => v ∉ s.objects
  | .moveConstruct v other => v ∉ s.objects ∧ other ∈ s.objects
  | .moveAssign v other => v ∈ s.objects ∧ other ∈ s.objects
  | .destroy v => v ∈ s.objects

instance (s : Sockets V) (call : SocketCall V) : Decidable (s.Allowed call) :=
  match call with
  | .construct v _ => inferInstanceAs (Decidable (v ∉ s.objects))
  | .moveConstruct v other => inferInstanceAs (Decidable (v ∉ s.objects ∧ other ∈ s.objects))
  | .moveAssign v other => inferInstanceAs (Decidable (v ∈ s.objects ∧ other ∈ s.objects))
  | .destroy v => inferInstanceAs (Decidable (v ∈ s.objects))

/-- One call.  A constructor that throws makes no object. -/
def step (s : Sockets V) : SocketCall V → Except Empty (Sockets V)
  | .construct v answer =>
      let made := Socket.construct answer
      match made.result with
      | .error _ => .ok { s with ops := s.ops ++ made.ops }
      | .ok socket => .ok ⟨s.objects.insert v socket, s.ops ++ made.ops⟩
  | .moveConstruct v other =>
      match s.objects.lookup other with
      | none => .ok s
      | some source =>
          let (socket, source) := source.moveConstruct
          .ok { s with objects := (s.objects.insert other source).insert v socket }
  | .moveAssign v other =>
      if v = other then .ok s
      else
        match s.objects.lookup v, s.objects.lookup other with
        | some socket, some source =>
            let (ops, socket, source) := socket.moveAssign source
            .ok ⟨(s.objects.insert v socket).insert other source, s.ops ++ ops⟩
        | _, _ => .ok s
  | .destroy v =>
      match s.objects.lookup v with
      | none => .ok s
      | some socket => .ok ⟨s.objects.erase v, s.ops ++ socket.destroy⟩

/-- What an object has. -/
def own (s : Sockets V) (v : V) : Option Handle :=
  ((s.objects.lookup v).bind Socket.fd).map Handle.fd

theorem own_of_notMem {s : Sockets V} {v : V} (h : v ∉ s.objects) : s.own v = none := by
  rw [own, Finmap.lookup_eq_none.mpr h]
  rfl

theorem own_of_lookup {s : Sockets V} {v : V} {socket : Socket}
    (h : s.objects.lookup v = some socket) : s.own v = socket.fd.map Handle.fd := by
  rw [own, h]
  rfl

/-- An object that is made or changed. -/
theorem own_insert (s : Sockets V) (v : V) (socket : Socket) (ops : List (HandleOp Handle)) :
    own ⟨s.objects.insert v socket, ops⟩ = Function.update s.own v (socket.fd.map Handle.fd) := by
  funext w
  by_cases hw : w = v
  · subst hw
    simp [own]
  · rw [Function.update_of_ne hw, own, own, Finmap.lookup_insert_of_ne _ hw]

/-- Two objects, one after the other. -/
theorem own_insert_insert (s : Sockets V) (v w : V) (a b : Socket) (ops : List (HandleOp Handle)) :
    own ⟨(s.objects.insert v a).insert w b, ops⟩ =
      Function.update (Function.update s.own v (a.fd.map Handle.fd)) w (b.fd.map Handle.fd) := by
  rw [own_insert ⟨s.objects.insert v a, ops⟩, own_insert s]

theorem own_erase (s : Sockets V) (v : V) (ops : List (HandleOp Handle)) :
    own ⟨s.objects.erase v, ops⟩ = Function.update s.own v none := by
  funext w
  by_cases hw : w = v
  · subst hw
    simp [own]
  · rw [Function.update_of_ne hw, own, own, Finmap.lookup_erase_ne hw]

theorem step_moveConstruct {s : Sockets V} {v other : V} {source : Socket}
    (hsource : s.objects.lookup other = some source) :
    s.step (.moveConstruct v other) =
      .ok ⟨(s.objects.insert other ⟨none⟩).insert v ⟨source.fd⟩, s.ops⟩ := by
  rw [step, hsource]
  rfl

theorem step_moveAssign {s : Sockets V} {v other : V} {socket source : Socket} (hne : v ≠ other)
    (hsocket : s.objects.lookup v = some socket) (hsource : s.objects.lookup other = some source) :
    s.step (.moveAssign v other) =
      .ok ⟨(s.objects.insert v ⟨source.fd⟩).insert other ⟨none⟩, s.ops ++ socket.close.1⟩ := by
  rw [step, if_neg hne, hsocket, hsource]
  rfl

/-- The descriptor of an object is closed, if it has one. -/
theorem owning_close {own : V → Option Handle} {held : Finset Handle} (hown : Owning own held)
    {v : V} {socket : Socket} (hv : own v = socket.fd.map Handle.fd) :
    HeldCloses held socket.close.1 ∧
      Owning (Function.update own v none) (heldAfter held socket.close.1) := by
  obtain ⟨fd⟩ := socket
  cases fd with
  | none =>
    refine ⟨trivial, ?_⟩
    have hsame : Function.update own v none = own := by
      rw [← show own v = none from hv, Function.update_eq_self]
    rw [hsame]
    exact hown
  | some fd => exact ⟨⟨(hown.mem_iff _).mpr ⟨v, hv⟩, trivial⟩, hown.release hv⟩

/-- **One call** keeps the owners, and closes only what is open. -/
theorem owning_step {s t : Sockets V} {call : SocketCall V} (hallowed : s.Allowed call)
    (h : s.step call = .ok t) :
    ∃ ops, t.ops = s.ops ++ ops ∧ ∀ held, Owning s.own held → FreshOpens held ops →
      HeldCloses held ops ∧ Owning t.own (heldAfter held ops) := by
  cases call with
  | construct v answer =>
    cases answer with
    | error errno =>
      obtain rfl := Except.ok.inj h
      exact ⟨[], rfl, fun held hown _ => ⟨trivial, hown⟩⟩
    | ok fd =>
      obtain rfl := Except.ok.inj h
      refine ⟨[.opened (.fd fd)], rfl, fun held hown hfresh => ⟨⟨trivial, trivial⟩, ?_⟩⟩
      rw [own_insert]
      exact hown.acquire (own_of_notMem hallowed) hfresh.1
  | moveConstruct v other =>
    obtain ⟨hv, hother⟩ := hallowed
    obtain ⟨source, hsource⟩ := Finmap.mem_iff.mp hother
    rw [step_moveConstruct hsource] at h
    obtain rfl := Except.ok.inj h
    refine ⟨[], (List.append_nil _).symm, fun held hown _ => ⟨trivial, ?_⟩⟩
    rw [own_insert_insert]
    have hmoved := hown.transfer (own_of_notMem hv) other
    rw [own_of_lookup hsource] at hmoved
    exact hmoved
  | moveAssign v other =>
    obtain ⟨hv, hother⟩ := hallowed
    obtain ⟨socket, hsocket⟩ := Finmap.mem_iff.mp hv
    obtain ⟨source, hsource⟩ := Finmap.mem_iff.mp hother
    by_cases hself : v = other
    · -- `this != &other`
      rw [step, if_pos hself] at h
      obtain rfl := Except.ok.inj h
      exact ⟨[], (List.append_nil _).symm, fun held hown _ => ⟨trivial, hown⟩⟩
    · rw [step_moveAssign hself hsocket hsource] at h
      obtain rfl := Except.ok.inj h
      refine ⟨socket.close.1, rfl, fun held hown _ => ?_⟩
      obtain ⟨hcloses, hclosed⟩ := owning_close hown (own_of_lookup hsocket)
      have hne : other ≠ v := fun heq => hself heq.symm
      have hsame : Function.update (Function.update (Function.update s.own v none) other none) v
          (source.fd.map Handle.fd) =
          Function.update (Function.update s.own v (source.fd.map Handle.fd)) other none := by
        rw [Function.update_comm hself none none s.own, Function.update_idem,
          Function.update_comm hne none _ s.own]
      have hmoved := hclosed.transfer (Function.update_self v none s.own) other
      rw [Function.update_of_ne hne, own_of_lookup hsource, hsame] at hmoved
      refine ⟨hcloses, ?_⟩
      rw [own_insert_insert]
      exact hmoved
  | destroy v =>
    obtain ⟨socket, hsocket⟩ := Finmap.mem_iff.mp hallowed
    rw [step, hsocket] at h
    obtain rfl := Except.ok.inj h
    refine ⟨socket.destroy, rfl, fun held hown _ => ?_⟩
    rw [own_erase]
    exact owning_close hown (own_of_lookup hsocket)

/-- The descriptors that are open belong to one object each. -/
theorem owning_run {calls : List (SocketCall V)} {s : Sockets V}
    (h : Run step Allowed ({} : Sockets V) calls s) (hfresh : FreshOpens ∅ s.ops) :
    HeldCloses ∅ s.ops ∧ Owning s.own (heldAfter ∅ s.ops) := by
  induction h with
  | nil =>
    have hnone : own ({} : Sockets V) = fun _ => none := funext fun v => rfl
    refine ⟨trivial, ?_⟩
    rw [hnone]
    exact owning_none
  | snoc _ hallowed hstep ih =>
    obtain ⟨ops, hops, hkeeps⟩ := owning_step hallowed hstep
    rw [hops] at hfresh ⊢
    obtain ⟨hbefore, hnew⟩ := along_append.mp hfresh
    obtain ⟨hcloses, hown⟩ := ih hbefore
    obtain ⟨hcloses', hown'⟩ := hkeeps _ hown hnew
    rw [heldAfter_append]
    exact ⟨along_append.mpr ⟨hcloses, hcloses'⟩, hown'⟩

/-- **The class owns descriptors.**  After any calls, when the kernel hands out no descriptor that
is open: no call has closed a descriptor that was not open; the open descriptors are those of the
objects, each of one object; and when no object lives, each has been closed as often as it was
opened. -/
theorem owning {calls : List (SocketCall V)} {s : Sockets V}
    (h : Run step Allowed ({} : Sockets V) calls s) (hfresh : FreshOpens ∅ s.ops) :
    HeldCloses ∅ s.ops ∧ Owning s.own (heldAfter ∅ s.ops) ∧
      (s.objects = ∅ → ∀ handle, s.ops.count (.closed handle) = s.ops.count (.opened handle)) := by
  obtain ⟨hcloses, hown⟩ := owning_run h hfresh
  refine ⟨hcloses, hown, fun hempty handle => ?_⟩
  have hcount := count_closed hfresh hcloses handle
  have hnone : handle ∉ heldAfter ∅ s.ops := by
    rw [hown.mem_iff]
    rintro ⟨v, hv⟩
    rw [own, hempty] at hv
    exact absurd hv (by simp)
  rw [if_neg hnone] at hcount
  simpa using hcount

/-- A socket that is moved about, and one that gives up its descriptor for it. -/
theorem owning_moved : ∃ s : Sockets ℕ, s.objects = ∅ ∧
    s.ops.count (.closed (.fd 5)) = 1 ∧ s.ops.count (.closed (.fd 6)) = 1 := by
  let calls : List (SocketCall ℕ) :=
    [ .construct 0 (.ok 5), .moveConstruct 1 0, .construct 2 (.ok 6), .construct 3 (.error .EPIPE),
      .moveAssign 2 1, .moveAssign 2 2, .destroy 2, .destroy 1, .destroy 0 ]
  have hcomputed : (runChecked step (fun s call => decide (Allowed s call)) {} calls).any
      (fun s : Sockets ℕ => decide (s.objects = ∅ ∧ FreshOpens ∅ s.ops ∧
        s.ops.count (.opened (.fd 5)) = 1 ∧ s.ops.count (.opened (.fd 6)) = 1)) = true := by
    decide +kernel
  obtain ⟨s, hrun, hs⟩ :=
    exists_run_of_runChecked (fun _ _ h => of_decide_eq_true h) hcomputed
  obtain ⟨hempty, hfresh, hfive, hsix⟩ := of_decide_eq_true hs
  obtain ⟨-, -, hcount⟩ := owning hrun hfresh
  exact ⟨s, hempty, by rw [hcount hempty, hfive], by rw [hcount hempty, hsix]⟩

end Sockets

end RemoteDeviceConsole
