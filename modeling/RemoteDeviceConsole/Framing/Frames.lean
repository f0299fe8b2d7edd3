import Mathlib.Data.List.Basic
import Mathlib.Data.List.Infix
import Mathlib.Tactic.Common

/-!
# Cutting a stream at a delimiter

A byte stream carries messages that end in a delimiter.  The transport may cut
the stream anywhere, so a receiver keeps a buffer and takes off one complete
message at a time.  This file is about that idiom alone: an arbitrary alphabet,
an arbitrary delimiter `d`, no protocol.

* `IsFrame d f`: `f` ends in `d` and contains it nowhere else.
* `frames d l` and `remainder d l`: the complete messages of `l`, each with its
  delimiter, and the unfinished tail.  `flatten_frames_append_remainder` says
  nothing is lost, `frames_append` says where the stream was cut does not matter.
* `cutFrame` is the `find` / `substr` / `erase` idiom for one message, and
  `drainFrames` the loop around it.  `drainFrames_induction` is the rule for that
  loop: a property of state and buffer that survives one message survives all.
* `mem_frames_flatten` describes the messages of a stream glued from pieces that
  may have lost their ends.
-/

namespace RemoteDeviceConsole
namespace Framing

variable {α : Type*} [DecidableEq α] {σ : Type*}

/-! ## Frames -/

/-- A frame: a body without the delimiter, then the delimiter. -/
def IsFrame (d : α) (f : List α) : Prop := ∃ body, d ∉ body ∧ f = body ++ [d]

/-- The complete frames of a stream, each with its delimiter. -/
def frames (d : α) : List α → List (List α)
  | [] => []
  | a :: l =>
      if a = d then [a] :: frames d l
      else
        match frames d l with
        | [] => []
        | f :: fs => (a :: f) :: fs

/-- What follows the last delimiter. -/
def remainder (d : α) : List α → List α
  | [] => []
  | a :: l => if a = d ∨ d ∈ l then remainder d l else a :: l

variable {d : α} {f l : List α}

omit [DecidableEq α] in
theorem IsFrame.ne_nil (h : IsFrame d f) : f ≠ [] := by
  obtain ⟨body, -, rfl⟩ := h
  simp

omit [DecidableEq α] in
theorem IsFrame.mem (h : IsFrame d f) : d ∈ f := by
  obtain ⟨body, -, rfl⟩ := h
  simp

/-- The delimiter comes once in a frame. -/
theorem IsFrame.count (h : IsFrame d f) : f.count d = 1 := by
  obtain ⟨body, hbody, rfl⟩ := h
  rw [List.count_append, List.count_eq_zero.mpr hbody, List.count_singleton_self]

omit [DecidableEq α] in
theorem IsFrame.getLast? (h : IsFrame d f) : f.getLast? = some d := by
  obtain ⟨body, -, rfl⟩ := h
  rw [List.getLast?_append_cons, List.getLast?_singleton]

@[simp] theorem frames_nil : frames d [] = [] := rfl

@[simp] theorem remainder_nil : remainder d [] = [] := rfl

theorem remainder_of_notMem : ∀ {l : List α}, d ∉ l → remainder d l = l
  | [], _ => rfl
  | a :: l, h => by
    rw [List.mem_cons, not_or] at h
    simp [remainder, Ne.symm h.1, h.2]

theorem frames_of_notMem : ∀ {l : List α}, d ∉ l → frames d l = []
  | [], _ => rfl
  | a :: l, h => by
    rw [List.mem_cons, not_or] at h
    simp [frames, Ne.symm h.1, frames_of_notMem h.2]

theorem notMem_remainder (d : α) : ∀ l : List α, d ∉ remainder d l
  | [] => by simp
  | a :: l => by
    by_cases h : a = d ∨ d ∈ l
    · simpa [remainder, h] using notMem_remainder d l
    · rw [remainder, if_neg h, List.mem_cons, not_or]
      exact ⟨fun e => h (Or.inl e.symm), fun e => h (Or.inr e)⟩

/-- A frame at the head of a stream is its first frame. -/
theorem frames_frame_append (hf : IsFrame d f) (l : List α) :
    frames d (f ++ l) = f :: frames d l := by
  obtain ⟨body, hbody, rfl⟩ := hf
  induction body with
  | nil => simp [frames]
  | cons a body ih =>
    rw [List.mem_cons, not_or] at hbody
    have hrest := ih hbody.2
    rw [List.cons_append, List.cons_append, frames, if_neg (Ne.symm hbody.1), hrest]

theorem remainder_append_of_mem {a : List α} (h : d ∈ l) :
    remainder d (a ++ l) = remainder d l := by
  induction a with
  | nil => rfl
  | cons x a ih => simp [remainder, h, ih]

theorem remainder_frame_append (hf : IsFrame d f) (l : List α) :
    remainder d (f ++ l) = remainder d l := by
  obtain ⟨body, -, rfl⟩ := hf
  rw [List.append_assoc, remainder_append_of_mem (by simp)]
  simp [remainder]

/-- **Every stream starts with a frame or has none.**  The case split behind
every induction on the frames of a stream. -/
theorem exists_frame_append_of_mem : ∀ {l : List α}, d ∈ l → ∃ f r, IsFrame d f ∧ l = f ++ r
  | [], h => absurd h (by simp)
  | a :: l, h => by
    by_cases ha : a = d
    · exact ⟨[d], l, ⟨[], by simp⟩, by simp [ha]⟩
    · have hl : d ∈ l := by
        rcases List.mem_cons.mp h with h | h
        · exact absurd h.symm ha
        · exact h
      obtain ⟨f, r, ⟨body, hbody, rfl⟩, rfl⟩ := exists_frame_append_of_mem hl
      exact ⟨a :: (body ++ [d]), r, ⟨a :: body, by simp [hbody, Ne.symm ha], rfl⟩, rfl⟩

/-- Induction on a stream, one frame at a time. -/
theorem frame_induction {P : List α → Prop} (hopen : ∀ l, d ∉ l → P l)
    (hframe : ∀ f l, IsFrame d f → P l → P (f ++ l)) (l : List α) : P l := by
  induction hn : l.length using Nat.strong_induction_on generalizing l with
  | _ n ih =>
    by_cases h : d ∈ l
    · obtain ⟨f, r, hf, rfl⟩ := exists_frame_append_of_mem h
      have hpos : 0 < f.length := List.length_pos_of_ne_nil hf.ne_nil
      rw [List.length_append] at hn
      exact hframe f r hf (ih r.length (by omega) r rfl)
    · exact hopen l h

/-- **Nothing is lost**: the frames and the remainder spell the stream. -/
theorem flatten_frames_append_remainder (d : α) (l : List α) :
    (frames d l).flatten ++ remainder d l = l := by
  induction l using frame_induction (d := d) with
  | hopen l h => rw [frames_of_notMem h, remainder_of_notMem h]; rfl
  | hframe f l hf ih =>
    rw [frames_frame_append hf, remainder_frame_append hf, List.flatten_cons,
      List.append_assoc, ih]

/-- **Where the stream was cut does not matter.**  The frames of `a ++ b` are
those of `a`, then those of what `a` left over followed by `b`. -/
theorem frames_append (d : α) (a b : List α) :
    frames d (a ++ b) = frames d a ++ frames d (remainder d a ++ b) := by
  induction a using frame_induction (d := d) with
  | hopen a h => rw [frames_of_notMem h, remainder_of_notMem h]; rfl
  | hframe f a hf ih =>
    rw [List.append_assoc, frames_frame_append hf, ih, frames_frame_append hf,
      remainder_frame_append hf, List.cons_append]

theorem remainder_append (d : α) (a b : List α) :
    remainder d (a ++ b) = remainder d (remainder d a ++ b) := by
  induction a using frame_induction (d := d) with
  | hopen a h => rw [remainder_of_notMem h]
  | hframe f a hf ih =>
    rw [List.append_assoc, remainder_frame_append hf, ih, remainder_frame_append hf]

/-- A list of frames, spelled out and followed by anything, is read back. -/
theorem frames_flatten_append {fs : List (List α)} (h : ∀ f ∈ fs, IsFrame d f) (l : List α) :
    frames d (fs.flatten ++ l) = fs ++ frames d l := by
  induction fs with
  | nil => rfl
  | cons f fs ih =>
    rw [List.flatten_cons, List.append_assoc, frames_frame_append (h f (by simp)),
      ih fun g hg => h g (by simp [hg]), List.cons_append]

theorem frames_flatten {fs : List (List α)} (h : ∀ f ∈ fs, IsFrame d f) :
    frames d fs.flatten = fs := by
  simpa using frames_flatten_append h []

/-- A list with a frame starts with one. -/
theorem exists_frame_append_of_getElem? {i : ℕ} (h : (frames d l)[i]? = some f) :
    ∃ f' r, IsFrame d f' ∧ l = f' ++ r := by
  refine exists_frame_append_of_mem ?_
  by_contra hnot
  rw [frames_of_notMem hnot] at h
  exact absurd h (by simp)

/-- The frames of a prefix are a prefix of the frames. -/
theorem frames_of_isPrefix {p l : List α} (h : p <+: l) : frames d p <+: frames d l := by
  obtain ⟨t, rfl⟩ := h
  rw [frames_append]
  exact List.prefix_append _ _

omit [DecidableEq α] in
/-- A beginning of a frame that has the delimiter is the frame. -/
theorem IsFrame.eq_of_prefix {p : List α} (hf : IsFrame d f) (hp : p <+: f) (hd : d ∈ p) :
    p = f := by
  obtain ⟨body, hbody, rfl⟩ := hf
  rcases List.prefix_concat_iff.mp hp with rfl | hp
  · rfl
  · exact absurd (hp.subset hd) hbody

/-- A part of a spelled-out list of frames: some frames, and the beginning of the next. -/
theorem exists_take_of_prefix_flatten {fs : List (List α)} (h : ∀ f ∈ fs, IsFrame d f)
    {p : List α} (hp : p <+: fs.flatten) :
    ∃ n, n ≤ fs.length ∧ frames d p = fs.take n ∧ p = (fs.take n).flatten ++ remainder d p := by
  have hfs := frames_flatten h
  have hframes : frames d p <+: fs := hfs ▸ frames_of_isPrefix hp
  obtain ⟨rest, hrest⟩ := hframes
  have htake : fs.take (frames d p).length = frames d p := by
    rw [← hrest]
    exact List.take_left
  refine ⟨(frames d p).length, ?_, htake.symm, ?_⟩
  · rw [← hrest, List.length_append]
    omega
  · rw [htake, flatten_frames_append_remainder]

/-! ## Taking off one frame -/

/-- The first frame of a buffer and what follows it: find the delimiter, take up
to and including it, erase that much. -/
def cutFrame (d : α) (buffer : List α) : Option (List α × List α) :=
  match buffer.findIdx? (· = d) with
  | none => none
  | some i => some (buffer.take (i + 1), buffer.drop (i + 1))

theorem cutFrame_of_notMem (h : d ∉ l) : cutFrame d l = none := by
  have hnone : l.findIdx? (· = d) = none := by
    rw [List.findIdx?_eq_none_iff]
    intro x hx
    simpa using fun e : x = d => h (e ▸ hx)
  rw [cutFrame, hnone]

theorem cutFrame_frame_append (hf : IsFrame d f) (l : List α) :
    cutFrame d (f ++ l) = some (f, l) := by
  obtain ⟨body, hbody, rfl⟩ := hf
  have hidx : (body ++ [d] ++ l).findIdx? (· = d) = some body.length := by
    rw [List.append_assoc, List.findIdx?_append]
    have hnone : body.findIdx? (· = d) = none := by
      rw [List.findIdx?_eq_none_iff]
      intro x hx
      simpa using fun e : x = d => hbody (e ▸ hx)
    rw [hnone]
    simp [List.findIdx?_cons]
  have hlen : (body ++ [d]).length = body.length + 1 := by simp
  simp only [cutFrame, hidx]
  rw [← hlen, List.take_left, List.drop_left]

theorem cutFrame_eq_none : cutFrame d l = none ↔ d ∉ l := by
  refine ⟨fun h hd => ?_, cutFrame_of_notMem⟩
  obtain ⟨f, r, hf, rfl⟩ := exists_frame_append_of_mem hd
  rw [cutFrame_frame_append hf] at h
  exact absurd h (by simp)

theorem cutFrame_eq_some {r : List α} :
    cutFrame d l = some (f, r) ↔ IsFrame d f ∧ l = f ++ r := by
  constructor
  · intro h
    by_cases hd : d ∈ l
    · obtain ⟨f', r', hf', rfl⟩ := exists_frame_append_of_mem hd
      rw [cutFrame_frame_append hf'] at h
      obtain ⟨rfl, rfl⟩ := Prod.mk.inj (Option.some.inj h)
      exact ⟨hf', rfl⟩
    · rw [cutFrame_of_notMem hd] at h
      exact absurd h (by simp)
  · rintro ⟨hf, rfl⟩
    exact cutFrame_frame_append hf r

theorem length_lt_of_cutFrame {r : List α} (h : cutFrame d l = some (f, r)) :
    r.length < l.length := by
  obtain ⟨hf, rfl⟩ := cutFrame_eq_some.mp h
  have hpos : 0 < f.length := List.length_pos_of_ne_nil hf.ne_nil
  rw [List.length_append]
  omega

/-! ## The loop that empties a buffer -/

/-- Take frames off the buffer until none is left.  The step sees the frame and
what the buffer holds after it. -/
def drainFrames (d : α) (step : σ → List α → List α → σ) (s : σ) (buffer : List α) : σ :=
  match h : cutFrame d buffer with
  | none => s
  | some (frame, rest) =>
      have := length_lt_of_cutFrame h
      drainFrames d step (step s frame rest) rest
termination_by buffer.length

variable {step : σ → List α → List α → σ}

theorem drainFrames_of_notMem (h : d ∉ l) (s : σ) : drainFrames d step s l = s := by
  rw [drainFrames]
  split
  · rfl
  · next heq => rw [cutFrame_of_notMem h] at heq; exact absurd heq (by simp)

theorem drainFrames_frame_append (hf : IsFrame d f) (s : σ) (l : List α) :
    drainFrames d step s (f ++ l) = drainFrames d step (step s f l) l := by
  rw [drainFrames]
  split
  · next heq => rw [cutFrame_frame_append hf] at heq; exact absurd heq (by simp)
  · next frame rest heq =>
    rw [cutFrame_frame_append hf] at heq
    obtain ⟨rfl, rfl⟩ := Prod.mk.inj (Option.some.inj heq)
    rfl

/-- **The rule for the loop.**  A property of the state and the buffer that one
frame preserves holds at the end, of the unfinished tail. -/
theorem drainFrames_induction {P : σ → List α → Prop}
    (hstep : ∀ s f l, IsFrame d f → P s (f ++ l) → P (step s f l) l)
    {s : σ} {buffer : List α} (h : P s buffer) :
    P (drainFrames d step s buffer) (remainder d buffer) := by
  induction buffer using frame_induction (d := d) generalizing s with
  | hopen l hl => rwa [drainFrames_of_notMem hl, remainder_of_notMem hl]
  | hframe f l hf ih =>
    rw [drainFrames_frame_append hf, remainder_frame_append hf]
    exact ih (hstep s f l hf h)

/-! ## Frames of a stream that lost bytes -/

/-- **A frame of glued pieces.**  When every piece is a frame or has no
delimiter, a frame of the glued stream is a run of unfinished pieces closed by
one whole frame. -/
theorem mem_frames_flatten {ps : List (List α)} (hps : ∀ p ∈ ps, IsFrame d p ∨ d ∉ p)
    (hf : f ∈ frames d ps.flatten) :
    ∃ (qs : List (List α)) (g : List α),
      f = qs.flatten ++ g ∧ IsFrame d g ∧ g ∈ ps ∧ ∀ q ∈ qs, d ∉ q ∧ q ∈ ps := by
  -- the pieces read so far since the last delimiter are carried along
  suffices key : ∀ qs : List (List α), (∀ q ∈ qs, d ∉ q) →
      f ∈ frames d (qs.flatten ++ ps.flatten) →
      ∃ (rs : List (List α)) (g : List α),
        (f = qs.flatten ++ (rs.flatten ++ g) ∨ f = rs.flatten ++ g) ∧ IsFrame d g ∧
        g ∈ ps ∧ ∀ r ∈ rs, d ∉ r ∧ r ∈ ps by
    obtain ⟨rs, g, hfe, hg⟩ := key [] (by simp) (by simpa using hf)
    exact ⟨rs, g, by simpa using hfe, hg⟩
  clear hf
  induction ps with
  | nil =>
    intro qs hqs hf
    have hopen : d ∉ qs.flatten := by
      rw [List.mem_flatten]
      rintro ⟨q, hq, hd⟩
      exact hqs q hq hd
    simp [frames_of_notMem hopen] at hf
  | cons p ps ih =>
    have hps' : ∀ q ∈ ps, IsFrame d q ∨ d ∉ q := fun q hq => hps q (by simp [hq])
    intro qs hqs hf
    rcases hps p (by simp) with hp | hp
    · -- the piece closes the frame that is open
      have hopen : d ∉ qs.flatten := by
        rw [List.mem_flatten]
        rintro ⟨q, hq, hd⟩
        exact hqs q hq hd
      have hframe : IsFrame d (qs.flatten ++ p) := by
        obtain ⟨body, hbody, rfl⟩ := hp
        exact ⟨qs.flatten ++ body, by simp [hopen, hbody, -List.mem_flatten],
          by rw [List.append_assoc]⟩
      rw [List.flatten_cons, ← List.append_assoc, frames_frame_append hframe,
        List.mem_cons] at hf
      rcases hf with rfl | hf
      · exact ⟨[], p, Or.inl (by simp), hp, by simp, by simp⟩
      · obtain ⟨rs, g, hfe, hg, hmem, hrs⟩ := ih hps' [] (by simp) (by simpa using hf)
        exact ⟨rs, g, Or.inr (by simpa using hfe), hg, by simp [hmem],
          fun r hr => ⟨(hrs r hr).1, by simp [(hrs r hr).2]⟩⟩
    · -- the piece stays open
      have hf' : f ∈ frames d ((qs ++ [p]).flatten ++ ps.flatten) := by
        simpa [List.append_assoc] using hf
      obtain ⟨rs, g, hfe, hg, hmem, hrs⟩ := ih hps' (qs ++ [p])
        (by simpa [or_imp, forall_and] using ⟨hqs, hp⟩) hf'
      rcases hfe with hfe | hfe
      · refine ⟨p :: rs, g, Or.inl (by simpa [List.append_assoc] using hfe), hg,
          by simp [hmem], ?_⟩
        intro r hr
        rcases List.mem_cons.mp hr with rfl | hr
        · exact ⟨hp, by simp⟩
        · exact ⟨(hrs r hr).1, by simp [(hrs r hr).2]⟩
      · exact ⟨rs, g, Or.inr hfe, hg, by simp [hmem],
          fun r hr => ⟨(hrs r hr).1, by simp [(hrs r hr).2]⟩⟩

end Framing
end RemoteDeviceConsole
