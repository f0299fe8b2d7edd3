import RemoteDeviceConsole.Machine.Run
import Mathlib.Data.List.Flatten

/-!
# All sessions of a log, and logs that interleave the same sessions

A log in which several sessions run at once: an entry may open a session for a
key, an entry may close the session of a key, and the session of a key is also
over when the key is opened again.  `sessions` lists all of them, open or over, in
the order in which they were opened; `current` of `Machine.Run` is the open one of
a key.

Entries carry items: `all x` are the items of an entry and `items k x` those that
belong to the key `k`.  In an `Attributed` log every item belongs to the session
that is open for its key.  Two such logs whose sessions carry the same items are
interleavings of one another.  They have the same items up to order
(`perm_of_sessions`), and the items with a property that only one session has come
in the same order in both (`filter_eq_of_sessions`).
-/

namespace RemoteDeviceConsole
namespace Machine

variable {κ o β : Type*}

/-! ## Lists of which one at most is not empty -/

section Exclusive

variable {ls ls' : List (List β)}

/-- All but one are empty: the one is what they make together. -/
theorem flatten_eq_of_mem (h : ls.Pairwise fun a b => a = [] ∨ b = []) {l : List β}
    (hl : l ∈ ls) (hne : l ≠ []) : ls.flatten = l := by
  induction ls with
  | nil => simp at hl
  | cons a ls ih =>
    rw [List.pairwise_cons] at h
    rcases List.mem_cons.mp hl with rfl | hmem
    · have hrest : ls.flatten = [] := List.flatten_eq_nil_iff.mpr fun b hb =>
        (h.1 b hb).resolve_left hne
      rw [List.flatten_cons, hrest, List.append_nil]
    · have hhead : a = [] := (h.1 l hmem).resolve_right hne
      rw [List.flatten_cons, hhead, List.nil_append, ih h.2 hmem]

/-- The order does not matter when all but one are empty. -/
theorem flatten_eq_of_perm (hperm : ls.Perm ls') (h : ls.Pairwise fun a b => a = [] ∨ b = []) :
    ls.flatten = ls'.flatten := by
  have h' : ls'.Pairwise fun a b => a = [] ∨ b = [] := hperm.pairwise h Or.symm
  by_cases hall : ∀ l ∈ ls, l = []
  · have hall' : ∀ l ∈ ls', l = [] := fun l hl => hall l (hperm.mem_iff.mpr hl)
    rw [List.flatten_eq_nil_iff.mpr hall, List.flatten_eq_nil_iff.mpr hall']
  · push Not at hall
    obtain ⟨l, hl, hne⟩ := hall
    rw [flatten_eq_of_mem h hl hne, flatten_eq_of_mem h' (hperm.mem_iff.mp hl) hne]

end Exclusive

/-! ## Sessions -/

/-- A session: its key, the entries of the log while it was open, and whether it still is. -/
structure Session (κ o : Type*) where
  key : κ
  entries : List o
  isOpen : Bool

/-- The items of a session. -/
def Session.items (items : κ → o → List β) (c : Session κ o) : List β :=
  c.entries.flatMap (items c.key)

variable [DecidableEq κ] (opened : o → Option κ) (closes : κ → o → Bool)

/-- The session that is open for a key at the end of the log. -/
def currentOf (k : κ) (log : List o) : Option (List o) :=
  current (fun x => decide (opened x = some k)) (closes k) log

/-- One entry of the log, for a session opened before it. -/
def Session.extend (x : o) (c : Session κ o) : Session κ o :=
  if c.isOpen then
    if opened x = some c.key ∨ closes c.key x = true then { c with isOpen := false }
    else { c with entries := c.entries ++ [x] }
  else c

/-- The session that an entry opens. -/
def opening (x : o) : List (Session κ o) := (opened x).toList.map fun k => ⟨k, [], true⟩

/-- The sessions of a log. -/
def sessions (log : List o) : List (Session κ o) :=
  log.foldl (fun cs x => cs.map (Session.extend opened closes x) ++ opening opened x) []

variable {opened : o → Option κ} {closes : κ → o → Bool} {log : List o}

@[simp] theorem sessions_nil : sessions opened closes [] = [] := rfl

theorem sessions_append_singleton (log : List o) (x : o) :
    sessions opened closes (log ++ [x]) =
      (sessions opened closes log).map (Session.extend opened closes x) ++ opening opened x := by
  simp [sessions]

@[simp] theorem Session.extend_key (x : o) (c : Session κ o) :
    (c.extend opened closes x).key = c.key := by
  unfold Session.extend
  split
  · split <;> rfl
  · rfl

/-- The session of a key is open and goes on. -/
theorem currentOf_append_singleton (k : κ) (log : List o) (x : o) :
    currentOf opened closes k (log ++ [x]) =
      if opened x = some k then some []
      else if closes k x then none
      else (currentOf opened closes k log).map (· ++ [x]) := by
  simp [currentOf, track]

theorem filter_opening (k : κ) (x : o) :
    (opening opened x).filter (fun c => c.isOpen ∧ c.key = k) =
      if opened x = some k then [⟨k, [], true⟩] else [] := by
  unfold opening
  cases opened x with
  | none => simp
  | some k' => by_cases hk : k' = k <;> simp [hk]

/-- **The open sessions.**  For each key there is the current one or none. -/
theorem filter_sessions (k : κ) (log : List o) :
    (sessions opened closes log).filter (fun c => c.isOpen ∧ c.key = k) =
      (currentOf opened closes k log).toList.map fun entries => ⟨k, entries, true⟩ := by
  induction log using List.reverseRecOn with
  | nil => rfl
  | append_singleton log x ih =>
    rw [sessions_append_singleton, List.filter_append, List.filter_map, filter_opening,
      currentOf_append_singleton]
    by_cases hends : opened x = some k ∨ closes k x = true
    · -- whatever was open for the key is over
      have hnone : (sessions opened closes log).filter
          ((fun c => decide (c.isOpen = true ∧ c.key = k)) ∘ Session.extend opened closes x) =
          [] := by
        rw [List.filter_eq_nil_iff]
        intro c _ hc
        simp only [Function.comp_apply, decide_eq_true_eq, Session.extend_key] at hc
        obtain ⟨hopen, rfl⟩ := hc
        rw [Session.extend, if_pos hends] at hopen
        split at hopen
        · exact Bool.false_ne_true hopen
        · contradiction
      rw [hnone, List.map_nil, List.nil_append]
      by_cases hopens : opened x = some k
      · rw [if_pos hopens, if_pos hopens]
        rfl
      · rw [if_neg hopens, if_neg hopens, if_pos (hends.resolve_left hopens)]
        rfl
    · obtain ⟨hopens, hcloses⟩ := not_or.mp hends
      have hsame : (sessions opened closes log).filter
          ((fun c => decide (c.isOpen = true ∧ c.key = k)) ∘ Session.extend opened closes x) =
          (sessions opened closes log).filter fun c => decide (c.isOpen = true ∧ c.key = k) := by
        refine List.filter_congr fun c _ => ?_
        simp only [Function.comp_apply, Session.extend_key, decide_eq_decide]
        refine and_congr_left ?_
        rintro rfl
        unfold Session.extend
        split <;> simp_all
      rw [hsame, ih, if_neg hopens, if_neg hopens, if_neg hcloses, List.append_nil]
      cases currentOf opened closes k log with
      | none => rfl
      | some entries => simp [Session.extend, hopens, hcloses]

/-- An open session is the current one of its key. -/
theorem currentOf_of_mem {c : Session κ o} (hc : c ∈ sessions opened closes log)
    (hopen : c.isOpen = true) : currentOf opened closes c.key log = some c.entries := by
  have hmem : c ∈ (sessions opened closes log).filter fun d => d.isOpen ∧ d.key = c.key :=
    List.mem_filter.mpr ⟨hc, by simp [hopen]⟩
  rw [filter_sessions, List.mem_map] at hmem
  obtain ⟨entries, hentries, heq⟩ := hmem
  rw [Option.mem_toList.mp hentries, ← heq]

/-- **Every session was the current one of its key**, at some moment of the log. -/
theorem exists_prefix_of_mem_sessions {c : Session κ o} (hc : c ∈ sessions opened closes log) :
    ∃ pre, pre <+: log ∧ currentOf opened closes c.key pre = some c.entries := by
  induction log using List.reverseRecOn generalizing c with
  | nil => simp at hc
  | append_singleton log x ih =>
    rw [sessions_append_singleton, List.mem_append] at hc
    have hlog : log <+: log ++ [x] := List.prefix_append log [x]
    rcases hc with hc | hc
    · obtain ⟨d, hd, rfl⟩ := List.mem_map.mp hc
      obtain ⟨pre, hpre, hcurrent⟩ := ih hd
      rw [Session.extend_key]
      by_cases hgoes : d.isOpen = true ∧ ¬ (opened x = some d.key ∨ closes d.key x = true)
      · obtain ⟨hopen, hends⟩ := hgoes
        refine ⟨log ++ [x], List.prefix_rfl, ?_⟩
        rw [currentOf_append_singleton, if_neg fun h => hends (Or.inl h),
          if_neg fun h => hends (Or.inr h), currentOf_of_mem hd hopen]
        simp [Session.extend, hopen, hends]
      · -- its entries are those it had before
        refine ⟨pre, hpre.trans hlog, hcurrent.trans ?_⟩
        unfold Session.extend
        split
        · next hopen => rw [if_pos (not_not.mp fun h => hgoes ⟨hopen, h⟩)]
        · rfl
    · obtain ⟨k, hk, rfl⟩ := List.mem_map.mp hc
      refine ⟨log ++ [x], List.prefix_rfl, ?_⟩
      rw [currentOf_append_singleton, if_pos (Option.mem_toList.mp hk)]

/-- The entries of a session come in the log in this order. -/
theorem entries_sublist {c : Session κ o} (hc : c ∈ sessions opened closes log) :
    c.entries.Sublist log := by
  obtain ⟨pre, hpre, hcurrent⟩ := exists_prefix_of_mem_sessions hc
  obtain ⟨before, x, rfl, -, -⟩ := current_eq_some_iff.mp hcurrent
  refine List.Sublist.trans ?_ hpre.sublist
  exact (List.sublist_cons_self x c.entries).trans (List.sublist_append_right before _)

/-! ## Items -/

variable (opened closes) in
/-- Every item of the log belongs to the session that is open for its key. -/
def Attributed (items : κ → o → List β) (all : o → List β) (log : List o) : Prop :=
  ∀ pre x, pre ++ [x] <+: log →
    (all x = [] ∧ ∀ k, items k x = []) ∨
    ∃ k entries, currentOf opened closes k pre = some entries ∧ opened x = none ∧
      closes k x = false ∧ items k x = all x ∧ ∀ k', k' ≠ k → items k' x = []

variable {items : κ → o → List β} {all : o → List β}

theorem Attributed.of_prefix {pre : List o} (h : Attributed opened closes items all log)
    (hpre : pre <+: log) : Attributed opened closes items all pre :=
  fun before x hx => h before x (hx.trans hpre)

/-- The items of one key among those of an entry. -/
theorem Attributed.items_sublist (h : Attributed opened closes items all log) {x : o}
    (hx : x ∈ log) (k : κ) : (items k x).Sublist (all x) := by
  obtain ⟨pre, post, rfl⟩ := List.append_of_mem hx
  rcases h pre x ⟨post, by simp⟩ with ⟨-, hnone⟩ | ⟨k', -, -, -, -, hall, hothers⟩
  · rw [hnone k]
    exact List.nil_sublist _
  · by_cases hk : k = k'
    · rw [hk, hall]
    · rw [hothers k hk]
      exact List.nil_sublist _

/-- An entry without items for an open session leaves its items as they are. -/
theorem items_extend_of_nil {x : o} {c : Session κ o}
    (hnone : c.isOpen = true → items c.key x = []) :
    (c.extend opened closes x).items items = c.items items := by
  unfold Session.extend
  split
  · next hopen =>
    split
    · rfl
    · simp [Session.items, hnone hopen]
  · rfl

omit [DecidableEq κ] in
theorem flatMap_opening (x : o) : (opening opened x).flatMap (Session.items items) = [] := by
  rw [List.flatMap_eq_nil_iff]
  intro c hc
  obtain ⟨k, -, rfl⟩ := List.mem_map.mp hc
  rfl

/-- The items of an entry go to one session. -/
theorem perm_items_extend {x : o} {k : κ} {entries : List o}
    (hcurrent : currentOf opened closes k log = some entries) (hopened : opened x = none)
    (hcloses : closes k x = false) (hothers : ∀ k', k' ≠ k → items k' x = []) :
    ((sessions opened closes log).flatMap fun c =>
        (c.extend opened closes x).items items).Perm
      ((sessions opened closes log).flatMap (Session.items items) ++ items k x) := by
  let p : Session κ o → Bool := fun c => decide (c.isOpen = true ∧ c.key = k)
  let others := (sessions opened closes log).filter (!p ·)
  have hone : (sessions opened closes log).filter p = [⟨k, entries, true⟩] := by
    rw [filter_sessions, hcurrent]
    rfl
  -- the session that is open for the key, and the others
  have hsplit : (sessions opened closes log).Perm (⟨k, entries, true⟩ :: others) := by
    have h := (List.filter_append_perm p (sessions opened closes log)).symm
    rwa [hone, List.singleton_append] at h
  have hrest : ∀ c ∈ others, (c.extend opened closes x).items items = c.items items := by
    intro c hc
    have hp : ¬ (c.isOpen = true ∧ c.key = k) := by
      simpa only [p, Bool.not_eq_true', decide_eq_false_iff_not] using (List.mem_filter.mp hc).2
    exact items_extend_of_nil fun hopen => hothers c.key fun hk => hp ⟨hopen, hk⟩
  have hextended : (Session.extend opened closes x ⟨k, entries, true⟩).items items =
      entries.flatMap (items k) ++ items k x := by
    simp [Session.extend, Session.items, hopened, hcloses]
  have hbefore : ((sessions opened closes log).flatMap (Session.items items)).Perm
      (entries.flatMap (items k) ++ others.flatMap (Session.items items)) :=
    hsplit.flatMap_right (Session.items items)
  have hafter := hsplit.flatMap_right fun c => (c.extend opened closes x).items items
  rw [List.flatMap_cons, hextended, List.flatMap_congr hrest, List.append_assoc] at hafter
  have hmove : (entries.flatMap (items k) ++ (items k x ++
        others.flatMap (Session.items items))).Perm
      (entries.flatMap (items k) ++ others.flatMap (Session.items items) ++ items k x) := by
    rw [List.append_assoc]
    exact List.perm_append_comm.append_left _
  exact (hafter.trans hmove).trans (hbefore.symm.append_right _)

/-- **The items of a log are those of its sessions.** -/
theorem Attributed.perm (h : Attributed opened closes items all log) :
    (log.flatMap all).Perm ((sessions opened closes log).flatMap (Session.items items)) := by
  induction log using List.reverseRecOn with
  | nil => rfl
  | append_singleton log x ih =>
    have hlog := ih (h.of_prefix (List.prefix_append log [x]))
    rw [List.flatMap_append, List.flatMap_singleton, sessions_append_singleton,
      List.flatMap_append, flatMap_opening, List.append_nil]
    rcases h log x List.prefix_rfl with
      ⟨hall, hnone⟩ | ⟨k, entries, hcurrent, hopened, hcloses, hall, hothers⟩
    · rw [hall, List.append_nil, List.flatMap_map]
      rwa [List.flatMap_congr fun c _ => items_extend_of_nil fun _ => hnone c.key]
    · rw [← hall, List.flatMap_map]
      exact (hlog.append_right _).trans
        (perm_items_extend hcurrent hopened hcloses hothers).symm

/-- The items of a session come in the log in this order. -/
theorem Attributed.sublist (h : Attributed opened closes items all log) {c : Session κ o}
    (hc : c ∈ sessions opened closes log) : (c.items items).Sublist (log.flatMap all) := by
  have hentries := entries_sublist hc
  have hpointwise : (c.entries.flatMap (items c.key)).Sublist (c.entries.flatMap all) :=
    List.Sublist.flatMap_right _ fun x hx => h.items_sublist (hentries.subset hx) c.key
  exact hpointwise.trans (hentries.flatMap all)

/-- The items of the sessions that have a property. -/
def filteredItems (items : κ → o → List β) (p : β → Bool) (cs : List (Session κ o)) :
    List (List β) :=
  cs.map fun c => (c.items items).filter p

/-- Items of which only one session has any come in the log as in that session. -/
theorem Attributed.filter_eq (h : Attributed opened closes items all log) {p : β → Bool}
    (honly : (filteredItems items p (sessions opened closes log)).Pairwise
      fun a b => a = [] ∨ b = []) :
    (log.flatMap all).filter p =
      (filteredItems items p (sessions opened closes log)).flatten := by
  have hperm : ((log.flatMap all).filter p).Perm
      (filteredItems items p (sessions opened closes log)).flatten := by
    have hitems := h.perm.filter p
    rwa [List.filter_flatMap (g := Session.items items), List.flatMap_def] at hitems
  by_cases hall : ∀ l ∈ filteredItems items p (sessions opened closes log), l = []
  · rw [List.flatten_eq_nil_iff.mpr hall] at hperm ⊢
    exact hperm.eq_nil
  · push Not at hall
    obtain ⟨l, hl, hne⟩ := hall
    have hflatten := flatten_eq_of_mem honly hl hne
    obtain ⟨c, hc, rfl⟩ := List.mem_map.mp hl
    rw [hflatten] at hperm ⊢
    exact (((h.sublist hc).filter p).eq_of_length hperm.length_eq.symm).symm

/-! ## Two logs with the same sessions -/

section Interleavings

variable {log' : List o} (h : Attributed opened closes items all log)
  (h' : Attributed opened closes items all log')
  (hsame : ((sessions opened closes log).map (Session.items items)).Perm
    ((sessions opened closes log').map (Session.items items)))
include h h' hsame

/-- **Interleavings of the same sessions** have the same items. -/
theorem perm_of_sessions : (log.flatMap all).Perm (log'.flatMap all) := by
  have hitems := hsame.flatten
  rw [← List.flatMap_def, ← List.flatMap_def] at hitems
  exact (h.perm.trans hitems).trans h'.perm.symm

/-- **Items of one session keep their order** in every interleaving. -/
theorem filter_eq_of_sessions {p : β → Bool}
    (honly : (filteredItems items p (sessions opened closes log)).Pairwise
      fun a b => a = [] ∨ b = []) :
    (log.flatMap all).filter p = (log'.flatMap all).filter p := by
  have hfiltered : (filteredItems items p (sessions opened closes log)).Perm
      (filteredItems items p (sessions opened closes log')) := by
    have hmap := hsame.map (List.filter p)
    rwa [List.map_map, List.map_map] at hmap
  rw [h.filter_eq honly, h'.filter_eq (hfiltered.pairwise honly Or.symm),
    flatten_eq_of_perm hfiltered honly]

end Interleavings

end Machine
end RemoteDeviceConsole
