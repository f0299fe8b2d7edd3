import RemoteDeviceConsole.Viewer.DeviceViews

/-!
# The ages in the table

The state and the age that the table shows of a device change with two timers: the flush writes
the row of a device as new, the age timer rewrites both cells and their colour from the time of
the last flush.  `AgeBoard` is this without rows, items or texts: when each device was last
flushed, and which age of it is shown.

`ages_agree` says that in every state each row is, cell by cell and with its colours, that of the
last status of its device that was flushed, at the age that the board has for it: grey and
`STALE` exactly above 5 seconds.

## What the two timers have to do with each other

The age timer knows nothing of the cells that it does not write, and the flush nothing of the
ages: each writes a part of a row and relies on the other part.  `RowShows` is what they keep
together, the state and the age in the colour of the age and the other cells dark.  The hard
step is the loop of the age timer (`TableKept.rows_foldl_refreshRow`).  It visits the rows in the
order of the hash map and reads each from the info of its device, so what is shown of a device is
right before the loop has come to it for the old age and afterwards for the new one, and no round
for another device may touch its row.  That is `TableKept.injective`: two devices never have the
same row.

A status that has arrived and was not flushed shows nowhere.  Therefore the row is compared with
the flushed part of the events, not with all of them.
-/

namespace RemoteDeviceConsole

open ItemModel Machine

variable {D M Q : Type} [ItemModel M Q] [QtTexts D Q] [DecidableEq Q]

/-! ## Items -/

/-- The foreground that `set_model_text` sets. -/
def foreground (stale : Bool) : QColor := if stale then ⟨108, 117, 125⟩ else ⟨32, 33, 36⟩

section Items

variable [LawfulItemModel M Q] {model : M} {row : ℤ} {stale : Bool} {cells : List (ℤ × Q)}

/-- `set_model_text` sets the text and the foreground of one cell. -/
theorem item_setModelText (hrow : 0 ≤ row ∧ row < rowCount model) {column : ℤ}
    (hcolumn : 0 ≤ column) (text : Q) (stale : Bool) (row' column' : ℤ) :
    item (setModelText model row column text stale) row' column' =
      if row' = row ∧ column' = column then some ⟨text, some (foreground stale)⟩
      else item model row' column' := by
  have hcolour : (if stale then some (⟨108, 117, 125⟩ : QColor) else some ⟨32, 33, 36⟩) =
      some (foreground stale) := by
    cases stale <;> rfl
  rw [setModelText, LawfulItemModel.item_setItem _ _ _ _ _ _ hrow.1 hrow.2 hcolumn, hcolour]
  split
  · split
    · rfl
    · next hsame => rw [Decidable.not_not.mp hsame]
  · rfl

/-- Cells of other rows and of other columns stay. -/
theorem item_setCells_of_notMem (hrow : 0 ≤ row ∧ row < rowCount model)
    (hcells : ∀ cell ∈ cells, 0 ≤ cell.1) {row' column' : ℤ}
    (h : row' ≠ row ∨ column' ∉ cells.map Prod.fst) :
    item (setCells row stale model cells) row' column' = item model row' column' := by
  induction cells generalizing model with
  | nil => rfl
  | cons cell cells ih =>
    rw [List.forall_mem_cons] at hcells
    have hcount := rowCount_setModelText hrow hcells.1 cell.2 stale
    rw [List.map_cons, List.mem_cons, not_or] at h
    have hother : ¬ (row' = row ∧ column' = cell.1) := by
      rintro ⟨hr, hc⟩
      exact h.elim (fun h => h hr) fun h => h.1 hc
    show item (setCells row stale (setModelText model row cell.1 cell.2 stale) cells) _ _ = _
    rw [ih (by rwa [hcount]) hcells.2 (h.imp_right And.right), item_setModelText hrow hcells.1,
      if_neg hother]

/-- The cells that are written. -/
theorem item_setCells_of_mem (hrow : 0 ≤ row ∧ row < rowCount model)
    (hcells : ∀ cell ∈ cells, 0 ≤ cell.1) (hnodup : (cells.map Prod.fst).Nodup) {column : ℤ}
    {text : Q} (h : (column, text) ∈ cells) :
    item (setCells row stale model cells) row column = some ⟨text, some (foreground stale)⟩ := by
  induction cells generalizing model with
  | nil => exact absurd h (by simp)
  | cons cell cells ih =>
    rw [List.forall_mem_cons] at hcells
    rw [List.map_cons, List.nodup_cons] at hnodup
    have hcount := rowCount_setModelText hrow hcells.1 cell.2 stale
    have hrow' : 0 ≤ row ∧ row < rowCount (setModelText model row cell.1 cell.2 stale) := by
      rwa [hcount]
    show item (setCells row stale (setModelText model row cell.1 cell.2 stale) cells) _ _ = _
    rcases List.mem_cons.mp h with rfl | h
    · rw [item_setCells_of_notMem hrow' hcells.2 (Or.inr hnodup.1),
        item_setModelText hrow hcells.1, if_pos ⟨rfl, rfl⟩]
    · exact ih hrow' hcells.2 hnodup.2 h

end Items

/-! ## Rows -/

/-- The row shows the status at this age: the state and the age in the colour of the age, the
other cells dark. -/
structure RowShows (model : M) (row : ℤ) (status : DeviceStatus D) (age : ℤ) : Prop where
  steady : ∀ cell ∈ (statusCells status : List (ℤ × Q)), cell.1 ≠ 1 → cell.1 ≠ 6 →
    item model row cell.1 = some ⟨cell.2, some (foreground false)⟩
  state : item model row 1 =
    some ⟨displayState status age, some (foreground (decide (age > kTableStaleMs)))⟩
  age : item model row 6 =
    some ⟨ageText age, some (foreground (decide (age > kTableStaleMs)))⟩

/-- Two models have the same items in a row. -/
def SameRow (model model' : M) (row : ℤ) : Prop :=
  ∀ column, item model' row column = item model row column

section Rows

variable {model model' : M} {row : ℤ} {status : DeviceStatus D} {age : ℤ}

omit [DecidableEq Q] in
theorem RowShows.of_sameRow (h : RowShows model row status age) (hsame : SameRow model model' row) :
    RowShows model' row status age where
  steady cell hcell h1 h6 := by rw [hsame, h.steady cell hcell h1 h6]
  state := by rw [hsame, h.state]
  age := by rw [hsame, h.age]

variable [LawfulItemModel M Q]

/-- A row that is written is shown as new. -/
theorem rowShows_setCells (hrow : 0 ≤ row ∧ row < rowCount model) :
    RowShows (setCells row false model (statusCells status)) row status 0 := by
  have hnodup : ((statusCells status : List (ℤ × Q)).map Prod.fst).Nodup := by
    rw [statusCells_columns]
    decide
  have hmem : ∀ {column : ℤ} {text : Q}, (column, text) ∈ statusCells status →
      item (setCells row false model (statusCells status)) row column =
        some ⟨text, some (foreground false)⟩ :=
    fun h => item_setCells_of_mem hrow (nonneg_statusCells status) hnodup h
  exact ⟨fun cell hcell _ _ => hmem hcell, hmem (by simp [statusCells]),
    hmem (by simp [statusCells])⟩

/-- The age timer rewrites the row at its age. -/
theorem RowShows.refreshRow {info : TableDeviceInfo D} (h : RowShows model info.row info.status age)
    (hrow : 0 ≤ info.row ∧ info.row < rowCount model) (currentMs : ℤ) :
    RowShows (refreshRow currentMs model info) info.row info.status
      (currentMs - info.lastSeenMs) := by
  have hcells : RemoteDeviceConsole.refreshRow currentMs model info = setCells info.row
      (decide (currentMs - info.lastSeenMs > kTableStaleMs)) model
      [(1, displayState info.status (currentMs - info.lastSeenMs)),
        (6, ageText (currentMs - info.lastSeenMs))] := rfl
  rw [hcells]
  refine ⟨fun cell hcell h1 h6 => ?_, ?_, ?_⟩
  · rw [item_setCells_of_notMem hrow (by simp) (Or.inr (by simp [h1, h6]))]
    exact h.steady cell hcell h1 h6
  · exact item_setCells_of_mem hrow (by simp) (by simp) (by simp)
  · exact item_setCells_of_mem hrow (by simp) (by simp) (by simp)

/-- The age timer leaves the other rows. -/
theorem sameRow_refreshRow {info : TableDeviceInfo D}
    (hrow : 0 ≤ info.row ∧ info.row < rowCount model) (hother : row ≠ info.row) (currentMs : ℤ) :
    SameRow model (refreshRow currentMs model info) row := by
  intro column
  have hcells : ∀ cell ∈ [((1 : ℤ), (displayState info.status (currentMs - info.lastSeenMs) : Q)),
      (6, ageText (currentMs - info.lastSeenMs))], 0 ≤ cell.1 := by simp
  exact item_setCells_of_notMem hrow hcells (Or.inl hother)

end Rows

/-! ## Loops over rows -/

section Loops

variable [LawfulItemModel M Q] {model : M}
  {tableDevices : Finmap fun _ : Bytes => TableDeviceInfo D}

/-- The loop of the age timer brings each row to its age. -/
theorem TableKept.rows_foldl_refreshRow (h : TableKept model tableDevices)
    {infos : List (TableDeviceInfo D)}
    (hinfos : ∀ info ∈ infos, ∃ id, tableDevices.lookup id = some info) (currentMs : ℤ) {id : Bytes}
    {info : TableDeviceInfo D} (hinfo : tableDevices.lookup id = some info) {age : ℤ}
    (hshows : RowShows model info.row info.status age)
    (hin : info ∈ infos ∨ age = currentMs - info.lastSeenMs) :
    RowShows (infos.foldl (RemoteDeviceConsole.refreshRow currentMs) model) info.row info.status
      (currentMs - info.lastSeenMs) := by
  induction infos generalizing model age with
  | nil =>
    have hage := hin.resolve_left (by simp)
    exact hage ▸ hshows
  | cons other infos ih =>
    rw [List.forall_mem_cons] at hinfos
    obtain ⟨⟨id', hother⟩, hinfos⟩ := hinfos
    obtain ⟨hkept, -⟩ := h.refreshRow (h.row id' other hother) currentMs
    rw [List.foldl_cons]
    by_cases hrow : info.row = other.row
    · -- it is the row of the device itself
      obtain rfl := h.injective _ _ _ _ hinfo hother hrow
      obtain rfl : info = other := Option.some.inj (hinfo.symm.trans hother)
      exact ih hkept hinfos (hshows.refreshRow (h.row _ _ hinfo) currentMs) (Or.inr rfl)
    · have hne : info ≠ other := fun heq => hrow (heq ▸ rfl)
      have hsame := sameRow_refreshRow (h.row id' other hother) hrow currentMs
      refine ih hkept hinfos (hshows.of_sameRow hsame) (hin.imp_left fun hmem => ?_)
      exact (List.mem_cons.mp hmem).resolve_left hne

variable [CharconvDouble D]

/-- `set_device_row` writes the row of the device as new and leaves the others. -/
theorem TableKept.rows_setDeviceRow (h : TableKept model tableDevices) (status : DeviceStatus D)
    (seenMs : ℤ) {id : Bytes} {info : TableDeviceInfo D}
    (hinfo : (RemoteDeviceConsole.setDeviceRow seenMs (model, tableDevices) status).2.lookup id =
      some info) :
    id = status.deviceId ∧ info.status = status ∧ info.lastSeenMs = seenMs ∧
      RowShows (RemoteDeviceConsole.setDeviceRow seenMs (model, tableDevices) status).1 info.row
        status 0 ∨
    id ≠ status.deviceId ∧ tableDevices.lookup id = some info ∧
      SameRow model (RemoteDeviceConsole.setDeviceRow seenMs (model, tableDevices) status).1
        info.row := by
  rcases setDeviceRow_cases h status seenMs with ⟨old, hlookup, heq⟩ | ⟨hnone, heq⟩
  · -- the device has a row
    rw [heq] at hinfo ⊢
    have hrow := h.row _ old hlookup
    by_cases hid : id = status.deviceId
    · subst hid
      rw [Finmap.lookup_insert, Option.some.injEq] at hinfo
      subst hinfo
      exact Or.inl ⟨rfl, rfl, rfl, rowShows_setCells hrow⟩
    · rw [Finmap.lookup_insert_of_ne _ hid] at hinfo
      refine Or.inr ⟨hid, hinfo, fun column => ?_⟩
      exact item_setCells_of_notMem hrow (nonneg_statusCells status)
        (Or.inl fun hsame => hid (h.injective _ _ _ _ hinfo hlookup hsame))
  · -- it gets the row behind the last one
    have hcount : rowCount (insertRow model (rowCount model)) = rowCount model + 1 :=
      LawfulItemModel.rowCount_insertRow model
    have hnonneg := h.nonneg
    have hrow : 0 ≤ rowCount model ∧ rowCount model < rowCount (insertRow model (rowCount model)) :=
      ⟨hnonneg, by omega⟩
    rw [heq] at hinfo ⊢
    by_cases hid : id = status.deviceId
    · subst hid
      rw [Finmap.lookup_insert, Option.some.injEq] at hinfo
      subst hinfo
      exact Or.inl ⟨rfl, rfl, rfl, rowShows_setCells hrow⟩
    · rw [Finmap.lookup_insert_of_ne _ hid] at hinfo
      have hold := h.row id info hinfo
      refine Or.inr ⟨hid, hinfo, fun column => ?_⟩
      have hother : info.row ≠ rowCount model := by omega
      exact (item_setCells_of_notMem hrow (nonneg_statusCells status) (Or.inl hother)).trans
        (LawfulItemModel.item_insertRow _ _ _ hold.1 hold.2)

/-- The loop of the flush: the devices it comes to are shown as new, the others stay. -/
theorem TableKept.rows_foldl_setDeviceRow (h : TableKept model tableDevices)
    (statuses : List (DeviceStatus D)) (seenMs : ℤ) {id : Bytes} {info : TableDeviceInfo D}
    (hinfo : (statuses.foldl (RemoteDeviceConsole.setDeviceRow seenMs)
      (model, tableDevices)).2.lookup id = some info) :
    id ∈ statuses.map DeviceStatus.deviceId ∧ info.lastSeenMs = seenMs ∧
      RowShows (statuses.foldl (RemoteDeviceConsole.setDeviceRow seenMs) (model, tableDevices)).1
        info.row info.status 0 ∨
    id ∉ statuses.map DeviceStatus.deviceId ∧ tableDevices.lookup id = some info ∧
      SameRow model (statuses.foldl (RemoteDeviceConsole.setDeviceRow seenMs)
        (model, tableDevices)).1 info.row := by
  induction statuses using List.reverseRecOn generalizing info with
  | nil => exact Or.inr ⟨by simp, hinfo, fun _ => rfl⟩
  | append_singleton statuses status ih =>
    obtain ⟨hkept, -⟩ := h.foldl_setDeviceRow statuses seenMs
    rw [List.foldl_append, List.foldl_cons, List.foldl_nil] at hinfo ⊢
    rw [List.map_append, List.map_singleton, List.mem_append, List.mem_singleton]
    rcases hkept.rows_setDeviceRow status seenMs hinfo with
      ⟨rfl, rfl, hseen, hshows⟩ | ⟨hid, hold, hsame⟩
    · exact Or.inl ⟨Or.inr rfl, hseen, hshows⟩
    · rcases ih hold with ⟨hmem, hseen, hshows⟩ | ⟨hnotMem, hbefore, hstay⟩
      · exact Or.inl ⟨Or.inl hmem, hseen, hshows.of_sameRow hsame⟩
      · refine Or.inr ⟨not_or.mpr ⟨hnotMem, hid⟩, hbefore, fun column => ?_⟩
        exact (hsame column).trans (hstay column)

end Loops

/-! ## The board -/

/-- When each device of the table was last flushed, and which age of it is shown; and the
devices that wait for the next flush. -/
structure AgeBoard where
  pending : Finset Bytes
  lastSeenMs : Bytes → Option ℤ
  age : Bytes → Option ℤ

namespace AgeBoard

/-- One event. -/
def handle (b : AgeBoard) : DeviceEvent D → AgeBoard
  | .statusReceived status => { b with pending := insert status.deviceId b.pending }
  | .flush _ tableMs _ =>
      { pending := ∅
        lastSeenMs := fun id => if id ∈ b.pending then some tableMs else b.lastSeenMs id
        age := fun id => if id ∈ b.pending then some 0 else b.age id }
  | .refreshAges _ currentMs =>
      { b with age := fun id => (b.lastSeenMs id).map fun lastSeenMs => currentMs - lastSeenMs }

def start : AgeBoard := ⟨∅, fun _ => none, fun _ => none⟩

def run (events : List (DeviceEvent D)) : AgeBoard := events.foldl handle start

omit [DecidableEq Q] [QtTexts D Q] in
theorem run_append_singleton (events : List (DeviceEvent D)) (event : DeviceEvent D) :
    run (events ++ [event]) = (run events).handle event := by
  rw [run, List.foldl_append]
  rfl

end AgeBoard

namespace DeviceViews

/-- The board knows the devices of the table, and each row is the one of the age it has. -/
structure Aged (v : DeviceViews D M) (b : AgeBoard) : Prop where
  pending : ∀ id, id ∈ b.pending ↔ id ∈ v.pendingStatuses
  known : ∀ id info, v.tableDevices.lookup id = some info → b.lastSeenMs id = some info.lastSeenMs ∧
    ∃ age, b.age id = some age ∧ RowShows v.model info.row info.status age
  unknown : ∀ id, v.tableDevices.lookup id = none → b.lastSeenMs id = none ∧ b.age id = none

variable [CharconvDouble D] [LawfulItemModel M Q] {v : DeviceViews D M} {b : AgeBoard}

/-- A flush: the devices that were pending are shown as new. -/
theorem Aged.flush (h : v.Aged b) (hkept : v.Kept) (order : IterationOrder Bytes)
    (tableMs mapMs : ℤ) :
    (v.handle (.flush order tableMs mapMs)).Aged
      (b.handle (.flush order tableMs mapMs : DeviceEvent D)) := by
  rw [DeviceViews.handle]
  split
  · next hempty =>
    -- nothing is pending, on the board neither
    have hnone : ∀ id, id ∉ b.pending := fun id hid => by
      rw [h.pending, ← Finmap.mem_keys, hempty] at hid
      exact absurd hid (Finset.notMem_empty id)
    refine ⟨fun id => ?_, fun id info hinfo => ?_, fun id hid => ?_⟩
    · rw [← h.pending]
      simp [AgeBoard.handle, hnone id]
    · simpa [AgeBoard.handle, hnone id] using h.known id info hinfo
    · simpa [AgeBoard.handle, hnone id] using h.unknown id hid
  · have hmem : ∀ id, id ∈ (valuesIn order v.pendingStatuses).map DeviceStatus.deviceId ↔
        id ∈ b.pending := by
      intro id
      rw [h.pending, List.mem_map]
      constructor
      · rintro ⟨status, hstatus, rfl⟩
        obtain ⟨key, hkey⟩ := mem_valuesIn.mp hstatus
        rw [hkept.pending key status hkey]
        exact Finmap.mem_of_lookup_eq_some hkey
      · intro hid
        obtain ⟨status, hstatus⟩ := Finmap.mem_iff.mp hid
        exact ⟨status, mem_valuesIn.mpr ⟨id, hstatus⟩, hkept.pending id status hstatus⟩
    have hshown := (hkept.table.foldl_setDeviceRow (valuesIn order v.pendingStatuses) tableMs).2.2
    refine ⟨fun id => ?_, fun id info hinfo => ?_, fun id hid => ?_⟩
    · exact ⟨fun hid => absurd hid (Finset.notMem_empty id),
        fun hid => absurd hid Finmap.notMem_empty⟩
    · rcases hkept.table.rows_foldl_setDeviceRow _ tableMs hinfo with
        ⟨hid, hseen, hshows⟩ | ⟨hid, hold, hsame⟩
      · rw [hmem] at hid
        simp only [AgeBoard.handle, hid, if_true, hseen]
        exact ⟨trivial, 0, rfl, hshows⟩
      · rw [hmem] at hid
        obtain ⟨hseen, age, hage, hshows⟩ := h.known id info hold
        simp only [AgeBoard.handle, hid, if_false]
        exact ⟨hseen, age, hage, hshows.of_sameRow hsame⟩
    · -- a device that is not in the table was not in it before, nor pending
      have hnone : shownIn ((valuesIn order v.pendingStatuses).foldl (setDeviceRow tableMs)
          (v.model, v.tableDevices)).2 id = none := by
        rw [shownIn]
        exact Option.map_eq_none_iff.mpr hid
      rw [hshown, foldl_write_eq, overlay, Option.or_eq_none_iff] at hnone
      have hpending : id ∉ b.pending := by
        intro hmem'
        rw [← hmem] at hmem'
        have hsome := isSome_lastOf.mpr hmem'
        rw [hnone.1] at hsome
        exact absurd hsome (by simp)
      have hold := h.unknown id (Option.map_eq_none_iff.mp hnone.2)
      simpa [AgeBoard.handle, hpending] using hold

/-- **One event.** -/
theorem Aged.handle (h : v.Aged b) (hkept : v.Kept) (event : DeviceEvent D) :
    (v.handle event).Aged (b.handle event) := by
  cases event with
  | statusReceived status =>
    refine ⟨fun id => ?_, h.known, h.unknown⟩
    show id ∈ insert status.deviceId b.pending ↔
      id ∈ v.pendingStatuses.insert status.deviceId status
    rw [Finset.mem_insert, Finmap.mem_insert, h.pending]
  | flush order tableMs mapMs => exact h.flush hkept order tableMs mapMs
  | refreshAges order currentMs =>
    refine ⟨h.pending, fun id info hinfo => ?_, fun id hid => ?_⟩
    · obtain ⟨hseen, age, -, hshows⟩ := h.known id info hinfo
      refine ⟨hseen, currentMs - info.lastSeenMs, ?_, ?_⟩
      · show (b.lastSeenMs id).map _ = _
        rw [hseen]
        rfl
      · exact hkept.table.rows_foldl_refreshRow (fun other hother => mem_valuesIn.mp hother)
          currentMs hinfo hshows (Or.inl (mem_valuesIn.mpr ⟨id, hinfo⟩))
    · obtain ⟨hseen, -⟩ := h.unknown id hid
      refine ⟨hseen, ?_⟩
      show (b.lastSeenMs id).map _ = none
      rw [hseen]
      rfl

theorem aged_run (events : List (DeviceEvent D)) :
    (run events : DeviceViews D M).Aged (AgeBoard.run events) := by
  induction events using List.reverseRecOn with
  | nil =>
    refine ⟨fun id => ?_, fun id info hinfo => ?_, fun id _ => ⟨rfl, rfl⟩⟩
    · exact ⟨fun hid => absurd hid (Finset.notMem_empty id),
        fun hid => absurd hid Finmap.notMem_empty⟩
    · exact absurd hinfo (by simp [run, start])
  | append_singleton events event ih =>
    rw [run_append_singleton, AgeBoard.run_append_singleton]
    exact ih.handle (kept_run events).1 event

/-- **The table shows the ages of the board.**  After any events the rows of the table are those
of the devices of which a status was flushed, and each is, cell by cell, the one of the last
status of its device that was flushed, at the age that the board has for the device: the state
`STALE` and grey exactly above 5 seconds, the other cells dark.  When the age timer has just run,
this is the time since the device was last flushed. -/
theorem ages_agree (events : List (DeviceEvent D)) :
    (∀ id, ((run events : DeviceViews D M).tableDevices.lookup id).map TableDeviceInfo.status =
      lastOf DeviceStatus.deviceId id (flushed events)) ∧
    (∀ id info, (run events : DeviceViews D M).tableDevices.lookup id = some info →
      lastOf DeviceStatus.deviceId id (flushed events) = some info.status ∧
      ∃ age, (AgeBoard.run events).age id = some age ∧
        RowShows (run events : DeviceViews D M).model info.row info.status age) ∧
    ∀ order currentMs id info,
      (run (events ++ [.refreshAges order currentMs]) : DeviceViews D M).tableDevices.lookup id =
        some info →
      lastOf DeviceStatus.deviceId id (flushed events) = some info.status ∧
      (AgeBoard.run events).lastSeenMs id = some info.lastSeenMs ∧
      RowShows (run (events ++ [.refreshAges order currentMs]) : DeviceViews D M).model info.row
        info.status (currentMs - info.lastSeenMs) := by
  have hshown : ∀ events : List (DeviceEvent D), ∀ id,
      ((run events : DeviceViews D M).tableDevices.lookup id).map TableDeviceInfo.status =
        lastOf DeviceStatus.deviceId id (flushed events) :=
    fun events id => congrFun (shownIn_run (M := M) events) id
  refine ⟨hshown events, fun id info hinfo => ⟨?_, ((aged_run events).known id info hinfo).2⟩, ?_⟩
  · rw [← hshown, hinfo]
    rfl
  intro order currentMs id info hinfo
  have hlast := hshown (events ++ [.refreshAges order currentMs]) id
  rw [hinfo, flushed_append_of_not rfl] at hlast
  obtain ⟨hseen, age, hage, hshows⟩ :=
    (aged_run (events ++ [.refreshAges order currentMs])).known id info hinfo
  rw [AgeBoard.run_append_singleton] at hseen hage
  have hsame : (AgeBoard.run events).lastSeenMs id = some info.lastSeenMs := hseen
  have heq : some (currentMs - info.lastSeenMs) = some age := by
    rw [← hage]
    show _ = ((AgeBoard.run events).lastSeenMs id).map _
    rw [hsame]
    rfl
  rw [Option.some.inj heq]
  exact ⟨hlast.symm, hsame, hshows⟩

/-- Two devices, of which the second reports again and waits for a flush when the age timer runs:
its row is grey and has its old battery, while the first, which was flushed again, is dark. -/
theorem ages_agree_stale :
    let first : DeviceStatus ℤ := ⟨[97], [79, 75], 50, 1, 2, 3, 1, 0, false⟩
    let second : DeviceStatus ℤ := ⟨[98], [79, 75], 60, 4, 5, 6, 1, 0, false⟩
    let waiting : DeviceStatus ℤ := ⟨[98], [79, 75], 59, 4, 5, 6, 2, 0, false⟩
    ∃ (order : IterationOrder Bytes) (fresh stale : TableDeviceInfo ℤ),
      let v : DeviceViews ℤ (GridModel Bytes) := run ([.statusReceived first,
        .statusReceived second, .flush order 100 100, .statusReceived first,
        .flush order 5000 5000, .statusReceived waiting] ++ [.refreshAges order 6100])
      v.tableDevices.lookup [97] = some fresh ∧ fresh.status = first ∧
        item v.model fresh.row 1 = some ⟨Framing.ascii "OK", some ⟨32, 33, 36⟩⟩ ∧
      v.tableDevices.lookup [98] = some stale ∧ stale.status = second ∧
        item v.model stale.row 1 = some ⟨Framing.ascii "STALE", some ⟨108, 117, 125⟩⟩ := by
  intro first second waiting
  let order : IterationOrder Bytes := ⟨Finset.toList, Finset.coe_toList⟩
  let events : List (DeviceEvent ℤ) := [.statusReceived first, .statusReceived second,
    .flush order 100 100, .statusReceived first, .flush order 5000 5000, .statusReceived waiting]
  have hrow : ∀ id status, lastOf DeviceStatus.deviceId id (flushed events) = some status →
      ∃ info : TableDeviceInfo ℤ, (run (events ++ [.refreshAges order 6100]) :
        DeviceViews ℤ (GridModel Bytes)).tableDevices.lookup id = some info ∧
        info.status = status := by
    intro id status hlast
    have hshown := (ages_agree (M := GridModel Bytes)
      (events ++ [.refreshAges order 6100])).1 id
    rw [flushed_append_of_not rfl, hlast] at hshown
    exact Option.map_eq_some_iff.mp hshown
  have hflushed : flushed events = [first, second, first] := rfl
  obtain ⟨fresh, hfresh, hfirst⟩ := hrow [97] first (by rw [hflushed]; decide)
  obtain ⟨stale, hstale, hsecond⟩ := hrow [98] second (by rw [hflushed]; decide)
  have hages := (ages_agree (M := GridModel Bytes) events).2.2 order 6100
  obtain ⟨-, hseen, hshows⟩ := hages [97] fresh hfresh
  obtain ⟨-, hseen', hshows'⟩ := hages [98] stale hstale
  have hms : fresh.lastSeenMs = 5000 := (Option.some.inj hseen).symm
  have hms' : stale.lastSeenMs = 100 := (Option.some.inj hseen').symm
  refine ⟨order, fresh, stale, hfresh, hfirst, ?_, hstale, hsecond, ?_⟩
  · rw [hshows.state, hms, hfirst]
    rfl
  · rw [hshows'.state, hms']
    rfl

end DeviceViews

end RemoteDeviceConsole
