import RemoteDeviceConsole.Machine.LastWrite
import RemoteDeviceConsole.Server.Kernel
import RemoteDeviceConsole.Viewer.ItemModel
import Mathlib.Data.Finmap
import Mathlib.Data.List.DropRight

/-!
# The table and the map of the viewer

The lambdas of the viewer's `main` that show devices.  A status goes to `pending_statuses`
first, where a later one replaces it.  The flush timer brings what is pending to the table
and to the fleet map, and the age timer redraws the ages.  The loops over hash maps visit
the keys in any order, which each event has for itself.

## One handler after another

`DeviceViews.handle` takes the handlers one after another, each to its end.  In the source this
is the case of the flush and of the age timer, which run in the UI thread.  The lambda of
`statusReceived` is connected without a context object, so it runs in the thread of the worker
that emits the signal, and nothing keeps it apart from a flush that runs at the same time: a
status that is written to `pending_statuses` between the loop that copies them and `clear()`
is lost.  What is proved here of events in any order says nothing of two handlers that overlap.

## What is proved

* `TableKept` is the invariant of the table: rows are numbered without gap, each row belongs
  to one device, and its cells show the status of the device.
* `Kept.handle` reads the three maps as a buffer in front of a table, so that
  `Machine.Buffered` says what is shown.
-/

namespace RemoteDeviceConsole

open Machine ItemModel

/-! ## State -/

/-- `TableDeviceInfo`. -/
structure TableDeviceInfo (D : Type) where
  row : ℤ := -1
  status : DeviceStatus D
  lastSeenMs : ℤ := 0

/-- `FleetMapWidget::DeviceSnapshot`. -/
structure DeviceSnapshot (D : Type) where
  status : DeviceStatus D
  lastSeenMs : ℤ

/-- What the viewer's `main` keeps about devices. -/
structure DeviceViews (D M : Type) where
  pendingStatuses : Finmap fun _ : Bytes => DeviceStatus D
  tableDevices : Finmap fun _ : Bytes => TableDeviceInfo D
  model : M
  devicesById : Finmap fun _ : Bytes => DeviceSnapshot D

/-- The events of the UI thread that show devices.  The clock is read once for the table and
once for the map. -/
inductive DeviceEvent (D : Type) where
  | statusReceived (status : DeviceStatus D)
  | flush (order : IterationOrder Bytes) (tableMs mapMs : ℤ)
  | refreshAges (order : IterationOrder Bytes) (currentMs : ℤ)

def DeviceEvent.isFlush {D : Type} : DeviceEvent D → Bool
  | .flush _ _ _ => true
  | _ => false

variable {D M Q : Type} [ItemModel M Q] [QtTexts D Q]

/-! ## Cells of one row -/

/-- The cells that `set_device_row` writes. -/
def statusCells (status : DeviceStatus D) : List (ℤ × Q) :=
  [(0, QtTexts.fromStdString status.deviceId), (1, displayState status 0),
    (2, QtTexts.number status.batteryPercent), (3, QtTexts.numberFixed status.x),
    (4, QtTexts.numberFixed status.y), (5, QtTexts.numberFixed status.z), (6, ageText 0)]

/-- The cells of a row that show a status whatever its age is: id, battery and
coordinates. -/
structure ShowsStatus (model : M) (row : ℤ) (status : DeviceStatus D) : Prop where
  deviceId : textAt model row 0 = some (QtTexts.fromStdString status.deviceId : Q)
  battery : textAt model row 2 = some (QtTexts.number status.batteryPercent : Q)
  x : textAt model row 3 = some (QtTexts.numberFixed status.x : Q)
  y : textAt model row 4 = some (QtTexts.numberFixed status.y : Q)
  z : textAt model row 5 = some (QtTexts.numberFixed status.z : Q)

section Cells

variable {model : M} {row : ℤ} {stale : Bool} {status : DeviceStatus D}

theorem statusCells_columns (status : DeviceStatus D) :
    (statusCells status : List (ℤ × Q)).map Prod.fst = [0, 1, 2, 3, 4, 5, 6] := rfl

theorem nonneg_statusCells (status : DeviceStatus D) :
    ∀ cell ∈ (statusCells status : List (ℤ × Q)), 0 ≤ cell.1 := by
  simp [statusCells]

/-- The written row shows its status. -/
theorem showsStatus_setCells [DecidableEq Q] [LawfulItemModel M Q]
    (hrow : 0 ≤ row ∧ row < rowCount model) :
    ShowsStatus (setCells row stale model (statusCells status)) row status := by
  have hnodup : ((statusCells status : List (ℤ × Q)).map Prod.fst).Nodup := by
    rw [statusCells_columns]
    decide
  have hmem : ∀ {column : ℤ} {text : Q}, (column, text) ∈ statusCells status →
      textAt (setCells row stale model (statusCells status)) row column = some text :=
    fun h => textAt_setCells_of_mem hrow (nonneg_statusCells status) hnodup h
  constructor <;> exact hmem (by simp [statusCells])

/-- A row shows its status as long as its cells stay. -/
theorem ShowsStatus.of_eq {model' : M} (h : ShowsStatus model row status)
    (hsame : ∀ column ∈ [(0 : ℤ), 2, 3, 4, 5], textAt model' row column = textAt model row column) :
    ShowsStatus model' row status where
  deviceId := by rw [hsame 0 (by simp), h.deviceId]
  battery := by rw [hsame 2 (by simp), h.battery]
  x := by rw [hsame 3 (by simp), h.x]
  y := by rw [hsame 4 (by simp), h.y]
  z := by rw [hsame 5 (by simp), h.z]

end Cells

/-! ## Events -/

variable [CharconvDouble D] [DecidableEq Q]

/-- `set_device_row`. -/
def setDeviceRow (seenMs : ℤ) (views : M × Finmap fun _ : Bytes => TableDeviceInfo D)
    (status : DeviceStatus D) : M × Finmap fun _ : Bytes => TableDeviceInfo D :=
  let (model, tableDevices) := views
  let info := (tableDevices.lookup status.deviceId).getD { status := .default }
  let (model, row) :=
    if info.row < 0 then (insertRow model (rowCount model), rowCount model) else (model, info.row)
  let model := setModelText model row 0 (QtTexts.fromStdString status.deviceId) false
  let model := setModelText model row 1 (displayState status 0) false
  let model := setModelText model row 2 (QtTexts.number status.batteryPercent) false
  let model := setModelText model row 3 (QtTexts.numberFixed status.x) false
  let model := setModelText model row 4 (QtTexts.numberFixed status.y) false
  let model := setModelText model row 5 (QtTexts.numberFixed status.z) false
  let model := setModelText model row 6 (ageText 0) false
  (model, tableDevices.insert status.deviceId { row, status, lastSeenMs := seenMs })

/-- The body of the loop of `refresh_table_ages`. -/
def refreshRow (currentMs : ℤ) (model : M) (info : TableDeviceInfo D) : M :=
  let ageMs := currentMs - info.lastSeenMs
  let stale := decide (ageMs > kTableStaleMs)
  let model := setModelText model info.row 1 (displayState info.status ageMs) stale
  setModelText model info.row 6 (ageText ageMs) stale

/-- `FleetMapWidget::upsertDevices`, as far as the devices go. -/
def upsertDevices (seenMs : ℤ) (devicesById : Finmap fun _ : Bytes => DeviceSnapshot D)
    (statuses : List (DeviceStatus D)) : Finmap fun _ : Bytes => DeviceSnapshot D :=
  statuses.foldl
    (fun devicesById status =>
      devicesById.insert status.deviceId { status, lastSeenMs := seenMs }) devicesById

/-- The values of a hash map in the order of a loop. -/
def valuesIn {ν : Type} (order : IterationOrder Bytes) (map : Finmap fun _ : Bytes => ν) : List ν :=
  (order.toList map.keys).filterMap fun key => map.lookup key

omit [CharconvDouble D] in
/-- A new value for a device is a write to what the map shows. -/
theorem map_lookup_insert {ν : Type} (f : ν → DeviceStatus D) (map : Finmap fun _ : Bytes => ν)
    (value : ν) :
    (fun id => ((map.insert (f value).deviceId value).lookup id).map f) =
      write DeviceStatus.deviceId (fun id => (map.lookup id).map f) (f value) := by
  funext id
  by_cases hid : id = (f value).deviceId
  · subst hid
    rw [write_self, Finmap.lookup_insert]
    rfl
  · rw [write_of_ne hid, Finmap.lookup_insert_of_ne _ hid]

namespace DeviceViews

/-- One event, its handler run to the end before the next one starts. -/
def handle (v : DeviceViews D M) : DeviceEvent D → DeviceViews D M
  | .statusReceived status =>
      { v with pendingStatuses := v.pendingStatuses.insert status.deviceId status }
  | .flush order tableMs mapMs =>
      if v.pendingStatuses.keys = ∅ then v
      else
        let statuses := valuesIn order v.pendingStatuses
        let (model, tableDevices) := statuses.foldl (setDeviceRow tableMs) (v.model, v.tableDevices)
        { pendingStatuses := ∅
          tableDevices := tableDevices
          model := model
          devicesById := upsertDevices mapMs v.devicesById statuses }
  | .refreshAges order currentMs =>
      { v with model := (valuesIn order v.tableDevices).foldl (refreshRow currentMs) v.model }

/-- The views when the window is shown. -/
def start : DeviceViews D M where
  pendingStatuses := ∅
  tableDevices := ∅
  model := empty
  devicesById := ∅

def run (events : List (DeviceEvent D)) : DeviceViews D M := events.foldl handle start

end DeviceViews

/-! ## The table -/

/-- The devices of the table have the rows of the model, one each, and their rows show
them. -/
structure TableKept (model : M) (tableDevices : Finmap fun _ : Bytes => TableDeviceInfo D) :
    Prop where
  nonneg : 0 ≤ rowCount model
  row : ∀ id info, tableDevices.lookup id = some info → 0 ≤ info.row ∧ info.row < rowCount model
  injective : ∀ id id' info info', tableDevices.lookup id = some info →
    tableDevices.lookup id' = some info' → info.row = info'.row → id = id'
  onto : ∀ row, 0 ≤ row → row < rowCount model →
    ∃ id info, tableDevices.lookup id = some info ∧ info.row = row
  deviceId : ∀ id info, tableDevices.lookup id = some info → info.status.deviceId = id
  shows : ∀ id info, tableDevices.lookup id = some info → ShowsStatus model info.row info.status

variable {model : M} {tableDevices : Finmap fun _ : Bytes => TableDeviceInfo D}

/-- `set_device_row` writes the row of the device, or a new last row when it has none. -/
theorem setDeviceRow_cases (h : TableKept model tableDevices) (status : DeviceStatus D)
    (seenMs : ℤ) :
    (∃ info, tableDevices.lookup status.deviceId = some info ∧
      setDeviceRow seenMs (model, tableDevices) status =
        (setCells info.row false model (statusCells status),
          tableDevices.insert status.deviceId
            { row := info.row, status, lastSeenMs := seenMs })) ∨
    (tableDevices.lookup status.deviceId = none ∧
      setDeviceRow seenMs (model, tableDevices) status =
        (setCells (rowCount model) false (insertRow model (rowCount model)) (statusCells status),
          tableDevices.insert status.deviceId
            { row := rowCount model, status, lastSeenMs := seenMs })) := by
  cases hlookup : tableDevices.lookup status.deviceId with
  | some info =>
    have hrow : ¬ info.row < 0 := not_lt.mpr (h.row _ info hlookup).1
    refine Or.inl ⟨info, rfl, ?_⟩
    rw [setDeviceRow, hlookup, Option.getD_some]
    dsimp only
    rw [if_neg hrow]
    rfl
  | none =>
    refine Or.inr ⟨rfl, ?_⟩
    rw [setDeviceRow, hlookup, Option.getD_none]
    rfl

variable [LawfulItemModel M Q]

omit [CharconvDouble D] in
/-- **One device is written to its row**: what is needed of the other devices is that they
have other rows and show their statuses. -/
theorem tableKept_insert {row : ℤ} {status : DeviceStatus D} {lastSeenMs : ℤ} (h0 : 0 ≤ row)
    (hlt : row < rowCount model)
    (hothers : ∀ id info, id ≠ status.deviceId → tableDevices.lookup id = some info →
      (0 ≤ info.row ∧ info.row < rowCount model) ∧ info.row ≠ row ∧
        info.status.deviceId = id ∧ ShowsStatus model info.row info.status)
    (hinjective : ∀ id id' info info', tableDevices.lookup id = some info →
      tableDevices.lookup id' = some info' → info.row = info'.row → id = id')
    (honto : ∀ row', 0 ≤ row' → row' < rowCount model → row' ≠ row →
      ∃ id info, id ≠ status.deviceId ∧ tableDevices.lookup id = some info ∧ info.row = row') :
    TableKept (setCells row false model (statusCells status))
      (tableDevices.insert status.deviceId { row, status, lastSeenMs }) := by
  have hcount : rowCount (setCells row false model (statusCells status)) = rowCount model :=
    rowCount_setCells ⟨h0, hlt⟩ (nonneg_statusCells status)
  have hlookup : ∀ id info,
      (tableDevices.insert status.deviceId { row, status, lastSeenMs }).lookup id = some info →
      id = status.deviceId ∧ info.row = row ∧ info.status = status ∨
        id ≠ status.deviceId ∧ tableDevices.lookup id = some info := by
    intro id info hinfo
    by_cases hid : id = status.deviceId
    · subst hid
      rw [Finmap.lookup_insert, Option.some.injEq] at hinfo
      exact Or.inl ⟨rfl, hinfo ▸ rfl, hinfo ▸ rfl⟩
    · rw [Finmap.lookup_insert_of_ne _ hid] at hinfo
      exact Or.inr ⟨hid, hinfo⟩
  refine ⟨?_, ?_, ?_, ?_, ?_, ?_⟩
  · rw [hcount]
    omega
  · intro id info hinfo
    rw [hcount]
    rcases hlookup id info hinfo with ⟨-, hrow, -⟩ | ⟨hid, hold⟩
    · rw [hrow]
      exact ⟨h0, hlt⟩
    · exact (hothers id info hid hold).1
  · intro id id' info info' hinfo hinfo' heq
    rcases hlookup id info hinfo with ⟨rfl, hrow, -⟩ | ⟨hid, hold⟩
    · rcases hlookup id' info' hinfo' with ⟨rfl, -, -⟩ | ⟨hid', hold'⟩
      · rfl
      · exact absurd (heq.symm.trans hrow) (hothers id' info' hid' hold').2.1
    · rcases hlookup id' info' hinfo' with ⟨rfl, hrow', -⟩ | ⟨hid', hold'⟩
      · exact absurd (heq.trans hrow') (hothers id info hid hold).2.1
      · exact hinjective id id' info info' hold hold' heq
  · intro row' h0' hlt'
    rw [hcount] at hlt'
    by_cases hrow : row' = row
    · exact ⟨status.deviceId, _, Finmap.lookup_insert _, hrow.symm⟩
    · obtain ⟨id, info, hid, hinfo, heq⟩ := honto row' h0' hlt' hrow
      exact ⟨id, info, (Finmap.lookup_insert_of_ne _ hid).trans hinfo, heq⟩
  · intro id info hinfo
    rcases hlookup id info hinfo with ⟨rfl, -, hstatus⟩ | ⟨hid, hold⟩
    · rw [hstatus]
    · exact (hothers id info hid hold).2.2.1
  · intro id info hinfo
    rcases hlookup id info hinfo with ⟨rfl, hrow, hstatus⟩ | ⟨hid, hold⟩
    · rw [hrow, hstatus]
      exact showsStatus_setCells ⟨h0, hlt⟩
    · obtain ⟨-, hne, -, hshows⟩ := hothers id info hid hold
      exact hshows.of_eq fun column _ =>
        textAt_setCells_of_notMem ⟨h0, hlt⟩ (nonneg_statusCells status) (Or.inl hne)

/-- What the table shows of each device. -/
def shownIn (tableDevices : Finmap fun _ : Bytes => TableDeviceInfo D) (id : Bytes) :
    Option (DeviceStatus D) :=
  (tableDevices.lookup id).map TableDeviceInfo.status

/-- Every device keeps its row. -/
def RowsStay (before after : Finmap fun _ : Bytes => TableDeviceInfo D) : Prop :=
  ∀ id info, before.lookup id = some info →
    ∃ info', after.lookup id = some info' ∧ info'.row = info.row

omit [CharconvDouble D] in
theorem RowsStay.refl (tableDevices : Finmap fun _ : Bytes => TableDeviceInfo D) :
    RowsStay tableDevices tableDevices :=
  fun _ info hinfo => ⟨info, hinfo, rfl⟩

omit [CharconvDouble D] in
theorem RowsStay.trans {a b c : Finmap fun _ : Bytes => TableDeviceInfo D} (hab : RowsStay a b)
    (hbc : RowsStay b c) : RowsStay a c := by
  intro id info hinfo
  obtain ⟨info', hinfo', hrow⟩ := hab id info hinfo
  obtain ⟨info'', hinfo'', hrow'⟩ := hbc id info' hinfo'
  exact ⟨info'', hinfo'', hrow'.trans hrow⟩

omit [CharconvDouble D] in
theorem shownIn_insert (status : DeviceStatus D) (row lastSeenMs : ℤ) :
    shownIn (tableDevices.insert status.deviceId { row, status, lastSeenMs }) =
      write DeviceStatus.deviceId (shownIn tableDevices) status :=
  map_lookup_insert TableDeviceInfo.status tableDevices { row, status, lastSeenMs }

/-- **`set_device_row` keeps the table**, moves no device, and writes the status. -/
theorem TableKept.setDeviceRow (h : TableKept model tableDevices) (status : DeviceStatus D)
    (seenMs : ℤ) :
    TableKept (setDeviceRow seenMs (model, tableDevices) status).1
        (setDeviceRow seenMs (model, tableDevices) status).2 ∧
      RowsStay tableDevices (setDeviceRow seenMs (model, tableDevices) status).2 ∧
      shownIn (setDeviceRow seenMs (model, tableDevices) status).2 =
        write DeviceStatus.deviceId (shownIn tableDevices) status := by
  have hstay : ∀ row, (∀ info, tableDevices.lookup status.deviceId = some info → info.row = row) →
      RowsStay tableDevices
        (tableDevices.insert status.deviceId { row, status, lastSeenMs := seenMs }) := by
    intro row hsame id info hinfo
    by_cases hid : id = status.deviceId
    · subst hid
      exact ⟨_, Finmap.lookup_insert _, (hsame info hinfo).symm⟩
    · exact ⟨info, (Finmap.lookup_insert_of_ne _ hid).trans hinfo, rfl⟩
  rcases setDeviceRow_cases h status seenMs with ⟨info, hlookup, heq⟩ | ⟨hnone, heq⟩
  · -- the device has a row
    have hrow := h.row _ info hlookup
    rw [heq]
    refine ⟨tableKept_insert hrow.1 hrow.2 ?_ h.injective ?_, hstay _ ?_, shownIn_insert _ _ _⟩
    · intro id info' hid hinfo'
      exact ⟨h.row id info' hinfo',
        fun hsame => hid (h.injective _ _ _ _ hinfo' hlookup hsame),
        h.deviceId id info' hinfo', h.shows id info' hinfo'⟩
    · intro row' h0' hlt' hne
      obtain ⟨id, info', hinfo', hrow'⟩ := h.onto row' h0' hlt'
      refine ⟨id, info', ?_, hinfo', hrow'⟩
      rintro rfl
      rw [hlookup, Option.some.injEq] at hinfo'
      exact hne (hinfo' ▸ hrow'.symm)
    · intro info' hinfo'
      rw [hlookup, Option.some.injEq] at hinfo'
      rw [hinfo']
  · -- it gets the row behind the last one
    have hcount : rowCount (insertRow model (rowCount model)) = rowCount model + 1 :=
      LawfulItemModel.rowCount_insertRow model
    rw [heq]
    refine ⟨tableKept_insert h.nonneg (by omega) ?_ h.injective ?_, hstay _ ?_,
      shownIn_insert _ _ _⟩
    · intro id info hid hinfo
      have hrow := h.row id info hinfo
      refine ⟨by omega, by omega, h.deviceId id info hinfo,
        (h.shows id info hinfo).of_eq fun column _ => ?_⟩
      rw [textAt, LawfulItemModel.item_insertRow _ _ _ hrow.1 hrow.2]
      rfl
    · intro row' h0' hlt' hne
      obtain ⟨id, info, hinfo, hrow⟩ := h.onto row' h0' (by omega)
      refine ⟨id, info, ?_, hinfo, hrow⟩
      rintro rfl
      rw [hnone] at hinfo
      exact absurd hinfo (by simp)
    · intro info hinfo
      rw [hnone] at hinfo
      exact absurd hinfo (by simp)

/-- The loop of the flush over the table. -/
theorem TableKept.foldl_setDeviceRow (h : TableKept model tableDevices)
    (statuses : List (DeviceStatus D)) (seenMs : ℤ) :
    TableKept (statuses.foldl (RemoteDeviceConsole.setDeviceRow seenMs) (model, tableDevices)).1
        (statuses.foldl (RemoteDeviceConsole.setDeviceRow seenMs) (model, tableDevices)).2 ∧
      RowsStay tableDevices
        (statuses.foldl (RemoteDeviceConsole.setDeviceRow seenMs) (model, tableDevices)).2 ∧
      shownIn (statuses.foldl (RemoteDeviceConsole.setDeviceRow seenMs) (model, tableDevices)).2 =
        statuses.foldl (write DeviceStatus.deviceId) (shownIn tableDevices) := by
  induction statuses generalizing model tableDevices with
  | nil => exact ⟨h, RowsStay.refl tableDevices, rfl⟩
  | cons status statuses ih =>
    obtain ⟨hkept, hstay, hshown⟩ := h.setDeviceRow status seenMs
    obtain ⟨hkept', hstay', hshown'⟩ := ih hkept
    rw [List.foldl_cons, List.foldl_cons, ← hshown]
    exact ⟨hkept', hstay.trans hstay', hshown'⟩

omit [CharconvDouble D] in
/-- **The ages are not what is kept.** -/
theorem TableKept.refreshRow (h : TableKept model tableDevices) {info : TableDeviceInfo D}
    (hrow : 0 ≤ info.row ∧ info.row < rowCount model) (currentMs : ℤ) :
    TableKept (refreshRow currentMs model info) tableDevices ∧
      rowCount (RemoteDeviceConsole.refreshRow currentMs model info) = rowCount model := by
  obtain ⟨cells, hcells, hcolumns, heq⟩ : ∃ cells : List (ℤ × Q), (∀ cell ∈ cells, 0 ≤ cell.1) ∧
      cells.map Prod.fst = [1, 6] ∧ RemoteDeviceConsole.refreshRow currentMs model info =
        setCells info.row (decide (currentMs - info.lastSeenMs > kTableStaleMs)) model cells :=
    ⟨[(1, displayState info.status (currentMs - info.lastSeenMs)),
      (6, ageText (currentMs - info.lastSeenMs))], by simp, rfl, rfl⟩
  have hcount : rowCount (setCells info.row
      (decide (currentMs - info.lastSeenMs > kTableStaleMs)) model cells) = rowCount model :=
    rowCount_setCells hrow hcells
  rw [heq]
  refine ⟨⟨?_, ?_, h.injective, ?_, h.deviceId, ?_⟩, hcount⟩
  · rw [hcount]
    exact h.nonneg
  · rw [hcount]
    exact h.row
  · rw [hcount]
    exact h.onto
  · intro id info' hinfo'
    refine (h.shows id info' hinfo').of_eq fun column hcolumn => ?_
    refine textAt_setCells_of_notMem hrow hcells (Or.inr ?_)
    rw [hcolumns]
    simp only [List.mem_cons, List.not_mem_nil, or_false] at hcolumn ⊢
    omega

omit [CharconvDouble D] in
theorem TableKept.foldl_refreshRow (h : TableKept model tableDevices)
    {infos : List (TableDeviceInfo D)}
    (hrows : ∀ info ∈ infos, 0 ≤ info.row ∧ info.row < rowCount model) (currentMs : ℤ) :
    TableKept (infos.foldl (RemoteDeviceConsole.refreshRow currentMs) model) tableDevices := by
  induction infos generalizing model with
  | nil => exact h
  | cons info infos ih =>
    rw [List.forall_mem_cons] at hrows
    obtain ⟨hkept, hcount⟩ := h.refreshRow hrows.1 currentMs
    exact ih hkept (by rw [hcount]; exact hrows.2)

/-! ## The views -/

omit [CharconvDouble D] in
theorem foldl_upsertDevices (seenMs : ℤ) (devicesById : Finmap fun _ : Bytes => DeviceSnapshot D)
    (statuses : List (DeviceStatus D)) :
    (fun id => ((upsertDevices seenMs devicesById statuses).lookup id).map DeviceSnapshot.status) =
      statuses.foldl (write DeviceStatus.deviceId)
        (fun id => (devicesById.lookup id).map DeviceSnapshot.status) := by
  induction statuses generalizing devicesById with
  | nil => rfl
  | cons status statuses ih =>
    have hone := map_lookup_insert DeviceSnapshot.status devicesById
      { status, lastSeenMs := seenMs }
    rw [List.foldl_cons, ← hone]
    exact ih _

omit [CharconvDouble D] in
theorem mem_valuesIn {ν : Type} {order : IterationOrder Bytes} {map : Finmap fun _ : Bytes => ν}
    {value : ν} : value ∈ valuesIn order map ↔ ∃ key, map.lookup key = some value := by
  rw [valuesIn, List.mem_filterMap]
  constructor
  · rintro ⟨key, -, hkey⟩
    exact ⟨key, hkey⟩
  · rintro ⟨key, hkey⟩
    refine ⟨key, ?_, hkey⟩
    rw [IterationOrder.mem_toList, Finmap.mem_keys]
    exact Finmap.mem_of_lookup_eq_some hkey

namespace DeviceViews

/-- The invariant of the views. -/
structure Kept (v : DeviceViews D M) : Prop where
  pending : ∀ id status, v.pendingStatuses.lookup id = some status → status.deviceId = id
  table : TableKept v.model v.tableDevices
  map : (fun id => (v.devicesById.lookup id).map DeviceSnapshot.status) = shownIn v.tableDevices

/-- The views as a buffer in front of a table. -/
def buffered (v : DeviceViews D M) : Buffered Bytes (DeviceStatus D) where
  buffer := fun id => v.pendingStatuses.lookup id
  shown := shownIn v.tableDevices

/-- The event, on the buffer. -/
def onBuffer (b : Buffered Bytes (DeviceStatus D)) : DeviceEvent D → Buffered Bytes (DeviceStatus D)
  | .statusReceived status => b.receive DeviceStatus.deviceId status
  | .flush _ _ _ => b.flush
  | .refreshAges _ _ => b

omit [LawfulItemModel M Q] in
/-- A status that comes in is written to the buffer. -/
theorem Kept.receive {v : DeviceViews D M} (h : v.Kept) (status : DeviceStatus D) :
    (v.handle (.statusReceived status)).Kept ∧
      (v.handle (.statusReceived status)).buffered =
        v.buffered.receive DeviceStatus.deviceId status := by
  refine ⟨⟨fun id other hother => ?_, h.table, h.map⟩, ?_⟩
  · have hsame : (v.pendingStatuses.insert status.deviceId status).lookup id = some other := hother
    by_cases hid : id = status.deviceId
    · subst hid
      rw [Finmap.lookup_insert, Option.some.injEq] at hsame
      rw [hsame]
    · rw [Finmap.lookup_insert_of_ne _ hid] at hsame
      exact h.pending id other hsame
  · have hbuffer : (fun id => (v.pendingStatuses.insert status.deviceId status).lookup id) =
        write DeviceStatus.deviceId (fun id => v.pendingStatuses.lookup id) status := by
      have hwrite := map_lookup_insert id v.pendingStatuses status
      simpa only [Option.map_id, id] using hwrite
    exact congrArg (fun buffer => Buffered.mk buffer (shownIn v.tableDevices)) hbuffer

omit [CharconvDouble D] [DecidableEq Q] [LawfulItemModel M Q] in
/-- The statuses of the buffer, one after another in any order, are written over the
table. -/
theorem Kept.foldl_valuesIn {v : DeviceViews D M} (h : v.Kept) (order : IterationOrder Bytes) :
    (valuesIn order v.pendingStatuses).foldl (write DeviceStatus.deviceId)
        (shownIn v.tableDevices) =
      overlay (fun id => v.pendingStatuses.lookup id) (shownIn v.tableDevices) := by
  refine foldl_write_of_buffer h.pending fun status => ?_
  rw [mem_valuesIn]
  constructor
  · rintro ⟨id, hid⟩
    rw [h.pending id status hid]
    exact hid
  · exact fun hid => ⟨_, hid⟩

/-- A flush empties the buffer onto the table and the map. -/
theorem Kept.flush {v : DeviceViews D M} (h : v.Kept) (order : IterationOrder Bytes)
    (tableMs mapMs : ℤ) :
    (v.handle (.flush order tableMs mapMs)).Kept ∧
      RowsStay v.tableDevices (v.handle (.flush order tableMs mapMs)).tableDevices ∧
      (v.handle (.flush order tableMs mapMs)).buffered = v.buffered.flush := by
  rw [DeviceViews.handle]
  split
  · next hempty =>
    -- nothing is pending
    have hnone : (fun id => v.pendingStatuses.lookup id) = fun _ => none := by
      funext id
      rw [Finmap.lookup_eq_none, ← Finmap.mem_keys, hempty]
      exact Finset.notMem_empty id
    refine ⟨h, RowsStay.refl _, ?_⟩
    show v.buffered = v.buffered.flush
    rw [buffered, hnone]
    rfl
  · obtain ⟨hkept, hstay, hshown⟩ :=
      h.table.foldl_setDeviceRow (valuesIn order v.pendingStatuses) tableMs
    have hnone : (fun id => (∅ : Finmap fun _ : Bytes => DeviceStatus D).lookup id) =
        fun _ => none := by
      funext id
      exact Finmap.lookup_empty id
    refine ⟨⟨fun id status hpending => ?_, hkept, ?_⟩, hstay, ?_⟩
    · exact absurd hpending (by simp)
    · dsimp only
      rw [foldl_upsertDevices, h.map, hshown]
    · show Buffered.mk _ _ = Buffered.mk _ _
      rw [hnone, hshown, h.foldl_valuesIn]
      rfl

/-- **One event**: the views keep their invariant, no device changes its row, and the event
does to the buffer and the table what it should. -/
theorem Kept.handle {v : DeviceViews D M} (h : v.Kept) (event : DeviceEvent D) :
    (v.handle event).Kept ∧ RowsStay v.tableDevices (v.handle event).tableDevices ∧
      (v.handle event).buffered = onBuffer v.buffered event := by
  cases event with
  | statusReceived status =>
    obtain ⟨hkept, hbuffered⟩ := h.receive status
    exact ⟨hkept, RowsStay.refl _, hbuffered⟩
  | flush order tableMs mapMs => exact h.flush order tableMs mapMs
  | refreshAges order currentMs =>
    refine ⟨⟨h.pending, ?_, h.map⟩, RowsStay.refl _, rfl⟩
    refine h.table.foldl_refreshRow (fun info hinfo => ?_) currentMs
    obtain ⟨id, hid⟩ := mem_valuesIn.mp hinfo
    exact h.table.row id info hid

omit [CharconvDouble D] [DecidableEq Q] in
theorem kept_start : (start : DeviceViews D M).Kept where
  pending id status h := absurd h (by simp [start])
  table := by
    have hcount : rowCount (empty : M) = 0 := LawfulItemModel.rowCount_empty
    refine ⟨?_, ?_, ?_, ?_, ?_, ?_⟩
    · exact hcount.ge
    · exact fun id info h => absurd h (by simp [start])
    · exact fun id id' info info' h => absurd h (by simp [start])
    · intro row h0 hlt
      have hlt' : row < rowCount (empty : M) := hlt
      omega
    · exact fun id info h => absurd h (by simp [start])
    · exact fun id info h => absurd h (by simp [start])
  map := by
    funext id
    simp [start, shownIn]

/-- The statuses that were received, in their order. -/
def received (events : List (DeviceEvent D)) : List (DeviceStatus D) :=
  events.filterMap fun
    | .statusReceived status => some status
    | _ => none

omit [CharconvDouble D] in
theorem received_append (a b : List (DeviceEvent D)) :
    received (a ++ b) = received a ++ received b :=
  List.filterMap_append

omit [LawfulItemModel M Q] in
theorem run_append_singleton (events : List (DeviceEvent D)) (event : DeviceEvent D) :
    (run (events ++ [event]) : DeviceViews D M) = (run events).handle event := by
  rw [run, List.foldl_append]
  rfl

/-- **A run of the views**: what is pending, laid over the table, is what was received. -/
theorem kept_run (events : List (DeviceEvent D)) :
    (run events : DeviceViews D M).Kept ∧
      overlay (run events : DeviceViews D M).buffered.buffer
          (run events : DeviceViews D M).buffered.shown =
        (received events).foldl (write DeviceStatus.deviceId) fun _ => none := by
  induction events using List.reverseRecOn with
  | nil =>
    refine ⟨kept_start, ?_⟩
    funext id
    simp [run, start, buffered, overlay, shownIn, received]
  | append_singleton events event ih =>
    obtain ⟨hkept, hoverlay⟩ := ih
    obtain ⟨hkept', -, hbuffered⟩ := hkept.handle event
    rw [run_append_singleton, hbuffered, received_append]
    refine ⟨hkept', ?_⟩
    cases event with
    | statusReceived status =>
      rw [onBuffer, overlay_receive, hoverlay, List.foldl_append]
      rfl
    | flush order tableMs mapMs =>
      rw [onBuffer, overlay_flush, hoverlay]
      simp [received]
    | refreshAges order currentMs =>
      rw [onBuffer, hoverlay]
      simp [received]

/-- No event moves a device to another row. -/
theorem rowsStay_run (events later : List (DeviceEvent D)) :
    RowsStay (run events : DeviceViews D M).tableDevices
      (run (events ++ later) : DeviceViews D M).tableDevices := by
  induction later using List.reverseRecOn with
  | nil =>
    rw [List.append_nil]
    exact RowsStay.refl _
  | append_singleton later event ih =>
    rw [← List.append_assoc, run_append_singleton]
    exact ih.trans ((kept_run (events ++ later)).1.handle event).2.1

/-- After a flush the table shows the last status of each device. -/
theorem shownIn_flush (events : List (DeviceEvent D)) (order : IterationOrder Bytes)
    (tableMs mapMs : ℤ) :
    shownIn (run (events ++ [.flush order tableMs mapMs]) : DeviceViews D M).tableDevices =
      fun id => lastOf DeviceStatus.deviceId id (received events) := by
  obtain ⟨hkept, hoverlay⟩ := kept_run (M := M) events
  have hshown : shownIn ((run events : DeviceViews D M).handle
      (.flush order tableMs mapMs)).tableDevices =
        overlay (run events : DeviceViews D M).buffered.buffer
          (run events : DeviceViews D M).buffered.shown :=
    congrArg Buffered.shown (hkept.handle (.flush order tableMs mapMs)).2.2
  rw [run_append_singleton, hshown, hoverlay, foldl_write_eq]
  funext id
  exact Option.or_none

/-- The statuses that had come in when the flush timer ran last. -/
def flushed (events : List (DeviceEvent D)) : List (DeviceStatus D) :=
  received (events.rdropWhile fun event => !event.isFlush)

omit [CharconvDouble D] in
/-- Another event than a flush brings nothing to the table. -/
theorem flushed_append_of_not {event : DeviceEvent D} (h : event.isFlush = false)
    (events : List (DeviceEvent D)) : flushed (events ++ [event]) = flushed events := by
  rw [flushed, List.rdropWhile_concat_pos _ _ _ (by simp [h])]
  rfl

omit [CharconvDouble D] in
/-- A flush brings all that has come in. -/
theorem flushed_append_flush (events : List (DeviceEvent D)) (order : IterationOrder Bytes)
    (tableMs mapMs : ℤ) : flushed (events ++ [.flush order tableMs mapMs]) = received events := by
  rw [flushed, List.rdropWhile_concat_neg _ _ _ (by simp [DeviceEvent.isFlush]), received_append]
  exact List.append_nil _

/-- **In every state** the table shows the last status of each device that was flushed. -/
theorem shownIn_run (events : List (DeviceEvent D)) :
    shownIn (run events : DeviceViews D M).tableDevices =
      fun id => lastOf DeviceStatus.deviceId id (flushed events) := by
  induction events using List.reverseRecOn with
  | nil =>
    funext id
    simp [run, start, shownIn, flushed, received, lastOf]
  | append_singleton events event ih =>
    cases event with
    | flush order tableMs mapMs => rw [shownIn_flush, flushed_append_flush]
    | statusReceived status =>
      rw [flushed_append_of_not rfl, ← ih, run_append_singleton]
      rfl
    | refreshAges order currentMs =>
      rw [flushed_append_of_not rfl, ← ih, run_append_singleton]
      rfl

/-! ## At once -/

/-- The views without `pending_statuses`: every status is shown when it arrives. -/
def atOnce (seenMs : ℤ) (statuses : List (DeviceStatus D)) : DeviceViews D M where
  pendingStatuses := ∅
  tableDevices := (statuses.foldl (setDeviceRow seenMs) ((empty : M), ∅)).2
  model := (statuses.foldl (setDeviceRow seenMs) ((empty : M), ∅)).1
  devicesById := statuses.foldl (fun map status => upsertDevices seenMs map [status]) ∅

theorem shownIn_atOnce (seenMs : ℤ) (statuses : List (DeviceStatus D)) :
    shownIn (atOnce seenMs statuses : DeviceViews D M).tableDevices =
      (fun id => lastOf DeviceStatus.deviceId id statuses) ∧
    (fun id => ((atOnce seenMs statuses : DeviceViews D M).devicesById.lookup id).map
        DeviceSnapshot.status) = fun id => lastOf DeviceStatus.deviceId id statuses := by
  have hkept : TableKept (empty : M) (∅ : Finmap fun _ : Bytes => TableDeviceInfo D) :=
    kept_start.table
  have hempty : shownIn (∅ : Finmap fun _ : Bytes => TableDeviceInfo D) = fun _ => none := by
    funext id
    simp [shownIn]
  have hmap : (fun id => ((∅ : Finmap fun _ : Bytes => DeviceSnapshot D).lookup id).map
      DeviceSnapshot.status) = fun _ => none := by
    funext id
    simp
  have hlast : statuses.foldl (write DeviceStatus.deviceId) (fun _ => none) =
      fun id => lastOf DeviceStatus.deviceId id statuses := by
    rw [foldl_write_eq]
    funext id
    exact Option.or_none
  have hone : statuses.foldl (fun map status => upsertDevices seenMs map [status]) ∅ =
      upsertDevices seenMs (∅ : Finmap fun _ : Bytes => DeviceSnapshot D) statuses := rfl
  constructor
  · rw [atOnce, (hkept.foldl_setDeviceRow statuses seenMs).2.2, hempty, hlast]
  · rw [atOnce, hone, foldl_upsertDevices, hmap, hlast]

/-! ## Batched and immediate updates -/

/-- **Batched updates equal immediate ones.**  After every flush the table and the map have
the devices of which a status was received, both hold the last status of each, which is
what showing every status at once gives, and the row of the device shows it.  In every
state the devices have the rows of the model, one each, and a device never changes its
row. -/
theorem flush_eq_atOnce (events : List (DeviceEvent D)) :
    (∀ (order : IterationOrder Bytes) (tableMs mapMs : ℤ) (id : Bytes),
      let v : DeviceViews D M := run (events ++ [.flush order tableMs mapMs])
      (id ∈ v.tableDevices ↔ id ∈ (received events).map DeviceStatus.deviceId) ∧
      (id ∈ v.devicesById ↔ id ∈ (received events).map DeviceStatus.deviceId) ∧
      (∀ seenMs, let w : DeviceViews D M := atOnce seenMs (received events)
        (v.tableDevices.lookup id).map TableDeviceInfo.status =
          (w.tableDevices.lookup id).map TableDeviceInfo.status ∧
        (v.devicesById.lookup id).map DeviceSnapshot.status =
          (w.devicesById.lookup id).map DeviceSnapshot.status) ∧
      ∀ status, lastOf DeviceStatus.deviceId id (received events) = some status →
        ∃ info snapshot, v.tableDevices.lookup id = some info ∧ info.status = status ∧
          v.devicesById.lookup id = some snapshot ∧ snapshot.status = status ∧
          ShowsStatus v.model info.row status) ∧
    (∀ id info, (run events : DeviceViews D M).tableDevices.lookup id = some info →
      0 ≤ info.row ∧ info.row < rowCount (run events : DeviceViews D M).model) ∧
    (∀ row, 0 ≤ row → row < rowCount (run events : DeviceViews D M).model →
      ∃! id, ∃ info, (run events : DeviceViews D M).tableDevices.lookup id = some info ∧
        info.row = row) ∧
    ∀ later id info, (run events : DeviceViews D M).tableDevices.lookup id = some info →
      ∃ info', (run (events ++ later) : DeviceViews D M).tableDevices.lookup id = some info' ∧
        info'.row = info.row := by
  have hkept := (kept_run (M := M) events).1
  refine ⟨fun order tableMs mapMs id => ?_, hkept.table.row, fun row h0 hlt => ?_,
    fun later => rowsStay_run events later⟩
  · have hflushed := (kept_run (M := M) (events ++ [.flush order tableMs mapMs])).1
    have hshown := congrFun (shownIn_flush (M := M) events order tableMs mapMs) id
    have hmap := (congrFun hflushed.map id).trans hshown
    have hmem : ∀ {ν : Type} {map : Finmap fun _ : Bytes => ν} {f : ν → DeviceStatus D},
        (map.lookup id).map f = lastOf DeviceStatus.deviceId id (received events) →
        (id ∈ map ↔ id ∈ (received events).map DeviceStatus.deviceId) := by
      intro ν map f heq
      rw [← isSome_lastOf, ← heq, Option.isSome_map, Finmap.lookup_isSome]
    intro v
    refine ⟨hmem hshown, hmem hmap, fun seenMs => ?_, fun status hlast => ?_⟩
    · obtain ⟨htable, hdevices⟩ := shownIn_atOnce (M := M) seenMs (received events)
      exact ⟨hshown.trans (congrFun htable id).symm, hmap.trans (congrFun hdevices id).symm⟩
    · obtain ⟨info, hinfo, hstatus⟩ := Option.map_eq_some_iff.mp (hshown.trans hlast)
      obtain ⟨snapshot, hsnapshot, hstatus'⟩ := Option.map_eq_some_iff.mp (hmap.trans hlast)
      exact ⟨info, snapshot, hinfo, hstatus, hsnapshot, hstatus',
        hstatus ▸ hflushed.table.shows id info hinfo⟩
  · obtain ⟨id, info, hinfo, hrow⟩ := hkept.table.onto row h0 hlt
    refine ⟨id, ⟨info, hinfo, hrow⟩, ?_⟩
    rintro id' ⟨info', hinfo', hrow'⟩
    exact hkept.table.injective _ _ _ _ hinfo' hinfo (hrow'.trans hrow.symm)

/-- Two devices, one of which reports twice before the flush: its row shows the second
report. -/
theorem flush_eq_atOnce_two :
    let before : DeviceStatus ℤ := ⟨[97], [79, 75], 50, 1, 2, 3, 1, 0, false⟩
    let other : DeviceStatus ℤ := ⟨[98], [79, 75], 60, 4, 5, 6, 1, 0, false⟩
    let after : DeviceStatus ℤ := ⟨[97], [79, 75], 49, 7, 2, 3, 2, 0, false⟩
    ∃ (order : IterationOrder Bytes) (info : TableDeviceInfo ℤ) (snapshot : DeviceSnapshot ℤ),
      let v : DeviceViews ℤ (GridModel Bytes) := run ([.statusReceived before,
        .statusReceived other, .refreshAges order 0, .statusReceived after] ++
        [.flush order 100 100])
      v.tableDevices.lookup [97] = some info ∧ info.status = after ∧
        v.devicesById.lookup [97] = some snapshot ∧ snapshot.status = after ∧
        ShowsStatus v.model info.row after := by
  intro before other after
  let order : IterationOrder Bytes := ⟨Finset.toList, Finset.coe_toList⟩
  obtain ⟨-, -, -, hlast⟩ := (flush_eq_atOnce (M := GridModel Bytes) [.statusReceived before,
    .statusReceived other, .refreshAges order 0, .statusReceived after]).1 order 100 100 [97]
  obtain ⟨info, snapshot, hall⟩ := hlast after (by decide)
  exact ⟨order, info, snapshot, hall⟩

end DeviceViews
end RemoteDeviceConsole
