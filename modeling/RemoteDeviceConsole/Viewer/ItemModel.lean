import RemoteDeviceConsole.Protocol.StatusParser

/-!
# The item model of the table

The Qt classes behind the table of the viewer, as far as its functions use them:
`QStandardItemModel` with its rows and items, and the conversions to `QString`.  Qt is not
part of the repository, so both are parameters.  `LawfulItemModel` has what is relied on of
the first: a new row behind the last one leaves the others, and an item is set in its own
cell only.

The functions of this file write texts into cells: `set_model_text`, `age_text` and
`display_state`.  `GridModel` is a model of rows for runs.
-/

namespace RemoteDeviceConsole

open Framing

/-- `QColor`, of the text of an item. -/
structure QColor where
  red : ℕ
  green : ℕ
  blue : ℕ
  deriving DecidableEq

/-- `QStandardItem`: its text, and its foreground when one was set. -/
structure StandardItem (Q : Type) where
  text : Q
  foreground : Option QColor
  deriving DecidableEq

/-- `QStandardItemModel`. -/
class ItemModel (M : Type) (Q : outParam Type) where
  empty : M
  rowCount : M → ℤ
  insertRow : M → ℤ → M
  item : M → ℤ → ℤ → Option (StandardItem Q)
  setItem : M → ℤ → ℤ → StandardItem Q → M

/-- What is relied on of the model. -/
class LawfulItemModel (M : Type) (Q : outParam Type) [ItemModel M Q] : Prop where
  rowCount_empty : ItemModel.rowCount (ItemModel.empty : M) = 0
  rowCount_insertRow (m : M) : ItemModel.rowCount (ItemModel.insertRow m (ItemModel.rowCount m)) =
    ItemModel.rowCount m + 1
  item_insertRow (m : M) (row column : ℤ) : 0 ≤ row → row < ItemModel.rowCount m →
    ItemModel.item (ItemModel.insertRow m (ItemModel.rowCount m)) row column =
      ItemModel.item m row column
  rowCount_setItem (m : M) (row column : ℤ) (i : StandardItem Q) : 0 ≤ row →
    row < ItemModel.rowCount m → 0 ≤ column →
    ItemModel.rowCount (ItemModel.setItem m row column i) = ItemModel.rowCount m
  item_setItem (m : M) (row column row' column' : ℤ) (i : StandardItem Q) : 0 ≤ row →
    row < ItemModel.rowCount m → 0 ≤ column →
    ItemModel.item (ItemModel.setItem m row column i) row' column' =
      if row' = row ∧ column' = column then some i else ItemModel.item m row' column'

/-- The conversions to `QString`: from a byte string, from a literal, from an `int`, from a
double with one decimal, and an argument for `%1`. -/
class QtTexts (D : outParam Type) (Q : Type) where
  fromStdString : Bytes → Q
  literal : String → Q
  number : ℤ → Q
  numberFixed : D → Q
  arg : Q → ℤ → Q

/-! ## Rows for runs -/

open ItemModel

variable {Q : Type}

/-- A model as the list of its rows. -/
structure GridModel (Q : Type) where
  rows : List (ℤ → Option (StandardItem Q))

instance : ItemModel (GridModel Q) Q where
  empty := ⟨[]⟩
  rowCount m := m.rows.length
  insertRow m row :=
    if 0 ≤ row ∧ row ≤ m.rows.length then ⟨m.rows.insertIdx row.toNat fun _ => none⟩ else m
  item m row column := if 0 ≤ row then m.rows[row.toNat]?.bind fun cells => cells column else none
  setItem m row column i :=
    if 0 ≤ row then ⟨m.rows.modify row.toNat fun cells => Function.update cells column (some i)⟩
    else m

instance : LawfulItemModel (GridModel Q) Q where
  rowCount_empty := rfl
  rowCount_insertRow m := by simp [rowCount, insertRow]
  item_insertRow m row column h0 hlt := by
    have hlt' : row.toNat < m.rows.length := by
      have hcount : row < m.rows.length := hlt
      omega
    simp [item, insertRow, rowCount, List.getElem?_append_left hlt']
  rowCount_setItem m row column i h0 _ _ := by simp [rowCount, setItem, h0]
  item_setItem m row column row' column' i h0 hlt _ := by
    have hlt' : row.toNat < m.rows.length := by
      have hcount : row < m.rows.length := hlt
      omega
    by_cases h0' : 0 ≤ row'
    · by_cases hrow : row' = row
      · subst hrow
        by_cases hcolumn : column' = column
        · subst hcolumn
          simp [item, setItem, h0, hlt']
        · simp [item, setItem, h0, hlt', hcolumn]
      · have hnat : row.toNat ≠ row'.toNat := by omega
        simp [item, setItem, h0, h0', hrow, hnat]
    · have hrow : row' ≠ row := by omega
      simp [item, h0', hrow]

/-- Texts as bytes, of doubles that are whole numbers. -/
instance wholeTexts : QtTexts ℤ Bytes where
  fromStdString := id
  literal := ascii
  number := toStringInt
  numberFixed d := toStringInt d ++ ascii ".0"
  arg text n := toStringInt n ++ text.drop 2

/-! ## Cells -/

variable {D M : Type} [ItemModel M Q] [QtTexts D Q] [DecidableEq Q]

def kTableStaleMs : ℤ := 5000

/-- `age_text`. -/
def ageText (ageMs : ℤ) : Q :=
  if ageMs < 1000 then QtTexts.literal "now" else QtTexts.arg (QtTexts.literal "%1s") (ageMs / 1000)

/-- `display_state`. -/
def displayState (status : DeviceStatus D) (ageMs : ℤ) : Q :=
  if ageMs > kTableStaleMs then QtTexts.literal "STALE" else QtTexts.fromStdString status.state

/-- `set_model_text`.  An item is reached through a pointer there; here it is set again. -/
def setModelText (model : M) (row column : ℤ) (text : Q) (stale : Bool) : M :=
  let item := (item model row column).getD ⟨QtTexts.literal "", none⟩
  let item := if item.text ≠ text then { item with text := text } else item
  setItem model row column
    { item with foreground := if stale then some ⟨108, 117, 125⟩ else some ⟨32, 33, 36⟩ }

/-- The text in a cell. -/
def textAt (model : M) (row column : ℤ) : Option Q := (item model row column).map StandardItem.text

/-- Write cells of one row. -/
def setCells (row : ℤ) (stale : Bool) (model : M) (cells : List (ℤ × Q)) : M :=
  cells.foldl (fun model cell => setModelText model row cell.1 cell.2 stale) model

section Lawful

variable [LawfulItemModel M Q] {model : M} {row column : ℤ} {stale : Bool} {cells : List (ℤ × Q)}

/-- **`set_model_text` sets one cell** and no other. -/
theorem textAt_setModelText (hrow : 0 ≤ row ∧ row < rowCount model) (hcolumn : 0 ≤ column)
    (text : Q) (stale : Bool) (row' column' : ℤ) :
    textAt (setModelText model row column text stale) row' column' =
      if row' = row ∧ column' = column then some text else textAt model row' column' := by
  rw [textAt, setModelText, LawfulItemModel.item_setItem _ _ _ _ _ _ hrow.1 hrow.2 hcolumn]
  split
  · rw [Option.map_some]
    dsimp only
    split
    · rfl
    · next hsame => rw [Decidable.not_not.mp hsame]
  · rfl

theorem rowCount_setModelText (hrow : 0 ≤ row ∧ row < rowCount model) (hcolumn : 0 ≤ column)
    (text : Q) (stale : Bool) :
    rowCount (setModelText model row column text stale) = rowCount model :=
  LawfulItemModel.rowCount_setItem _ _ _ _ hrow.1 hrow.2 hcolumn

theorem rowCount_setCells (hrow : 0 ≤ row ∧ row < rowCount model)
    (hcells : ∀ cell ∈ cells, 0 ≤ cell.1) :
    rowCount (setCells row stale model cells) = rowCount model := by
  induction cells generalizing model with
  | nil => rfl
  | cons cell cells ih =>
    rw [List.forall_mem_cons] at hcells
    have hcount := rowCount_setModelText hrow hcells.1 cell.2 stale
    show rowCount (setCells row stale (setModelText model row cell.1 cell.2 stale) cells) = _
    rw [ih (by rwa [hcount]) hcells.2, hcount]

/-- Cells that are not written stay. -/
theorem textAt_setCells_of_notMem (hrow : 0 ≤ row ∧ row < rowCount model)
    (hcells : ∀ cell ∈ cells, 0 ≤ cell.1) {row' column' : ℤ}
    (h : row' ≠ row ∨ column' ∉ cells.map Prod.fst) :
    textAt (setCells row stale model cells) row' column' = textAt model row' column' := by
  induction cells generalizing model with
  | nil => rfl
  | cons cell cells ih =>
    rw [List.forall_mem_cons] at hcells
    have hcount := rowCount_setModelText hrow hcells.1 cell.2 stale
    rw [List.map_cons, List.mem_cons, not_or] at h
    have hother : ¬ (row' = row ∧ column' = cell.1) := by
      rintro ⟨hr, hc⟩
      rcases h with h | h
      · exact h hr
      · exact h.1 hc
    show textAt (setCells row stale (setModelText model row cell.1 cell.2 stale) cells) _ _ = _
    rw [ih (by rwa [hcount]) hcells.2 (h.imp_right And.right), textAt_setModelText hrow hcells.1,
      if_neg hother]

/-- Each cell has the text that was written to its column. -/
theorem textAt_setCells_of_mem (hrow : 0 ≤ row ∧ row < rowCount model)
    (hcells : ∀ cell ∈ cells, 0 ≤ cell.1) (hnodup : (cells.map Prod.fst).Nodup) {column : ℤ}
    {text : Q} (h : (column, text) ∈ cells) :
    textAt (setCells row stale model cells) row column = some text := by
  induction cells generalizing model with
  | nil => exact absurd h (by simp)
  | cons cell cells ih =>
    rw [List.forall_mem_cons] at hcells
    rw [List.map_cons, List.nodup_cons] at hnodup
    have hcount := rowCount_setModelText hrow hcells.1 cell.2 stale
    have hrow' : 0 ≤ row ∧ row < rowCount (setModelText model row cell.1 cell.2 stale) := by
      rwa [hcount]
    show textAt (setCells row stale (setModelText model row cell.1 cell.2 stale) cells) _ _ = _
    rcases List.mem_cons.mp h with rfl | h
    · rw [textAt_setCells_of_notMem hrow' hcells.2 (Or.inr hnodup.1),
        textAt_setModelText hrow hcells.1, if_pos ⟨rfl, rfl⟩]
    · exact ih hrow' hcells.2 hnodup.2 h

end Lawful

end RemoteDeviceConsole
