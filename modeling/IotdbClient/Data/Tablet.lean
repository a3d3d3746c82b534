import IotdbClient.Data.Bitmap
import IotdbClient.Library.StableSort

/-!
# Tablets

A batch of rows for one device or table, held column by column and serialized column-major.  The
second half of the file says what a tablet is for: whatever calls built it, it is the column image
of the list of rows added so far, and sorting it sorts that list.
-/

namespace IotdbClient

open Library

structure Tablet where
  target : String
  measurements : List String
  types : List TSDataType
  timestamps : List Int64
  /-- `values[col][row]`, `none` for a null cell. -/
  values : List (List (Option Value))
  columnCategories : Option (List ColumnCategory)
  aligned : Bool
deriving Repr, DecidableEq

namespace Tablet

def new (deviceId : String) (measurements : List String) (types : List TSDataType) :
    Result Tablet :=
  if measurements.length ≠ types.length then
    fail (.client s!"measurement count ({measurements.length}) != type count ({types.length})")
  else
    pure {
      target := deviceId
      measurements := measurements
      types := types
      timestamps := []
      values := List.replicate measurements.length []
      columnCategories := none
      aligned := false }

def newAligned (deviceId : String) (measurements : List String) (types : List TSDataType) :
    Result Tablet := do
  let tablet ← new deviceId measurements types
  pure { tablet with aligned := true }

def newTable (tableName : String) (columnNames : List String) (types : List TSDataType)
    (columnCategories : List ColumnCategory) : Result Tablet :=
  if columnCategories.length ≠ types.length then
    fail (.client s!"category count ({columnCategories.length}) != type count ({types.length})")
  else do
    let tablet ← new tableName columnNames types
    pure { tablet with columnCategories := some columnCategories }

def rowCount (t : Tablet) : Nat := t.timestamps.length

def isTableModel (t : Tablet) : Bool := t.columnCategories.isSome

/-- A write through the slice that `timestamps_mut` returns, whose length is fixed. -/
def timestampsMut (t : Tablet) (timestamps : List Int64) : Option Tablet :=
  if timestamps.length = t.timestamps.length then some { t with timestamps := timestamps } else none

/-- `cell.filter(|v| !v.is_null())`. -/
def normalizeCell (cell : Option Value) : Option Value := cell.filter fun v ↦ !v.isNull

theorem normalizeCell_eq_none_iff {cell : Option Value} :
    normalizeCell cell = none ↔ cell = none ∨ cell = some .null := by
  cases cell with
  | none => exact iff_of_true rfl (.inl rfl)
  | some v => cases v <;> simp [normalizeCell, Value.isNull]

/-- Every other cell is stored as it is. -/
theorem normalizeCell_of_ne_null {v : Value} (h : v ≠ .null) : normalizeCell (some v) = some v := by
  rw [normalizeCell, Option.filter_some, if_pos]
  rw [Bool.not_eq_true', ← Bool.not_eq_true, Value.isNull_iff]
  exact h

/-- One turn of the validation loop of `add_row`. -/
def checkCell (t : Tablet) (cell : Option Value) (i : Nat) : Result Unit :=
  match cell with
  | none | some .null => pure ()
  | some v => do
      let ty ← index t.types i
      if v.dataType = some ty then pure ()
      else do
        let name ← index t.measurements i
        fail (.client s!"column {i} ({name}) expects {ty.debug}, got {v.debug}")

/-- `for (col, cell) in self.values.iter_mut().zip(row) { col.push(..) }`. -/
def pushCells : List (List (Option Value)) → List (Option Value) → List (List (Option Value))
  | col :: cols, cell :: cells => (col ++ [normalizeCell cell]) :: pushCells cols cells
  | cols, _ => cols

def addRow (t : Tablet) (timestamp : Int64) (row : List (Option Value)) : Result Unit × Tablet :=
  if row.length ≠ t.types.length then
    (fail (.client s!"row has {row.length} cells, tablet has {t.types.length} columns"), t)
  else
    match row.zipIdx.forM fun (cell, i) ↦ t.checkCell cell i with
    | .error e => (.error e, t)
    | .ok () =>
        (pure (), { t with
          timestamps := t.timestamps ++ [timestamp]
          values := pushCells t.values row })

/-- The index list `order` of `sort_by_timestamp`, after its stable sort. -/
def sortOrder (t : Tablet) : List Nat :=
  sortByKey (fun i ↦ (t.timestamps.getD i 0).toInt) (List.range t.timestamps.length)

def sortByTimestamp (t : Tablet) : Result Tablet :=
  -- Rows that are in order already are left as they are.
  if t.sortOrder.zipIdx.all fun (i, pos) ↦ pos == i then pure t
  else do
    let timestamps ← t.sortOrder.mapM (index t.timestamps)
    let values ← t.values.mapM fun col ↦ t.sortOrder.mapM (index col)
    pure { t with timestamps := timestamps, values := values }

/-- `write_binary`: the bytes appended to the buffer. -/
def writeBinary (bytes : List UInt8) : List UInt8 :=
  i32ToBeBytes (usizeAsI32 bytes.length) ++ bytes

def debugCell : Option Value → String
  | some v => s!"Some({v.debug})"
  | none => "None"

/-- `write_cell`: the bytes appended to the buffer. -/
def writeCell (ty : TSDataType) (cell : Option Value) : Result (List UInt8) :=
  match ty, cell with
  | .boolean, some (.boolean b) => pure [if b then 1 else 0]
  | .boolean, none => pure [0]
  | .int32, some (.int32 v) => pure (i32ToBeBytes v)
  | .int32, none => pure (i32ToBeBytes Int32.minValue)
  | .int64, some (.int64 v) => pure (i64ToBeBytes v)
  | .timestamp, some (.timestamp v) => pure (i64ToBeBytes v)
  | .int64, none | .timestamp, none => pure (i64ToBeBytes Int64.minValue)
  | .float, some (.float v) => pure (f32ToBeBytes v)
  -- `f32::MIN` and `f64::MIN`, the most negative finite values.
  | .float, none => pure (f32ToBeBytes 0xFF7FFFFF)
  | .double, some (.double v) => pure (f64ToBeBytes v)
  | .double, none => pure (f64ToBeBytes 0xFFEFFFFFFFFFFFFF)
  | .text, some (.text s) | .string, some (.string s) => pure (writeBinary (asBytes s))
  | .blob, some (.blob b) => pure (writeBinary b)
  | .text, none | .string, none | .blob, none => pure (writeBinary [])
  | .date, some (.date v) => pure (i32ToBeBytes v)
  | .date, none => pure (i32ToBeBytes 10000101)
  | ty, cell =>
      .error (.panic <| "internal error: entered unreachable code: " ++
        s!"cell {debugCell cell} does not match tablet column type {ty.debug}")

/-- `Vec::resize(n, 0)`. -/
def resize (bytes : List UInt8) (n : Nat) : List UInt8 :=
  bytes.take n ++ List.replicate (n - bytes.length) 0

/-- The trailing bitmap entry of one column. -/
def nullBitmap (rows : Nat) (col : List (Option Value)) : List UInt8 :=
  let nulls := col.map Option.isNone
  if nulls.any id then 1 :: resize (packBitsLsbFirst nulls) (rows / 8 + 1)
  else [0]

def serializeValues (t : Tablet) : Result (List UInt8 × Tablet) := do
  let t ← t.sortByTimestamp
  let cells ← (t.values.zip t.types).mapM fun (col, ty) ↦ do
    let chunks ← col.mapM (writeCell ty)
    pure chunks.flatten
  -- `debug_assert!(self.values.iter().all(|c| c.len() == rows))`
  if t.values.all fun col ↦ col.length == t.rowCount then
    pure (cells.flatten ++ t.values.flatMap (nullBitmap t.rowCount), t)
  else .error (.panic "assertion failed")

def serializeTimestamps (t : Tablet) : Result (List UInt8 × Tablet) := do
  let t ← t.sortByTimestamp
  pure (t.timestamps.flatMap i64ToBeBytes, t)

end Tablet

end IotdbClient
