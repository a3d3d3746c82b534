import IotdbClient.Data.RecordServer
import IotdbClient.Library.Layout

/-!
# Where the cells stand

The layouts of the two value buffers, from the types and the payloads of the cells: a tablet column
has no markers, a record cell is a marker byte and then what the column would hold.  A TEXT, STRING
or BLOB cell has a length field in front of its payload.
-/

namespace IotdbClient

open Library TabletServer

/-- A null cell has the empty payload. -/
def cellPayload (cell : Option Value) : List UInt8 := (cell.map Value.payload).getD []

/-- The payload of a cell that has a length field. -/
def countedPayload : TSDataType × Option Value → Option (List UInt8)
  | (.text, cell) | (.string, cell) | (.blob, cell) => some (cellPayload cell)
  | _ => none

def cellWidth : TSDataType × Option Value → Nat
  | (.boolean, _) => 1
  | (.int32, _) | (.float, _) | (.date, _) => 4
  | (.int64, _) | (.double, _) | (.timestamp, _) => 8
  | (.text, cell) | (.string, cell) | (.blob, cell) => 4 + (cellPayload cell).length
  | (.vector, _) | (.unknown, _) => 0

theorem cellWidth_counted {cell : TSDataType × Option Value} {bytes : List UInt8}
    (h : countedPayload cell = some bytes) : cellWidth cell = 4 + bytes.length := by
  obtain ⟨ty, cell⟩ := cell
  cases ty <;> cases h <;> rfl

def tabletLayout : Layout (TSDataType × Option Value) where
  width := cellWidth
  payload := countedPayload
  lead := 0
  width_payload _ _ h := by rw [cellWidth_counted h, Nat.zero_add]

/-- A null value is the bare marker. -/
def recordLayout : Layout Value where
  width v :=
    match v.dataType with
    | some ty => 1 + cellWidth (ty, some v)
    | none => 1
  payload v := v.dataType.bind fun ty ↦ countedPayload (ty, some v)
  lead := 1
  width_payload v bytes h := by
    obtain ⟨ty, hty, hbytes⟩ := Option.bind_eq_some_iff.mp h
    simp only [hty, cellWidth_counted hbytes, Nat.add_assoc]

/-! ## What the encoders write -/

/-- Whatever `write_cell` writes has the width of the cell and its length field in front. -/
theorem writeCell_layout {ty : TSDataType} {cell : Option Value} {bytes : List UInt8}
    (h : Tablet.writeCell ty cell = .ok bytes) :
    bytes.length = cellWidth (ty, cell) ∧
      ∀ payload, countedPayload (ty, cell) = some payload → bytes = Tablet.writeBinary payload := by
  have hbinary : ∀ payload : List UInt8, (Tablet.writeBinary payload).length = 4 + payload.length := by
    intro payload
    rw [Tablet.writeBinary, List.length_append, i32ToBeBytes_length]
  cases cell with
  | none =>
      cases ty with
      | text | string | blob =>
          cases h
          exact ⟨hbinary _, by rintro _ ⟨⟩; rfl⟩
      | vector | unknown => cases h
      | _ =>
          cases h
          exact ⟨by simp [cellWidth], by rintro _ ⟨⟩⟩
  | some v =>
      have htype : v.dataType = some ty := by
        cases v <;> cases ty <;> first | rfl | cases h
      cases v with
      | text | string | blob =>
          cases htype
          cases h
          exact ⟨hbinary _, by rintro _ ⟨⟩; rfl⟩
      | null => cases htype
      | _ =>
          cases htype
          cases h
          exact ⟨by simp [cellWidth], by rintro _ ⟨⟩⟩

theorem tabletLayout_writes {cell : TSDataType × Option Value}
    (h : Tablet.writeCell cell.1 cell.2 = .ok (cellImage cell.1 cell.2)) :
    tabletLayout.Writes (fun cell ↦ cellImage cell.1 cell.2) cell where
  width := (writeCell_layout h).1
  field bytes hbytes := ⟨[], rfl, (writeCell_layout h).2 bytes hbytes⟩

theorem recordLayout_writes (v : Value) : recordLayout.Writes recordCell v := by
  cases hty : v.dataType with
  | none =>
      obtain rfl : v = .null := (Value.isNull_iff v).mp ((Value.isNull_iff_dataType v).mpr hty)
      exact ⟨rfl, by rintro _ ⟨⟩⟩
  | some ty =>
      have hwrite : Tablet.writeCell ty (some v) = .ok (cellImage ty (some v)) := by
        cases v <;> cases hty <;> rfl
      obtain ⟨hwidth, hfield⟩ := writeCell_layout hwrite
      constructor
      · rw [RecordServer.recordCell_eq hty, List.length_cons, hwidth, Nat.add_comm]
        simp only [recordLayout, hty]
      · intro bytes hbytes
        have hcounted : countedPayload (ty, some v) = some bytes := by
          simpa only [recordLayout, hty, Option.bind_some] using hbytes
        refine ⟨[ty.codeByte], rfl, ?_⟩
        rw [RecordServer.recordCell_eq hty, hfield bytes hcounted]
        rfl

/-- A value has a length field for its payload, or an empty payload. -/
theorem countedPayload_value {v : Value} {ty : TSDataType} (h : v.dataType = some ty) :
    countedPayload (ty, some v) = some v.payload ∨
      countedPayload (ty, some v) = none ∧ v.payload = [] := by
  cases v with
  | text | string | blob =>
      cases h
      exact .inl rfl
  | null => cases h
  | _ =>
      cases h
      exact .inr ⟨rfl, rfl⟩

/-! ## Record buffers -/

theorem recordLayout_payload (v : Value) : recordLayout.payload v = some v.payload ∨
    recordLayout.payload v = none ∧ v.payload = [] := by
  cases hty : v.dataType with
  | none =>
      obtain rfl : v = .null := (Value.isNull_iff v).mp ((Value.isNull_iff_dataType v).mpr hty)
      exact .inr ⟨rfl, rfl⟩
  | some ty =>
      simp only [recordLayout, hty, Option.bind_some]
      exact countedPayload_value hty

theorem serializeRecordValues_framed_iff (values : List Value) :
    recordLayout.Framed values (serializeRecordValues values) ↔
      ∀ v ∈ values, v.payload.length < 2 ^ 31 := by
  have hframed := Layout.framed_iff (fun v (_ : v ∈ values) ↦ recordLayout_writes v) []
  rw [List.append_nil] at hframed
  rw [serializeRecordValues, hframed]
  apply forall₂_congr
  intro v _
  rcases recordLayout_payload v with hsome | ⟨hnone, hempty⟩
  · rw [hsome]
    exact ⟨fun h ↦ h _ rfl, by rintro h _ ⟨⟩; exact h⟩
  · rw [hnone, hempty]
    exact ⟨fun _ ↦ by decide, by rintro _ _ ⟨⟩⟩

/-! ## Tablet buffers -/

/-- The cells in the order of the buffer, column by column. -/
def wireCells (types : List TSDataType) (rows : List TabletRow) : List (TSDataType × Option Value) :=
  types.zipIdx.flatMap fun p ↦ (Tablet.column rows p.2).map fun cell ↦ (p.1, cell)

theorem valueImage_eq (types : List TSDataType) (rows : List TabletRow) :
    valueImage types rows = (wireCells types rows).flatMap (fun cell ↦ cellImage cell.1 cell.2) ++
      types.zipIdx.flatMap (fun p ↦ Tablet.nullBitmap rows.length (Tablet.column rows p.2)) := by
  rw [valueImage, wireCells, List.flatMap_assoc]
  simp only [List.flatMap_map]

theorem mem_wireCells {types : List TSDataType} {rows : List TabletRow}
    {cell : TSDataType × Option Value} (h : cell ∈ wireCells types rows) :
    ∃ p ∈ types.zipIdx, cell.1 = p.1 ∧ cell.2 ∈ Tablet.column rows p.2 := by
  obtain ⟨p, hp, hcell⟩ := List.mem_flatMap.mp h
  obtain ⟨c, hc, rfl⟩ := List.mem_map.mp hcell
  exact ⟨p, hp, rfl, hc⟩

/-- The cell that a row has in column `i`. -/
theorem cell_mem_wireCells {types : List TSDataType} {rows : List TabletRow} {row : TabletRow}
    (hrow : row ∈ rows) {i : Nat} {ty : TSDataType} (hty : types[i]? = some ty) :
    (ty, Tablet.normalizeCell (row.2.getD i none)) ∈ wireCells types rows := by
  apply List.mem_flatMap.mpr
  refine ⟨(ty, i), List.mem_zipIdx_iff_getElem?.mpr hty, ?_⟩
  exact List.mem_map.mpr ⟨_, List.mem_map.mpr ⟨row, hrow, rfl⟩, rfl⟩

/-- Every payload in the rows has a length below `2 ^ 31`. -/
def PayloadsFit (rows : List TabletRow) : Prop :=
  ∀ row ∈ rows, ∀ v, some v ∈ row.2 → v.payload.length < 2 ^ 31

theorem PayloadsFit.perm {rows rows' : List TabletRow} (hmem : ∀ row, row ∈ rows' ↔ row ∈ rows) :
    PayloadsFit rows' ↔ PayloadsFit rows := by
  constructor
  · exact fun h row hrow ↦ h row ((hmem row).mpr hrow)
  · exact fun h row hrow ↦ h row ((hmem row).mp hrow)

theorem valueImage_framed_iff {types : List TSDataType} {rows : List TabletRow}
    (hwritable : Writable types rows) (hfits : ∀ row ∈ rows, Tablet.RowFits types row) :
    tabletLayout.Framed (wireCells types rows) (valueImage types rows) ↔ PayloadsFit rows := by
  have hwrites : ∀ cell ∈ wireCells types rows,
      tabletLayout.Writes (fun cell ↦ cellImage cell.1 cell.2) cell := by
    intro cell hcell
    obtain ⟨p, hp, hty, hmem⟩ := mem_wireCells hcell
    apply tabletLayout_writes
    rw [hty]
    exact hwritable p hp cell.2 hmem
  rw [valueImage_eq, Layout.framed_iff hwrites]
  constructor
  · intro h row hrow v hv
    by_cases hnull : v.isNull = true
    · obtain rfl := (Value.isNull_iff v).mp hnull
      decide
    · -- the column that holds `v` has its type
      obtain ⟨i, hi, hget⟩ := List.mem_iff_getElem.mp hv
      have hcell : Tablet.normalizeCell (row.2.getD i none) = some v := by
        rw [List.getD_eq_getElem _ _ hi, hget]
        exact Tablet.normalizeCell_of_ne_null fun heq ↦ hnull ((Value.isNull_iff v).mpr heq)
      have htype := (hfits row hrow).cells i v hcell
      obtain ⟨ty, hty⟩ : ∃ ty, v.dataType = some ty := by
        rw [← Option.ne_none_iff_exists', ne_eq, ← Value.isNull_iff_dataType]
        exact hnull
      have hmem := cell_mem_wireCells hrow (htype.symm.trans hty)
      rw [hcell] at hmem
      rcases countedPayload_value hty with hsome | ⟨-, hempty⟩
      · exact h _ hmem _ hsome
      · rw [hempty]
        decide
  · intro h cell hcell bytes hbytes
    obtain ⟨p, hp, -, hmem⟩ := mem_wireCells hcell
    obtain ⟨row, hrow, hnormal⟩ := List.mem_map.mp hmem
    obtain ⟨ty, c⟩ := cell
    have hpayload : bytes = cellPayload c := by
      cases ty <;> cases hbytes <;> rfl
    rw [hpayload]
    cases c with
    | none => exact Nat.two_pow_pos 31
    | some v => exact h row hrow v (mem_of_cell hnormal)

end IotdbClient
