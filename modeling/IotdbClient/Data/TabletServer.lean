import IotdbClient.Data.TabletRows
import IotdbClient.Library.Parser

/-!
# Reading a tablet back

The reference server decoder of the `insertTablet` buffers: it is given the type codes and the row
count, reads the cells column by column, then one null bitmap entry a column, and masks.  The file
proves that it inverts the serializer on every row list that fits its types.
-/

namespace IotdbClient

open Library

namespace TabletServer

def typeOf (code : Int32) : Option TSDataType :=
  match code.toInt with
  | 0 => some .boolean
  | 1 => some .int32
  | 2 => some .int64
  | 3 => some .float
  | 4 => some .double
  | 5 => some .text
  | 8 => some .timestamp
  | 9 => some .date
  | 10 => some .blob
  | 11 => some .string
  | _ => none

def readBinary : Parser (List UInt8) := do
  let len ← Parser.i32
  if len < 0 then failure else Parser.takeBytes len.toInt.toNat

def readString : Parser String := do
  let bytes ← readBinary
  match fromUtf8 bytes with
  | some s => pure s
  | none => failure

def readCell : TSDataType → Parser Value
  | .boolean => (fun b ↦ .boolean (b == 1)) <$> Parser.byte
  | .int32 => Value.int32 <$> Parser.i32
  | .int64 => Value.int64 <$> Parser.i64
  | .float => (fun v ↦ .float v.toUInt32) <$> Parser.i32
  | .double => (fun v ↦ .double v.toUInt64) <$> Parser.i64
  | .text => Value.text <$> readString
  | .timestamp => Value.timestamp <$> Parser.i64
  | .date => Value.date <$> Parser.i32
  | .blob => Value.blob <$> readBinary
  | .string => Value.string <$> readString
  | .vector | .unknown => failure

/-- A flag byte and, if it is 1, a `rows / 8 + 1` byte LSB-first bitmap. -/
def readNulls (rows : Nat) : Parser (List Bool) := do
  let flag ← Parser.byte
  if flag = 1 then do
    let bitmap ← Parser.takeBytes (rows / 8 + 1)
    pure ((List.range rows).map (lsbBit bitmap))
  else pure (List.replicate rows false)

def maskCell (v : Value) (isNull : Bool) : Option Value := if isNull then none else some v

/-- The decoded rows and what is left of the two buffers. -/
def decodeTablet (types : List Int32) (size : Int32) (values timestamps : List UInt8) :
    Option (List TabletRow × List UInt8 × List UInt8) := do
  let types ← types.mapM typeOf
  let rows := size.toInt.toNat
  let (columns, rest) ← (types.mapM fun ty ↦ Parser.many (readCell ty) rows) values
  let (nulls, rest) ← (types.mapM fun _ ↦ readNulls rows) rest
  let (times, timeRest) ← Parser.many Parser.i64 rows timestamps
  let columns := List.zipWith (List.zipWith maskCell) columns nulls
  pure ((List.range rows).map fun i ↦ (times.getD i 0, columns.map fun col ↦ col.getD i none),
    rest, timeRest)

/-- The decoder behind the type codes and the size field: `rows` rows of the given types. -/
def decodeRows (types : List TSDataType) (rows : Nat) (values timestamps : List UInt8) :
    Option (List TabletRow × List UInt8 × List UInt8) := do
  let (columns, rest) ← (types.mapM fun ty ↦ Parser.many (readCell ty) rows) values
  let (nulls, rest) ← (types.mapM fun _ ↦ readNulls rows) rest
  let (times, timeRest) ← Parser.many Parser.i64 rows timestamps
  let columns := List.zipWith (List.zipWith maskCell) columns nulls
  pure ((List.range rows).map fun i ↦ (times.getD i 0, columns.map fun col ↦ col.getD i none),
    rest, timeRest)

theorem decodeTablet_eq (types : List Int32) (size : Int32) (values timestamps : List UInt8) :
    decodeTablet types size values timestamps =
      (types.mapM typeOf).bind fun types ↦ decodeRows types size.toInt.toNat values timestamps := rfl

/-- The rows of the two buffers alone: the time buffer says how many there are, and nothing may be
left over. -/
def decodeBuffers (types : List Int32) (values timestamps : List UInt8) : Option (List TabletRow) := do
  let types ← types.mapM typeOf
  match ← decodeRows types (timestamps.length / 8) values timestamps with
  | (rows, [], []) => pure rows
  | _ => failure

/-! ## Cells -/

/-- What the server reads in the slot of a null cell. -/
def placeholder : TSDataType → Value
  | .boolean => .boolean false
  | .int32 => .int32 Int32.minValue
  | .int64 => .int64 Int64.minValue
  | .float => .float 0xFF7FFFFF
  | .double => .double 0xFFEFFFFFFFFFFFFF
  | .text => .text ""
  | .timestamp => .timestamp Int64.minValue
  | .date => .date 10000101
  | .blob => .blob []
  | .string => .string ""
  | .vector | .unknown => .null

def cellImage (ty : TSDataType) (cell : Option Value) : List UInt8 :=
  match Tablet.writeCell ty cell with
  | .ok bytes => bytes
  | .error _ => []

theorem parses_binary (bytes : List UInt8) (h : bytes.length < 2 ^ 31) :
    Parses readBinary (Tablet.writeBinary bytes) bytes := by
  apply (Parses.i32 _).bind
  rw [if_neg (usizeAsI32_nonneg h), usizeAsI32_toNat h]
  exact Parses.takeBytes bytes rfl

theorem parses_string (s : String) (h : (asBytes s).length < 2 ^ 31) :
    Parses readString (Tablet.writeBinary (asBytes s)) s := by
  apply (parses_binary _ h).bind_pure
  rw [fromUtf8_asBytes]

theorem parses_float (bits : UInt32) :
    Parses (readCell .float) (f32ToBeBytes bits) (.float bits) := by
  have h := (Parses.takeBytes (f32ToBeBytes bits) (f32ToBeBytes_length bits)).map i32FromBeBytes
  have hcell := h.map fun v ↦ Value.float v.toUInt32
  rwa [i32FromBeBytes_f32ToBeBytes] at hcell

theorem parses_double (bits : UInt64) :
    Parses (readCell .double) (f64ToBeBytes bits) (.double bits) := by
  have h := (Parses.takeBytes (f64ToBeBytes bits) (f64ToBeBytes_length bits)).map i64FromBeBytes
  have hcell := h.map fun v ↦ Value.double v.toUInt64
  rwa [i64FromBeBytes_f64ToBeBytes] at hcell

/-- The encoding of one cell: `write_cell` does not reach its `unreachable!` arm, and the server
reads the value back, or the placeholder in the slot of a null. -/
theorem writeCell_parses (ty : TSDataType) (cell : Option Value) (hty : ty.insertable = true)
    (htype : ∀ v, cell = some v → v.dataType = some ty)
    (hpayload : ∀ v, cell = some v → v.payload.length < 2 ^ 31) :
    ∃ bytes, Tablet.writeCell ty cell = .ok bytes ∧
      Parses (readCell ty) bytes (cell.getD (placeholder ty)) := by
  cases cell with
  | none =>
      -- a null cell is written as the placeholder of its type
      have hempty : asBytes "" = [] := rfl
      have htext : Parses readString (Tablet.writeBinary []) "" := by
        rw [← hempty]
        exact parses_string "" (by rw [hempty]; decide)
      cases ty with
      | boolean => exact ⟨_, rfl, (Parses.byte 0).map _⟩
      | int32 => exact ⟨_, rfl, (Parses.i32 _).map _⟩
      | int64 => exact ⟨_, rfl, (Parses.i64 _).map _⟩
      | float => exact ⟨_, rfl, parses_float _⟩
      | double => exact ⟨_, rfl, parses_double _⟩
      | text => exact ⟨_, rfl, htext.map _⟩
      | timestamp => exact ⟨_, rfl, (Parses.i64 _).map _⟩
      | date => exact ⟨_, rfl, (Parses.i32 _).map _⟩
      | blob => exact ⟨_, rfl, (parses_binary [] (by decide)).map _⟩
      | string => exact ⟨_, rfl, htext.map _⟩
      | vector => cases hty
      | unknown => cases hty
  | some v =>
      have hv := htype v rfl
      have hlen := hpayload v rfl
      cases v with
      | boolean b =>
          cases hv
          refine ⟨_, rfl, ?_⟩
          cases b
          · exact (Parses.byte 0).map _
          · exact (Parses.byte 1).map _
      | int32 v => cases hv; exact ⟨_, rfl, (Parses.i32 v).map _⟩
      | int64 v => cases hv; exact ⟨_, rfl, (Parses.i64 v).map _⟩
      | float bits => cases hv; exact ⟨_, rfl, parses_float bits⟩
      | double bits => cases hv; exact ⟨_, rfl, parses_double bits⟩
      | text s => cases hv; exact ⟨_, rfl, (parses_string s hlen).map _⟩
      | timestamp v => cases hv; exact ⟨_, rfl, (Parses.i64 v).map _⟩
      | date v => cases hv; exact ⟨_, rfl, (Parses.i32 v).map _⟩
      | blob b => cases hv; exact ⟨_, rfl, (parses_binary b hlen).map _⟩
      | string s => cases hv; exact ⟨_, rfl, (parses_string s hlen).map _⟩
      | null => cases hv

/-! ## Bitmaps -/

theorem resize_pack (nulls : List Bool) :
    (Tablet.resize (packBitsLsbFirst nulls) (nulls.length / 8 + 1)).length = nulls.length / 8 + 1 ∧
      ∀ i, lsbBit (Tablet.resize (packBitsLsbFirst nulls) (nulls.length / 8 + 1)) i =
        nulls.getD i false := by
  have hlen := packBitsLsbFirst_length nulls
  have hle : (packBitsLsbFirst nulls).length ≤ nulls.length / 8 + 1 := by
    rw [hlen]
    unfold divCeil8
    omega
  unfold Tablet.resize
  rw [List.take_of_length_le hle]
  constructor
  · rw [List.length_append, List.length_replicate]
    omega
  · intro i
    rw [← packBitsLsbFirst_lsbBit]
    -- the padding byte is zero, as is everything beyond the packed string
    unfold lsbBit
    by_cases hi : i / 8 < (packBitsLsbFirst nulls).length
    · rw [List.getD_append _ _ _ _ hi]
    · rw [List.getD_append_right _ _ _ _ (by omega), getD_replicate_self,
        List.getD_eq_default _ _ (by omega)]

theorem parses_nullBitmap (col : List (Option Value)) :
    Parses (readNulls col.length) (Tablet.nullBitmap col.length col) (col.map Option.isNone) := by
  unfold Tablet.nullBitmap
  by_cases hany : (col.map Option.isNone).any id = true
  · simp only [hany, if_true]
    obtain ⟨hlen, hbits⟩ := resize_pack (col.map Option.isNone)
    rw [List.length_map] at hlen hbits
    apply (Parses.byte 1).bind
    rw [if_pos rfl]
    apply (Parses.takeBytes _ hlen).bind_pure
    simp only [funext hbits]
    have hmap := map_getD_range (col.map Option.isNone) false
    rw [List.length_map] at hmap
    rw [hmap]
  · have hnone : col.map Option.isNone = List.replicate col.length false := by
      rw [List.eq_replicate_iff]
      refine ⟨List.length_map _, ?_⟩
      intro b hb
      cases b
      · rfl
      · exact (hany (List.any_eq_true.mpr ⟨true, hb, rfl⟩)).elim
    change Parses _ (if (col.map Option.isNone).any id then _ else [0]) _
    rw [if_neg hany, hnone]
    exact (Parses.byte 0).bind_pure rfl

/-! ## Whole buffers -/

def normalizeRow (row : TabletRow) : TabletRow := (row.1, row.2.map Tablet.normalizeCell)

/-- The value buffer of a row list: all columns, then all bitmap entries. -/
def valueImage (types : List TSDataType) (rows : List TabletRow) : List UInt8 :=
  types.zipIdx.flatMap (fun p ↦ (Tablet.column rows p.2).flatMap (cellImage p.1)) ++
    types.zipIdx.flatMap (fun p ↦ Tablet.nullBitmap rows.length (Tablet.column rows p.2))

def timeImage (rows : List TabletRow) : List UInt8 := rows.flatMap fun row ↦ i64ToBeBytes row.1

/-- The rows the wire format can carry: they fit insertable types and every payload has a length
below `2 ^ 31`. -/
structure Encodable (types : List TSDataType) (rows : List TabletRow) : Prop where
  insertable : ∀ ty ∈ types, ty.insertable = true
  fits : ∀ row ∈ rows, Tablet.RowFits types row
  payload : ∀ row ∈ rows, ∀ v, some v ∈ row.2 → v.payload.length < 2 ^ 31

theorem Encodable.perm {types : List TSDataType} {rows rows' : List TabletRow}
    (h : Encodable types rows) (hmem : ∀ row, row ∈ rows' ↔ row ∈ rows) : Encodable types rows' where
  insertable := h.insertable
  fits := fun row hrow ↦ h.fits row ((hmem row).mp hrow)
  payload := fun row hrow ↦ h.payload row ((hmem row).mp hrow)

theorem normalizeCell_eq_some {cell : Option Value} {v : Value}
    (h : Tablet.normalizeCell cell = some v) : cell = some v := by
  unfold Tablet.normalizeCell at h
  exact (Option.filter_eq_some_iff.mp h).1

/-- A value in column `i` of a row is one of its cells. -/
theorem mem_of_cell {row : TabletRow} {i : Nat} {v : Value}
    (h : Tablet.normalizeCell (row.2.getD i none) = some v) : some v ∈ row.2 := by
  have hget := normalizeCell_eq_some h
  by_cases hlt : i < row.2.length
  · rw [List.getD_eq_getElem _ _ hlt] at hget
    exact hget ▸ List.getElem_mem hlt
  · rw [List.getD_eq_default _ _ (by omega)] at hget
    cases hget

/-- Every cell of every column is written and read back. -/
theorem Encodable.cell {types : List TSDataType} {rows : List TabletRow} (h : Encodable types rows)
    {p : TSDataType × Nat} (hp : p ∈ types.zipIdx) {cell : Option Value}
    (hcell : cell ∈ Tablet.column rows p.2) :
    Tablet.writeCell p.1 cell = .ok (cellImage p.1 cell) ∧
      Parses (readCell p.1) (cellImage p.1 cell) (cell.getD (placeholder p.1)) := by
  have hty : types[p.2]? = some p.1 := List.mem_zipIdx_iff_getElem?.mp hp
  obtain ⟨row, hrow, rfl⟩ := List.mem_map.mp hcell
  obtain ⟨bytes, hwrite, hparse⟩ := writeCell_parses p.1 _
    (h.insertable _ (List.mem_of_getElem? hty))
    (fun v hv ↦ ((h.fits row hrow).cells p.2 v hv).trans hty)
    (fun v hv ↦ h.payload row hrow v (mem_of_cell hv))
  have himage : cellImage p.1 (Tablet.normalizeCell (row.2.getD p.2 none)) = bytes := by
    rw [cellImage, hwrite]
  rw [himage]
  exact ⟨hwrite, hparse⟩

theorem zip_range_eq {α : Type} (types : List TSDataType) (f : Nat → α) :
    ((List.range types.length).map f).zip types = types.zipIdx.map fun p ↦ (f p.2, p.1) := by
  apply List.ext_getElem
  · simp
  · intro i h1 h2
    simp

theorem map_range_eq {α : Type} (types : List TSDataType) (f : Nat → α) :
    (List.range types.length).map f = types.zipIdx.map fun p ↦ f p.2 := by
  apply List.ext_getElem
  · simp
  · intro i h1 h2
    simp

/-- No cell reaches the `unreachable!` arm of `write_cell`. -/
def Writable (types : List TSDataType) (rows : List TabletRow) : Prop :=
  ∀ p ∈ types.zipIdx, ∀ cell ∈ Tablet.column rows p.2,
    Tablet.writeCell p.1 cell = .ok (cellImage p.1 cell)

theorem serializeValues_of_writable (t : Tablet) (rows : List TabletRow)
    (h : Writable t.types (sortByKey Tablet.timeKey rows)) :
    (Tablet.ofRows t rows).serializeValues =
      .ok (valueImage t.types (sortByKey Tablet.timeKey rows),
        Tablet.ofRows t (sortByKey Tablet.timeKey rows)) := by
  generalize hrows : sortByKey Tablet.timeKey rows = rows' at h ⊢
  unfold Tablet.serializeValues
  rw [Tablet.sortByTimestamp_ofRows, hrows]
  change ((((List.range t.types.length).map (Tablet.column rows')).zip t.types).mapM _ :
    Except (Fault Error) (List (List UInt8))) >>= _ = _
  rw [zip_range_eq, List.mapM_map (m := Except (Fault Error)),
    mapM_ok (g := fun p ↦ (Tablet.column rows' p.2).flatMap (cellImage p.1))]
  · have hall : ((Tablet.ofRows t rows').values.all fun col ↦
        col.length == (Tablet.ofRows t rows').rowCount) = true := by
      simp [Tablet.ofRows, Tablet.rowCount]
    have hcount : (Tablet.ofRows t rows').rowCount = rows'.length := List.length_map ..
    change (if (Tablet.ofRows t rows').values.all _ then _ else _) = _
    rw [if_pos hall, hcount]
    have hbitmaps : (Tablet.ofRows t rows').values.flatMap (Tablet.nullBitmap rows'.length) =
        t.types.zipIdx.flatMap fun p ↦ Tablet.nullBitmap rows'.length (Tablet.column rows' p.2) := by
      change ((List.range t.types.length).map (Tablet.column rows')).flatMap _ = _
      rw [map_range_eq, List.flatMap_map]
    rw [hbitmaps, valueImage, ← List.flatMap_def]
    rfl
  · intro p hp
    change ((Tablet.column rows' p.2).mapM (Tablet.writeCell p.1) :
      Except (Fault Error) (List (List UInt8))) >>= _ = _
    rw [mapM_ok (g := cellImage p.1) (h p hp), List.flatMap_def]
    rfl

/-- `serialize_values` returns the value image of the sorted rows and leaves the tablet sorted. -/
theorem serializeValues_ofRows (t : Tablet) (rows : List TabletRow) (h : Encodable t.types rows) :
    (Tablet.ofRows t rows).serializeValues =
      .ok (valueImage t.types (sortByKey Tablet.timeKey rows),
        Tablet.ofRows t (sortByKey Tablet.timeKey rows)) := by
  have hsorted : Encodable t.types (sortByKey Tablet.timeKey rows) := h.perm fun _ ↦ mem_sortByKey
  exact serializeValues_of_writable t rows fun p hp cell hcell ↦ (hsorted.cell hp hcell).1

theorem serializeTimestamps_ofRows (t : Tablet) (rows : List TabletRow) :
    (Tablet.ofRows t rows).serializeTimestamps =
      .ok (timeImage (sortByKey Tablet.timeKey rows),
        Tablet.ofRows t (sortByKey Tablet.timeKey rows)) := by
  unfold Tablet.serializeTimestamps
  rw [Tablet.sortByTimestamp_ofRows]
  simp only [timeImage, ← List.flatMap_map]
  rfl

theorem serializeTimestamps_sorted (t : Tablet) (rows : List TabletRow) :
    (Tablet.ofRows t (sortByKey Tablet.timeKey rows)).serializeTimestamps =
      .ok (timeImage (sortByKey Tablet.timeKey rows),
        Tablet.ofRows t (sortByKey Tablet.timeKey rows)) := by
  have hidem : sortByKey Tablet.timeKey (sortByKey Tablet.timeKey rows) = sortByKey Tablet.timeKey rows :=
    (sortByKey_stablySorted Tablet.timeKey rows).sorted.insertionSort_eq
  have htimes := serializeTimestamps_ofRows t (sortByKey Tablet.timeKey rows)
  rwa [hidem] at htimes

/-- Both serializers, called in the order the insert calls use. -/
theorem serialize_built {t : Tablet} {rows : List TabletRow} (hb : Tablet.Built t rows)
    (h : Encodable t.types rows) :
    t.serializeValues = .ok (valueImage t.types (sortByKey Tablet.timeKey rows),
        Tablet.ofRows t (sortByKey Tablet.timeKey rows)) ∧
      (Tablet.ofRows t (sortByKey Tablet.timeKey rows)).serializeTimestamps =
        .ok (timeImage (sortByKey Tablet.timeKey rows),
          Tablet.ofRows t (sortByKey Tablet.timeKey rows)) := by
  have hvalues := serializeValues_ofRows t rows h
  rw [← hb.image.1] at hvalues
  exact ⟨hvalues, serializeTimestamps_sorted t rows⟩

theorem typeOf_code {ty : TSDataType} (h : ty.insertable = true) : typeOf ty.code = some ty := by
  cases ty <;> first | rfl | cases h

theorem mapM_typeOf {types : List TSDataType} (h : ∀ ty ∈ types, ty.insertable = true) :
    (types.map TSDataType.code).mapM typeOf = some types := by
  rw [List.mapM_map]
  induction types with
  | nil => rfl
  | cons ty types ih =>
      rw [List.forall_mem_cons] at h
      rw [List.mapM_cons, Function.comp_apply, typeOf_code h.1, ih h.2]
      rfl

theorem mapM_zipIdx {β : Type} (types : List TSDataType) (f : TSDataType → Parser β) :
    types.mapM f = types.zipIdx.mapM fun p ↦ f p.1 := by
  have htypes : types = types.zipIdx.map Prod.fst := by simp
  conv_lhs => rw [htypes, List.mapM_map]
  rfl

theorem mask_stored (ty : TSDataType) (cell : Option Value) :
    maskCell (cell.getD (placeholder ty)) cell.isNone = cell := by
  cases cell <;> rfl

/-- Masking the columns read with the bitmaps read gives the columns back. -/
theorem mask_columns (types : List TSDataType) (rows : List TabletRow) :
    List.zipWith (List.zipWith maskCell)
        (types.zipIdx.map fun p ↦ (Tablet.column rows p.2).map fun cell ↦
          cell.getD (placeholder p.1))
        (types.zipIdx.map fun p ↦ (Tablet.column rows p.2).map Option.isNone) =
      types.zipIdx.map fun p ↦ Tablet.column rows p.2 := by
  rw [List.zipWith_map, List.zipWith_self]
  apply List.map_congr_left
  intro p _
  rw [List.zipWith_map, List.zipWith_self]
  simp only [mask_stored, List.map_id']

theorem transpose_columns {types : List TSDataType} {rows : List TabletRow}
    (h : ∀ row ∈ rows, row.2.length = types.length) :
    ((List.range rows.length).map fun i ↦
      ((rows.map Prod.fst).getD i 0,
        (types.zipIdx.map fun p ↦ Tablet.column rows p.2).map fun col ↦ col.getD i none)) =
      rows.map normalizeRow := by
  apply List.ext_getElem
  · simp
  · intro i h1 h2
    have hi : i < rows.length := by simpa using h2
    have hlen := h rows[i] (List.getElem_mem hi)
    simp only [List.getElem_map, List.getElem_range, normalizeRow, List.map_map]
    refine Prod.ext (by simp [hi]) ?_
    apply List.ext_getElem
    · simp [hlen]
    · intro c hc1 hc2
      have hc : c < rows[i].2.length := by simpa using hc2
      simp [Tablet.column, hi, hc]

/-- The server reads exactly the rows, in the order they were serialized, and nothing is left. -/
theorem decodeRows_image {types : List TSDataType} {rows : List TabletRow}
    (h : Encodable types rows) :
    decodeRows types rows.length (valueImage types rows) (timeImage rows) =
      some (rows.map normalizeRow, [], []) := by
  have hcells : Parses (types.mapM fun ty ↦ Parser.many (readCell ty) rows.length)
      (types.zipIdx.flatMap fun p ↦ (Tablet.column rows p.2).flatMap (cellImage p.1))
      (types.zipIdx.map fun p ↦ (Tablet.column rows p.2).map fun cell ↦
        cell.getD (placeholder p.1)) := by
    rw [mapM_zipIdx]
    apply Parses.mapM
    intro p hp
    have hcol := Parses.many (Tablet.column rows p.2) fun cell hcell ↦ (h.cell hp hcell).2
    rwa [Tablet.column_length] at hcol
  have hnulls : Parses (types.mapM fun _ ↦ readNulls rows.length)
      (types.zipIdx.flatMap fun p ↦ Tablet.nullBitmap rows.length (Tablet.column rows p.2))
      (types.zipIdx.map fun p ↦ (Tablet.column rows p.2).map Option.isNone) := by
    rw [mapM_zipIdx]
    apply Parses.mapM
    intro p _
    have hcol := parses_nullBitmap (Tablet.column rows p.2)
    rwa [Tablet.column_length] at hcol
  have htimes : Parses (Parser.many Parser.i64 rows.length) (timeImage rows)
      (rows.map Prod.fst) := Parses.many rows fun row _ ↦ Parses.i64 row.1
  have hcells' := hcells
    (types.zipIdx.flatMap fun p ↦ Tablet.nullBitmap rows.length (Tablet.column rows p.2))
  have hnulls' := hnulls []
  have htimes' := htimes []
  rw [List.append_nil] at hnulls' htimes'
  unfold decodeRows
  simp only [Option.bind_eq_bind, Option.bind_some, valueImage, hcells', hnulls', htimes',
    mask_columns, transpose_columns fun row hrow ↦ (h.fits row hrow).length]
  rfl

theorem decodeTablet_image {types : List TSDataType} {rows : List TabletRow}
    (h : Encodable types rows) (hcount : rows.length < 2 ^ 31) :
    decodeTablet (types.map TSDataType.code) (usizeAsI32 rows.length) (valueImage types rows)
      (timeImage rows) = some (rows.map normalizeRow, [], []) := by
  rw [decodeTablet_eq, mapM_typeOf h.insertable, Option.bind_some, usizeAsI32_toNat hcount]
  exact decodeRows_image h

theorem timeImage_length (rows : List TabletRow) : (timeImage rows).length = 8 * rows.length := by
  simp [timeImage, List.length_flatMap]
  omega

theorem decodeBuffers_image {types : List TSDataType} {rows : List TabletRow}
    (h : Encodable types rows) :
    decodeBuffers (types.map TSDataType.code) (valueImage types rows) (timeImage rows) =
      some (rows.map normalizeRow) := by
  have hcount : (timeImage rows).length / 8 = rows.length := by
    rw [timeImage_length]
    omega
  unfold decodeBuffers
  rw [mapM_typeOf h.insertable, hcount]
  change (decodeRows types rows.length (valueImage types rows) (timeImage rows)).bind _ = _
  rw [decodeRows_image h]
  rfl

end TabletServer

end IotdbClient
