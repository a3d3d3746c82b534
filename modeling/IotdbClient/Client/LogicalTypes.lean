import IotdbClient.Client.DataSet
import IotdbClient.Data.TsBlockCodec

/-!
# Logical types

A block header may carry a column's logical type or the physical type its cells are stored in.  The
decoder tags cells with the header's type, and `apply_logical_type` tags them again with the type
named in `dataTypeList`.  The two together return the cells that were encoded.
-/

namespace IotdbClient

open Library Reader

/-- The physical type a header carries in place of a logical one. -/
def TSDataType.carrier : TSDataType → TSDataType
  | .date => .int32
  | .timestamp => .int64
  | .string | .blob => .text
  | ty => ty

/-- The name of a type in `dataTypeList`. -/
def TSDataType.name : TSDataType → String
  | .boolean => "BOOLEAN"
  | .int32 => "INT32"
  | .int64 => "INT64"
  | .float => "FLOAT"
  | .double => "DOUBLE"
  | .text => "TEXT"
  | .vector => "VECTOR"
  | .unknown => "UNKNOWN"
  | .timestamp => "TIMESTAMP"
  | .date => "DATE"
  | .blob => "BLOB"
  | .string => "STRING"

/-- A header type for columns of type `ty`. -/
def TSDataType.CarriedBy (ty header : TSDataType) : Prop := header = ty ∨ header = ty.carrier

/-- An encoding of `block` whose header carries the types `header`: the bodies are those of the
logical columns. -/
inductive EncodesUnder (header : List TSDataType) (block : TsBlock) : List UInt8 → Prop where
  | mk {timeEncoding : UInt8} {timeBytes : List UInt8} {parts : List (UInt8 × List UInt8)}
      (htime : EncodesColumn .int64 (block.timestamps.map Value.int64) timeEncoding timeBytes)
      (hparts : parts.length = block.columnTypes.length)
      (hcolumns : ∀ (i : Nat) (ty : TSDataType) (col : List Value) (part : UInt8 × List UInt8),
        block.columnTypes[i]? = some ty → block.columns[i]? = some col → parts[i]? = some part →
        EncodesColumn ty col part.1 part.2) :
      EncodesUnder header block
        (i32ToBeBytes (usizeAsI32 header.length) ++
          (header.map TSDataType.codeByte ++
            (i32ToBeBytes (usizeAsI32 block.positionCount) ++
              ([timeEncoding] ++
                (parts.map Prod.fst ++ (timeBytes ++ parts.flatMap Prod.snd))))))

/-! ## What the decoder makes of a cell -/

/-- A payload under a TEXT header: text where it is UTF-8, a blob where it is not. -/
def textOrBlob (bytes : List UInt8) : Value :=
  match fromUtf8 bytes with
  | some s => .text s
  | none => .blob bytes

/-- The cell a decoder returns for `v` under the header type `header`. -/
def Value.under (header : TSDataType) : Value → Value
  | .date v => if header = .int32 then .int32 v else .date v
  | .timestamp v => if header = .int64 then .int64 v else .timestamp v
  | .string s => if header = .text then .text s else .string s
  | .blob b => if header = .text then textOrBlob b else .blob b
  | v => v

/-- A block as the decoder returns it. -/
def TsBlock.under (header : List TSDataType) (block : TsBlock) : TsBlock where
  positionCount := block.positionCount
  columnTypes := header
  timestamps := block.timestamps
  columns := List.zipWith (fun ty col ↦ col.map (Value.under ty)) header block.columns

theorem arrayEncoding_carried {ty header : TSDataType} (h : ty.CarriedBy header) :
    arrayEncoding header = arrayEncoding ty := by
  rcases h with rfl | rfl
  · rfl
  · cases ty <;> rfl

/-- Only cells of the four types with a carrier of their own change. -/
theorem under_of_cell {ty : TSDataType} {v : Value} (hv : CellOf ty v) : v.under ty = v := by
  rcases hv.1 with rfl | htype
  · rfl
  · cases v <;> cases htype <;> rfl

theorem consumes_textOrBlob {bytes : List UInt8} (h : bytes.length < 2 ^ 31) :
    Consumes (decodeBinaryCell .text false) (i32ToBeBytes (usizeAsI32 bytes.length) ++ bytes)
      (textOrBlob bytes) := by
  apply consumes_prefixed h
  simp only [textOrBlob]
  cases fromUtf8 bytes with
  | some s => rfl
  | none => rfl

/-- Away from blobs under TEXT the cell returned is a cell of the header's type with the same
bytes. -/
theorem under_cellOf {ty header : TSDataType} {v : Value} (hv : CellOf ty v)
    (h : ty.CarriedBy header) (hblob : header = .text → ty ≠ .blob) :
    CellOf header (v.under header) ∧ (v.under header).isNull = v.isNull ∧
      cellBytes (v.under header) = cellBytes v := by
  rcases h with rfl | rfl
  · rw [under_of_cell hv]
    exact ⟨hv, rfl, rfl⟩
  · obtain ⟨rfl | htype, hlen⟩ := hv
    · exact ⟨⟨.inl rfl, hlen⟩, rfl, rfl⟩
    · cases v <;> cases htype <;>
        first | exact ⟨⟨.inr rfl, hlen⟩, rfl, rfl⟩ | exact absurd rfl (hblob rfl)

theorem consumes_int32Cell_under {ty header : TSDataType} {v : Value} (hv : CellOf ty v)
    (h : ty.CarriedBy header) (hty : arrayEncoding ty = encodingInt32Array) :
    Consumes (decodeInt32Cell header v.isNull) (cellBytes v) (v.under header) := by
  have hblob : header = .text → ty ≠ .blob := by
    rintro - rfl
    cases hty
  obtain ⟨hcell, hnull, hbytes⟩ := under_cellOf hv h hblob
  have hread := consumes_int32Cell hcell ((arrayEncoding_carried h).trans hty)
  rwa [hnull, hbytes] at hread

theorem consumes_int64Cell_under {ty header : TSDataType} {v : Value} (hv : CellOf ty v)
    (h : ty.CarriedBy header) (hty : arrayEncoding ty = encodingInt64Array) :
    Consumes (decodeInt64Cell header v.isNull) (cellBytes v) (v.under header) := by
  have hblob : header = .text → ty ≠ .blob := by
    rintro - rfl
    cases hty
  obtain ⟨hcell, hnull, hbytes⟩ := under_cellOf hv h hblob
  have hread := consumes_int64Cell hcell ((arrayEncoding_carried h).trans hty)
  rwa [hnull, hbytes] at hread

theorem consumes_binaryCell_under {ty header : TSDataType} {v : Value} (hv : CellOf ty v)
    (h : ty.CarriedBy header) (hty : arrayEncoding ty = encodingBinaryArray) :
    Consumes (decodeBinaryCell header v.isNull) (cellBytes v) (v.under header) := by
  by_cases hblob : header = .text → ty ≠ .blob
  · obtain ⟨hcell, hnull, hbytes⟩ := under_cellOf hv h hblob
    have hread := consumes_binaryCell hcell ((arrayEncoding_carried h).trans hty)
    rwa [hnull, hbytes] at hread
  · -- A blob under TEXT: whether it comes back as text is decided by its bytes alone.
    push Not at hblob
    obtain ⟨rfl, rfl⟩ := hblob
    obtain ⟨rfl | htype, hlen⟩ := hv
    · exact Consumes.pure _
    · cases v with
      | blob b => exact consumes_textOrBlob hlen
      | _ => cases htype

/-! ## Columns and blocks -/

theorem consumes_cells_under {header : TSDataType} {cells : List Value} {f : Bool → ReaderM Value}
    (hf : ∀ v ∈ cells, Consumes (f v.isNull) (cellBytes v) (v.under header)) :
    Consumes ((cells.map Value.isNull).mapM f) (cells.flatMap cellBytes)
      (cells.map (Value.under header)) := by
  rw [List.mapM_map]
  exact Consumes.mapM cells hf

theorem consumes_array_under {ty header : TSDataType} {cells : List Value} {bytes : List UInt8}
    (hcells : ∀ v ∈ cells, CellOf ty v) (hheader : ty.CarriedBy header)
    (h : EncodesArray ty cells bytes) :
    Consumes (decodeArray (arrayEncoding ty) header cells.length) bytes
      (cells.map (Value.under header)) := by
  by_cases hbool : ty = .boolean
  · have hsame : header = ty := by
      subst hbool
      exact hheader.elim id id
    have hid : cells.map (Value.under ty) = cells := by
      rw [List.map_congr_left fun v hv ↦ under_of_cell (hcells v hv), List.map_id']
    rw [hsame, hid]
    exact consumes_array hcells h
  · cases h with
    | bits hty => exact absurd hty hbool
    | dense _ hnulls =>
        rcases arrayEncoding_dense hbool with hcode | hcode | hcode <;> rw [hcode]
        · exact (consumes_nulls hnulls).bind (consumes_cells_under fun v hv ↦
            consumes_int32Cell_under (hcells v hv) hheader hcode)
        · exact (consumes_nulls hnulls).bind (consumes_cells_under fun v hv ↦
            consumes_int64Cell_under (hcells v hv) hheader hcode)
        · exact (consumes_nulls hnulls).bind (consumes_cells_under fun v hv ↦
            consumes_binaryCell_under (hcells v hv) hheader hcode)

theorem consumes_column_under {ty header : TSDataType} {cells : List Value} {encoding : UInt8}
    {bytes : List UInt8} (hcells : ∀ v ∈ cells, CellOf ty v) (hheader : ty.CarriedBy header)
    (h : EncodesColumn ty cells encoding bytes) :
    Consumes (decodeColumn encoding header cells.length) bytes
      (cells.map (Value.under header)) := by
  cases h with
  | array harray =>
      rw [decodeColumn, if_neg (arrayEncoding_ne_rle ty)]
      exact consumes_array_under hcells hheader harray
  | @rle v bytes hv hall harray =>
      have hone : ∀ w ∈ [v], CellOf ty w := by simpa using hv
      have hsingle := consumes_array_under hone hheader harray
      have hconstant : List.replicate cells.length (v.under header) =
          cells.map (Value.under header) := by
        rw [← List.map_replicate, List.eq_replicate_iff.mpr ⟨rfl, hall⟩, List.length_replicate]
      rw [decodeColumn, if_pos rfl]
      apply (consumes_readU8 (arrayEncoding ty)).bind
      rw [if_neg (arrayEncoding_ne_rle ty)]
      exact hsingle.bind_pure (congrArg pure hconstant)

/-- The logical type of a column, from its header type. -/
theorem carriedBy_at {types header : List TSDataType} {i : Nat} {ty' : TSDataType}
    (h : List.Forall₂ TSDataType.CarriedBy types header) (hty' : header[i]? = some ty') :
    ∃ ty, types[i]? = some ty ∧ ty.CarriedBy ty' := by
  obtain ⟨hi', rfl⟩ := List.getElem?_eq_some_iff.mp hty'
  have hi : i < types.length := h.length_eq ▸ hi'
  exact ⟨types[i], List.getElem?_eq_getElem hi, h.get hi hi'⟩

theorem consumes_block_under {header : List TSDataType} {block : TsBlock} {bytes : List UInt8}
    (hblock : block.WellFormed)
    (hheader : List.Forall₂ TSDataType.CarriedBy block.columnTypes header)
    (h : EncodesUnder header block bytes) :
    Consumes decodeBlock bytes (block.under header) := by
  obtain @⟨timeEncoding, timeBytes, parts, htime, hparts, hcolumns⟩ := h
  have hlen : block.columnTypes.length = header.length := hheader.length_eq
  have hwidth : (block.under header).columns.length = header.length := by
    rw [TsBlock.under, List.length_zipWith, hblock.columns, hlen, Nat.min_self]
  have hbodies : ∀ (i : Nat) (ty' : TSDataType) (col' : List Value) (part : UInt8 × List UInt8),
      header[i]? = some ty' → (block.under header).columns[i]? = some col' →
      parts[i]? = some part → Consumes (decodeColumn part.1 ty' block.positionCount) part.2 col' := by
    intro i ty' col' part hty' hcol' hpart
    obtain ⟨_, col, hhead, hcol, rfl⟩ := List.getElem?_zipWith_eq_some.mp hcol'
    cases hhead.symm.trans hty'
    obtain ⟨ty, hty, hcarried⟩ := carriedBy_at hheader hty'
    have hbody := consumes_column_under (hblock.cells i ty col hty hcol) hcarried
      (hcolumns i ty col part hty hcol hpart)
    rwa [hblock.heights col (List.mem_of_getElem? hcol)] at hbody
  have hrun : Consumes decodeBlock _ (block.under header) :=
    consumes_layout hblock.rows (hlen ▸ hblock.width) hblock.times htime (hparts.trans hlen)
      (consumes_columns (hparts.trans hlen) hwidth hbodies)
  exact hrun

/-! ## The logical types come back -/

theorem applyLogicalType_textOrBlob (bytes : List UInt8) :
    SessionDataSet.applyLogicalType (textOrBlob bytes) (some "BLOB") = .blob bytes := by
  unfold textOrBlob
  cases hutf8 : fromUtf8 bytes with
  | some s => exact congrArg Value.blob (asBytes_of_fromUtf8 hutf8)
  | none => rfl

theorem applyLogicalType_under {ty header : TSDataType} {v : Value} (hv : CellOf ty v)
    (h : ty.CarriedBy header) :
    SessionDataSet.applyLogicalType (v.under header) (some ty.name) = v := by
  rcases hv.1 with rfl | htype
  · cases ty <;> rfl
  · rcases h with rfl | rfl
    · rw [under_of_cell hv]
      cases v <;> cases htype <;> rfl
    · cases v with
      | blob b => cases htype; exact applyLogicalType_textOrBlob b
      | _ => cases htype <;> rfl

/-- The cells of a column, tagged with the type `dataTypeList` names for it. -/
def restoreColumn (ty : TSDataType) (column : List Value) : List Value :=
  column.map fun v ↦ SessionDataSet.applyLogicalType v (some ty.name)

theorem logical_types_restored {header : List TSDataType} {block : TsBlock} {bytes : List UInt8}
    (hblock : block.WellFormed)
    (hheader : List.Forall₂ TSDataType.CarriedBy block.columnTypes header)
    (h : EncodesUnder header block bytes) (trailing : List UInt8) (slice : Slice)
    (hslice : slice.val = bytes ++ trailing) :
    ∃ decoded, TsBlock.decode slice = .ok decoded ∧
      decoded.positionCount = block.positionCount ∧ decoded.timestamps = block.timestamps ∧
      List.zipWith restoreColumn block.columnTypes decoded.columns = block.columns := by
  refine ⟨block.under header, decode_of_consumes (consumes_block_under hblock hheader h) hslice,
    rfl, rfl, ?_⟩
  have hlen : block.columnTypes.length = header.length := hheader.length_eq
  apply List.ext_getElem
  · simp only [TsBlock.under, List.length_zipWith, hblock.columns]
    omega
  · intro i hleft hright
    have hi : i < block.columnTypes.length := hblock.columns ▸ hright
    simp only [TsBlock.under, List.getElem_zipWith, restoreColumn, List.map_map]
    conv_rhs => rw [← List.map_id' block.columns[i]]
    apply List.map_congr_left
    intro v hv
    have hcell := hblock.cells i _ _ (List.getElem?_eq_getElem hi) (List.getElem?_eq_getElem hright)
    exact applyLogicalType_under (hcell v hv) (hheader.get hi (hlen ▸ hi))

/-- Two rows; a BLOB column under TEXT with a payload that is not UTF-8 and one that is, a DATE column
under INT32 with a null, an RLE TIMESTAMP column under INT64 and a STRING column under its own type. -/
def sampleLogicalBlock : TsBlock :=
  ⟨2, [.blob, .date, .timestamp, .string], [5, 9],
    [[.blob [255], .blob [97]], [.null, .date 20260713], [.timestamp 3, .timestamp 3],
      [.string "a", .null]]⟩

theorem sampleLogicalBlock_wellFormed : sampleLogicalBlock.WellFormed where
  rows := by decide
  width := by decide
  times := by decide
  columns := by decide
  heights := by decide
  types := by decide
  cells := by
    intro i ty col hty hcol v hv
    have hi : i < 4 := (List.getElem?_eq_some_iff.mp hty).1
    interval_cases i <;> cases hty <;> cases hcol <;> fin_cases hv <;>
      first | exact ⟨.inl rfl, by decide⟩ | exact ⟨.inr rfl, by decide⟩

def sampleLogicalBytes : List UInt8 :=
  [0, 0, 0, 4, 5, 1, 2, 11, 0, 0, 0, 2, 2, 3, 1, 4, 3,
   0, 0, 0, 0, 0, 0, 0, 0, 5, 0, 0, 0, 0, 0, 0, 0, 9,
   0, 0, 0, 0, 1, 255, 0, 0, 0, 1, 97,
   1, 128, 1, 53, 39, 105,
   2, 0, 0, 0, 0, 0, 0, 0, 0, 3,
   1, 64, 0, 0, 0, 1, 97]

theorem sampleLogicalBlock_encodes :
    EncodesUnder [.text, .int32, .int64, .string] sampleLogicalBlock sampleLogicalBytes := by
  have htime : EncodesColumn .int64 [.int64 5, .int64 9] 2
      [0, 0, 0, 0, 0, 0, 0, 0, 5, 0, 0, 0, 0, 0, 0, 0, 9] :=
    .array (.dense (by decide) (.absent (by decide)))
  have hblob : EncodesColumn .blob [.blob [255], .blob [97]] 3
      [0, 0, 0, 0, 1, 255, 0, 0, 0, 1, 97] :=
    .array (.dense (by decide) (.absent (by decide)))
  have hdate : EncodesColumn .date [.null, .date 20260713] 1 [1, 128, 1, 53, 39, 105] := by
    have hnulls : NullSection [.null, .date 20260713] [1, 128] :=
      .bitmap (by decide) ⟨rfl, by decide⟩
    exact .array (.dense (by decide) hnulls)
  have htimestamp : EncodesColumn .timestamp [.timestamp 3, .timestamp 3] 4
      [2, 0, 0, 0, 0, 0, 0, 0, 0, 3] :=
    .rle (v := .timestamp 3) ⟨.inr rfl, by decide⟩ (by decide)
      (.dense (by decide) (.absent (by decide)))
  have hstring : EncodesColumn .string [.string "a", .null] 3 [1, 64, 0, 0, 0, 1, 97] := by
    have hnulls : NullSection [.string "a", .null] [1, 64] := .bitmap (by decide) ⟨rfl, by decide⟩
    exact .array (.dense (by decide) hnulls)
  have hcolumns : ∀ (i : Nat) (ty : TSDataType) (col : List Value) (part : UInt8 × List UInt8),
      sampleLogicalBlock.columnTypes[i]? = some ty → sampleLogicalBlock.columns[i]? = some col →
      [((3 : UInt8), ([0, 0, 0, 0, 1, 255, 0, 0, 0, 1, 97] : List UInt8)),
        (1, [1, 128, 1, 53, 39, 105]), (4, [2, 0, 0, 0, 0, 0, 0, 0, 0, 3]),
        (3, [1, 64, 0, 0, 0, 1, 97])][i]? = some part →
      EncodesColumn ty col part.1 part.2 := by
    intro i ty col part hty hcol hpart
    have hi : i < 4 := (List.getElem?_eq_some_iff.mp hty).1
    interval_cases i <;> cases hty <;> cases hcol <;> cases hpart <;> assumption
  have hblock : EncodesUnder [.text, .int32, .int64, .string] sampleLogicalBlock _ :=
    .mk htime rfl hcolumns
  exact hblock

theorem sampleLogicalBlock_restored :
    sampleLogicalBlock.WellFormed ∧
      EncodesUnder [.text, .int32, .int64, .string] sampleLogicalBlock sampleLogicalBytes ∧
      ∃ decoded, TsBlock.decode ⟨sampleLogicalBytes ++ [1], by decide⟩ = .ok decoded ∧
        decoded.positionCount = 2 ∧ decoded.timestamps = [5, 9] ∧
        List.zipWith restoreColumn sampleLogicalBlock.columnTypes decoded.columns =
          sampleLogicalBlock.columns :=
  ⟨sampleLogicalBlock_wellFormed, sampleLogicalBlock_encodes,
    logical_types_restored sampleLogicalBlock_wellFormed
      (.cons (.inr rfl) (.cons (.inr rfl) (.cons (.inr rfl) (.cons (.inl rfl) .nil))))
      sampleLogicalBlock_encodes [1] _ rfl⟩

end IotdbClient
