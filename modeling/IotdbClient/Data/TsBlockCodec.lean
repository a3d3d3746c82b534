import IotdbClient.Data.TsBlock

/-!
# Decoding undoes encoding

The TsBlock format as a relation between blocks and byte strings: an encoder may choose the flag
byte, RLE for constant columns, the padding of the bit arrays and the value bits under null
positions.  `TsBlock.decode` returns the block for every such choice, whatever bytes follow.
-/

namespace IotdbClient

open Library Reader

/-! ## The format -/

/-- The array encoding of a type. -/
def arrayEncoding : TSDataType → UInt8
  | .boolean => encodingByteArray
  | .int32 | .date | .float => encodingInt32Array
  | .int64 | .timestamp | .double => encodingInt64Array
  | _ => encodingBinaryArray

/-- The bytes of a cell in a dense array; null cells take none. -/
def cellBytes : Value → List UInt8
  | .int32 v | .date v => i32ToBeBytes v
  | .int64 v | .timestamp v => i64ToBeBytes v
  | .float bits => f32ToBeBytes bits
  | .double bits => f64ToBeBytes bits
  | .text s | .string s => i32ToBeBytes (usizeAsI32 (asBytes s).length) ++ asBytes s
  | .blob b => i32ToBeBytes (usizeAsI32 b.length) ++ b
  | .boolean _ | .null => []

/-- A packed MSB-first bit array that agrees with `bits` where `bits` is defined. -/
def PacksBits (count : Nat) (bits : Nat → Option Bool) (bytes : List UInt8) : Prop :=
  bytes.length = divCeil8 count ∧ ∀ i < count, ∀ b, bits i = some b → msbBit bytes i = b

/-- The null-indicator section: a zero byte for a column without nulls, or any other byte and a
bitmap. -/
inductive NullSection (cells : List Value) : List UInt8 → Prop where
  | absent (h : ∀ v ∈ cells, v.isNull = false) : NullSection cells [0]
  | bitmap {flag : UInt8} {bytes : List UInt8} (hflag : flag ≠ 0)
      (h : PacksBits cells.length (fun i ↦ cells[i]?.map Value.isNull) bytes) :
      NullSection cells (flag :: bytes)

def valueBit : Value → Option Bool
  | .boolean b => some b
  | _ => none

inductive EncodesArray (ty : TSDataType) (cells : List Value) : List UInt8 → Prop where
  | bits {nulls values : List UInt8} (hty : ty = .boolean) (hnulls : NullSection cells nulls)
      (hvalues : PacksBits cells.length (fun i ↦ cells[i]?.bind valueBit) values) :
      EncodesArray ty cells (nulls ++ values)
  | dense {nulls : List UInt8} (hty : ty ≠ .boolean) (hnulls : NullSection cells nulls) :
      EncodesArray ty cells (nulls ++ cells.flatMap cellBytes)

/-- A cell of a column: null or of the column's type, with a payload the length prefix can hold. -/
def CellOf (ty : TSDataType) (v : Value) : Prop :=
  (v = .null ∨ v.dataType = some ty) ∧ v.payload.length < 2 ^ 31

/-- The encoding byte of the header and the column body. -/
inductive EncodesColumn (ty : TSDataType) (cells : List Value) : UInt8 → List UInt8 → Prop where
  | array {bytes : List UInt8} (h : EncodesArray ty cells bytes) :
      EncodesColumn ty cells (arrayEncoding ty) bytes
  | rle {v : Value} {bytes : List UInt8} (hv : CellOf ty v) (hall : ∀ w ∈ cells, w = v)
      (h : EncodesArray ty [v] bytes) :
      EncodesColumn ty cells encodingRle (arrayEncoding ty :: bytes)

/-- A block the format can carry. -/
structure TsBlock.WellFormed (block : TsBlock) : Prop where
  rows : block.positionCount < 2 ^ 31
  width : block.columnTypes.length < 2 ^ 31
  times : block.timestamps.length = block.positionCount
  columns : block.columns.length = block.columnTypes.length
  heights : ∀ col ∈ block.columns, col.length = block.positionCount
  types : ∀ ty ∈ block.columnTypes, ty.insertable = true
  cells : ∀ (i : Nat) (ty : TSDataType) (col : List Value), block.columnTypes[i]? = some ty →
    block.columns[i]? = some col → ∀ v ∈ col, CellOf ty v

/-- One admissible encoding of a block.  `parts` holds the encoding byte and the body of each value
column. -/
inductive EncodesBlock (block : TsBlock) : List UInt8 → Prop where
  | mk {timeEncoding : UInt8} {timeBytes : List UInt8} {parts : List (UInt8 × List UInt8)}
      (htime : EncodesColumn .int64 (block.timestamps.map Value.int64) timeEncoding timeBytes)
      (hparts : parts.length = block.columnTypes.length)
      (hcolumns : ∀ (i : Nat) (ty : TSDataType) (col : List Value) (part : UInt8 × List UInt8),
        block.columnTypes[i]? = some ty → block.columns[i]? = some col → parts[i]? = some part →
        EncodesColumn ty col part.1 part.2) :
      EncodesBlock block
        (i32ToBeBytes (usizeAsI32 block.columnTypes.length) ++
          (block.columnTypes.map TSDataType.codeByte ++
            (i32ToBeBytes (usizeAsI32 block.positionCount) ++
              ([timeEncoding] ++
                (parts.map Prod.fst ++ (timeBytes ++ parts.flatMap Prod.snd))))))

/-! ## A reference encoder

One admissible choice for every block, so that the relation leaves no block out: dense arrays with
their null bitmap written in full. -/

def packBitsMsbFirst (count : Nat) (bits : Nat → Bool) : List UInt8 :=
  (List.range (divCeil8 count)).map fun k ↦
    UInt8.ofNat (Nat.ofBits fun j : Fin 8 ↦ bits (8 * k + (7 - j)))

def encodeArray (ty : TSDataType) (cells : List Value) : List UInt8 :=
  (1 :: packBitsMsbFirst cells.length fun i ↦ (cells.getD i .null).isNull) ++
    if ty = .boolean then
      packBitsMsbFirst cells.length fun i ↦ valueBit (cells.getD i .null) == some true
    else cells.flatMap cellBytes

def encodeBlock (block : TsBlock) : List UInt8 :=
  i32ToBeBytes (usizeAsI32 block.columnTypes.length) ++
    (block.columnTypes.map TSDataType.codeByte ++
      (i32ToBeBytes (usizeAsI32 block.positionCount) ++
        ([encodingInt64Array] ++
          (block.columnTypes.map arrayEncoding ++
            (encodeArray .int64 (block.timestamps.map Value.int64) ++
              (block.columnTypes.zip block.columns).flatMap fun p ↦ encodeArray p.1 p.2)))))

theorem packBitsMsbFirst_msbBit {count i : Nat} (bits : Nat → Bool) (hi : i < count) :
    msbBit (packBitsMsbFirst count bits) i = bits i := by
  have hbyte : i / 8 < divCeil8 count := by
    unfold divCeil8
    omega
  have hlt : Nat.ofBits (fun j : Fin 8 ↦ bits (8 * (i / 8) + (7 - j))) < 2 ^ 8 := Nat.ofBits_lt_two_pow _
  unfold msbBit packBitsMsbFirst
  rw [List.getD_eq_getElem?_getD, List.getElem?_map, List.getElem?_range hbyte]
  simp only [Option.map_some, Option.getD_some]
  rw [UInt8.toNat_ofNat_of_lt' hlt, Nat.testBit_ofBits_lt _ _ (by omega)]
  congr 1
  change 8 * (i / 8) + (7 - (7 - i % 8)) = i
  omega

theorem packBitsMsbFirst_packs {count : Nat} {bits : Nat → Option Bool} {choice : Nat → Bool}
    (h : ∀ i < count, ∀ b, bits i = some b → choice i = b) :
    PacksBits count bits (packBitsMsbFirst count choice) := by
  refine ⟨by simp [packBitsMsbFirst], ?_⟩
  intro i hi b hb
  rw [packBitsMsbFirst_msbBit choice hi]
  exact h i hi b hb

theorem encodeArray_encodes (ty : TSDataType) (cells : List Value) :
    EncodesArray ty cells (encodeArray ty cells) := by
  have hnulls : NullSection cells
      (1 :: packBitsMsbFirst cells.length fun i ↦ (cells.getD i .null).isNull) := by
    refine .bitmap (by decide) (packBitsMsbFirst_packs ?_)
    intro i hi b hb
    simpa [hi] using hb
  unfold encodeArray
  by_cases hty : ty = .boolean
  · rw [if_pos hty]
    refine .bits hty hnulls (packBitsMsbFirst_packs ?_)
    intro i hi b hb
    have hbit : valueBit (cells.getD i .null) = some b := by simpa [hi] using hb
    rw [hbit]
    cases b <;> rfl
  · rw [if_neg hty]
    exact .dense hty hnulls

theorem encodeBlock_encodes {block : TsBlock} (h : block.WellFormed) :
    EncodesBlock block (encodeBlock block) := by
  let parts := (block.columnTypes.zip block.columns).map
    fun p ↦ (arrayEncoding p.1, encodeArray p.1 p.2)
  have hparts : parts.length = block.columnTypes.length := by
    rw [List.length_map, List.length_zip, h.columns, Nat.min_self]
  have hencodings : parts.map Prod.fst = block.columnTypes.map arrayEncoding := by
    calc parts.map Prod.fst
        = ((block.columnTypes.zip block.columns).map Prod.fst).map arrayEncoding := by
          simp only [parts, List.map_map, Function.comp_def]
      _ = block.columnTypes.map arrayEncoding := by rw [List.map_fst_zip h.columns.ge]
  have hbodies : parts.flatMap Prod.snd =
      (block.columnTypes.zip block.columns).flatMap fun p ↦ encodeArray p.1 p.2 := by
    simp only [parts, List.flatMap_map]
  have hcolumns : ∀ (i : Nat) (ty : TSDataType) (col : List Value) (part : UInt8 × List UInt8),
      block.columnTypes[i]? = some ty → block.columns[i]? = some col → parts[i]? = some part →
      EncodesColumn ty col part.1 part.2 := by
    intro i ty col part hty hcol hpart
    have hzip : (block.columnTypes.zip block.columns)[i]? = some (ty, col) :=
      List.getElem?_zip_eq_some.mpr ⟨hty, hcol⟩
    rw [List.getElem?_map, hzip] at hpart
    cases hpart
    exact .array (encodeArray_encodes ty col)
  have hblock : EncodesBlock block _ :=
    .mk (.array (encodeArray_encodes .int64 (block.timestamps.map Value.int64))) hparts hcolumns
  rwa [hencodings, hbodies] at hblock

/-! ## The reader -/

theorem consumes_readBytes {n : Nat} (bytes : List UInt8) (h : bytes.length = n) :
    Consumes (readBytes n) bytes bytes := by
  intro c post hc hrest
  subst h
  have hlen := congrArg List.length hrest
  rw [Cursor.rest_length, List.length_append] at hlen
  have hsmall := c.buf.property
  have hle : c.pos + bytes.length ≤ c.buf.val.length := by
    unfold Cursor.InRange at hc
    omega
  have hslice : (c.buf.val.drop c.pos).take (c.pos + bytes.length - c.pos) = bytes := by
    change c.rest.take _ = bytes
    rw [hrest, show c.pos + bytes.length - c.pos = bytes.length by omega, List.take_left]
  unfold readBytes
  rw [checkedAdd_of_lt (by omega), Option.filter_some, if_pos (by simpa using hle)]
  change (sliceRange c.buf.val c.pos (c.pos + bytes.length) >>= _ : Result _) = _
  rw [sliceRange_of_le (by omega) hle, hslice]
  rfl

theorem consumes_readU8 (b : UInt8) : Consumes readU8 [b] b :=
  (consumes_readBytes [b] rfl).bind_pure rfl

theorem consumes_readI32 (bytes : List UInt8) (h : bytes.length = 4) :
    Consumes readI32 bytes (i32FromBeBytes bytes) := by
  apply (consumes_readBytes bytes h).bind_pure
  match bytes, h with
  | [b0, b1, b2, b3], _ => rfl

theorem consumes_readI64 (bytes : List UInt8) (h : bytes.length = 8) :
    Consumes readI64 bytes (i64FromBeBytes bytes) := by
  apply (consumes_readBytes bytes h).bind_pure
  match bytes, h with
  | [b0, b1, b2, b3, b4, b5, b6, b7], _ => rfl

theorem consumes_i32 (v : Int32) : Consumes readI32 (i32ToBeBytes v) v := by
  have h := consumes_readI32 (i32ToBeBytes v) (i32ToBeBytes_length v)
  rwa [i32FromBeBytes_toBeBytes] at h

theorem consumes_i64 (v : Int64) : Consumes readI64 (i64ToBeBytes v) v := by
  have h := consumes_readI64 (i64ToBeBytes v) (i64ToBeBytes_length v)
  rwa [i64FromBeBytes_toBeBytes] at h

/-! ## Bit arrays -/

theorem consumes_packedBits {count : Nat} {bytes : List UInt8} (h : bytes.length = divCeil8 count) :
    Consumes (readPackedBits count) bytes ((List.range count).map (msbBit bytes)) := by
  apply (consumes_readBytes bytes h).bind_pure
  rw [unpackBitsMsbFirst_of_le h.ge]
  rfl

theorem consumes_nulls {cells : List Value} {bytes : List UInt8} (h : NullSection cells bytes) :
    Consumes (readNullIndicators cells.length) bytes (cells.map Value.isNull) := by
  cases h with
  | absent hnone =>
      have hmap : cells.map Value.isNull = List.replicate cells.length false := by
        rw [List.eq_replicate_iff]
        refine ⟨List.length_map _, ?_⟩
        intro b hb
        obtain ⟨v, hv, rfl⟩ := List.mem_map.mp hb
        exact hnone v hv
      rw [hmap]
      exact (consumes_readU8 0).bind_pure (by rw [if_pos rfl])
  | @bitmap flag bitmap hflag hbits =>
      have hmap : (List.range cells.length).map (msbBit bitmap) = cells.map Value.isNull := by
        apply List.ext_getElem
        · simp
        · intro i h1 h2
          have hi : i < cells.length := by simpa using h2
          simp only [List.getElem_map, List.getElem_range]
          exact hbits.2 i hi _ (by simp [hi])
      rw [← hmap]
      apply (consumes_readU8 flag).bind
      rw [if_neg hflag]
      exact consumes_packedBits hbits.1

/-! ## Cells -/

theorem isNull_false_of_dataType {v : Value} {ty : TSDataType} (h : v.dataType = some ty) :
    v.isNull = false := by
  cases v <;> first | rfl | cases h

/-- A non-null cell: the branch behind the null test. -/
theorem consumes_nonNull {ty : TSDataType} {v : Value} {m : ReaderM Value} {bytes : List UInt8}
    (htype : v.dataType = some ty) (h : Consumes m bytes v) :
    Consumes (if v.isNull then pure .null else m) bytes v := by
  rw [if_neg (by rw [isNull_false_of_dataType htype]; decide)]
  exact h

theorem consumes_int32Cell {ty : TSDataType} {v : Value} (hv : CellOf ty v)
    (hty : arrayEncoding ty = encodingInt32Array) :
    Consumes (decodeInt32Cell ty v.isNull) (cellBytes v) v := by
  rcases hv.1 with rfl | htype
  · exact Consumes.pure _
  · apply consumes_nonNull htype
    cases v with
    | int32 v => cases htype; exact (consumes_i32 v).bind_pure rfl
    | date v => cases htype; exact (consumes_i32 v).bind_pure rfl
    | float bits =>
        cases htype
        apply (consumes_readI32 (f32ToBeBytes bits) (f32ToBeBytes_length bits)).bind_pure
        simp only [i32FromBeBytes_f32ToBeBytes]
    | _ => cases htype <;> cases hty

theorem consumes_int64Cell {ty : TSDataType} {v : Value} (hv : CellOf ty v)
    (hty : arrayEncoding ty = encodingInt64Array) :
    Consumes (decodeInt64Cell ty v.isNull) (cellBytes v) v := by
  rcases hv.1 with rfl | htype
  · exact Consumes.pure _
  · apply consumes_nonNull htype
    cases v with
    | int64 v => cases htype; exact (consumes_i64 v).bind_pure rfl
    | timestamp v => cases htype; exact (consumes_i64 v).bind_pure rfl
    | double bits =>
        cases htype
        apply (consumes_readI64 (f64ToBeBytes bits) (f64ToBeBytes_length bits)).bind_pure
        simp only [i64FromBeBytes_f64ToBeBytes]
    | _ => cases htype <;> cases hty

/-- A length prefix and as many bytes. -/
theorem consumes_prefixed {payload : List UInt8} {f : List UInt8 → ReaderM Value} {v : Value}
    (hlen : payload.length < 2 ^ 31) (hf : f payload = pure v) :
    Consumes (do
      let len ← readI32
      if len < 0 then decodeError s!"negative binary length: {len}"
      else do
        let bytes ← readBytes len.toInt.toNat
        f bytes) (i32ToBeBytes (usizeAsI32 payload.length) ++ payload) v := by
  apply (consumes_i32 (usizeAsI32 payload.length)).bind
  rw [if_neg (usizeAsI32_nonneg hlen), usizeAsI32_toNat hlen]
  exact (consumes_readBytes payload rfl).bind_pure hf

theorem consumes_binaryCell {ty : TSDataType} {v : Value} (hv : CellOf ty v)
    (hty : arrayEncoding ty = encodingBinaryArray) :
    Consumes (decodeBinaryCell ty v.isNull) (cellBytes v) v := by
  rcases hv.1 with rfl | htype
  · exact Consumes.pure _
  · apply consumes_nonNull htype
    cases v with
    | text s =>
        cases htype
        apply consumes_prefixed hv.2
        simp only [Value.payload, fromUtf8_asBytes]
    | string s =>
        cases htype
        apply consumes_prefixed hv.2
        change (liftM (decodeUtf8 (asBytes s)) >>= _ : ReaderM Value) = _
        rw [decodeUtf8, fromUtf8_asBytes]
        rfl
    | blob b => cases htype; exact consumes_prefixed hv.2 rfl
    | _ => cases htype <;> cases hty

theorem consumes_cells {ty : TSDataType} {cells : List Value} {f : Bool → ReaderM Value}
    (hcells : ∀ v ∈ cells, CellOf ty v)
    (hf : ∀ v, CellOf ty v → Consumes (f v.isNull) (cellBytes v) v) :
    Consumes ((cells.map Value.isNull).mapM f) (cells.flatMap cellBytes) cells := by
  rw [List.mapM_map]
  have h : Consumes (cells.mapM (f ∘ Value.isNull)) (cells.flatMap cellBytes) (cells.map id) :=
    Consumes.mapM cells fun v hv ↦ hf v (hcells v hv)
  rwa [List.map_id] at h

/-! ## Columns -/

theorem booleanCell_eq {cells : List Value} {values : List UInt8} {i : Nat}
    (hcells : ∀ v ∈ cells, CellOf .boolean v)
    (hvalues : PacksBits cells.length (fun i ↦ cells[i]?.bind valueBit) values)
    (hi : i < cells.length) :
    booleanCell (cells.map Value.isNull) ((List.range cells.length).map (msbBit values)) i =
      .ok (cells[i]) := by
  have hcell := (hcells _ (List.getElem_mem hi)).1
  have hbit := hvalues.2 i hi
  simp only [List.getElem?_eq_getElem hi, Option.bind_some] at hbit
  have hnull : index (cells.map Value.isNull) i = (.ok (cells[i].isNull) : Result Bool) :=
    index_of_getElem? (by simp [hi])
  have hvalue : index ((List.range cells.length).map (msbBit values)) i =
      (.ok (msbBit values i) : Result Bool) := index_of_getElem? (by simp [hi])
  unfold booleanCell
  rw [hnull, hvalue]
  generalize cells[i] = v at hcell hbit
  rcases hcell with rfl | htype
  · rfl
  · cases v with
    | boolean b => rw [hbit b rfl]; rfl
    | _ => cases htype

/-- The types stored as dense arrays, by the width of their cells. -/
theorem arrayEncoding_dense {ty : TSDataType} (hbool : ty ≠ .boolean) :
    arrayEncoding ty = encodingInt32Array ∨ arrayEncoding ty = encodingInt64Array ∨
      arrayEncoding ty = encodingBinaryArray := by
  cases ty <;> first | decide | exact absurd rfl hbool

theorem consumes_array {ty : TSDataType} {cells : List Value} {bytes : List UInt8}
    (hcells : ∀ v ∈ cells, CellOf ty v) (h : EncodesArray ty cells bytes) :
    Consumes (decodeArray (arrayEncoding ty) ty cells.length) bytes cells := by
  cases h with
  | @bits nulls values hbool hnulls hvalues =>
      subst hbool
      have hall := mapM_range_ok fun i hi ↦ booleanCell_eq hcells hvalues (i := i) hi
      exact (consumes_nulls hnulls).bind
        ((consumes_packedBits hvalues.1).bind_pure (by rw [hall]; rfl))
  | dense hbool hnulls =>
      rcases arrayEncoding_dense hbool with hcode | hcode | hcode <;> rw [hcode]
      · exact (consumes_nulls hnulls).bind
          (consumes_cells hcells fun v hv ↦ consumes_int32Cell hv hcode)
      · exact (consumes_nulls hnulls).bind
          (consumes_cells hcells fun v hv ↦ consumes_int64Cell hv hcode)
      · exact (consumes_nulls hnulls).bind
          (consumes_cells hcells fun v hv ↦ consumes_binaryCell hv hcode)

theorem arrayEncoding_ne_rle (ty : TSDataType) : arrayEncoding ty ≠ encodingRle := by
  cases ty <;> decide

theorem consumes_column {ty : TSDataType} {cells : List Value} {encoding : UInt8}
    {bytes : List UInt8} (hcells : ∀ v ∈ cells, CellOf ty v)
    (h : EncodesColumn ty cells encoding bytes) :
    Consumes (decodeColumn encoding ty cells.length) bytes cells := by
  cases h with
  | array harray =>
      rw [decodeColumn, if_neg (arrayEncoding_ne_rle ty)]
      exact consumes_array hcells harray
  | @rle v bytes hv hall harray =>
      have hone : ∀ w ∈ [v], CellOf ty w := by simpa using hv
      have hsingle := consumes_array hone harray
      have hcells : List.replicate cells.length v = cells :=
        (List.eq_replicate_iff.mpr ⟨rfl, hall⟩).symm
      rw [decodeColumn, if_pos rfl]
      apply (consumes_readU8 (arrayEncoding ty)).bind
      rw [if_neg (arrayEncoding_ne_rle ty)]
      exact hsingle.bind_pure (congrArg pure hcells)

/-! ## Blocks -/

/-- A counted run of one-byte items. -/
theorem consumes_byteItems {α : Type} {m : ReaderM α} {byteOf : α → UInt8} (items : List α)
    (h : ∀ a, Consumes m [byteOf a] a) :
    Consumes ((List.range items.length).mapM fun _ ↦ m) (items.map byteOf) items := by
  have hbytes : items.map byteOf = (items.map fun a ↦ [byteOf a]).flatten := by
    rw [← List.flatMap_def, ← List.map_eq_flatMap]
  rw [hbytes]
  apply Consumes.mapM_pieces
  · simp
  · simp
  · intro i _ bytes a _ hbytes ha
    rw [List.getElem?_map, ha] at hbytes
    cases hbytes
    exact h a

theorem consumes_columnType (ty : TSDataType) : Consumes readColumnType [ty.codeByte] ty := by
  apply (consumes_readU8 ty.codeByte).bind_pure
  rw [TSDataType.fromCode_codeByte]

theorem timestampOf_int64 (times : List Int64) :
    (times.map Value.int64).mapM timestampOf = .ok times := by
  rw [List.mapM_map, mapM_ok (g := id) (fun t _ ↦ by rfl), List.map_id]

/-- The value columns, each with its own encoding byte and body. -/
theorem consumes_columns {types : List TSDataType} {parts : List (UInt8 × List UInt8)}
    {columns : List (List Value)} {count : Nat} (hparts : parts.length = types.length)
    (hwidth : columns.length = types.length)
    (hcolumns : ∀ (i : Nat) (ty : TSDataType) (col : List Value) (part : UInt8 × List UInt8),
      types[i]? = some ty → columns[i]? = some col → parts[i]? = some part →
      Consumes (decodeColumn part.1 ty count) part.2 col) :
    Consumes (types.zipIdx.mapM fun p ↦ (do
        let encoding ← (index (parts.map Prod.fst) p.2 : Result UInt8)
        decodeColumn encoding p.1 count : ReaderM (List Value)))
      (parts.flatMap Prod.snd) columns := by
  rw [List.flatMap_def]
  apply Consumes.mapM_pieces
  · rw [List.length_map, List.length_zipIdx, hparts]
  · rw [List.length_zipIdx, hwidth]
  · rintro i ⟨ty, j⟩ bytes col hty hbytes hcol
    rw [List.getElem?_zipIdx] at hty
    obtain ⟨ty', hty', hpair⟩ := Option.map_eq_some_iff.mp hty
    cases hpair
    rw [List.getElem?_map] at hbytes
    obtain ⟨part, hpart, rfl⟩ := Option.map_eq_some_iff.mp hbytes
    have hencoding : (index (parts.map Prod.fst) (0 + i) : Result UInt8) = .ok part.1 :=
      index_of_getElem? (by rw [Nat.zero_add, List.getElem?_map, hpart]; rfl)
    exact Consumes.lift_bind hencoding (hcolumns i ty col part hty' hcol hpart)

/-- The whole block, from what the reader does with the bodies of its value columns. -/
theorem consumes_layout {block : TsBlock} {timeEncoding : UInt8} {timeBytes : List UInt8}
    {parts : List (UInt8 × List UInt8)} (hrows : block.positionCount < 2 ^ 31)
    (hwidth : block.columnTypes.length < 2 ^ 31)
    (htimes : block.timestamps.length = block.positionCount)
    (htime : EncodesColumn .int64 (block.timestamps.map Value.int64) timeEncoding timeBytes)
    (hparts : parts.length = block.columnTypes.length)
    (hcolumns : Consumes (block.columnTypes.zipIdx.mapM fun p ↦ (do
        let encoding ← (index (parts.map Prod.fst) p.2 : Result UInt8)
        decodeColumn encoding p.1 block.positionCount : ReaderM (List Value)))
      (parts.flatMap Prod.snd) block.columns) :
    Consumes decodeBlock
      (i32ToBeBytes (usizeAsI32 block.columnTypes.length) ++
        (block.columnTypes.map TSDataType.codeByte ++
          (i32ToBeBytes (usizeAsI32 block.positionCount) ++
            ([timeEncoding] ++
              (parts.map Prod.fst ++ (timeBytes ++ parts.flatMap Prod.snd)))))) block := by
  have htimeCells : ∀ v ∈ block.timestamps.map Value.int64, CellOf .int64 v := by
    intro v hv
    obtain ⟨t, _, rfl⟩ := List.mem_map.mp hv
    exact ⟨.inr rfl, by change 0 < 2 ^ 31; decide⟩
  have htimeColumn := consumes_column htimeCells htime
  rw [List.length_map, htimes] at htimeColumn
  apply (consumes_i32 _).bind
  rw [if_neg (usizeAsI32_nonneg hwidth), usizeAsI32_toNat hwidth]
  apply (consumes_byteItems _ consumes_columnType).bind
  apply (consumes_i32 _).bind
  rw [if_neg (usizeAsI32_nonneg hrows), usizeAsI32_toNat hrows]
  apply (consumes_readU8 timeEncoding).bind
  have hencodings : Consumes _ ((parts.map Prod.fst).map id) _ :=
    consumes_byteItems (parts.map Prod.fst) consumes_readU8
  rw [List.length_map, List.map_id, hparts] at hencodings
  apply hencodings.bind
  apply htimeColumn.bind
  apply Consumes.lift_bind (timestampOf_int64 block.timestamps)
  apply hcolumns.bind_pure
  rfl

theorem consumes_block {block : TsBlock} {bytes : List UInt8} (hblock : block.WellFormed)
    (h : EncodesBlock block bytes) : Consumes decodeBlock bytes block := by
  obtain ⟨htime, hparts, hcolumns⟩ := h
  apply consumes_layout hblock.rows hblock.width hblock.times htime hparts
  apply consumes_columns hparts hblock.columns
  intro i ty col part hty hcol hpart
  have hbody := consumes_column (hblock.cells i ty col hty hcol)
    (hcolumns i ty col part hty hcol hpart)
  rwa [hblock.heights col (List.mem_of_getElem? hcol)] at hbody

/-- Bytes after the block are left alone. -/
theorem decode_of_consumes {block : TsBlock} {bytes trailing : List UInt8} {slice : Slice}
    (h : Consumes decodeBlock bytes block) (hslice : slice.val = bytes ++ trailing) :
    TsBlock.decode slice = .ok block := by
  have hrun := h ⟨slice, 0⟩ trailing (Nat.zero_le _) hslice
  unfold TsBlock.decode
  rw [hrun]
  rfl

theorem tsBlock_decode_undoes_encode {block : TsBlock} {bytes : List UInt8}
    (hblock : block.WellFormed) (h : EncodesBlock block bytes) (trailing : List UInt8)
    (slice : Slice) (hslice : slice.val = bytes ++ trailing) :
    TsBlock.decode slice = .ok block :=
  decode_of_consumes (consumes_block hblock h) hslice

/-- Two rows; a BOOLEAN column with a null, a dense INT32 column with a null, an RLE TEXT column and
an RLE column of nulls. -/
def sampleBlock : TsBlock :=
  ⟨2, [.boolean, .int32, .text, .double], [5, 9],
    [[.boolean true, .null], [.null, .int32 7], [.text "a", .text "a"], [.null, .null]]⟩

theorem sampleBlock_wellFormed : sampleBlock.WellFormed where
  rows := by decide
  width := by decide
  times := by decide
  columns := by decide
  heights := by decide
  types := by decide
  cells := by
    intro i ty col hty hcol v hv
    have hi : i < 4 := (List.getElem?_eq_some_iff.mp hty).1
    interval_cases i <;> cases hty <;> cases hcol <;> fin_cases hv <;>
      first | exact ⟨.inl rfl, by decide⟩ | exact ⟨.inr rfl, by decide⟩

/-- The bytes of `sampleBlock`, with `0xff` as flag byte and padding. -/
def sampleBlockBytes : List UInt8 :=
  [0, 0, 0, 4, 0, 1, 5, 4, 0, 0, 0, 2, 2, 0, 1, 4, 4,
   0, 0, 0, 0, 0, 0, 0, 0, 5, 0, 0, 0, 0, 0, 0, 0, 9,
   255, 127, 255,
   1, 128, 0, 0, 0, 7,
   3, 0, 0, 0, 0, 1, 97,
   2, 1, 128]

theorem sampleBlock_encodes : EncodesBlock sampleBlock sampleBlockBytes := by
  have htime : EncodesColumn .int64 [.int64 5, .int64 9] 2
      [0, 0, 0, 0, 0, 0, 0, 0, 5, 0, 0, 0, 0, 0, 0, 0, 9] :=
    .array (.dense (by decide) (.absent (by decide)))
  have hbool : EncodesColumn .boolean [.boolean true, .null] 0 [255, 127, 255] := by
    have hnulls : NullSection [.boolean true, .null] [255, 127] :=
      .bitmap (by decide) ⟨rfl, by decide⟩
    have hvalues : PacksBits 2 (fun i ↦ [Value.boolean true, .null][i]?.bind valueBit) [255] :=
      ⟨rfl, by decide⟩
    exact .array (.bits rfl hnulls hvalues)
  have hint : EncodesColumn .int32 [.null, .int32 7] 1 [1, 128, 0, 0, 0, 7] := by
    have hnulls : NullSection [.null, .int32 7] [1, 128] := .bitmap (by decide) ⟨rfl, by decide⟩
    exact .array (.dense (by decide) hnulls)
  have htext : EncodesColumn .text [.text "a", .text "a"] 4 [3, 0, 0, 0, 0, 1, 97] :=
    .rle (v := .text "a") ⟨.inr rfl, by decide⟩ (by decide) (.dense (by decide) (.absent (by decide)))
  have hdouble : EncodesColumn .double [.null, .null] 4 [2, 1, 128] := by
    have hnulls : NullSection [.null] [1, 128] := .bitmap (by decide) ⟨rfl, by decide⟩
    exact .rle ⟨.inl rfl, by decide⟩ (by decide) (.dense (by decide) hnulls)
  have hcolumns : ∀ (i : Nat) (ty : TSDataType) (col : List Value) (part : UInt8 × List UInt8),
      sampleBlock.columnTypes[i]? = some ty → sampleBlock.columns[i]? = some col →
      [((0 : UInt8), ([255, 127, 255] : List UInt8)), (1, [1, 128, 0, 0, 0, 7]),
        (4, [3, 0, 0, 0, 0, 1, 97]), (4, [2, 1, 128])][i]? = some part →
      EncodesColumn ty col part.1 part.2 := by
    intro i ty col part hty hcol hpart
    have hi : i < 4 := (List.getElem?_eq_some_iff.mp hty).1
    interval_cases i <;> cases hty <;> cases hcol <;> cases hpart <;> assumption
  have hblock : EncodesBlock sampleBlock _ := .mk htime rfl hcolumns
  exact hblock

theorem tsBlock_decode_undoes_encode_sample :
    sampleBlock.WellFormed ∧ EncodesBlock sampleBlock sampleBlockBytes ∧
      TsBlock.decode ⟨sampleBlockBytes ++ [1, 2, 3], by decide⟩ = .ok sampleBlock :=
  ⟨sampleBlock_wellFormed, sampleBlock_encodes,
    tsBlock_decode_undoes_encode sampleBlock_wellFormed sampleBlock_encodes [1, 2, 3] _ rfl⟩

end IotdbClient
