import IotdbClient.Data.TsBlockPrefix

/-!
# Types of decoded cells

The type of a column and its encoding are two fields of the header.  The decoder compares them where it
reads `Int32Array`, `Int64Array` and `BinaryArray` values, and not where it reads the bits of a
`ByteArray`.  To say on which bytes this matters, a scanner follows the decoder and notes the encoding
bytes and the null indicators, without looking at any value.
-/

namespace IotdbClient

open Library Reader

/-- The encoding can hold values of the type. -/
def carries (encoding : UInt8) (ty : TSDataType) : Bool :=
  ty.insertable && encoding == arrayEncoding ty

/-- A cell of a column of type `ty`: BLOB columns arrive typed TEXT. -/
def Value.ConformsTo (ty : TSDataType) (v : Value) : Prop :=
  v.isNull = true ∨ v.dataType = some ty ∨ ty = .text ∧ ∃ b, v = .blob b ∧ fromUtf8 b = none

def TsBlock.Conforms (block : TsBlock) : Prop :=
  ∀ (i : Nat) (ty : TSDataType) (cells : List Value), block.columnTypes[i]? = some ty →
    block.columns[i]? = some cells → ∀ v ∈ cells, v.ConformsTo ty

/-! ## The scanner -/

/-- What the bytes of a column say apart from its values: the encoding of the array, also inside RLE,
and the positions that are null. -/
structure WireColumn where
  encoding : UInt8
  nulls : List Bool
deriving Repr, DecidableEq

structure WireBlock where
  types : List TSDataType
  columns : List WireColumn
deriving Repr, DecidableEq

/-- The bytes of one cell; null cells take none. -/
def skipCell (encoding : UInt8) (isNull : Bool) : ReaderM Unit :=
  if isNull then pure ()
  else if encoding = encodingInt32Array then do
    let _ ← readI32
    pure ()
  else if encoding = encodingInt64Array then do
    let _ ← readI64
    pure ()
  else do
    let len ← readI32
    let _ ← readBytes len.toInt.toNat
    pure ()

def scanArray (encoding : UInt8) (positionCount : Nat) : ReaderM (List Bool) := do
  let nulls ← readNullIndicators positionCount
  if encoding = encodingByteArray then do
    let _ ← readPackedBits positionCount
    pure nulls
  else do
    let _ ← nulls.mapM (skipCell encoding)
    pure nulls

def scanColumn (encoding : UInt8) (positionCount : Nat) : ReaderM WireColumn :=
  if encoding = encodingRle then do
    let inner ← readU8
    let single ← scanArray inner 1
    pure ⟨inner, List.replicate positionCount (single.headD true)⟩
  else do
    let nulls ← scanArray encoding positionCount
    pure ⟨encoding, nulls⟩

def scanBlock : ReaderM WireBlock := do
  let valueColumnCount ← readI32
  let types ← (List.range valueColumnCount.toInt.toNat).mapM fun _ ↦ readColumnType
  let positionCount ← readI32
  let timeEncoding ← readU8
  let encodings ← (List.range valueColumnCount.toInt.toNat).mapM fun _ ↦ readU8
  let _ ← scanColumn timeEncoding positionCount.toInt.toNat
  let columns ← encodings.mapM fun encoding ↦ scanColumn encoding positionCount.toInt.toNat
  pure ⟨types, columns⟩

/-- The types, encodings and null indicators in the bytes of a block. -/
def wireOf (bytes : Slice) : Result WireBlock := do
  let (wire, _) ← scanBlock ⟨bytes, 0⟩
  pure wire

namespace WireBlock

/-- Every column that holds a value has an encoding that can hold values of its type. -/
def Carried (wire : WireBlock) : Prop :=
  ∀ (i : Nat) (ty : TSDataType) (column : WireColumn), wire.types[i]? = some ty →
    wire.columns[i]? = some column → false ∈ column.nulls → carries column.encoding ty = true

/-- Some column that holds a value has an encoding other than `ByteArray` that cannot hold it. -/
def Mismatched (wire : WireBlock) : Prop :=
  ∃ (i : Nat) (ty : TSDataType) (column : WireColumn), wire.types[i]? = some ty ∧
    wire.columns[i]? = some column ∧ false ∈ column.nulls ∧
    column.encoding ≠ encodingByteArray ∧ carries column.encoding ty = false

/-- A `ByteArray` that holds a value belongs to a BOOLEAN column. -/
def BitsAreBoolean (wire : WireBlock) : Prop :=
  ∀ (i : Nat) (ty : TSDataType) (column : WireColumn), wire.types[i]? = some ty →
    wire.columns[i]? = some column → column.encoding = encodingByteArray →
    false ∈ column.nulls → ty = .boolean

end WireBlock

/-! ## The scanner follows the decoder -/

/-- What a cell that is not null is known to be once its array was decoded. -/
def CellFrom (encoding : UInt8) (ty : TSDataType) (v : Value) : Prop :=
  if encoding = encodingByteArray then v.dataType = some .boolean
  else v.ConformsTo ty ∧ carries encoding ty = true

/-- The cells of a column, as far as the scanner sees them. -/
structure Reads (ty : TSDataType) (cells : List Value) (column : WireColumn) : Prop where
  nulls : cells.map Value.isNull = column.nulls
  cells : ∀ v ∈ cells, v.isNull = false → CellFrom column.encoding ty v

/-- One cell of an array that is read value by value. -/
def ReadsCell (encoding : UInt8) (ty : TSDataType) (isNull : Bool) (v : Value) : Prop :=
  v.isNull = isNull ∧ (isNull = false → CellFrom encoding ty v)

theorem follows_decodeError {α β : Type} {n : ReaderM β} {R : α → β → Prop} (message : String) :
    Follows (decodeError message : ReaderM α) n R := by
  intro c c' a hc hrun
  cases hrun

theorem follows_int32Cell (ty : TSDataType) (isNull : Bool) :
    Follows (decodeInt32Cell ty isNull) (skipCell encodingInt32Array isNull)
      fun v _ ↦ ReadsCell encodingInt32Array ty isNull v := by
  cases isNull with
  | true => exact .pure ⟨rfl, nofun⟩
  | false =>
      refine sound_readI32.follows.bind ?_
      rintro raw _ ⟨rfl, -⟩
      cases ty <;>
        first
        | exact .pure ⟨rfl, fun _ ↦ ⟨.inr (.inl rfl), rfl⟩⟩
        | exact follows_decodeError _

theorem follows_int64Cell (ty : TSDataType) (isNull : Bool) :
    Follows (decodeInt64Cell ty isNull) (skipCell encodingInt64Array isNull)
      fun v _ ↦ ReadsCell encodingInt64Array ty isNull v := by
  cases isNull with
  | true => exact .pure ⟨rfl, nofun⟩
  | false =>
      refine sound_readI64.follows.bind ?_
      rintro raw _ ⟨rfl, -⟩
      cases ty <;>
        first
        | exact .pure ⟨rfl, fun _ ↦ ⟨.inr (.inl rfl), rfl⟩⟩
        | exact follows_decodeError _

theorem follows_binaryCell (ty : TSDataType) (isNull : Bool) :
    Follows (decodeBinaryCell ty isNull) (skipCell encodingBinaryArray isNull)
      fun v _ ↦ ReadsCell encodingBinaryArray ty isNull v := by
  cases isNull with
  | true => exact .pure ⟨rfl, nofun⟩
  | false =>
      refine sound_readI32.follows.bind ?_
      rintro len _ ⟨rfl, -⟩
      split
      · exact follows_decodeError _
      · refine (sound_readBytes _).follows.bind ?_
        rintro bytes _ ⟨rfl, -⟩
        cases ty with
        | blob => exact .pure ⟨rfl, fun _ ↦ ⟨.inr (.inl rfl), rfl⟩⟩
        | text =>
            cases hutf : fromUtf8 bytes with
            | none => exact .pure ⟨rfl, fun _ ↦ ⟨.inr (.inr ⟨rfl, bytes, rfl, hutf⟩), rfl⟩⟩
            | some s => exact .pure ⟨rfl, fun _ ↦ ⟨.inr (.inl rfl), rfl⟩⟩
        | string =>
            exact .lift_bind fun s _ ↦ .pure ⟨rfl, fun _ ↦ ⟨.inr (.inl rfl), rfl⟩⟩
        | _ => exact follows_decodeError _

/-- The loop over the null indicators, read back as a column. -/
theorem reads_of_cells {encoding : UInt8} {ty : TSDataType} {nulls : List Bool} {cells : List Value}
    (hlength : cells.length = nulls.length)
    (h : ∀ (i : Nat) (isNull : Bool) (v : Value), nulls[i]? = some isNull → cells[i]? = some v →
      ReadsCell encoding ty isNull v) : Reads ty cells ⟨encoding, nulls⟩ := by
  constructor
  · apply List.ext_getElem
    · rw [List.length_map, hlength]
    · intro i hi hi'
      have hi : i < cells.length := by simpa using hi
      rw [List.getElem_map]
      exact (h i _ _ (List.getElem?_eq_getElem hi') (List.getElem?_eq_getElem hi)).1
  · intro v hv hvalue
    obtain ⟨i, hi, rfl⟩ := List.mem_iff_getElem.mp hv
    have hi' : i < nulls.length := hlength ▸ hi
    obtain ⟨hnull, hcell⟩ :=
      h i _ _ (List.getElem?_eq_getElem hi') (List.getElem?_eq_getElem hi)
    exact hcell (hnull ▸ hvalue)

theorem follows_dense {encoding : UInt8} {ty : TSDataType} {f : Bool → ReaderM Value}
    (hdense : encoding ≠ encodingByteArray)
    (hf : ∀ isNull, Follows (f isNull) (skipCell encoding isNull)
      fun v _ ↦ ReadsCell encoding ty isNull v) (count : Nat) :
    Follows (do
      let nulls ← readNullIndicators count
      nulls.mapM f) (scanArray encoding count) fun cells nulls ↦ Reads ty cells ⟨encoding, nulls⟩ := by
  refine (sound_nulls count).follows.bind ?_
  rintro nulls _ ⟨rfl, -⟩
  rw [if_neg hdense]
  have hsame : List.Forall₂ Eq nulls nulls := List.forall₂_eq_eq_eq ▸ rfl
  have hloop := Follows.mapM (R := fun isNull v _ ↦ ReadsCell encoding ty isNull v) hsame (by
    rintro isNull _ rfl
    exact hf isNull)
  refine hloop.map_right fun cells units hcells ↦ ?_
  refine reads_of_cells hcells.1 fun i isNull v hnull hv ↦ ?_
  have hi : i < units.length := by
    rw [hcells.2.1]
    exact (List.getElem?_eq_some_iff.mp hnull).1
  exact hcells.2.2 i isNull v () hnull hv (List.getElem?_eq_getElem hi)

/-- A `ByteArray` gives booleans, whatever the type of the column is. -/
theorem reads_booleans {nulls bits : List Bool} {cells : List Value} (ty : TSDataType)
    (hbits : bits.length = nulls.length)
    (h : (List.range nulls.length).mapM (booleanCell nulls bits) = .ok cells) :
    Reads ty cells ⟨encodingByteArray, nulls⟩ := by
  have hcell : ∀ i ∈ List.range nulls.length, booleanCell nulls bits i =
      .ok (if nulls.getD i true then .null else .boolean (bits.getD i false)) := by
    intro i hi
    have hi := List.mem_range.mp hi
    unfold booleanCell
    rw [index_of_lt hi, index_of_lt (hbits ▸ hi), List.getD_eq_getElem _ _ hi,
      List.getD_eq_getElem _ _ (hbits ▸ hi)]
    cases nulls[i] <;> rfl
  rw [mapM_ok hcell] at h
  cases h
  constructor
  · rw [List.map_map]
    refine Eq.trans ?_ (map_getD_range nulls true)
    refine List.map_congr_left fun i _ ↦ ?_
    show Value.isNull (if nulls.getD i true then .null else .boolean (bits.getD i false)) = _
    cases nulls.getD i true <;> rfl
  · intro v hv hvalue
    obtain ⟨i, -, rfl⟩ := List.mem_map.mp hv
    show Value.dataType _ = _
    cases hnull : nulls.getD i true with
    | true =>
        rw [hnull] at hvalue
        cases hvalue
    | false => rfl

theorem follows_array (encoding : UInt8) (ty : TSDataType) (count : Nat) :
    Follows (decodeArray encoding ty count) (scanArray encoding count)
      fun cells nulls ↦ Reads ty cells ⟨encoding, nulls⟩ := by
  unfold decodeArray
  by_cases hbyte : encoding = encodingByteArray
  · rw [if_pos hbyte]
    subst hbyte
    refine (sound_nulls count).follows.bind ?_
    rintro nulls _ ⟨rfl, hnulls⟩
    rw [if_pos rfl]
    refine (sound_packedBits count).follows.bind ?_
    rintro bits _ ⟨rfl, hbits⟩
    subst hnulls
    exact Follows.lift fun cells hcells ↦ reads_booleans ty hbits hcells
  · rw [if_neg hbyte]
    by_cases hint32 : encoding = encodingInt32Array
    · rw [if_pos hint32]
      subst hint32
      exact follows_dense hbyte (follows_int32Cell ty) count
    · rw [if_neg hint32]
      by_cases hint64 : encoding = encodingInt64Array
      · rw [if_pos hint64]
        subst hint64
        exact follows_dense hbyte (follows_int64Cell ty) count
      · rw [if_neg hint64]
        by_cases hbinary : encoding = encodingBinaryArray
        · rw [if_pos hbinary]
          subst hbinary
          exact follows_dense hbyte (follows_binaryCell ty) count
        · rw [if_neg hbinary]
          exact follows_decodeError _

theorem follows_column (encoding : UInt8) (ty : TSDataType) (count : Nat) :
    Follows (decodeColumn encoding ty count) (scanColumn encoding count) (Reads ty) := by
  unfold decodeColumn scanColumn
  by_cases hrle : encoding = encodingRle
  · rw [if_pos hrle, if_pos hrle]
    refine sound_readU8.follows.bind ?_
    rintro inner _ ⟨rfl, -⟩
    by_cases hinner : inner = encodingRle
    · rw [if_pos hinner]
      exact follows_decodeError _
    · rw [if_neg hinner]
      refine (follows_array inner ty 1).bind fun single nulls hsingle ↦ ?_
      cases single with
      | nil => exact follows_decodeError _
      | cons v rest =>
          -- One value stands for every position.
          have hhead : nulls.headD true = v.isNull := by
            have hnulls := hsingle.nulls
            rw [← show _ = nulls from hnulls]
            rfl
          rw [hhead]
          refine .pure ⟨List.map_replicate, fun w hw hvalue ↦ ?_⟩
          obtain rfl := List.eq_of_mem_replicate hw
          exact hsingle.cells w List.mem_cons_self hvalue
  · rw [if_neg hrle, if_neg hrle]
    exact (follows_array encoding ty count).map_right fun cells nulls h ↦ h

/-- Every column of a decoded block against what the scanner saw of it. -/
structure WireBlock.Describes (wire : WireBlock) (block : TsBlock) : Prop where
  types : wire.types = block.columnTypes
  columns : ∀ (i : Nat) (ty : TSDataType), block.columnTypes[i]? = some ty →
    ∃ cells column, block.columns[i]? = some cells ∧ wire.columns[i]? = some column ∧
      Reads ty cells column

theorem follows_columns {types : List TSDataType} {encodings : List UInt8} {count : Nat}
    (hlength : encodings.length = types.length) :
    Follows (types.zipIdx.mapM fun (ty, i) ↦ do
        let encoding ← (index encodings i : Result UInt8)
        decodeColumn encoding ty count)
      (encodings.mapM fun encoding ↦ scanColumn encoding count)
      fun columns shapes ↦ ∀ times, WireBlock.Describes ⟨types, shapes⟩
        ⟨count, types, times, columns⟩ := by
  have hpairs : List.Forall₂ (fun (p : TSDataType × Nat) encoding ↦ encodings[p.2]? = some encoding)
      types.zipIdx encodings := by
    rw [List.forall₂_iff_get]
    refine ⟨by rw [List.length_zipIdx, hlength], fun i hi hi' ↦ ?_⟩
    simp
  have hloop := Follows.mapM (R := fun p cells column ↦ Reads p.1 cells column)
    (f := fun (p : TSDataType × Nat) ↦ (do
      let encoding ← (index encodings p.2 : Result UInt8)
      decodeColumn encoding p.1 count : ReaderM (List Value)))
    (g := fun encoding ↦ scanColumn encoding count) hpairs (by
      rintro ⟨ty, i⟩ encoding hencoding
      refine .lift_bind fun found hfound ↦ ?_
      rw [index_of_getElem? hencoding] at hfound
      cases hfound
      exact follows_column encoding ty count)
  refine hloop.mono fun columns shapes hcolumns times ↦ ⟨rfl, fun i ty hty ↦ ?_⟩
  obtain ⟨hcells, hshapes, hreads⟩ := hcolumns
  rw [List.length_zipIdx] at hcells hshapes
  have hi : i < types.length := (List.getElem?_eq_some_iff.mp hty).1
  have hpair : types.zipIdx[i]? = some (ty, i) := by
    rw [List.getElem?_zipIdx, show types[i]? = some ty from hty, Option.map_some, Nat.zero_add]
  have hcell := List.getElem?_eq_getElem (l := columns) (by omega : i < columns.length)
  have hshape := List.getElem?_eq_getElem (l := shapes) (by omega : i < shapes.length)
  exact ⟨_, _, hcell, hshape, hreads i (ty, i) _ _ hpair hcell hshape⟩

theorem follows_block : Follows decodeBlock scanBlock fun block wire ↦ wire.Describes block := by
  refine sound_readI32.follows.bind ?_
  rintro width _ ⟨rfl, -⟩
  by_cases hwidth : width < 0
  · rw [if_pos hwidth]
    exact follows_decodeError _
  rw [if_neg hwidth]
  refine (Safe.mapM _ fun _ _ ↦ sound_columnType).follows.bind ?_
  rintro types _ ⟨rfl, htypes⟩
  refine sound_readI32.follows.bind ?_
  rintro height _ ⟨rfl, -⟩
  by_cases hheight : height < 0
  · rw [if_pos hheight]
    exact follows_decodeError _
  rw [if_neg hheight]
  refine sound_readU8.follows.bind ?_
  rintro timeEncoding _ ⟨rfl, -⟩
  refine (Safe.mapM _ fun _ _ ↦ sound_readU8).follows.bind ?_
  rintro encodings _ ⟨rfl, hencodings⟩
  refine (follows_column timeEncoding .int64 _).bind fun timeColumn _ _ ↦ ?_
  refine .lift_bind fun times _ ↦ ?_
  have hlength : encodings.length = types.length := by rw [htypes.1, hencodings.1]
  exact (follows_columns hlength).bind fun columns shapes h ↦ .pure (h times)

/-- The scanner understands every block that decodes. -/
theorem wireOf_decoded {bytes : Slice} {block : TsBlock} (h : TsBlock.decode bytes = .ok block) :
    ∃ wire, wireOf bytes = .ok wire ∧ wire.Describes block := by
  obtain ⟨c, hrun⟩ := decode_eq.mp h
  obtain ⟨-, wire, hscan, hwire⟩ := follows_block ⟨bytes, 0⟩ c block (Nat.zero_le _) hrun
  refine ⟨wire, ?_, hwire⟩
  unfold wireOf
  rw [hscan]
  rfl

/-! ## Conformance -/

/-- A column holds a value where its null indicators say so. -/
theorem Reads.value {ty : TSDataType} {cells : List Value} {column : WireColumn}
    (h : Reads ty cells column) (hvalue : false ∈ column.nulls) :
    ∃ v ∈ cells, v.isNull = false := by
  rw [← h.nulls] at hvalue
  obtain ⟨v, hv, hnull⟩ := List.mem_map.mp hvalue
  exact ⟨v, hv, hnull⟩

theorem Reads.holds {ty : TSDataType} {cells : List Value} {column : WireColumn} {v : Value}
    (h : Reads ty cells column) (hv : v ∈ cells) (hvalue : v.isNull = false) :
    false ∈ column.nulls := by
  rw [← h.nulls, ← hvalue]
  exact List.mem_map_of_mem hv

/-- Outside of `ByteArray` a column that holds a value is of a type that its encoding carries. -/
theorem Reads.carried {ty : TSDataType} {cells : List Value} {column : WireColumn}
    (h : Reads ty cells column) (hvalue : false ∈ column.nulls)
    (hdense : column.encoding ≠ encodingByteArray) : carries column.encoding ty = true := by
  obtain ⟨v, hv, hnull⟩ := h.value hvalue
  have hcell := h.cells v hv hnull
  rw [CellFrom, if_neg hdense] at hcell
  exact hcell.2

/-- A boolean conforms to BOOLEAN columns only. -/
theorem boolean_of_conforms {ty : TSDataType} {v : Value} (hboolean : v.dataType = some .boolean)
    (h : v.ConformsTo ty) : ty = .boolean := by
  cases v with
  | boolean b =>
      rcases h with hnull | htype | ⟨-, b', hblob, -⟩
      · cases hnull
      · exact (Option.some.inj htype).symm
      · cases hblob
  | _ => cases hboolean

theorem conforms_iff {wire : WireBlock} {block : TsBlock} (h : wire.Describes block) :
    block.Conforms ∧ wire.Carried ↔ wire.BitsAreBoolean := by
  constructor
  · rintro ⟨hconforms, -⟩ i ty column hty hcolumn hbits hvalue
    rw [h.types] at hty
    obtain ⟨cells, column', hcells, hcolumn', hreads⟩ := h.columns i ty hty
    obtain rfl : column' = column := by simpa [hcolumn'] using hcolumn
    obtain ⟨v, hv, hnull⟩ := hreads.value hvalue
    have hcell := hreads.cells v hv hnull
    rw [CellFrom, if_pos hbits] at hcell
    exact boolean_of_conforms hcell (hconforms i ty cells hty hcells v hv)
  · intro hbits
    refine ⟨fun i ty cells hty hcells v hv ↦ ?_, fun i ty column hty hcolumn hvalue ↦ ?_⟩
    · obtain ⟨cells', column, hcells', hcolumn, hreads⟩ := h.columns i ty hty
      obtain rfl : cells' = cells := by simpa [hcells'] using hcells
      cases hnull : v.isNull with
      | true => exact .inl hnull
      | false =>
          have hcell := hreads.cells v hv hnull
          by_cases hbyte : column.encoding = encodingByteArray
          · rw [CellFrom, if_pos hbyte] at hcell
            rw [hbits i ty column (h.types ▸ hty) hcolumn hbyte (hreads.holds hv hnull)]
            exact .inr (.inl hcell)
          · rw [CellFrom, if_neg hbyte] at hcell
            exact hcell.1
    · have hty' := h.types ▸ hty
      obtain ⟨cells, column', hcells, hcolumn', hreads⟩ := h.columns i ty hty'
      obtain rfl : column' = column := by simpa [hcolumn'] using hcolumn
      by_cases hbyte : column'.encoding = encodingByteArray
      · rw [hbits i ty column' hty hcolumn hbyte hvalue, hbyte]
        rfl
      · exact hreads.carried hvalue hbyte

/-- A decoded block conforms to its header, and every column that holds a value has an encoding for
its type, exactly if no `ByteArray` that holds a value belongs to a column of another type than
BOOLEAN.  Any other mismatch of type and encoding is a decode error. -/
theorem decoded_cells_conform_iff (bytes : Slice) :
    (∀ wire, wireOf bytes = .ok wire → wire.Mismatched →
      ∃ message, TsBlock.decode bytes = .error (.error (.decode message))) ∧
    ∀ block, TsBlock.decode bytes = .ok block → ∃ wire, wireOf bytes = .ok wire ∧
      (block.Conforms ∧ wire.Carried ↔ wire.BitsAreBoolean) := by
  constructor
  · rintro wire hwire ⟨i, ty, column, hty, hcolumn, hvalue, hdense, hmismatch⟩
    have hends := decode_ends bytes
    cases hdecode : TsBlock.decode bytes with
    | error fault =>
        rw [hdecode] at hends
        cases fault with
        | error e =>
            obtain ⟨message, rfl⟩ := hends
            exact ⟨message, rfl⟩
        | panic message => cases hends
    | ok block =>
        obtain ⟨wire', hwire', hdescribes⟩ := wireOf_decoded hdecode
        obtain rfl : wire' = wire := by simpa [hwire'] using hwire
        obtain ⟨cells, column', -, hcolumn', hreads⟩ :=
          hdescribes.columns i ty (hdescribes.types ▸ hty)
        obtain rfl : column' = column := by simpa [hcolumn'] using hcolumn
        rw [hreads.carried hvalue hdense] at hmismatch
        cases hmismatch
  · intro block hdecode
    obtain ⟨wire, hwire, hdescribes⟩ := wireOf_decoded hdecode
    exact ⟨wire, hwire, conforms_iff hdescribes⟩

/-- One row with one INT32 column, encoded as `Int64Array`. -/
def longsAsInt32 : Slice :=
  ⟨[0, 0, 0, 1, 1, 0, 0, 0, 1, 2, 2, 0, 0, 0, 0, 0, 0, 0, 0, 5, 0, 0, 0, 0, 0, 0, 0, 0, 7], by decide⟩

/-- The sample conforms, and the INT32 column in eight bytes is rejected. -/
theorem decoded_cells_conform_iff_sample :
    (∃ message, TsBlock.decode longsAsInt32 = .error (.error (.decode message))) ∧
      TsBlock.decode ⟨sampleBlockBytes, by decide⟩ = .ok sampleBlock ∧ sampleBlock.Conforms := by
  have hlongs : wireOf longsAsInt32 = .ok ⟨[.int32], [⟨2, [false]⟩]⟩ := by decide +kernel
  have hsample : TsBlock.decode ⟨sampleBlockBytes, by decide⟩ = .ok sampleBlock := by decide +kernel
  have hwire : wireOf ⟨sampleBlockBytes, by decide⟩ = .ok ⟨[.boolean, .int32, .text, .double],
      [⟨0, [false, true]⟩, ⟨1, [true, false]⟩, ⟨3, [false, false]⟩, ⟨2, [true, true]⟩]⟩ := by
    decide +kernel
  refine ⟨?_, hsample, ?_⟩
  · exact (decoded_cells_conform_iff longsAsInt32).1 _ hlongs
      ⟨0, .int32, ⟨2, [false]⟩, rfl, rfl, by decide, by decide, by decide⟩
  · obtain ⟨wire, hwire', hiff⟩ := (decoded_cells_conform_iff _).2 _ hsample
    rw [hwire] at hwire'
    cases hwire'
    refine (hiff.mpr fun i ty column hty hcolumn hbits _ ↦ ?_).1
    have hi : i < 4 := (List.getElem?_eq_some_iff.mp hty).1
    interval_cases i <;> cases hty <;> cases hcolumn <;> first | rfl | cases hbits

/-- One row with one INT32 column, encoded as `ByteArray`. -/
def bitsAsInt32 : Slice :=
  ⟨[0, 0, 0, 1, 1, 0, 0, 0, 1, 2, 0, 0, 0, 0, 0, 0, 0, 0, 0, 5, 0, 128], by decide⟩

/-- The INT32 column comes out with a boolean in it. -/
theorem bitsAsInt32_accepted :
    ∃ block, TsBlock.decode bitsAsInt32 = .ok block ∧ block.columnTypes = [.int32] ∧
      block.columns = [[.boolean true]] ∧ ¬block.Conforms := by
  refine ⟨⟨1, [.int32], [5], [[.boolean true]]⟩, by decide +kernel, rfl, rfl, fun hconforms ↦ ?_⟩
  have hcell := hconforms 0 .int32 [.boolean true] rfl rfl (.boolean true) List.mem_cons_self
  cases boolean_of_conforms rfl hcell

end IotdbClient
