import IotdbClient.Data.TsBlock

/-!
# Decoding untrusted bytes

No byte string makes the decoder panic: it returns a block whose columns all have `positionCount`
cells, or `Error::Decode`.
-/

namespace IotdbClient

open Library Reader

def IsDecodeError (e : Error) : Prop := ∃ message, e = .decode message

/-- A decoder step on arbitrary bytes: a value in `Q` or a decode error. -/
abbrev Sound {α : Type} (m : ReaderM α) (Q : α → Prop) : Prop := Safe IsDecodeError m Q

/-- As many timestamps as rows, as many columns as types, and each column as long as the block. -/
structure TsBlock.Rectangular (block : TsBlock) : Prop where
  times : block.timestamps.length = block.positionCount
  columns : block.columns.length = block.columnTypes.length
  heights : ∀ col ∈ block.columns, col.length = block.positionCount

variable {α : Type} {Q : α → Prop}

theorem sound_decodeError (message : String) : Sound (decodeError message) Q :=
  Safe.lift ⟨message, rfl⟩

/-! ## The reader -/

theorem sound_readBytes (n : Nat) : Sound (readBytes n) fun bytes ↦ bytes.length = n := by
  intro c hc
  have hsmall := c.buf.property
  unfold Cursor.InRange at hc
  unfold readBytes
  cases hstop : (checkedAdd c.pos n).filter (· ≤ c.buf.val.length) with
  | none =>
      -- The length difference in the message: the position never passes the end of the buffer.
      simp only [usizeSub_of_le hc]
      exact ⟨_, rfl⟩
  | some stop =>
      obtain ⟨hadd, hle⟩ := Option.filter_eq_some_iff.mp hstop
      have hstop : stop = c.pos + n := by
        unfold checkedAdd at hadd
        split at hadd
        · exact (Option.some.inj hadd).symm
        · cases hadd
      have hle : stop ≤ c.buf.val.length := by simpa using hle
      simp only [sliceRange_of_le (show c.pos ≤ stop by omega) hle]
      refine ⟨?_, rfl, hle⟩
      change ((c.buf.val.drop c.pos).take (stop - c.pos)).length = n
      rw [List.length_take, List.length_drop]
      omega

theorem sound_readU8 : Sound readU8 fun _ ↦ True := by
  refine (sound_readBytes 1).bind fun bytes hbytes ↦ ?_
  match bytes, hbytes with
  | [b0], _ => exact Safe.pure trivial

theorem sound_readI32 : Sound readI32 fun _ ↦ True := by
  refine (sound_readBytes 4).bind fun bytes hbytes ↦ ?_
  match bytes, hbytes with
  | [b0, b1, b2, b3], _ => exact Safe.pure trivial

theorem sound_readI64 : Sound readI64 fun _ ↦ True := by
  refine (sound_readBytes 8).bind fun bytes hbytes ↦ ?_
  match bytes, hbytes with
  | [b0, b1, b2, b3, b4, b5, b6, b7], _ => exact Safe.pure trivial

theorem sound_packedBits (count : Nat) :
    Sound (readPackedBits count) fun bits ↦ bits.length = count := by
  refine (sound_readBytes (divCeil8 count)).bind fun bytes hbytes ↦ ?_
  rw [unpackBitsMsbFirst_of_le hbytes.ge]
  exact Safe.pure (by simp)

theorem sound_nulls (count : Nat) :
    Sound (readNullIndicators count) fun nulls ↦ nulls.length = count := by
  refine sound_readU8.bind fun mayHaveNull _ ↦ ?_
  by_cases hzero : mayHaveNull = 0
  · rw [if_pos hzero]
    exact Safe.pure List.length_replicate
  · rw [if_neg hzero]
    exact sound_packedBits count

/-! ## Columns -/

theorem sound_int32Cell (ty : TSDataType) (isNull : Bool) :
    Sound (decodeInt32Cell ty isNull) fun _ ↦ True := by
  cases isNull with
  | true => exact Safe.pure trivial
  | false =>
      refine sound_readI32.bind fun raw _ ↦ ?_
      cases ty <;> first | exact Safe.pure trivial | exact sound_decodeError _

theorem sound_int64Cell (ty : TSDataType) (isNull : Bool) :
    Sound (decodeInt64Cell ty isNull) fun _ ↦ True := by
  cases isNull with
  | true => exact Safe.pure trivial
  | false =>
      refine sound_readI64.bind fun raw _ ↦ ?_
      cases ty <;> first | exact Safe.pure trivial | exact sound_decodeError _

theorem ends_decodeUtf8 (bytes : List UInt8) :
    Ends IsDecodeError (fun _ ↦ True) (decodeUtf8 bytes) := by
  unfold decodeUtf8
  cases fromUtf8 bytes with
  | none => exact ⟨_, rfl⟩
  | some s => exact trivial

theorem sound_binaryCell (ty : TSDataType) (isNull : Bool) :
    Sound (decodeBinaryCell ty isNull) fun _ ↦ True := by
  cases isNull with
  | true => exact Safe.pure trivial
  | false =>
      refine sound_readI32.bind fun len _ ↦ ?_
      by_cases hneg : len < 0
      · rw [if_pos hneg]
        exact sound_decodeError _
      · rw [if_neg hneg]
        refine (sound_readBytes _).bind fun bytes _ ↦ ?_
        cases ty with
        | blob => exact Safe.pure trivial
        | text =>
            cases hutf : fromUtf8 bytes <;> exact Safe.pure trivial
        | string =>
            exact (Safe.lift (ends_decodeUtf8 bytes)).bind fun s _ ↦ Safe.pure trivial
        | _ => exact sound_decodeError _

theorem ends_booleanCell {nulls bits : List Bool} {i : Nat} (hnulls : i < nulls.length)
    (hbits : i < bits.length) :
    Ends IsDecodeError (fun _ ↦ True) (booleanCell nulls bits i) := by
  unfold booleanCell
  rw [index_of_lt hnulls, index_of_lt hbits]
  cases nulls[i] <;> exact trivial

theorem sound_dense {f : Bool → ReaderM Value} {count : Nat}
    (hf : ∀ isNull, Sound (f isNull) fun _ ↦ True) :
    Sound (do
      let nulls ← readNullIndicators count
      nulls.mapM f) fun cells ↦ cells.length = count := by
  refine (sound_nulls count).bind fun nulls hnulls ↦ ?_
  refine (Safe.mapM nulls fun isNull _ ↦ hf isNull).mono fun cells hcells ↦ ?_
  rw [hcells.1, hnulls]

theorem sound_array (encoding : UInt8) (ty : TSDataType) (count : Nat) :
    Sound (decodeArray encoding ty count) fun cells ↦ cells.length = count := by
  unfold decodeArray
  by_cases hbyte : encoding = encodingByteArray
  · rw [if_pos hbyte]
    refine (sound_nulls count).bind fun nulls hnulls ↦ ?_
    refine (sound_packedBits count).bind fun bits hbits ↦ ?_
    -- Both arrays have `count` positions, so the two indices of the loop are in range.
    have hcells := Ends.mapM (E := IsDecodeError) (f := booleanCell nulls bits) (List.range count)
      fun i hi ↦ ends_booleanCell (by simpa [hnulls] using hi) (by simpa [hbits] using hi)
    exact Safe.lift (hcells.mono fun cells h ↦ by rw [h.1, List.length_range])
  · rw [if_neg hbyte]
    by_cases hint32 : encoding = encodingInt32Array
    · rw [if_pos hint32]
      exact sound_dense (sound_int32Cell ty)
    · rw [if_neg hint32]
      by_cases hint64 : encoding = encodingInt64Array
      · rw [if_pos hint64]
        exact sound_dense (sound_int64Cell ty)
      · rw [if_neg hint64]
        by_cases hbinary : encoding = encodingBinaryArray
        · rw [if_pos hbinary]
          exact sound_dense (sound_binaryCell ty)
        · rw [if_neg hbinary]
          exact sound_decodeError _

theorem sound_column (encoding : UInt8) (ty : TSDataType) (count : Nat) :
    Sound (decodeColumn encoding ty count) fun cells ↦ cells.length = count := by
  unfold decodeColumn
  by_cases hrle : encoding = encodingRle
  · rw [if_pos hrle]
    refine sound_readU8.bind fun inner _ ↦ ?_
    by_cases hinner : inner = encodingRle
    · rw [if_pos hinner]
      exact sound_decodeError _
    · rw [if_neg hinner]
      refine (sound_array inner ty 1).bind fun single _ ↦ ?_
      cases single.head? with
      | none => exact sound_decodeError _
      | some v => exact Safe.pure List.length_replicate
  · rw [if_neg hrle]
    exact sound_array encoding ty count

/-! ## Blocks -/

theorem sound_columnType : Sound readColumnType fun _ ↦ True := by
  refine sound_readU8.bind fun code _ ↦ ?_
  cases TSDataType.fromCode code with
  | none => exact sound_decodeError _
  | some ty => exact Safe.pure trivial

theorem ends_timestamps (cells : List Value) :
    Ends IsDecodeError (fun times ↦ times.length = cells.length) (cells.mapM timestampOf) := by
  refine (Ends.mapM (P := fun _ ↦ True) cells fun v _ ↦ ?_).mono fun times h ↦ h.1
  cases v <;> first | exact trivial | exact ⟨_, rfl⟩

theorem sound_columns {types : List TSDataType} {encodings : List UInt8} {count : Nat}
    (hlen : encodings.length = types.length) :
    Sound (types.zipIdx.mapM fun (ty, i) ↦ do
        let encoding ← (index encodings i : Result UInt8)
        decodeColumn encoding ty count)
      fun columns ↦ columns.length = types.length ∧ ∀ col ∈ columns, col.length = count := by
  refine (Safe.mapM types.zipIdx ?_).mono fun columns h ↦ ⟨?_, h.2⟩
  · rintro ⟨ty, i⟩ hmem
    have hi : i < encodings.length := by
      have hsnd := List.snd_lt_of_mem_zipIdx hmem
      omega
    refine (Safe.lift (Q := fun _ ↦ True) ?_).bind fun encoding _ ↦ sound_column encoding ty count
    rw [index_of_lt hi]
    exact trivial
  · rw [h.1, List.length_zipIdx]

theorem sound_block :
    Sound decodeBlock fun block ↦ block.Rectangular ∧ block.columnTypes.length < 2 ^ 31 := by
  refine sound_readI32.bind fun width _ ↦ ?_
  have hcount : width.toInt.toNat < 2 ^ 31 := by
    have hlt := width.toInt_lt
    omega
  by_cases hwidth : width < 0
  · rw [if_pos hwidth]
    exact sound_decodeError _
  rw [if_neg hwidth]
  refine (Safe.mapM _ fun _ _ ↦ sound_columnType).bind fun types htypes ↦ ?_
  refine sound_readI32.bind fun height _ ↦ ?_
  by_cases hheight : height < 0
  · rw [if_pos hheight]
    exact sound_decodeError _
  rw [if_neg hheight]
  refine sound_readU8.bind fun timeEncoding _ ↦ ?_
  refine (Safe.mapM _ fun _ _ ↦ sound_readU8).bind fun encodings hencodings ↦ ?_
  have hlen : encodings.length = types.length := by rw [htypes.1, hencodings.1]
  refine (sound_column timeEncoding .int64 height.toInt.toNat).bind fun timeColumn htime ↦ ?_
  refine (Safe.lift (ends_timestamps timeColumn)).bind fun times htimes ↦ ?_
  refine (sound_columns hlen).bind fun columns hcolumns ↦ ?_
  refine Safe.pure ⟨⟨htimes.trans htime, hcolumns.1, hcolumns.2⟩, ?_⟩
  rw [htypes.1, List.length_range]
  exact hcount

theorem decode_ends (bytes : Slice) :
    Ends IsDecodeError (fun block ↦ block.Rectangular ∧ block.columnTypes.length < 2 ^ 31)
      (TsBlock.decode bytes) := by
  refine (sound_block ⟨bytes, 0⟩ (Nat.zero_le _)).bind ?_
  rintro ⟨block, c⟩ h
  exact h.1

theorem decode_rectangular (bytes : Slice) :
    Ends IsDecodeError TsBlock.Rectangular (TsBlock.decode bytes) :=
  (decode_ends bytes).mono fun _ h ↦ h.1

end IotdbClient
