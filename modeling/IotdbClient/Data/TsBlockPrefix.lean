import IotdbClient.Data.TsBlockCodec
import IotdbClient.Data.TsBlockShape

/-!
# The bytes of a block

A block that the decoder returns is determined by the bytes it has read: bytes after them change
nothing, and without the last of them there is a decode error.  How many they are is read on the way,
so this is shown for every reader in turn.
-/

namespace IotdbClient

open Library Reader

/-- A decoder step whose reads are all checked against the end of the buffer. -/
abbrev Exact {α : Type} (m : ReaderM α) : Prop := Determined IsDecodeError m

theorem exact_decodeError {α : Type} (message : String) : Exact (decodeError message : ReaderM α) :=
  .lift _

/-! ## The reader -/

theorem readBytes_short {c : Cursor} {n : Nat} (hc : c.InRange) (hshort : c.rest.length < n) :
    ∃ e, IsDecodeError e ∧ readBytes n c = .error (.error e) := by
  unfold Cursor.InRange at hc
  rw [Cursor.rest_length] at hshort
  have hnone : (checkedAdd c.pos n).filter (· ≤ c.buf.val.length) = none := by
    unfold checkedAdd
    split
    · rw [Option.filter_some, if_neg (by simp; omega)]
    · rfl
  unfold readBytes
  rw [hnone]
  simp only [usizeSub_of_le hc]
  exact ⟨_, ⟨_, rfl⟩, rfl⟩

theorem exact_readBytes (n : Nat) : Exact (readBytes n) := by
  intro c c' a hc hrun
  by_cases hshort : c.rest.length < n
  · obtain ⟨e, -, hfails⟩ := readBytes_short hc hshort
    rw [hfails] at hrun
    cases hrun
  · have hlength : (c.rest.take n).length = n := by
      rw [List.length_take]
      omega
    have hconsumes := consumes_readBytes (c.rest.take n) hlength
    have hread := hconsumes c (c.rest.drop n) hc (List.take_append_drop n c.rest).symm
    rw [hrun] at hread
    obtain rfl : a = c.rest.take n := by cases hread; rfl
    refine ⟨_, List.take_prefix n c.rest, hconsumes, fun d hd _ hlt ↦ ?_⟩
    exact readBytes_short hd (hlt.trans_eq hlength)

theorem exact_readU8 : Exact readU8 := (exact_readBytes 1).bind fun _ ↦ .lift _

theorem exact_readI32 : Exact readI32 :=
  (exact_readBytes 4).bind fun _ ↦ (Determined.lift _).bind fun _ ↦ .pure _

theorem exact_readI64 : Exact readI64 :=
  (exact_readBytes 8).bind fun _ ↦ (Determined.lift _).bind fun _ ↦ .pure _

theorem exact_packedBits (count : Nat) : Exact (readPackedBits count) := by
  refine (exact_readBytes _).bind fun bytes ↦ ?_
  refine (Determined.lift _).bind fun bits ↦ ?_
  cases bits with
  | none => exact exact_decodeError _
  | some bits => exact .pure bits

theorem exact_nulls (count : Nat) : Exact (readNullIndicators count) := by
  refine exact_readU8.bind fun mayHaveNull ↦ ?_
  split
  · exact .pure _
  · exact exact_packedBits count

/-! ## Columns -/

theorem exact_int32Cell (ty : TSDataType) (isNull : Bool) : Exact (decodeInt32Cell ty isNull) := by
  cases isNull with
  | true => exact .pure _
  | false =>
      refine exact_readI32.bind fun raw ↦ ?_
      cases ty <;> first | exact .pure _ | exact exact_decodeError _

theorem exact_int64Cell (ty : TSDataType) (isNull : Bool) : Exact (decodeInt64Cell ty isNull) := by
  cases isNull with
  | true => exact .pure _
  | false =>
      refine exact_readI64.bind fun raw ↦ ?_
      cases ty <;> first | exact .pure _ | exact exact_decodeError _

theorem exact_binaryCell (ty : TSDataType) (isNull : Bool) : Exact (decodeBinaryCell ty isNull) := by
  cases isNull with
  | true => exact .pure _
  | false =>
      refine exact_readI32.bind fun len ↦ ?_
      split
      · exact exact_decodeError _
      · refine (exact_readBytes _).bind fun bytes ↦ ?_
        cases ty with
        | blob => exact .pure _
        | text => cases hutf : fromUtf8 bytes <;> exact .pure _
        | string => exact (Determined.lift _).bind fun s ↦ .pure _
        | _ => exact exact_decodeError _

theorem exact_array (encoding : UInt8) (ty : TSDataType) (count : Nat) :
    Exact (decodeArray encoding ty count) := by
  unfold decodeArray
  split
  · exact (exact_nulls count).bind fun _ ↦ (exact_packedBits count).bind fun _ ↦ .lift _
  · split
    · exact (exact_nulls count).bind fun nulls ↦ .mapM (exact_int32Cell ty) nulls
    · split
      · exact (exact_nulls count).bind fun nulls ↦ .mapM (exact_int64Cell ty) nulls
      · split
        · exact (exact_nulls count).bind fun nulls ↦ .mapM (exact_binaryCell ty) nulls
        · exact exact_decodeError _

theorem exact_column (encoding : UInt8) (ty : TSDataType) (count : Nat) :
    Exact (decodeColumn encoding ty count) := by
  unfold decodeColumn
  split
  · refine exact_readU8.bind fun inner ↦ ?_
    split
    · exact exact_decodeError _
    · refine (exact_array inner ty 1).bind fun single ↦ ?_
      cases single.head? with
      | none => exact exact_decodeError _
      | some v => exact .pure _
  · exact exact_array encoding ty count

/-! ## Blocks -/

theorem exact_columnType : Exact readColumnType := by
  refine exact_readU8.bind fun code ↦ ?_
  cases TSDataType.fromCode code with
  | none => exact exact_decodeError _
  | some ty => exact .pure ty

theorem exact_block : Exact decodeBlock := by
  refine exact_readI32.bind fun width ↦ ?_
  split
  · exact exact_decodeError _
  refine (Determined.mapM (fun _ ↦ exact_columnType) _).bind fun types ↦ ?_
  refine exact_readI32.bind fun height ↦ ?_
  split
  · exact exact_decodeError _
  refine exact_readU8.bind fun timeEncoding ↦ ?_
  refine (Determined.mapM (fun _ ↦ exact_readU8) _).bind fun encodings ↦ ?_
  refine (exact_column timeEncoding .int64 _).bind fun timeColumn ↦ ?_
  refine (Determined.lift _).bind fun times ↦ ?_
  refine (Determined.mapM (fun column ↦ ?_) _).bind fun columns ↦ .pure _
  exact (Determined.lift _).bind fun encoding ↦ exact_column encoding column.1 _

/-- The number of bytes that decide the result: with them, and whatever follows, it is `block`; with
fewer it is a decode error. -/
def TsBlock.DecidedBy (bytes : Slice) (block : TsBlock) (n : Nat) : Prop :=
  n ≤ bytes.val.length ∧
    (∀ (m : Nat) (further : List UInt8) (slice : Slice), n ≤ m →
      slice.val = bytes.val.take m ++ further → TsBlock.decode slice = .ok block) ∧
    ∀ (m : Nat) (slice : Slice), m < n → slice.val = bytes.val.take m →
      ∃ message, TsBlock.decode slice = .error (.error (.decode message))

theorem decode_eq {bytes : Slice} {block : TsBlock} :
    TsBlock.decode bytes = .ok block ↔ ∃ c, decodeBlock ⟨bytes, 0⟩ = .ok (block, c) := by
  unfold TsBlock.decode
  rw [bind_eq_ok]
  constructor
  · rintro ⟨⟨found, c⟩, hrun, heq⟩
    cases heq
    exact ⟨c, hrun⟩
  · rintro ⟨c, hrun⟩
    exact ⟨_, hrun, rfl⟩

theorem TsBlock.DecidedBy.le {bytes : Slice} {block : TsBlock} {n n' : Nat}
    (h : TsBlock.DecidedBy bytes block n) (h' : TsBlock.DecidedBy bytes block n') : n' ≤ n := by
  by_contra hlt
  -- On the first `n` bytes the two disagree.
  have hsmall : (bytes.val.take n).length < 2 ^ 63 := by
    have hbytes := bytes.property
    rw [List.length_take]
    omega
  have hok := h.2.1 n [] ⟨bytes.val.take n, hsmall⟩ le_rfl (List.append_nil _).symm
  obtain ⟨message, hfails⟩ := h'.2.2 n ⟨bytes.val.take n, hsmall⟩ (Nat.not_le.mp hlt) rfl
  rw [hok] at hfails
  cases hfails

/-- Every byte string that decodes has a consumed prefix, and only one. -/
theorem decode_decided_by_prefix {bytes : Slice} {block : TsBlock}
    (h : TsBlock.decode bytes = .ok block) : ∃! n, TsBlock.DecidedBy bytes block n := by
  obtain ⟨c, hrun⟩ := decode_eq.mp h
  obtain ⟨read, hread, hconsumes, hcut⟩ := exact_block ⟨bytes, 0⟩ c block (Nat.zero_le _) hrun
  change read <+: bytes.val at hread
  have hdecided : TsBlock.DecidedBy bytes block read.length := by
    refine ⟨hread.length_le, fun m further slice hm hslice ↦ ?_, fun m slice hm hslice ↦ ?_⟩
    · obtain ⟨left, hleft⟩ := List.prefix_take_iff.mpr ⟨hread, hm⟩
      have hrest : (Cursor.mk slice 0).rest = read ++ (left ++ further) := by
        change slice.val = _
        rw [hslice, ← hleft, List.append_assoc]
      exact decode_eq.mpr ⟨_, hconsumes ⟨slice, 0⟩ _ (Nat.zero_le _) hrest⟩
    · have hlt : slice.val.length < read.length := by
        rw [hslice, List.length_take]
        omega
      have hprefix : slice.val <+: read := by
        have htaken : slice.val <+: bytes.val := by
          rw [hslice]
          exact List.take_prefix m bytes.val
        exact List.prefix_of_prefix_length_le htaken hread hlt.le
      obtain ⟨e, ⟨message, rfl⟩, hfails⟩ := hcut ⟨slice, 0⟩ (Nat.zero_le _) hprefix hlt
      refine ⟨message, ?_⟩
      unfold TsBlock.decode
      rw [hfails]
      rfl
  exact ⟨read.length, hdecided, fun n hn ↦ le_antisymm (hdecided.le hn) (hn.le hdecided)⟩

/-- The trailing bytes of the sample are not part of its block. -/
theorem decode_decided_by_prefix_sample :
    ∃! n, TsBlock.DecidedBy ⟨sampleBlockBytes ++ [1, 2, 3], by decide⟩ sampleBlock n :=
  decode_decided_by_prefix (by decide +kernel)

end IotdbClient
