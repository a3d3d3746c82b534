import IotdbClient.Data.Record
import IotdbClient.Data.TabletServer

/-!
# Reading a record back

The reference server decoder of a record buffer.  Nothing but the type markers separates the cells:
the decoder reads a marker, then the payload of that type, until the buffer is used up.
-/

namespace IotdbClient

open Library

namespace RecordServer

/-- A bare null marker, or a type code and the payload of that type. -/
def readCell : Parser Value := do
  let marker ← Parser.byte
  if marker = typeNull then pure .null
  else
    match TSDataType.fromCode marker with
    | some ty => TabletServer.readCell ty
    | none => failure

/-- All cells of a buffer; a rest that is not a whole cell is rejected. -/
def decodeRecord (buffer : List UInt8) : Option (List Value) :=
  Parser.untilEnd readCell buffer.length buffer

/-- The record encoder writes a marker in front of what `write_cell` writes for that type. -/
theorem recordCell_eq {v : Value} {ty : TSDataType} (h : v.dataType = some ty) :
    recordCell v = ty.codeByte :: TabletServer.cellImage ty (some v) := by
  cases v <;> cases h <;> rfl

theorem codeByte_ne_typeNull (ty : TSDataType) : ty.codeByte ≠ typeNull := by
  cases ty <;> decide

theorem recordCell_parses (v : Value) (hpayload : v.payload.length < 2 ^ 31) :
    Parses readCell (recordCell v) v := by
  cases hty : v.dataType with
  | none =>
      obtain rfl : v = .null := (Value.isNull_iff v).mp ((Value.isNull_iff_dataType v).mpr hty)
      exact (Parses.byte typeNull).bind_pure rfl
  | some ty =>
      obtain ⟨bytes, hwrite, hparse⟩ := TabletServer.writeCell_parses ty (some v)
        (Value.insertable_of_dataType hty) (by rintro w ⟨⟩; exact hty) (by rintro w ⟨⟩; exact hpayload)
      have himage : TabletServer.cellImage ty (some v) = bytes := by
        rw [TabletServer.cellImage, hwrite]
      rw [recordCell_eq hty, himage]
      apply (Parses.byte ty.codeByte).bind
      rw [if_neg (codeByte_ne_typeNull ty), TSDataType.fromCode_codeByte]
      exact hparse

theorem recordCell_ne_nil (v : Value) : recordCell v ≠ [] := by
  cases v <;> simp [recordCell]

theorem length_le_serializeRecordValues (values : List Value) :
    values.length ≤ (serializeRecordValues values).length := by
  induction values with
  | nil => exact Nat.le_refl 0
  | cons v values ih =>
      have hcell := List.length_pos_iff.mpr (recordCell_ne_nil v)
      change values.length + 1 ≤ (recordCell v ++ serializeRecordValues values).length
      rw [List.length_append]
      omega

theorem decodeRecord_serializeRecordValues (values : List Value)
    (hpayload : ∀ v ∈ values, v.payload.length < 2 ^ 31) :
    decodeRecord (serializeRecordValues values) = some values := by
  have hcells : ∀ v ∈ values, Parses readCell (recordCell v) (id v) := fun v hv ↦
    recordCell_parses v (hpayload v hv)
  have h := Parses.untilEnd values hcells (fun v _ ↦ recordCell_ne_nil v) _
    (length_le_serializeRecordValues values)
  rwa [List.map_id] at h

end RecordServer

/-- The decoder returns the values written and rejects a rest, so a buffer has one reading; the
serializer turns concatenation of lists into concatenation of buffers. -/
theorem record_buffer_unique :
    (∀ values : List Value, (∀ v ∈ values, v.payload.length < 2 ^ 31) →
      RecordServer.decodeRecord (serializeRecordValues values) = some values) ∧
    serializeRecordValues [] = [] ∧
    (∀ values values' : List Value, serializeRecordValues (values ++ values') =
      serializeRecordValues values ++ serializeRecordValues values') ∧
    ∀ values values' : List Value, (∀ v ∈ values, v.payload.length < 2 ^ 31) →
      (∀ v ∈ values', v.payload.length < 2 ^ 31) → values ≠ values' →
      serializeRecordValues values ≠ serializeRecordValues values' := by
  refine ⟨RecordServer.decodeRecord_serializeRecordValues, rfl, ?_, ?_⟩
  · intro values values'
    exact List.flatMap_append
  · intro values values' hvalues hvalues' hne heq
    have hread := RecordServer.decodeRecord_serializeRecordValues values hvalues
    rw [heq, RecordServer.decodeRecord_serializeRecordValues values' hvalues'] at hread
    exact hne (Option.some.inj hread).symm

/-- A blob whose bytes are a null marker and type codes, between cells of other types. -/
def sampleValues : List Value :=
  [.null, .blob [0xFE, 0x01, 0x00], .boolean true, .null, .text "ab", .float 0x3FC00000]

theorem record_buffer_unique_sample :
    (∀ v ∈ sampleValues, v.payload.length < 2 ^ 31) ∧
      RecordServer.decodeRecord (serializeRecordValues sampleValues) = some sampleValues ∧
      serializeRecordValues sampleValues ≠ serializeRecordValues (sampleValues ++ [.null]) := by
  have hpayload : ∀ v ∈ sampleValues, v.payload.length < 2 ^ 31 := by decide
  exact ⟨hpayload, record_buffer_unique.1 _ hpayload,
    record_buffer_unique.2.2.2 _ _ hpayload (by decide) (by decide)⟩

end IotdbClient
