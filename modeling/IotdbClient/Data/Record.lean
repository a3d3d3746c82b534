import IotdbClient.Data.Tablet

/-!
# Record buffers

The row-oriented value buffer of the `insertRecord` family: each cell is a type marker followed by
its payload.
-/

namespace IotdbClient

open Library

/-- The bare marker of a null cell, Java's `TYPE_NULL = -2`. -/
def typeNull : UInt8 := 0xFE

/-- The bytes one value adds to the buffer of `serialize_record_values`. -/
def recordCell : Value → List UInt8
  | .null => [typeNull]
  | v@(.boolean b) => markerOf v :: [if b then 1 else 0]
  | v@(.int32 x) | v@(.date x) => markerOf v :: i32ToBeBytes x
  | v@(.int64 x) | v@(.timestamp x) => markerOf v :: i64ToBeBytes x
  | v@(.float bits) => markerOf v :: f32ToBeBytes bits
  | v@(.double bits) => markerOf v :: f64ToBeBytes bits
  | v@(.text s) | v@(.string s) => markerOf v :: Tablet.writeBinary (asBytes s)
  | v@(.blob b) => markerOf v :: Tablet.writeBinary b
where
  /-- `type_code() as u8` of a non-null value. -/
  markerOf (v : Value) : UInt8 := (v.typeCode.getD 0).toUInt32.toUInt8

def serializeRecordValues (values : List Value) : List UInt8 := values.flatMap recordCell

end IotdbClient
