import IotdbClient.Library.Cursor
import IotdbClient.Library.RustDisplay

/-!
# Errors, type codes and cell values

The crate's error type, the TSFile data type codes, the table-model column categories and the
dynamically typed cell value.
-/

namespace IotdbClient

open Library

/-- `Error`.  The payload of `thrift` and `tls` is the text of the underlying error. -/
inductive Error where
  | thrift (e : String)
  | server (code : Int32) (message : String)
  | client (message : String)
  | decode (message : String)
  | tls (message : String)
deriving Repr, DecidableEq

/-- `Result<T>` of the crate, with the panics of the function that returns it. -/
abbrev Result (α : Type) := Outcome Error α

inductive TSDataType where
  | boolean
  | int32
  | int64
  | float
  | double
  | text
  | vector
  | unknown
  | timestamp
  | date
  | blob
  | string
deriving Repr, DecidableEq

namespace TSDataType

def code : TSDataType → Int32
  | boolean => 0
  | int32 => 1
  | int64 => 2
  | float => 3
  | double => 4
  | text => 5
  | vector => 6
  | unknown => 7
  | timestamp => 8
  | date => 9
  | blob => 10
  | string => 11

def fromCode (code : UInt8) : Option TSDataType :=
  match code.toNat with
  | 0 => some boolean
  | 1 => some int32
  | 2 => some int64
  | 3 => some float
  | 4 => some double
  | 5 => some text
  | 6 => some vector
  | 7 => some unknown
  | 8 => some timestamp
  | 9 => some date
  | 10 => some blob
  | 11 => some string
  | _ => none

/-- The variant name, as the derived `Debug` prints it. -/
def debug : TSDataType → String
  | boolean => "Boolean"
  | int32 => "Int32"
  | int64 => "Int64"
  | float => "Float"
  | double => "Double"
  | text => "Text"
  | vector => "Vector"
  | unknown => "Unknown"
  | timestamp => "Timestamp"
  | date => "Date"
  | blob => "Blob"
  | string => "String"

/-- The ten types a cell can have: all but `Vector` and `Unknown`. -/
def insertable : TSDataType → Bool
  | vector | unknown => false
  | _ => true

/-- The one-byte code of a TsBlock header, `code() as u8`. -/
def codeByte (ty : TSDataType) : UInt8 := ty.code.toUInt32.toUInt8

@[simp] theorem fromCode_codeByte (ty : TSDataType) : fromCode ty.codeByte = some ty := by
  cases ty <;> rfl

end TSDataType

inductive ColumnCategory where
  | tag
  | field
  | attribute
deriving Repr, DecidableEq

def ColumnCategory.code : ColumnCategory → Int8
  | .tag => 0
  | .field => 1
  | .attribute => 2

/-- One cell of a row.  Floats are their bit patterns. -/
inductive Value where
  | boolean (b : Bool)
  | int32 (v : Int32)
  | int64 (v : Int64)
  | float (bits : UInt32)
  | double (bits : UInt64)
  | text (s : String)
  | timestamp (v : Int64)
  | date (v : Int32)
  | blob (b : List UInt8)
  | string (s : String)
  | null
deriving Repr, DecidableEq

namespace Value

def dataType : Value → Option TSDataType
  | boolean _ => some .boolean
  | int32 _ => some .int32
  | int64 _ => some .int64
  | float _ => some .float
  | double _ => some .double
  | text _ => some .text
  | timestamp _ => some .timestamp
  | date _ => some .date
  | blob _ => some .blob
  | string _ => some .string
  | null => none

def typeCode (v : Value) : Option Int32 := v.dataType.map TSDataType.code

def isNull : Value → Bool
  | null => true
  | _ => false

/-- The derived `Debug` text. -/
def debug : Value → String
  | boolean b => s!"Boolean({b})"
  | int32 v => s!"Int32({v})"
  | int64 v => s!"Int64({v})"
  | float bits => s!"Float({f32Debug bits})"
  | double bits => s!"Double({f64Debug bits})"
  | text s => s!"Text({strDebug s})"
  | timestamp v => s!"Timestamp({v})"
  | date v => s!"Date({v})"
  | blob b => s!"Blob({b})"
  | string s => s!"String({strDebug s})"
  | null => "Null"

/-- The bytes a length prefix is written for: the payload of a TEXT, STRING or BLOB cell. -/
def payload : Value → List UInt8
  | text s | string s => asBytes s
  | blob b => b
  | _ => []

theorem isNull_iff (v : Value) : v.isNull = true ↔ v = null := by
  cases v <;> simp [isNull]

theorem isNull_iff_dataType (v : Value) : v.isNull = true ↔ v.dataType = none := by
  cases v <;> simp [isNull, dataType]

theorem insertable_of_dataType {v : Value} {ty : TSDataType} (h : v.dataType = some ty) :
    ty.insertable = true := by
  cases v <;> cases h <;> rfl

end Value

end IotdbClient
