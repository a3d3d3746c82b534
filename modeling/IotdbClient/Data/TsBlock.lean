import IotdbClient.Data.Bitmap

/-!
# TsBlock decoding

The binary query-result format: header, encoding bytes, the time column, then the value columns.
Every access to the buffer goes through a bounds-checked reader; slices, indices and the length
difference of its error message keep their panics.
-/

namespace IotdbClient

open Library

def encodingByteArray : UInt8 := 0
def encodingInt32Array : UInt8 := 1
def encodingInt64Array : UInt8 := 2
def encodingBinaryArray : UInt8 := 3
def encodingRle : UInt8 := 4

structure TsBlock where
  positionCount : Nat
  columnTypes : List TSDataType
  timestamps : List Int64
  /-- `columns[col][row]`. -/
  columns : List (List Value)
deriving Repr, DecidableEq

abbrev Reader := Cursor

/-- A function that takes `&mut Reader` and returns `Result`. -/
abbrev ReaderM (α : Type) := CursorM Error α

namespace Reader

def readBytes (n : Nat) : ReaderM (List UInt8) := fun r ↦
  match (checkedAdd r.pos n).filter (· ≤ r.buf.val.length) with
  | none => do
      let available ← usizeSub r.buf.val.length r.pos
      fail (.decode s!"truncated TsBlock: need {n} bytes at offset {r.pos}, have {available}")
  | some stop => do
      let slice ← sliceRange r.buf.val r.pos stop
      pure (slice, { r with pos := stop })

def readU8 : ReaderM UInt8 := do
  let b ← readBytes 1
  liftM (index b 0 : Result UInt8)

def readI32 : ReaderM Int32 := do
  let b ← readBytes 4
  let bytes ← ([0, 1, 2, 3].mapM (index b) : Result (List UInt8))
  pure (i32FromBeBytes bytes)

def readI64 : ReaderM Int64 := do
  let b ← readBytes 8
  let bytes ← ([0, 1, 2, 3, 4, 5, 6, 7].mapM (index b) : Result (List UInt8))
  pure (i64FromBeBytes bytes)

/-- `return Err(Error::Decode(message))`. -/
def decodeError {α : Type} (message : String) : ReaderM α := liftM (fail (.decode message) : Result α)

end Reader

open Reader

def readPackedBits (count : Nat) : ReaderM (List Bool) := do
  let bytes ← readBytes (divCeil8 count)
  match ← unpackBitsMsbFirst bytes count with
  | some bits => pure bits
  | none => decodeError "truncated packed bit array"

def readNullIndicators (positionCount : Nat) : ReaderM (List Bool) := do
  let mayHaveNull ← readU8
  if mayHaveNull = 0 then pure (List.replicate positionCount false)
  else readPackedBits positionCount

def decodeUtf8 (bytes : List UInt8) : Result String :=
  match fromUtf8 bytes with
  | some s => pure s
  | none => fail (.decode s!"invalid UTF-8 in text column: {(utf8Error bytes).display}")

/-- One element of an `Int32Array`: null positions consume no bytes. -/
def decodeInt32Cell (ty : TSDataType) (isNull : Bool) : ReaderM Value :=
  if isNull then pure .null
  else do
    let raw ← readI32
    match ty with
    | .int32 => pure (.int32 raw)
    | .date => pure (.date raw)
    | .float => pure (.float raw.toUInt32)
    | _ => decodeError s!"Int32Array encoding with incompatible type {ty.debug}"

def decodeInt64Cell (ty : TSDataType) (isNull : Bool) : ReaderM Value :=
  if isNull then pure .null
  else do
    let raw ← readI64
    match ty with
    | .int64 => pure (.int64 raw)
    | .timestamp => pure (.timestamp raw)
    | .double => pure (.double raw.toUInt64)
    | _ => decodeError s!"Int64Array encoding with incompatible type {ty.debug}"

def decodeBinaryCell (ty : TSDataType) (isNull : Bool) : ReaderM Value :=
  if isNull then pure .null
  else do
    let len ← readI32
    if len < 0 then decodeError s!"negative binary length: {len}"
    else do
      let bytes ← readBytes len.toInt.toNat
      match ty with
      | .blob => pure (.blob bytes)
      -- BLOB columns arrive typed TEXT: a payload that is not UTF-8 stays a blob.
      | .text =>
          match fromUtf8 bytes with
          | some s => pure (.text s)
          | none => pure (.blob bytes)
      | .string => do
          let s ← decodeUtf8 bytes
          pure (.string s)
      | _ => decodeError s!"BinaryArray encoding with incompatible type {ty.debug}"

/-- Position `i` of a `ByteArray` column. -/
def booleanCell (nulls bits : List Bool) (i : Nat) : Result Value := do
  let isNull ← index nulls i
  if isNull then pure .null
  else do
    let b ← index bits i
    pure (.boolean b)

/-- `decode_column` for every encoding byte but RLE. -/
def decodeArray (encoding : UInt8) (ty : TSDataType) (positionCount : Nat) : ReaderM (List Value) :=
  if encoding = encodingByteArray then do
    let nulls ← readNullIndicators positionCount
    -- BOOLEAN values: the full bit array, not null-skipped.
    let bits ← readPackedBits positionCount
    liftM ((List.range positionCount).mapM (booleanCell nulls bits) : Result (List Value))
  else if encoding = encodingInt32Array then do
    let nulls ← readNullIndicators positionCount
    nulls.mapM (decodeInt32Cell ty)
  else if encoding = encodingInt64Array then do
    let nulls ← readNullIndicators positionCount
    nulls.mapM (decodeInt64Cell ty)
  else if encoding = encodingBinaryArray then do
    let nulls ← readNullIndicators positionCount
    nulls.mapM (decodeBinaryCell ty)
  else decodeError s!"unknown column encoding {encoding}"

/-- `decode_column`.  The recursive call of the RLE branch is made with an encoding byte other than
RLE, so it is `decodeArray`. -/
def decodeColumn (encoding : UInt8) (ty : TSDataType) (positionCount : Nat) :
    ReaderM (List Value) :=
  if encoding = encodingRle then do
    let inner ← readU8
    if inner = encodingRle then decodeError "nested RLE column encoding"
    else do
      let single ← decodeArray inner ty 1
      match single.head? with
      | some v => pure (List.replicate positionCount v)
      | none => decodeError "empty RLE inner column"
  else decodeArray encoding ty positionCount

def timestampOf (v : Value) : Result Int64 :=
  match v with
  | .int64 t => pure t
  | other => fail (.decode s!"time column contains non-INT64 value: {other.debug}")

def readColumnType : ReaderM TSDataType := do
  let code ← readU8
  match TSDataType.fromCode code with
  | some ty => pure ty
  | none => decodeError s!"unknown TSDataType code {code}"

def decodeBlock : ReaderM TsBlock := do
  let valueColumnCount ← readI32
  if valueColumnCount < 0 then decodeError s!"negative valueColumnCount: {valueColumnCount}"
  else do
    let valueColumnCount := valueColumnCount.toInt.toNat
    let columnTypes ← (List.range valueColumnCount).mapM fun _ ↦ readColumnType
    let positionCount ← readI32
    if positionCount < 0 then decodeError s!"negative positionCount: {positionCount}"
    else do
      let positionCount := positionCount.toInt.toNat
      let timeEncoding ← readU8
      let valueEncodings ← (List.range valueColumnCount).mapM fun _ ↦ readU8
      let timeColumn ← decodeColumn timeEncoding .int64 positionCount
      let timestamps ← (timeColumn.mapM timestampOf : Result (List Int64))
      let columns ← columnTypes.zipIdx.mapM fun (ty, i) ↦ do
        let encoding ← (index valueEncodings i : Result UInt8)
        decodeColumn encoding ty positionCount
      pure ⟨positionCount, columnTypes, timestamps, columns⟩

def TsBlock.decode (bytes : Slice) : Result TsBlock := do
  let (block, _) ← decodeBlock ⟨bytes, 0⟩
  pure block

end IotdbClient
