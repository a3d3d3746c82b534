import IotdbClient.Library.Outcome

/-!
# Byte images of Rust's scalar types

`i32` and `i64` are Lean's `Int32` and `Int64`; `f32` and `f64` are their bit patterns, so that
equality of floats below is equality of bits.  Rust strings are Lean strings, which carry the same
UTF-8 validity invariant.
-/

namespace IotdbClient.Library

/-- `i32::to_be_bytes`. -/
def i32ToBeBytes (v : Int32) : List UInt8 := beBytes 4 v.toBitVec.toNat

/-- `i64::to_be_bytes`. -/
def i64ToBeBytes (v : Int64) : List UInt8 := beBytes 8 v.toBitVec.toNat

/-- `f32::to_be_bytes`, on the bit pattern. -/
def f32ToBeBytes (bits : UInt32) : List UInt8 := beBytes 4 bits.toNat

/-- `f64::to_be_bytes`, on the bit pattern. -/
def f64ToBeBytes (bits : UInt64) : List UInt8 := beBytes 8 bits.toNat

/-- `i32::from_be_bytes`. -/
def i32FromBeBytes (bytes : List UInt8) : Int32 := .ofBitVec (.ofNat 32 (beNat bytes))

/-- `i64::from_be_bytes`. -/
def i64FromBeBytes (bytes : List UInt8) : Int64 := .ofBitVec (.ofNat 64 (beNat bytes))

/-- `n as i32` for a `usize`: the low 32 bits, read in two's complement. -/
def usizeAsI32 (n : Nat) : Int32 := .ofBitVec (.ofNat 32 n)

/-- `String::as_bytes`. -/
def asBytes (s : String) : List UInt8 := s.toByteArray.data.toList

/-- `String::from_utf8`. -/
def fromUtf8 (bytes : List UInt8) : Option String := String.fromUTF8? ⟨bytes.toArray⟩

@[simp] theorem i32ToBeBytes_length (v : Int32) : (i32ToBeBytes v).length = 4 := beBytes_length ..
@[simp] theorem i64ToBeBytes_length (v : Int64) : (i64ToBeBytes v).length = 8 := beBytes_length ..
@[simp] theorem f32ToBeBytes_length (v : UInt32) : (f32ToBeBytes v).length = 4 := beBytes_length ..
@[simp] theorem f64ToBeBytes_length (v : UInt64) : (f64ToBeBytes v).length = 8 := beBytes_length ..

@[simp] theorem i32FromBeBytes_toBeBytes (v : Int32) : i32FromBeBytes (i32ToBeBytes v) = v := by
  rw [i32FromBeBytes, i32ToBeBytes, beNat_beBytes_of_lt (by have h := v.toBitVec.isLt; omega),
    BitVec.ofNat_toNat, BitVec.setWidth_eq, Int32.ofBitVec_toBitVec]

@[simp] theorem i64FromBeBytes_toBeBytes (v : Int64) : i64FromBeBytes (i64ToBeBytes v) = v := by
  rw [i64FromBeBytes, i64ToBeBytes, beNat_beBytes_of_lt (by have h := v.toBitVec.isLt; omega),
    BitVec.ofNat_toNat, BitVec.setWidth_eq, Int64.ofBitVec_toBitVec]

/-- Reading the bytes of a float as an `i32` and reinterpreting the word gives its bits back. -/
@[simp] theorem i32FromBeBytes_f32ToBeBytes (bits : UInt32) :
    (i32FromBeBytes (f32ToBeBytes bits)).toUInt32 = bits := by
  rw [i32FromBeBytes, f32ToBeBytes, beNat_beBytes_of_lt (by have h := bits.toNat_lt; omega)]
  apply UInt32.toBitVec_inj.mp
  apply BitVec.eq_of_toNat_eq
  simp

@[simp] theorem i64FromBeBytes_f64ToBeBytes (bits : UInt64) :
    (i64FromBeBytes (f64ToBeBytes bits)).toUInt64 = bits := by
  rw [i64FromBeBytes, f64ToBeBytes, beNat_beBytes_of_lt (by have h := bits.toNat_lt; omega)]
  apply UInt64.toBitVec_inj.mp
  apply BitVec.eq_of_toNat_eq
  simp

/-- The cast is exact below `2 ^ 31`. -/
theorem usizeAsI32_toInt {n : Nat} (h : n < 2 ^ 31) : (usizeAsI32 n).toInt = n := by
  rw [usizeAsI32, Int32.toInt_ofBitVec, BitVec.toInt_eq_toNat_of_lt (by simp; omega)]
  simp
  omega

theorem usizeAsI32_nonneg {n : Nat} (h : n < 2 ^ 31) : ¬usizeAsI32 n < 0 := by
  rw [Int32.lt_iff_toInt_lt, usizeAsI32_toInt h]
  simp

theorem usizeAsI32_toNat {n : Nat} (h : n < 2 ^ 31) : (usizeAsI32 n).toInt.toNat = n := by
  rw [usizeAsI32_toInt h, Int.toNat_natCast]

@[simp] theorem fromUtf8_asBytes (s : String) : fromUtf8 (asBytes s) = some s := by
  have harray : (⟨(asBytes s).toArray⟩ : ByteArray) = s.toByteArray := by
    apply ByteArray.ext
    rw [asBytes, Array.toArray_toList]
  rw [fromUtf8, harray, String.fromUTF8?, dif_pos s.isValidUTF8]
  rfl

theorem asBytes_of_fromUtf8 {bytes : List UInt8} {s : String} (h : fromUtf8 bytes = some s) :
    asBytes s = bytes := by
  unfold fromUtf8 String.fromUTF8? at h
  split at h
  · cases h
    rfl
  · cases h

end IotdbClient.Library
