import Mathlib

/-!
# Big-endian byte strings

Fixed-width big-endian encodings of natural numbers.  The width is explicit and the high part of
the number is dropped, as a machine `to_be_bytes` does.
-/

namespace IotdbClient.Library

/-- The `width` big-endian bytes of `n`; everything above `256 ^ width` is dropped. -/
def beBytes : Nat → Nat → List UInt8
  | 0, _ => []
  | width + 1, n => UInt8.ofNat (n / 256 ^ width) :: beBytes width n

/-- The number a big-endian byte string denotes. -/
def beNat (bytes : List UInt8) : Nat :=
  bytes.foldl (fun acc b ↦ acc * 256 + b.toNat) 0

@[simp] theorem beBytes_length (width n : Nat) : (beBytes width n).length = width := by
  induction width with
  | zero => rfl
  | succ width ih => rw [beBytes, List.length_cons, ih]

theorem beNat_foldl (bytes : List UInt8) (acc : Nat) :
    bytes.foldl (fun acc b ↦ acc * 256 + b.toNat) acc =
      acc * 256 ^ bytes.length + beNat bytes := by
  unfold beNat
  induction bytes generalizing acc with
  | nil => simp
  | cons b bs ih =>
      rw [List.foldl_cons, ih, List.foldl_cons, ih (0 * 256 + b.toNat), List.length_cons, pow_succ]
      ring

theorem beNat_cons (b : UInt8) (bs : List UInt8) :
    beNat (b :: bs) = b.toNat * 256 ^ bs.length + beNat bs := by
  change bs.foldl (fun acc b ↦ acc * 256 + b.toNat) (0 * 256 + b.toNat) = _
  rw [beNat_foldl, Nat.zero_mul, Nat.zero_add]

/-- Decoding the bytes of `n` gives `n` back up to the width. -/
theorem beNat_beBytes (width n : Nat) : beNat (beBytes width n) = n % 256 ^ width := by
  induction width with
  | zero => simp [beBytes, beNat, Nat.mod_one]
  | succ width ih =>
      have hbyte : (UInt8.ofNat (n / 256 ^ width)).toNat = n / 256 ^ width % 256 := by simp
      rw [beBytes, beNat_cons, beBytes_length, ih, hbyte, pow_succ, Nat.mod_mul, Nat.add_comm,
        Nat.mul_comm (256 ^ width)]

theorem beNat_beBytes_of_lt {width n : Nat} (h : n < 256 ^ width) :
    beNat (beBytes width n) = n := by
  rw [beNat_beBytes, Nat.mod_eq_of_lt h]

end IotdbClient.Library
