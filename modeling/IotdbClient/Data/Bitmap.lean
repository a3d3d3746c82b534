import IotdbClient.Data.Value

/-!
# The two bit conventions

Tablet null bitmaps are packed LSB-first, TsBlock null indicators and BOOLEAN arrays are unpacked
MSB-first.  Each direction is described by one positional fact: which bit of which byte holds
position `i`.
-/

namespace IotdbClient

open Library

/-- `usize::div_ceil(8)`. -/
def divCeil8 (n : Nat) : Nat := (n + 7) / 8

/-- The loop body of `pack_bits_lsb_first`: `if b { out[i >> 3] |= 1 << (i & 7) }`. -/
def packBit (out : List UInt8) (bit : Bool × Nat) : List UInt8 :=
  if bit.1 then out.modify (bit.2 >>> 3) (· ||| (1 <<< UInt8.ofNat (bit.2 &&& 7))) else out

def packBitsLsbFirst (bits : List Bool) : List UInt8 :=
  bits.zipIdx.foldl packBit (List.replicate (divCeil8 bits.length) 0)

/-- The outer `Option` is the source's, the panic that of `bytes[i >> 3]`. -/
def unpackBitsMsbFirst (bytes : List UInt8) (count : Nat) : Result (Option (List Bool)) :=
  if bytes.length < divCeil8 count then pure none
  else do
    let bits ← (List.range count).mapM fun i ↦ do
      let byte ← index bytes (i >>> 3)
      pure (byte &&& (0x80 >>> UInt8.ofNat (i &&& 7)) != 0)
    pure (some bits)

/-- Position `i` of an LSB-first bit string. -/
def lsbBit (bytes : List UInt8) (i : Nat) : Bool :=
  (bytes.getD (i / 8) 0).toNat.testBit (i % 8)

/-- Position `i` of an MSB-first bit string. -/
def msbBit (bytes : List UInt8) (i : Nat) : Bool :=
  (bytes.getD (i / 8) 0).toNat.testBit (7 - i % 8)

theorem shiftRight_three (i : Nat) : i >>> 3 = i / 8 := Nat.shiftRight_eq_div_pow i 3

theorem land_seven (i : Nat) : i &&& 7 = i % 8 := Nat.and_two_pow_sub_one_eq_mod i 3

theorem getD_replicate_self {α : Type} (n i : Nat) (a : α) : (List.replicate n a).getD i a = a := by
  rw [List.getD_eq_getElem?_getD, List.getElem?_replicate]
  split <;> rfl

/-! ## Packing -/

theorem orBit_testBit (b : UInt8) (m j : Nat) (hm : m < 8) :
    (b ||| (1 <<< UInt8.ofNat m)).toNat.testBit j = (b.toNat.testBit j || decide (m = j)) := by
  have hmask : ((1 : UInt8) <<< UInt8.ofNat m).toNat = 2 ^ m := by
    interval_cases m <;> rfl
  rw [UInt8.toNat_or, hmask, Nat.testBit_or, Nat.testBit_two_pow]

@[simp] theorem packBit_length (out : List UInt8) (bit : Bool × Nat) :
    (packBit out bit).length = out.length := by
  unfold packBit
  split <;> simp

theorem packBit_lsbBit (out : List UInt8) (b : Bool) (i j : Nat) (hi : i / 8 < out.length) :
    lsbBit (packBit out (b, i)) j = (lsbBit out j || (b && decide (i = j))) := by
  cases b
  · simp [packBit]
  · simp only [packBit, if_true, Bool.true_and]
    rw [shiftRight_three, land_seven]
    unfold lsbBit
    rw [List.getD_eq_getElem?_getD, List.getElem?_modify, List.getD_eq_getElem?_getD]
    by_cases hbyte : i / 8 = j / 8
    · have hpos : i % 8 = j % 8 ↔ i = j := by omega
      rw [← hbyte, List.getElem?_eq_getElem hi]
      simp only [if_true, Option.map_eq_map, Option.map_some, Option.getD_some]
      rw [orBit_testBit _ _ _ (Nat.mod_lt i (by decide))]
      simp only [hpos]
    · have hne : i ≠ j := by rintro rfl; exact hbyte rfl
      simp [hbyte, hne]

theorem packFold_length (bits : List (Bool × Nat)) (out : List UInt8) :
    (bits.foldl packBit out).length = out.length := by
  induction bits generalizing out with
  | nil => rfl
  | cons b bs ih => rw [List.foldl_cons, ih, packBit_length]

-- The loop invariant: after the turns of the positions from `k` on, a position holds what it held
-- before or what its own turn has set.
theorem packFold_lsbBit (bits : List Bool) (k j : Nat) (out : List UInt8)
    (hfit : ∀ i, i < k + bits.length → i / 8 < out.length) :
    lsbBit ((bits.zipIdx k).foldl packBit out) j =
      (lsbBit out j || (decide (k ≤ j) && bits.getD (j - k) false)) := by
  induction bits generalizing k out with
  | nil => simp
  | cons b bs ih =>
      rw [List.length_cons] at hfit
      have hnext : ∀ i, i < k + 1 + bs.length → i / 8 < (packBit out (b, k)).length := by
        intro i hi
        rw [packBit_length]
        exact hfit i (by omega)
      rw [List.zipIdx_cons, List.foldl_cons, ih (k + 1) (packBit out (b, k)) hnext,
        packBit_lsbBit out b k j (hfit k (by omega)), Bool.or_assoc]
      congr 1
      by_cases hlt : j < k
      · simp [show ¬k = j by omega, show ¬k + 1 ≤ j by omega, show ¬k ≤ j by omega]
      · by_cases heq : k = j
        · subst heq
          simp
        · rw [show j - k = (j - (k + 1)) + 1 by omega, List.getD_cons_succ]
          simp [heq, show k ≤ j by omega, show k + 1 ≤ j by omega]

theorem packBitsLsbFirst_length (bits : List Bool) :
    (packBitsLsbFirst bits).length = divCeil8 bits.length := by
  rw [packBitsLsbFirst, packFold_length, List.length_replicate]

/-- Position `i` of the packed string is `bits[i]`; every write index of the loop is in range, and
the padding positions stay clear. -/
theorem packBitsLsbFirst_lsbBit (bits : List Bool) (i : Nat) :
    lsbBit (packBitsLsbFirst bits) i = bits.getD i false := by
  have hzero : lsbBit (List.replicate (divCeil8 bits.length) 0) i = false := by
    unfold lsbBit
    rw [getD_replicate_self]
    exact Nat.zero_testBit _
  rw [packBitsLsbFirst, packFold_lsbBit, hzero]
  · simp
  · intro j hj
    rw [List.length_replicate]
    unfold divCeil8
    omega

/-! ## Unpacking -/

theorem andBit_ne_zero (b : UInt8) (m : Nat) (hm : m < 8) :
    (b &&& (0x80 >>> UInt8.ofNat m) != 0) = b.toNat.testBit (7 - m) := by
  have hmask : ((0x80 : UInt8) >>> UInt8.ofNat m).toNat = 2 ^ (7 - m) := by
    interval_cases m <;> rfl
  rw [bne, Bool.eq_iff_iff, Bool.not_eq_true', beq_eq_false_iff_ne, ne_eq,
    ← UInt8.toNat_inj, UInt8.toNat_and, hmask, Nat.and_two_pow]
  cases hbit : b.toNat.testBit (7 - m)
  · simp
  · simp

theorem unpackBits_bit {bytes : List UInt8} {i : Nat} (hi : i / 8 < bytes.length) :
    (do
      let byte ← index bytes (i >>> 3)
      pure (byte &&& (0x80 >>> UInt8.ofNat (i &&& 7)) != 0) : Result Bool) =
      .ok (msbBit bytes i) := by
  rw [shiftRight_three, land_seven, index_of_lt hi]
  change Except.ok _ = Except.ok _
  rw [andBit_ne_zero _ _ (Nat.mod_lt i (by decide)), msbBit, List.getD_eq_getElem _ _ hi]

/-- With enough bytes every index is in range and the result lists the positions in order. -/
theorem unpackBitsMsbFirst_of_le {bytes : List UInt8} {count : Nat}
    (h : divCeil8 count ≤ bytes.length) :
    unpackBitsMsbFirst bytes count = .ok (some ((List.range count).map (msbBit bytes))) := by
  unfold unpackBitsMsbFirst
  rw [if_neg (by omega), mapM_ok (g := msbBit bytes)]
  · rfl
  · intro i hi
    apply unpackBits_bit
    rw [List.mem_range] at hi
    unfold divCeil8 at h
    omega

end IotdbClient
