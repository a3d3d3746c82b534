import IotdbClient.Data.Bitmap

/-!
# The two bit conventions as mirror images

Reversing the bits of every byte turns an LSB-first string into an MSB-first one.  Under this mirror
the packing of the write side and the unpacking of the read side undo each other, up to the padding
bits of the last byte.
-/

namespace IotdbClient

open Library

/-! ## Bytes -/

/-- `u8::reverse_bits`. -/
def reverseBits (b : UInt8) : UInt8 := ⟨b.toBitVec.reverse⟩

/-- The `n` most significant bits. -/
def keepBits (n : Nat) (b : UInt8) : UInt8 := b &&& UInt8.ofNat (2 ^ 8 - 2 ^ (8 - n))

theorem reverseBits_testBit (b : UInt8) {j : Nat} (hj : j < 8) :
    (reverseBits b).toNat.testBit j = b.toNat.testBit (7 - j) := by
  change b.toBitVec.reverse.getLsbD j = b.toBitVec.getLsbD (7 - j)
  rw [BitVec.getLsbD_reverse, BitVec.getMsbD_eq_getLsbD, decide_eq_true hj, Bool.true_and]

theorem keepBits_testBit (n : Nat) (b : UInt8) {j : Nat} (hj : j < 8) :
    (keepBits n b).toNat.testBit j = (b.toNat.testBit j && decide (8 - n ≤ j)) := by
  have hmask : (UInt8.ofNat (2 ^ 8 - 2 ^ (8 - n))).toNat.testBit j = decide (8 - n ≤ j) := by
    have hle : 8 - n ≤ 8 := Nat.sub_le 8 n
    generalize 8 - n = low at hle
    interval_cases low <;> interval_cases j <;> rfl
  rw [keepBits, UInt8.toNat_and, Nat.testBit_and, hmask]

theorem byte_ext {b b' : UInt8} (h : ∀ j < 8, b.toNat.testBit j = b'.toNat.testBit j) : b = b' := by
  apply UInt8.toNat_inj.mp
  apply Nat.eq_of_testBit_eq
  intro j
  by_cases hj : j < 8
  · exact h j hj
  · -- a byte has no higher bits
    have hpow : 2 ^ 8 ≤ 2 ^ j := Nat.pow_le_pow_right (by decide) (Nat.not_lt.mp hj)
    have hb := b.toNat_lt
    have hb' := b'.toNat_lt
    rw [Nat.testBit_lt_two_pow (by omega), Nat.testBit_lt_two_pow (by omega)]

/-! ## Byte strings -/

theorem msbBit_map_reverseBits (bytes : List UInt8) (i : Nat) :
    msbBit (bytes.map reverseBits) i = lsbBit bytes i := by
  have hzero : reverseBits 0 = 0 := by decide
  have hbyte : (bytes.map reverseBits).getD (i / 8) 0 = reverseBits (bytes.getD (i / 8) 0) := by
    rw [← hzero, List.getD_map, hzero]
  have hpos : 7 - i % 8 < 8 := by omega
  rw [msbBit, lsbBit, hbyte, reverseBits_testBit _ hpos]
  congr 1
  omega

/-- Byte strings of one length that agree in every position are equal. -/
theorem bytes_ext {bytes bytes' : List UInt8} (hlength : bytes.length = bytes'.length)
    (h : ∀ i, msbBit bytes i = msbBit bytes' i) : bytes = bytes' := by
  apply List.ext_getElem hlength
  intro k hk hk'
  apply byte_ext
  intro j hj
  -- bit `j` of byte `k` is position `8 * k + (7 - j)`
  have hdiv : (8 * k + (7 - j)) / 8 = k := by omega
  have hmod : 7 - (8 * k + (7 - j)) % 8 = j := by omega
  have hbit := h (8 * k + (7 - j))
  unfold msbBit at hbit
  rwa [hdiv, hmod, List.getD_eq_getElem _ _ hk, List.getD_eq_getElem _ _ hk'] at hbit

/-- The bytes of `count` positions, with the padding behind them cleared. -/
def clearPadding (count : Nat) (bytes : List UInt8) : List UInt8 :=
  (bytes.take (divCeil8 count)).zipIdx.map fun (b, k) ↦ keepBits (count - 8 * k) b

theorem clearPadding_length {bytes : List UInt8} {count : Nat} (h : divCeil8 count ≤ bytes.length) :
    (clearPadding count bytes).length = divCeil8 count := by
  rw [clearPadding, List.length_map, List.length_zipIdx, List.length_take, Nat.min_eq_left h]

theorem clearPadding_msbBit {bytes : List UInt8} {count : Nat} (h : divCeil8 count ≤ bytes.length)
    (i : Nat) : msbBit (clearPadding count bytes) i = (msbBit bytes i && decide (i < count)) := by
  by_cases hbyte : i / 8 < divCeil8 count
  · have hget : (clearPadding count bytes).getD (i / 8) 0 =
        keepBits (count - 8 * (i / 8)) (bytes.getD (i / 8) 0) := by
      have hlt : i / 8 < (clearPadding count bytes).length := by rwa [clearPadding_length h]
      rw [List.getD_eq_getElem _ _ hlt, List.getD_eq_getElem _ _ (hbyte.trans_le h)]
      simp [clearPadding]
    have hpos : 7 - i % 8 < 8 := by omega
    rw [msbBit, hget, keepBits_testBit _ _ hpos, msbBit]
    congr 1
    rw [decide_eq_decide]
    omega
  · -- beyond the last byte
    have hlength := clearPadding_length h
    have hcount : ¬i < count := by
      unfold divCeil8 at hbyte
      omega
    rw [msbBit, List.getD_eq_default _ _ (by omega), decide_eq_false hcount, Bool.and_false]
    exact Nat.zero_testBit _

/-! ## Both directions -/

/-- What the write side packs, mirrored, is what the read side unpacks, and the other way round. -/
theorem bit_conventions_mirror :
    (∀ bits : List Bool,
      (packBitsLsbFirst bits).length = divCeil8 bits.length ∧
      (∀ k byte, (packBitsLsbFirst bits)[k]? = some byte →
        ∀ j < 8, byte.toNat.testBit j = bits.getD (8 * k + j) false) ∧
      unpackBitsMsbFirst ((packBitsLsbFirst bits).map reverseBits) bits.length = .ok (some bits)) ∧
    ∀ (bytes : List UInt8) (count : Nat),
      (unpackBitsMsbFirst bytes count = .ok none ↔ bytes.length < divCeil8 count) ∧
      (divCeil8 count ≤ bytes.length → ∃ bits, unpackBitsMsbFirst bytes count = .ok (some bits) ∧
        (packBitsLsbFirst bits).map reverseBits = clearPadding count bytes) := by
  refine ⟨fun bits ↦ ⟨packBitsLsbFirst_length bits, ?_, ?_⟩, fun bytes count ↦ ⟨?_, ?_⟩⟩
  · intro k byte hbyte j hj
    have hdiv : (8 * k + j) / 8 = k := by omega
    have hmod : (8 * k + j) % 8 = j := by omega
    have hbit := packBitsLsbFirst_lsbBit bits (8 * k + j)
    unfold lsbBit at hbit
    rwa [hdiv, hmod, List.getD_eq_getElem?_getD, hbyte, Option.getD_some] at hbit
  · have hlength : divCeil8 bits.length ≤ ((packBitsLsbFirst bits).map reverseBits).length := by
      rw [List.length_map, packBitsLsbFirst_length]
    have hbits : msbBit ((packBitsLsbFirst bits).map reverseBits) = fun i ↦ bits.getD i false := by
      funext i
      rw [msbBit_map_reverseBits, packBitsLsbFirst_lsbBit]
    rw [unpackBitsMsbFirst_of_le hlength, hbits, map_getD_range]
  · by_cases hshort : bytes.length < divCeil8 count
    · exact iff_of_true (if_pos hshort) hshort
    · rw [unpackBitsMsbFirst_of_le (Nat.not_lt.mp hshort)]
      exact iff_of_false nofun hshort
  · intro h
    refine ⟨_, unpackBitsMsbFirst_of_le h, ?_⟩
    apply bytes_ext
    · rw [List.length_map, packBitsLsbFirst_length, clearPadding_length h, List.length_map,
        List.length_range]
    · intro i
      rw [msbBit_map_reverseBits, packBitsLsbFirst_lsbBit, clearPadding_msbBit h]
      by_cases hi : i < count
      · simp [hi]
      · simp [hi]

end IotdbClient
