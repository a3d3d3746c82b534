import Mathlib.Data.List.Basic

/-!
# Text functions of Rust's standard library

A text is the list of its characters.  Positions that the functions of `str` return fall between
characters, so slicing at them splits the list.
-/

namespace IotdbClient.Library

/-- `char::is_whitespace`: the Unicode property `White_Space`. -/
def isWhitespace (c : Char) : Bool :=
  c = ' ' || (0x09 ≤ c.toNat && c.toNat ≤ 0x0D) || c.toNat = 0x85 || c.toNat = 0xA0 ||
    c.toNat = 0x1680 || (0x2000 ≤ c.toNat && c.toNat ≤ 0x200A) || c.toNat = 0x2028 ||
    c.toNat = 0x2029 || c.toNat = 0x202F || c.toNat = 0x205F || c.toNat = 0x3000

/-- `str::trim`. -/
def trim (text : List Char) : List Char :=
  ((text.dropWhile isWhitespace).reverse.dropWhile isWhitespace).reverse

/-- `str::rfind`, with what is in front of the character found and what is behind it. -/
def splitAtLast (c : Char) (text : List Char) : Option (List Char × List Char) :=
  let behind := text.reverse.takeWhile (· != c)
  match text.reverse.dropWhile (· != c) with
  | [] => none
  | _ :: front => some (front.reverse, behind.reverse)

/-- `str::strip_prefix` of a character. -/
def stripPrefix (c : Char) : List Char → Option (List Char)
  | [] => none
  | first :: rest => if first = c then some rest else none

/-- `str::strip_suffix` of a character. -/
def stripSuffix (c : Char) (text : List Char) : Option (List Char) :=
  if text.getLast? = some c then some text.dropLast else none

/-- `str::parse` of an unsigned integer type with the values below `bound`: digits, with a plus sign in
front or not. -/
def parseUnsigned (bound : Nat) (text : List Char) : Option Nat :=
  let digits := (stripPrefix '+' text).getD text
  if digits.isEmpty || !digits.all Char.isDigit then none
  else
    let n := Nat.ofDigitChars 10 digits 0
    if n < bound then some n else none

/-! ## Trimming and splitting -/

variable {c : Char} {front behind text : List Char}

/-- Trimming stops at a character that is no blank. -/
theorem trim_append (hc : isWhitespace c = false)
    (hlast : ∀ d ∈ behind.getLast?, isWhitespace d = false) :
    trim (front ++ c :: behind) = front.dropWhile isWhitespace ++ c :: behind := by
  have hstart : (front ++ c :: behind).dropWhile isWhitespace =
      front.dropWhile isWhitespace ++ c :: behind := by
    rw [List.dropWhile_append]
    split
    · rename_i hempty
      rw [List.isEmpty_iff.mp hempty, List.nil_append, List.dropWhile_cons_of_neg (by simp [hc])]
    · rfl
  have hend : ∀ text : List Char, (∀ d ∈ text.getLast?, isWhitespace d = false) →
      (text.reverse.dropWhile isWhitespace).reverse = text := by
    intro text htext
    cases hreverse : text.reverse with
    | nil => simpa using hreverse.symm
    | cons d rest =>
        have hd : isWhitespace d = false := by
          apply htext d
          rw [← List.head?_reverse, hreverse]
          rfl
        rw [List.dropWhile_cons_of_neg (by simp [hd]), ← hreverse, List.reverse_reverse]
  rw [trim, hstart]
  apply hend
  intro d hd
  cases behind with
  | nil =>
      rw [List.getLast?_append] at hd
      simp at hd
      rw [← hd]
      exact hc
  | cons e behind =>
      rw [List.getLast?_append] at hd
      apply hlast d
      simpa using hd

theorem splitAtLast_append (h : c ∉ behind) :
    splitAtLast c (front ++ c :: behind) = some (front, behind) := by
  have hbehind : ∀ d ∈ behind.reverse, (d != c) = true := by
    intro d hd
    rw [bne_iff_ne]
    rintro rfl
    exact h (List.mem_reverse.mp hd)
  have hreverse : (front ++ c :: behind).reverse = behind.reverse ++ c :: front.reverse := by simp
  have hdrop : (behind.reverse ++ c :: front.reverse).dropWhile (· != c) = c :: front.reverse := by
    rw [List.dropWhile_append_of_pos hbehind, List.dropWhile_cons_of_neg (by simp)]
  have htake : (behind.reverse ++ c :: front.reverse).takeWhile (· != c) = behind.reverse := by
    rw [List.takeWhile_append_of_pos hbehind, List.takeWhile_cons_of_neg (by simp), List.append_nil]
  simp only [splitAtLast, hreverse, hdrop, htake, List.reverse_reverse]

/-! ## Numbers -/

theorem isDigit_of_toDigits {n : Nat} (h : c ∈ Nat.toDigits 10 n) : c.isDigit = true :=
  Nat.isDigit_of_mem_toDigits (by decide) (by decide) h

theorem isWhitespace_of_graphic (h : 0x21 ≤ c.toNat) (h' : c.toNat ≤ 0x7E) : isWhitespace c = false := by
  have hspace : c ≠ ' ' := by
    rintro rfl
    revert h
    decide
  simp [isWhitespace, hspace]
  omega

theorem isWhitespace_of_isDigit (h : c.isDigit = true) : isWhitespace c = false := by
  have hrange : 48 ≤ c.toNat ∧ c.toNat ≤ 57 := Char.isDigit_iff_toNat.mp h
  exact isWhitespace_of_graphic (by omega) (by omega)

/-- What is printed in decimal is parsed as the same number. -/
theorem parseUnsigned_toDigits {bound n : Nat} (h : n < bound) :
    parseUnsigned bound (Nat.toDigits 10 n) = some n := by
  have hsign : stripPrefix '+' (Nat.toDigits 10 n) = none := by
    cases hdigits : Nat.toDigits 10 n with
    | nil => rfl
    | cons d rest =>
        have hd : d.isDigit = true := isDigit_of_toDigits (by rw [hdigits]; exact List.mem_cons_self)
        have hne : d ≠ '+' := by
          rintro rfl
          revert hd
          decide
        exact if_neg hne
  have hall : (Nat.toDigits 10 n).all Char.isDigit = true :=
    List.all_eq_true.mpr fun d hd ↦ isDigit_of_toDigits hd
  have hsome : (Nat.toDigits 10 n).isEmpty = false := by
    rw [List.isEmpty_eq_false_iff]
    exact Nat.toDigits_ne_nil
  simp only [parseUnsigned, hsign, Option.getD_none, hall, hsome, Bool.not_true, Bool.or_self,
    Nat.ofDigitChars_ten_toDigits, if_pos h]
  rfl

end IotdbClient.Library
