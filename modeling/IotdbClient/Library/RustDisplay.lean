import Mathlib.Data.Int.Log
import Mathlib.Data.Rat.Floor

/-!
# Printed texts of Rust's standard library

What `{:?}` prints for a string and for a float, and what `{}` prints for the error of
`String::from_utf8`.
-/

namespace IotdbClient.Library

/-! ## Strings -/

/-- What stands for a character in the `Debug` text of a string.  From U+0100 on every character
stands for itself: the table of the ones that do not belongs to one version of Unicode. -/
def escapeDebug (c : Char) : List Char :=
  if c.toNat = 0 then ['\\', '0']
  else if c = '\t' then ['\\', 't']
  else if c = '\r' then ['\\', 'r']
  else if c = '\n' then ['\\', 'n']
  else if c = '"' ∨ c = '\\' then ['\\', c]
  else if c.toNat < 0x20 ∨ (0x7F ≤ c.toNat ∧ c.toNat ≤ 0xA0) ∨ c.toNat = 0xAD then
    '\\' :: 'u' :: '\x7b' :: Nat.toDigits 16 c.toNat ++ ['\x7d']
  else [c]

/-- `{:?}` of a `str`. -/
def strDebug (s : String) : String := .ofList ('"' :: s.toList.flatMap escapeDebug ++ ['"'])

example : strDebug "a\t\"" = "\"a\\t\\\"\"" := by decide

/-! ## Invalid UTF-8 -/

/-- `Utf8Error`. -/
structure Utf8Error where
  validUpTo : Nat
  /-- `none`: the input ended inside a sequence. -/
  errorLen : Option Nat
deriving Repr, DecidableEq

/-- A byte that continues a sequence. -/
def isContinuation (b : UInt8) : Bool := 0x80 ≤ b && b ≤ 0xBF

/-- A byte that may follow `first`, the first byte of a sequence of three or four. -/
def followsFirst (first b : UInt8) : Bool :=
  -- No overlong forms, no surrogates and nothing above U+10FFFF.
  if first = 0xE0 then 0xA0 ≤ b && b ≤ 0xBF
  else if first = 0xED then 0x80 ≤ b && b ≤ 0x9F
  else if first = 0xF0 then 0x90 ≤ b && b ≤ 0xBF
  else if first = 0xF4 then 0x80 ≤ b && b ≤ 0x8F
  else isContinuation b

/-- The tests of the bytes behind a first byte, if one may start with it. -/
def sequenceTests (first : UInt8) : Option (List (UInt8 → Bool)) :=
  if first < 0x80 then some []
  else if first < 0xC2 then none
  else if first < 0xE0 then some [isContinuation]
  else if first < 0xF0 then some [followsFirst first, isContinuation]
  else if first < 0xF5 then some [followsFirst first, isContinuation, isContinuation]
  else none

/-- `run_utf8_validation`: a sequence starts at `start`, `len` bytes of it are read and `tests` are
those of its other bytes. -/
def utf8ErrorFrom (start len : Nat) (tests : List (UInt8 → Bool)) : List UInt8 → Utf8Error
  | [] => ⟨start, none⟩
  | b :: rest =>
      match tests with
      | [] =>
          -- the sequence is complete, and `b` starts the next one
          match sequenceTests b with
          | none => ⟨start + len, some 1⟩
          | some tests => utf8ErrorFrom (start + len) 1 tests rest
      | test :: tests =>
          if test b then utf8ErrorFrom start (len + 1) tests rest else ⟨start, some len⟩

/-- The error of `String::from_utf8` on bytes that it refuses. -/
def utf8Error (bytes : List UInt8) : Utf8Error := utf8ErrorFrom 0 0 [] bytes

/-- `{}` of a `Utf8Error`. -/
def Utf8Error.display (e : Utf8Error) : String :=
  match e.errorLen with
  | some len => s!"invalid utf-8 sequence of {len} bytes from index {e.validUpTo}"
  | none => s!"incomplete utf-8 byte sequence from index {e.validUpTo}"

example : utf8Error [0x61, 0xE2, 0x82, 0x28] = ⟨1, some 2⟩ := by decide

example : utf8Error [0x61, 0xE2, 0x82] = ⟨1, none⟩ := by decide

/-! ## Floats -/

/-- A binary floating point type: the widths of its fraction and of its exponent. -/
structure FloatFormat where
  fraction : Nat
  exponent : Nat

def f32Format : FloatFormat := ⟨23, 8⟩
def f64Format : FloatFormat := ⟨52, 11⟩

/-- `Decoded`: the number `mant * 2 ^ exp`, and how far the ends of the interval that is rounded to
it lie below and above. -/
structure Decoded where
  mant : Nat
  minus : Nat
  plus : Nat
  exp : Int
  inclusive : Bool

/-- `flt2dec::decode` of a finite number other than zero. -/
def FloatFormat.decode (format : FloatFormat) (bits : Nat) : Decoded :=
  let fraction := bits % 2 ^ format.fraction
  let exponent := bits / 2 ^ format.fraction % 2 ^ format.exponent
  let exp : Int := exponent - (2 ^ (format.exponent - 1) - 1 + format.fraction : Nat)
  let mant := fraction + 2 ^ format.fraction
  let even := fraction % 2 = 0
  -- subnormal
  if exponent = 0 then ⟨2 * fraction, 1, 1, exp, true⟩
  -- a power of two, whose neighbour below is half as far away
  else if fraction = 0 then ⟨4 * mant, 1, 2, exp - 2, even⟩
  else ⟨2 * mant, 1, 1, exp - 1, even⟩

namespace Decoded

/-- A multiple of `2 ^ exp`. -/
def scaled (d : Decoded) (n : Nat) : ℚ := n * 2 ^ d.exp

/-- Whether `x` is below `y`, or at it where the ends of the interval belong to it. -/
def before (d : Decoded) (x y : ℚ) : Bool := if d.inclusive then x ≤ y else x < y

/-- The place of the decimal point: the interval ends below `10 ^ pointPlace`. -/
def pointPlace (d : Decoded) : Int :=
  let high := d.scaled (d.mant + d.plus)
  if d.inclusive then Int.log 10 high + 1 else Int.clog 10 high

/-- The digits, from the first place at which cutting the number off or rounding it up stays in the
interval.  `unit` is the value of the last digit. -/
def shortestFrom (d : Decoded) (unit : ℚ) : Nat → Nat
  | 0 => 0
  | fuel + 1 =>
      let value := d.scaled d.mant
      let digits := (value / unit).floor.toNat
      let down := d.before (d.scaled (d.mant - d.minus)) (digits * unit)
      let up := d.before ((digits + 1) * unit) (d.scaled (d.mant + d.plus))
      if !down && !up then d.shortestFrom (unit / 10) fuel
      -- where both stay inside, the nearer one
      else if up && (!down || unit ≤ 2 * (value - digits * unit)) then digits + 1
      else digits

/-- `format_shortest`: the digits of `0.d₁d₂… * 10 ^ pointPlace`.  Seventeen are always enough. -/
def shortest (d : Decoded) : List Char :=
  Nat.toDigits 10 (d.shortestFrom (10 ^ (d.pointPlace - 1)) 17)

end Decoded

/-- `digits_to_dec_str`, with a digit at least behind the point. -/
def decimalText (digits : List Char) (point : Int) : List Char :=
  if point ≤ 0 then '0' :: '.' :: List.replicate (-point).toNat '0' ++ digits
  else if point.toNat < digits.length then
    digits.take point.toNat ++ '.' :: digits.drop point.toNat
  else digits ++ List.replicate (point.toNat - digits.length) '0' ++ ['.', '0']

/-- `digits_to_exp_str`. -/
def exponentialText (digits : List Char) (point : Int) : List Char :=
  let mantissa := digits.take 1 ++ if digits.length ≤ 1 then [] else '.' :: digits.drop 1
  mantissa ++ 'e' :: (toString (point - 1)).toList

/-- `float_to_general_debug`: numbers below `1e-4` or from `1e16` on are written with an exponent. -/
def FloatFormat.debug (format : FloatFormat) (bits : Nat) : String :=
  let magnitude := bits % 2 ^ (format.fraction + format.exponent)
  let infinity := (2 ^ format.exponent - 1) * 2 ^ format.fraction
  let sign := if bits = magnitude then "" else "-"
  if infinity < magnitude then "NaN"
  else if magnitude = infinity then sign ++ "inf"
  else if magnitude = 0 then sign ++ "0.0"
  else
    let d := format.decode magnitude
    let text := if d.pointPlace ≤ -4 ∨ 17 ≤ d.pointPlace then exponentialText else decimalText
    sign ++ .ofList (text d.shortest d.pointPlace)

/-- `{:?}` of an `f32`, on the bit pattern. -/
def f32Debug (bits : UInt32) : String := f32Format.debug bits.toNat

/-- `{:?}` of an `f64`, on the bit pattern. -/
def f64Debug (bits : UInt64) : String := f64Format.debug bits.toNat

example : f64Debug 0x3FB999999999999A = "0.1" := by decide +kernel

example : f32Debug 0x5A0E1BCA = "1e16" := by decide +kernel

end IotdbClient.Library
