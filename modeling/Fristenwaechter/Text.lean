import Mathlib.Data.List.Basic
import Mathlib.Data.List.Sort
import Mathlib.Algebra.Order.Ring.Int
import Mathlib.Algebra.Order.Ring.Nat

/-!
Owns text: Python's `str` as a list of Unicode code points, decimal and padded
numbers as the f-strings of the source print them, `str.strip`, `int(text)` and UUIDs
with their 36-character form.

The tables of white space and decimal digits are those of Unicode 14.
-/

namespace Fristenwaechter

/-- A Python `str`. -/
abbrev Str := List Char

/-- `str(n)` of a non-negative integer. -/
def decimal (n : Nat) : Str :=
  Nat.toDigits 10 n

/-- `str(n)`. -/
def decimalInt (n : Int) : Str :=
  if n < 0 then '-' :: decimal n.natAbs else decimal n.natAbs

/-- The last `width` digits of `n` in a base of at most sixteen, most significant
first. -/
def digits (base : Nat) : (width : Nat) → Nat → Str
  | 0, _ => []
  | width + 1, n => digits base width (n / base) ++ [Nat.digitChar (n % base)]

@[simp] theorem digits_length (base width n : Nat) : (digits base width n).length = width := by
  induction width generalizing n with
  | zero => rfl
  | succ width inductionHypothesis => simp [digits, inductionHypothesis]

/-- `f"{n:02d}"` for the two-digit numbers of a calendar date or week. -/
def twoDigits (n : Nat) : Str :=
  digits 10 2 n

/-- `str.isspace` of one character. -/
def isSpace (c : Char) : Bool :=
  (9 ≤ c.toNat ∧ c.toNat ≤ 13) ∨ (28 ≤ c.toNat ∧ c.toNat ≤ 32) ∨
    (0x2000 ≤ c.toNat ∧ c.toNat ≤ 0x200A) ∨
    c.toNat ∈ [0x85, 0xA0, 0x1680, 0x2028, 0x2029, 0x202F, 0x205F, 0x3000]

/-- `text.strip()`. -/
def strip (text : Str) : Str :=
  ((text.dropWhile isSpace).reverse.dropWhile isSpace).reverse

/-- The digit zero of every script that has decimal digits. -/
def decimalZeros : List Nat :=
  [0x30, 0x660, 0x6F0, 0x7C0, 0x966, 0x9E6, 0xA66, 0xAE6, 0xB66, 0xBE6, 0xC66, 0xCE6, 0xD66,
    0xDE6, 0xE50, 0xED0, 0xF20, 0x1040, 0x1090, 0x17E0, 0x1810, 0x1946, 0x19D0, 0x1A80, 0x1A90,
    0x1B50, 0x1BB0, 0x1C40, 0x1C50, 0xA620, 0xA8D0, 0xA900, 0xA9D0, 0xA9F0, 0xAA50, 0xABF0,
    0xFF10, 0x104A0, 0x10D30, 0x11066, 0x110F0, 0x11136, 0x111D0, 0x112F0, 0x11450, 0x114D0,
    0x11650, 0x116C0, 0x11730, 0x118E0, 0x11950, 0x11C50, 0x11D50, 0x11DA0, 0x16A60, 0x16AC0,
    0x16B50, 0x1D7CE, 0x1D7D8, 0x1D7E2, 0x1D7EC, 0x1D7F6, 0x1E140, 0x1E2F0, 0x1E950, 0x1FBF0]

/-- `unicodedata.decimal`. -/
def decimalValue (c : Char) : Option Nat :=
  (decimalZeros.find? fun start => start ≤ c.toNat ∧ c.toNat < start + 10).map fun start =>
    c.toNat - start

/-- The value of digits with single underscores between them. -/
def parseDecimal (value : Nat) : Str → Option Nat
  | [] => none
  | [c] => (decimalValue c).map (value * 10 + ·)
  | c :: '_' :: rest => do parseDecimal (value * 10 + (← decimalValue c)) rest
  | c :: rest => do parseDecimal (value * 10 + (← decimalValue c)) rest

/-- `int(text)`, `none` where it raises `ValueError`, also for more than 4300 digits. -/
def parseInt (text : Str) : Option Int := do
  let bare := strip text
  guard ((bare.filter fun c => (decimalValue c).isSome).length ≤ 4300)
  match bare with
  | '+' :: rest => return (← parseDecimal 0 rest : Nat)
  | '-' :: rest => return -(← parseDecimal 0 rest : Nat)
  | rest => return (← parseDecimal 0 rest : Nat)

example : parseInt " -1_2 ".toList = some (-12) := by decide

/-- `uuid.UUID`. -/
structure Uuid where
  bits : BitVec 128
deriving DecidableEq

/-- `str(uuid)`: 8-4-4-4-12 hexadecimal digits. -/
def Uuid.text (id : Uuid) : Str :=
  digits 16 8 (id.bits.toNat / 16 ^ 24) ++ '-' ::
    (digits 16 4 (id.bits.toNat / 16 ^ 20) ++ '-' ::
      (digits 16 4 (id.bits.toNat / 16 ^ 16) ++ '-' ::
        (digits 16 4 (id.bits.toNat / 16 ^ 12) ++ '-' :: digits 16 12 id.bits.toNat)))

@[simp] theorem Uuid.text_length (id : Uuid) : id.text.length = 36 := by
  simp [Uuid.text]

example : (Uuid.mk 0x12#128).text = "00000000-0000-0000-0000-000000000012".toList := by
  decide

/-- Python's order of strings: by code point, a proper prefix first. -/
def strLe : Str → Str → Bool
  | [], _ => true
  | _ :: _, [] => false
  | first :: firsts, second :: seconds =>
      first.val < second.val || (first == second && strLe firsts seconds)

end Fristenwaechter
