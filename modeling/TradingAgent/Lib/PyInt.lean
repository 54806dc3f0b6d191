/-
Python's `int` on a string: surrounding white space, one sign, and decimal digits of any script with
single underscores between them; at most 4300 digits. Anything else is a `ValueError`.
-/
import Mathlib.Data.Nat.Notation
import Mathlib.Data.Int.Notation

namespace PyInt

/-- The code points of the digit zero, one for each block of decimal digits. -/
def zeros : List ℕ :=
  [0x30, 0x660, 0x6f0, 0x7c0, 0x966, 0x9e6, 0xa66, 0xae6, 0xb66, 0xbe6, 0xc66, 0xce6, 0xd66, 0xde6, 0xe50,
   0xed0, 0xf20, 0x1040, 0x1090, 0x17e0, 0x1810, 0x1946, 0x19d0, 0x1a80, 0x1a90, 0x1b50, 0x1bb0, 0x1c40,
   0x1c50, 0xa620, 0xa8d0, 0xa900, 0xa9d0, 0xa9f0, 0xaa50, 0xabf0, 0xff10, 0x104a0, 0x10d30, 0x11066,
   0x110f0, 0x11136, 0x111d0, 0x112f0, 0x11450, 0x114d0, 0x11650, 0x116c0, 0x11730, 0x118e0, 0x11950,
   0x11c50, 0x11d50, 0x11da0, 0x11f50, 0x16a60, 0x16ac0, 0x16b50, 0x1d7ce, 0x1d7d8, 0x1d7e2, 0x1d7ec,
   0x1d7f6, 0x1e140, 0x1e2f0, 0x1e4f0, 0x1e950, 0x1fbf0]

/-- The value of a decimal digit. -/
def digit? (c : Char) : Option ℕ :=
  (zeros.find? (fun z => z ≤ c.toNat && c.toNat < z + 10)).map (c.toNat - ·)

def isSpace (c : Char) : Bool :=
  (0x9 ≤ c.toNat && c.toNat ≤ 0xd) || (0x2000 ≤ c.toNat && c.toNat ≤ 0x200a) ||
  [0x20, 0x85, 0xa0, 0x1680, 0x2028, 0x2029, 0x202f, 0x205f, 0x3000].contains c.toNat

def strip (cs : List Char) : List Char :=
  ((cs.dropWhile isSpace).reverse.dropWhile isSpace).reverse

/-- Continue a number with further digits. -/
def moreDigits (n : ℕ) : List Char → Option ℕ
  | [] => some n
  | '_' :: c :: cs => (digit? c).bind (fun d => moreDigits (10 * n + d) cs)
  | c :: cs => (digit? c).bind (fun d => moreDigits (10 * n + d) cs)

def maxStrDigits : ℕ := 4300

/-- A number without a sign. -/
def unsigned (cs : List Char) : Option ℕ :=
  if (cs.filter (· ≠ '_')).length > maxStrDigits then none
  else match cs with
    | [] => none
    | c :: cs => (digit? c).bind (fun d => moreDigits d cs)

/-- `int(s)`; `none` is a `ValueError`. -/
def parse? (s : List Char) : Option ℤ :=
  match strip s with
  | '+' :: cs => (unsigned cs).map Int.ofNat
  | '-' :: cs => (unsigned cs).map (fun n => -Int.ofNat n)
  | cs => (unsigned cs).map Int.ofNat

example : parse? " +1_0 ".toList = some 10 := by decide +kernel

example : parse? "1__0".toList = none := by decide +kernel

end PyInt
