/-
Python's `Decimal` on a string: surrounding white space and all underscores go, then one sign, decimal
digits of any script with at most one point, and an optional exponent; or an infinity or a NaN by name.
Anything else is an `InvalidOperation`.
-/
import TradingAgent.Lib.PyInt
import Mathlib.Data.Rat.Defs

namespace PyDecimal

/-- What a text denotes: a number, or one of the special values. -/
inductive Value
  | finite (q : ℚ)
  | special
  deriving DecidableEq

/-- The white space that `str.strip` removes: besides that of `int`, the four separators of ASCII. -/
def isSpace (c : Char) : Bool := PyInt.isSpace c || (0x1c ≤ c.toNat && c.toNat ≤ 0x1f)

def strip (cs : List Char) : List Char :=
  ((cs.dropWhile isSpace).reverse.dropWhile isSpace).reverse

/-- The decimal digits at the front, and what follows them. -/
def spanDigits : List Char → List ℕ × List Char
  | [] => ([], [])
  | c :: cs =>
    match PyInt.digit? c with
    | none => ([], c :: cs)
    | some d => (d :: (spanDigits cs).1, (spanDigits cs).2)

def ofDigits (ds : List ℕ) : ℕ := ds.foldl (fun n d => 10 * n + d) 0

/-- The digits after a point, and what follows them. -/
def fraction : List Char → List ℕ × List Char
  | '.' :: cs => spanDigits cs
  | cs => ([], cs)

/-- An exponent up to the end of the text; a missing one is zero. -/
def exponent : List Char → Option ℤ
  | [] => some 0
  | e :: cs =>
    if e ≠ 'e' ∧ e ≠ 'E' then none
    else
      let (negative, cs) := match cs with
        | '-' :: cs => (true, cs)
        | '+' :: cs => (false, cs)
        | cs => (false, cs)
      match spanDigits cs with
      | ([], _) => none
      | (ds, []) => some (if negative then -(ofDigits ds : ℤ) else ofDigits ds)
      | (_, _ :: _) => none

/-- A number without a sign. -/
def unsigned (cs : List Char) : Option ℚ :=
  let (whole, rest) := spanDigits cs
  let (frac, rest) := fraction rest
  if whole = [] ∧ frac = [] then none
  else (exponent rest).map (fun e => (ofDigits (whole ++ frac) : ℚ) * 10 ^ (e - (frac.length : ℤ)))

/-- The names of the infinities and of the NaNs, the latter with an optional number. -/
def isSpecial (cs : List Char) : Bool :=
  let name := String.ofList (cs.map Char.toLower)
  let nanRest := fun n => (cs.drop n).all (fun c => (PyInt.digit? c).isSome)
  name = "inf" || name = "infinity" ||
    (name.startsWith "nan" && nanRest 3) || (name.startsWith "snan" && nanRest 4)

/-- `Decimal(s)`; `none` is an `InvalidOperation`. -/
def parse? (s : List Char) : Option Value :=
  let cs := (strip s).filter (· ≠ '_')
  let (negative, cs) := match cs with
    | '-' :: cs => (true, cs)
    | '+' :: cs => (false, cs)
    | cs => (false, cs)
  if isSpecial cs then some .special
  else (unsigned cs).map (fun q => .finite (if negative then -q else q))

example : parse? " -1_0.25e1 ".toList = some (.finite (-205 / 2)) := by decide +kernel

example : parse? "1.2.3".toList = none := by decide +kernel

end PyDecimal
