/-! Decimal numerals: digits, an optional fraction and an optional exponent. -/
namespace Wiring.Text

/-- The value of a run of digits in a base up to sixteen, none for an empty run or a foreign
character. -/
def digitValue? (base : Nat) (c : Char) : Option Nat :=
  let value? : Option Nat :=
    if '0' ≤ c ∧ c ≤ '9' then some (c.toNat - '0'.toNat)
    else if 'a' ≤ c ∧ c ≤ 'f' then some (c.toNat - 'a'.toNat + 10)
    else if 'A' ≤ c ∧ c ≤ 'F' then some (c.toNat - 'A'.toNat + 10)
    else none
  value?.filter fun value => value < base

/-- The number a run of digits stands for, after the digits that gave `value`. -/
def digitsFrom? (base value : Nat) : List Char → Option Nat
  | [] => some value
  | c :: rest => (digitValue? base c).bind fun d => digitsFrom? base (value * base + d) rest

def digits? (base : Nat) : List Char → Option Nat
  | [] => none
  | cs => digitsFrom? base 0 cs

/-- An unsigned decimal numeral, as `mantissa * 10 ^ exponent`. -/
structure Decimal where
  mantissa : Nat
  exponent : Int
  deriving DecidableEq, Repr, Inhabited

namespace Decimal

/-- The exponent after `e`, with its sign. -/
def exponentPart? : List Char → Option Int
  | '-' :: cs => (digits? 10 cs).map fun n => -(n : Int)
  | '+' :: cs => (digits? 10 cs).map Int.ofNat
  | cs => (digits? 10 cs).map Int.ofNat

/-- Reads `digits [. digits] [e exponent]`, with a digit on one side of the point at least. -/
def ofChars? (cs : List Char) : Option Decimal :=
  let whole := cs.takeWhile Char.isDigit
  let afterWhole := cs.dropWhile Char.isDigit
  let (fraction, rest) :=
    match afterWhole with
    | '.' :: afterPoint => (afterPoint.takeWhile Char.isDigit, afterPoint.dropWhile Char.isDigit)
    | _ => ([], afterWhole)
  (digits? 10 (whole ++ fraction)).bind fun mantissa =>
    match rest with
    | [] => some ⟨mantissa, -(fraction.length : Int)⟩
    | 'e' :: e => (exponentPart? e).map fun n => ⟨mantissa, n - fraction.length⟩
    | 'E' :: e => (exponentPart? e).map fun n => ⟨mantissa, n - fraction.length⟩
    | _ => none

/-- The least number that rounds past every finite number of double precision. -/
def doubleBound : Nat := Nat.pow 2 1024 - Nat.pow 2 970

/-- Whether the numeral rounds to a finite number of double precision. A positive mantissa of `k`
digits lies between `10 ^ (k - 1)` and `10 ^ k`, which settles all but a few exponents. -/
def isFiniteDouble (d : Decimal) : Bool :=
  let size : Int := d.exponent + (toString d.mantissa).length
  if d.mantissa = 0 || size < 309 then true
  else if size > 310 then false
  else match d.exponent with
    | .ofNat e => decide (d.mantissa * Nat.pow 10 e < doubleBound)
    | .negSucc e => decide (d.mantissa < doubleBound * Nat.pow 10 (e + 1))

end Decimal
end Wiring.Text
