import Wiring.Text.Decimal
import Wiring.Toml.Basic
/-! TOML values that stand without quotes or brackets: truth values, numbers, dates and times. -/
namespace Wiring.Toml

/-- Digits in a base with single underscores between them, without the underscores. -/
def groupedDigits? (base : Nat) : List Char → Option (List Char)
  | [] => none
  | [c] => if (Text.digitValue? base c).isSome then some [c] else none
  | c :: '_' :: rest =>
    if (Text.digitValue? base c).isSome then (groupedDigits? base rest).map (c :: ·) else none
  | c :: rest =>
    if (Text.digitValue? base c).isSome then (groupedDigits? base rest).map (c :: ·) else none

/-- Without its sign; whether the sign was a minus. -/
def unsigned : List Char → Bool × List Char
  | '-' :: rest => (true, rest)
  | '+' :: rest => (false, rest)
  | cs => (false, cs)

/-- Decimal digits without a needless zero in front. -/
def wholeDigits? (cs : List Char) : Option (List Char) :=
  match cs with
  | '0' :: _ :: _ => none
  | _ => groupedDigits? 10 cs

/-- The least number beyond 64 bits with sign. -/
def wordBound : Nat := Nat.pow 2 63

/-- Whether digits make a number of 64 bits; a negative one may be one greater. -/
def fitsWord (base : Nat) (negative : Bool) (digits : List Char) : Bool :=
  match Text.digits? base digits with
  | some n => n < wordBound || (negative && n == wordBound)
  | none => false

/-- Whether a word is an integer: decimal with or without sign, or in another base. -/
def isInteger (cs : List Char) : Bool :=
  let based (base : Nat) (digits : List Char) : Bool :=
    match groupedDigits? base digits with
    | some digits => fitsWord base false digits
    | none => false
  match cs with
  | '0' :: 'x' :: digits => based 16 digits
  | '0' :: 'o' :: digits => based 8 digits
  | '0' :: 'b' :: digits => based 2 digits
  | _ =>
    let (negative, digits) := unsigned cs
    match wholeDigits? digits with
    | some digits => fitsWord 10 negative digits
    | none => false

/-- Splits in front of the first character that satisfies `p`. -/
def splitAtFirst (p : Char → Bool) (cs : List Char) : List Char × List Char :=
  (cs.takeWhile fun c => !p c, cs.dropWhile fun c => !p c)

/-- The exponent of a float, empty or after its letter, without underscores. -/
def exponent? : List Char → Option (List Char)
  | [] => some []
  | _ :: '-' :: digits => (groupedDigits? 10 digits).map fun digits => 'e' :: '-' :: digits
  | _ :: '+' :: digits => (groupedDigits? 10 digits).map ('e' :: ·)
  | _ :: digits => (groupedDigits? 10 digits).map ('e' :: ·)

/-- The fraction of a float, empty or after its point, without underscores. -/
def fraction? : List Char → Option (List Char)
  | [] => some []
  | _ :: digits => (groupedDigits? 10 digits).map ('.' :: ·)

/-- Whether a word is a float. One that rounds past every finite number is refused when positive. -/
def isFloat (cs : List Char) : Bool :=
  let (negative, body) := unsigned cs
  if body == "inf".toList || body == "nan".toList then true
  else
    let (mantissa, exponent) := splitAtFirst (fun c => c == 'e' || c == 'E') body
    let (whole, fraction) := splitAtFirst (· == '.') mantissa
    match wholeDigits? whole, fraction? fraction, exponent? exponent with
    | some whole, some fraction, some exponent =>
      !(fraction.isEmpty && exponent.isEmpty) &&
        match Text.Decimal.ofChars? (whole ++ fraction ++ exponent) with
        | some d => negative || d.isFiniteDouble
        | none => false
    | _, _, _ => false

/-- A number of exactly `width` digits and what follows it. -/
def fixedDigits? (width : Nat) (cs : List Char) : Option (Nat × List Char) :=
  let digits := cs.take width
  if digits.length == width && digits.all Char.isDigit then
    (Text.digits? 10 digits).map fun n => (n, cs.drop width)
  else none

def isLeapYear (year : Nat) : Bool := year % 4 == 0 && (year % 100 != 0 || year % 400 == 0)

def daysInMonth (year month : Nat) : Nat :=
  if month == 2 then (if isLeapYear year then 29 else 28)
  else if month == 4 || month == 6 || month == 9 || month == 11 then 30
  else 31

/-- What follows a character that must come next. -/
def after? (c : Char) : List Char → Option (List Char)
  | d :: rest => if d = c then some rest else none
  | [] => none

/-- What follows a date, `year-month-day`. -/
def date? (cs : List Char) : Option (List Char) := do
  let (year, rest) ← fixedDigits? 4 cs
  let (month, rest) ← fixedDigits? 2 (← after? '-' rest)
  let (day, rest) ← fixedDigits? 2 (← after? '-' rest)
  if 1 ≤ month && month ≤ 12 && 1 ≤ day && day ≤ daysInMonth year month then some rest else none

/-- What follows the fraction of a second, if there is one. -/
def secondFraction? : List Char → Option (List Char)
  | '.' :: rest =>
    if (rest.takeWhile Char.isDigit).isEmpty then none else some (rest.dropWhile Char.isDigit)
  | rest => some rest

/-- What follows a time, `hour:minute:second`, the second with or without fraction. -/
def time? (cs : List Char) : Option (List Char) := do
  let (hour, rest) ← fixedDigits? 2 cs
  let (minute, rest) ← fixedDigits? 2 (← after? ':' rest)
  let (second, rest) ← fixedDigits? 2 (← after? ':' rest)
  if hour ≤ 23 && minute ≤ 59 && second ≤ 60 then secondFraction? rest else none

/-- Whether a text is empty or an offset from universal time. -/
def isOffset (cs : List Char) : Bool :=
  let numeric (rest : List Char) : Bool :=
    match fixedDigits? 2 rest with
    | some (hour, ':' :: rest) =>
      match fixedDigits? 2 rest with
      | some (minute, []) => hour ≤ 23 && minute ≤ 59
      | _ => false
    | _ => false
  match cs with
  | [] | ['Z'] | ['z'] => true
  | '+' :: rest => numeric rest
  | '-' :: rest => numeric rest
  | _ => false

/-- Whether a text is a time, with or without offset. -/
def isZonedTime (cs : List Char) : Bool :=
  match time? cs with
  | some rest => isOffset rest
  | none => false

/-- Whether a word is a date, a time, or both joined by a letter. -/
def isMoment (cs : List Char) : Bool :=
  match date? cs with
  | some [] => true
  | some ('T' :: rest) => isZonedTime rest
  | some ('t' :: rest) => isZonedTime rest
  | some _ => false
  | none =>
    match time? cs with
    | some rest => rest.isEmpty
    | none => false

/-- A character of which such words are made. -/
def isWordChar (c : Char) : Bool :=
  c.isAlphanum || c == '_' || c == '+' || c == '-' || c == '.' || c == ':'

/-- The value of a word. -/
def ofWord? (cs : List Char) : Option Toml :=
  let written := String.ofList cs
  if written == "true" then some (.flag true)
  else if written == "false" then some (.flag false)
  else if isInteger cs || isFloat cs then some (.number written)
  else if isMoment cs then some (.moment written)
  else none

/-- The value of the word at the start of a text. A date may be followed by a blank and a time. -/
def bare? (cs : List Char) : Option (Toml × List Char) :=
  let word := cs.takeWhile isWordChar
  let rest := cs.dropWhile isWordChar
  let next := (rest.drop 1).takeWhile isWordChar
  if rest.head? == some ' ' && date? word == some [] && !next.isEmpty then
    if isZonedTime next then
      some (.moment (String.ofList (word ++ ' ' :: next)), (rest.drop 1).dropWhile isWordChar)
    else none
  else (ofWord? word).map fun value => (value, rest)

end Wiring.Toml
