import SchemaDelta.Text.Basic
import SchemaDelta.Text.Reader
import SchemaDelta.Toml.Basic

/-!
# Numbers, booleans and points in time

Everything that is written without quotation marks or brackets. A word is read whole and then
has to be a boolean, an integer, a number with a point or exponent, or a point in time. An
integer has to fit into 64 bits with a sign, and any other number has to be finite once it is
rounded to double precision.
-/

namespace SchemaDelta.Toml

open Reader

/-- Whether a character can stand in a word. -/
def isWordChar (c : Char) : Bool :=
  c.isAlphanum || c == '+' || c == '-' || c == '_' || c == '.' || c == ':'

/-- Takes digits among which single low lines may stand, and drops the low lines. -/
def groupedDigits (isDigit : Char → Bool) : Reader Text := do
  let run ← many1 fun c => isDigit c || c == '_'
  let groups := Text.pieces (· == '_') run
  if groups.any List.isEmpty then failure else pure groups.flatten

/-- Takes a sign, or nothing; says whether it is a minus sign. -/
def sign : Reader Bool :=
  (do char '-'; pure true) <|> (do char '+'; pure false) <|> pure false

/-- Takes a whole number in decimal digits without leading zeros. -/
def wholeNumber : Reader Text := do
  let digits ← groupedDigits Char.isDigit
  if digits.head? = some '0' ∧ digits ≠ ['0'] then failure else pure digits

/-- The value of a digit up to `f`, in either case. -/
def digitValue (c : Char) : Nat :=
  if c.isDigit then c.toNat - 48 else c.toUpper.toNat - 55

/-- The number that digits spell in a base. -/
def numberOf (base : Nat) (digits : Text) : Nat :=
  digits.foldl (fun n c => n * base + digitValue c) 0

/-- Takes an integer in a base that a prefix names. -/
def prefixedInteger : Reader Int := do
  char '0'
  let (base, isDigit) ←
    (do char 'x'; pure (16, fun c : Char => c.isDigit || ('A' ≤ c.toUpper && c.toUpper ≤ 'F')))
      <|> (do char 'o'; pure (8, fun c : Char => '0' ≤ c && c ≤ '7'))
      <|> (do char 'b'; pure (2, fun c : Char => c == '0' || c == '1'))
  let digits ← groupedDigits isDigit
  pure (numberOf base digits)

/-- Takes an integer in decimal digits. -/
def decimalInteger : Reader Int := do
  let negative ← sign
  let digits ← wholeNumber
  let n : Int := numberOf 10 digits
  pure (if negative then -n else n)

/-- The integer that a word spells, if it fits into 64 bits with a sign. -/
def integer? (word : Text) : Option Int := do
  let n ← (whole prefixedInteger word).or (whole decimalInteger word)
  if -0x8000000000000000 ≤ n ∧ n < 0x8000000000000000 then some n else none

/-- A number in decimal digits: its sign, the digits in front of the point, those behind it, and
the exponent. -/
structure DecimalNumber where
  negative : Bool
  front : Text
  behind : Text
  exponent : Int

/-- Takes an exponent with the letter in front. -/
def exponentPart : Reader Int := do
  let _ ← satisfy fun c => c == 'e' || c == 'E'
  let negative ← sign
  let digits ← groupedDigits Char.isDigit
  let n : Int := numberOf 10 digits
  pure (if negative then -n else n)

/-- Takes a number with a point, an exponent, or both. -/
def decimalNumber : Reader DecimalNumber := do
  let negative ← sign
  let front ← wholeNumber
  (do
    char '.'
    let behind ← groupedDigits Char.isDigit
    let exponent ← exponentPart <|> pure 0
    pure ⟨negative, front, behind, exponent⟩) <|> do
    let exponent ← exponentPart
    pure ⟨negative, front, [], exponent⟩

/-- The least number that is infinite once it is rounded to double precision. -/
def overflow : Nat := Nat.pow 2 1024 - Nat.pow 2 970

/-- Whether the size of a number is below `overflow`. Only a number with just as many digits in
front of its point as `overflow` has is worked out. -/
def DecimalNumber.isFinite (number : DecimalNumber) : Bool :=
  let digits := (number.front ++ number.behind).dropWhile (· == '0')
  let width : Int := digits.length - number.behind.length + number.exponent
  if digits = [] ∨ width < 309 then true
  else if width > 309 then false
  else
    numberOf 10 digits * Nat.pow 10 (309 - digits.length) <
      overflow * Nat.pow 10 (digits.length - 309)

/-- The words for what is not a number or not finite, without a sign. -/
def specialNumbers : List Text := ["inf", "nan"]

/-- Whether a word spells a number with a point or exponent, or a special one. -/
def isFloat (word : Text) : Bool :=
  (match whole decimalNumber word with
    | some number => number.negative || number.isFinite
    | none => false) ||
    (whole (do let _ ← sign; many fun _ => true) word).any specialNumbers.contains

/-- Takes just `count` digits and refuses a number outside the bounds. -/
def fixedNumber (count low high : Nat) : Reader Nat := do
  let rec digits : Nat → Reader Text
    | 0 => pure []
    | n + 1 => do
      let c ← satisfy Char.isDigit
      let rest ← digits n
      pure (c :: rest)
  let n := numberOf 10 (← digits count)
  if low ≤ n ∧ n ≤ high then pure n else failure

/-- The number of days in a month. -/
def daysIn (year month : Nat) : Nat :=
  if month = 2 then
    if year % 4 = 0 ∧ (year % 100 ≠ 0 ∨ year % 400 = 0) then 29 else 28
  else if month = 4 ∨ month = 6 ∨ month = 9 ∨ month = 11 then 30
  else 31

/-- Takes a date. -/
def date : Reader Unit := do
  let year ← fixedNumber 4 0 9999
  char '-'
  let month ← fixedNumber 2 1 12
  char '-'
  let _ ← fixedNumber 2 1 (daysIn year month)

/-- Takes a time of day. A minute may have a leap second. -/
def time : Reader Unit := do
  let _ ← fixedNumber 2 0 23
  char ':'
  let _ ← fixedNumber 2 0 59
  char ':'
  let _ ← fixedNumber 2 0 60
  maybe do char '.'; many1 Char.isDigit

/-- Takes the offset of a time from universal time. -/
def offset : Reader Unit :=
  (do let _ ← satisfy fun c => c == 'Z' || c == 'z') <|> do
    let _ ← satisfy fun c => c == '+' || c == '-'
    let _ ← fixedNumber 2 0 23
    char ':'
    let _ ← fixedNumber 2 0 59

/-- Takes a time of day with its offset, if it has one. -/
def timeWithOffset : Reader Unit := do time; maybe offset

/-- Whether a word spells a date, a time of day, or both. -/
def isDateTime (word : Text) : Bool :=
  (whole date word).isSome || (whole time word).isSome ||
    (whole (do
      date
      let _ ← satisfy fun c => c == 'T' || c == 't'
      timeWithOffset) word).isSome

/-- Takes a time of day behind one blank. -/
def spacedTime : Reader Text := do
  char ' '
  let word ← many1 isWordChar
  if (whole timeWithOffset word).isSome then pure (' ' :: word) else failure

/-- Takes a value that has neither quotation marks nor brackets. -/
def scalar : Reader Value := do
  let word ← many1 isWordChar
  if word = ("true" : Text) then pure (.boolean true)
  else if word = ("false" : Text) then pure (.boolean false)
  else if (whole date word).isSome then
    (do let rest ← spacedTime; pure (.dateTime (word ++ rest))) <|> pure (.dateTime word)
  else if isDateTime word then pure (.dateTime word)
  else if isFloat word then pure (.float word)
  else match integer? word with
    | some n => pure (.integer n)
    | none => failure

end SchemaDelta.Toml
