import Mathlib.Data.Rat.Floor
import Mathlib.Data.Int.Log

namespace Corsair

-- An f64 as it stands on the wire: an exact rational on the double grid, or one
-- of the special values. Only casts and comparisons are taken on this type; the
-- books compute in exact arithmetic on ℚ.
inductive F64 where
  | finite (value : ℚ)
  | infinite (negative : Bool)
  | nan
  deriving DecidableEq, Repr

instance : Inhabited F64 := ⟨.finite 0⟩

-- Round to the nearest integer, ties to the even one (the rounding of a literal).
def halfEven (x : ℚ) : ℤ :=
  let low := ⌊x⌋
  let rest := x - low
  if rest < 1/2 then low else if 1/2 < rest then low + 1 else if low % 2 = 0 then low else low + 1

-- f64::round: ties away from zero.
def roundHalfAway (x : ℚ) : ℤ :=
  if 0 ≤ x then ⌊x + 1/2⌋ else -⌊-x + 1/2⌋

-- A float-to-integer `as` cast truncates toward zero and saturates.
def truncate (x : ℚ) : ℤ := x.num.tdiv x.den
def saturate (low high n : ℤ) : ℤ := max low (min high n)

def asI32 (x : ℚ) : ℤ := saturate (-2^31) (2^31 - 1) (truncate x)

namespace F64

def ofRat (x : ℚ) : F64 :=
  if x = 0 then finite 0
  else
    let unit : ℚ := 2 ^ (max (Int.log 2 |x|) (-1022) - 52)
    let value := halfEven (x / unit) * unit
    if 2 ^ 1024 ≤ |value| then infinite (decide (x < 0)) else finite value

def negate : F64 → F64
  | finite value => finite (-value)
  | infinite negative => infinite (!negative)
  | nan => nan

def isFinite : F64 → Bool
  | finite _ => true
  | _ => false

-- `x > 0.0` and `x == 0.0`; both are false of a NaN.
def positive : F64 → Bool
  | finite value => decide (0 < value)
  | infinite negative => !negative
  | nan => false

def isZero : F64 → Bool
  | finite value => decide (value = 0)
  | _ => false

def saturating (low high : ℤ) : F64 → ℤ
  | finite value => saturate low high (truncate value)
  | infinite true => low
  | infinite false => high
  | nan => 0

def asU32 (x : F64) : ℕ := (saturating 0 (2^32 - 1) x).toNat
def asU64 (x : F64) : ℕ := (saturating 0 (2^64 - 1) x).toNat
def asI32 (x : F64) : ℤ := saturating (-2^31) (2^31 - 1) x

-- What the books hold of a wire number. They are exact, so a special value has
-- no image of its own there and is taken as 0.
def exact : F64 → ℚ
  | finite value => value
  | _ => 0

end F64

-- str::parse of the integer types: an optional sign, then at least one digit,
-- read left to right with the range checked at each digit.
inductive ParseIntError where
  | empty | invalidDigit | posOverflow | negOverflow
  deriving DecidableEq, Repr

def ParseIntError.text : ParseIntError → String
  | .empty => "cannot parse integer from empty string"
  | .invalidDigit => "invalid digit found in string"
  | .posOverflow => "number too large to fit in target type"
  | .negOverflow => "number too small to fit in target type"

def digitValue (c : Char) : ℕ := c.toNat - '0'.toNat

def parseDigits (low high : ℤ) (negative : Bool) : ℤ → List Char → Except ParseIntError ℤ
  | value, [] => .ok value
  | value, c :: rest =>
    if c.isDigit then
      let next := if negative then value * 10 - digitValue c else value * 10 + digitValue c
      if next < low then .error .negOverflow
      else if high < next then .error .posOverflow
      else parseDigits low high negative next rest
    else .error .invalidDigit

def parseSigned (low high : ℤ) (text : String) : Except ParseIntError ℤ :=
  match text.toList with
  | [] => .error .empty
  | ['-'] | ['+'] => .error .invalidDigit
  | '-' :: digits => parseDigits low high true 0 digits
  | '+' :: digits => parseDigits low high false 0 digits
  | digits => parseDigits low high false 0 digits

-- str::parse::<f64>: the decimal grammar of the standard library, rounded to a
-- double, and the three spelled values in any case.
def natOfDigits (digits : List Char) : ℕ := digits.foldl (fun n c => n * 10 + digitValue c) 0

def parseExponent : List Char → Option ℤ
  | '-' :: digits => if digits ≠ [] ∧ digits.all Char.isDigit then some (-(natOfDigits digits)) else none
  | '+' :: digits => if digits ≠ [] ∧ digits.all Char.isDigit then some (natOfDigits digits) else none
  | digits => if digits ≠ [] ∧ digits.all Char.isDigit then some (natOfDigits digits) else none

def parseDecimal (text : List Char) : Option ℚ :=
  let whole := text.takeWhile Char.isDigit
  let rest := text.dropWhile Char.isDigit
  let (fraction, rest) := match rest with
    | '.' :: more => (more.takeWhile Char.isDigit, more.dropWhile Char.isDigit)
    | _ => ([], rest)
  if whole = [] ∧ fraction = [] then none
  else
    let mantissa : ℚ := natOfDigits (whole ++ fraction) / 10 ^ fraction.length
    match rest with
    | [] => some mantissa
    | 'e' :: more | 'E' :: more => (parseExponent more).map fun e => mantissa * 10 ^ e
    | _ => none

def parseUnsignedFloat (text : List Char) : Option F64 :=
  match text.map Char.toLower with
  | ['i', 'n', 'f'] | ['i', 'n', 'f', 'i', 'n', 'i', 't', 'y'] => some (.infinite false)
  | ['n', 'a', 'n'] => some .nan
  | _ => (parseDecimal text).map .ofRat

def parseFloat (text : String) : Option F64 :=
  match text.toList with
  | '-' :: rest => (parseUnsignedFloat rest).map .negate
  | '+' :: rest => parseUnsignedFloat rest
  | rest => parseUnsignedFloat rest

example : parseFloat "5" = some (.finite 5) := by decide +kernel
example : parseFloat "-2.50" = some (.finite (-5/2)) := by decide +kernel

end Corsair
