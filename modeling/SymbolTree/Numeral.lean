/-!
# Numbers written in a string

A string literal may have to serve as a number.  Blanks around the text do not count.  An integer
is an optional sign and decimal digits, or an optional sign, `0x` and hexadecimal digits; a decimal
numeral is an optional sign, digits with an optional point among them, and an optional exponent.
The empty text counts as zero in both readings.

* `integer?` and `decimal?` give the number that a text denotes, without any bound on its size;
* `toInt64` and `toFloat` bring it into a machine word;
* `isInteger`, `isDecimal` and `isNumber` only ask whether there is one.

## Main statement

* `toInt64_eq` — a text denoting an integer whose absolute value is below 2^63 has that integer as
  its value, and every other text has the value 0.
-/

set_option autoImplicit false
namespace SymbolTree.Numeral

/-! ## Characters -/

/-- The blanks: every character with the Unicode property `White_Space`. -/
def isBlank (c : Char) : Bool :=
  let n := c.toNat
  (0x09 ≤ n && n ≤ 0x0D) || n = 0x20 || n = 0x85 || n = 0xA0 || n = 0x1680
    || (0x2000 ≤ n && n ≤ 0x200A) || n = 0x2028 || n = 0x2029 || n = 0x202F || n = 0x205F
    || n = 0x3000

/-- A text without the blanks at its two ends. -/
def trim (cs : List Char) : List Char :=
  ((cs.dropWhile isBlank).reverse.dropWhile isBlank).reverse

/-- A decimal digit. -/
def isDigit (c : Char) : Bool := '0' ≤ c && c ≤ '9'

/-- A hexadecimal digit, of either case. -/
def isHexDigit (c : Char) : Bool := isDigit c || ('a' ≤ c && c ≤ 'f') || ('A' ≤ c && c ≤ 'F')

/-- The value of a hexadecimal digit, and so of a decimal one. -/
def digitValue (c : Char) : Nat :=
  if isDigit c then c.toNat - '0'.toNat
  else if 'a' ≤ c then c.toNat - 'a'.toNat + 10
  else c.toNat - 'A'.toNat + 10

/-- The number that digits denote in a base, the most significant digit first. -/
def ofDigits (base : Nat) (cs : List Char) : Nat :=
  cs.foldl (fun n c => n * base + digitValue c) 0

/-- Takes off a sign; the first part says whether it was a minus. -/
def splitSign : List Char → Bool × List Char
  | '+' :: cs => (false, cs)
  | '-' :: cs => (true, cs)
  | cs => (false, cs)

/-- The number with a given sign and absolute value. -/
def signed (negative : Bool) (n : Nat) : Int := if negative then -(n : Int) else n

/-! ## Integers -/

/-- The absolute value that the digits of an integer denote. -/
def magnitude? : List Char → Option Nat
  | '0' :: 'x' :: hex | '0' :: 'X' :: hex =>
      if !hex.isEmpty && hex.all isHexDigit then some (ofDigits 16 hex) else none
  | ds => if !ds.isEmpty && ds.all isDigit then some (ofDigits 10 ds) else none

/-- The integer that a text denotes, if it is one. -/
def integer? (s : String) : Option Int :=
  match trim s.toList with
  | [] => some 0
  | cs => (magnitude? (splitSign cs).2).map (signed (splitSign cs).1)

/-- The text denotes an integer. -/
def isInteger (s : String) : Bool := (integer? s).isSome

/-- The value of a text as a 64-bit integer: the integer it denotes if that is in range, and 0
otherwise.  The range is symmetric, since the sign is applied to a value that already fits. -/
def toInt64 (s : String) : Int64 :=
  match integer? s with
  | some v => if v.natAbs < Nat.pow 2 63 then Int64.ofInt v else 0
  | none => 0

theorem toInt64_eq (s : String) :
    (toInt64 s).toInt =
      match integer? s with
      | some v => if v.natAbs < Nat.pow 2 63 then v else 0
      | none => 0 := by
  unfold toInt64
  split
  · split
    · next v _ h =>
      have hv : v.natAbs < 9223372036854775808 := h
      exact Int64.toInt_ofInt_of_le (by omega) (by omega)
    · rfl
  · rfl

/-! ## Decimal numerals -/

/-- The number `±mantissa · 10 ^ exponent`. -/
structure Scientific where
  /-- The sign. -/
  negative : Bool
  /-- All digits, without the point. -/
  mantissa : Nat
  /-- The power of ten that they are multiplied by. -/
  exponent : Int
  deriving DecidableEq, Repr

/-- The exponent part of a numeral: nothing, or a mark, an optional sign and digits. -/
def exponent? : List Char → Option Int
  | [] => some 0
  | c :: cs =>
      if c = 'e' || c = 'E' then
        let (negative, ds) := splitSign cs
        if !ds.isEmpty && ds.all isDigit then some (signed negative (ofDigits 10 ds)) else none
      else none

/-- The part of a numeral after the sign. -/
def unsigned? (negative : Bool) (cs : List Char) : Option Scientific :=
  let whole := cs.takeWhile isDigit
  let rest := cs.dropWhile isDigit
  let (fraction, tail) := match rest with
    | '.' :: r => (r.takeWhile isDigit, r.dropWhile isDigit)
    | r => ([], r)
  if (whole ++ fraction).isEmpty then none
  else (exponent? tail).map fun e =>
    ⟨negative, ofDigits 10 (whole ++ fraction), e - fraction.length⟩

/-- The decimal number that a text denotes, if it is one. -/
def decimal? (s : String) : Option Scientific :=
  match trim s.toList with
  | [] => some ⟨false, 0, 0⟩
  | cs => unsigned? (splitSign cs).1 (splitSign cs).2

/-- The text denotes a decimal number. -/
def isDecimal (s : String) : Bool := (decimal? s).isSome

/-- The text denotes a number. -/
def isNumber (s : String) : Bool := isInteger s || isDecimal s

/-- The float nearest to a decimal number.  A number with more than 310 digits before the point is
past every finite float, and one below 10 ^ -330 is nearer to zero than to any other; both are
settled without computing a power of ten. -/
def Scientific.toFloat (x : Scientific) : Float :=
  let size : Int := (Nat.toDigits 10 x.mantissa).length + x.exponent
  let m : Float :=
    if x.mantissa = 0 || size < -330 then 0.0
    else if 310 < size then 1.0 / 0.0
    else if 0 ≤ x.exponent then Float.ofScientific x.mantissa false x.exponent.toNat
    else Float.ofScientific x.mantissa true (-x.exponent).toNat
  if x.negative then -m else m

/-- The value of a text as a float: the decimal number it denotes, else the 64-bit integer it
denotes, else no number. -/
def toFloat (s : String) : Float :=
  match decimal? s with
  | some x => x.toFloat
  | none => if isInteger s then Float.ofInt (toInt64 s).toInt else 0.0 / 0.0

end SymbolTree.Numeral
