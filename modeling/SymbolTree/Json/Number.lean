import SymbolTree.Decimal
import SymbolTree.Json

/-!
# Numbers in documents

A number written with digits only, and no more of them than 64 bits hold, is taken exactly.  Of any
other number the leading digits are kept, as many as 64 bits hold, together with a power of ten
(`approximate`).  Such a number is worth the float nearest to its digits times the float nearest to
its power of ten, and it is refused when that product is past every finite float (`overflows`).

Both factors are rounded before they are multiplied.  So close to the greatest float the number may
be refused although it is a little smaller than that float, or taken although it is a little larger.
-/

set_option autoImplicit false
namespace SymbolTree.Json

/-- The first number that 64 bits do not hold. -/
def wordBound : Nat := Nat.pow 2 64

/-- Takes digits behind the number `n` as long as it fits into 64 bits; the second part is what is
left from the first digit that does not fit. -/
def absorb (n : Nat) : List Char → Nat × List Char
  | [] => (n, [])
  | d :: ds =>
      let m := n * 10 + Numeral.digitValue d
      if m < wordBound then absorb m ds else (n, d :: ds)

/-- The leading digits of a number and the power of ten that makes up for the others.  A digit of
the whole part that is left out counts as a zero; the digits of the fraction are taken up behind
those that were kept. -/
def approximate (negative : Bool) (whole fraction : List Char) (exponent : Int) :
    Numeral.Scientific :=
  let (n, left) := absorb 0 whole
  let (m, leftInFraction) := absorb n fraction
  ⟨negative, m, exponent + left.length - (fraction.length - leftInFraction.length : Nat)⟩

/-- The least number that is nearer to `2 ^ 1024` than to the greatest float, or as near. -/
def floatBound : Nat := Nat.pow 2 1024 - Nat.pow 2 970

/-- The greatest power of ten that is near a float has this exponent. -/
def maximumExponent : Nat := 308

/-- The float nearest to the digits times the float nearest to the power of ten is past every
finite float. -/
def overflows (x : Numeral.Scientific) : Bool :=
  if x.mantissa = 0 || x.exponent < 0 then false
  else if maximumExponent < x.exponent then true
  else floatBound ≤
    Decimal.nearestFloat x.mantissa * Decimal.nearestFloat (Nat.pow 10 x.exponent.toNat)

/-- The document of an integer; the one written `-0` is not an integer of 64 bits. -/
def ofInteger (negative : Bool) (n : Nat) : Json :=
  let v := Numeral.signed negative n
  if -(Nat.pow 2 63 : Nat) ≤ v && v < (Nat.pow 2 63 : Nat) && !(negative && n = 0) then .integer (Int64.ofInt v)
  else .number ⟨negative, n, 0⟩

/-- The document of a number, given its digits and its exponent, unless it is too large. -/
def ofNumeral? (negative : Bool) (whole : List Char) (fraction : Option (List Char))
    (exponent : Option Int) : Option Json :=
  let n := Numeral.ofDigits 10 whole
  if fraction.isNone && exponent.isNone && n < wordBound then some (ofInteger negative n)
  else
    let x := approximate negative whole (fraction.getD []) (exponent.getD 0)
    if overflows x then none else some (.number x)

end SymbolTree.Json
