/-!
# Writing floats in decimal

A finite float is a whole number of units of 2^-1074.  Its digits are found in exact arithmetic on
that number, without going through another float.

* `shortest` finds the fewest digits that read back as the same float: the coarsest decimal grid
  with a point among the numbers that round to it, and on that grid the point nearest to it.
* `fixed` rounds to a given number of places, and `nearestFloat` to the digits of a float.
* `display` and `script` are the two texts of a float: the first for listings, the second for a
  float that becomes a string of the program.
-/

set_option autoImplicit false
namespace SymbolTree.Decimal

/-! ## Floats as whole numbers of units -/

/-- What the bits of a float stand for. -/
inductive Reading where
  /-- Not a number. -/
  | nan
  /-- An infinity. -/
  | infinite (negative : Bool)
  /-- The number `± units · 2^-1074`, next to others at a distance of `step` units above it and of
  `below / 2` units below it. -/
  | finite (negative : Bool) (units step below : Nat)
  deriving DecidableEq, Repr

/-- Reads the bits of a float. -/
def read (bits : UInt64) : Reading :=
  let n := bits.toNat
  let negative := n / Nat.pow 2 63 = 1
  let field := n / Nat.pow 2 52 % Nat.pow 2 11
  let fraction := n % Nat.pow 2 52
  if field = 2047 then
    if fraction = 0 then .infinite negative else .nan
  else if field = 0 then .finite negative fraction 1 2
  else
    let step := Nat.pow 2 (field - 1)
    -- the lower neighbour of a power of two is half as far away, except at the very bottom
    .finite negative ((Nat.pow 2 52 + fraction) * step) step
      (if fraction = 0 && 1 < field then step else 2 * step)

/-! ## Digits -/

/-- The two factors that compare a number of quarter units with the grid of multiples of `10^e`:
`(n, d)` with `n / d = 10^-e / (4 · 2^1074)`. -/
def grid (e : Int) : Nat × Nat :=
  if 0 ≤ e then (1, 4 * Nat.pow 2 1074 * Nat.pow 10 e.toNat)
  else (Nat.pow 10 (-e).toNat, 4 * Nat.pow 2 1074)

/-- The point of the grid `10^e` nearest to a number among those that round to it, given in
quarter units as the interval from `low` to `high`; `closed` says whether the ends belong to it.
Of two points equally near the upper one is taken. -/
def nearest? (value low high : Nat) (closed : Bool) (e : Int) : Option Nat :=
  let (n, d) := grid e
  let floor := value * n / d
  let inside (p : Nat) : Bool :=
    if closed then low * n ≤ p * d && p * d ≤ high * n else low * n < p * d && p * d < high * n
  let lower := inside floor
  let upper := inside (floor + 1)
  if lower && upper then
    some (if value * n - floor * d < (floor + 1) * d - value * n then floor else floor + 1)
  else if lower then some floor
  else if upper then some (floor + 1)
  else none

/-- The fewest digits that read back as the given float, as a whole number and a power of ten. -/
def shortest (units step below : Nat) : Nat × Int :=
  let closed := units / step % 2 = 0
  let exponents := (List.range 640).map fun i : Nat => (310 : Int) - (i : Int)
  (exponents.findSome? fun e =>
    (nearest? (4 * units) (4 * units - below) (4 * units + 2 * step) closed e).map (·, e)).getD
      (0, 0)

/-- The digits of `n · 10^e` in positional notation. -/
def positional (n : Nat) (e : Int) : String :=
  let ds := Nat.toDigits 10 n
  if 0 ≤ e then String.ofList (ds ++ List.replicate e.toNat '0')
  else
    let places := (-e).toNat
    let ds := List.replicate (places + 1 - ds.length) '0' ++ ds
    String.ofList (ds.take (ds.length - places) ++ '.' :: ds.drop (ds.length - places))

/-- The quotient of two numbers rounded to the nearest whole number; a half goes to the even
neighbour. -/
def roundDiv (n d : Nat) : Nat :=
  let q := n / d
  let r := n % d
  if d < 2 * r || (2 * r = d && q % 2 = 1) then q + 1 else q

/-- The number of units in steps of `10^-places`, rounded to the nearest. -/
def fixed (units places : Nat) : Nat := roundDiv (units * Nat.pow 10 places) (Nat.pow 2 1074)

/-- The float nearest to a whole number, which keeps its 53 leading binary digits.  The range of
floats is taken to have no end. -/
def nearestFloat (n : Nat) : Nat :=
  let unit := Nat.pow 2 (n.log2 - 52)
  roundDiv n unit * unit

/-- A text with a minus in front when asked for. -/
def withSign (negative : Bool) (s : String) : String := if negative then "-" ++ s else s

/-! ## Texts -/

/-- How a listing shows a float: the fewest digits that read back, never with an exponent. -/
def display (x : Float) : String :=
  match read x.toBits with
  | .nan => "NaN"
  | .infinite negative => withSign negative "inf"
  | .finite negative 0 _ _ => withSign negative "0"
  | .finite negative units step below =>
      let (n, e) := shortest units step below
      withSign negative (positional n e)

/-- The text without zeros at its end, and then without a point at its end. -/
def dropZeros (s : String) : String :=
  let cs := s.toList.reverse.dropWhile (· = '0')
  String.ofList (cs.dropWhile (· = '.')).reverse

/-- The text of a float that becomes a string of the program: at most six places, and no zeros at
the end of them. -/
def script (x : Float) : String :=
  match read x.toBits with
  | .nan => "NaN"
  | .infinite negative => withSign negative "Infinity"
  | .finite _ 0 _ _ => "0"
  | .finite negative units _ _ =>
      dropZeros (withSign negative (positional (fixed units 6) (-6)))

end SymbolTree.Decimal
