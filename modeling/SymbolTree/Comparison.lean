/-!
# Comparing values

The comparison of two literals has five outcomes: the three of an order, `unordered` when there is
no order between them, as with a float that is no number, and `error` when one of the two is no
literal at all.
-/

set_option autoImplicit false
namespace SymbolTree

/-- The outcome of a comparison. -/
inductive Comparison where
  | less | equal | greater | unordered | error
  deriving DecidableEq, Repr

/-- How literals are compared. -/
inductive CompareMode where
  /-- Values of different kinds are not ordered. -/
  | strict
  /-- Values of different kinds are compared as numbers. -/
  | loose
  /-- As `loose`, and floats that nearly agree are equal. -/
  | smart
  deriving DecidableEq, Repr

/-- The mode with a given name. -/
def CompareMode.ofName? : String → Option CompareMode
  | "strict" => some .strict
  | "loose" => some .loose
  | "smart" => some .smart
  | _ => none

namespace Comparison

/-- The name of an outcome. -/
def name : Comparison → String
  | .less => "less"
  | .equal => "equal"
  | .greater => "greater"
  | .unordered => "unordered"
  | .error => "error"

/-- The two values stand in an order. -/
def isOrdered : Comparison → Bool
  | .less | .equal | .greater => true
  | .unordered | .error => false

/-- The outcome that an order gives. -/
def ofOrdering : Ordering → Comparison
  | .lt => .less
  | .eq => .equal
  | .gt => .greater

/-- Compares two integers. -/
def ofInt64 (a b : Int64) : Comparison :=
  ofOrdering (compareOfLessAndEq a.toInt b.toInt)

/-- Compares two texts, character by character. -/
def ofString (a b : String) : Comparison :=
  if a < b then .less else if a = b then .equal else .greater

/-- Compares two floats; one that is no number has no place in the order. -/
def ofFloat (a b : Float) : Comparison :=
  if a < b then .less
  else if a == b then .equal
  else if b < a then .greater
  else .unordered

end Comparison

/-- The smallest positive float of full precision. -/
def leastNormal : Float := Float.ofBits 0x0010000000000000

/-- The relative difference below which floats nearly agree, unless another is given. -/
def defaultTolerance : Float := 0.00001

/-- Two floats nearly agree when their difference is small beside their sum.  Next to zero, where
that says nothing, the difference is measured against the smallest float of full precision. -/
def nearlyEqual (a b tolerance : Float) : Bool :=
  if a == b then true
  else if a.isNaN || b.isNaN || a.isInf || b.isInf then false
  else
    let diff := (a - b).abs
    if a == 0.0 || b == 0.0 || diff < leastNormal then diff < tolerance * leastNormal
    else diff / (a.abs + b.abs) < tolerance

/-- The sign of an infinity, and 0 for every other float. -/
def infinitySign (x : Float) : Int :=
  if x.isInf then (if x < 0.0 then -1 else 1) else 0

end SymbolTree
