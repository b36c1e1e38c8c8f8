import SymbolTree.Arena.Structure
import SymbolTree.Comparison
import SymbolTree.Decimal
import SymbolTree.Numeral

/-!
# Values of literals

Predicates on the kind of a node, conversions of a node in place, and the comparison of two
literals.  A conversion is a partial function on nodes (`Node.toInt64?` and so on); a node that it
does not apply to stays as it is.
-/

set_option autoImplicit false
namespace SymbolTree

namespace Node

/-- The boolean kind with a given truth. -/
def truth (b : Bool) : Kind := if b then .true_ else .false_

/-- The boolean kind that a literal would become, and `undefined` for any other node. -/
def booleanKind (d : Node) : Kind :=
  match d.kind with
  | .true_ => .true_
  | .false_ => .false_
  | .null | .undefined => .false_
  | .int64 => truth (d.int ≠ 0)
  | .float64 => truth (!(d.float == 0.0) && !d.float.isNaN)
  | .string => truth (!d.text.isEmpty)
  | _ => .undefined

/-- The node as a float, for a comparison of different kinds. -/
def asFloat (d : Node) : Float :=
  match d.kind with
  | .int64 => Float.ofInt d.int.toInt
  | .float64 => d.float
  | .true_ => 1.0
  | .string => Numeral.toFloat d.text
  | .undefined => 0.0 / 0.0
  | _ => 0.0

/-! ## Conversions -/

/-- Every node becomes unknown. -/
def toUnknown (d : Node) : Node := d.recast .unknown

/-- A call becomes a cast. -/
def toAs? (d : Node) : Option Node := if d.kind = .call then some (d.recast .as) else none

/-- A literal becomes a boolean. -/
def toBoolean? (d : Node) : Option Node :=
  match d.booleanKind with
  | .undefined => none
  | k => some (d.recast k)

/-- A member read by a getter and an assignment done by a setter become calls. -/
def toCall? (d : Node) : Option Node :=
  if d.kind = .member || d.kind = .assignment then some (d.recast .call) else none

/-- The keywords for visibility become plain names again. -/
def toIdentifier? (d : Node) : Option Node :=
  match d.kind with
  | .identifier => some d
  | .private_ => some { d.recast .identifier with text := "private" }
  | .protected_ => some { d.recast .identifier with text := "protected" }
  | .public_ => some { d.recast .identifier with text := "public" }
  | _ => none

/-- The integer that a literal other than an integer becomes. -/
def integerValue? (d : Node) : Option Int64 :=
  match d.kind with
  | .float64 => some (if d.float.isNaN || d.float.isInf then 0 else d.float.toInt64)
  | .true_ => some 1
  | .null | .false_ | .undefined => some 0
  | .string =>
      some (if Numeral.isInteger d.text then Numeral.toInt64 d.text
        else if Numeral.isDecimal d.text then (Numeral.toFloat d.text).toInt64
        else 0)
  | _ => none

/-- A literal becomes an integer. -/
def toInt64? (d : Node) : Option Node :=
  if d.kind = .int64 then some d
  else d.integerValue?.map fun v => { d with int := v }.recast .int64

/-- A literal becomes a float. -/
def toFloat64? (d : Node) : Option Node :=
  match d.kind with
  | .float64 => some d
  | .int64 | .true_ | .null | .false_ | .string | .undefined =>
      some ({ d with float := d.asFloat }.recast .float64)
  | _ => none

/-- A name becomes a label. -/
def toLabel? (d : Node) : Option Node :=
  if d.kind = .identifier then some (d.recast .label) else none

/-- A boolean and `null` become integers, a string and `undefined` floats. -/
def toNumber? (d : Node) : Option Node :=
  match d.kind with
  | .int64 | .float64 => some d
  | .true_ => some ({ d with int := 1 }.recast .int64)
  | .null | .false_ => some ({ d with int := 0 }.recast .int64)
  | .undefined | .string => some ({ d with float := d.asFloat }.recast .float64)
  | _ => none

/-- The text that a literal or a name becomes. -/
def textValue? (d : Node) : Option String :=
  match d.kind with
  | .identifier => some d.text
  | .undefined => some "undefined"
  | .null => some "null"
  | .true_ => some "true"
  | .false_ => some "false"
  | .int64 => some (toString d.int.toInt)
  | .float64 => some (Decimal.script d.float)
  | _ => none

/-- A literal or a name becomes a string. -/
def toText? (d : Node) : Option Node :=
  if d.kind = .string then some d
  else d.textValue?.map fun s => { d with text := s }.recast .string

/-- A name becomes a quoted name. -/
def toVidentifier? (d : Node) : Option Node :=
  if d.kind = .identifier then some (d.recast .videntifier) else none

/-- A variable becomes a variable that holds attributes. -/
def toVarAttributes? (d : Node) : Option Node :=
  if d.kind = .variable_ then some (d.recast .varAttributes) else none

end Node

namespace Kind

/-- Kinds of numbers. -/
def isNumber (k : Kind) : Bool := k = .int64 || k = .float64

/-- Kinds of booleans. -/
def isBoolean (k : Kind) : Bool := k = .true_ || k = .false_

/-- Kinds of names, plain or quoted. -/
def isIdentifier (k : Kind) : Bool := k = .identifier || k = .videntifier

/-- Kinds whose evaluation changes the state of the program. -/
def hasSideEffects (k : Kind) : Bool :=
  [Kind.assignment, .assignmentAdd, .assignmentBitwiseAnd, .assignmentBitwiseOr,
   .assignmentBitwiseXor, .assignmentDivide, .assignmentLogicalAnd, .assignmentLogicalOr,
   .assignmentLogicalXor, .assignmentMaximum, .assignmentMinimum, .assignmentModulo,
   .assignmentMultiply, .assignmentPower, .assignmentRotateLeft, .assignmentRotateRight,
   .assignmentShiftLeft, .assignmentShiftRight, .assignmentShiftRightUnsigned,
   .assignmentSubtract, .call, .decrement, .delete, .increment, .new, .postDecrement,
   .postIncrement].contains k

/-- The value would be no number if it were converted to one, by its kind and its text. -/
def isNan (k : Kind) (text : String) : Bool :=
  match k with
  | .string => !Numeral.isNumber text
  | .int64 | .float64 | .true_ | .false_ | .null => false
  | _ => true

end Kind

namespace Arena

/-- Converts a node in place.  The answer tells whether the conversion applies. -/
def convert (a : Arena) (n : NodeId) (f : Node → Option Node) :
    Except NodeError (Bool × Arena) := do
  a.modifying n
  match f (a.node n) with
  | some d => return (true, a.update n fun _ => d)
  | none => return (false, a)

/-- The value of a node would be no number if it were converted to one. -/
def isNan (a : Arena) (n : NodeId) : Bool := (a.kind n).isNan (a.node n).text

/-- Evaluating the node or anything below it may change the state of the program. -/
def hasSideEffects (a : Arena) (n : NodeId) : Bool :=
  (a.preorder n).any (fun m => (a.kind m).hasSideEffects)

/-! ## Comparison -/

/-- Compares two floats, taking those that nearly agree for equal in smart mode. -/
def compareFloats (x y : Float) (mode : CompareMode) : Comparison :=
  if mode = .smart && nearlyEqual x y defaultTolerance then .equal else Comparison.ofFloat x y

/-- Compares two literals of the same kind, other than booleans. -/
def compareAlike (l r : Node) (mode : CompareMode) : Comparison :=
  match l.kind with
  | .float64 => compareFloats l.float r.float mode
  | .int64 => Comparison.ofInt64 l.int r.int
  | .string => Comparison.ofString l.text r.text
  | _ => .equal

/-- Compares two literals.  `false` comes before `true`; literals of one kind compare by value;
literals of different kinds are not ordered in strict mode, and otherwise `null` equals `undefined`
and the rest compares as numbers.  Any other node is an error. -/
def compare (a : Arena) (lhs rhs : NodeId) (mode : CompareMode) : Comparison :=
  let l := a.node lhs
  let r := a.node rhs
  if !l.kind.isLiteral || !r.kind.isLiteral then .error
  else match l.kind, r.kind with
    | .false_, .true_ => .less
    | .true_, .false_ => .greater
    | lk, rk =>
      if lk = rk then compareAlike l r mode
      else if mode = .strict then .unordered
      else if (lk = .null && rk = .undefined) || (lk = .undefined && rk = .null) then .equal
      else compareFloats l.asFloat r.asFloat mode

end Arena

end SymbolTree
