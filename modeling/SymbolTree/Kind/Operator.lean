import SymbolTree.Kind

/-!
# Operators and their spelling

Some kinds are operators of the language.  `Kind.operator?` gives the spelling of an operator kind
and `Kind.ofOperator?` reads one back; two operators have a second spelling that is read and never
written.
-/

set_option autoImplicit false
namespace SymbolTree.Kind

/-- The spelling of an operator kind, and nothing for any other kind. -/
def operator? : Kind → Option String
  | .logicalNot => some "!"
  | .modulo => some "%"
  | .bitwiseAnd => some "&"
  | .multiply => some "*"
  | .add => some "+"
  | .subtract => some "-"
  | .divide => some "/"
  | .less => some "<"
  | .assignment => some "="
  | .greater => some ">"
  | .bitwiseXor => some "^"
  | .bitwiseOr => some "|"
  | .bitwiseNot => some "~"
  | .assignmentAdd => some "+="
  | .assignmentBitwiseAnd => some "&="
  | .assignmentBitwiseOr => some "|="
  | .assignmentBitwiseXor => some "^="
  | .assignmentDivide => some "/="
  | .assignmentLogicalAnd => some "&&="
  | .assignmentLogicalOr => some "||="
  | .assignmentLogicalXor => some "^^="
  | .assignmentMaximum => some ">?="
  | .assignmentMinimum => some "<?="
  | .assignmentModulo => some "%="
  | .assignmentMultiply => some "*="
  | .assignmentPower => some "**="
  | .assignmentRotateLeft => some "<%="
  | .assignmentRotateRight => some ">%="
  | .assignmentShiftLeft => some "<<="
  | .assignmentShiftRight => some ">>="
  | .assignmentShiftRightUnsigned => some ">>>="
  | .assignmentSubtract => some "-="
  | .call => some "()"
  | .compare => some "<=>"
  | .decrement => some "--x"
  | .equal => some "=="
  | .greaterEqual => some ">="
  | .increment => some "++x"
  | .lessEqual => some "<="
  | .logicalAnd => some "&&"
  | .logicalOr => some "||"
  | .logicalXor => some "^^"
  | .match_ => some "~="
  | .maximum => some ">?"
  | .minimum => some "<?"
  | .notEqual => some "!="
  | .notMatch => some "!~"
  | .postDecrement => some "x--"
  | .postIncrement => some "x++"
  | .power => some "**"
  | .rotateLeft => some "<%"
  | .rotateRight => some ">%"
  | .shiftLeft => some "<<"
  | .shiftRight => some ">>"
  | .shiftRightUnsigned => some ">>>"
  | .smartMatch => some "~~"
  | .strictlyEqual => some "==="
  | .strictlyNotEqual => some "!=="
  | _ => none

/-- The operator that a text spells.  Besides the spelling written by `operator?`, inequality may
be written `<>` and assignment `:=`. -/
def ofOperator? (s : String) : Option Kind :=
  match all.find? (fun k => k.operator? = some s) with
  | some k => some k
  | none => if s = "<>" then some .notEqual else if s = ":=" then some .assignment else none

end SymbolTree.Kind
