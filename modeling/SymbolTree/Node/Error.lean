import SymbolTree.Flag
import SymbolTree.Attribute

/-!
# Node handles and misuse of the tree

A node is addressed by a `NodeId`, its place in the order of creation.  A `NodeError` tells in which
way a request breaks a rule of the tree; it says nothing about the program that the tree stands
for, whose faults are reported as messages.

`NodeError.message` is the only place that words these errors.
-/

set_option autoImplicit false
namespace SymbolTree

/-- A handle on a node: its place in the order of creation, from 0 on. -/
structure NodeId where
  /-- How many nodes were created before this one. -/
  index : Nat
  deriving DecidableEq, Repr, Inhabited

/-- A node is shown by a number sign and its index. -/
def NodeId.display (n : NodeId) : String := "#" ++ toString n.index

/-- The requests that look at the kind or the parent of a node, under the names that error texts
give them. -/
inductive NodeRequest where
  | discard | cloneBasicNode | getBoolean | setBoolean | getInt64 | setInt64 | getFloat64
  | setFloat64 | getString | setString | getSwitchOperator | setSwitchOperator | addLabel
  | replaceWith | getOffset | resolveName
  deriving DecidableEq, Repr

/-- The name of a request. -/
def NodeRequest.name : NodeRequest → String
  | .discard => "discard"
  | .cloneBasicNode => "clone_basic_node"
  | .getBoolean => "get_boolean"
  | .setBoolean => "set_boolean"
  | .getInt64 => "get_int64"
  | .setInt64 => "set_int64"
  | .getFloat64 => "get_float64"
  | .setFloat64 => "set_float64"
  | .getString => "get_string"
  | .setString => "set_string"
  | .getSwitchOperator => "get_switch_operator"
  | .setSwitchOperator => "set_switch_operator"
  | .addLabel => "add_label"
  | .replaceWith => "replace_with"
  | .getOffset => "get_offset"
  | .resolveName => "resolve_name"

/-- What can be wrong with a request to size the tables of a parameter match. -/
inductive TableFault where
  | notAParamMatch | sizedTwice | sizeZero
  deriving DecidableEq, Repr

/-- The wording of a table fault. -/
def TableFault.message : TableFault → String
  | .notAParamMatch => "set_param_size() called with a node other than a PARAM_MATCH"
  | .sizedTwice => "set_param_size() called twice"
  | .sizeZero => "set_param_size() was called with a size of zero"

/-- A request that the tree refuses. -/
inductive NodeError where
  /-- A locked node was to be modified. -/
  | locked (node : NodeId) (kind : Kind)
  /-- A node without locks was to be unlocked. -/
  | notLocked (node : NodeId)
  /-- A flag was used on a kind that does not accept it. -/
  | illegalFlag (flag : Flag) (kind : Kind)
  /-- An attribute was used on a kind that does not accept it. -/
  | illegalAttribute (attr : Attribute) (kind : Kind)
  /-- An index is past the end of a list of `size` entries. -/
  | indexOutOfRange (node : NodeId) (index size : Nat)
  /-- A kind that takes no children was to receive one. -/
  | incompatibleParent (parent child : Kind)
  /-- A kind that never is attached was to be. -/
  | incompatibleChild (kind : Kind)
  /-- A node without a parent was asked for its place. -/
  | noParent (request : NodeRequest)
  /-- The kind does not hold what was asked for. -/
  | invalidData (request : NodeRequest) (kind : Kind)
  /-- A discarded node was to be modified. -/
  | deadNode (node : NodeId)
  /-- Lines are counted from 1. -/
  | invalidLine (line : Int32)
  /-- A parameter match was sized wrongly. -/
  | paramMatch (fault : TableFault)
  deriving DecidableEq, Repr

/-- The wording of a refusal. -/
def NodeError.message : NodeError → String
  | .locked n k => "trying to modify locked node " ++ n.display ++ " (" ++ k.name ++ ")"
  | .notLocked n => "unlock() called on node " ++ n.display ++ " whose lock counter is zero"
  | .illegalFlag f k => "flag " ++ f.name ++ " / type mismatch (" ++ k.name ++ ")"
  | .illegalAttribute a k => "node " ++ k.name ++ " does not like attribute " ++ a.name
  | .indexOutOfRange n i size =>
      "index " ++ toString i ++ " out of range for node " ++ n.display ++ " with "
        ++ toString size ++ " children"
  | .incompatibleParent p c =>
      "invalid type: \"" ++ p.name ++ "\" used as a parent node of child with type: \""
        ++ c.name ++ "\""
  | .incompatibleChild k => "invalid type \"" ++ k.name ++ "\" used as a child node"
  | .noParent r => r.name ++ "() only works against nodes that have a parent"
  | .invalidData r k => r.name ++ "() called with a node of type " ++ k.name
  | .deadNode n => "node " ++ n.display ++ " was discarded"
  | .invalidLine l =>
      "the line parameter of the position object cannot be less than 1 (got " ++ toString l ++ ")"
  | .paramMatch f => "parameter match error: " ++ f.message

end SymbolTree
