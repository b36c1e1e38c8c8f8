import SymbolTree.Dictionary
import SymbolTree.Numeral

/-!
# JSON documents

A document is `null`, a boolean, a number, a string, an array or an object.  A number that is
written as an integer of 64 bits is told apart from all other numbers, since only such a number can
be a line.  The members of an object stand in the order of their names.
-/

set_option autoImplicit false
namespace SymbolTree

/-- A JSON document. -/
inductive Json where
  /-- The document `null`. -/
  | null
  /-- A boolean. -/
  | bool (value : Bool)
  /-- A number written as an integer of 64 bits. -/
  | integer (value : Int64)
  /-- Any other number. -/
  | number (value : Numeral.Scientific)
  /-- A string. -/
  | string (value : String)
  /-- An array. -/
  | array (elements : List Json)
  /-- An object. -/
  | object (members : List (String × Json))
  deriving Repr

namespace Json

/-- The members of an object. -/
def members? : Json → Option (List (String × Json))
  | .object ms => some ms
  | _ => none

/-- The text of a string. -/
def text? : Json → Option String
  | .string s => some s
  | _ => none

/-- The value of an integer of 64 bits. -/
def integer? : Json → Option Int64
  | .integer i => some i
  | _ => none

end Json

end SymbolTree
