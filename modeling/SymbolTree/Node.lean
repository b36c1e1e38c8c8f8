import SymbolTree.Position

/-!
# Nodes

A node has a kind, a place in the source text, flags and attributes, a value if its kind holds one,
a parent and children, and a number of links to other nodes that do not own them.

Only the children and the attribute node belong to a node.  A link may outlive the node it leads
to; readers of a link see nothing then (`Arena.link`).
-/

set_option autoImplicit false
namespace SymbolTree

/-- The links from one node to another that own nothing. -/
inductive Link where
  /-- From a name to the declaration it stands for. -/
  | inst
  /-- From an expression or a declaration to its type. -/
  | typeNode
  /-- From a jump to the place where it enters. -/
  | gotoEnter
  /-- From a jump to the place where it leaves. -/
  | gotoExit
  deriving DecidableEq, Repr

/-- What is stored for a node. -/
structure Node where
  /-- The kind. -/
  kind : Kind
  /-- Where the node was read. -/
  position : Position := {}
  /-- The flags. -/
  flags : FlagSet := .empty
  /-- The attributes written on the node itself. -/
  attributes : AttributeSet := .empty
  /-- The operator of a switch. -/
  switchOperator : Kind := .unknown
  /-- The value of an integer literal. -/
  int : Int64 := 0
  /-- The value of a float literal. -/
  float : Float := 0.0
  /-- The name or the text. -/
  text : String := ""
  /-- The node of which this one is a child. -/
  parent : Option NodeId := none
  /-- The nodes below this one. -/
  children : List NodeId := []
  /-- The declaration that a name stands for. -/
  inst : Option NodeId := none
  /-- The type. -/
  typeNode : Option NodeId := none
  /-- Where a jump enters. -/
  gotoEnter : Option NodeId := none
  /-- Where a jump leaves. -/
  gotoExit : Option NodeId := none
  /-- The node that lists the attributes of a declaration. -/
  attributeNode : Option NodeId := none
  /-- The variables declared for this node. -/
  variableNodes : List NodeId := []
  /-- The labels registered with this node, by name. -/
  labels : List (String × NodeId) := []
  /-- How well each parameter of a match is met. -/
  paramDepth : List Int32 := []
  /-- Which parameter each argument of a match goes to. -/
  paramIndex : List Nat := []
  /-- The node was not discarded. -/
  alive : Bool := true
  deriving Repr

namespace Node

/-- What a handle reads that no node was created for. -/
def absent : Node := { kind := .unknown, alive := false }

instance : Inhabited Node := ⟨absent⟩

/-- The end of a link. -/
def link (d : Node) : Link → Option NodeId
  | .inst => d.inst
  | .typeNode => d.typeNode
  | .gotoEnter => d.gotoEnter
  | .gotoExit => d.gotoExit

/-- Redirects a link. -/
def setLink (d : Node) (l : Link) (target : Option NodeId) : Node :=
  match l with
  | .inst => { d with inst := target }
  | .typeNode => { d with typeNode := target }
  | .gotoEnter => { d with gotoEnter := target }
  | .gotoExit => { d with gotoExit := target }

/-- Changes the kind and drops what the new kind does not accept. -/
def recast (d : Node) (k : Kind) : Node :=
  { d with kind := k, flags := d.flags.retainLegal k, attributes := d.attributes.retainLegal k }

end Node

namespace Kind

/-- Kinds whose nodes carry a name or a text. -/
def hasText (k : Kind) : Bool :=
  [Kind.break_, .class_, .continue_, .enum, .function, .goto, .identifier, .import_, .interface,
   .label, .name_, .namespace_, .package, .param, .regularExpression, .string, .variable_,
   .varAttributes, .videntifier].contains k

/-- Kinds that stand for a value. -/
def isLiteral : Kind → Bool
  | .false_ | .float64 | .int64 | .null | .string | .true_ | .undefined => true
  | _ => false

/-- Kinds whose nodes can be copied: the literals and the regular expressions. -/
def isCloneable (k : Kind) : Bool := k.isLiteral || k = .regularExpression

/-- Operators by which a switch can compare. -/
def isSwitchOperator (k : Kind) : Bool :=
  [Kind.unknown, .strictlyEqual, .equal, .notEqual, .strictlyNotEqual, .match_, .in_, .is, .as,
   .instanceof, .less, .lessEqual, .greater, .greaterEqual, .default_].contains k

end Kind

end SymbolTree
