import SymbolTree.Arena

/-!
# What a node holds

Reading and writing of flags, attributes and values.  Every access first checks that the kind of
the node admits it, and every change then checks that the node may be modified.
-/

set_option autoImplicit false
namespace SymbolTree.Arena

/-! ## Positions -/

/-- Moves a node to another position. -/
def setPosition (a : Arena) (n : NodeId) (p : Position) : Arena :=
  a.update n fun d => { d with position := p }

/-! ## Flags -/

/-- Refuses a flag that the kind does not accept. -/
def checkFlag (a : Arena) (n : NodeId) (f : Flag) : Except NodeError Unit :=
  if f.accepts (a.kind n) then .ok () else .error (.illegalFlag f (a.kind n))

/-- Reads a flag. -/
def flag (a : Arena) (n : NodeId) (f : Flag) : Except NodeError Bool := do
  a.checkFlag n f
  return (a.node n).flags.contains f

/-- Sets or clears a flag. -/
def setFlag (a : Arena) (n : NodeId) (f : Flag) (value : Bool) : Except NodeError Arena := do
  a.checkFlag n f
  a.modifying n
  return a.update n fun d => { d with flags := d.flags.set f value }

/-! ## Attributes -/

/-- Refuses an attribute that the kind does not accept. -/
def checkAttribute (a : Arena) (n : NodeId) (t : Attribute) : Except NodeError Unit :=
  if t.accepts (a.kind n) then .ok () else .error (.illegalAttribute t (a.kind n))

/-- Reads an attribute of the node itself. -/
def hasAttribute (a : Arena) (n : NodeId) (t : Attribute) : Except NodeError Bool := do
  a.checkAttribute n t
  return (a.node n).attributes.contains t

/-- Sets or clears an attribute.  The answer is `false`, and nothing changes, when the attribute
would stand beside a rival. -/
def setAttribute (a : Arena) (n : NodeId) (t : Attribute) (value : Bool) :
    Except NodeError (Bool × Arena) := do
  a.checkAttribute n t
  a.modifying n
  if value && ((a.node n).attributes.conflict? t).isSome then
    return (false, a)
  return (true, a.update n fun d => { d with attributes := d.attributes.set t value })

/-- Gives a declaration the node that lists its attributes, or takes it away. -/
def setAttributeNode (a : Arena) (n : NodeId) (target : Option NodeId) :
    Except NodeError Arena := do
  a.modifying n
  return a.update n fun d => { d with attributeNode := target }

/-! ## Values -/

/-- Refuses any kind but the expected one. -/
def expectKind (a : Arena) (n : NodeId) (k : Kind) (r : NodeRequest) : Except NodeError Unit :=
  if a.kind n = k then .ok () else .error (.invalidData r (a.kind n))

/-- The value of a boolean literal. -/
def boolean (a : Arena) (n : NodeId) : Except NodeError Bool :=
  match a.kind n with
  | .true_ => .ok true
  | .false_ => .ok false
  | k => .error (.invalidData .getBoolean k)

/-- Turns a boolean literal into the one with the given value. -/
def setBoolean (a : Arena) (n : NodeId) (value : Bool) : Except NodeError Arena := do
  unless a.kind n = .true_ || a.kind n = .false_ do
    throw (.invalidData .setBoolean (a.kind n))
  a.modifying n
  return a.update n fun d => d.recast (if value then .true_ else .false_)

/-- The value of an integer literal. -/
def int64 (a : Arena) (n : NodeId) : Except NodeError Int64 := do
  a.expectKind n .int64 .getInt64
  return (a.node n).int

/-- Changes the value of an integer literal. -/
def setInt64 (a : Arena) (n : NodeId) (value : Int64) : Except NodeError Arena := do
  a.expectKind n .int64 .setInt64
  a.modifying n
  return a.update n fun d => { d with int := value }

/-- The value of a float literal. -/
def float64 (a : Arena) (n : NodeId) : Except NodeError Float := do
  a.expectKind n .float64 .getFloat64
  return (a.node n).float

/-- Changes the value of a float literal. -/
def setFloat64 (a : Arena) (n : NodeId) (value : Float) : Except NodeError Arena := do
  a.expectKind n .float64 .setFloat64
  a.modifying n
  return a.update n fun d => { d with float := value }

/-- The name or the text of a node. -/
def text (a : Arena) (n : NodeId) : Except NodeError String :=
  if (a.kind n).hasText then .ok (a.node n).text
  else .error (.invalidData .getString (a.kind n))

/-- Changes the name or the text of a node. -/
def setText (a : Arena) (n : NodeId) (value : String) : Except NodeError Arena := do
  unless (a.kind n).hasText do
    throw (.invalidData .setString (a.kind n))
  a.modifying n
  return a.update n fun d => { d with text := value }

/-- The node has a name or a text, and it is this one. -/
def textIs (a : Arena) (n : NodeId) (value : String) : Bool :=
  (a.kind n).hasText && (a.node n).text = value

/-- The operator by which a switch compares. -/
def switchOperator (a : Arena) (n : NodeId) : Except NodeError Kind := do
  a.expectKind n .switch .getSwitchOperator
  return (a.node n).switchOperator

/-- Changes the operator by which a switch compares. -/
def setSwitchOperator (a : Arena) (n : NodeId) (op : Kind) : Except NodeError Arena := do
  a.expectKind n .switch .setSwitchOperator
  unless op.isSwitchOperator do
    throw (.invalidData .setSwitchOperator op)
  a.modifying n
  return a.update n fun d => { d with switchOperator := op }

end SymbolTree.Arena
