import SymbolTree.Arena

/-!
# References from node to node

The links, the variables and labels registered with a node, and the tables in which a parameter
match records how arguments meet parameters.  None of these own nodes and none is protected by a
lock.
-/

set_option autoImplicit false
namespace SymbolTree

/-- The depth of a parameter that does not match. -/
def matchNotFound : Int32 := 0

/-- The depth of a parameter whose type matches exactly. -/
def matchHighestDepth : Int32 := 1

/-- The depth of a parameter that takes anything. -/
def matchLowestDepth : Int32 := 1073741823

namespace Arena

/-! ## Links -/

/-- Redirects a link. -/
def setLink (a : Arena) (n : NodeId) (l : Link) (target : Option NodeId) : Arena :=
  a.update n fun d => d.setLink l target

/-! ## Variables -/

/-- Registers a variable with a node. -/
def addVariable (a : Arena) (n v : NodeId) : Except NodeError Arena :=
  if a.kind v = .variable_ then
    .ok (a.update n fun d => { d with variableNodes := d.variableNodes ++ [v] })
  else .error (.incompatibleChild (a.kind v))

/-- The number of variables registered with a node. -/
def variableCount (a : Arena) (n : NodeId) : Nat := (a.node n).variableNodes.length

/-- A registered variable, unless it was discarded. -/
def getVariable (a : Arena) (n : NodeId) (i : Nat) : Except NodeError (Option NodeId) :=
  match (a.node n).variableNodes[i]? with
  | some v => .ok (a.live (some v))
  | none => .error (.indexOutOfRange n i (a.variableCount n))

/-! ## Labels -/

/-- Kinds with which labels are registered. -/
def ownsLabels (k : Kind) : Bool := k = .function || k = .package || k = .program

/-- Registers a named label with a function, a package or a program.  A name is registered once. -/
def addLabel (a : Arena) (n l : NodeId) : Except NodeError Arena :=
  if a.kind l ≠ .label || !ownsLabels (a.kind n) then
    .error (.incompatibleParent (a.kind n) (a.kind l))
  else
    let name := (a.node l).text
    if name.isEmpty || ((a.node n).labels.lookup name).isSome then
      .error (.invalidData .addLabel .label)
    else .ok (a.update n fun d => { d with labels := d.labels ++ [(name, l)] })

/-- The label registered under a name, unless it was discarded. -/
def findLabel (a : Arena) (n : NodeId) (name : String) : Option NodeId :=
  a.live ((a.node n).labels.lookup name)

/-! ## Tables of a parameter match -/

/-- Makes the two tables of a parameter match. -/
def setParamSize (a : Arena) (n : NodeId) (size : Nat) : Except NodeError Arena :=
  let d := a.node n
  if d.kind ≠ .paramMatch then .error (.paramMatch .notAParamMatch)
  else if !d.paramDepth.isEmpty then .error (.paramMatch .sizedTwice)
  else if size = 0 then .error (.paramMatch .sizeZero)
  else .ok (a.update n fun d =>
    { d with
      paramDepth := List.replicate size matchNotFound
      paramIndex := List.replicate size 0 })

/-- The size of the tables. -/
def paramSize (a : Arena) (n : NodeId) : Nat := (a.node n).paramDepth.length

/-- How well parameter `j` is met. -/
def paramDepth (a : Arena) (n : NodeId) (j : Nat) : Except NodeError Int32 :=
  match (a.node n).paramDepth[j]? with
  | some depth => .ok depth
  | none => .error (.indexOutOfRange n j (a.paramSize n))

/-- Records how well parameter `j` is met. -/
def setParamDepth (a : Arena) (n : NodeId) (j : Nat) (depth : Int32) : Except NodeError Arena :=
  if j < a.paramSize n then
    .ok (a.update n fun d => { d with paramDepth := d.paramDepth.set j depth })
  else .error (.indexOutOfRange n j (a.paramSize n))

/-- The parameter to which argument `i` goes. -/
def paramIndex (a : Arena) (n : NodeId) (i : Nat) : Except NodeError Nat :=
  match (a.node n).paramIndex[i]? with
  | some j => .ok j
  | none => .error (.indexOutOfRange n i (a.node n).paramIndex.length)

/-- Records that argument `i` goes to parameter `j`. -/
def setParamIndex (a : Arena) (n : NodeId) (i j : Nat) : Except NodeError Arena :=
  let size := (a.node n).paramIndex.length
  if i < size && j < size then
    .ok (a.update n fun d => { d with paramIndex := d.paramIndex.set i j })
  else .error (.indexOutOfRange n (max i j) size)

end Arena

end SymbolTree
