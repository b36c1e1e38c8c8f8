import SymbolTree.Arena.Structure

/-!
# Outlines of trees

An `Outline` describes a tree as plain data; `Outline.build` creates its nodes.  A node takes its
file and line from the outline around it unless it gives its own.  Building stops at the first
refusal, or at the first part that describes no tree, and what was created until then stays.
-/

set_option autoImplicit false
namespace SymbolTree

/-- What an outline says about a single node. -/
structure NodeOutline where
  /-- The kind. -/
  kind : Kind
  /-- A name under which the node can be found afterwards. -/
  label : Option String := none
  /-- The file, if it differs from the one around it. -/
  file : Option String := none
  /-- The line, if it differs from the one around it. -/
  line : Option Int32 := none
  /-- The name or text. -/
  text : Option String := none
  /-- The value of an integer literal. -/
  int : Option Int64 := none
  /-- The value of a float literal. -/
  float : Option Float := none
  /-- The flags to set. -/
  flags : List Flag := []
  /-- The attributes to set; one that would stand beside a rival is left out. -/
  attributes : List Attribute := []

/-- A tree described as data. -/
inductive Outline where
  /-- The root, the outline of its attribute node, if it has one, and those of its children. -/
  | tree (root : NodeOutline) (attributeNode : Option Outline) (children : List Outline)
  /-- Something that could not be read as the outline of a tree, and the reason. -/
  | unreadable (reason : String)
  deriving Inhabited

/-- Why a tree cannot be built. -/
inductive BuildError where
  /-- The arena refuses a request. -/
  | refused (cause : NodeError)
  /-- A part of the outline describes no tree. -/
  | unreadable (reason : String)

/-- The wording of a cause. -/
def BuildError.message : BuildError → String
  | .refused cause => cause.message
  | .unreadable reason => reason

/-- The state of building: the arena, and the nodes that were given a label, the latest first. -/
structure Draft where
  /-- The arena. -/
  arena : Arena := {}
  /-- The labelled nodes. -/
  labels : List (String × NodeId) := []

/-- A program that builds. -/
abbrev Build (α : Type) := ExceptT BuildError (StateM Draft) α

namespace Build

/-- A value that the arena may refuse to give. -/
def check {α : Type} : Except NodeError α → Build α
  | .ok x => return x
  | .error e => throw (.refused e)

/-- A checked request on the arena. -/
def change (f : Arena → Except NodeError Arena) : Build Unit := do
  let s ← get
  let a ← check (f s.arena)
  set { s with arena := a }

/-- Creates a node and records its label. -/
def create (k : Kind) (p : Position) (label : Option String) : Build NodeId := do
  let s ← get
  let (n, a) := s.arena.create k p
  set { s with
    arena := a
    labels := match label with
      | some l => (l, n) :: s.labels
      | none => s.labels }
  return n

end Build

/-- The position of a node inside the outline at `p`. -/
def NodeOutline.place (o : NodeOutline) (p : Position) : Except NodeError Position :=
  let p := match o.file with
    | some f => { p with filename := f }
    | none => p
  match o.line with
  | some l => p.resetCounters l
  | none => .ok p

/-- Creates the node and sets all that the outline says about it. -/
def NodeOutline.build (o : NodeOutline) (p : Position) : Build NodeId := do
  let n ← Build.create o.kind p o.label
  o.text.forM fun s => Build.change (·.setText n s)
  o.int.forM fun v => Build.change (·.setInt64 n v)
  o.float.forM fun v => Build.change (·.setFloat64 n v)
  o.flags.forM fun f => Build.change (·.setFlag n f true)
  o.attributes.forM fun t => Build.change fun a => (·.2) <$> a.setAttribute n t true
  return n

mutual

/-- Builds a tree whose surroundings are at position `p`; the answer is its root. -/
def Outline.build : Outline → Position → Build NodeId
  | .unreadable reason, _ => throw (.unreadable reason)
  | .tree root attributeNode children, p => do
      let p ← Build.check (root.place p)
      let n ← root.build p
      Outline.buildAttributeNode attributeNode p n
      Outline.buildChildren children p n
      return n

/-- Builds the attribute node of `n`, if there is one. -/
def Outline.buildAttributeNode : Option Outline → Position → NodeId → Build Unit
  | none, _, _ => return
  | some o, p, n => do
      let m ← o.build p
      Build.change (·.setAttributeNode n (some m))

/-- Builds the children of `n`, each one wholly before it is attached. -/
def Outline.buildChildren : List Outline → Position → NodeId → Build Unit
  | [], _, _ => return
  | o :: os, p, n => do
      let m ← o.build p
      Build.change (·.appendChild n m)
      Outline.buildChildren os p n

end

end SymbolTree
