import SymbolTree.Arena.Lock
import SymbolTree.Arena.Payload

/-!
# Parents and children

A node has at most one parent and stands once among that parent's children.  Every change of this
relation goes through `Arena.setParent`, which makes all its checks before it changes anything.

`Arena.preorder` and `Arena.owned` list what hangs below a node; they follow as many levels as the
arena has nodes, which is enough for every tree.

## Main definitions

* `Edit.setChild`, `Edit.replaceWith` — when the second of their two steps is refused, the first
  is undone.
-/

set_option autoImplicit false
namespace SymbolTree

namespace Arena

/-! ## Looking around -/

/-- The child at a place. -/
def child (a : Arena) (n : NodeId) (i : Nat) : Except NodeError NodeId :=
  match (a.children n)[i]? with
  | some c => .ok c
  | none => .error (.indexOutOfRange n i (a.children n).length)

/-- The first child of a kind. -/
def findFirstChild (a : Arena) (n : NodeId) (k : Kind) : Option NodeId :=
  (a.children n).find? (fun c => a.kind c = k)

/-- The first child of a kind after the given one, or of all if none is given.  There is none after
a node that is no child. -/
def findNextChild (a : Arena) (n : NodeId) (start : Option NodeId) (k : Kind) : Option NodeId :=
  match start with
  | none => a.findFirstChild n k
  | some s => ((a.children n).dropWhile (· ≠ s)).tail.find? (fun c => a.kind c = k)

/-- The place of a node among the children of its parent. -/
def offset (a : Arena) (n : NodeId) : Except NodeError Nat :=
  match a.parent n with
  | none => .error (.noParent .getOffset)
  | some p => match (a.children p).idxOf? n with
    | some i => .ok i
    | none => .error (.noParent .getOffset)

/-- The nodes above a node, the nearest first, followed for at most `fuel` steps. -/
def ancestorsFrom (a : Arena) : Nat → NodeId → List NodeId
  | 0, _ => []
  | fuel + 1, n => match a.parent n with
    | none => []
    | some p => p :: a.ancestorsFrom fuel p

/-- The nodes above a node, the nearest first. -/
def ancestors (a : Arena) (n : NodeId) : List NodeId := a.ancestorsFrom a.size n

/-- The nearest node above of one of the given kinds. -/
def findAncestor (a : Arena) (n : NodeId) (kinds : List Kind) : Option NodeId :=
  (a.ancestors n).find? (fun m => kinds.contains (a.kind m))

/-- A node and what hangs below it, each node before its children, down to `fuel` levels. -/
def preorderFrom (a : Arena) : Nat → NodeId → List NodeId
  | 0, _ => []
  | fuel + 1, n => n :: (a.children n).flatMap (a.preorderFrom fuel)

/-- A node and all that hangs below it, each node before its children. -/
def preorder (a : Arena) (n : NodeId) : List NodeId := a.preorderFrom (a.size + 1) n

/-! ## Attaching and detaching -/

/-- The new parent, if one is given, is of a kind that owns children. -/
def checkParentKind (a : Arena) (child : NodeId) (parent : Option NodeId) :
    Except NodeError Unit :=
  match parent with
  | some p =>
      if (a.kind p).canBeParent then .ok ()
      else .error (.incompatibleParent (a.kind p) (a.kind child))
  | none => .ok ()

/-- The place, if one is given, is at most the number of the other children. -/
def checkPlace (a : Arena) (child : NodeId) (parent : Option NodeId) (index : Option Nat) :
    Except NodeError Unit :=
  match parent, index with
  | some p, some i =>
      let others := (a.children p).length - (if a.parent child = some p then 1 else 0)
      if i ≤ others then .ok () else .error (.indexOutOfRange p i others)
  | _, _ => .ok ()

/-- Takes a node out of the children of its parent. -/
def detach (a : Arena) (child : NodeId) : Arena :=
  match a.parent child with
  | none => a
  | some old =>
      (a.update old fun d => { d with children := d.children.erase child }).update child
        fun d => { d with parent := none }

/-- Puts a detached node among the children of another. -/
def attach (a : Arena) (child parent : NodeId) (index : Option Nat) : Arena :=
  (a.update parent fun d =>
    { d with children := match index with
        | some i => d.children.insertIdx i child
        | none => d.children ++ [child] }).update child fun d => { d with parent := some parent }

/-- Moves a node under another, at a place or at the end, or detaches it.  The node, its new parent
and its old one must be free to change.  Without a place, a node that is already there stays. -/
def setParent (a : Arena) (child : NodeId) (parent : Option NodeId) (index : Option Nat) :
    Except NodeError Arena := do
  a.modifying child
  if let some p := parent then
    a.modifying p
  let old := a.parent child
  if let some o := old then
    if old ≠ parent then
      a.modifying o
  if parent = old && index.isNone then
    return a
  a.checkParentKind child parent
  unless (a.kind child).canBeChild do
    throw (.incompatibleChild (a.kind child))
  a.checkPlace child parent index
  match parent with
  | some p => return (a.detach child).attach child p index
  | none => return a.detach child

/-- Moves a node under another, after its children. -/
def appendChild (a : Arena) (parent child : NodeId) : Except NodeError Arena :=
  a.setParent child (some parent) none

/-- Moves a node under another, at a place. -/
def insertChild (a : Arena) (parent : NodeId) (index : Nat) (child : NodeId) :
    Except NodeError Arena :=
  a.setParent child (some parent) (some index)

/-- Detaches the child at a place. -/
def deleteChild (a : Arena) (parent : NodeId) (index : Nat) :
    Except NodeError (NodeId × Arena) := do
  let c ← a.child parent index
  return (c, ← a.setParent c none none)

/-! ## Discarding -/

/-- A node and what it owns, down to `fuel` levels.  A dead node is listed and not entered.  The
attribute node comes before the children and the last child before the first. -/
def ownedFrom (a : Arena) : Nat → NodeId → List NodeId
  | 0, _ => []
  | fuel + 1, n =>
      if a.isAlive n then
        n :: ((a.node n).attributeNode.toList ++ (a.children n).reverse).flatMap (a.ownedFrom fuel)
      else [n]

/-- A node and all that it owns. -/
def owned (a : Arena) (n : NodeId) : List NodeId := a.ownedFrom (a.size + 1) n

/-- Marks a node as discarded. -/
def kill (a : Arena) (n : NodeId) : Arena := a.update n fun d => { d with alive := false }

/-- Retires a detached node with all that it owns.  A lock on any of these prevents it. -/
def discard (a : Arena) (n : NodeId) : Except NodeError Arena :=
  if !a.isAlive n then .ok a
  else if (a.parent n).isSome then .error (.invalidData .discard (a.kind n))
  else
    let nodes := a.owned n
    match nodes.find? a.isLocked with
    | some m => .error (.locked m (a.kind m))
    | none => .ok (nodes.foldl kill a)

end Arena

/-! ## Programs of several steps -/

namespace Edit

/-- Puts a node in the place of the child at `index`, and answers with the child that was there.
When the node cannot be put there, the old child is put back. -/
def setChild (parent : NodeId) (index : Nat) (child : NodeId) : Edit NodeId := do
  let previous ← checked (·.deleteChild parent index)
  try
    change (·.insertChild parent index child)
  catch e =>
    change (·.insertChild parent index previous)
    throw e
  return previous

/-- Runs a program while the locks on a node are set aside, and puts them back whatever happens. -/
def withoutLocks {α : Type} (n : NodeId) (p : Edit α) : Edit α :=
  ExceptT.mk fun a =>
    let (r, b) := p.exec (a.setLockCount n 0)
    (r, b.setLockCount n (a.lockCount n))

/-- Puts another node in the place of a node.  The parent may be locked, since the number of its
children stays the same. -/
def replaceWith (n replacement : NodeId) : Edit Unit := do
  match (← get).parent n with
  | none => throw (.noParent .replaceWith)
  | some p =>
      let i ← checked fun a => return (← a.offset n, a)
      let _ ← withoutLocks p (setChild p i replacement)

/-- Sets or clears an attribute on a node and on all that hangs below it, up to the first refusal.
The answer is `false` when a rival kept some node from taking it. -/
def setAttributeTree (n : NodeId) (t : Attribute) (value : Bool) : Edit Bool := do
  ((← get).preorder n).foldlM
    (fun all m => return (← checked (·.setAttribute m t value)) && all) true

/-- Takes the child at a place out and discards it if it is unknown; any other is cleaned. -/
def cleanChild (clean : NodeId → Edit Unit) (n : NodeId) (i : Nat) : Edit Unit := do
  let c ← checked fun a => return (← a.child n i, a)
  if (← get).kind c = .unknown then
    let _ ← checked (·.deleteChild n i)
    change (·.discard c)
  else clean c

/-- Goes through the children of `n` that come before a place, from the last to the first.  Each is
looked up when its turn comes. -/
def cleanChildren (clean : NodeId → Edit Unit) (n : NodeId) : Nat → Edit Unit
  | 0 => return
  | i + 1 => do
      cleanChild clean n i
      cleanChildren clean n i

/-- Removes and discards every unknown node below `n`, down to `fuel` levels and up to the first
refusal. -/
def cleanTreeFrom : Nat → NodeId → Edit Unit
  | 0, _ => return
  | fuel + 1, n => do
      cleanChildren (cleanTreeFrom fuel) n ((← get).children n).length

/-- Removes and discards every unknown node below `n`. -/
def cleanTree (n : NodeId) : Edit Unit := do
  cleanTreeFrom ((← get).size + 1) n

end Edit

end SymbolTree
