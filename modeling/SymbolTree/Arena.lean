import SymbolTree.Node

/-!
# The arena

All nodes of all trees live in one `Arena`, in the order of their creation.  Beside each node the
arena counts the locks on it; a locked node cannot be modified (`Arena.modifying`).

A request is either *checked*, a function to `Except NodeError` that answers with a new arena or
with a refusal, or a program in `Edit`, which keeps the arena it reached when a later step is
refused.

## Main statements

* `Arena.node_update` — updating one node leaves the others alone.
* `Arena.field_update`, `Arena.rel_node_update` — what an update keeps of one node, it keeps of all.
* `Arena.node_create` — creation only adds a node at the end.
* `Arena.modifying_eq_ok_iff` — what may be modified is what is alive and not locked.
-/

set_option autoImplicit false
namespace SymbolTree

/-- The nodes in the order of their creation, and the number of locks on each. -/
structure Arena where
  /-- The nodes. -/
  nodes : Array Node := #[]
  /-- How many locks are held on each node. -/
  locks : Array Nat := #[]
  deriving Repr, Inhabited

namespace Arena

/-! ## Reading -/

/-- The number of nodes ever created. -/
def size (a : Arena) : Nat := a.nodes.size

/-- What is stored for a node. -/
def node (a : Arena) (n : NodeId) : Node := a.nodes.getD n.index Node.absent

/-- The kind of a node. -/
def kind (a : Arena) (n : NodeId) : Kind := (a.node n).kind

/-- The node exists and was not discarded. -/
def isAlive (a : Arena) (n : NodeId) : Bool := (a.node n).alive

/-- The number of locks on a node. -/
def lockCount (a : Arena) (n : NodeId) : Nat := a.locks.getD n.index 0

/-- The node is locked. -/
def isLocked (a : Arena) (n : NodeId) : Bool := a.lockCount n ≠ 0

/-- The end of a link, seen only while that node is alive. -/
def live (a : Arena) (n : Option NodeId) : Option NodeId := n.filter a.isAlive

/-- The node to which a link leads, unless it was discarded. -/
def link (a : Arena) (n : NodeId) (l : Link) : Option NodeId := a.live ((a.node n).link l)

/-- The declaration that a name stands for. -/
def inst (a : Arena) (n : NodeId) : Option NodeId := a.link n .inst

/-- The type of a node. -/
def typeNode (a : Arena) (n : NodeId) : Option NodeId := a.link n .typeNode

/-- The node that lists the attributes of a declaration, unless it was discarded. -/
def attributeNode (a : Arena) (n : NodeId) : Option NodeId := a.live (a.node n).attributeNode

/-- The parent of a node. -/
def parent (a : Arena) (n : NodeId) : Option NodeId := (a.node n).parent

/-- The children of a node, in order. -/
def children (a : Arena) (n : NodeId) : List NodeId := (a.node n).children

/-- The position of a node. -/
def position (a : Arena) (n : NodeId) : Position := (a.node n).position

/-- Refuses to go on when the node was discarded or is locked. -/
def modifying (a : Arena) (n : NodeId) : Except NodeError Unit :=
  if !a.isAlive n then .error (.deadNode n)
  else if a.isLocked n then .error (.locked n (a.kind n))
  else .ok ()

theorem modifying_eq_ok_iff {a : Arena} {n : NodeId} :
    a.modifying n = .ok () ↔ a.isAlive n = true ∧ a.lockCount n = 0 := by
  unfold modifying isLocked
  cases a.isAlive n <;> by_cases h : a.lockCount n = 0 <;> simp [h]

/-! ## Writing -/

/-- Changes what is stored for one node. -/
def update (a : Arena) (n : NodeId) (f : Node → Node) : Arena :=
  { a with nodes := a.nodes.modify n.index f }

@[simp] theorem size_update (a : Arena) (n : NodeId) (f : Node → Node) :
    (a.update n f).size = a.size := by
  simp [update, size]

@[simp] theorem node_update (a : Arena) (n m : NodeId) (f : Node → Node) :
    (a.update n f).node m = if m = n ∧ n.index < a.size then f (a.node m) else a.node m := by
  by_cases h : m = n
  · subst h
    by_cases hlt : m.index < a.nodes.size <;>
      simp [update, node, size, Array.getElem_modify, hlt]
  · have hidx : ¬ n.index = m.index := fun e => h (by cases n; cases m; simp_all)
    simp [update, node, Array.getElem?_modify, h, hidx]

/-- What an update leaves alone in the node that it is about, it leaves alone in every node. -/
theorem field_update {β : Type} (g : Node → β) {a : Arena} {n : NodeId} {f : Node → Node}
    (hf : g (f (a.node n)) = g (a.node n)) (m : NodeId) :
    g ((a.update n f).node m) = g (a.node m) := by
  rw [node_update]
  split
  · next hm => rw [hm.1, hf]
  · rfl

/-- A relation that holds between a node and itself, and between the node that an update is about
and what becomes of it, holds between every node before and after the update. -/
theorem rel_node_update {r : Node → Node → Prop} (hr : ∀ d, r d d) {a : Arena} {n : NodeId}
    {f : Node → Node} (hf : r (a.node n) (f (a.node n))) (m : NodeId) :
    r (a.node m) ((a.update n f).node m) := by
  rw [node_update]
  split
  · next hm => rw [hm.1]; exact hf
  · exact hr _

@[simp] theorem lockCount_update (a : Arena) (n m : NodeId) (f : Node → Node) :
    (a.update n f).lockCount m = a.lockCount m := rfl

/-- Adds a node at the end. -/
def push (a : Arena) (d : Node) : NodeId × Arena :=
  (⟨a.nodes.size⟩, { nodes := a.nodes.push d, locks := a.locks.push 0 })

/-- Creates a detached node. -/
def create (a : Arena) (k : Kind) (p : Position) : NodeId × Arena :=
  a.push { kind := k, position := p }

theorem node_create (a : Arena) (k : Kind) (p : Position) (n : NodeId) :
    (a.create k p).2.node n =
      if n.index = a.size then { kind := k, position := p } else a.node n := by
  by_cases h : n.index = a.nodes.size <;> simp [create, push, node, size, Array.getElem?_push, h]

/-- Creates a detached node at the position of another. -/
def createReplacement (a : Arena) (n : NodeId) (k : Kind) : NodeId × Arena :=
  a.create k (a.position n)

/-- Copies a literal: its value, flags, attributes and links, and neither parent nor children. -/
def cloneBasicNode (a : Arena) (n : NodeId) : Except NodeError (NodeId × Arena) :=
  let d := a.node n
  if d.kind.isCloneable then
    .ok (a.push { d with parent := none, children := [], paramDepth := [], paramIndex := [],
                         alive := true })
  else .error (.invalidData .cloneBasicNode d.kind)

/-! ## Programs of requests -/

end Arena

/-- A program of requests on an arena.  When a request is refused the program ends there, and the
arena stays as the requests before it left it. -/
abbrev Edit (α : Type) := ExceptT NodeError (StateM Arena) α

namespace Edit

/-- A checked request as a program: when it is refused the arena is as before. -/
def checked {α : Type} (f : Arena → Except NodeError (α × Arena)) : Edit α :=
  ExceptT.mk fun a => match f a with
    | .ok (x, b) => (.ok x, b)
    | .error e => (.error e, a)

/-- A checked request that has no answer of its own. -/
def change (f : Arena → Except NodeError Arena) : Edit Unit :=
  checked fun a => (f a).map fun b => ((), b)

/-- Runs a program: its answer or its refusal, and the arena it leaves. -/
def exec {α : Type} (p : Edit α) (a : Arena) : Except NodeError α × Arena :=
  StateT.run (ExceptT.run p) a

end Edit

end SymbolTree
