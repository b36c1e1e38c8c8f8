import SymbolTree.Arena

/-!
# Locks and guards

Locks nest: a node may be modified again when every lock on it was released.  A `Guard` stands for
one lock and releases it once, however often it is asked to.

## Main statement

* `Arena.lockCount_lock` — locking counts one more lock on that node and none on the others.
-/

set_option autoImplicit false
namespace SymbolTree

namespace Arena

/-- Puts one more lock on a node. -/
def lock (a : Arena) (n : NodeId) : Arena :=
  { a with locks := a.locks.modify n.index (· + 1) }

/-- Takes one lock off a node. -/
def unlock (a : Arena) (n : NodeId) : Except NodeError Arena :=
  if a.isLocked n then .ok { a with locks := a.locks.modify n.index (· - 1) }
  else .error (.notLocked n)

/-- Sets the number of locks on a node. -/
def setLockCount (a : Arena) (n : NodeId) (count : Nat) : Arena :=
  { a with locks := a.locks.modify n.index (fun _ => count) }

theorem lockCount_modify (a : Arena) (n m : NodeId) (f : Nat → Nat) :
    ({ a with locks := a.locks.modify n.index f } : Arena).lockCount m =
      if m = n ∧ n.index < a.locks.size then f (a.lockCount m) else a.lockCount m := by
  by_cases h : m = n
  · subst h
    by_cases hlt : m.index < a.locks.size <;> simp [lockCount, Array.getElem_modify, hlt]
  · have hidx : ¬ n.index = m.index := fun e => h (by cases n; cases m; simp_all)
    simp [lockCount, Array.getElem?_modify, h, hidx]

@[simp] theorem lockCount_lock (a : Arena) (n m : NodeId) :
    (a.lock n).lockCount m =
      if m = n ∧ n.index < a.locks.size then a.lockCount m + 1 else a.lockCount m :=
  lockCount_modify a n m (· + 1)

end Arena

/-- One lock on a node, or a guard that has already let go. -/
structure Guard where
  /-- The node that is held. -/
  node : Option NodeId
  deriving DecidableEq, Repr

namespace Guard

variable {a b : Arena} {n : NodeId} {g : Guard}

/-- Locks a node.  Locks are counted in 32 bits, and no guard is made on a node whose counter is
full. -/
def acquire (a : Arena) (n : NodeId) : Option (Guard × Arena) :=
  if a.lockCount n + 1 < UInt32.size then some (⟨some n⟩, a.lock n) else none

/-- Lets go of the node.  A second time nothing happens. -/
def release (g : Guard) (a : Arena) : Except NodeError Unit × Guard × Arena :=
  match g.node with
  | none => (.ok (), g, a)
  | some n => match a.unlock n with
    | .ok b => (.ok (), ⟨none⟩, b)
    | .error e => (.error e, ⟨none⟩, a)

/-- Gives up the guard; the arena is the one after its release. -/
def drop (g : Guard) (a : Arena) : Arena := (g.release a).2.2

end Guard

end SymbolTree
