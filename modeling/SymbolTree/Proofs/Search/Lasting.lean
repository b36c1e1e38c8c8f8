import SymbolTree.Proofs.Arena.Steady
import SymbolTree.Proofs.Search.Course

/-!
# Flags that searches leave alone

Searches set flags to mark what they came upon (`Flag.isTrace`).  All other flags were set when the
tree was built, and say something of the program: a search leaves them as they are, however it ends.

## Main statement

* `Search.Course.flag_eq` — a flag that is not one of searches says what it said.
-/

set_option autoImplicit false
namespace SymbolTree

namespace Search

variable {params : Option NodeId}

/-- The requests of a search set the flags of searches only. -/
theorem Effect.flag_eq {a b : Arena} (h : Effect params a b) (ha : a.Consistent) {n : NodeId}
    (hn : n.index < a.size) {f : Flag} (hf : f.isTrace = false) :
    (b.node n).flags.contains f = (a.node n).flags.contains f := by
  cases h with
  | flag hg h =>
    obtain ⟨-, -, rfl⟩ := Arena.setFlag_eq_ok_iff.1 h
    refine Arena.field_update (fun d => d.flags.contains f) ?_ n
    rw [FlagSet.contains_set, if_neg]
    rintro rfl
    rw [hg] at hf
    cases hf
  | typed h =>
    obtain ⟨-, -, rfl | rfl⟩ := Arena.setAttribute_eq_ok h
    · rfl
    · rw [Arena.field_update Node.flags rfl]
  | label h =>
    obtain ⟨-, -, -, rfl⟩ := Arena.addLabel_eq_ok h
    rw [Arena.field_update Node.flags rfl]
  | table m g g' => rw [Arena.retable, Arena.field_update Node.flags rfl]
  | create p s i hk => rw [Arena.node_push, if_neg (Nat.ne_of_lt hn)]
  | append hp hk hm h =>
    obtain ⟨_, _, he⟩ := Arena.Steady.node_setParent ha h n
    rw [he]
  | detach hp hk hm h =>
    obtain ⟨_, _, he⟩ := Arena.Steady.node_setParent ha h n
    rw [he]
  | discard hp hk h =>
    obtain ⟨-, rfl⟩ | ⟨-, -, -, rfl⟩ := Arena.discard_eq_ok h
    · rfl
    · rw [Arena.node_foldl_kill]

/-- A flag that is not one of searches says what it said. -/
theorem Course.flag_eq {c d : Context} (h : Course params c d) (hc : c.arena.Consistent)
    {n : NodeId} (hn : n.index < c.arena.size) {f : Flag} (hf : f.isTrace = false)
    (hp : f ≠ .packageReferenced) :
    (d.arena.node n).flags.contains f = (c.arena.node n).flags.contains f := by
  induction h with
  | refl => rfl
  | trans h _ ih ih' =>
    have hlt := Nat.lt_of_lt_of_le hn (h.frame hc).size_le
    exact (ih' (h.consistent hc) hlt).trans (ih hc hn)
  | effect h => exact h.flag_eq hc hn hf
  | build p h => rw [(Outline.grownFrom_build hc _ p).2.node n hn]
  | reference _ h =>
    obtain ⟨-, -, rfl⟩ := Arena.setFlag_eq_ok_iff.1 h
    exact Arena.field_update (fun d => d.flags.contains f) (by simp [hp]) n
  | aside => rfl
  | reject => rfl
  | remember => rfl
  | @link _ d _ l t hl _ _ ih =>
    refine (Arena.field_update (fun d => d.flags.contains f) ?_ n).trans (ih hc hn)
    rcases hl with rfl | rfl <;> rfl
  | attributes _ _ _ ih => exact ih hc hn
  | @lock _ d m _ ih =>
    rw [Arena.node, Arena.nodes_drop, ← Arena.node]
    exact ih (hc.lock m) hn
  | fresh _ ih => exact ih hc hn
  | expand _ ih => exact ih hc hn

end Search

end SymbolTree
