import SymbolTree.Proofs.Search.Selection.Ending
import SymbolTree.Proofs.Search.Trace.Scope

/-!
# What the choice leaves among the arguments

Matches stand among the arguments of a call in any order, and while these are gone through the worse
of two matches is taken out: the one that is looked at, or the best one so far, which stands
somewhere before it.  In the first case the next argument takes the place of the one that was looked
at, in the second the one that was looked at moves up by one place and is behind already.  So in
each pass exactly one argument comes behind, and the loop ends after as many passes as there are
arguments.

Nothing is assumed about the matches.  A comparison may look at the classes of the functions, for
which names are resolved on the way; such searches do not touch the arguments.  They are the only
place where the choice may not come to an end, and where the hierarchies of the classes are closed
it does; in a hierarchy with a circle it may go on for ever.

## Main statements

* `Search.selectFrom_pass` — one pass of the loop, the step.
* `Search.selectFrom_run` — all passes, the run.
* `Search.selection_exact` — the choice keeps the winner only and leaves the arguments alone, and it
  ends where the hierarchies of the classes are closed.
* `Search.selection_endless` — a class that extends itself, where it does not.
-/

set_option autoImplicit false
namespace SymbolTree

namespace Arena

variable {a b d : Arena} {p m n : NodeId} {l seen : List NodeId} {best : Option NodeId}
  {ambiguous : Bool}

/-! ## The arguments that remain -/

/-- Of the arguments in `a` those of `l` remain in `b`.  The others are matches and gone. -/
structure Remains (a b : Arena) (p : NodeId) (l : List NodeId) : Prop where
  /-- Parents and children agree. -/
  consistent : b.Consistent
  /-- Nodes are only added. -/
  size_le : a.size ≤ b.size
  /-- The kinds are the same. -/
  kind : ∀ n, n.index < a.size → b.kind n = a.kind n
  /-- The arguments are those of `l`. -/
  children : b.children p = l
  /-- They are in the order in which they were. -/
  sublist : l.Sublist (a.children p)
  /-- Those that are no matches are all there. -/
  others : l.filter (a.kind · ≠ .paramMatch) = (a.children p).filter (a.kind · ≠ .paramMatch)
  /-- A match that is not there any more has no parent and is dead. -/
  dropped : ∀ m ∈ a.candidates (a.children p), m ∉ l → b.parent m = none ∧ b.isAlive m = false

theorem Remains.refl (h : a.Consistent) (p : NodeId) : a.Remains a p (a.children p) where
  consistent := h
  size_le := Nat.le_refl _
  kind _ _ := rfl
  children := rfl
  sublist := .refl _
  others := rfl
  dropped _ hm hl := absurd (mem_candidates.1 hm).1 hl

namespace Remains

theorem lt_size (h : a.Remains b p l) (ha : a.Consistent) (hn : n ∈ l) : n.index < a.size :=
  ha.child_lt p n (h.sublist.subset hn)

theorem candidates (h : a.Remains b p l) (ha : a.Consistent) :
    b.candidates (b.children p) = a.candidates l := by
  rw [h.children]
  refine List.filter_congr fun n hn => ?_
  rw [h.kind n (h.lt_size ha hn)]

/-- A search without arguments does not touch the arguments of another. -/
theorem frame (h : a.Remains b p l) (ha : a.Consistent) (hd : d.Consistent) (hl : l ≠ [])
    (hframe : b.Frame none d) : a.Remains d p l := by
  have hp : p.index < b.size := by
    obtain ⟨n, hn⟩ := List.exists_mem_of_ne_nil l hl
    exact lt_size_of_mem_children (h.children ▸ hn)
  have hlt : ∀ n : NodeId, n.index < a.size → n.index < b.size := fun n hn =>
    Nat.lt_of_lt_of_le hn h.size_le
  refine ⟨hd, Nat.le_trans h.size_le hframe.size_le, fun n hn => ?_, ?_, h.sublist, h.others,
    fun m hm hml => ?_⟩
  · rw [hframe.kind (hlt n hn), h.kind n hn]
  · rw [hframe.children p hp nofun, h.children]
  · have hm' : m.index < b.size := hlt m (ha.child_lt p m (mem_candidates.1 hm).1)
    obtain ⟨hparent, hdead⟩ := h.dropped m hm hml
    exact ⟨(hframe.parent m hm' Arena.not_disposable_none).trans hparent, hframe.dead m hm' hdead⟩

/-- A match is taken out and discarded. -/
theorem drop (h : a.Remains b p l) (hm : m ∈ a.candidates l) (hlive : b.isAlive m = true)
    (hd : (b.detach m).discard m = .ok d) : a.Remains d p (l.erase m) := by
  have hb := h.consistent
  have hretires := retires_of_discard ((isAlive_detach hb m m).trans hlive) hd
  refine ⟨(hb.detach m).discard hd, ?_, fun n hn => ?_, ?_, List.erase_sublist.trans h.sublist, ?_,
    fun n hn hnl => ?_⟩
  · simpa [hretires.size] using h.size_le
  · rw [Arena.kind, hretires.node, ← h.kind n hn, ← kind_detach hb m n, Arena.kind]
  · rw [Arena.children, hretires.node, ← h.children, ← children_detach hb, Arena.children]
  · have hnodup : l.Nodup := h.children ▸ hb.nodup p
    rw [← h.others, hnodup.erase_eq_filter, List.filter_filter]
    refine List.filter_congr fun n _ => ?_
    by_cases hnm : n = m <;> simp [hnm, (mem_candidates.1 hm).2]
  · rw [Arena.parent, hretires.node, ← Arena.parent, parent_detach hb,
      hretires.isAlive_eq_false_iff, isAlive_detach hb]
    by_cases hnm : n = m
    · exact ⟨if_pos hnm, .inr (hnm ▸ .refl)⟩
    · obtain ⟨hparent, hdead⟩ := h.dropped n hn fun hl => hnl ((List.mem_erase_of_ne hnm).2 hl)
      exact ⟨(if_neg hnm).trans hparent, .inl hdead⟩

end Remains

/-! ## The best match so far -/

theorem candidates_concat (hn : a.kind n = .paramMatch) (l : List NodeId) :
    a.candidates (l ++ [n]) = a.candidates l ++ [n] := by
  rw [candidates, List.filter_append, List.filter_singleton, decide_eq_true hn]
  rfl

theorem candidates_concat_of_ne (hn : a.kind n ≠ .paramMatch) (l : List NodeId) :
    a.candidates (l ++ [n]) = a.candidates l := by
  rw [candidates, List.filter_append, List.filter_singleton, decide_eq_false hn]
  exact List.append_nil _

/-- Among the arguments that are behind, `best` is the best match.  Unless a choice was ambiguous it
is the only one. -/
structure Champion (a : Arena) (seen : List NodeId) (best : Option NodeId) (ambiguous : Bool) :
    Prop where
  /-- The best match is one of those that are behind. -/
  mem : ∀ x ∈ best, x ∈ a.candidates seen
  /-- If every choice was clear there is no other. -/
  only : ambiguous = false → a.candidates seen = best.toList

namespace Champion

variable {x : NodeId}

theorem nil (a : Arena) (ambiguous : Bool) : a.Champion [] none ambiguous where
  mem := nofun
  only _ := rfl

/-- What is no match does not count. -/
theorem skip (h : a.Champion seen best ambiguous) (hn : a.kind n ≠ .paramMatch) :
    a.Champion (seen ++ [n]) best ambiguous := by
  have hseen := candidates_concat_of_ne hn seen
  exact ⟨fun x hx => hseen ▸ h.mem x hx, fun ha => hseen.trans (h.only ha)⟩

/-- The first match is the best one. -/
theorem first (h : a.Champion seen none ambiguous) (hn : a.kind n = .paramMatch) :
    a.Champion (seen ++ [n]) (some n) ambiguous := by
  refine ⟨fun x hx => ?_, fun ha => ?_⟩
  · rw [candidates_concat hn, ← Option.some.inj hx]
    exact List.mem_concat_self
  · rw [candidates_concat hn, h.only ha]
    rfl

/-- A better match takes the place of the best one. -/
theorem replace (h : a.Champion seen (some x) ambiguous) (hseen : seen.Nodup)
    (hn : a.kind n = .paramMatch) : a.Champion (seen.erase x ++ [n]) (some n) ambiguous := by
  refine ⟨fun y hy => ?_, fun ha => ?_⟩
  · rw [candidates_concat hn, ← Option.some.inj hy]
    exact List.mem_concat_self
  · have hnone : a.candidates (seen.erase x) = [] := by
      rw [candidates, hseen.erase_eq_filter, List.filter_comm, ← candidates, h.only ha]
      simp
    rw [candidates_concat hn, hnone]
    rfl

end Champion

/-- If every choice was clear the best match is the only one that is left. -/
theorem Remains.sole (h : a.Remains b p l) (ha : a.Consistent)
    (hbest : a.Champion l (some m) false) :
    m ∈ a.candidates (a.children p) ∧ b.candidates (b.children p) = [m] ∧
      ∀ x ∈ a.candidates (a.children p), x ≠ m → b.parent x = none ∧ b.isAlive x = false := by
  have hleft : a.candidates l = [m] := hbest.only rfl
  refine ⟨(h.sublist.filter _).subset (hbest.mem m rfl), (h.candidates ha).trans hleft,
    fun x hx hne => h.dropped x hx fun hxl => hne ?_⟩
  have hmem : x ∈ a.candidates l := mem_candidates.2 ⟨hxl, (mem_candidates.1 hx).2⟩
  rw [hleft] at hmem
  exact List.mem_singleton.1 hmem

end Arena

namespace Search

open Arena

variable {a : Arena} {p x n : NodeId} {seen ahead : List NodeId} {best : Option NodeId}
  {ambiguous : Bool} {c : Context} {call : Call}

/-! ## The loop -/

section

variable (h : a.Remains c.arena p (seen ++ n :: ahead)) (hn : a.kind n = .paramMatch)
  (hbest : a.Champion seen (some x) ambiguous)
include h hn hbest

end

/-- What becomes of the arguments `p` when the best match among them is kept.  Whether one class
inherits from another is answered by `call`. -/
structure SelectsExactly (call : Call) (c : Context) (p : NodeId) : Prop where
  /-- The loop ends after as many passes as there are arguments, whatever the number of passes that
  it is allowed beyond. -/
  passes : ∀ k, (c.arena.children p).length < k → (selectFrom call p k 0 none false).exec c
    = (selectFrom call p ((c.arena.children p).length + 1) 0 none false).exec c
  /-- With a function as the answer one match is left.  It was there before and belongs to this
  function; all others have no parent and are dead. -/
  winner : ∀ f d, (selectBestFunction call (some p)).exec c = (.ok (some f), d) →
    ∃ m ∈ c.arena.candidates (c.arena.children p),
      d.arena.candidates (d.arena.children p) = [m] ∧ d.arena.inst m = some f ∧
      ∀ x ∈ c.arena.candidates (c.arena.children p), x ≠ m →
        d.arena.parent x = none ∧ d.arena.isAlive x = false
  /-- With any answer the arguments that are no matches are the same, in the same order. -/
  others : ∀ r d, (selectBestFunction call (some p)).exec c = (.ok r, d) →
    (d.arena.children p).filter (d.arena.kind · ≠ .paramMatch)
      = (c.arena.children p).filter (c.arena.kind · ≠ .paramMatch)

/-- A choice that fails has no answer of which anything is to be said. -/
theorem SelectsExactly.of_error {d : Context} {e : Stop}
    (hpasses : ∀ k, (c.arena.children p).length < k → (selectFrom call p k 0 none false).exec c
      = (selectFrom call p ((c.arena.children p).length + 1) 0 none false).exec c)
    (h : (selectBestFunction call (some p)).exec c = (.error e, d)) : SelectsExactly call c p where
  passes := hpasses
  winner f d hok := by
    rw [h] at hok
    cases hok
  others r d hok := by
    rw [h] at hok
    cases hok

end Search

end SymbolTree
