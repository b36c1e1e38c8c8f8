import SymbolTree.Proofs.Arena.Forest
import SymbolTree.Proofs.Arena.Guarding

/-!
# Putting a node in the place of another

A node is replaced although its parent may be locked, since a loop over the children of a locked
node counts on their number and on their places only.  The replacement takes the old child out,
looks for the new one wherever it stands, and puts it at the place that became free.

When the new child comes from elsewhere, or is the old one again, this is the exchange of one entry
of a list (`Arena.KeepsShape`).  When it is another child of the same parent it leaves a place of
its own behind: the list gets shorter, and what stood behind moves up.

## Main statements

* `Arena.children_exchange` — the children of the parent after an exchange.
* `replaceWith_keepsShape_iff` — a granted replacement keeps the shape of the parent unless the
  replacement is another child of it.
* `replaceWith_shrinks` — below a locked list, too.
-/

set_option autoImplicit false
namespace SymbolTree

namespace Arena

variable {a b d : Arena} {p n m : NodeId} {i : Nat}

/-- The node `p` has as many children in `b` as it has in `a`, `m` is the one at place `i`, and at
all other places stands what stood there. -/
structure KeepsShape (a b : Arena) (p : NodeId) (i : Nat) (m : NodeId) : Prop where
  /-- There are as many children. -/
  length : (b.children p).length = (a.children p).length
  /-- The new child is at its place. -/
  placed : (b.children p)[i]? = some m
  /-- The other children are at theirs. -/
  others : ∀ j, j ≠ i → (b.children p)[j]? = (a.children p)[j]?

/-- One entry of the list of children was exchanged. -/
theorem KeepsShape.of_set (hi : i < (a.children p).length)
    (hb : b.children p = (a.children p).set i m) : a.KeepsShape b p i m where
  length := by rw [hb, List.length_set]
  placed := by rw [hb, List.getElem?_set_self hi]
  others j hj := by rw [hb, List.getElem?_set_ne (Ne.symm hj)]

/-- The old child is taken out of the list of children, and so is the new one, before the new one is
put at the place, which is one of those that are left or the end. -/
theorem children_exchange (h : a.Consistent) (hd : a.deleteChild p i = .ok (n, d))
    (hb : d.insertChild p i m = .ok b) :
    i ≤ (((a.children p).eraseIdx i).erase m).length ∧
      b.children p = (((a.children p).eraseIdx i).erase m).insertIdx i m := by
  obtain ⟨hget, hd⟩ := deleteChild_eq_ok hd
  obtain ⟨hi, hat⟩ := List.getElem?_eq_some_iff.1 hget
  have hparent : a.parent n = some p := (h.mem_children p n).1 (List.mem_of_getElem? hget)
  have hleft : (a.detach n).children p = (a.children p).eraseIdx i := by
    rw [children_detach h, ← hat]
    exact (h.nodup p).erase_getElem i hi
  obtain ⟨-, -, -, hd⟩ := setParent_eq_ok hd
  obtain ⟨hm, hp, -, hb⟩ := setParent_eq_ok hb
  obtain ⟨hstay, -⟩ | ⟨-, -, -, rfl⟩ := relocate_eq_ok hd
  · rw [hparent] at hstay
    cases hstay
  · rw [Option.elim_none] at hm hp hb
    obtain ⟨-, hplace, -⟩ | ⟨-, -, hplace, rfl⟩ := relocate_eq_ok hb
    · cases hplace
    · have hsize : ∀ {x}, (a.detach n).modifying x = .ok () →
          x.index < ((a.detach n).detach m).size := fun hx => by
        simpa using lt_size_of_modifying hx
      rw [← hleft]
      refine ⟨(checkPlace_eq_ok_iff (h.detach n)).1 hplace p rfl i rfl, ?_⟩
      rw [Option.elim_some, children_attach (hsize hm) (hsize (hp p rfl)), if_pos rfl, place,
        children_detach (h.detach n)]

/-- What comes from elsewhere, or is the old child, takes the place of the old child. -/
theorem keepsShape_exchange (h : a.Consistent) (hd : a.deleteChild p i = .ok (n, d))
    (hb : d.insertChild p i m = .ok b) (hm : m = n ∨ a.parent m ≠ some p) :
    a.KeepsShape b p i m := by
  obtain ⟨hi, hat⟩ := List.getElem?_eq_some_iff.1 (deleteChild_eq_ok hd).1
  have hgone : m ∉ (a.children p).eraseIdx i := by
    rcases hm with rfl | hm
    · rw [← (h.nodup p).erase_getElem i hi, hat]
      exact (h.nodup p).not_mem_erase
    · exact fun hmem => hm ((h.mem_children p m).1 (List.mem_of_mem_eraseIdx hmem))
  refine .of_set hi ?_
  rw [(children_exchange h hd hb).2, List.erase_of_not_mem hgone,
    List.insertIdx_eraseIdx_self (Nat.ne_of_lt hi)]

/-- Another child of the same parent leaves its own place, too. -/
theorem length_exchange_of_sibling (h : a.Consistent) (hd : a.deleteChild p i = .ok (n, d))
    (hb : d.insertChild p i m = .ok b) (hne : m ≠ n) (hm : a.parent m = some p) :
    (b.children p).length + 1 = (a.children p).length := by
  obtain ⟨hi, hat⟩ := List.getElem?_eq_some_iff.1 (deleteChild_eq_ok hd).1
  obtain ⟨hplace, hchildren⟩ := children_exchange h hd hb
  have hmem : m ∈ (a.children p).eraseIdx i := by
    rw [← (h.nodup p).erase_getElem i hi, hat]
    exact (List.mem_erase_of_ne hne).2 ((h.mem_children p m).2 hm)
  have hlength := List.length_erase_of_mem hmem
  have hpos := List.length_pos_of_mem hmem
  rw [List.length_eraseIdx_of_lt hi] at hlength hpos
  rw [hchildren, List.length_insertIdx_of_le_length hplace]
  omega

/-- An exchange keeps the shape of the parent unless the new child is another one of it. -/
theorem keepsShape_exchange_iff (h : a.Consistent) (hd : a.deleteChild p i = .ok (n, d))
    (hb : d.insertChild p i m = .ok b) :
    a.KeepsShape b p i m ↔ m = n ∨ a.parent m ≠ some p := by
  refine ⟨fun hshape => ?_, keepsShape_exchange h hd hb⟩
  by_contra hm
  rw [not_or, not_not] at hm
  have hlength := length_exchange_of_sibling h hd hb hm.1 hm.2
  rw [hshape.length] at hlength
  omega

end Arena

/-- A granted replacement takes the node out and puts the other one in its place, while the locks on
the parent are set aside. -/
theorem Edit.replaceWith_eq_ok {a b : Arena} {n m : NodeId}
    (hr : (replaceWith n m).exec a = (.ok (), b)) :
    ∃ p i d e, a.parent n = some p ∧ (a.children p)[i]? = some n ∧
      (a.setLockCount p 0).deleteChild p i = .ok (n, d) ∧ d.insertChild p i m = .ok e ∧
      b.nodes = e.nodes := by
  rw [exec_replaceWith] at hr
  split at hr
  · cases hr
  · next p hp =>
    split at hr
    · cases hr
    · next i hi =>
      cases hs : (setChild p i m).exec (a.setLockCount p 0) with
      | mk r e =>
        rw [hs] at hr
        cases r with
        | error e => cases hr
        | ok previous =>
          cases hr
          obtain ⟨d, hd, he⟩ := setChild_eq_ok hs
          have hget : (a.children p)[i]? = some n := Arena.getElem?_of_offset hp hi
          obtain rfl : n = previous :=
            Option.some.inj (hget.symm.trans (Arena.deleteChild_eq_ok hd).1)
          exact ⟨p, i, d, e, hp, hget, hd, he, rfl⟩

/-- **A replacement keeps the shape of the parent unless it is another child of it**, in any arena
that can be reached and whether or not the parent is locked.  In every case no number of locks
changes; a child that is put in the place of another leaves the parent with one child less. -/
theorem replaceWith_keepsShape_iff (history : List Command) (n m : NodeId) (b : Arena)
    (hr : (Command.replaceWith n m).run.exec (after history) = (.ok (), b)) :
    b.lockCount = (after history).lockCount ∧
      ∃ p i, (after history).parent n = some p ∧ ((after history).children p)[i]? = some n ∧
        ((after history).KeepsShape b p i m ↔ m = n ∨ (after history).parent m ≠ some p) ∧
        (m ≠ n → (after history).parent m = some p →
          (b.children p).length + 1 = ((after history).children p).length) := by
  have h := after_invariant Arena.consistent_empty Command.keeps_consistent history
  generalize after history = a at h hr ⊢
  have hlocks := (Command.replaceWith n m).lockCount_exec rfl a
  rw [hr] at hlocks
  refine ⟨hlocks, ?_⟩
  obtain ⟨p, i, d, e, hp, hget, hd, he, hnodes⟩ := Edit.replaceWith_eq_ok hr
  have hchildren : b.children = e.children := by
    funext x
    rw [Arena.children, Arena.children, Arena.node, Arena.node, hnodes]
  have hshape : a.KeepsShape b p i m ↔ (a.setLockCount p 0).KeepsShape e p i m := by
    constructor
    · rintro ⟨hlength, hplaced, hothers⟩
      rw [hchildren] at hlength hplaced hothers
      exact ⟨hlength, hplaced, hothers⟩
    · rintro ⟨hlength, hplaced, hothers⟩
      rw [← hchildren] at hlength hplaced hothers
      exact ⟨hlength, hplaced, hothers⟩
  have ha := h.setLockCount p 0
  refine ⟨p, i, hp, hget, hshape.trans (Arena.keepsShape_exchange_iff ha hd he), fun hne hm => ?_⟩
  have hlength := Arena.length_exchange_of_sibling ha hd he hne hm
  rw [hchildren]
  exact hlength

/-- A locked list of three names, and a name outside of it. -/
def lockedListHistory : List Command :=
  [.create .list {}, .create .identifier {}, .create .identifier {}, .create .identifier {},
   .create .identifier {}, .appendChild ⟨0⟩ ⟨1⟩, .appendChild ⟨0⟩ ⟨2⟩, .appendChild ⟨0⟩ ⟨3⟩,
   .lock ⟨0⟩]

/-- The second name is replaced by the one outside. -/
theorem replaceWith_keepsShape_locked :
    (after lockedListHistory).isLocked ⟨0⟩ = true ∧
      (Command.replaceWith ⟨2⟩ ⟨4⟩).run.exec (after lockedListHistory)
        = (.ok (), ((Command.replaceWith ⟨2⟩ ⟨4⟩).run.exec (after lockedListHistory)).2) ∧
      (after lockedListHistory).KeepsShape
        ((Command.replaceWith ⟨2⟩ ⟨4⟩).run.exec (after lockedListHistory)).2 ⟨0⟩ 1 ⟨4⟩ := by
  have hr : (Command.replaceWith ⟨2⟩ ⟨4⟩).run.exec (after lockedListHistory)
      = (.ok (), ((Command.replaceWith ⟨2⟩ ⟨4⟩).run.exec (after lockedListHistory)).2) :=
    Prod.ext rfl rfl
  obtain ⟨-, p, i, hp, hget, hshape, -⟩ :=
    replaceWith_keepsShape_iff lockedListHistory ⟨2⟩ ⟨4⟩ _ hr
  have hparent : (after lockedListHistory).parent ⟨2⟩ = some ⟨0⟩ := by decide +kernel
  obtain rfl : p = ⟨0⟩ := Option.some.inj (hp.symm.trans hparent)
  have hchildren : (after lockedListHistory).children ⟨0⟩ = [⟨1⟩, ⟨2⟩, ⟨3⟩] := by decide +kernel
  obtain rfl : i = 1 := by
    rw [hchildren] at hget
    obtain _ | _ | _ | i := i
    · cases hget
    · rfl
    · cases hget
    · cases hget
  exact ⟨by decide +kernel, hr, hshape.2 (.inr (by decide +kernel))⟩

/-- The first name of the locked list is replaced by the second: the list gets shorter, so that the
third name is no longer where a loop over the list would look for it. -/
theorem replaceWith_shrinks :
    (after lockedListHistory).isLocked ⟨0⟩ = true ∧
      (after lockedListHistory).children ⟨0⟩ = [⟨1⟩, ⟨2⟩, ⟨3⟩] ∧
      ((Command.replaceWith ⟨1⟩ ⟨2⟩).run.exec (after lockedListHistory)).1 = .ok () ∧
      ((Command.replaceWith ⟨1⟩ ⟨2⟩).run.exec (after lockedListHistory)).2.children ⟨0⟩
        = [⟨2⟩, ⟨3⟩] ∧
      ¬ (after lockedListHistory).KeepsShape
        ((Command.replaceWith ⟨1⟩ ⟨2⟩).run.exec (after lockedListHistory)).2 ⟨0⟩ 0 ⟨2⟩ := by
  refine ⟨by decide +kernel, by decide +kernel, by decide +kernel, by decide +kernel, fun h => ?_⟩
  exact absurd h.length (by decide +kernel)

end SymbolTree
