import SymbolTree.Proofs.Arena.Forest

/-!
# Putting a child at a place

A place is counted among the children that stay: a node that is moved within its parent is taken out
of the list before its new place is looked up.  So it can go as far as the number of the others, and
a child further down ends one place before the one that was there.

When a child is exchanged, the old one is taken out first, and the new one is then moved to the
place that became free.  If it comes from the same list it leaves a second gap, and the place is
again counted among those that stay.

## Main statements

* `Arena.insertChild_eq_ok_iff` — when an insertion is granted, and what it makes of the arena.
* `insertion_exact` — the effect of an insertion and of an exchange, node by node.
-/

set_option autoImplicit false
namespace SymbolTree

namespace Arena

variable {a b d : Arena} {p c n previous : NodeId} {i : Nat}

/-- The node is there and not locked. -/
def Free (a : Arena) (n : NodeId) : Prop := a.isAlive n = true ∧ a.isLocked n = false

theorem free_iff : a.Free n ↔ a.modifying n = .ok () := by
  rw [modifying_eq_ok_iff, Free, isLocked]
  simp

/-! ## When it is granted -/

/-- What an insertion asks for. -/
structure Admits (a : Arena) (p : NodeId) (i : Nat) (c : NodeId) : Prop where
  /-- The child is free to change. -/
  child : a.Free c
  /-- The new parent is free to change. -/
  target : a.Free p
  /-- The parent that is left is free to change, if there is one. -/
  left : ∀ o, a.parent c = some o → a.Free o
  /-- The new parent is of a kind that owns children. -/
  canBeParent : (a.kind p).canBeParent = true
  /-- The child is of a kind that is attached. -/
  canBeChild : (a.kind c).canBeChild = true
  /-- The place is not beyond the other children. -/
  place : i ≤ ((a.children p).filter (· ≠ c)).length

/-- **An insertion is granted exactly where it is admitted**, and then the child is taken out and
put at the place. -/
theorem insertChild_eq_ok_iff (h : a.Consistent) :
    a.insertChild p i c = .ok b ↔ a.Admits p i c ∧ b = (a.detach c).attach c p (some i) := by
  constructor
  · intro hb
    obtain ⟨hc, hp, hleft, hb⟩ := setParent_eq_ok hb
    obtain ⟨-, hi, -⟩ | ⟨hck, hpk, hi, rfl⟩ := relocate_eq_ok hb
    · cases hi
    · refine ⟨⟨free_iff.2 hc, free_iff.2 (hp p rfl), fun o ho => free_iff.2 ?_,
        checkParentKind_eq_ok_iff.1 hpk p rfl, hck, ?_⟩, rfl⟩
      · -- the parent that is left is the new one, or was asked for
        by_cases hsame : a.parent c = some p
        · obtain rfl : p = o := Option.some.inj (hsame.symm.trans ho)
          exact hp p rfl
        · exact hleft o ho hsame
      · rw [h.filter_ne]
        exact (checkPlace_eq_ok_iff h).1 hi p rfl i rfl
  · rintro ⟨⟨hc, hp, hleft, hpk, hck, hi⟩, rfl⟩
    rw [h.filter_ne] at hi
    have hkind : a.checkParentKind c (some p) = .ok () := by
      rw [checkParentKind, if_pos hpk]
    have hplace : a.checkPlace c (some p) (some i) = .ok () := by
      refine (checkPlace_eq_ok_iff h).2 fun q hq k hk => ?_
      cases hq
      cases hk
      exact hi
    have hmoved : a.relocate c (some p) (some i) = .ok ((a.detach c).attach c p (some i)) := by
      rw [relocate, hkind, if_pos hck, hplace]
      simp only [Option.isNone_some, Bool.and_false]
      rfl
    rw [insertChild, setParent_eq, free_iff.1 hc, hmoved]
    simp only [free_iff.1 hp]
    cases ho : a.parent c with
    | none => rfl
    | some o =>
      simp only [free_iff.1 (hleft o ho)]
      split <;> rfl

/-! ## What becomes of the arena -/

/-- The child `c` was moved to place `i` below `p`, and nothing else happened. -/
structure Inserted (a b : Arena) (p : NodeId) (i : Nat) (c : NodeId) : Prop where
  /-- The child is at its place among those that were there. -/
  target : b.children p = ((a.children p).filter (· ≠ c)).insertIdx i c
  /-- Another parent that it had loses exactly this child. -/
  left : ∀ o, a.parent c = some o → o ≠ p → b.children o = (a.children o).filter (· ≠ c)
  /-- Other nodes have the children that they had. -/
  children : ∀ n, n ≠ p → a.parent c ≠ some n → b.children n = a.children n
  /-- The child has its new parent. -/
  parent : b.parent c = some p
  /-- Other nodes have the parent that they had. -/
  parents : ∀ n, n ≠ c → b.parent n = a.parent n
  /-- Apart from its relatives, every node is as it was. -/
  rest : ∀ n, b.node n = { a.node n with parent := b.parent n, children := b.children n }
  /-- There are as many nodes. -/
  size : b.size = a.size
  /-- All locks are as they were. -/
  locks : b.locks = a.locks

theorem inserted_of_insertChild (h : a.Consistent) (hb : a.insertChild p i c = .ok b) :
    a.Inserted b p i c := by
  obtain ⟨hadmits, rfl⟩ := (insertChild_eq_ok_iff h).1 hb
  have hc : c.index < (a.detach c).size := by simpa using lt_size_of_isAlive hadmits.child.1
  have hp : p.index < (a.detach c).size := by simpa using lt_size_of_isAlive hadmits.target.1
  have hchildren : ∀ n, ((a.detach c).attach c p (some i)).children n =
      if n = p then ((a.children p).filter (· ≠ c)).insertIdx i c
      else (a.children n).filter (· ≠ c) := fun n => by
    rw [children_attach hc hp, children_detach h, children_detach h, h.filter_ne, h.filter_ne]
    rfl
  have hparent : ∀ n, ((a.detach c).attach c p (some i)).parent n =
      if n = c then some p else a.parent n := fun n => by
    rw [parent_attach hc hp, parent_detach h]
    split <;> rfl
  refine ⟨by rw [hchildren, if_pos rfl], fun o _ ho => by rw [hchildren, if_neg ho],
    fun n hn hold => ?_, by rw [hparent, if_pos rfl], fun n hn => by rw [hparent, if_neg hn],
    fun n => ?_, by simp, locks_detach a c⟩
  · rw [hchildren, if_neg hn, h.filter_ne]
    exact List.erase_of_not_mem fun hmem => hold ((h.mem_children n c).1 hmem)
  · rw [Arena.parent, Arena.children, node_attach hc hp, node_detach h]

/-- The child `previous` at place `i` below `p` was taken out and `c` was put at this place, and
nothing else happened. -/
structure Exchanged (a b : Arena) (p : NodeId) (i : Nat) (previous c : NodeId) : Prop where
  /-- The child that is taken out stood at the place. -/
  taken : (a.children p)[i]? = some previous
  /-- The place is not beyond the children that are left. -/
  place : i ≤ ((a.children p).filter fun x => x ≠ previous ∧ x ≠ c).length
  /-- The new child is at its place among those that are left. -/
  target : b.children p = ((a.children p).filter fun x => x ≠ previous ∧ x ≠ c).insertIdx i c
  /-- Another parent that the new child had loses exactly this child. -/
  left : ∀ o, a.parent c = some o → o ≠ p → b.children o = (a.children o).filter (· ≠ c)
  /-- Other nodes have the children that they had. -/
  children : ∀ n, n ≠ p → a.parent c ≠ some n → b.children n = a.children n
  /-- The new child has its parent. -/
  parent : b.parent c = some p
  /-- The child that was taken out has none, unless it was put back. -/
  detached : previous ≠ c → b.parent previous = none
  /-- Other nodes have the parent that they had. -/
  parents : ∀ n, n ≠ c → n ≠ previous → b.parent n = a.parent n
  /-- Apart from its relatives, every node is as it was. -/
  rest : ∀ n, b.node n = { a.node n with parent := b.parent n, children := b.children n }
  /-- There are as many nodes. -/
  size : b.size = a.size
  /-- All locks are as they were. -/
  locks : b.locks = a.locks

theorem exchanged_of_setChild (h : a.Consistent)
    (hr : (Edit.setChild p i c).exec a = (.ok previous, b)) : a.Exchanged b p i previous c := by
  obtain ⟨d, hd, hb⟩ := Edit.setChild_eq_ok hr
  obtain ⟨hget, hprevious, -, rfl⟩ := eq_detach_of_deleteChild h hd
  have hdc : (a.detach previous).Consistent := h.detach previous
  have hplace := ((insertChild_eq_ok_iff hdc).1 hb).1.place
  have hinserted := inserted_of_insertChild hdc hb
  have hkept : ((a.detach previous).children p).filter (· ≠ c)
      = (a.children p).filter fun x => x ≠ previous ∧ x ≠ c := by
    rw [children_detach h, ← h.filter_ne, List.filter_filter]
    refine List.filter_congr fun x _ => ?_
    simp [and_comm]
  -- only `p` lists the child that is taken out
  have hother : ∀ n, n ≠ p → (a.detach previous).children n = a.children n := fun n hn => by
    rw [children_detach h]
    refine List.erase_of_not_mem fun hmem => hn ?_
    exact Option.some.inj (((h.mem_children n previous).1 hmem).symm.trans hprevious)
  have hfrom : ∀ n, n ≠ p →
      ((a.detach previous).parent c = some n ↔ a.parent c = some n) := fun n hn => by
    rw [← hdc.mem_children, hother n hn, h.mem_children]
  rw [hkept] at hplace
  refine ⟨hget, hplace, hkept ▸ hinserted.target, fun o ho hne => ?_, fun n hn hold => ?_,
    hinserted.parent, fun hne => ?_, fun n hn hne => ?_, fun n => ?_,
    hinserted.size.trans (size_detach a previous), hinserted.locks.trans (locks_detach a previous)⟩
  · rw [hinserted.left o ((hfrom o hne).2 ho) hne, hother o hne]
  · rw [hinserted.children n hn fun ho => hold ((hfrom n hn).1 ho), hother n hn]
  · rw [hinserted.parents previous hne, parent_detach h, if_pos rfl]
  · rw [hinserted.parents n hn, parent_detach h, if_neg hne]
  · rw [hinserted.rest n, node_detach h]

end Arena

/-- **Insertions and exchanges are exact**, in every arena that can be reached.  An insertion is
granted exactly where it is admitted, and moves the child and nothing else.  An exchange that is
granted takes out the child at the place, moves the new one there, and answers with the old one. -/
theorem insertion_exact (history : List Command) (p : NodeId) (i : Nat) (c : NodeId) :
    (((Command.insertChild p i c).run.exec (after history)).1 = .ok () ↔
      (after history).Admits p i c) ∧
    (∀ b, (Command.insertChild p i c).run.exec (after history) = (.ok (), b) →
      (after history).Inserted b p i c) ∧
    ∀ previous b, (Edit.setChild p i c).exec (after history) = (.ok previous, b) →
      (after history).Exchanged b p i previous c := by
  have h := after_invariant Arena.consistent_empty Command.keeps_consistent history
  generalize after history = a at h ⊢
  have hexec : ∀ b, (Command.insertChild p i c).run.exec a = (.ok (), b) ↔
      a.insertChild p i c = .ok b := fun b => Edit.exec_change_eq_ok_iff
  refine ⟨⟨fun hok => ?_, fun hadmits => ?_⟩, fun b hb => Arena.inserted_of_insertChild h
    ((hexec b).1 hb), fun previous b hr => Arena.exchanged_of_setChild h hr⟩
  · exact ((Arena.insertChild_eq_ok_iff h).1 ((hexec _).1 (Prod.ext hok rfl))).1
  · exact congrArg Prod.fst ((hexec _).2 ((Arena.insertChild_eq_ok_iff h).2 ⟨hadmits, rfl⟩))

/-- A list of four names. -/
def listedHistory : List Command :=
  [.create .list {}, .create .identifier {}, .create .identifier {}, .create .identifier {},
   .create .identifier {}, .appendChild ⟨0⟩ ⟨1⟩, .appendChild ⟨0⟩ ⟨2⟩, .appendChild ⟨0⟩ ⟨3⟩,
   .appendChild ⟨0⟩ ⟨4⟩]

/-- The first of four names is moved to the end, which is place 3 among the others, and no further.
Then the second is exchanged for the third, which stood behind it. -/
theorem insertion_exact_siblings :
    (after listedHistory).Admits ⟨0⟩ 3 ⟨1⟩ ∧ ¬ (after listedHistory).Admits ⟨0⟩ 4 ⟨1⟩ ∧
      (∃ b, (after listedHistory).Inserted b ⟨0⟩ 3 ⟨1⟩ ∧ b.children ⟨0⟩ = [⟨2⟩, ⟨3⟩, ⟨4⟩, ⟨1⟩]) ∧
      ∃ b, (after listedHistory).Exchanged b ⟨0⟩ 1 ⟨2⟩ ⟨3⟩ ∧
        b.children ⟨0⟩ = [⟨1⟩, ⟨3⟩, ⟨4⟩] := by
  have hexact := insertion_exact listedHistory ⟨0⟩
  have hmoved := (hexact 3 ⟨1⟩).2.1 _ (Prod.ext (by decide +kernel) rfl)
  have hexchanged := (hexact 1 ⟨3⟩).2.2 ⟨2⟩ _ (Prod.ext (by decide +kernel) rfl)
  refine ⟨(hexact 3 ⟨1⟩).1.1 (by decide +kernel), fun h => ?_, ⟨_, hmoved, by decide +kernel⟩,
    ⟨_, hexchanged, by decide +kernel⟩⟩
  exact absurd ((hexact 4 ⟨1⟩).1.2 h) (by decide +kernel)

end SymbolTree
