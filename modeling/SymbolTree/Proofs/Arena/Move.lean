import SymbolTree.Proofs.Arena.Consistent

/-!
# Moving and discarding nodes

Only `Arena.detach` and `Arena.attach` write the fields in which the tree is stored, each of them in
two nodes at once.  `Arena.node_detach` and `Arena.node_attach` say what every node of the arena
holds afterwards; all that is proved about moves comes from these two.

`Arena.setParent` is the only way to either, and it looks before it leaps: everything that could
stand in the way is checked before the first write.

## Main statements

* `Arena.setParent_eq_ok`, `Arena.relocate_eq_ok` — what a granted move can have done.
* `Arena.discard_eq_ok` — what a granted discard can have done.
* `Arena.Consistent.setParent`, `Arena.Consistent.discard`.
-/

set_option autoImplicit false
namespace SymbolTree.Arena

/-! ## Detaching -/

/-- A detached node names no parent and no other node lists it; the rest is as it was. -/
theorem node_detach {a : Arena} (h : a.Consistent) (c m : NodeId) :
    (a.detach c).node m = { a.node m with
      parent := if m = c then none else a.parent m, children := (a.children m).erase c } := by
  have hmem := h.mem_children m c
  rw [detach]
  split
  · next hp =>
    rw [List.erase_of_not_mem fun hc => absurd (hmem.1 hc) (by simp [hp])]
    split
    · next hm => rw [hm, ← hp]; rfl
    · rfl
  · next old hp =>
    have hold : old.index < a.size := h.parent_lt c old hp
    have hc : c.index < a.size := lt_size_of_parent hp
    rw [node_update, node_update, size_update]
    -- `c` may be its own parent, so the two updates may meet in one node
    by_cases hmc : m = c <;> by_cases hmo : m = old
    · rw [if_pos ⟨hmc, hc⟩, if_pos ⟨hmo, hold⟩, if_pos hmc]; rfl
    · rw [if_pos ⟨hmc, hc⟩, if_neg fun e => hmo e.1, if_pos hmc, List.erase_of_not_mem]
      · rfl
      · exact fun hm => hmo (Option.some.inj (hp.symm.trans (hmem.1 hm))).symm
    · rw [if_neg fun e => hmc e.1, if_pos ⟨hmo, hold⟩, if_neg hmc]; rfl
    · rw [if_neg fun e => hmc e.1, if_neg fun e => hmo e.1, if_neg hmc, List.erase_of_not_mem]
      · rfl
      · exact fun hm => hmo (Option.some.inj (hp.symm.trans (hmem.1 hm))).symm

/-- A node is taken out of the children of every other node; in a consistent arena only its parent
lists it. -/
@[simp] theorem children_detach {a : Arena} (h : a.Consistent) (c m : NodeId) :
    (a.detach c).children m = (a.children m).erase c := by
  rw [children, node_detach h]

/-- The other children are what remains when the child is taken out. -/
theorem Consistent.filter_ne {a : Arena} (h : a.Consistent) (p c : NodeId) :
    (a.children p).filter (· ≠ c) = (a.children p).erase c := by
  rw [(h.nodup p).erase_eq_filter]
  refine List.filter_congr fun x _ => ?_
  by_cases hx : x = c <;> simp [hx]

@[simp] theorem parent_detach {a : Arena} (h : a.Consistent) (c m : NodeId) :
    (a.detach c).parent m = if m = c then none else a.parent m := by
  rw [parent, node_detach h]

@[simp] theorem kind_detach {a : Arena} (h : a.Consistent) (c m : NodeId) :
    (a.detach c).kind m = a.kind m := by
  rw [kind, node_detach h, kind]

@[simp] theorem isAlive_detach {a : Arena} (h : a.Consistent) (c m : NodeId) :
    (a.detach c).isAlive m = a.isAlive m := by
  rw [isAlive, node_detach h, isAlive]

@[simp] theorem size_detach (a : Arena) (c : NodeId) : (a.detach c).size = a.size := by
  rw [detach]
  split <;> simp

@[simp] theorem locks_detach (a : Arena) (c : NodeId) : (a.detach c).locks = a.locks := by
  rw [detach]
  split <;> rfl

/-- To take a node away leaves both views of the tree in agreement. -/
theorem Consistent.detach {a : Arena} (h : a.Consistent) (c : NodeId) :
    (a.detach c).Consistent where
  nodup n := by rw [children_detach h]; exact (h.nodup n).erase c
  mem_children p m := by
    rw [children_detach h, parent_detach h, (h.nodup p).mem_erase_iff, h.mem_children]
    by_cases hm : m = c <;> simp [hm]
  parent_lt m p hp := by
    rw [parent_detach h] at hp
    rw [size_detach]
    split at hp
    · cases hp
    · exact h.parent_lt m p hp
  child_lt p m hm := by
    rw [children_detach h] at hm
    rw [size_detach]
    exact h.child_lt p m (List.mem_of_mem_erase hm)
  locks_size := by simpa using h.locks_size
  canBeParent n hn := by
    rw [children_detach h] at hn
    rw [kind_detach h]
    exact h.canBeParent n fun hnil => hn (by rw [hnil]; rfl)
  canBeChild n hn := by
    rw [parent_detach h] at hn
    rw [kind_detach h]
    split at hn
    · exact absurd rfl hn
    · exact h.canBeChild n hn

/-! ## Attaching -/

/-- A list with one more element at a place, or at the end. -/
def place (l : List NodeId) (c : NodeId) : Option Nat → List NodeId
  | some i => l.insertIdx i c
  | none => l ++ [c]

/-- To put a node in its place only changes the order. -/
theorem perm_place {l : List NodeId} {c : NodeId} {i : Option Nat} (h : ∀ k ∈ i, k ≤ l.length) :
    (place l c i).Perm (c :: l) := by
  cases i with
  | none => exact List.perm_append_singleton c l
  | some k => exact List.perm_insertIdx c l (h k rfl)

/-- An attached node names its parent, which lists it; the rest is as it was. -/
theorem node_attach {a : Arena} {c p : NodeId} (hc : c.index < a.size) (hp : p.index < a.size)
    (i : Option Nat) (m : NodeId) :
    (a.attach c p i).node m = { a.node m with
      parent := if m = c then some p else a.parent m,
      children := if m = p then place (a.children p) c i else a.children m } := by
  rw [attach]
  rw [node_update, node_update, size_update]
  by_cases hmc : m = c <;> by_cases hmp : m = p
  · rw [if_pos ⟨hmc, hc⟩, if_pos ⟨hmp, hp⟩, if_pos hmc, if_pos hmp, hmp]; cases i <;> rfl
  · rw [if_pos ⟨hmc, hc⟩, if_neg fun e => hmp e.1, if_pos hmc, if_neg hmp]; rfl
  · rw [if_neg fun e => hmc e.1, if_pos ⟨hmp, hp⟩, if_neg hmc, if_pos hmp, hmp]; cases i <;> rfl
  · rw [if_neg fun e => hmc e.1, if_neg fun e => hmp e.1, if_neg hmc, if_neg hmp]; rfl

/-- The new parent lists the node in its place. -/
theorem children_attach {a : Arena} {c p : NodeId} (hc : c.index < a.size) (hp : p.index < a.size)
    (i : Option Nat) (m : NodeId) :
    (a.attach c p i).children m = if m = p then place (a.children p) c i else a.children m := by
  rw [children, node_attach hc hp]

theorem parent_attach {a : Arena} {c p : NodeId} (hc : c.index < a.size) (hp : p.index < a.size)
    (i : Option Nat) (m : NodeId) :
    (a.attach c p i).parent m = if m = c then some p else a.parent m := by
  rw [parent, node_attach hc hp]

theorem kind_attach {a : Arena} {c p : NodeId} (hc : c.index < a.size) (hp : p.index < a.size)
    (i : Option Nat) (m : NodeId) : (a.attach c p i).kind m = a.kind m := by
  rw [kind, node_attach hc hp, kind]

@[simp] theorem size_attach (a : Arena) (c p : NodeId) (i : Option Nat) :
    (a.attach c p i).size = a.size := by
  simp [attach]

/-- A node that hung nowhere may be put below one that can own it, at a place among its children. -/
theorem Consistent.attach {a : Arena} (h : a.Consistent) {c p : NodeId} {i : Option Nat}
    (hdetached : a.parent c = none) (hc : c.index < a.size) (hp : p.index < a.size)
    (hplace : ∀ k ∈ i, k ≤ (a.children p).length) (hpk : (a.kind p).canBeParent = true)
    (hck : (a.kind c).canBeChild = true) : (a.attach c p i).Consistent := by
  have hnew : c ∉ a.children p := fun hm => by
    have := (h.mem_children p c).1 hm
    rw [hdetached] at this
    cases this
  have hperm : (place (a.children p) c i).Perm (c :: a.children p) := perm_place hplace
  refine ⟨fun n => ?_, fun q m => ?_, fun m q hq => ?_, fun q m hm => ?_, ?_, fun n hn => ?_,
    fun n hn => ?_⟩
  · rw [children_attach hc hp]
    split
    · exact hperm.nodup_iff.2 (List.nodup_cons.2 ⟨hnew, h.nodup p⟩)
    · exact h.nodup n
  · rw [children_attach hc hp, parent_attach hc hp]
    by_cases hq : q = p
    · subst hq
      rw [if_pos rfl, hperm.mem_iff, List.mem_cons, h.mem_children]
      by_cases hm : m = c <;> simp [hm]
    · rw [if_neg hq, h.mem_children]
      by_cases hm : m = c
      · subst hm
        rw [if_pos rfl, hdetached]
        simp [Ne.symm hq]
      · rw [if_neg hm]
  · rw [parent_attach hc hp] at hq
    rw [size_attach]
    split at hq
    · cases hq; exact hp
    · exact h.parent_lt m q hq
  · rw [children_attach hc hp] at hm
    rw [size_attach]
    split at hm
    · rcases List.mem_cons.1 (hperm.mem_iff.1 hm) with rfl | hm
      · exact hc
      · exact h.child_lt p m hm
    · exact h.child_lt q m hm
  · rw [size_attach]; exact h.locks_size
  · rw [children_attach hc hp] at hn
    rw [kind_attach hc hp]
    split at hn
    · next hnp => rw [hnp]; exact hpk
    · exact h.canBeParent n hn
  · rw [parent_attach hc hp] at hn
    rw [kind_attach hc hp]
    split at hn
    · next hnc => rw [hnc]; exact hck
    · exact h.canBeChild n hn

/-! ## Moving -/

/-- The check of the parent passes if it can own children, or if there is none. -/
theorem checkParentKind_eq_ok_iff {a : Arena} {c : NodeId} {p : Option NodeId} :
    a.checkParentKind c p = .ok () ↔ ∀ q ∈ p, (a.kind q).canBeParent = true := by
  cases p with
  | none => simp [checkParentKind]
  | some q => cases hq : (a.kind q).canBeParent <;> simp [checkParentKind, hq]

/-- The place is checked against the children that stay when the node is taken away. -/
theorem checkPlace_eq_ok_iff {a : Arena} (h : a.Consistent) {c : NodeId} {p : Option NodeId}
    {i : Option Nat} : a.checkPlace c p i = .ok () ↔
      ∀ q ∈ p, ∀ k ∈ i, k ≤ ((a.children q).erase c).length := by
  cases p with
  | none => simp [checkPlace]
  | some q =>
    cases i with
    | none => simp [checkPlace]
    | some k =>
      have hlen : (a.children q).length - (if a.parent c = some q then 1 else 0)
          = ((a.children q).erase c).length := by
        by_cases hm : c ∈ a.children q
        · rw [if_pos ((h.mem_children q c).1 hm), List.length_erase_of_mem hm]
        · rw [if_neg fun hp => hm ((h.mem_children q c).2 hp), List.erase_of_not_mem hm]; rfl
      simp only [checkPlace, hlen]
      split <;> simp [*]

/-- The last part of a move, when everything on the way is free to change. -/
def relocate (a : Arena) (c : NodeId) (p : Option NodeId) (i : Option Nat) :
    Except NodeError Arena := do
  if p = a.parent c && i.isNone then
    return a
  a.checkParentKind c p
  unless (a.kind c).canBeChild do
    throw (.incompatibleChild (a.kind c))
  a.checkPlace c p i
  match p with
  | some q => return (a.detach c).attach c q i
  | none => return a.detach c

/-- The checks come before the first write, which is the rest of the request. -/
theorem setParent_eq (a : Arena) (c : NodeId) (p : Option NodeId) (i : Option Nat) :
    a.setParent c p i = (do
      a.modifying c
      if let some q := p then
        a.modifying q
      if let some o := a.parent c then
        if a.parent c ≠ p then
          a.modifying o
      a.relocate c p i) := rfl

/-- A move leaves everything as it is, or takes the node off and puts it in its new place. -/
theorem relocate_eq_ok {a b : Arena} {c : NodeId} {p : Option NodeId} {i : Option Nat}
    (h : a.relocate c p i = .ok b) :
    (p = a.parent c ∧ i = none ∧ b = a) ∨
      (a.kind c).canBeChild = true ∧ a.checkParentKind c p = .ok () ∧
        a.checkPlace c p i = .ok () ∧ b = (p.elim (a.detach c) ((a.detach c).attach c · i)) := by
  unfold relocate at h
  split at h
  · next hstay =>
    obtain ⟨hp, hi⟩ := Bool.and_eq_true_iff.1 hstay
    exact .inl ⟨of_decide_eq_true hp, Option.isNone_iff_eq_none.1 hi, (Except.ok.inj h).symm⟩
  · obtain ⟨_, hk, h⟩ := bind_eq_ok_iff.1 h
    dsimp only at h
    split at h
    · next hc =>
      obtain ⟨_, hi, h⟩ := bind_eq_ok_iff.1 h
      refine .inr ⟨hc, hk, hi, ?_⟩
      cases p with
      | none => exact (Except.ok.inj h).symm
      | some q => exact (Except.ok.inj h).symm
    · cases h

/-- **What a granted move can have done.**  The node, its new parent and the parent it leaves are
free to change, and either nothing moves, or the node is taken out and put where it was asked. -/
theorem setParent_eq_ok {a b : Arena} {c : NodeId} {p : Option NodeId} {i : Option Nat}
    (h : a.setParent c p i = .ok b) :
    a.modifying c = .ok () ∧ (∀ q ∈ p, a.modifying q = .ok ()) ∧
      (∀ o ∈ a.parent c, a.parent c ≠ p → a.modifying o = .ok ()) ∧ a.relocate c p i = .ok b := by
  rw [setParent_eq] at h
  obtain ⟨_, hc, h⟩ := bind_eq_ok_iff.1 h
  have hp : (∀ q ∈ p, a.modifying q = .ok ()) ∧ (do
      if let some o := a.parent c then
        if a.parent c ≠ p then
          a.modifying o
      a.relocate c p i) = .ok b := by
    cases p with
    | none => exact ⟨nofun, h⟩
    | some q =>
      obtain ⟨_, hq, h⟩ := bind_eq_ok_iff.1 h
      exact ⟨fun r hr => Option.some.inj hr ▸ hq, h⟩
  obtain ⟨hp, h⟩ := hp
  refine ⟨hc, hp, ?_⟩
  cases ho : a.parent c with
  | none =>
    rw [ho] at h
    exact ⟨nofun, h⟩
  | some o =>
    rw [ho] at h
    dsimp only at h
    split at h
    · obtain ⟨_, hmo, h⟩ := bind_eq_ok_iff.1 h
      exact ⟨fun r hr _ => Option.some.inj hr ▸ hmo, h⟩
    · next hne => exact ⟨fun _ _ hn => absurd hn hne, h⟩

/-- A node that hangs nowhere is attached at the end. -/
theorem appendChild_eq_ok {a b : Arena} {c p : NodeId} (hc : a.parent c = none)
    (h : a.appendChild p c = .ok b) :
    c.index < a.size ∧ p.index < a.size ∧ b = a.attach c p none := by
  obtain ⟨hmod, hmodp, -, h⟩ := setParent_eq_ok h
  refine ⟨lt_size_of_modifying hmod, lt_size_of_modifying (hmodp p rfl), ?_⟩
  obtain ⟨he, -, -⟩ | ⟨-, -, -, rfl⟩ := relocate_eq_ok h
  · rw [hc] at he
    cases he
  · rw [Option.elim_some, detach, hc]

/-- The place of a node is where its parent lists it. -/
theorem getElem?_of_offset {a : Arena} {p n : NodeId} {i : Nat} (hp : a.parent n = some p)
    (h : a.offset n = .ok i) : (a.children p)[i]? = some n := by
  simp only [offset, hp] at h
  split at h
  · next j hj =>
    obtain rfl := Except.ok.inj h
    obtain ⟨hlt, hn, -⟩ := List.idxOf?_eq_some_iff.1 hj
    rw [List.getElem?_eq_getElem hlt]
    simpa using hn
  · cases h

/-- **A move that is granted keeps the arena consistent.** -/
theorem Consistent.setParent {a b : Arena} (h : a.Consistent) {c : NodeId} {p : Option NodeId}
    {i : Option Nat} (hb : a.setParent c p i = .ok b) : b.Consistent := by
  obtain ⟨hc, hp, -, hb⟩ := setParent_eq_ok hb
  obtain ⟨-, -, rfl⟩ | ⟨hck, hpk, hi, rfl⟩ := relocate_eq_ok hb
  · exact h
  · cases p with
    | none => exact h.detach c
    | some q =>
      refine (h.detach c).attach ?_ ?_ ?_ ?_ ?_ ?_
      · rw [parent_detach h, if_pos rfl]
      · simpa using lt_size_of_modifying hc
      · simpa using lt_size_of_modifying (hp q rfl)
      · rw [children_detach h]; exact (checkPlace_eq_ok_iff h).1 hi q rfl
      · rw [kind_detach h]; exact checkParentKind_eq_ok_iff.1 hpk q rfl
      · rw [kind_detach h]; exact hck

theorem child_eq_ok_iff {a : Arena} {p c : NodeId} {i : Nat} :
    a.child p i = .ok c ↔ (a.children p)[i]? = some c := by
  rw [child]
  cases (a.children p)[i]? <;> simp

/-- To delete a child is to move the node at its place nowhere. -/
theorem deleteChild_eq_ok {a b : Arena} {p c : NodeId} {i : Nat}
    (h : a.deleteChild p i = .ok (c, b)) :
    (a.children p)[i]? = some c ∧ a.setParent c none none = .ok b := by
  obtain ⟨d, hd, h⟩ := bind_eq_ok_iff.1 h
  obtain ⟨b', hb, h⟩ := bind_eq_ok_iff.1 h
  obtain ⟨rfl, rfl⟩ := Prod.mk.inj (Except.ok.inj h)
  exact ⟨child_eq_ok_iff.1 hd, hb⟩

/-- A child that is taken out is detached. -/
theorem eq_detach_of_deleteChild {a b : Arena} (h : a.Consistent) {p c : NodeId} {i : Nat}
    (hb : a.deleteChild p i = .ok (c, b)) : (a.children p)[i]? = some c ∧ a.parent c = some p ∧
      a.modifying c = .ok () ∧ b = a.detach c := by
  obtain ⟨hget, hb⟩ := deleteChild_eq_ok hb
  have hparent : a.parent c = some p := (h.mem_children p c).1 (List.mem_of_getElem? hget)
  obtain ⟨hc, -, -, hb⟩ := setParent_eq_ok hb
  obtain ⟨hstay, -⟩ | ⟨-, -, -, rfl⟩ := relocate_eq_ok hb
  · rw [hparent] at hstay
    cases hstay
  · exact ⟨hget, hparent, hc, rfl⟩

theorem Consistent.deleteChild {a b : Arena} (h : a.Consistent) {p c : NodeId} {i : Nat}
    (hb : a.deleteChild p i = .ok (c, b)) : b.Consistent :=
  h.setParent (deleteChild_eq_ok hb).2

theorem lockCount_congr {a b : Arena} (h : b.locks = a.locks) : b.lockCount = a.lockCount := by
  funext n
  rw [lockCount, lockCount, h]

/-- A move takes no locks and gives none back. -/
theorem lockCount_setParent {a b : Arena} {c : NodeId} {p : Option NodeId} {i : Option Nat}
    (hb : a.setParent c p i = .ok b) : b.lockCount = a.lockCount := by
  obtain ⟨-, -, -, hb⟩ := setParent_eq_ok hb
  obtain ⟨-, -, rfl⟩ | ⟨-, -, -, rfl⟩ := relocate_eq_ok hb
  · rfl
  · cases p with
    | none => exact lockCount_congr (locks_detach a c)
    | some q => exact lockCount_congr (locks_detach a c)

/-! ## Discarding -/

theorem Consistent.kill {a : Arena} (h : a.Consistent) (n : NodeId) : (a.kill n).Consistent :=
  h.update (.of_eq rfl rfl rfl)

/-- To kill nodes moves none of them. -/
theorem Consistent.foldl_kill {a : Arena} (h : a.Consistent) (l : List NodeId) :
    (l.foldl Arena.kill a).Consistent := by
  induction l generalizing a with
  | nil => exact h
  | cons n l ih => exact ih (h.kill n)

/-- A discard leaves everything as it is when the node is dead already, or it kills a node without a
parent together with all that it owns, none of which is locked. -/
theorem discard_eq_ok {a b : Arena} {n : NodeId} (h : a.discard n = .ok b) :
    (a.isAlive n = false ∧ b = a) ∨
      a.isAlive n = true ∧ a.parent n = none ∧ (∀ m ∈ a.owned n, a.isLocked m = false) ∧
        b = (a.owned n).foldl Arena.kill a := by
  simp only [discard] at h
  split at h
  · next ha => exact .inl ⟨by simpa using ha, (Except.ok.inj h).symm⟩
  · next ha =>
    split at h
    · cases h
    · next hp =>
      split at h
      · cases h
      · next hl =>
        refine .inr ⟨by simpa using ha, by simpa using hp, fun m hm => ?_, (Except.ok.inj h).symm⟩
        simpa using List.find?_eq_none.1 hl m hm

@[simp] theorem locks_foldl_kill (a : Arena) (l : List NodeId) :
    (l.foldl kill a).locks = a.locks := by
  induction l generalizing a with
  | nil => rfl
  | cons m l ih => exact ih (a.kill m)

theorem lockCount_discard {a b : Arena} {n : NodeId} (hb : a.discard n = .ok b) :
    b.lockCount = a.lockCount := by
  obtain ⟨-, rfl⟩ | ⟨-, -, -, rfl⟩ := discard_eq_ok hb
  · rfl
  · exact lockCount_congr (locks_foldl_kill a _)

theorem Consistent.discard {a b : Arena} (h : a.Consistent) {n : NodeId}
    (hb : a.discard n = .ok b) : b.Consistent := by
  obtain ⟨-, rfl⟩ | ⟨-, -, -, rfl⟩ := discard_eq_ok hb
  · exact h
  · exact h.foldl_kill _

end SymbolTree.Arena
