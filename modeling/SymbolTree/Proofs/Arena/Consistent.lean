import SymbolTree.Proofs.Program
import SymbolTree.Arena.Conversion

/-!
# Two views of one tree

A node names its parent and a parent lists its children.  `Arena.Consistent` says that the two
agree, that neither leads out of the arena, that every node has its lock counter, and that nothing
hangs below a kind that owns nothing or above a kind that is never attached.

This file shows that every request which moves no node keeps an arena consistent.  A new node has no
relatives (`Consistent.push`).  All the others leave parents and children as they are
(`Consistent.update`), and those that change a kind keep it fit for its place (`Node.Refits`).

## Main statements

* `Arena.Consistent.update` — a node may be rewritten to one that fits its place.
* `Arena.Consistent.convert` — no conversion leaves children below a kind that owns none.
-/

set_option autoImplicit false
namespace SymbolTree

namespace Arena

/-- Parents and children agree and stay inside the arena, every node has a lock counter, and the
kinds of parents and children allow for the relation. -/
structure Consistent (a : Arena) : Prop where
  /-- No child is listed twice. -/
  nodup : ∀ n, (a.children n).Nodup
  /-- A parent lists exactly the nodes that name it. -/
  mem_children : ∀ p c, c ∈ a.children p ↔ a.parent c = some p
  /-- A parent is a node of the arena. -/
  parent_lt : ∀ c p, a.parent c = some p → p.index < a.size
  /-- A child is a node of the arena. -/
  child_lt : ∀ p c, c ∈ a.children p → c.index < a.size
  /-- There is one lock counter for each node. -/
  locks_size : a.locks.size = a.size
  /-- What has children is of a kind that owns children. -/
  canBeParent : ∀ n, a.children n ≠ [] → (a.kind n).canBeParent = true
  /-- What has a parent is of a kind that is attached. -/
  canBeChild : ∀ n, a.parent n ≠ none → (a.kind n).canBeChild = true

/-- There is nothing to disagree about. -/
theorem consistent_empty : ({} : Arena).Consistent := by
  have hnode : ∀ n, ({} : Arena).node n = Node.absent := fun n => rfl
  constructor <;> simp [children, parent, hnode, Node.absent, size]

/-! ## Reading past the end -/

/-- A node that is not there reads as an empty one. -/
theorem node_of_size_le {a : Arena} {n : NodeId} (h : a.size ≤ n.index) :
    a.node n = Node.absent := by
  rw [node]
  rw [Array.getD_eq_getD_getElem?, Array.getElem?_eq_none h]
  rfl

/-- What holds for every node of an arena, and for what is no node, holds for every id. -/
theorem forall_node {a : Arena} {P : Node → Prop} (h : ∀ d ∈ a.nodes.toList, P d)
    (habsent : P Node.absent) (n : NodeId) : P (a.node n) := by
  by_cases hn : n.index < a.size
  · rw [node, Array.getD_eq_getD_getElem?, Array.getElem?_eq_getElem hn]
    exact h _ (Array.mem_toList_iff.2 (Array.getElem_mem hn))
  · rw [node_of_size_le (Nat.le_of_not_lt hn)]
    exact habsent

/-- Where no count of locks is positive, no node is locked. -/
theorem lockCount_eq_zero {a : Arena} (h : ∀ k ∈ a.locks.toList, k = 0) (n : NodeId) :
    a.lockCount n = 0 := by
  rw [lockCount, Array.getD_eq_getD_getElem?]
  cases hk : a.locks[n.index]? with
  | none => rfl
  | some k => exact h k (Array.mem_toList_iff.2 (Array.mem_of_getElem? hk))

/-- What lives is there. -/
theorem lt_size_of_isAlive {a : Arena} {n : NodeId} (h : a.isAlive n = true) :
    n.index < a.size := by
  by_contra hn
  rw [isAlive, node_of_size_le (Nat.le_of_not_lt hn)] at h
  exact absurd h (by decide)

theorem lt_size_of_modifying {a : Arena} {n : NodeId} (h : a.modifying n = .ok ()) :
    n.index < a.size :=
  lt_size_of_isAlive (modifying_eq_ok_iff.1 h).1

/-- Only a node that is there has a kind of its own. -/
theorem lt_size_of_kind_ne {a : Arena} {n : NodeId} (h : a.kind n ≠ .unknown) :
    n.index < a.size := by
  by_contra hn
  rw [kind, node_of_size_le (Nat.le_of_not_lt hn)] at h
  exact h rfl

theorem lt_size_of_parent {a : Arena} {n p : NodeId} (h : a.parent n = some p) :
    n.index < a.size := by
  by_contra hn
  rw [parent, node_of_size_le (Nat.le_of_not_lt hn)] at h
  exact absurd h (by simp [Node.absent])

theorem lt_size_of_mem_children {a : Arena} {n c : NodeId} (h : c ∈ a.children n) :
    n.index < a.size := by
  by_contra hn
  rw [children, node_of_size_le (Nat.le_of_not_lt hn)] at h
  exact absurd h (by simp [Node.absent])

/-! ## Requests that leave the tree alone -/

/-- A consistent arena stays so when parents and children stay and the kinds still fit. -/
theorem Consistent.of_eq {a b : Arena} (h : a.Consistent) (hsize : b.size = a.size)
    (hlocks : b.locks.size = a.locks.size) (hparent : ∀ n, b.parent n = a.parent n)
    (hchildren : ∀ n, b.children n = a.children n)
    (hkind : ∀ n, ((a.kind n).canBeParent = true → (b.kind n).canBeParent = true) ∧
      ((a.kind n).canBeChild = true → (b.kind n).canBeChild = true)) : b.Consistent where
  nodup n := by rw [hchildren]; exact h.nodup n
  mem_children p c := by rw [hchildren, hparent]; exact h.mem_children p c
  parent_lt c p hp := by rw [hsize]; rw [hparent] at hp; exact h.parent_lt c p hp
  child_lt p c hc := by rw [hsize]; rw [hchildren] at hc; exact h.child_lt p c hc
  locks_size := by rw [hlocks, hsize]; exact h.locks_size
  canBeParent n hn := by rw [hchildren] at hn; exact (hkind n).1 (h.canBeParent n hn)
  canBeChild n hn := by rw [hparent] at hn; exact (hkind n).2 (h.canBeChild n hn)

end Arena

/-- A node can stand in the place of another: it has the same parent and the same children, and a
kind that may have them if the other's may. -/
structure Node.Refits (d e : Node) : Prop where
  /-- The parent is the same. -/
  parent : e.parent = d.parent
  /-- The children are the same. -/
  children : e.children = d.children
  /-- It may own children if the other may. -/
  canBeParent : d.kind.canBeParent = true → e.kind.canBeParent = true
  /-- It may be attached if the other may. -/
  canBeChild : d.kind.canBeChild = true → e.kind.canBeChild = true

theorem Node.Refits.of_eq {d e : Node} (hp : e.parent = d.parent) (hc : e.children = d.children)
    (hk : e.kind = d.kind) : d.Refits e :=
  ⟨hp, hc, by rw [hk]; exact id, by rw [hk]; exact id⟩

namespace Arena

/-- Only the node that is rewritten can have a new parent. -/
@[simp] theorem parent_update (a : Arena) (n m : NodeId) (f : Node → Node) :
    (a.update n f).parent m =
      if m = n ∧ n.index < a.size then (f (a.node m)).parent else a.parent m := by
  rw [parent, node_update]
  split <;> rfl

/-- Only it can have new children. -/
@[simp] theorem children_update (a : Arena) (n m : NodeId) (f : Node → Node) :
    (a.update n f).children m =
      if m = n ∧ n.index < a.size then (f (a.node m)).children else a.children m := by
  rw [children, node_update]
  split <;> rfl

@[simp] theorem kind_update (a : Arena) (n m : NodeId) (f : Node → Node) :
    (a.update n f).kind m =
      if m = n ∧ n.index < a.size then (f (a.node m)).kind else a.kind m := by
  rw [kind, node_update]
  split <;> rfl

/-- A node may be rewritten to one that fits its place. -/
theorem Consistent.update {a : Arena} (h : a.Consistent) {n : NodeId} {f : Node → Node}
    (hf : (a.node n).Refits (f (a.node n))) : (a.update n f).Consistent := by
  refine h.of_eq (size_update a n f) rfl (fun m => ?_) (fun m => ?_) (fun m => ?_)
  · exact field_update Node.parent hf.parent m
  · exact field_update Node.children hf.children m
  · rw [kind_update]
    split
    · next hm => rw [hm.1]; exact ⟨hf.canBeParent, hf.canBeChild⟩
    · exact ⟨id, id⟩

/-- The locks say nothing about the tree. -/
theorem Consistent.of_locks {a b : Arena} (h : a.Consistent) (hn : b.nodes = a.nodes)
    (hl : b.locks.size = a.locks.size) : b.Consistent := by
  have hnode : ∀ n, b.node n = a.node n := fun n => by rw [node, node, hn]
  refine h.of_eq (by rw [size, size, hn]) hl (fun n => ?_) (fun n => ?_) (fun n => ?_)
  · rw [parent, parent, hnode]
  · rw [children, children, hnode]
  · rw [kind, kind, hnode]
    exact ⟨id, id⟩

theorem Consistent.lock {a : Arena} (h : a.Consistent) (n : NodeId) : (a.lock n).Consistent :=
  h.of_locks rfl (Array.size_modify ..)

theorem Consistent.setLockCount {a : Arena} (h : a.Consistent) (n : NodeId) (k : Nat) :
    (a.setLockCount n k).Consistent :=
  h.of_locks rfl (Array.size_modify ..)

theorem nodes_unlock {a b : Arena} {n : NodeId} (h : a.unlock n = .ok b) : b.nodes = a.nodes := by
  rw [Arena.unlock] at h
  split at h
  · cases h; rfl
  · cases h

theorem size_locks_unlock {a b : Arena} {n : NodeId} (h : a.unlock n = .ok b) :
    b.locks.size = a.locks.size := by
  rw [Arena.unlock] at h
  split at h
  · cases h; exact Array.size_modify ..
  · cases h

@[simp] theorem nodes_drop (g : Guard) (a : Arena) : (g.drop a).nodes = a.nodes := by
  rw [Guard.drop, Guard.release]
  split
  · rfl
  · split
    · next hu => exact nodes_unlock hu
    · rfl

@[simp] theorem size_locks_drop (g : Guard) (a : Arena) : (g.drop a).locks.size = a.locks.size := by
  rw [Guard.drop, Guard.release]
  split
  · rfl
  · split
    · next hu => exact size_locks_unlock hu
    · rfl

theorem Consistent.unlock {a b : Arena} (h : a.Consistent) {n : NodeId}
    (hb : a.unlock n = .ok b) : b.Consistent :=
  h.of_locks (nodes_unlock hb) (size_locks_unlock hb)

theorem Consistent.drop {a : Arena} (h : a.Consistent) (g : Guard) : (g.drop a).Consistent :=
  h.of_locks (nodes_drop g a) (size_locks_drop g a)

/-- Giving up a guard takes one lock off its node, if there is one left. -/
theorem lockCount_drop (a : Arena) (n m : NodeId) :
    (Guard.drop ⟨some n⟩ a).lockCount m =
      if m = n then a.lockCount m - 1 else a.lockCount m := by
  rw [Guard.drop, Guard.release]
  by_cases hn : a.isLocked n
  · have hlt : n.index < a.locks.size := by
      by_contra hge
      simp [isLocked, lockCount, hge] at hn
    simp [unlock, hn, lockCount_modify, hlt]
  · have hzero : a.lockCount n = 0 := by simpa [isLocked] using hn
    by_cases hm : m = n <;> simp [unlock, hn, hm, hzero]

/-- A node that was locked and let go has the locks it had, also when it does not exist. -/
theorem lockCount_drop_lock {a b : Arena} {n : NodeId}
    (h : b.lockCount = (a.lock n).lockCount) :
    (Guard.drop ⟨some n⟩ b).lockCount = a.lockCount := by
  funext m
  rw [lockCount_drop, h, lockCount_lock]
  by_cases hm : m = n
  · subst hm
    by_cases hlt : m.index < a.locks.size
    · simp [hlt]
    · have hzero : a.lockCount m = 0 := by simp [lockCount, hlt]
      simp [hlt, hzero]
  · simp [hm]

/-- A node that is locked and let go leaves the arena as it was. -/
@[simp] theorem drop_lock (a : Arena) (n : NodeId) : Guard.drop ⟨some n⟩ (a.lock n) = a := by
  have hnodes : (Guard.drop ⟨some n⟩ (a.lock n)).nodes = a.nodes := nodes_drop _ _
  have hsize : (Guard.drop ⟨some n⟩ (a.lock n)).locks.size = a.locks.size := by
    rw [size_locks_drop, lock, Array.size_modify]
  have hcount := lockCount_drop_lock (a := a) (n := n) rfl
  generalize Guard.drop ⟨some n⟩ (a.lock n) = b at hnodes hsize hcount
  obtain ⟨nodes, locks⟩ := b
  obtain rfl : nodes = a.nodes := hnodes
  have hlocks : locks = a.locks := Array.ext hsize fun i hi hi' => by
    have := congrFun hcount ⟨i⟩
    simpa [lockCount, hi, hi'] using this
  rw [hlocks]

/-- A node that is not there has no locks. -/
theorem lockCount_of_size_le {a : Arena} (h : a.Consistent) {n : NodeId} (hn : a.size ≤ n.index) :
    a.lockCount n = 0 := by
  have hge : ¬ n.index < a.locks.size := by rw [h.locks_size]; omega
  simp [lockCount, hge]

/-! ## Adding nodes -/

@[simp] theorem node_push (a : Arena) (d : Node) (n : NodeId) :
    (a.push d).2.node n = if n.index = a.size then d else a.node n := by
  by_cases h : n.index = a.nodes.size <;> simp [push, node, size, Array.getElem?_push, h]

@[simp] theorem size_push (a : Arena) (d : Node) : (a.push d).2.size = a.size + 1 := by
  simp [push, size]

/-- A new node has no locks, and neither has a node that is not there. -/
@[simp] theorem lockCount_push (a : Arena) (d : Node) (n : NodeId) :
    (a.push d).2.lockCount n = a.lockCount n := by
  by_cases h : n.index = a.locks.size <;> simp [push, lockCount, Array.getElem?_push, h]

/-- Rewriting a node that was just added is adding the rewritten node. -/
theorem update_push (a : Arena) (d : Node) (f : Node → Node) :
    (a.push d).2.update (a.push d).1 f = (a.push (f d)).2 := by
  simp only [push, update, mk.injEq, and_true]
  refine Array.ext (by simp) fun i hi hi' => ?_
  simp only [Array.getElem_modify, Array.getElem_push]
  split
  · next h => simp [h]
  · split
    · rfl
    · simp only [Array.size_modify, Array.size_push] at hi
      omega

/-- A new node has no relatives. -/
theorem Consistent.push {a : Arena} (h : a.Consistent) {d : Node} (hp : d.parent = none)
    (hc : d.children = []) : (a.push d).2.Consistent := by
  -- the new node is nobody's child, since all children were there before
  have hparent : ∀ n, (a.push d).2.parent n = a.parent n := by
    intro n
    rw [parent, node_push]
    split
    · next hn => rw [hp, parent, node_of_size_le (Nat.le_of_eq hn.symm)]; rfl
    · rfl
  have hchildren : ∀ n, (a.push d).2.children n = a.children n := by
    intro n
    rw [children, node_push]
    split
    · next hn => rw [hc, children, node_of_size_le (Nat.le_of_eq hn.symm)]; rfl
    · rfl
  have hkind : ∀ n, n.index < a.size → (a.push d).2.kind n = a.kind n := by
    intro n hn
    rw [kind, node_push, if_neg (Nat.ne_of_lt hn), kind]
  refine ⟨fun n => ?_, fun p c => ?_, fun c p hc => ?_, fun p c hc => ?_, ?_, fun n hn => ?_,
    fun n hn => ?_⟩
  · rw [hchildren]; exact h.nodup n
  · rw [hchildren, hparent]; exact h.mem_children p c
  · rw [hparent] at hc
    simpa using Nat.lt_succ_of_lt (h.parent_lt c p hc)
  · rw [hchildren] at hc
    simpa using Nat.lt_succ_of_lt (h.child_lt p c hc)
  · rw [size_push, ← h.locks_size]; simp [Arena.push]
  · rw [hchildren] at hn
    obtain ⟨c, hc⟩ := List.exists_mem_of_ne_nil _ hn
    rw [hkind n (lt_size_of_mem_children hc)]
    exact h.canBeParent n hn
  · rw [hparent] at hn
    obtain ⟨p, hp⟩ := Option.ne_none_iff_exists'.1 hn
    rw [hkind n (lt_size_of_parent hp)]
    exact h.canBeChild n hn

theorem Consistent.create {a : Arena} (h : a.Consistent) (k : Kind) (p : Position) :
    (a.create k p).2.Consistent :=
  h.push rfl rfl

theorem Consistent.cloneBasicNode {a b : Arena} (h : a.Consistent) {n m : NodeId}
    (hb : a.cloneBasicNode n = .ok (m, b)) : b.Consistent := by
  simp only [Arena.cloneBasicNode] at hb
  split at hb
  · injection hb with hb
    obtain rfl : _ = b := congrArg Prod.snd hb
    exact h.push rfl rfl
  · cases hb

/-! ## What a node holds

Each of these checks a few things and then rewrites one node in place.  The first three are told in
full, because more than consistency is read off them elsewhere. -/

/-- A flag is set if the kind accepts it and the node may be modified. -/
theorem setFlag_eq_ok_iff {a b : Arena} {n : NodeId} {f : Flag} {v : Bool} :
    a.setFlag n f v = .ok b ↔ f.accepts (a.kind n) = true ∧ a.modifying n = .ok () ∧
      b = a.update n fun d => { d with flags := d.flags.set f v } := by
  simp only [setFlag, checkFlag, bind_eq_ok_iff]
  constructor
  · rintro ⟨_, hf, _, hm, hb⟩
    refine ⟨?_, hm, (Except.ok.inj hb).symm⟩
    by_contra hn
    rw [if_neg hn] at hf
    cases hf
  · rintro ⟨hf, hm, rfl⟩
    exact ⟨(), by rw [if_pos hf], (), hm, rfl⟩

/-- An attribute is set if the kind accepts it, and left as it was beside a rival. -/
theorem setAttribute_eq_ok {a b : Arena} {n : NodeId} {t : Attribute} {v r : Bool}
    (h : a.setAttribute n t v = .ok (r, b)) :
    t.accepts (a.kind n) = true ∧ a.modifying n = .ok () ∧
      (b = a ∨ b = a.update n fun d => { d with attributes := d.attributes.set t v }) := by
  simp only [setAttribute, checkAttribute, bind_eq_ok_iff] at h
  obtain ⟨_, ht, _, hm, hb⟩ := h
  refine ⟨?_, hm, ?_⟩
  · by_contra hn
    rw [if_neg hn] at ht
    cases ht
  · split at hb
    · exact .inl (congrArg Prod.snd (Except.ok.inj hb)).symm
    · exact .inr (congrArg Prod.snd (Except.ok.inj hb)).symm

/-- A label is added to an owner of labels that has none of its name. -/
theorem addLabel_eq_ok {a b : Arena} {n l : NodeId} (h : a.addLabel n l = .ok b) :
    a.kind l = .label ∧ ownsLabels (a.kind n) = true ∧
      ((a.node n).labels.lookup (a.node l).text) = none ∧
      b = a.update n fun d => { d with labels := d.labels ++ [((a.node l).text, l)] } := by
  simp only [addLabel] at h
  split at h
  · cases h
  · next hk =>
    split at h
    · cases h
    · next hname =>
      simp only [Bool.or_eq_true, decide_eq_true_eq, Bool.not_eq_true', not_or] at hk hname
      exact ⟨by simpa using hk.1, by simpa using hk.2, Option.not_isSome_iff_eq_none.1 hname.2,
        (Except.ok.inj h).symm⟩

theorem Consistent.setFlag {a b : Arena} (h : a.Consistent) {n : NodeId} {f : Flag} {v : Bool}
    (hb : a.setFlag n f v = .ok b) : b.Consistent := by
  obtain ⟨-, -, rfl⟩ := setFlag_eq_ok_iff.1 hb
  exact h.update (.of_eq rfl rfl rfl)

theorem Consistent.setAttribute {a b : Arena} (h : a.Consistent) {n : NodeId} {t : Attribute}
    {v r : Bool} (hb : a.setAttribute n t v = .ok (r, b)) : b.Consistent := by
  obtain ⟨-, -, rfl | rfl⟩ := setAttribute_eq_ok hb
  · exact h
  · exact h.update (.of_eq rfl rfl rfl)

theorem setAttributeNode_eq_ok {a b : Arena} {n : NodeId} {m : Option NodeId}
    (h : a.setAttributeNode n m = .ok b) :
    b = a.update n fun d => { d with attributeNode := m } := by
  simp only [setAttributeNode, bind_eq_ok_iff] at h
  obtain ⟨_, -, h⟩ := h
  exact (Except.ok.inj h).symm

theorem Consistent.setAttributeNode {a b : Arena} (h : a.Consistent) {n : NodeId}
    {m : Option NodeId} (hb : a.setAttributeNode n m = .ok b) : b.Consistent := by
  rw [setAttributeNode_eq_ok hb]
  exact h.update (.of_eq rfl rfl rfl)

theorem setInt64_eq_ok {a b : Arena} {n : NodeId} {v : Int64} (h : a.setInt64 n v = .ok b) :
    b = a.update n fun d => { d with int := v } := by
  simp only [setInt64, bind_eq_ok_iff] at h
  obtain ⟨_, -, _, -, h⟩ := h
  exact (Except.ok.inj h).symm

theorem Consistent.setInt64 {a b : Arena} (h : a.Consistent) {n : NodeId} {v : Int64}
    (hb : a.setInt64 n v = .ok b) : b.Consistent := by
  rw [setInt64_eq_ok hb]
  exact h.update (.of_eq rfl rfl rfl)

theorem setFloat64_eq_ok {a b : Arena} {n : NodeId} {v : Float} (h : a.setFloat64 n v = .ok b) :
    b = a.update n fun d => { d with float := v } := by
  simp only [setFloat64, bind_eq_ok_iff] at h
  obtain ⟨_, -, _, -, h⟩ := h
  exact (Except.ok.inj h).symm

theorem Consistent.setFloat64 {a b : Arena} (h : a.Consistent) {n : NodeId} {v : Float}
    (hb : a.setFloat64 n v = .ok b) : b.Consistent := by
  rw [setFloat64_eq_ok hb]
  exact h.update (.of_eq rfl rfl rfl)

theorem setText_eq_ok {a b : Arena} {n : NodeId} {s : String} (h : a.setText n s = .ok b) :
    a.modifying n = .ok () ∧ b = a.update n fun d => { d with text := s } := by
  simp only [setText] at h
  split at h
  · obtain ⟨_, hm, hb⟩ := bind_eq_ok_iff.1 h
    exact ⟨hm, (Except.ok.inj hb).symm⟩
  · cases h

theorem Consistent.setText {a b : Arena} (h : a.Consistent) {n : NodeId} {s : String}
    (hb : a.setText n s = .ok b) : b.Consistent := by
  obtain ⟨-, rfl⟩ := setText_eq_ok hb
  exact h.update (.of_eq rfl rfl rfl)

theorem setSwitchOperator_eq_ok {a b : Arena} {n : NodeId} {op : Kind}
    (h : a.setSwitchOperator n op = .ok b) :
    a.modifying n = .ok () ∧ b = a.update n fun d => { d with switchOperator := op } := by
  simp only [setSwitchOperator, bind_eq_ok_iff] at h
  obtain ⟨_, -, h⟩ := h
  split at h
  · obtain ⟨_, hm, hb⟩ := bind_eq_ok_iff.1 h
    exact ⟨hm, (Except.ok.inj hb).symm⟩
  · cases h

theorem Consistent.setLink {a : Arena} (h : a.Consistent) (n : NodeId) (l : Link)
    (t : Option NodeId) : (a.setLink n l t).Consistent :=
  h.update (by cases l <;> exact .of_eq rfl rfl rfl)

theorem addVariable_eq_ok {a b : Arena} {n v : NodeId} (h : a.addVariable n v = .ok b) :
    b = a.update n fun d => { d with variableNodes := d.variableNodes ++ [v] } := by
  rw [addVariable] at h
  split at h
  · exact (Except.ok.inj h).symm
  · cases h

theorem Consistent.addLabel {a b : Arena} (h : a.Consistent) {n l : NodeId}
    (hb : a.addLabel n l = .ok b) : b.Consistent := by
  obtain ⟨-, -, -, rfl⟩ := addLabel_eq_ok hb
  exact h.update (.of_eq rfl rfl rfl)

/-! ### Tables of a parameter match -/

/-- Changes the two tables of a parameter match and nothing else. -/
def retable (a : Arena) (n : NodeId) (f : List Int32 → List Int32) (g : List Nat → List Nat) : Arena :=
  a.update n fun d => { d with paramDepth := f d.paramDepth, paramIndex := g d.paramIndex }

theorem setParamSize_eq_ok {a b : Arena} {n : NodeId} {size : Nat}
    (h : a.setParamSize n size = .ok b) : ∃ f g, b = a.retable n f g := by
  simp only [setParamSize] at h
  split at h
  · cases h
  · split at h
    · cases h
    · split at h
      · cases h
      · exact ⟨fun _ => List.replicate size matchNotFound, fun _ => List.replicate size 0,
          (Except.ok.inj h).symm⟩

theorem setParamDepth_eq_ok {a b : Arena} {n : NodeId} {j : Nat} {depth : Int32}
    (h : a.setParamDepth n j depth = .ok b) : ∃ f g, b = a.retable n f g := by
  rw [setParamDepth] at h
  split at h
  · exact ⟨(·.set j depth), id, (Except.ok.inj h).symm⟩
  · cases h

theorem setParamIndex_eq_ok {a b : Arena} {n : NodeId} {i j : Nat}
    (h : a.setParamIndex n i j = .ok b) : ∃ f g, b = a.retable n f g := by
  simp only [setParamIndex] at h
  split at h
  · exact ⟨id, (·.set i j), (Except.ok.inj h).symm⟩
  · cases h

theorem Consistent.retable {a : Arena} (h : a.Consistent) (n : NodeId) (f : List Int32 → List Int32)
    (g : List Nat → List Nat) : (a.retable n f g).Consistent :=
  h.update (.of_eq rfl rfl rfl)

/-! ## Conversions -/

theorem setBoolean_eq_ok {a b : Arena} {n : NodeId} {v : Bool} (h : a.setBoolean n v = .ok b) :
    (a.kind n = .true_ ∨ a.kind n = .false_) ∧ a.modifying n = .ok () ∧
      b = a.update n fun d => d.recast (if v then .true_ else .false_) := by
  simp only [setBoolean] at h
  split at h
  · next hk =>
    obtain ⟨_, hm, hb⟩ := bind_eq_ok_iff.1 h
    simp only [Bool.or_eq_true, decide_eq_true_eq] at hk
    exact ⟨hk, hm, (Except.ok.inj hb).symm⟩
  · cases h

/-- Turning a boolean into the other one, and every other change of the kind of a node. -/
theorem Consistent.setBoolean {a b : Arena} (h : a.Consistent) {n : NodeId} {v : Bool}
    (hb : a.setBoolean n v = .ok b) : b.Consistent := by
  obtain ⟨hk, -, rfl⟩ := setBoolean_eq_ok hb
  refine h.update ⟨rfl, rfl, fun hp => ?_, fun _ => by cases v <;> rfl⟩
  -- a boolean owns nothing, so there is nothing to keep
  exact absurd hp (by rcases hk with hk | hk <;> rw [show (a.node n).kind = _ from hk] <;> decide)

end Arena

/-- The conversions of a node in place. -/
inductive Conversion where
  | unknown | as | boolean | call | identifier | int64 | float64 | label | number | text
  | videntifier | varAttributes
  deriving DecidableEq, Repr

/-- What a conversion makes of a node, if it applies. -/
def Conversion.apply : Conversion → Node → Option Node
  | .unknown, d => some d.toUnknown
  | .as, d => d.toAs?
  | .boolean, d => d.toBoolean?
  | .call, d => d.toCall?
  | .identifier, d => d.toIdentifier?
  | .int64, d => d.toInt64?
  | .float64, d => d.toFloat64?
  | .label, d => d.toLabel?
  | .number, d => d.toNumber?
  | .text, d => d.toText?
  | .videntifier, d => d.toVidentifier?
  | .varAttributes, d => d.toVarAttributes?

/-- A conversion away from a kind that owns nothing is fit for any place that takes children. -/
theorem Node.Refits.of_leaf {d e : Node} (hp : e.parent = d.parent) (hc : e.children = d.children)
    (hd : d.kind.canBeParent = false) (he : e.kind.canBeChild = true) : d.Refits e :=
  ⟨hp, hc, fun h => absurd h (by rw [hd]; decide), fun _ => he⟩

theorem Node.booleanKind_cases (d : Node) :
    d.booleanKind = .undefined ∨
      d.kind.canBeParent = false ∧ (d.booleanKind = .true_ ∨ d.booleanKind = .false_) := by
  have ht : ∀ b, Node.truth b = .true_ ∨ Node.truth b = .false_ := by decide
  rw [Node.booleanKind]
  split <;> next hk => first
    | exact .inl rfl
    | exact .inr ⟨by rw [hk]; rfl, .inl rfl⟩
    | exact .inr ⟨by rw [hk]; rfl, .inr rfl⟩
    | exact .inr ⟨by rw [hk]; rfl, ht _⟩

/-- A change of kind fits when the new kind is attached, and owns children if the old one did. -/
theorem Node.Refits.recast {d d' : Node} {k : Kind} (hp : d'.parent = d.parent)
    (hc : d'.children = d.children) (hk : d.kind.canBeParent = true → k.canBeParent = true)
    (hk' : k.canBeChild = true) : d.Refits (d'.recast k) :=
  ⟨hp, hc, hk, fun _ => hk'⟩

theorem Node.Refits.refl (d : Node) : d.Refits d :=
  ⟨rfl, rfl, id, id⟩

theorem Node.leaf_of_integerValue? {d : Node} {v : Int64} (h : d.integerValue? = some v) :
    d.kind.canBeParent = false := by
  rw [Node.integerValue?] at h
  split at h <;> first
    | (next hk => rw [hk]; rfl)
    | cases h

theorem Node.leaf_of_textValue? {d : Node} {s : String} (h : d.textValue? = some s) :
    d.kind.canBeParent = false := by
  rw [Node.textValue?] at h
  split at h <;> first
    | (next hk => rw [hk]; rfl)
    | cases h

/-- A conversion writes a value and a kind, or leaves the node as it is. -/
theorem Conversion.eq_of_apply {c : Conversion} {d e : Node} (h : c.apply d = some e) :
    e = d ∨ ∃ k i f s, e = { d with int := i, float := f, text := s }.recast k := by
  cases c with
  | unknown =>
    cases h
    exact .inr ⟨_, _, _, _, rfl⟩
  | as | call | label | videntifier | varAttributes =>
    obtain ⟨-, ⟨⟩⟩ := Option.ite_none_right_eq_some.1 h
    exact .inr ⟨_, _, _, _, rfl⟩
  | boolean =>
    simp only [Conversion.apply, Node.toBoolean?] at h
    split at h
    · cases h
    · cases h
      exact .inr ⟨_, _, _, _, rfl⟩
  | identifier =>
    simp only [Conversion.apply, Node.toIdentifier?] at h
    split at h
    · cases h; exact .inl rfl
    · cases h; exact .inr ⟨.identifier, d.int, d.float, "private", rfl⟩
    · cases h; exact .inr ⟨.identifier, d.int, d.float, "protected", rfl⟩
    · cases h; exact .inr ⟨.identifier, d.int, d.float, "public", rfl⟩
    · cases h
  | int64 =>
    simp only [Conversion.apply, Node.toInt64?] at h
    split at h
    · cases h; exact .inl rfl
    · obtain ⟨v, -, rfl⟩ := Option.map_eq_some_iff.1 h
      exact .inr ⟨_, _, _, _, rfl⟩
  | float64 =>
    simp only [Conversion.apply, Node.toFloat64?] at h
    split at h
    · cases h; exact .inl rfl
    all_goals first
      | (cases h; exact .inr ⟨_, _, _, _, rfl⟩)
      | cases h
  | number =>
    simp only [Conversion.apply, Node.toNumber?] at h
    split at h
    all_goals first
      | (cases h; exact .inl rfl)
      | (cases h; exact .inr ⟨_, _, _, _, rfl⟩)
      | cases h
  | text =>
    simp only [Conversion.apply, Node.toText?] at h
    split at h
    · cases h; exact .inl rfl
    · obtain ⟨s, -, rfl⟩ := Option.map_eq_some_iff.1 h
      exact .inr ⟨_, _, _, _, rfl⟩

/-- **A converted node fits where it stands.**  Most conversions start from a kind that owns nothing;
the others end in a kind that owns children. -/
theorem Conversion.refits {c : Conversion} {d e : Node} (h : c.apply d = some e) : d.Refits e := by
  cases c with
  | unknown =>
    cases h
    exact .recast rfl rfl (fun _ => rfl) rfl
  | as =>
    obtain ⟨-, ⟨⟩⟩ := Option.ite_none_right_eq_some.1 h
    exact .recast rfl rfl (fun _ => rfl) rfl
  | boolean =>
    simp only [Conversion.apply, Node.toBoolean?] at h
    split at h
    · cases h
    · next hne =>
      cases h
      obtain hk | ⟨hd, hk⟩ := d.booleanKind_cases
      · exact absurd hk hne
      · refine .of_leaf rfl rfl hd ?_
        rcases hk with hk | hk <;> rw [hk] <;> rfl
  | call =>
    obtain ⟨-, ⟨⟩⟩ := Option.ite_none_right_eq_some.1 h
    exact .recast rfl rfl (fun _ => rfl) rfl
  | identifier =>
    simp only [Conversion.apply, Node.toIdentifier?] at h
    split at h
    · cases h; exact .refl d
    all_goals first
      | (next hk => cases h; exact .of_leaf rfl rfl (by rw [hk]; rfl) rfl)
      | cases h
  | int64 =>
    simp only [Conversion.apply, Node.toInt64?] at h
    split at h
    · cases h; exact .refl d
    · obtain ⟨v, hv, rfl⟩ := Option.map_eq_some_iff.1 h
      exact .of_leaf rfl rfl (Node.leaf_of_integerValue? hv) rfl
  | float64 =>
    simp only [Conversion.apply, Node.toFloat64?] at h
    split at h
    · cases h; exact .refl d
    all_goals first
      | (next hk => cases h; exact .of_leaf rfl rfl (by rw [hk]; rfl) rfl)
      | cases h
  | label =>
    obtain ⟨-, ⟨⟩⟩ := Option.ite_none_right_eq_some.1 h
    exact .recast rfl rfl (fun _ => rfl) rfl
  | number =>
    simp only [Conversion.apply, Node.toNumber?] at h
    split at h
    all_goals first
      | (cases h; exact .refl _)
      | (next hk => cases h; exact .of_leaf rfl rfl (by rw [hk]; rfl) rfl)
      | cases h
  | text =>
    simp only [Conversion.apply, Node.toText?] at h
    split at h
    · cases h; exact .refl d
    · obtain ⟨s, hs, rfl⟩ := Option.map_eq_some_iff.1 h
      exact .of_leaf rfl rfl (Node.leaf_of_textValue? hs) rfl
  | videntifier =>
    obtain ⟨hk, ⟨⟩⟩ := Option.ite_none_right_eq_some.1 h
    exact .of_leaf rfl rfl (by rw [hk]; rfl) rfl
  | varAttributes =>
    obtain ⟨-, ⟨⟩⟩ := Option.ite_none_right_eq_some.1 h
    exact .recast rfl rfl (fun _ => rfl) rfl

namespace Arena

/-- A conversion that does not apply leaves the arena as it is. -/
theorem convert_eq_ok {a b : Arena} {n : NodeId} {f : Node → Option Node} {r : Bool}
    (h : a.convert n f = .ok (r, b)) :
    a.modifying n = .ok () ∧ (b = a ∨ ∃ d, f (a.node n) = some d ∧ b = a.update n fun _ => d) := by
  obtain ⟨_, hm, h⟩ := bind_eq_ok_iff.1 h
  refine ⟨hm, ?_⟩
  split at h
  · next d hd => exact .inr ⟨d, hd, (congrArg Prod.snd (Except.ok.inj h)).symm⟩
  · exact .inl (congrArg Prod.snd (Except.ok.inj h)).symm

theorem Consistent.convert {a b : Arena} (h : a.Consistent) {n : NodeId} {c : Conversion}
    {r : Bool} (hb : a.convert n c.apply = .ok (r, b)) : b.Consistent := by
  obtain ⟨-, rfl | ⟨d, hd, rfl⟩⟩ := convert_eq_ok hb
  · exact h
  · exact h.update (Conversion.refits hd)

end Arena

end SymbolTree
