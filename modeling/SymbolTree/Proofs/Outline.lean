import SymbolTree.Proofs.Arena.Frame
import SymbolTree.Outline

/-!
# Building only adds

Whatever an outline describes, and wherever building stops, what was in the arena before is as it
was, and the new nodes hang together by themselves.

## Main statements

* `Outline.grownFrom_build` — building a tree extends a consistent arena to a consistent one.
* `Outline.housed_build` — the attribute nodes of what is built are there.
* `Outline.lockCount_build` — building takes no locks.
-/

set_option autoImplicit false
namespace SymbolTree

/-- A draft that was grown from an arena: consistent, and nothing of the arena has changed. -/
def Draft.GrownFrom (a : Arena) (s : Draft) : Prop := s.arena.Consistent ∧ a.Extends s.arena

namespace Build

theorem keeps_change {I : Draft → Prop} {f : Arena → Except NodeError Arena}
    (h : ∀ s b, I s → f s.arena = .ok b → I { s with arena := b }) : Keeps I (change f) := by
  refine Ensures.get_bind fun s hs => ?_
  cases hf : f s.arena with
  | ok b => exact Ensures.set fun _ _ => h s b hs hf
  | error e => exact Ensures.throw fun _ hs' => hs' ▸ hs

theorem keeps_check {α : Type} {I : Draft → Prop} (x : Except NodeError α) : Keeps I (check x) := by
  cases x with
  | ok x => exact Keeps.pure
  | error e => exact Keeps.throw

variable {a : Arena}

/-- A step keeps what was there before if its request does. -/
theorem keeps_grown {f : Arena → Except NodeError Arena}
    (hc : ∀ b c, b.Consistent → f b = .ok c → c.Consistent)
    (he : ∀ b c, a.Extends b → b.Consistent → f b = .ok c → a.Extends c) :
    Keeps (Draft.GrownFrom a) (change f) :=
  keeps_change fun s b h hf => ⟨hc s.arena b h.1 hf, he s.arena b h.2 h.1 hf⟩

/-- A node that is created comes after all that was there. -/
theorem create_grows (k : Kind) (p : Position) (label : Option String) :
    Ensures (Draft.GrownFrom a) (create k p label)
      (fun n s => s.GrownFrom a ∧ a.size ≤ n.index) (fun _ => Draft.GrownFrom a) :=
  fun _ hs => ⟨⟨hs.1.create k p, hs.2.push rfl rfl⟩, hs.2.size_le⟩

end Build

variable {a : Arena}

/-- A request that rewrites what a node holds, other than its attribute node and its children. -/
structure Arena.Rewrites (n : NodeId) (f : Arena → Except NodeError Arena) : Prop where
  /-- The tree stays consistent. -/
  consistent : ∀ b c, b.Consistent → f b = .ok c → c.Consistent
  /-- Nothing else changes. -/
  update : ∀ b c, f b = .ok c → c = b ∨ ∃ g, c = b.update n g ∧
    ∀ d, (g d).children = d.children ∧ (g d).attributeNode = d.attributeNode

theorem Arena.rewrites_setAttribute (n : NodeId) (t : Attribute) :
    Arena.Rewrites n fun b => (·.2) <$> b.setAttribute n t true := by
  refine ⟨fun b c h hb => ?_, fun b c hb => ?_⟩
  · obtain ⟨r, hr, rfl⟩ := map_eq_ok_iff.1 hb
    exact h.setAttribute hr
  · obtain ⟨r, hr, rfl⟩ := map_eq_ok_iff.1 hb
    obtain ⟨-, -, he | he⟩ := Arena.setAttribute_eq_ok hr
    · exact .inl he
    · exact .inr ⟨_, he, fun d => ⟨rfl, rfl⟩⟩

/-- To build a node is to create it and then to rewrite what it holds. -/
theorem NodeOutline.build_ensures {P R : Draft → Prop} {J : NodeId → Draft → Prop}
    (o : NodeOutline) (p : Position)
    (hcreate : Ensures P (Build.create o.kind p o.label) J fun _ => R)
    (hchange : ∀ n f, Arena.Rewrites n f →
      Ensures (J n) (Build.change f) (fun _ => J n) fun _ => R) :
    Ensures P (o.build p) J fun _ => R := by
  have hoption : ∀ {α : Type} {n : NodeId} {f : α → Arena → Except NodeError Arena} (x : Option α),
      (∀ x, Arena.Rewrites n (f x)) → Ensures (J n) (x.forM fun x => Build.change (f x))
        (fun _ => J n) fun _ => R := by
    intro α n f x hf
    cases x with
    | none => exact Ensures.pure fun s hs => hs
    | some x => exact hchange n _ (hf x)
  refine hcreate.bind fun n => ?_
  refine Ensures.bind (hoption o.text fun x => ⟨fun b c h hb => h.setText hb, fun b c hb =>
    .inr ⟨_, (Arena.setText_eq_ok hb).2, fun d => ⟨rfl, rfl⟩⟩⟩) fun _ => ?_
  refine Ensures.bind (hoption o.int fun x => ⟨fun b c h hb => h.setInt64 hb, fun b c hb =>
    .inr ⟨_, Arena.setInt64_eq_ok hb, fun d => ⟨rfl, rfl⟩⟩⟩) fun _ => ?_
  refine Ensures.bind (hoption o.float fun x => ⟨fun b c h hb => h.setFloat64 hb, fun b c hb =>
    .inr ⟨_, Arena.setFloat64_eq_ok hb, fun d => ⟨rfl, rfl⟩⟩⟩) fun _ => ?_
  refine Ensures.bind (Ensures.forM fun f _ => hchange n _ ⟨fun b c h hb => h.setFlag hb,
    fun b c hb => .inr ⟨_, (Arena.setFlag_eq_ok_iff.1 hb).2.2, fun d => ⟨rfl, rfl⟩⟩⟩) fun _ => ?_
  refine Ensures.bind (Ensures.forM fun t _ => hchange n _ (Arena.rewrites_setAttribute n t))
    fun _ => ?_
  exact Ensures.pure fun s hs => hs

/-- A node is created and filled, and what comes before it is left alone. -/
theorem NodeOutline.build_grows (o : NodeOutline) (p : Position) :
    Ensures (Draft.GrownFrom a) (o.build p) (fun n s => s.GrownFrom a ∧ a.size ≤ n.index)
      (fun _ => Draft.GrownFrom a) := by
  refine o.build_ensures p (Build.create_grows o.kind p o.label) fun n f hf => ?_
  refine Ensures.get_bind fun s hs => ?_
  cases hb : f s.arena with
  | error e => exact Ensures.throw fun _ hs' => hs' ▸ hs.1
  | ok b =>
    refine Ensures.set fun _ _ => ⟨⟨hf.consistent s.arena b hs.1.1 hb, ?_⟩, hs.2⟩
    obtain rfl | ⟨g, rfl, hg⟩ := hf.update s.arena b hb
    · exact hs.1.2
    · exact hs.1.2.update_of_eq hs.2 (hg _).1 (hg _).2

mutual

/-- By recursion on the outline: the node itself, its attribute node, its children.  The new nodes
come after the old ones, so that only new nodes are hung below new nodes. -/
theorem Outline.build_grows (ha : a.Consistent) : ∀ (o : Outline) (p : Position),
    Ensures (Draft.GrownFrom a) (o.build p) (fun n s => s.GrownFrom a ∧ a.size ≤ n.index)
      (fun _ => Draft.GrownFrom a)
  | .unreadable _, _ => by
    rw [Outline.build]
    exact Ensures.throw fun s hs => hs
  | .tree root attributeNode children, p => by
    rw [Outline.build]
    refine Ensures.bind (Build.keeps_check _) fun p => ?_
    refine (root.build_grows p).bind_of fun n hn => ?_
    refine Ensures.bind (Outline.buildAttributeNode_grows ha attributeNode p n hn) fun _ => ?_
    refine Ensures.bind (Outline.buildChildren_grows ha children p n hn) fun _ => ?_
    exact Ensures.pure fun s hs => ⟨hs, hn⟩

theorem Outline.buildAttributeNode_grows (ha : a.Consistent) :
    ∀ (o : Option Outline) (p : Position) (n : NodeId), a.size ≤ n.index →
      Keeps (Draft.GrownFrom a) (Outline.buildAttributeNode o p n)
  | none, _, _, _ => by
    rw [Outline.buildAttributeNode]
    exact Keeps.pure
  | some o, p, n, hn => by
    rw [Outline.buildAttributeNode]
    refine (Outline.build_grows ha o p).bind_of fun m hm => ?_
    refine Build.keeps_grown (fun b c h hb => h.setAttributeNode hb) fun b c h _ hb => ?_
    rw [Arena.setAttributeNode_eq_ok hb]
    refine h.update hn fun y hy => ?_
    rcases hy with hy | hy
    · exact h.owns n y hn (.inl hy)
    · rw [← Option.some.inj hy]; exact hm

theorem Outline.buildChildren_grows (ha : a.Consistent) :
    ∀ (os : List Outline) (p : Position) (n : NodeId), a.size ≤ n.index →
      Keeps (Draft.GrownFrom a) (Outline.buildChildren os p n)
  | [], _, _, _ => by
    rw [Outline.buildChildren]
    exact Keeps.pure
  | o :: os, p, n, hn => by
    rw [Outline.buildChildren]
    refine (Outline.build_grows ha o p).bind_of fun m hm => ?_
    refine Ensures.bind ?_ fun _ => Outline.buildChildren_grows ha os p n hn
    exact Build.keeps_grown (fun b c h hb => h.setParent hb) fun b c h hbc hb =>
      h.appendChild ha hbc hn hm hb

end

/-- **Building a tree only adds to an arena**, be it that it succeeds or that it stops halfway. -/
theorem Outline.grownFrom_build (ha : a.Consistent) (o : Outline) (p : Position) :
    (StateT.run (ExceptT.run (o.build p)) { arena := a }).2.GrownFrom a := by
  have h : Keeps (Draft.GrownFrom a) (o.build p) :=
    (Outline.build_grows ha o p).mono (fun _ h => h) (fun _ _ h => h.1) fun _ _ h => h
  exact h.state ⟨ha, .refl a⟩

/-! ## Attribute nodes -/

namespace Arena

/-- Every attribute node is there. -/
def Housed (a : Arena) : Prop := ∀ n l, (a.node n).attributeNode = some l → l.index < a.size

theorem Housed.of_eq {a b : Arena} (h : a.Housed) (hs : a.size ≤ b.size)
    (hn : ∀ n, (b.node n).attributeNode = (a.node n).attributeNode) : b.Housed :=
  fun n l hl => Nat.lt_of_lt_of_le (h n l (hn n ▸ hl)) hs

theorem Housed.of_nodes {a b : Arena} (h : a.Housed) (hn : b.nodes = a.nodes) : b.Housed :=
  h.of_eq (Nat.le_of_eq (by rw [size, size, hn])) fun n => by rw [node, node, hn]

theorem attributeNode_update {a : Arena} {n : NodeId} {f : Node → Node}
    (hf : ∀ d, (f d).attributeNode = d.attributeNode) (m : NodeId) :
    ((a.update n f).node m).attributeNode = (a.node m).attributeNode := by
  rw [node_update]
  split
  · exact hf _
  · rfl

/-- Only `setAttributeNode` writes the field. -/
theorem Housed.update {a : Arena} (h : a.Housed) {n : NodeId} {f : Node → Node}
    (hf : ∀ d, (f d).attributeNode = d.attributeNode) : (a.update n f).Housed :=
  h.of_eq (Nat.le_of_eq (size_update a n f).symm) (attributeNode_update hf)

theorem Housed.setFlag {a b : Arena} (h : a.Housed) {n : NodeId} {f : Flag} {v : Bool}
    (hb : a.setFlag n f v = .ok b) : b.Housed := by
  obtain ⟨-, -, rfl⟩ := setFlag_eq_ok_iff.1 hb
  exact h.update fun _ => rfl

theorem Housed.push {a : Arena} (h : a.Housed) {d : Node}
    (hd : ∀ l, d.attributeNode = some l → l.index < a.size) : (a.push d).2.Housed := by
  intro n l hl
  rw [size_push]
  rw [node_push] at hl
  split at hl
  · exact Nat.lt_succ_of_lt (hd l hl)
  · exact Nat.lt_succ_of_lt (h n l hl)

theorem setParent_attributeNode {a b : Arena} {c : NodeId} {p : Option NodeId} {i : Option Nat}
    (hb : a.setParent c p i = .ok b) :
    b.size = a.size ∧ ∀ n, (b.node n).attributeNode = (a.node n).attributeNode := by
  have hdetach : ∀ n, ((a.detach c).node n).attributeNode = (a.node n).attributeNode := by
    intro n
    rw [Arena.detach]
    split
    · rfl
    · refine (attributeNode_update ?_ n).trans (attributeNode_update ?_ n)
      · exact fun _ => rfl
      · exact fun _ => rfl
  obtain ⟨-, -, -, hb⟩ := setParent_eq_ok hb
  obtain ⟨-, -, rfl⟩ | ⟨-, -, -, rfl⟩ := relocate_eq_ok hb
  · exact ⟨rfl, fun _ => rfl⟩
  · cases p with
    | none => exact ⟨size_detach a c, hdetach⟩
    | some p =>
      refine ⟨(size_attach _ c p i).trans (size_detach a c), fun n => ?_⟩
      rw [Option.elim_some, Arena.attach, ← hdetach]
      refine (attributeNode_update ?_ n).trans (attributeNode_update ?_ n)
      · exact fun _ => rfl
      · exact fun _ => rfl

/-- A move does not touch attribute nodes. -/
theorem Housed.setParent {a b : Arena} (h : a.Housed) {c : NodeId} {p : Option NodeId}
    {i : Option Nat} (hb : a.setParent c p i = .ok b) : b.Housed :=
  h.of_eq (Nat.le_of_eq (setParent_attributeNode hb).1.symm) (setParent_attributeNode hb).2

end Arena

/-- A draft whose attribute nodes are there, with at least `k` nodes. -/
def Draft.Roomy (k : Nat) (s : Draft) : Prop := s.arena.Housed ∧ k ≤ s.arena.size

namespace Build

theorem change_roomy {k : Nat} {f : Arena → Except NodeError Arena}
    (h : ∀ b c, b.Housed → k ≤ b.size → f b = .ok c → c.Housed ∧ b.size ≤ c.size) :
    Ensures (Draft.Roomy k) (change f) (fun _ => Draft.Roomy k) fun _ s => s.arena.Housed := by
  refine Ensures.get_bind fun s hs => ?_
  cases hb : f s.arena with
  | error e => exact Ensures.throw fun _ hs' => hs' ▸ hs.1
  | ok b =>
    obtain ⟨hhoused, hsize⟩ := h s.arena b hs.1 hs.2 hb
    exact Ensures.set fun _ _ => ⟨hhoused, Nat.le_trans hs.2 hsize⟩

end Build

theorem NodeOutline.build_roomy (o : NodeOutline) (p : Position) (k : Nat) :
    Ensures (Draft.Roomy k) (o.build p) (fun n => Draft.Roomy (max k (n.index + 1)))
      fun _ s => s.arena.Housed := by
  refine o.build_ensures p (fun s hs => ?_) fun n f hf => Build.change_roomy fun b c hb _ hbc => ?_
  · refine ⟨hs.1.push fun _ hl => (nomatch hl), ?_⟩
    change max k (s.arena.size + 1) ≤ (s.arena.push _).2.size
    rw [Arena.size_push]
    exact Nat.max_le.2 ⟨Nat.le_succ_of_le hs.2, Nat.le_refl _⟩
  · obtain rfl | ⟨g, rfl, hg⟩ := hf.update b c hbc
    · exact ⟨hb, Nat.le_refl _⟩
    · exact ⟨hb.update fun d => (hg d).2, Nat.le_of_eq (Arena.size_update b n g).symm⟩

mutual

/-- Nodes that were built are there, so that one of them can be taken for an attribute node. -/
theorem Outline.build_roomy : ∀ (o : Outline) (p : Position) (k : Nat),
    Ensures (Draft.Roomy k) (o.build p) (fun n => Draft.Roomy (max k (n.index + 1)))
      fun _ s => s.arena.Housed
  | .unreadable _, _, _ => by
    rw [Outline.build]
    exact Ensures.throw fun s hs => hs.1
  | .tree root attributeNode children, p, k => by
    rw [Outline.build]
    refine Ensures.bind (Q := fun _ => Draft.Roomy k) ?_ fun p => ?_
    · cases root.place p with
      | ok p => exact Ensures.pure fun s hs => hs
      | error e => exact Ensures.throw fun s hs => hs.1
    refine (root.build_roomy p k).bind fun n => ?_
    have hn : n.index < max k (n.index + 1) := Nat.lt_of_lt_of_le (Nat.lt_succ_self _)
      (Nat.le_max_right k _)
    refine Ensures.bind (Outline.buildAttributeNode_roomy attributeNode p n _ hn) fun _ => ?_
    refine Ensures.bind (Outline.buildChildren_roomy children p n _ hn) fun _ => ?_
    exact Ensures.pure fun s hs => hs

theorem Outline.buildAttributeNode_roomy : ∀ (o : Option Outline) (p : Position) (n : NodeId)
    (k : Nat), n.index < k → Ensures (Draft.Roomy k) (Outline.buildAttributeNode o p n)
      (fun _ => Draft.Roomy k) fun _ s => s.arena.Housed
  | none, _, _, _, _ => by
    rw [Outline.buildAttributeNode]
    exact Ensures.pure fun s hs => hs
  | some o, p, n, k, hn => by
    rw [Outline.buildAttributeNode]
    refine (Outline.build_roomy o p k).bind fun m => ?_
    refine (Build.change_roomy fun b c hb hk hbc => ?_).mono (fun _ h => h)
      (fun _ s hs => ⟨hs.1, Nat.le_trans (Nat.le_max_left k _) hs.2⟩) fun _ _ h => h
    rw [Arena.setAttributeNode_eq_ok hbc]
    refine ⟨fun x l hl => ?_, Nat.le_of_eq (Arena.size_update b n _).symm⟩
    rw [Arena.size_update]
    rw [Arena.node_update] at hl
    split at hl
    · obtain rfl := Option.some.inj hl
      exact Nat.lt_of_lt_of_le (Nat.lt_succ_self _) (Nat.le_trans (Nat.le_max_right k _) hk)
    · exact hb x l hl

theorem Outline.buildChildren_roomy : ∀ (os : List Outline) (p : Position) (n : NodeId) (k : Nat),
    n.index < k → Ensures (Draft.Roomy k) (Outline.buildChildren os p n) (fun _ => Draft.Roomy k)
      fun _ s => s.arena.Housed
  | [], _, _, _, _ => by
    rw [Outline.buildChildren]
    exact Ensures.pure fun s hs => hs
  | o :: os, p, n, k, hn => by
    rw [Outline.buildChildren]
    refine (Outline.build_roomy o p k).bind fun m => ?_
    refine Ensures.bind (Q := fun _ => Draft.Roomy k) ?_ fun _ =>
      Outline.buildChildren_roomy os p n k hn
    refine (Build.change_roomy fun b c hb _ hbc => ?_).mono
      (fun _ h => ⟨h.1, Nat.le_trans (Nat.le_max_left k _) h.2⟩) (fun _ _ h => h) fun _ _ h => h
    exact ⟨hb.setParent hbc, Nat.le_of_eq (Arena.setParent_attributeNode hbc).1.symm⟩

end

/-- Building a tree puts every attribute node into the arena. -/
theorem Outline.housed_build {a : Arena} (ha : a.Housed) (o : Outline) (p : Position) :
    (StateT.run (ExceptT.run (o.build p)) { arena := a }).2.arena.Housed := by
  have h : Ensures (Draft.Roomy 0) (o.build p) (fun _ s => s.arena.Housed)
      fun _ s => s.arena.Housed :=
    (Outline.build_roomy o p 0).mono (fun _ h => h) (fun _ _ h => h.1) fun _ _ h => h
  exact h.state (s := { arena := a }) ⟨ha, Nat.zero_le _⟩

/-! ## Locks -/

section

variable {I : Draft → Prop}

mutual

/-- An invariant that survives the building of a node, and the requests by which nodes are put
together, survives the building of a tree. -/
theorem Outline.keeps_build (hnode : ∀ (o : NodeOutline) p, Keeps I (o.build p))
    (hattributes : ∀ n m, Keeps I (Build.change (·.setAttributeNode n m)))
    (hchild : ∀ n m, Keeps I (Build.change (·.appendChild n m))) :
    ∀ (o : Outline) (p : Position), Keeps I (o.build p)
  | .unreadable _, _ => by
    rw [Outline.build]
    exact Keeps.throw
  | .tree root attributeNode children, p => by
    rw [Outline.build]
    refine Keeps.bind (Build.keeps_check _) fun p => ?_
    refine Keeps.bind (hnode root p) fun n => ?_
    refine Keeps.bind ?_ fun _ => Keeps.bind ?_ fun _ => Keeps.pure
    · exact Outline.keeps_buildAttributeNode hnode hattributes hchild attributeNode p n
    · exact Outline.keeps_buildChildren hnode hattributes hchild children p n

theorem Outline.keeps_buildAttributeNode (hnode : ∀ (o : NodeOutline) p, Keeps I (o.build p))
    (hattributes : ∀ n m, Keeps I (Build.change (·.setAttributeNode n m)))
    (hchild : ∀ n m, Keeps I (Build.change (·.appendChild n m))) :
    ∀ (o : Option Outline) (p : Position) (n : NodeId),
      Keeps I (Outline.buildAttributeNode o p n)
  | none, _, _ => by
    rw [Outline.buildAttributeNode]
    exact Keeps.pure
  | some o, p, n => by
    rw [Outline.buildAttributeNode]
    exact Keeps.bind (Outline.keeps_build hnode hattributes hchild o p) fun m =>
      hattributes n (some m)

theorem Outline.keeps_buildChildren (hnode : ∀ (o : NodeOutline) p, Keeps I (o.build p))
    (hattributes : ∀ n m, Keeps I (Build.change (·.setAttributeNode n m)))
    (hchild : ∀ n m, Keeps I (Build.change (·.appendChild n m))) :
    ∀ (os : List Outline) (p : Position) (n : NodeId), Keeps I (Outline.buildChildren os p n)
  | [], _, _ => by
    rw [Outline.buildChildren]
    exact Keeps.pure
  | o :: os, p, n => by
    rw [Outline.buildChildren]
    refine Keeps.bind (Outline.keeps_build hnode hattributes hchild o p) fun m => ?_
    refine Keeps.bind (hchild n m) fun _ => ?_
    exact Outline.keeps_buildChildren hnode hattributes hchild os p n

end

end

/-- Building a tree leaves the number of locks on every node as it is, and so puts none on the nodes
it creates. -/
theorem Outline.lockCount_build (a : Arena) (o : Outline) (p : Position) :
    (StateT.run (ExceptT.run (o.build p)) { arena := a }).2.arena.lockCount = a.lockCount := by
  have h : Keeps (fun s : Draft => s.arena.lockCount = a.lockCount) (o.build p) := by
    refine Outline.keeps_build (fun o p => o.build_ensures p (fun s hs => ?_) fun n f hf => ?_)
      (fun n m => ?_) (fun n m => ?_) o p
    · exact (funext (s.arena.lockCount_push _)).trans hs
    · refine Build.keeps_change fun s b hs hb => ?_
      obtain rfl | ⟨g, rfl, -⟩ := hf.update s.arena b hb
      · exact hs
      · exact hs
    · refine Build.keeps_change fun s b hs hb => ?_
      rw [Arena.setAttributeNode_eq_ok hb]
      exact hs
    · refine Build.keeps_change fun s b hs hb => ?_
      exact (Arena.lockCount_setParent hb).trans hs
  exact h.state (s := { arena := a }) rfl

end SymbolTree
