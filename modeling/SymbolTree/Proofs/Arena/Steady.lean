import SymbolTree.Proofs.Arena.Protection
import SymbolTree.Proofs.Outline

/-!
# Arenas that change where nothing is locked

`Arena.Steady a b` says of an arena `a` and a later one what a search leaves as it is: the locks, the
children of what is locked, the kinds, and the tables that were there.  So a list that is locked can
be gone through by place, however nodes come and go elsewhere (`Arena.Pins`).

`Arena.InRange x` says of a request that it is not refused because of a place.  The requests that
ask for none never are.

## Main statements

* `Arena.Steady.update`, `Arena.Steady.setParent`, `Arena.Steady.build` — what is written leaves the
  rest steady.
* `Arena.SteadyBut.drop` — so does what is done under a lock.
* `Arena.Steady.pins` — what a lock holds open stays open.
-/

set_option autoImplicit false
namespace SymbolTree

/-- A request was refused because of a place that is out of range, or because a table was sized
wrongly. -/
def NodeError.isMisplaced : NodeError → Bool
  | .indexOutOfRange .. | .paramMatch _ => true
  | _ => false

namespace Arena

variable {a b c : Arena} {n : NodeId}

/-- An arena that was reached from another while what was locked there was left alone.  The tables of
the match `m`, if one is given, may have changed in any way. -/
structure SteadyBut (m : Option NodeId) (a b : Arena) : Prop where
  /-- The tree is consistent. -/
  consistent : b.Consistent
  /-- Nodes are only added. -/
  size_le : a.size ≤ b.size
  /-- The kinds are the same. -/
  kind : ∀ n, n.index < a.size → b.kind n = a.kind n
  /-- The locks are the same. -/
  lockCount : b.lockCount = a.lockCount
  /-- What is locked has the same children. -/
  children : ∀ n, a.lockCount n ≠ 0 → b.children n = a.children n
  /-- The tables are the same. -/
  tables : ∀ n, n.index < a.size → m ≠ some n →
    (b.node n).paramDepth = (a.node n).paramDepth ∧ (b.node n).paramIndex = (a.node n).paramIndex

/-- An arena that was reached from another while what was locked there was left alone, and so were
all tables. -/
abbrev Steady (a b : Arena) : Prop := SteadyBut none a b

/-- What is locked is there. -/
theorem Consistent.lt_size_of_lockCount (h : a.Consistent) (hn : a.lockCount n ≠ 0) :
    n.index < a.size :=
  Nat.lt_of_not_le fun hle => hn (lockCount_of_size_le h hle)

namespace SteadyBut

variable {m : Option NodeId}

theorem refl (h : a.Consistent) : SteadyBut m a a :=
  ⟨h, Nat.le_refl _, fun _ _ => rfl, rfl, fun _ _ => rfl, fun _ _ _ => ⟨rfl, rfl⟩⟩

/-- What one step leaves as it is, the next one does too. -/
theorem trans (h : SteadyBut m a b) (h' : SteadyBut m b c) : SteadyBut m a c where
  consistent := h'.consistent
  size_le := Nat.le_trans h.size_le h'.size_le
  kind n hn := (h'.kind n (Nat.lt_of_lt_of_le hn h.size_le)).trans (h.kind n hn)
  lockCount := h'.lockCount.trans h.lockCount
  children n hn := (h'.children n (h.lockCount ▸ hn)).trans (h.children n hn)
  tables n hn hm := by
    have h₁ := h.tables n hn hm
    have h₂ := h'.tables n (Nat.lt_of_lt_of_le hn h.size_le) hm
    exact ⟨h₂.1.trans h₁.1, h₂.2.trans h₁.2⟩

/-- A lock that is taken and let go makes no difference, and holds what is locked in between. -/
theorem drop (h : SteadyBut m (a.lock n) b) : SteadyBut m a (Guard.drop ⟨some n⟩ b) := by
  have hnode : ∀ x, (Guard.drop ⟨some n⟩ b).node x = b.node x := fun x => by
    rw [node, nodes_drop, node]
  refine ⟨h.consistent.drop _, ?_, fun x hx => ?_, lockCount_drop_lock h.lockCount, fun x hx => ?_,
    fun x hx hm => ?_⟩
  · change a.size ≤ (Guard.drop ⟨some n⟩ b).nodes.size
    rw [nodes_drop]
    exact h.size_le
  · rw [Arena.kind, hnode]
    exact h.kind x hx
  · rw [Arena.children, hnode]
    refine h.children x ?_
    rw [lockCount_lock]
    split
    · exact Nat.succ_ne_zero _
    · exact hx
  · rw [hnode]
    exact h.tables x hx hm

end SteadyBut

namespace Steady

theorem but (h : a.Steady b) (m : Option NodeId) : SteadyBut m a b :=
  ⟨h.consistent, h.size_le, h.kind, h.lockCount, h.children,
    fun n hn _ => h.tables n hn nofun⟩

/-- What becomes of the tables of a new match makes no difference for those that were there. -/
theorem trans_new {m : NodeId} (h : a.Steady b) (hm : a.size ≤ m.index)
    (h' : SteadyBut (some m) b c) : a.Steady c := by
  have hc := (h.but (some m)).trans h'
  refine ⟨hc.consistent, hc.size_le, hc.kind, hc.lockCount, hc.children, fun n hn _ => ?_⟩
  refine hc.tables n hn fun he => ?_
  obtain rfl := Option.some.inj he
  exact absurd hn (Nat.not_lt.2 hm)

/-! ### Single requests -/

/-- A node may be written to if it keeps its kind, its place and its tables. -/
theorem update (h : a.Consistent) {f : Node → Node}
    (hf : ∀ d : Node, (f d).kind = d.kind ∧ (f d).parent = d.parent ∧ (f d).children = d.children ∧
      (f d).paramDepth = d.paramDepth ∧ (f d).paramIndex = d.paramIndex) :
    a.Steady (a.update n f) where
  consistent := h.update (.of_eq (hf _).2.1 (hf _).2.2.1 (hf _).1)
  size_le := Nat.le_of_eq (size_update a n f).symm
  kind m _ := field_update Node.kind (hf _).1 m
  lockCount := rfl
  children m _ := field_update Node.children (hf _).2.2.1 m
  tables m _ _ := ⟨field_update Node.paramDepth (hf _).2.2.2.1 m,
    field_update Node.paramIndex (hf _).2.2.2.2 m⟩

/-- A new node is no child of what is locked. -/
theorem push (h : a.Consistent) {d : Node} (hp : d.parent = none) (hc : d.children = []) :
    a.Steady (a.push d).2 := by
  have hnode : ∀ n : NodeId, n.index < a.size → (a.push d).2.node n = a.node n := fun n hn => by
    rw [node_push, if_neg (Nat.ne_of_lt hn)]
  refine ⟨h.push hp hc, Nat.le_of_lt (by simp), fun n hn => ?_,
    funext (a.lockCount_push d), fun n hn => ?_, fun n hn _ => ?_⟩
  · rw [Arena.kind, hnode n hn, Arena.kind]
  · rw [Arena.children, hnode n (h.lt_size_of_lockCount hn), Arena.children]
  · rw [hnode n hn]
    exact ⟨rfl, rfl⟩

/-- A move changes only parents and children. -/
theorem node_setParent (h : a.Consistent) {m : NodeId} {p : Option NodeId} {i : Option Nat}
    (hb : a.setParent m p i = .ok b) (n : NodeId) :
    ∃ q cs, b.node n = { a.node n with parent := q, children := cs } := by
  obtain ⟨hm, hp, -, hb⟩ := setParent_eq_ok hb
  obtain ⟨-, -, rfl⟩ | ⟨-, -, -, rfl⟩ := relocate_eq_ok hb
  · exact ⟨_, _, rfl⟩
  · cases p with
    | none => exact ⟨_, _, node_detach h m n⟩
    | some p =>
      have hmlt : m.index < (a.detach m).size := size_detach a m ▸ lt_size_of_modifying hm
      have hplt : p.index < (a.detach m).size := size_detach a m ▸ lt_size_of_modifying (hp p rfl)
      rw [Option.elim_some, node_attach hmlt hplt, node_detach h]
      exact ⟨_, _, rfl⟩

/-- A locked parent refuses to be moved from or to. -/
theorem setParent (h : a.Consistent) {m : NodeId} {p : Option NodeId} {i : Option Nat}
    (hb : a.setParent m p i = .ok b) : a.Steady b := by
  have hnode := node_setParent h hb
  refine ⟨h.setParent hb, ?_, fun n _ => ?_, lockCount_setParent hb, fun n hn => ?_,
    fun n _ _ => ?_⟩
  · exact Nat.le_of_eq (setParent_attributeNode hb).1.symm
  · obtain ⟨q, cs, he⟩ := hnode n
    rw [Arena.kind, he, Arena.kind]
  · have hshields : Shields (a.node n) n a :=
      ⟨h.lt_size_of_lockCount hn, .refl _, .inl (by simpa [isLocked] using hn)⟩
    exact (hshields.setParent hb).same.children
  · obtain ⟨q, cs, he⟩ := hnode n
    rw [he]
    exact ⟨rfl, rfl⟩

/-- What is locked is not discarded. -/
theorem discard (h : a.Consistent) (hb : a.discard n = .ok b) : a.Steady b := by
  refine ⟨h.discard hb, ?_, fun m _ => ?_, lockCount_discard hb, fun m _ => ?_, fun m _ _ => ?_⟩ <;>
    obtain ⟨-, rfl⟩ | ⟨-, -, -, rfl⟩ := discard_eq_ok hb
  · exact Nat.le_refl _
  · exact Nat.le_of_eq (size_foldl_kill _ _).symm
  · rfl
  · rw [Arena.kind, node_foldl_kill, Arena.kind]
  · rfl
  · rw [Arena.children, node_foldl_kill, Arena.children]
  · exact ⟨rfl, rfl⟩
  · rw [node_foldl_kill]
    exact ⟨rfl, rfl⟩

/-- A module may be built, as far as it can be. -/
theorem build (h : a.Consistent) (o : Outline) (p : Position) :
    a.Steady (StateT.run (ExceptT.run (o.build p)) { arena := a }).2.arena := by
  obtain ⟨hconsistent, hextends⟩ := Outline.grownFrom_build h o p
  refine ⟨hconsistent, hextends.size_le, fun n hn => ?_, Outline.lockCount_build a o p,
    fun n hn => ?_, fun n hn _ => ?_⟩
  · rw [Arena.kind, hextends.node n hn, Arena.kind]
  · rw [Arena.children, hextends.node n (h.lt_size_of_lockCount hn), Arena.children]
  · rw [hextends.node n hn]
    exact ⟨rfl, rfl⟩

end Steady

/-! ### Requests in range -/

/-- If the request is refused then not because of a place that is out of range. -/
def InRange {α : Type} (x : Except NodeError α) : Prop := ∀ e, x = .error e → e.isMisplaced = false

namespace InRange

variable {α β : Type} {x : Except NodeError α} {f : α → Except NodeError β}

theorem ok {y : α} : InRange (.ok y : Except NodeError α) := fun _ h => by cases h

theorem error {e : NodeError} (he : e.isMisplaced = false) :
    InRange (.error e : Except NodeError α) := fun _ h => by
  cases h
  exact he

/-- A request in two parts is in range if both are. -/
theorem bind (hx : InRange x) (hf : ∀ y, InRange (f y)) : InRange (x >>= f) := fun e h => by
  rcases bind_eq_error_iff.1 h with h | ⟨y, -, h⟩
  · exact hx e h
  · exact hf y e h

variable {t : Attribute} {g : Flag} {v : Bool}

theorem modifying : InRange (a.modifying n) := by
  rw [Arena.modifying]
  split
  · exact error rfl
  · split
    · exact error rfl
    · exact ok

theorem checkFlag : InRange (a.checkFlag n g) := by
  rw [Arena.checkFlag]
  split
  · exact ok
  · exact error rfl

theorem checkAttribute : InRange (a.checkAttribute n t) := by
  rw [Arena.checkAttribute]
  split
  · exact ok
  · exact error rfl

theorem flag : InRange (a.flag n g) := checkFlag.bind fun _ => ok

theorem hasAttribute : InRange (a.hasAttribute n t) := checkAttribute.bind fun _ => ok

theorem setFlag : InRange (a.setFlag n g v) := checkFlag.bind fun _ => modifying.bind fun _ => ok

theorem setAttribute : InRange (a.setAttribute n t v) := by
  refine checkAttribute.bind fun _ => modifying.bind fun _ => ?_
  split
  · exact ok
  · exact ok

theorem setText {s : String} : InRange (a.setText n s) := by
  rw [Arena.setText]
  dsimp only
  split
  · exact modifying.bind fun _ => ok
  · exact error rfl

theorem addLabel {l : NodeId} : InRange (a.addLabel n l) := by
  rw [Arena.addLabel]
  split
  · exact error rfl
  · dsimp only
    split
    · exact error rfl
    · exact ok

theorem offset : InRange (a.offset n) := by
  rw [Arena.offset]
  split
  · exact error rfl
  · split
    · exact ok
    · exact error rfl

theorem discard : InRange (a.discard n) := by
  rw [Arena.discard]
  split
  · exact ok
  · split
    · exact error rfl
    · dsimp only
      split
      · exact error rfl
      · exact ok

theorem checkParentKind {p : Option NodeId} : InRange (a.checkParentKind n p) := by
  unfold Arena.checkParentKind
  split
  · split
    · exact ok
    · exact error rfl
  · exact ok

/-- Without a place there is none that could be out of range. -/
theorem relocate {p : Option NodeId} : InRange (a.relocate n p none) := by
  unfold Arena.relocate
  split
  · exact ok
  · refine checkParentKind.bind fun _ => ?_
    dsimp only
    split
    · refine bind (x := a.checkPlace n p none) ?_ fun _ => ?_
      · cases p <;> exact ok
      · cases p <;> exact ok
    · exact error rfl

theorem setParent {p : Option NodeId} : InRange (a.setParent n p none) := by
  rw [setParent_eq]
  refine modifying.bind fun _ => ?_
  extract_lets move leave
  have hleave : ∀ u, InRange (leave u) := by
    intro u
    dsimp only [leave, move]
    split
    · split
      · exact modifying.bind fun _ => relocate
      · exact relocate
    · exact relocate
  split
  · exact modifying.bind fun u => hleave u
  · exact hleave ()

end InRange

/-! ### Lists that are gone through -/

/-- The first `k` children of a list are there to stay, since the list is locked. -/
def Pins (a : Arena) (list : NodeId) (k : Nat) : Prop :=
  k ≠ 0 → a.lockCount list ≠ 0 ∧ k ≤ (a.children list).length

/-- A place below the pinned number is that of a child. -/
theorem Pins.lt {list : NodeId} {k i : Nat} (h : a.Pins list k) (hi : i < k) :
    i < (a.children list).length :=
  Nat.lt_of_lt_of_le hi (h (Nat.ne_of_gt (Nat.lt_of_le_of_lt (Nat.zero_le i) hi))).2

/-- **What is pinned stays so.** -/
theorem Steady.pins {list : NodeId} {k : Nat} (h : a.Steady b) (ha : a.Pins list k) :
    b.Pins list k := by
  intro hk
  obtain ⟨hlock, hle⟩ := ha hk
  rw [h.lockCount, h.children list hlock]
  exact ⟨hlock, hle⟩

/-- The lock of a list pins all its children. -/
theorem pins_lock (h : a.Consistent) (list : NodeId) :
    (a.lock list).Pins list (a.children list).length := by
  intro hne
  refine ⟨?_, Nat.le_refl _⟩
  obtain ⟨c, hc⟩ := List.exists_mem_of_ne_nil _ (List.ne_nil_of_length_pos (Nat.pos_of_ne_zero hne))
  rw [lockCount_lock, if_pos ⟨rfl, h.locks_size ▸ lt_size_of_mem_children hc⟩]
  exact Nat.succ_ne_zero _

end Arena

end SymbolTree
