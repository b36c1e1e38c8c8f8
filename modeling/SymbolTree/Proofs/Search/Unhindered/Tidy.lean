import Mathlib.Data.List.Basic
import SymbolTree.Proofs.Search.Follows

/-!
# Tidy trees

A search locks nodes while it starts others, and those may write: they mark names as typed,
parameters as used, the parts of a declared type as naming types.  A write to a node that a search
further out has locked is refused, which ends the whole compilation.

Whether that can happen is a matter of kinds.  Only nodes of some kinds are locked while another
search runs (`Kind.isHeld`), and in a *tidy* arena (`Arena.Tidy`) nothing is written to any of
these.  The nodes that are written to although they may be locked are packages and the values of
enumerations; an arena with an enumeration or an import is not tidy.

What a search without arguments does to a tidy arena leaves the tree as it is (`Arena.LeadsTo`).

## Main statements

* `Arena.Orderly.rewrite`, `Arena.Orderly.push` — an arena stays tidy.
* `Arena.Orderly.isHeld_of_setFlag` — a flag is refused because of a lock only if the kind of the
  node may be locked.
-/

set_option autoImplicit false
namespace SymbolTree

namespace Kind

/-- Kinds of nodes that are locked while another search runs: scopes, classes and packages, lists of
attributes, and the variables and functions whose attributes or types are worked out. -/
def isHeld (k : Kind) : Bool :=
  [Kind.directiveList, .for_, .with_, .catch_, .function, .parameters, .class_, .interface,
   .package, .variable_, .varAttributes, .attributes].contains k

/-- Kinds of what may be found in a body without enumerations, imports and parameters. -/
def isMember (k : Kind) : Bool :=
  [Kind.variable_, .function, .class_, .interface, .package].contains k

theorem isHeld_of_isMember {k : Kind} (h : k.isMember = true) : k.isHeld = true := by
  simp only [isMember, List.contains_eq_mem, List.mem_cons, List.not_mem_nil, or_false,
    decide_eq_true_eq] at h
  rcases h with rfl | rfl | rfl | rfl | rfl <;> rfl

theorem isMember_of_isClass {k : Kind} (h : k.isClass = true) : k.isMember = true := by
  simp only [isClass, Bool.or_eq_true, decide_eq_true_eq] at h
  rcases h with rfl | rfl <;> rfl

theorem not_isClass_of_isName {k : Kind} (h : k.isName = true) : k.isClass = false := by
  simp only [isName, Bool.or_eq_true, decide_eq_true_eq] at h
  rcases h with (rfl | rfl) | rfl <;> rfl

/-- A flag of names is accepted by no kind that is held, other than those of classes. -/
theorem isHeld_of_accepts_name {k : Kind} {f : Flag}
    (hf : f = .identifierTyped ∨ f = .identifierWith) (hk : k.isClass = false)
    (h : f.accepts k = true) : k.isHeld = false := by
  have hkinds : k ∈ [Kind.class_, .interface, .identifier, .videntifier, .string] := by
    rcases hf with rfl | rfl <;> simpa [Flag.accepts, Flag.kinds] using h
  simp only [List.mem_cons, List.not_mem_nil, or_false] at hkinds
  rcases hkinds with rfl | rfl | rfl | rfl | rfl
  · cases hk
  · cases hk
  · rfl
  · rfl
  · rfl

/-- The mark of a type is accepted by no kind that is held, other than that of functions. -/
theorem isHeld_of_accepts_type {k : Kind} (hk : k ≠ .function)
    (h : Attribute.type.accepts k = true) : k.isHeld = false := by
  by_contra hheld
  simp only [isHeld, List.contains_eq_mem, List.mem_cons, List.not_mem_nil, or_false,
    Bool.not_eq_false, decide_eq_true_eq] at hheld
  rcases hheld with rfl | rfl | rfl | rfl | rfl | rfl | rfl | rfl | rfl | rfl | rfl | rfl
  all_goals first
    | exact hk rfl
    | exact absurd h (by decide)

end Kind

/-- The refusal is due to a lock. -/
def NodeError.isLock : NodeError → Bool
  | .locked .. => true
  | _ => false

/-- The search was stopped because of a lock. -/
def Stop.isLock : Stop → Bool
  | .failed (.node e) => e.isLock
  | _ => false

namespace Arena

/-! ## Tidy arenas -/

/-- The names of types: those after `extends` and `implements`, and what stands below a variable or
a parameter. -/
def TypeName (a : Arena) (n : NodeId) : Prop :=
  (∃ c, n ∈ a.superNames c) ∨
    ∃ v, (a.kind v = .variable_ ∨ a.kind v = .param) ∧ n ∈ a.children v

/-- A node hangs below another one, or is the same. -/
def Below (a : Arena) : NodeId → NodeId → Prop :=
  Relation.ReflTransGen fun n m => m ∈ a.children n

/-- A tree without enumerations and imports, and with every kind in its place. -/
structure Tidy (a : Arena) : Prop where
  /-- Parents and children agree. -/
  consistent : a.Consistent
  /-- There is no enumeration. -/
  noEnum : ∀ n, a.kind n ≠ .enum
  /-- There is no import. -/
  noImport : ∀ n, a.kind n ≠ .import_
  /-- Attributes are listed in a list of attributes. -/
  attributes : ∀ n l, (a.node n).attributeNode = some l → a.kind l = .attributes
  /-- The parts of a member expression are no classes. -/
  members : ∀ m f, a.kind m = .member → f ∈ a.children m → (a.kind f).isClass = false
  /-- Parameters do not stand among directives. -/
  bodies : ∀ l p, a.kind l = .directiveList → p ∈ a.children l → a.kind p ≠ .param
  /-- No function is part of a declared type. -/
  types : ∀ t m, a.kind t = .type → a.Below t m → a.kind m ≠ .function
  /-- The name of a type leads to what may be found in a body. -/
  linked : ∀ n t, a.TypeName n → (a.node n).inst = some t → (a.kind t).isMember = true

/-- A tidy arena in which only such nodes are locked as may be while another search runs. -/
structure Orderly (a : Arena) : Prop where
  /-- The arena is tidy. -/
  tidy : a.Tidy
  /-- Only nodes of some kinds are locked. -/
  held : ∀ n, a.isLocked n = true → (a.kind n).isHeld = true

/-- An arena after another one: the tree is the same, and the nodes that were added are names and
types that stand nowhere. -/
structure Sprouts (a b : Arena) : Prop where
  /-- Nodes are only added. -/
  size_le : a.size ≤ b.size
  /-- No node has other children. -/
  children : ∀ n, b.children n = a.children n
  /-- No node has another attribute node. -/
  attributeNode : ∀ n, (b.node n).attributeNode = (a.node n).attributeNode
  /-- A node that was there is of the same kind. -/
  kind : ∀ n, n.index < a.size → b.kind n = a.kind n
  /-- A node that was added is a name or a type. -/
  added : ∀ n, a.size ≤ n.index → b.kind n = a.kind n ∨ b.kind n = .identifier ∨ b.kind n = .void

/-- What a search leaves of an orderly arena. -/
structure LeadsTo (a b : Arena) : Prop where
  /-- The arena is orderly. -/
  orderly : b.Orderly
  /-- The tree is the same. -/
  sprouts : a.Sprouts b

namespace Sprouts

variable {a b c : Arena} {n : NodeId}

theorem refl (a : Arena) : a.Sprouts a :=
  ⟨Nat.le_refl _, fun _ => rfl, fun _ => rfl, fun _ _ => rfl, fun _ _ => .inl rfl⟩

theorem lt (h : a.Sprouts b) (hn : n.index < a.size) : n.index < b.size :=
  Nat.lt_of_lt_of_le hn h.size_le

theorem trans (h : a.Sprouts b) (h' : b.Sprouts c) : a.Sprouts c where
  size_le := Nat.le_trans h.size_le h'.size_le
  children n := (h'.children n).trans (h.children n)
  attributeNode n := (h'.attributeNode n).trans (h.attributeNode n)
  kind n hn := (h'.kind n (h.lt hn)).trans (h.kind n hn)
  added n hn := by
    by_cases hb : n.index < b.size
    · rw [h'.kind n hb]
      exact h.added n hn
    · rcases h'.added n (Nat.le_of_not_lt hb) with hk | hk
      · rw [hk]
        exact h.added n hn
      · exact .inr hk

/-- A kind that no added node has is that of a node that was there. -/
theorem kind_eq (h : a.Sprouts b) {k : Kind} (hi : k ≠ .identifier) (hv : k ≠ .void)
    (hk : b.kind n = k) : a.kind n = k := by
  by_cases hn : n.index < a.size
  · rw [← h.kind n hn, hk]
  · rcases h.added n (Nat.le_of_not_lt hn) with hsame | hid | hvoid
    · rw [← hsame, hk]
    · exact absurd (hk.symm.trans hid) hi
    · exact absurd (hk.symm.trans hvoid) hv

/-- A kind other than that of a missing node stays. -/
theorem kind_of_ne (h : a.Sprouts b) (hk : a.kind n ≠ .unknown) : b.kind n = a.kind n := by
  refine h.kind n ?_
  by_contra hn
  exact hk (congrArg Node.kind (node_of_size_le (Nat.le_of_not_lt hn)))

/-- So does one that passes a test which a missing node fails. -/
theorem kind_of_test (h : a.Sprouts b) {p : Kind → Bool} (hp : p .unknown = false)
    (hk : p (a.kind n) = true) : b.kind n = a.kind n := by
  refine h.kind_of_ne fun hunknown => ?_
  rw [hunknown, hp] at hk
  cases hk

/-- A node may be changed in its place. -/
theorem update {g : Node → Node} (hk : (g (a.node n)).kind = a.kind n)
    (hchildren : (g (a.node n)).children = a.children n)
    (hattr : (g (a.node n)).attributeNode = (a.node n).attributeNode) :
    a.Sprouts (a.update n g) := by
  have hkind : ∀ m, (a.update n g).kind m = a.kind m := field_update Node.kind hk
  exact ⟨Nat.le_of_eq (size_update a n g).symm, field_update Node.children hchildren,
    field_update Node.attributeNode hattr, fun m _ => hkind m, fun m _ => .inl (hkind m)⟩

/-- A name or a type that stands nowhere may be added. -/
theorem push {d : Node} (hk : d.kind = .identifier ∨ d.kind = .void) (hchildren : d.children = [])
    (hattr : d.attributeNode = none) : a.Sprouts (a.push d).2 := by
  have habsent : ∀ m, m.index = a.size → a.node m = Node.absent := fun m hm =>
    node_of_size_le (Nat.le_of_eq hm.symm)
  refine ⟨by simp, fun m => ?_, fun m => ?_, fun m hm => ?_,
    fun m _ => ?_⟩
  · rw [Arena.children, Arena.children, node_push]
    split
    · next hm => rw [habsent m hm, hchildren]; rfl
    · rfl
  · rw [node_push]
    split
    · next hm => rw [habsent m hm, hattr]; rfl
    · rfl
  · rw [Arena.kind, node_push, if_neg (Nat.ne_of_lt hm), Arena.kind]
  · rw [Arena.kind, node_push]
    split
    · exact .inr hk
    · exact .inl rfl

theorem below (h : a.Sprouts b) {m : NodeId} (hm : b.Below n m) : a.Below n m :=
  Relation.ReflTransGen.mono (fun x y hy => by rwa [h.children] at hy) n m hm

theorem superNames (h : a.Sprouts b) (ha : a.Consistent) (n : NodeId) :
    b.superNames n = a.superNames n := by
  rw [Arena.superNames, Arena.superNames, h.children]
  refine List.flatMap_congr fun clause hclause => ?_
  rw [h.kind clause (ha.child_lt n clause hclause), h.children]
  split
  · split
    · next name hname =>
      have hlt := ha.child_lt clause name (by rw [hname]; exact List.mem_singleton_self name)
      rw [h.kind name hlt, h.children]
    · rfl
  · rfl

theorem typeName_iff (h : a.Sprouts b) (ha : a.Consistent) : b.TypeName n ↔ a.TypeName n := by
  refine or_congr (exists_congr fun c => ?_) (exists_congr fun v => ?_)
  · rw [h.superNames ha]
  · rw [h.children]
    refine and_congr_left fun hv => ?_
    rw [h.kind v (lt_size_of_mem_children hv)]

end Sprouts

namespace Tidy

variable {a b : Arena} {n t : NodeId}

/-- What is tidy stays so while names and types are added, if links keep to the rule. -/
theorem sprouts (h : a.Tidy) (hs : a.Sprouts b) (hb : b.Consistent)
    (hlinked : ∀ n t, a.TypeName n → (b.node n).inst = some t → (b.kind t).isMember = true) :
    b.Tidy where
  consistent := hb
  noEnum n hn := h.noEnum n (hs.kind_eq (by decide) (by decide) hn)
  noImport n hn := h.noImport n (hs.kind_eq (by decide) (by decide) hn)
  attributes n l hl := by
    rw [hs.attributeNode] at hl
    have hk := h.attributes n l hl
    rw [hs.kind_of_ne (by rw [hk]; decide), hk]
  members m f hm hf := by
    rw [hs.children] at hf
    rw [hs.kind f (h.consistent.child_lt m f hf)]
    exact h.members m f (hs.kind_eq (by decide) (by decide) hm) hf
  bodies l p hl hp := by
    rw [hs.children] at hp
    rw [hs.kind p (h.consistent.child_lt l p hp)]
    exact h.bodies l p (hs.kind_eq (by decide) (by decide) hl) hp
  types t m ht hm hfunction :=
    h.types t m (hs.kind_eq (by decide) (by decide) ht) (hs.below hm)
      (hs.kind_eq (by decide) (by decide) hfunction)
  linked n t hn ht := hlinked n t ((hs.typeName_iff h.consistent).1 hn) ht

end Tidy

namespace Orderly

variable {a b : Arena} {n : NodeId}

/-- Rewriting a node in its place, where a new link keeps to the rule. -/
theorem rewrite (h : a.Orderly) {g : Node → Node}
    (hg : ∀ d, (g d).kind = d.kind ∧ (g d).parent = d.parent ∧ (g d).children = d.children ∧
      (g d).attributeNode = d.attributeNode)
    (hinst : ∀ d t, (g d).inst = some t → d.inst = some t ∨ (a.kind t).isMember = true) :
    LeadsTo a (a.update n g) := by
  have hnode : ∀ m, (a.update n g).node m = g (a.node m) ∨ (a.update n g).node m = a.node m := by
    intro m
    rw [node_update]
    split
    · exact .inl rfl
    · exact .inr rfl
  have hkind : ∀ m, (a.update n g).kind m = a.kind m := fun m => by
    rw [kind, kind]
    rcases hnode m with hm | hm <;> rw [hm]
    exact (hg _).1
  have hs : a.Sprouts (a.update n g) := .update (hg _).1 (hg _).2.2.1 (hg _).2.2.2
  have hb : (a.update n g).Consistent :=
    h.tidy.consistent.update (.of_eq (hg _).2.1 (hg _).2.2.1 (hg _).1)
  refine ⟨⟨h.tidy.sprouts hs hb fun m t hm ht => ?_, fun m hm => ?_⟩, hs⟩
  · rw [hkind]
    rcases hnode m with he | he <;> rw [he] at ht
    · exact (hinst _ t ht).elim (h.tidy.linked m t hm) id
    · exact h.tidy.linked m t hm ht
  · rw [hkind]
    exact h.held m hm

/-- Rewriting what is neither the kind, the place, the attribute node nor the link of a node. -/
theorem update (h : a.Orderly) {g : Node → Node}
    (hg : ∀ d, (g d).kind = d.kind ∧ (g d).parent = d.parent ∧ (g d).children = d.children ∧
      (g d).attributeNode = d.attributeNode) (hinst : ∀ d, (g d).inst = d.inst) :
    LeadsTo a (a.update n g) :=
  h.rewrite hg fun d _ ht => .inl (hinst d ▸ ht)

theorem setFlag (h : a.Orderly) {f : Flag} {v : Bool} (hb : a.setFlag n f v = .ok b) :
    LeadsTo a b := by
  obtain ⟨-, -, rfl⟩ := setFlag_eq_ok_iff.1 hb
  exact h.update (fun _ => ⟨rfl, rfl, rfl, rfl⟩) fun _ => rfl

theorem setAttribute (h : a.Orderly) {t : Attribute} {v r : Bool}
    (hb : a.setAttribute n t v = .ok (r, b)) : LeadsTo a b := by
  obtain ⟨-, -, rfl | rfl⟩ := setAttribute_eq_ok hb
  · exact ⟨h, .refl _⟩
  · exact h.update (fun _ => ⟨rfl, rfl, rfl, rfl⟩) fun _ => rfl

theorem setText (h : a.Orderly) {s : String} (hb : a.setText n s = .ok b) : LeadsTo a b := by
  obtain ⟨-, rfl⟩ := setText_eq_ok hb
  exact h.update (fun _ => ⟨rfl, rfl, rfl, rfl⟩) fun _ => rfl

theorem setType (h : a.Orderly) (t : Option NodeId) : LeadsTo a (a.setLink n .typeNode t) :=
  h.update (fun _ => ⟨rfl, rfl, rfl, rfl⟩) fun _ => rfl

theorem setInst (h : a.Orderly) {t : NodeId} (ht : (a.kind t).isMember = true) :
    LeadsTo a (a.setLink n .inst (some t)) := by
  refine h.rewrite (fun _ => ⟨rfl, rfl, rfl, rfl⟩) fun _ u hu => .inr ?_
  obtain rfl : t = u := Option.some.inj hu
  exact ht

/-- A name or a type that stands nowhere is added. -/
theorem push (h : a.Orderly) {d : Node} (hk : d.kind = .identifier ∨ d.kind = .void)
    (hparent : d.parent = none) (hchildren : d.children = []) (hattr : d.attributeNode = none)
    (hinst : d.inst = none) : LeadsTo a (a.push d).2 := by
  have hs : a.Sprouts (a.push d).2 := .push hk hchildren hattr
  refine ⟨⟨h.tidy.sprouts hs (h.tidy.consistent.push hparent hchildren) fun m t hm ht => ?_,
    fun m hm => ?_⟩, hs⟩
  · rw [node_push] at ht
    split at ht
    · rw [hinst] at ht
      cases ht
    · have hk := h.tidy.linked m t hm ht
      rwa [hs.kind_of_test rfl hk]
  · rw [isLocked, lockCount_push] at hm
    have hk := h.held m hm
    rwa [hs.kind_of_test rfl hk]

theorem lock (h : a.Orderly) (hn : (a.kind n).isHeld = true) : LeadsTo a (a.lock n) := by
  have hs : a.Sprouts (a.lock n) :=
    ⟨Nat.le_refl _, fun _ => rfl, fun _ => rfl, fun _ _ => rfl, fun _ _ => .inl rfl⟩
  refine ⟨⟨h.tidy.sprouts hs (h.tidy.consistent.lock n) h.tidy.linked, fun m hm => ?_⟩, hs⟩
  rw [isLocked, lockCount_lock] at hm
  split at hm
  · next hmn =>
    rw [hmn.1]
    exact hn
  · exact h.held m hm

theorem drop (h : a.Orderly) (n : NodeId) : LeadsTo a (Guard.drop ⟨some n⟩ a) := by
  have hnode : (Guard.drop ⟨some n⟩ a).node = a.node := by
    funext m
    rw [node, node, nodes_drop]
  have hkind : (Guard.drop ⟨some n⟩ a).kind = a.kind := by
    funext m
    rw [kind, kind, hnode]
  have hs : a.Sprouts (Guard.drop ⟨some n⟩ a) := by
    refine ⟨Nat.le_of_eq ?_, fun m => ?_, fun m => ?_, fun m _ => ?_, fun m _ => .inl ?_⟩
    · rw [size, size, nodes_drop]
    · rw [children, children, hnode]
    · rw [hnode]
    · rw [hkind]
    · rw [hkind]
  refine ⟨⟨h.tidy.sprouts hs (h.tidy.consistent.drop _) fun m t hm ht => ?_, fun m hm => ?_⟩, hs⟩
  · rw [hnode] at ht
    rw [hkind]
    exact h.tidy.linked m t hm ht
  · rw [hkind]
    refine h.held m ?_
    rw [isLocked, decide_eq_true_eq] at hm ⊢
    rw [lockCount_drop] at hm
    split at hm
    · exact fun hzero => hm (by rw [hzero])
    · exact hm

end Orderly

namespace LeadsTo

variable {a b c : Arena} {n : NodeId}

theorem refl (h : a.Orderly) : a.LeadsTo a := ⟨h, .refl a⟩

theorem trans (h : a.LeadsTo b) (h' : b.LeadsTo c) : a.LeadsTo c :=
  ⟨h'.orderly, h.sprouts.trans h'.sprouts⟩

/-- A kind other than that of a missing node stays. -/
theorem kind (h : a.LeadsTo b) {k : Kind} (hn : a.kind n = k) (hk : k ≠ .unknown) :
    b.kind n = k :=
  (h.sprouts.kind_of_ne (hn ▸ hk)).trans hn

theorem isMember (h : a.LeadsTo b) (hn : (a.kind n).isMember = true) :
    (b.kind n).isMember = true := by
  rw [h.kind rfl fun hunknown => ?_]
  · exact hn
  · rw [hunknown] at hn
    cases hn

theorem not_isClass (h : a.LeadsTo b) (hn : (a.kind n).isClass = false) :
    (b.kind n).isClass = false := by
  by_contra hclass
  have hclass : b.kind n = .class_ ∨ b.kind n = .interface := by
    simpa [Kind.isClass, ← or_iff_not_imp_left] using hclass
  rcases hclass with hk | hk
  · rw [h.sprouts.kind_eq (by decide) (by decide) hk] at hn
    cases hn
  · rw [h.sprouts.kind_eq (by decide) (by decide) hk] at hn
    cases hn

end LeadsTo

/-! ## Refusals -/

section

variable {a : Arena} {n : NodeId} {f : Flag} {t : Attribute} {v : Bool} {e : NodeError}

theorem not_isLock_checkFlag (h : a.checkFlag n f = .error e) : e.isLock = false := by
  rw [checkFlag] at h
  split at h <;> cases h
  rfl

theorem not_isLock_checkAttribute (h : a.checkAttribute n t = .error e) : e.isLock = false := by
  rw [checkAttribute] at h
  split at h <;> cases h
  rfl

/-- Reading a flag is not a matter of locks. -/
theorem not_isLock_flag (h : a.flag n f = .error e) : e.isLock = false := by
  rcases bind_eq_error_iff.1 h with h | ⟨_, -, h⟩
  · exact not_isLock_checkFlag h
  · cases h

/-- Reading an attribute is not a matter of locks. -/
theorem not_isLock_hasAttribute (h : a.hasAttribute n t = .error e) : e.isLock = false := by
  rcases bind_eq_error_iff.1 h with h | ⟨_, -, h⟩
  · exact not_isLock_checkAttribute h
  · cases h

theorem isLocked_of_modifying (h : a.modifying n = .error e) (he : e.isLock = true) :
    a.isLocked n = true := by
  rw [modifying] at h
  split at h
  · cases h
    cases he
  · split at h
    · assumption
    · cases h

namespace Orderly

theorem isHeld_of_setText (ha : a.Orderly) {s : String} (h : a.setText n s = .error e)
    (he : e.isLock = true) : (a.kind n).isHeld = true := by
  simp only [Arena.setText] at h
  split at h
  · rcases bind_eq_error_iff.1 h with h | ⟨_, -, h⟩
    · exact ha.held n (isLocked_of_modifying h he)
    · cases h
  · cases h
    cases he

/-- A flag is refused because of a lock only where the flag is accepted. -/
theorem isHeld_of_setFlag (ha : a.Orderly) (h : a.setFlag n f v = .error e)
    (he : e.isLock = true) : f.accepts (a.kind n) = true ∧ (a.kind n).isHeld = true := by
  rcases bind_eq_error_iff.1 h with h | ⟨_, hf, h⟩
  · rw [not_isLock_checkFlag h] at he
    cases he
  · rcases bind_eq_error_iff.1 h with h | ⟨_, -, h⟩
    · refine ⟨?_, ha.held n (isLocked_of_modifying h he)⟩
      by_contra hn
      rw [checkFlag, if_neg hn] at hf
      cases hf
    · cases h

/-- An attribute is refused because of a lock only where the attribute is accepted. -/
theorem isHeld_of_setAttribute (ha : a.Orderly) (h : a.setAttribute n t v = .error e)
    (he : e.isLock = true) : t.accepts (a.kind n) = true ∧ (a.kind n).isHeld = true := by
  rcases bind_eq_error_iff.1 h with h | ⟨_, ht, h⟩
  · rw [not_isLock_checkAttribute h] at he
    cases he
  · rcases bind_eq_error_iff.1 h with h | ⟨_, -, h⟩
    · refine ⟨?_, ha.held n (isLocked_of_modifying h he)⟩
      by_contra hn
      rw [checkAttribute, if_neg hn] at ht
      cases ht
    · split at h <;> cases h

end Orderly

end

end Arena

end SymbolTree
