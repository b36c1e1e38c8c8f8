import SymbolTree.Proofs.Program
import SymbolTree.Search.Attributes

/-!
# Effective attributes of a tree

What attributes a declaration has can be read off the tree, as long as the attribute lists name no
variables: those written on it, those of its list as far as they have no rival, and some of those of
the node around it.  `Arena.Effective` says so without a search.  The mark of a type is left out,
since searches add it on their way; it is not inherited and has no rivals.

## Main statements

* `Arena.Effective.unique` — a node has one set of effective attributes at most.
* `Arena.Effective.contains_listed` — the visibility that is written on it is among them.
* `Arena.Effective.not_cyclic` — it has none if it inherits attributes from itself.
* `Arena.Effective.transfer` — two trees that agree on a node and on what lies above it give it the
  same effective attributes.
-/

set_option autoImplicit false
namespace SymbolTree

namespace AttributeSet

/-- The set with one more attribute, unless a rival is there. -/
def add (s : AttributeSet) (t : Attribute) : AttributeSet :=
  match s.conflict? t with
  | some _ => s
  | none => s.set t true

/-- The same attributes, the mark of a type aside. -/
def Agrees (s t : AttributeSet) : Prop := ∀ x, x ≠ .type → s.contains x = t.contains x

namespace Agrees

variable {s t s' t' : AttributeSet}

theorem refl (s : AttributeSet) : s.Agrees s := fun _ _ => rfl

theorem set_type (s : AttributeSet) : s.Agrees (s.set .type false) := by
  intro x hx
  simp [hx]

theorem set (h : s.Agrees t) (x : Attribute) (b : Bool) : (s.set x b).Agrees (t.set x b) := by
  intro y hy
  simp [h y hy]

theorem any (h : s.Agrees t) {xs : List Attribute} (hxs : Attribute.type ∉ xs) :
    s.any xs = t.any xs := by
  rw [AttributeSet.any, AttributeSet.any, Bool.eq_iff_iff, List.any_eq_true, List.any_eq_true]
  refine exists_congr fun x => and_congr_right fun hx => ?_
  rw [h x fun e => hxs (e ▸ hx)]

theorem add (h : s.Agrees t) (x : Attribute) : (s.add x).Agrees (t.add x) := by
  have hconflict : s.conflict? x = t.conflict? x := by
    rw [conflict?, conflict?, h.any (by cases x <;> decide)]
  rw [AttributeSet.add, AttributeSet.add, hconflict]
  cases t.conflict? x with
  | none => exact h.set x true
  | some g => exact h

theorem inheritEach (h : s.Agrees t) (h' : s'.Agrees t') {xs : List Attribute}
    (hxs : Attribute.type ∉ xs) : (s.inheritEach s' xs).Agrees (t.inheritEach t' xs) := by
  rw [AttributeSet.inheritEach, AttributeSet.inheritEach]
  induction xs generalizing s t with
  | nil => exact h
  | cons x xs ih =>
    have hx : x ≠ .type := fun e => hxs (e ▸ List.mem_cons_self)
    rw [List.foldl_cons, List.foldl_cons, h' x hx]
    refine ih ?_ fun hmem => hxs (List.mem_cons_of_mem x hmem)
    split
    · exact h.set x true
    · exact h

theorem inheritFamily (h : s.Agrees t) (h' : s'.Agrees t') {xs : List Attribute}
    (hxs : Attribute.type ∉ xs) : (s.inheritFamily s' xs).Agrees (t.inheritFamily t' xs) := by
  rw [AttributeSet.inheritFamily, AttributeSet.inheritFamily]
  rw [h.any hxs]
  split
  · exact h
  · clear * - h h' hxs
    induction xs generalizing s t with
    | nil => exact h
    | cons x xs ih =>
      have hx : x ≠ .type := fun e => hxs (e ▸ List.mem_cons_self)
      rw [List.foldl_cons, List.foldl_cons, h' x hx]
      exact ih (h.set x _) fun hmem => hxs (List.mem_cons_of_mem x hmem)

theorem inherit (h : s.Agrees t) (h' : s'.Agrees t') (k : Kind) :
    (s.inherit s' k).Agrees (t.inherit t' k) := by
  have hfalse : ∀ {u v : AttributeSet}, u.Agrees v → (u.inheritFalse s').Agrees
      (v.inheritFalse t') := by
    intro u v huv
    rw [AttributeSet.inheritFalse, AttributeSet.inheritFalse, h' .false_ (by decide)]
    split
    · exact (huv.set .false_ true).set .true_ false
    · exact huv
  have hvisibility : Attribute.type ∉ Attribute.visibility := by decide
  have hmemberSort : Attribute.type ∉ Attribute.memberSort := by decide
  have heach : Attribute.type ∉ [Attribute.native, .enumerable] := by decide
  have hbase := hfalse (((h.inheritFamily h' hvisibility).inheritFamily h' hmemberSort).inheritEach
    h' heach)
  rw [AttributeSet.inherit, AttributeSet.inherit]
  split
  · exact hbase
  · exact hbase.inheritEach h' (by decide)

end Agrees

theorem inherit_empty (k : Kind) : empty.inherit empty k = empty := by
  cases k <;> rfl

section Inherit

variable {s f : AttributeSet} {x : Attribute} {xs : List Attribute}

theorem contains_foldl_taken (hx : x ∉ xs) :
    (xs.foldl (fun s t => s.set t (f.contains t)) s).contains x = s.contains x := by
  induction xs generalizing s with
  | nil => rfl
  | cons y xs ih =>
    rw [List.mem_cons, not_or] at hx
    simp [ih hx.2, hx.1]

theorem contains_inheritFamily (hx : x ∉ xs) :
    (s.inheritFamily f xs).contains x = s.contains x := by
  rw [inheritFamily]
  split
  · rfl
  · exact contains_foldl_taken hx

theorem contains_inheritEach (hx : x ∉ xs) :
    (s.inheritEach f xs).contains x = s.contains x := by
  rw [inheritEach]
  induction xs generalizing s with
  | nil => rfl
  | cons y xs ih =>
    rw [List.mem_cons, not_or] at hx
    rw [List.foldl_cons, ih hx.2]
    split
    · simp [hx.1]
    · rfl

theorem contains_inheritFalse (hx : x ∉ [Attribute.false_, .true_]) :
    (s.inheritFalse f).contains x = s.contains x := by
  simp only [List.mem_cons, List.not_mem_nil, or_false, not_or] at hx
  rw [inheritFalse]
  split
  · simp [hx.1, hx.2]
  · rfl

/-- The visibility that is written on a declaration is not changed by what it inherits. -/
theorem contains_inherit (hx : x ∈ Attribute.visibility) (hs : s.contains x = true) (k : Kind) :
    (s.inherit f k).contains x = true := by
  have hothers : ∀ x ∈ Attribute.visibility, x ∉ Attribute.memberSort ∧
      x ∉ [Attribute.false_, .true_] ∧ x ∉ [Attribute.native, .enumerable] ∧
      x ∉ [Attribute.dynamic, .final] := by decide
  obtain ⟨hmemberSort, hfalse, heach, hlast⟩ := hothers x hx
  have hfamily : s.inheritFamily f Attribute.visibility = s :=
    if_pos (List.any_eq_true.2 ⟨x, hx, hs⟩)
  have hbase : (((s.inheritFamily f Attribute.memberSort).inheritEach f
      [.native, .enumerable]).inheritFalse f).contains x = true := by
    rw [contains_inheritFalse hfalse, contains_inheritEach heach,
      contains_inheritFamily hmemberSort, hs]
  rw [inherit, hfamily]
  split
  · exact hbase
  · rw [contains_inheritEach hlast, hbase]

end Inherit

end AttributeSet

/-! ## Attributes in a tree -/

namespace Arena

/-- The entries of the attribute list of a node. -/
def attributeEntries (a : Arena) (n : NodeId) : List NodeId :=
  match a.attributeNode n with
  | some list => a.children list
  | none => []

/-- The attribute that an entry stands for by itself: a keyword, or the name of an attribute. -/
def entryAttribute (a : Arena) (e : NodeId) : Option Attribute :=
  if a.kind e = .identifier then Attribute.ofListName? (a.name e)
  else Attribute.ofKeyword? (a.kind e)

/-- The attribute list of a node holds only keywords and names of attributes. -/
def BuiltIn (a : Arena) (n : NodeId) : Prop :=
  ∀ e ∈ a.attributeEntries n, (a.entryAttribute e).isSome = true

/-- Without an attribute list there is nothing to hold. -/
theorem builtIn_of_unlisted {a : Arena} {n : NodeId} (h : (a.node n).attributeNode = none) :
    a.BuiltIn n := by
  intro e he
  rw [attributeEntries, attributeNode, h] at he
  exact absurd he List.not_mem_nil

/-- A set of attributes with the one that an entry stands for. -/
def addEntry (a : Arena) (s : AttributeSet) (e : NodeId) : AttributeSet :=
  match a.entryAttribute e with
  | some t => s.add t
  | none => s

/-- The attributes that are written on a node, the mark of a type aside. -/
def ownAttributes (a : Arena) (n : NodeId) : AttributeSet :=
  (a.node n).attributes.set .type false

/-- The attributes that are written on a node and in its list. -/
def listedAttributes (a : Arena) (n : NodeId) : AttributeSet :=
  (a.attributeEntries n).foldl a.addEntry (a.ownAttributes n)

/-- A function with a body is not native. -/
def withoutNative (a : Arena) (n : NodeId) (s : AttributeSet) : AttributeSet :=
  if s.contains .native && a.kind n = .function
      && (a.children n).any (fun c => a.kind c = .directiveList) then s.set .native false
  else s

/-- The attributes of a node with those that it inherits.  A program has its own, and a package
inherits none. -/
inductive Effective (a : Arena) : NodeId → AttributeSet → Prop
  | program {n : NodeId} (hk : a.kind n = .program) : Effective a n (a.ownAttributes n)
  | alone {n : NodeId} (hk : a.kind n ≠ .program) (hp : a.parent n = none ∨ a.kind n = .package) :
      Effective a n (a.withoutNative n (a.listedAttributes n))
  | inherited {n p : NodeId} {s : AttributeSet} (hk : a.kind n ≠ .program)
      (hk' : a.kind n ≠ .package) (hp : a.parent n = some p) (h : Effective a p s) :
      Effective a n (a.withoutNative n ((a.listedAttributes n).inherit s (a.kind p)))

/-- A node inherits attributes from its parent, unless it is a program or a package. -/
def InheritsFrom (a : Arena) (n p : NodeId) : Prop :=
  a.kind n ≠ .program ∧ a.kind n ≠ .package ∧ a.parent n = some p

namespace Effective

variable {a : Arena} {n : NodeId} {s t : AttributeSet}

theorem unique (h : a.Effective n s) (h' : a.Effective n t) : s = t := by
  induction h generalizing t with
  | program hk =>
    cases h' with
    | program => rfl
    | alone hk' => exact absurd hk hk'
    | inherited hk' => exact absurd hk hk'
  | alone hk hp =>
    cases h' with
    | program hk' => exact absurd hk' hk
    | alone => rfl
    | inherited _ hk' hp' =>
      rcases hp with hp | hp
      · rw [hp] at hp'; cases hp'
      · exact absurd hp hk'
  | inherited hk hk' hp _ ih =>
    cases h' with
    | program hk'' => exact absurd hk'' hk
    | alone _ hp' =>
      rcases hp' with hp' | hp'
      · rw [hp'] at hp; cases hp
      · exact absurd hp' hk'
    | inherited _ _ hp' h =>
      cases hp.symm.trans hp'
      rw [ih h]

/-- The visibility that is written on a declaration or in its list is effective. -/
theorem contains_listed {x : Attribute} (h : a.Effective n s) (hx : x ∈ Attribute.visibility)
    (hk : a.kind n ≠ .program) (hn : (a.listedAttributes n).contains x = true) :
    s.contains x = true := by
  have hnative : ∀ {t : AttributeSet}, t.contains x = true →
      (a.withoutNative n t).contains x = true := by
    intro t ht
    have hne : x ≠ .native := by rintro rfl; revert hx; decide
    rw [withoutNative]
    split
    · rwa [AttributeSet.contains_set, if_neg hne]
    · exact ht
  cases h with
  | program hk' => exact absurd hk' hk
  | alone => exact hnative hn
  | inherited => exact hnative (AttributeSet.contains_inherit hx hn _)

/-- The nodes from which a node inherits do not lead back to it. -/
theorem not_cyclic (h : a.Effective n s) : ¬ Relation.TransGen a.InheritsFrom n n := by
  induction h with
  | program hk =>
    intro hc
    obtain ⟨p, hp, -⟩ := Relation.TransGen.head'_iff.1 hc
    exact hp.1 hk
  | alone hk hp =>
    intro hc
    obtain ⟨p, ⟨-, hk', hp'⟩, -⟩ := Relation.TransGen.head'_iff.1 hc
    rcases hp with hp | hp
    · rw [hp] at hp'; cases hp'
    · exact hk' hp
  | @inherited n p s hk hk' hp _ ih =>
    intro hc
    obtain ⟨q, hq, hqn⟩ := Relation.TransGen.head'_iff.1 hc
    obtain rfl : p = q := Option.some.inj (hp.symm.trans hq.2.2)
    exact ih (Relation.TransGen.tail' hqn hq)

end Effective

/-- Where no attributes are written, no node has any. -/
theorem Effective.eq_empty {a : Arena} {n : NodeId} {s : AttributeSet}
    (hbare : ∀ m, (a.node m).attributes = AttributeSet.empty)
    (hunlisted : ∀ m, a.attributeNode m = none) (h : a.Effective n s) : s = AttributeSet.empty := by
  have hown : ∀ m, a.ownAttributes m = AttributeSet.empty := fun m => by
    rw [ownAttributes, hbare]; rfl
  have hlisted : ∀ m, a.listedAttributes m = AttributeSet.empty := fun m => by
    rw [listedAttributes, attributeEntries, hunlisted, hown]; rfl
  have hnative : ∀ m, a.withoutNative m AttributeSet.empty = AttributeSet.empty := fun m => by
    simp [withoutNative]
  induction h with
  | program => exact hown _
  | alone => rw [hlisted, hnative]
  | inherited _ _ _ _ ih => rw [hlisted, ih, AttributeSet.inherit_empty, hnative]

/-- What the effective attributes of a node depend on, its parent aside, is the same in two
arenas. -/
structure SameSource (a b : Arena) (n : NodeId) : Prop where
  /-- The kind is the same. -/
  kind : b.kind n = a.kind n
  /-- The parent is the same. -/
  parent : b.parent n = a.parent n
  /-- What is written on the node is the same. -/
  own : b.ownAttributes n = a.ownAttributes n
  /-- What its list adds is the same. -/
  listed : b.listedAttributes n = a.listedAttributes n
  /-- It has a body or not. -/
  native : b.withoutNative n = a.withoutNative n

theorem Effective.transfer {a b : Arena} {S : NodeId → Prop} {n : NodeId} {s : AttributeSet}
    (hparent : ∀ n p, S n → a.parent n = some p → S p) (h : ∀ n, S n → SameSource a b n)
    (hs : b.Effective n s) (hn : S n) : a.Effective n s := by
  induction hs with
  | @program n hk =>
    have hsame := h n hn
    rw [hsame.kind] at hk
    rw [hsame.own]
    exact .program hk
  | @alone n hk hp =>
    have hsame := h n hn
    rw [hsame.kind] at hk
    rw [hsame.kind, hsame.parent] at hp
    rw [hsame.native, hsame.listed]
    exact .alone hk hp
  | @inherited n p s hk hk' hp _ ih =>
    have hsame := h n hn
    rw [hsame.kind] at hk hk'
    rw [hsame.parent] at hp
    have hpS : S p := hparent n p hn hp
    rw [hsame.native, hsame.listed, (h p hpS).kind]
    exact .inherited hk hk' hp (ih hpS)

/-- A set of attributes agrees with the effective ones of a node, if the node has such. -/
def Fits (a : Arena) (n : NodeId) (s : AttributeSet) : Prop := ∀ t, a.Effective n t → s.Agrees t

theorem withoutNative_agrees {a : Arena} {n : NodeId} {s t : AttributeSet} (h : s.Agrees t) :
    (a.withoutNative n s).Agrees (a.withoutNative n t) := by
  rw [withoutNative, withoutNative]
  rw [h .native (by decide)]
  split
  · exact h.set .native false
  · exact h

theorem foldl_addEntry_agrees {a : Arena} {s t : AttributeSet} (h : s.Agrees t)
    (es : List NodeId) : (es.foldl a.addEntry s).Agrees (es.foldl a.addEntry t) := by
  induction es generalizing s t with
  | nil => exact h
  | cons e es ih =>
    refine ih ?_
    rw [addEntry, addEntry]
    cases a.entryAttribute e with
    | none => exact h
    | some x => exact h.add x

end Arena

/-! ## Nodes that look the same -/

/-- The same node, apart from its flags, its links and its tables. -/
structure Node.Alike (d e : Node) : Prop where
  /-- The kind is the same. -/
  kind : e.kind = d.kind
  /-- The name or text is the same. -/
  text : e.text = d.text
  /-- The attributes are the same. -/
  attributes : e.attributes = d.attributes
  /-- The attribute node is the same. -/
  attributeNode : e.attributeNode = d.attributeNode
  /-- The parent is the same. -/
  parent : e.parent = d.parent
  /-- The children are the same. -/
  children : e.children = d.children
  /-- The node is as alive as it was. -/
  alive : e.alive = d.alive

namespace Arena

/-- All nodes are the same, apart from their flags, their links and their tables. -/
def Alike (a b : Arena) : Prop := ∀ n, (a.node n).Alike (b.node n)

namespace Alike

variable {a b c : Arena}

theorem of_nodes (h : b.nodes = a.nodes) : a.Alike b := by
  intro n
  rw [show b.node n = a.node n by rw [node, node, h]]
  exact ⟨rfl, rfl, rfl, rfl, rfl, rfl, rfl⟩

theorem update {n : NodeId} {f : Node → Node} (hf : ∀ d : Node, d.Alike (f d)) :
    a.Alike (a.update n f) :=
  rel_node_update (fun _ => ⟨rfl, rfl, rfl, rfl, rfl, rfl, rfl⟩) (hf _)

theorem trans (h : a.Alike b) (h' : b.Alike c) : a.Alike c := fun n =>
  ⟨(h' n).kind.trans (h n).kind, (h' n).text.trans (h n).text,
    (h' n).attributes.trans (h n).attributes, (h' n).attributeNode.trans (h n).attributeNode,
    (h' n).parent.trans (h n).parent, (h' n).children.trans (h n).children,
    (h' n).alive.trans (h n).alive⟩

theorem kind (h : a.Alike b) : b.kind = a.kind := funext fun n => (h n).kind

theorem parent (h : a.Alike b) : b.parent = a.parent := funext fun n => (h n).parent

theorem children (h : a.Alike b) : b.children = a.children := funext fun n => (h n).children

theorem name (h : a.Alike b) : b.name = a.name :=
  funext fun n => by rw [Arena.name, Arena.name, h.kind, (h n).text]

theorem textIs (h : a.Alike b) : b.textIs = a.textIs := by
  funext n s
  rw [Arena.textIs, Arena.textIs, h.kind, (h n).text]

theorem isAlive (h : a.Alike b) : b.isAlive = a.isAlive := funext fun n => (h n).alive

theorem live (h : a.Alike b) : b.live = a.live := by
  funext t
  rw [Arena.live, Arena.live, h.isAlive]

theorem attributeNode (h : a.Alike b) : b.attributeNode = a.attributeNode := by
  funext n
  rw [Arena.attributeNode, Arena.attributeNode, (h n).attributeNode, h.live]

theorem ancestorsFrom (h : a.Alike b) (fuel : Nat) (n : NodeId) :
    b.ancestorsFrom fuel n = a.ancestorsFrom fuel n := by
  induction fuel generalizing n with
  | zero => rfl
  | succ fuel ih =>
    rw [Arena.ancestorsFrom, Arena.ancestorsFrom, h.parent]
    cases a.parent n with
    | none => rfl
    | some p => exact congrArg (p :: ·) (ih p)

end Alike

end Arena

end SymbolTree
