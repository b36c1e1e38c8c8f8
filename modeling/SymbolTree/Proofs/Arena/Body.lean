import SymbolTree.Proofs.Arena.Forest
import SymbolTree.Proofs.Arena.Frame

/-!
# What a package declares

The body of a package is made of lists of directives, which may stand in each other.  What stands in
one of them is declared by the package, and so are the variables below it, those of a `var` and the
values of an enumeration.

A package is sealed (`Arena.Sealed`) when nothing but its body adds to what it has: it inherits from
nothing, and no import that implements stands in it.

## Main statements

* `Arena.DeclaredIn.inside` — what a package declares stands inside it.
* `Arena.StandsIn.findAncestor` — the nearest thing around what stands in a package is the package.
* `Arena.Frame.declaredIn_iff`, `Arena.Frame.seals` — where the program stays arranged as it is, a
  package declares what it declared, and it was sealed before if it is afterwards.
-/

set_option autoImplicit false
namespace SymbolTree

open Relation (ReflTransGen)

namespace Arena

variable {a b : Arena} {p l m n x : NodeId} {name : String}

/-- A list of directives that belongs to the body of a package. -/
inductive BodyList (a : Arena) (p : NodeId) : NodeId → Prop
  /-- A list directly below the package. -/
  | own {l : NodeId} (h : l ∈ a.children p) (hk : a.kind l = .directiveList) : BodyList a p l
  /-- A list in a list of the body. -/
  | inner {l m : NodeId} (hl : BodyList a p l) (h : m ∈ a.children l)
      (hk : a.kind m = .directiveList) : BodyList a p m

/-- A node stands in the body of a package.  A parameter match is no part of a program, wherever it
hangs. -/
def StandsIn (a : Arena) (p x : NodeId) : Prop :=
  a.kind x ≠ .paramMatch ∧ ∃ l, a.BodyList p l ∧ x ∈ a.children l

/-- A package declares a node: it stands in the body, or is a variable below what does. -/
def DeclaredIn (a : Arena) (p n : NodeId) : Prop :=
  a.StandsIn p n ∨ ∃ x, a.StandsIn p x ∧ n ∈ a.children x ∧ a.kind n = .variable_

/-- The node is a package of the name. -/
structure IsPackage (a : Arena) (name : String) (p : NodeId) : Prop where
  /-- It is a package. -/
  kind : a.kind p = .package
  /-- It has the name. -/
  name : a.name p = name

/-- A package of the name declares the node. -/
def MemberOf (a : Arena) (name : String) (n : NodeId) : Prop :=
  ∃ p, a.IsPackage name p ∧ a.DeclaredIn p n

/-- A package has what its body declares and nothing else. -/
structure Sealed (a : Arena) (p : NodeId) : Prop where
  /-- It inherits from nothing. -/
  plain : ∀ c ∈ a.children p, a.kind c ≠ .extends_ ∧ a.kind c ≠ .implements
  /-- No import that implements stands in its body. -/
  closed : ∀ x, a.StandsIn p x → a.kind x = .import_ →
    (a.node x).flags.contains .importImplements = false
  /-- What it declares was not discarded. -/
  alive : ∀ n, a.DeclaredIn p n → a.isAlive n = true

/-- Every package of the name is sealed. -/
def Seals (a : Arena) (name : String) : Prop := ∀ p, a.IsPackage name p → a.Sealed p

/-! ## Where it stands -/

theorem IsPackage.lt_size (h : a.IsPackage name p) : p.index < a.size :=
  lt_size_of_kind_ne (by rw [h.kind]; decide)

theorem BodyList.lt_size (h : a.Consistent) (hl : a.BodyList p l) : l.index < a.size := by
  cases hl with
  | own h' => exact h.child_lt p l h'
  | inner _ h' => exact h.child_lt _ l h'

theorem BodyList.kind (h : a.BodyList p l) : a.kind l = .directiveList := by
  cases h <;> assumption

theorem BodyList.inside (h : a.Consistent) (hl : a.BodyList p l) : a.Inside l p := by
  induction hl with
  | own h' => exact .single ((h.mem_children _ _).1 h')
  | inner _ h' _ ih => exact .head ((h.mem_children _ _).1 h') ih

theorem StandsIn.lt_size (h : a.Consistent) (hx : a.StandsIn p x) : x.index < a.size := by
  obtain ⟨-, l, -, hmem⟩ := hx
  exact h.child_lt l x hmem

theorem StandsIn.inside (h : a.Consistent) (hx : a.StandsIn p x) : a.Inside x p := by
  obtain ⟨-, l, hl, hmem⟩ := hx
  exact .head ((h.mem_children _ _).1 hmem) (hl.inside h)

/-- What a package declares stands inside it. -/
theorem DeclaredIn.inside (h : a.Consistent) (hn : a.DeclaredIn p n) : a.Inside n p := by
  obtain hn | ⟨x, hx, hmem, -⟩ := hn
  · exact hn.inside h
  · exact .head ((h.mem_children _ _).1 hmem) (hx.inside h)

theorem DeclaredIn.kind_ne (hn : a.DeclaredIn p n) : a.kind n ≠ .paramMatch := by
  obtain hn | ⟨x, -, -, hk⟩ := hn
  · exact hn.1
  · rw [hk]
    decide

theorem DeclaredIn.lt_size (h : a.Consistent) (hn : a.DeclaredIn p n) : n.index < a.size := by
  obtain hn | ⟨x, -, hmem, -⟩ := hn
  · exact hn.lt_size h
  · exact h.child_lt x n hmem

theorem ancestorsFrom_succ_of_mem_children (h : a.Consistent) (hn : n ∈ a.children p) (fuel : Nat) :
    a.ancestorsFrom (fuel + 1) n = p :: a.ancestorsFrom fuel p := by
  rw [ancestorsFrom, (h.mem_children p n).1 hn]

section Climb

variable {ks : List Kind}

/-- A climb from a list of the body passes lists until it meets the package. -/
theorem BodyList.find?_ancestorsFrom (h : a.Consistent) (hl : a.BodyList p l)
    (hks : Kind.directiveList ∉ ks) (hp : a.kind p ∈ ks) (fuel : Nat) :
    (a.ancestorsFrom fuel l).find? (fun m => ks.contains (a.kind m)) = none ∨
      (a.ancestorsFrom fuel l).find? (fun m => ks.contains (a.kind m)) = some p := by
  induction hl generalizing fuel with
  | own hmem hk =>
    cases fuel with
    | zero => exact .inl rfl
    | succ fuel =>
      rw [ancestorsFrom_succ_of_mem_children h hmem, List.find?_cons_of_pos (by simpa using hp)]
      exact .inr rfl
  | inner hl hmem hk ih =>
    cases fuel with
    | zero => exact .inl rfl
    | succ fuel =>
      rw [ancestorsFrom_succ_of_mem_children h hmem,
        List.find?_cons_of_neg (by rw [hl.kind]; simpa using hks)]
      exact ih fuel

/-- Climbing from what stands in a package meets the package before anything but lists of
directives, unless the climb is given up on the way. -/
theorem StandsIn.findAncestor (h : a.Consistent) (hx : a.StandsIn p x)
    (hks : Kind.directiveList ∉ ks) (hp : a.kind p ∈ ks) :
    a.findAncestor x ks = none ∨ a.findAncestor x ks = some p := by
  obtain ⟨-, l, hl, hmem⟩ := hx
  rw [Arena.findAncestor, ancestors]
  cases hsize : a.size with
  | zero => exact .inl rfl
  | succ fuel =>
    rw [ancestorsFrom_succ_of_mem_children h hmem,
      List.find?_cons_of_neg (by rw [hl.kind]; simpa using hks)]
    exact hl.find?_ancestorsFrom h hks hp fuel

end Climb

/-! ## What stays of it -/

namespace Frame

variable {params : Option NodeId}

/-- What is no match is a child where it was one. -/
theorem mem_children_iff (h : a.Frame params b) (hn : n.index < a.size) :
    (x ∈ b.children n ∧ b.kind x ≠ .paramMatch) ↔
      (x ∈ a.children n ∧ a.kind x ≠ .paramMatch) := by
  have hmem := congrArg (x ∈ ·) (h.others n hn)
  simpa only [List.mem_filter, decide_eq_true_eq, eq_iff_iff] using hmem

theorem mem_children (h : a.Frame params b) (ha : a.Consistent) (hn : n.index < a.size)
    (hx : x ∈ b.children n) (hk : b.kind x ≠ .paramMatch) :
    x ∈ a.children n ∧ b.kind x = a.kind x := by
  obtain ⟨hmem, -⟩ := (h.mem_children_iff hn).1 ⟨hx, hk⟩
  exact ⟨hmem, h.kind (ha.child_lt n x hmem)⟩

theorem bodyList_iff (h : a.Frame params b) (ha : a.Consistent) (hp : p.index < a.size) :
    b.BodyList p l ↔ a.BodyList p l := by
  have hmatch : Kind.directiveList ≠ .paramMatch := by decide
  constructor
  · intro hl
    induction hl with
    | own hmem hk =>
      obtain ⟨hmem, hkind⟩ := h.mem_children ha hp hmem (by rwa [hk])
      exact .own hmem (hkind ▸ hk)
    | inner _ hmem hk ih =>
      obtain ⟨hmem, hkind⟩ := h.mem_children ha (ih.lt_size ha) hmem (by rwa [hk])
      exact .inner ih hmem (hkind ▸ hk)
  · intro hl
    induction hl with
    | own hmem hk =>
      exact .own ((h.mem_children_iff hp).2 ⟨hmem, by rwa [hk]⟩).1
        ((h.kind (ha.child_lt _ _ hmem)).trans hk)
    | inner hl hmem hk ih =>
      exact .inner ih ((h.mem_children_iff (hl.lt_size ha)).2 ⟨hmem, by rwa [hk]⟩).1
        ((h.kind (ha.child_lt _ _ hmem)).trans hk)

theorem standsIn_iff (h : a.Frame params b) (ha : a.Consistent) (hp : p.index < a.size) :
    b.StandsIn p x ↔ a.StandsIn p x := by
  constructor
  · rintro ⟨hk, l, hl, hmem⟩
    have hl := (h.bodyList_iff ha hp).1 hl
    obtain ⟨hmem, hk⟩ := (h.mem_children_iff (hl.lt_size ha)).1 ⟨hmem, hk⟩
    exact ⟨hk, l, hl, hmem⟩
  · rintro ⟨hk, l, hl, hmem⟩
    obtain ⟨hmem, hk⟩ := (h.mem_children_iff (hl.lt_size ha)).2 ⟨hmem, hk⟩
    exact ⟨hk, l, (h.bodyList_iff ha hp).2 hl, hmem⟩

/-- A package declares what it declared. -/
theorem declaredIn_iff (h : a.Frame params b) (ha : a.Consistent) (hp : p.index < a.size) :
    b.DeclaredIn p n ↔ a.DeclaredIn p n := by
  have hmatch : Kind.variable_ ≠ .paramMatch := by decide
  constructor
  · rintro (hn | ⟨x, hx, hmem, hk⟩)
    · exact .inl ((h.standsIn_iff ha hp).1 hn)
    · have hx := (h.standsIn_iff ha hp).1 hx
      obtain ⟨hmem, hkind⟩ := h.mem_children ha (hx.lt_size ha) hmem (by rwa [hk])
      exact .inr ⟨x, hx, hmem, hkind ▸ hk⟩
  · rintro (hn | ⟨x, hx, hmem, hk⟩)
    · exact .inl ((h.standsIn_iff ha hp).2 hn)
    · refine .inr ⟨x, (h.standsIn_iff ha hp).2 hx, ?_, (h.kind (ha.child_lt x n hmem)).trans hk⟩
      exact ((h.mem_children_iff (hx.lt_size ha)).2 ⟨hmem, by rwa [hk]⟩).1

theorem name_eq (h : a.Frame params b) (hn : n.index < a.size) : b.name n = a.name n := by
  rw [Arena.name, Arena.name, h.kind hn, (h.ages n hn).text]

theorem isPackage_iff (h : a.Frame params b) (hp : p.index < a.size) :
    b.IsPackage name p ↔ a.IsPackage name p :=
  ⟨fun hb => ⟨(h.kind hp).symm.trans hb.kind, (h.name_eq hp).symm.trans hb.name⟩,
    fun ha => ⟨(h.kind hp).trans ha.kind, (h.name_eq hp).trans ha.name⟩⟩

theorem memberOf (h : a.Frame params b) (ha : a.Consistent) (hn : a.MemberOf name n) :
    b.MemberOf name n := by
  obtain ⟨p, hp, hn⟩ := hn
  exact ⟨p, (h.isPackage_iff hp.lt_size).2 hp, (h.declaredIn_iff ha hp.lt_size).2 hn⟩

/-- A package that is sealed was sealed before. -/
theorem sealed (h : a.Frame params b) (ha : a.Consistent) (hp : p.index < a.size)
    (hb : b.Sealed p) : a.Sealed p where
  plain c hc := by
    by_cases hk : a.kind c = .paramMatch
    · rw [hk]
      decide
    · rw [← h.kind (ha.child_lt p c hc)]
      exact hb.plain c ((h.mem_children_iff hp).2 ⟨hc, hk⟩).1
  closed x hx hk := by
    have hlt := hx.lt_size ha
    have hflag := hb.closed x ((h.standsIn_iff ha hp).2 hx) ((h.kind hlt).trans hk)
    rw [← Bool.not_eq_true] at hflag ⊢
    exact fun hf => hflag ((h.ages x hlt).flags _ hf)
  alive n hn := by
    have halive := hb.alive n ((h.declaredIn_iff ha hp).2 hn)
    by_contra hd
    rw [h.dead n (hn.lt_size ha) (Bool.not_eq_true _ ▸ hd)] at halive
    cases halive

theorem seals (h : a.Frame params b) (ha : a.Consistent) (hb : b.Seals name) : a.Seals name :=
  fun p hp => h.sealed ha hp.lt_size (hb p ((h.isPackage_iff hp.lt_size).2 hp))

end Frame

/-- Whether the packages are sealed does not depend on the locks. -/
theorem Seals.of_nodes (h : b.Seals name) (ha : a.Consistent) (hn : b.nodes = a.nodes) :
    a.Seals name :=
  ((Frame.refl none a).of_nodes rfl hn).seals ha h

theorem MemberOf.isAlive (h : a.MemberOf name n) (ha : a.Seals name) : a.isAlive n = true := by
  obtain ⟨p, hp, hn⟩ := h
  exact (ha p hp).alive n hn

end Arena

end SymbolTree
