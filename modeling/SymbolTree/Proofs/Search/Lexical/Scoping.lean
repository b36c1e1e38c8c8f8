import SymbolTree.Proofs.Arena.Consistent
import SymbolTree.Proofs.Search.Effective

/-!
# Lexical scoping

The rule by which a name in a plain program refers to a declaration, read off the tree.

* `Arena.declared` — what a node among the children of a scope declares under a name.
* `Arena.shown` — what a scope shows to a place inside it, in the order in which it counts.
* `Context.Selects` — from the place of the name outwards, the innermost scope that declares it
  decides; past the program, what is declared for all programs does.

A plain program (`Arena.PlainTree`) has functions, variables, loops and handlers, but no classes, no
packages and no attributes.  The modules that declare things for all programs may have classes too.

## Main statement

* `Context.Selects.unique` — the rule selects at most one declaration.
-/

set_option autoImplicit false
namespace SymbolTree

/-! ## The rule -/

namespace Arena

/-- What a node declares under a name: a list of variables one of them, anything else itself. -/
def declared (a : Arena) (name : String) (n : NodeId) : Option NodeId :=
  match a.kind n with
  | .var => (a.children n).find? fun v => a.kind v = .variable_ && a.textIs v name
  | .param | .function | .class_ => if a.textIs n name then some n else none
  | _ => none

/-- What a scope shows to what is below its child `place`, the first to count first.  A list of
directives shows what stands before the place, the closest first, and then the rest; a list of
parameters only what stands before it; a function its parameters; a loop and a handler the first
thing that they declare. -/
def shown (a : Arena) (scope place : NodeId) : List NodeId :=
  let before := ((a.children scope).takeWhile (· ≠ place)).reverse
  match a.kind scope with
  | .directiveList => before ++ (a.children scope).dropWhile (· ≠ place)
  | .parameters => before
  | .function => match a.findFirstChild scope .parameters with
      | some parameters => a.children parameters
      | none => []
  | .for_ => (a.children scope).take 1
  | .catch_ => match (a.children scope).head? with
      | some parameters => (a.children parameters).take 1
      | none => []
  | _ => []

end Arena

namespace Context

/-- What a module declares for all programs: what stands in its first list. -/
def shownBy (c : Context) (module_ : Option NodeId) : List NodeId :=
  match module_.bind fun program => (c.arena.children program).head? with
  | some list => c.arena.children list
  | none => []

/-- What is declared for all programs: first the global, then the system, then the native
declarations. -/
def general (c : Context) : List NodeId :=
  c.shownBy c.globalImport ++ c.shownBy c.systemImport ++ c.shownBy c.nativeImport

/-- The declaration that lexical scoping selects for a name, seen from a node. -/
inductive Selects (c : Context) (name : String) : NodeId → Option NodeId → Prop
  /-- What has parameters does not show them to the parameters themselves. -/
  | parameters {n p : NodeId} {r : Option NodeId} (hn : c.arena.kind n = .parameters)
      (hp : c.arena.parent n = some p) (hr : Selects c name p r) : Selects c name n r
  /-- The innermost scope that declares the name decides. -/
  | inner {n p m : NodeId} (hn : c.arena.kind n ≠ .parameters) (hp : c.arena.parent n = some p)
      (hk : c.arena.kind p ≠ .program)
      (h : (c.arena.shown p n).findSome? (c.arena.declared name) = some m) :
      Selects c name n (some m)
  /-- A scope that does not declare it leaves the decision to those around it. -/
  | outer {n p : NodeId} {r : Option NodeId} (hn : c.arena.kind n ≠ .parameters)
      (hp : c.arena.parent n = some p) (hk : c.arena.kind p ≠ .program)
      (h : (c.arena.shown p n).findSome? (c.arena.declared name) = none)
      (hr : Selects c name p r) : Selects c name n r
  /-- Past the program, what is declared for all programs decides. -/
  | general {n p : NodeId} (hn : c.arena.kind n ≠ .parameters) (hp : c.arena.parent n = some p)
      (hk : c.arena.kind p = .program) :
      Selects c name n (c.general.findSome? (c.arena.declared name))

theorem Selects.unique {c : Context} {name : String} {n : NodeId} {r r' : Option NodeId}
    (h : c.Selects name n r) (h' : c.Selects name n r') : r = r' := by
  induction h with
  | parameters hn hp _ ih =>
    cases h' with
    | parameters _ hp' hr' =>
      cases hp.symm.trans hp'
      exact ih hr'
    | inner hn' => exact absurd hn hn'
    | outer hn' => exact absurd hn hn'
    | general hn' => exact absurd hn hn'
  | inner hn hp hk h =>
    cases h' with
    | parameters hn' => exact absurd hn' hn
    | inner _ hp' _ h' =>
      cases hp.symm.trans hp'
      rw [← h, ← h']
    | outer _ hp' _ h' =>
      cases hp.symm.trans hp'
      rw [h] at h'
      cases h'
    | general _ hp' hk' =>
      cases hp.symm.trans hp'
      exact absurd hk' hk
  | outer hn hp hk h _ ih =>
    cases h' with
    | parameters hn' => exact absurd hn' hn
    | inner _ hp' _ h' =>
      cases hp.symm.trans hp'
      rw [h] at h'
      cases h'
    | outer _ hp' _ _ hr' =>
      cases hp.symm.trans hp'
      exact ih hr'
    | general _ hp' hk' =>
      cases hp.symm.trans hp'
      exact absurd hk' hk
  | general hn hp hk =>
    cases h' with
    | parameters hn' => exact absurd hn' hn
    | inner _ hp' hk' =>
      cases hp.symm.trans hp'
      exact absurd hk hk'
    | outer _ hp' hk' =>
      cases hp.symm.trans hp'
      exact absurd hk hk'
    | general => rfl

end Context

/-! ## Plain programs -/

/-- Kinds that a plain program may have. -/
def Kind.isPlain (k : Kind) : Bool :=
  !([Kind.with_, .enum, .interface, .package, .import_, .extends_, .implements].contains k)

namespace Arena

/-- A node is the root of a tree or stands below it, though not inside a class. -/
def Within (a : Arena) (root n : NodeId) : Prop :=
  Relation.ReflTransGen (fun n p => a.parent n = some p ∧ a.kind p ≠ .class_) n root

/-- A program without attributes, and without declarations other than variables, functions and
classes. -/
structure PlainTree (a : Arena) (root : NodeId) : Prop where
  /-- The root is a program. -/
  program : a.kind root = .program
  /-- There are only plain kinds. -/
  plain : ∀ n, a.Within root n → (a.kind n).isPlain = true
  /-- No attributes are written on a node. -/
  bare : ∀ n, a.Within root n → (a.node n).attributes = AttributeSet.empty
  /-- No node has a list of attributes. -/
  unlisted : ∀ n, a.Within root n → a.attributeNode n = none
  /-- No function is a getter. -/
  getter : ∀ n, a.Within root n → (a.node n).flags.contains .functionGetter = false
  /-- No function is a setter. -/
  setter : ∀ n, a.Within root n → (a.node n).flags.contains .functionSetter = false
  /-- Parameters belong to a function or a handler. -/
  parameters : ∀ n p, a.Within root n → a.kind n = .parameters → a.parent n = some p →
    a.kind p = .function ∨ a.kind p = .catch_

namespace PlainTree

variable {a : Arena} {root n p : NodeId}

/-- Where every node is plain, every program is. -/
theorem of_nodes (h : ∀ n, (a.node n).kind.isPlain = true ∧
      (a.node n).attributes = AttributeSet.empty ∧ (a.node n).attributeNode = none ∧
      (a.node n).flags.contains .functionGetter = false ∧
      (a.node n).flags.contains .functionSetter = false)
    (hparameters : ∀ n p, a.kind n = .parameters → a.parent n = some p → a.kind p = .function)
    (hroot : a.kind root = .program) : a.PlainTree root := by
  refine ⟨hroot, fun n _ => (h n).1, fun n _ => (h n).2.1, fun n _ => ?_,
    fun n _ => (h n).2.2.2.1, fun n _ => (h n).2.2.2.2, fun n p _ hk hp => .inl ?_⟩
  · rw [attributeNode, (h n).2.2.1]
    rfl
  · exact hparameters n p hk hp

/-- From a node other than the root the way up stays in the tree. -/
theorem within_parent (h : a.PlainTree root) (hn : a.Within root n) (hk : a.kind n ≠ .program)
    (hp : a.parent n = some p) : a.Within root p ∧ a.kind p ≠ .class_ := by
  rcases Relation.ReflTransGen.cases_head hn with rfl | ⟨q, ⟨hq, hclass⟩, hqr⟩
  · exact absurd h.program hk
  · cases hp.symm.trans hq
    exact ⟨hqr, hclass⟩

theorem within_child (hc : a.Consistent) (hn : a.Within root n) (hk : a.kind n ≠ .class_)
    {m : NodeId} (hm : m ∈ a.children n) : a.Within root m :=
  .head ⟨(hc.mem_children n m).1 hm, hk⟩ hn

/-- No node of a plain program has attributes, inherited ones included. -/
theorem effective (h : a.PlainTree root) (hn : a.Within root n) :
    a.Effective n AttributeSet.empty := by
  have hown : ∀ {n}, a.Within root n → a.ownAttributes n = AttributeSet.empty := fun hn => by
    rw [ownAttributes, h.bare _ hn]; rfl
  have hlisted : ∀ {n}, a.Within root n → a.listedAttributes n = AttributeSet.empty := by
    intro n hn
    rw [listedAttributes, attributeEntries, h.unlisted n hn, hown hn]; rfl
  have hnative : ∀ n, a.withoutNative n AttributeSet.empty = AttributeSet.empty := by
    intro n
    simp [withoutNative]
  induction hn using Relation.ReflTransGen.head_induction_on with
  | refl =>
    have heff := Effective.program h.program
    rw [hown .refl] at heff
    exact heff
  | @head n p hnp hpr ih =>
    have hn : a.Within root n := .head hnp hpr
    by_cases hprogram : a.kind n = .program
    · have heff := Effective.program hprogram
      rw [hown hn] at heff
      exact heff
    · have hpackage : a.kind n ≠ .package := fun e => by
        have := h.plain n hn
        rw [e] at this
        cases this
      have heff := Effective.inherited hprogram hpackage hnp.1 ih
      rw [hlisted hn, AttributeSet.inherit_empty, hnative] at heff
      exact heff

/-- The nearest declaration around a node, up to the program, is no class. -/
theorem findAncestor_ne_class (h : a.PlainTree root) (hn : a.Within root n)
    (hk : a.kind n ≠ .program) {ks : List Kind} (hks : Kind.program ∈ ks) {m : NodeId}
    (hm : a.findAncestor n ks = some m) : a.kind m ≠ .class_ := by
  have hup : ∀ {x}, a.Within root x → a.kind x ≠ .class_ → ∀ fuel m,
      (x :: a.ancestorsFrom fuel x).find? (fun m => ks.contains (a.kind m)) = some m →
        a.kind m ≠ .class_ := by
    intro x hx
    induction hx using Relation.ReflTransGen.head_induction_on with
    | refl =>
      intro _ fuel m hm
      rw [List.find?_cons_of_pos (by rw [h.program]; exact List.contains_iff_mem.2 hks)] at hm
      cases hm
      rw [h.program]
      decide
    | @head x y hxy _ ih =>
      intro hclass fuel m hm
      by_cases hmem : ks.contains (a.kind x) = true
      · rw [List.find?_cons_of_pos (p := fun m => ks.contains (a.kind m)) hmem] at hm
        cases hm
        exact hclass
      · rw [List.find?_cons_of_neg (p := fun m => ks.contains (a.kind m)) hmem] at hm
        cases fuel with
        | zero => cases hm
        | succ fuel =>
          rw [ancestorsFrom, hxy.1] at hm
          exact ih hxy.2 fuel m hm
  rw [findAncestor, ancestors] at hm
  cases hsize : a.size with
  | zero => rw [hsize] at hm; cases hm
  | succ fuel =>
    rw [hsize, ancestorsFrom] at hm
    cases hp : a.parent n with
    | none => rw [hp] at hm; cases hm
    | some p =>
      rw [hp] at hm
      obtain ⟨hwithin, hclass⟩ := h.within_parent hn hk hp
      exact hup hwithin hclass fuel m hm

end PlainTree

end Arena

end SymbolTree
