import SymbolTree.Proofs.Search.Imported.Import

/-!
# Imports and internal declarations

An internal declaration is meant for the other packages, and two checks stand between it and
an import.  The last one looks where the import stands, and lets it through inside a package.  The
first one is that of any name that is looked for, and is made for the name that the import has just
created.  That name stands nowhere (`Search.answers_rejection_nowhere`), so an internal declaration
is turned away before the last check is reached, and nothing is left for that one to decide.

## Main statements

* `Search.findPackageItem_sole` — an import gets the only declaration of a name exactly if it is
  open to all, wherever the import stands.
* `Search.findPackageItem_internal` — an import never gets an internal declaration.
* `Search.internal_not_importable` — not even from inside a package.
-/

set_option autoImplicit false
namespace SymbolTree

/-- A package declares `x` under a name, and nothing else. -/
structure Arena.DeclaresOnly (a : Arena) (p : NodeId) (name : String) (x : NodeId) : Prop where
  /-- A directive of the package declares it. -/
  declared : ∃ n ∈ a.body p, a.declared? name n = some x
  /-- No directive declares anything else. -/
  sole : ∀ n ∈ a.body p, ∀ y, a.declared? name n = some y → y = x

/-- A declaration is internal, and neither private nor protected. -/
structure Arena.OnlyInternal (a : Arena) (x : NodeId) : Prop where
  /-- It is internal. -/
  internal : (a.effective x).contains .internal = true
  /-- It is not private. -/
  notPrivate : (a.effective x).contains .private_ = false
  /-- It is not protected. -/
  notProtected : (a.effective x).contains .protected_ = false

namespace Arena

variable {a : Arena} {name : String} {p x : NodeId}

/-- What a package offers under a name that it declares once is the declaration, if it is open. -/
theorem DeclaresOnly.imported? (h : a.DeclaresOnly p name x) :
    a.imported? name p = if a.isOpen x then some x else none := by
  rw [Arena.imported?]
  split
  · next hopen =>
    obtain ⟨n, hn, hx⟩ := h.declared
    have hsome : ((a.body p).findSome? fun n => (a.declared? name n).filter a.isOpen).isSome := by
      refine List.findSome?_isSome_iff.2 ⟨n, hn, ?_⟩
      rw [hx, Option.filter_some, if_pos hopen]
      rfl
    obtain ⟨y, hy⟩ := Option.isSome_iff_exists.1 hsome
    obtain ⟨k, hk, hfound⟩ := List.exists_of_findSome?_eq_some hy
    rw [hy, h.sole k hk y (Option.filter_eq_some_iff.1 hfound).1]
  · next hclosed =>
    refine List.findSome?_eq_none_iff.2 fun n hn => Option.filter_eq_none_iff.2 fun y hy => ?_
    rw [h.sole n hn y hy]
    exact hclosed

theorem isOpen_of_internal (h : (a.effective x).contains .internal = true) :
    a.isOpen x = false := by
  rw [isOpen, Bool.not_eq_false', AttributeSet.any, List.any_eq_true]
  exact ⟨.internal, by decide, h⟩

end Arena

namespace Search

/-- **What an import gets of a name that is declared once.**  The only declaration of a name in the
package that an import names is answered if it is open to all, and otherwise nothing is.  It does
not matter where the import stands. -/
theorem findPackageItem_sole (c : Context) (m p x import_ : NodeId) (package name : String)
    (h : c.HoldsModule m) (himport : c.arena.ImportsAll import_ package)
    (hp : c.arena.findPackage m package = some p) (hs : c.arena.Searchable name p)
    (hx : c.arena.DeclaresOnly p name x) :
    ((run (findPackageItem · m import_ name none {})).exec c).1 =
      .ok (if c.arena.isOpen x then some x else none) := by
  have hfuel : 2 * c.arena.size + 4 < Search.fuel c := by
    rw [Search.fuel]
    omega
  have hitem : Answers c (findPackageItem (answer (Search.fuel c)) m import_ name none {})
      fun r _ => r = c.arena.imported? name p :=
    answers_findPackageItem h rfl rfl hfuel (.refl h) rfl (fun _ _ => rfl) (himport.name ▸ hp) hs
  obtain ⟨r, _, hr, rfl⟩ := hitem
  rw [← hx.imported?, exec_run]
  exact congrArg Prod.fst hr

/-- **An import never gets an internal declaration**, neither from inside a package nor from
outside. -/
theorem findPackageItem_internal (c : Context) (m p x import_ : NodeId) (package name : String)
    (h : c.HoldsModule m) (himport : c.arena.ImportsAll import_ package)
    (hp : c.arena.findPackage m package = some p) (hs : c.arena.Searchable name p)
    (hx : c.arena.DeclaresOnly p name x)
    (hinternal : (c.arena.effective x).contains .internal = true) :
    ((run (findPackageItem · m import_ name none {})).exec c).1 = .ok none := by
  rw [findPackageItem_sole c m p x import_ package name h himport hp hs hx,
    Arena.isOpen_of_internal hinternal]
  rfl

/-! ### An import inside a package -/

/-- The requests that make a program with a package `P`, in which there is an internal class `m`,
and a package `Q`, in which there is an import for `P`. -/
def internalHistory : List Command :=
  [.create .program {}, .create .directiveList {},
   .create .package {}, .create .directiveList {}, .create .class_ {},
   .create .package {}, .create .directiveList {}, .create .import_ {},
   .setText ⟨2⟩ "P", .setText ⟨4⟩ "m", .setText ⟨5⟩ "Q", .setText ⟨7⟩ "P",
   .setAttribute ⟨4⟩ .internal true, .setFlag ⟨7⟩ .importImplements true,
   .appendChild ⟨0⟩ ⟨1⟩, .appendChild ⟨1⟩ ⟨2⟩, .appendChild ⟨2⟩ ⟨3⟩, .appendChild ⟨3⟩ ⟨4⟩,
   .appendChild ⟨1⟩ ⟨5⟩, .appendChild ⟨5⟩ ⟨6⟩, .appendChild ⟨6⟩ ⟨7⟩]

/-- The context of that program. -/
def internalContext : Context :=
  { arena := after internalHistory, parser := fun _ => .rejected }

theorem consistent_internalContext : internalContext.arena.Consistent :=
  .of_history internalHistory (by rw [internalContext])

theorem holdsModule_internalContext : internalContext.HoldsModule ⟨0⟩ := by
  have hnode := Arena.forall_node (a := internalContext.arena)
    (P := fun d => d.attributeNode = none ∧ d.labels = [] ∧ d.kind ≠ .label) (by decide +kernel)
    (by decide)
  have hall : ∀ i < internalContext.arena.size, internalContext.arena.isAlive ⟨i⟩ = true ∧
      ∀ p ∈ internalContext.arena.parent ⟨i⟩, p.index < i := by
    decide +kernel
  have hinside : ∀ n, internalContext.arena.Inside n ⟨0⟩ →
      n.index < internalContext.arena.size := by
    intro n hn
    rcases Relation.ReflTransGen.cases_head hn with rfl | ⟨p, hp, -⟩
    · decide +kernel
    · exact Arena.lt_size_of_parent hp
  have hunlisted : ∀ n, internalContext.arena.attributeNode n = none := fun n => by
    rw [Arena.attributeNode, (hnode n).1]
    rfl
  exact {
    sound := ⟨consistent_internalContext, fun n l hl => by rw [(hnode n).1] at hl; cases hl⟩
    forest := Arena.forest_of_lt fun n p hp => (hall n.index (Arena.lt_size_of_parent hp)).2 p hp
    program := by decide +kernel
    alive := fun n hn => (hall n.index (hinside n hn)).1
    unlocked := Arena.lockCount_eq_zero (by decide +kernel)
    legible := fun n _ e he => by
      rw [Arena.attributeEntries, hunlisted] at he
      cases he
    remembered := fun n s _ hs => by cases hs
    labelled := fun n _ hk => absurd hk (hnode n).2.2
    registered := fun n _ l hl => by
      rw [(hnode n).2.1] at hl
      cases hl }

/-- The import stands in a package, and what it names has an internal class. -/
theorem internalContext_offers : internalContext.arena.ImportsAll ⟨7⟩ "P" ∧
    internalContext.arena.findPackage ⟨0⟩ "P" = some ⟨2⟩ ∧
    internalContext.arena.Searchable "m" ⟨2⟩ ∧
    internalContext.arena.DeclaresOnly ⟨2⟩ "m" ⟨4⟩ ∧
    internalContext.arena.OnlyInternal ⟨4⟩ ∧
    internalContext.arena.findAncestor ⟨7⟩ [.package] = some ⟨5⟩ := by
  refine ⟨⟨?_, ?_, ?_⟩, ?_, ⟨?_, ?_⟩, ⟨?_, ?_⟩, ⟨?_, ?_, ?_⟩, ?_⟩
  all_goals decide +kernel

/-- The import inside the other package does not get the internal class. -/
theorem findPackageItem_internalContext :
    ((run (findPackageItem · ⟨0⟩ ⟨7⟩ "m" none {})).exec internalContext).1 = .ok none :=
  have ⟨himport, hp, hs, hx, hinternal, _⟩ := internalContext_offers
  findPackageItem_internal internalContext ⟨0⟩ ⟨2⟩ ⟨4⟩ ⟨7⟩ "P" "m" holdsModule_internalContext
    himport hp hs hx hinternal.internal

/-- An internal declaration is not to be had from inside a package either. -/
theorem internal_not_importable : ¬ ∀ (c : Context) (m p x import_ : NodeId)
    (package name : String), c.HoldsModule m → c.arena.ImportsAll import_ package →
    c.arena.findPackage m package = some p → c.arena.Searchable name p →
    c.arena.DeclaresOnly p name x → (c.arena.kind x = .class_ ∨ c.arena.kind x = .variable_) →
    c.arena.OnlyInternal x →
    (((run (findPackageItem · m import_ name none {})).exec c).1 = .ok (some x) ↔
      (c.arena.findAncestor import_ [.package]).isSome = true) := by
  intro h
  obtain ⟨himport, hp, hs, hx, hinternal, hinside⟩ := internalContext_offers
  have hfound := (h internalContext ⟨0⟩ ⟨2⟩ ⟨4⟩ ⟨7⟩ "P" "m" holdsModule_internalContext himport hp
    hs hx (.inl (by decide +kernel)) hinternal).2 (by rw [hinside]; rfl)
  have hmissing : ((run (findPackageItem · ⟨0⟩ ⟨7⟩ "m" none {})).exec internalContext).1.toOption
      = some none := by
    decide +kernel
  rw [hfound] at hmissing
  cases hmissing

end Search

end SymbolTree
