import Mathlib.Data.Finset.Card
import Mathlib.Data.Finset.Filter
import Mathlib.Data.Finset.Range
import SymbolTree.Proofs.Search.Legible
import SymbolTree.Proofs.Search.Visible.Permission

/-!
# Fields along a class hierarchy

What a class has under a name can be read off the hierarchy: what its own body declares, and else
what exactly one of the classes that it names has (`Arena.Offers`).  A name that several of them
have is ambiguous, and counts as absent further down.

A search walks the same way, but it hands one record of what was found from class to class, and does
not take back what a class left there that turned out to be ambiguous.  So there is a second thing
to be read off: the declaration that the walk meets last (`Arena.Meets`).

## Main statements

* `Arena.Offers.unique`, `Arena.Meets.unique` — both are determined by the hierarchy.
* `Arena.height_lt` — where no class inherits from itself, a class is higher than those it names.
-/

set_option autoImplicit false
namespace SymbolTree

/-- The one item that is there, if there is exactly one. -/
def sole {α : Type} (l : List (Option α)) : Option α :=
  match l.filterMap id with
  | [x] => some x
  | _ => none

/-- The last item that is there. -/
def latest {α : Type} (l : List (Option α)) : Option α := (l.filterMap id).getLast?

theorem sole_eq_some_iff {α : Type} {l : List (Option α)} {x : α} :
    sole l = some x ↔ l.filterMap id = [x] := by
  rw [sole]
  split
  · next y hy => rw [hy, List.cons.injEq, Option.some.injEq, and_iff_left rfl]
  · next hl => exact iff_of_false nofun (hl x)

/-- There is exactly one item when there is one in a place and none in the others. -/
theorem sole_eq_some_iff_exists {α : Type} {l : List (Option α)} {x : α} :
    sole l = some x ↔ ∃ before after, l = before ++ some x :: after ∧
      ∀ y ∈ before ++ after, y = none := by
  rw [sole_eq_some_iff, List.filterMap_eq_cons_iff]
  constructor
  · rintro ⟨before, y, after, rfl, hbefore, hy, hafter⟩
    rw [List.filterMap_eq_nil_iff] at hafter
    cases (show y = some x from hy)
    refine ⟨before, after, rfl, fun z hz => ?_⟩
    rcases List.mem_append.1 hz with hz | hz
    · exact hbefore z hz
    · exact hafter z hz
  · rintro ⟨before, after, rfl, hnone⟩
    exact ⟨before, some x, after, rfl, fun y hy => hnone y (List.mem_append_left _ hy), rfl,
      List.filterMap_eq_nil_iff.2 fun y hy => hnone y (List.mem_append_right _ hy)⟩

theorem isSome_sole {α : Type} (l : List (Option α)) :
    (sole l).isSome = decide ((l.filterMap id).length = 1) := by
  rw [Bool.eq_iff_iff, decide_eq_true_eq, Option.isSome_iff_exists, List.length_eq_one_iff]
  exact exists_congr fun x => sole_eq_some_iff

namespace Arena

variable {a : Arena} {name : String} {s : NodeId}

/-! ## Fields -/

/-- What stands in a list of directives, lists inside it included, down to `fuel` levels. -/
def bodyFrom (a : Arena) : Nat → NodeId → List NodeId
  | 0, _ => []
  | fuel + 1, list => (a.children list).flatMap fun c =>
      if a.kind c = .directiveList then a.bodyFrom fuel c else [c]

/-- What stands in the body of a class. -/
def body (a : Arena) (s : NodeId) : List NodeId :=
  ((a.children s).filter fun c => a.kind c = .directiveList).flatMap (a.bodyFrom (a.size + 1))

/-- The field of a name that stands in a `var`. -/
def fieldIn? (a : Arena) (name : String) (n : NodeId) : Option NodeId :=
  if a.kind n = .var then Search.findVariable a n name else none

/-- The field of a name that the body of a class declares. -/
def field? (a : Arena) (name : String) (s : NodeId) : Option NodeId :=
  (a.body s).findSome? (a.fieldIn? name)

/-- A node is one of the fields that the body of a class declares. -/
def FieldOf (a : Arena) (s v : NodeId) : Prop :=
  ∃ n ∈ a.body s, a.kind n = .var ∧ v ∈ a.children n ∧ a.kind v = .variable_

/-- The classes to which the `extends` and `implements` names of a class are linked, in order. -/
def superClasses (a : Arena) (s : NodeId) : List NodeId := (a.superNames s).filterMap a.inst

theorem mem_superClasses {y : NodeId} : y ∈ a.superClasses s ↔ a.NamesSuper s y :=
  List.mem_filterMap

theorem Alike.superNames {b : Arena} (h : a.Alike b) : b.superNames = a.superNames := by
  funext s
  rw [Arena.superNames, Arena.superNames, h.children, h.kind]

/-! ## What a hierarchy offers under a name -/

/-- What a class has under a name: its own field, or else the one of exactly one of the classes that
it names. -/
inductive Offers (a : Arena) (name : String) : NodeId → Option NodeId → Prop
  /-- Its own field comes first. -/
  | own {s d : NodeId} (h : a.field? name s = some d) : Offers a name s (some d)
  /-- Without one it has what one of the classes that it names has, if no other of them has any. -/
  | inherited {s : NodeId} (h : a.field? name s = none) (offer : NodeId → Option NodeId)
      (hoffer : ∀ y ∈ a.superClasses s, Offers a name y (offer y)) :
      Offers a name s (sole ((a.superClasses s).map offer))

/-- The last field of a name that a walk through a class and those that it names comes across,
also in classes where the name is ambiguous. -/
inductive Meets (a : Arena) (name : String) : NodeId → Option NodeId → Prop
  /-- At its own field the walk ends. -/
  | own {s d : NodeId} (h : a.field? name s = some d) : Meets a name s (some d)
  /-- Without one it goes through the classes that it names, one after the other. -/
  | inherited {s : NodeId} (h : a.field? name s = none) (met : NodeId → Option NodeId)
      (hmet : ∀ y ∈ a.superClasses s, Meets a name y (met y)) :
      Meets a name s (latest ((a.superClasses s).map met))

theorem Offers.unique {r r' : Option NodeId} (h : a.Offers name s r) (h' : a.Offers name s r') :
    r = r' := by
  induction h generalizing r' with
  | own h =>
    cases h' with
    | own h' => exact h.symm.trans h'
    | inherited h' => rw [h] at h'; cases h'
  | inherited h offer _ ih =>
    cases h' with
    | own h' => rw [h] at h'; cases h'
    | inherited _ offer' hoffer' =>
      exact congrArg sole (List.map_congr_left fun y hy => ih y hy (hoffer' y hy))

/-- Without a field of its own, a class has one if exactly one of those that it names does. -/
theorem Offers.eq_some_iff {m : NodeId} {r : Option NodeId} (h : a.Offers name s r)
    (hown : a.field? name s = none) : r = some m ↔
      ∃ before y after, a.superClasses s = before ++ y :: after ∧ a.Offers name y (some m) ∧
        ∀ z ∈ before ++ after, a.Offers name z none := by
  cases h with
  | own h => rw [hown] at h; cases h
  | inherited _ offer hoffer =>
    rw [sole_eq_some_iff_exists]
    constructor
    · rintro ⟨before, after, hmap, hnone⟩
      obtain ⟨xs, ys, hl, rfl, hys⟩ := List.map_eq_append_iff.1 hmap
      obtain ⟨y, zs, rfl, hy, rfl⟩ := List.map_eq_cons_iff.1 hys
      rw [hl] at hoffer ⊢
      refine ⟨xs, y, zs, rfl, hy ▸ hoffer y (by simp), fun z hz => ?_⟩
      rw [← List.map_append] at hnone
      rw [← hnone _ (List.mem_map_of_mem hz)]
      exact hoffer z (by simp only [List.mem_append, List.mem_cons] at hz ⊢; tauto)
    · rintro ⟨before, y, after, hl, hy, hnone⟩
      rw [hl] at hoffer ⊢
      refine ⟨before.map offer, after.map offer, ?_, fun o ho => ?_⟩
      · rw [List.map_append, List.map_cons, (hoffer y (by simp)).unique hy]
      · rw [← List.map_append] at ho
        obtain ⟨z, hz, rfl⟩ := List.mem_map.1 ho
        refine (hoffer z ?_).unique (hnone z hz)
        simp only [List.mem_append, List.mem_cons] at hz ⊢
        tauto

theorem Meets.unique {l l' : Option NodeId} (h : a.Meets name s l) (h' : a.Meets name s l') :
    l = l' := by
  induction h generalizing l' with
  | own h =>
    cases h' with
    | own h' => exact h.symm.trans h'
    | inherited h' => rw [h] at h'; cases h'
  | inherited h met _ ih =>
    cases h' with
    | own h' => rw [h] at h'; cases h'
    | inherited _ met' hmet' =>
      exact congrArg latest (List.map_congr_left fun y hy => ih y hy (hmet' y hy))

/-! ## The height of a class -/

open Classical in
/-- The number of classes from which a class inherits, itself aside. -/
noncomputable def height (a : Arena) (s : NodeId) : Nat :=
  ((Finset.range a.size).filter fun i => Relation.TransGen a.NamesSuper s ⟨i⟩).card

open Classical in
theorem height_le_size (a : Arena) (s : NodeId) : a.height s ≤ a.size :=
  (Finset.card_filter_le _ _).trans (Finset.card_range a.size).le

open Classical in
/-- A class that does not inherit from itself is higher than those that it names. -/
theorem height_lt {y : NodeId} (hy : a.NamesSuper s y) (h : ¬ Relation.TransGen a.NamesSuper y y) :
    a.height y < a.height s := by
  have hsize : y.index < a.size := by
    obtain ⟨name, -, hinst⟩ := hy
    exact lt_size_of_live hinst
  refine Finset.card_lt_card (Finset.ssubset_iff_of_subset ?_ |>.2 ⟨y.index, ?_, ?_⟩)
  · intro i hi
    rw [Finset.mem_filter] at hi ⊢
    exact ⟨hi.1, .head hy hi.2⟩
  · rw [Finset.mem_filter, Finset.mem_range]
    exact ⟨hsize, .single hy⟩
  · rw [Finset.mem_filter, not_and]
    exact fun _ => h

end Arena

/-! ## Plain hierarchies -/

/-- Kinds that declare something in a list of directives, a `var` aside. -/
def Kind.isDeclaration (k : Kind) : Bool :=
  [Kind.param, .function, .class_, .interface, .enum, .package, .import_].contains k

namespace Context

/-- A node is a field of the class `link` or of one from which it inherits, or lies above such a
field among the nodes from which it inherits attributes. -/
def AboveField (c : Context) (link n : NodeId) : Prop :=
  ∃ s v, c.arena.DerivedFrom link s ∧ c.arena.FieldOf s v ∧
    Relation.ReflTransGen c.arena.InheritsFrom v n

/-- The class `link` and those from which it inherits are linked and do not inherit from themselves;
their bodies declare variables only, and every place may see these. -/
structure PlainHierarchy (c : Context) (link : NodeId) : Prop where
  /-- The tree is consistent. -/
  consistent : c.arena.Consistent
  /-- No node stands below itself. -/
  forest : c.arena.Forest
  /-- The names of the classes are linked. -/
  linked : ∀ s, c.arena.DerivedFrom link s → ∀ name ∈ c.arena.superNames s,
    (c.arena.inst name).isSome = true
  /-- No class inherits from itself. -/
  acyclic : ∀ s, c.arena.DerivedFrom link s → ¬ Relation.TransGen c.arena.NamesSuper s s
  /-- Nothing else is declared. -/
  plain : ∀ s, c.arena.DerivedFrom link s → ∀ n ∈ c.arena.body s,
    (c.arena.kind n).isDeclaration = false
  /-- The attribute lists that matter for the fields can be read. -/
  legible : ∀ n, c.AboveField link n → c.arena.Legible n
  /-- The fields are open to all. -/
  public_ : ∀ s v attrs, c.arena.DerivedFrom link s → c.arena.FieldOf s v →
    c.arena.Effective v attrs → attrs.contains .private_ = false ∧
      attrs.contains .protected_ = false ∧ attrs.contains .internal = false
  /-- What is remembered about them is right. -/
  remembered : ∀ n attrs, c.AboveField link n → c.attributeCache.lookup n = some attrs →
    c.arena.Fits n attrs

end Context

end SymbolTree
