import Mathlib.Data.List.FinRange
import Mathlib.Data.List.Flatten
import SymbolTree.Proofs.Search.Imported.Package
import SymbolTree.Proofs.Search.Legible

/-!
# What the packages of a program declare

What is to be recorded of a program is found by a walk through its lists of directives and packages
(`Arena.entries`).  Here the same is told without a walk (`Arena.Declares`): a list of directives
belongs to the program or to one of its packages, a package inside another has the names of both,
and what stands in a list of a package is declared by it.

A walk has a bound on how deep it may go.  In the tree of a program a node is fewer levels below the
program than the arena has nodes (`Arena.Hangs.lt_size`), so that the bound is never reached.

## Main statements

* `Arena.mem_entries_iff` — the walk meets exactly what is declared.
* `Arena.sublist_preorder_entries` — and in the order of the tree.
* `Arena.graded_inside` — attributes are worked out from the program downwards.
-/

set_option autoImplicit false
namespace SymbolTree

open Relation (ReflTransGen TransGen)

namespace Arena

variable {a : Arena} {m n p list body : NodeId} {k l fuel : Nat} {package : String} {e : Entry}

/-! ## Levels -/

/-- A node is so many levels below another. -/
inductive Hangs (a : Arena) (m : NodeId) : Nat → NodeId → Prop
  /-- The node itself. -/
  | root : Hangs a m 0 m
  /-- One level more. -/
  | child {k : Nat} {n p : NodeId} (hn : a.Under n p) (hp : Hangs a m k p) : Hangs a m (k + 1) n

theorem Hangs.inside (h : a.Hangs m k n) : a.Inside n m := by
  induction h with
  | root => exact .refl
  | child hn _ ih => exact .head hn ih

theorem exists_hangs (h : a.Inside n m) : ∃ k, a.Hangs m k n := by
  induction h using ReflTransGen.head_induction_on with
  | refl => exact ⟨0, .root⟩
  | head hn _ ih =>
    obtain ⟨k, hk⟩ := ih
    exact ⟨k + 1, .child hn hk⟩

/-- The levels between a node and another above it can be counted on the way up. -/
theorem Hangs.idxOf (h : a.Hangs m k n) (hm : ¬ TransGen a.Under m m) (hfuel : k ≤ fuel) :
    (n :: a.ancestorsFrom fuel n).idxOf m = k := by
  induction h generalizing fuel with
  | root => exact List.idxOf_cons_self
  | @child k n p hn hp ih =>
    obtain ⟨fuel, rfl⟩ : ∃ f, fuel = f + 1 := ⟨fuel - 1, by omega⟩
    have hne : n ≠ m := by
      rintro rfl
      exact hm (.head' hn hp.inside)
    have hparent : a.parent n = some p := hn
    rw [List.idxOf_cons_ne _ hne, ancestorsFrom, hparent]
    exact congrArg Nat.succ (ih (by omega))

theorem Hangs.unique (hm : ¬ TransGen a.Under m m) (h : a.Hangs m k n) (h' : a.Hangs m l n) :
    k = l :=
  (h.idxOf hm (Nat.le_max_left k l)).symm.trans (h'.idxOf hm (Nat.le_max_right k l))

/-- Between a node and another above it there is one on every level. -/
theorem Hangs.exists_level (h : a.Hangs m k n) {i : Nat} (hi : i ≤ k) : ∃ x, a.Hangs m i x := by
  induction h with
  | root => exact ⟨m, Nat.le_zero.1 hi ▸ .root⟩
  | @child k n p hn hp ih =>
    rcases Nat.lt_or_eq_of_le hi with hi | rfl
    · exact ih (Nat.le_of_lt_succ hi)
    · exact ⟨n, .child hn hp⟩

/-- No node of a tree is as many levels down as the arena has nodes, since the nodes on the way are
all different. -/
theorem Hangs.lt_size (h : a.Hangs m k n) (hm : ¬ TransGen a.Under m m)
    (hsize : m.index < a.size) : k < a.size := by
  choose f hf using fun (i : Fin (k + 1)) => h.exists_level (Nat.le_of_lt_succ i.isLt)
  have hindex : ∀ i, (f i).index < a.size := by
    intro i
    rcases ReflTransGen.cases_head (hf i).inside with heq | ⟨p, hp, -⟩
    · rwa [heq]
    · exact lt_size_of_parent hp
  have hinjective : Function.Injective f :=
    fun i j hij => Fin.ext ((hf i).unique hm (hij ▸ hf j))
  have hlength := length_le_size (List.nodup_ofFn.2 hinjective) fun x hx => by
    obtain ⟨i, rfl⟩ := List.mem_ofFn.1 hx
    exact hindex i
  rwa [List.length_ofFn] at hlength

/-- What is above a node inherits before it does. -/
theorem graded_inside (hm : ¬ TransGen a.Under m m) (hprogram : a.kind m = .program) :
    a.Graded (a.Inside · m) fun n => (n :: a.ancestors n).idxOf m := by
  have hsize := lt_size_of_kind_ne (a := a) (n := m) (by rw [hprogram]; decide)
  have hup : ∀ n p, a.Inside n m → a.InheritsFrom n p → a.Inside p m := by
    intro n p hn hp
    rcases ReflTransGen.cases_head hn with rfl | ⟨q, hq, hqm⟩
    · exact absurd hprogram hp.1
    · cases hq.symm.trans hp.2.2
      exact hqm
  refine ⟨hup, fun n p hn hp => ?_⟩
  obtain ⟨k, hk⟩ := exists_hangs (hup n p hn hp)
  have hchild : a.Hangs m (k + 1) n := .child hp.2.2 hk
  have hlt := hchild.lt_size hm hsize
  rw [Arena.ancestors, Arena.ancestors, hchild.idxOf hm (by omega), hk.idxOf hm (by omega)]
  exact Nat.lt_succ_self k

/-- Attributes of a node of a program are inherited over no more levels than the arena has nodes. -/
theorem depth_lt_size (hm : ¬ TransGen a.Under m m) (hprogram : a.kind m = .program)
    (hn : a.Inside n m) : (n :: a.ancestors n).idxOf m < a.size := by
  have hsize := lt_size_of_kind_ne (a := a) (n := m) (by rw [hprogram]; decide)
  obtain ⟨k, hk⟩ := exists_hangs hn
  have hlt := hk.lt_size hm hsize
  rwa [Arena.ancestors, hk.idxOf hm (by omega)]

/-! ## Declarations -/

/-- A program, or a list of directives that belongs to it and to no package. -/
inductive Directives (a : Arena) (m : NodeId) : NodeId → Prop
  /-- The program. -/
  | program : Directives a m m
  /-- A list inside another. -/
  | list {list c : NodeId} (h : Directives a m list) (hc : c ∈ a.children list)
      (hk : a.kind c = .directiveList) : Directives a m c

/-- The directives of a package of a program, under the name of the package. -/
inductive PackageBody (a : Arena) (m : NodeId) : String → NodeId → Prop
  /-- The first child of a package of the program. -/
  | package {list p body : NodeId} (h : a.Directives m list) (hp : p ∈ a.children list)
      (hk : a.kind p = .package) (hbody : (a.children p).head? = some body) :
      PackageBody a m (a.name p) body
  /-- A list inside another. -/
  | list {package : String} {list c : NodeId} (h : PackageBody a m package list)
      (hc : c ∈ a.children list) (hk : a.kind c = .directiveList) : PackageBody a m package c
  /-- The first child of a package inside another, under the names of both. -/
  | nested {package : String} {list p body : NodeId} (h : PackageBody a m package list)
      (hp : p ∈ a.children list) (hk : a.kind p = .package)
      (hbody : (a.children p).head? = some body) :
      PackageBody a m (package ++ "." ++ a.name p) body

/-- What the packages of a program declare. -/
inductive Declares (a : Arena) (m : NodeId) : Entry → Prop
  /-- A class. -/
  | class_ {package : String} {list c : NodeId} (h : a.PackageBody m package list)
      (hc : c ∈ a.children list) (hk : a.kind c = .class_) : Declares a m ⟨package, c, "class"⟩
  /-- A function, which may be a getter or a setter. -/
  | function {package : String} {list c : NodeId} (h : a.PackageBody m package list)
      (hc : c ∈ a.children list) (hk : a.kind c = .function) :
      Declares a m ⟨package, c, a.functionType c⟩
  /-- A variable. -/
  | variable_ {package : String} {list c v : NodeId} (h : a.PackageBody m package list)
      (hc : c ∈ a.children list) (hk : a.kind c = .var) (hv : v ∈ a.children c) :
      Declares a m ⟨package, v, "variable"⟩

theorem name_of_package (hp : a.kind p = .package) : a.name p = (a.node p).text := by
  rw [name, hp]
  rfl

/-! ### What is met is declared -/

theorem declares_of_mem_packageEntries (h : a.PackageBody m package list)
    (he : e ∈ a.packageEntries fuel package list) : a.Declares m e := by
  induction fuel generalizing package list with
  | zero => cases he
  | succ fuel ih =>
    obtain ⟨c, hc, he⟩ := List.mem_flatMap.1 he
    split at he
    · next hk => exact ih (h.list hc hk) he
    · next hk =>
      rw [List.mem_singleton.1 he]
      exact .class_ h hc hk
    · next hk =>
      rw [List.mem_singleton.1 he]
      exact .function h hc hk
    · next hk =>
      obtain ⟨v, hv, rfl⟩ := List.mem_map.1 he
      exact .variable_ h hc hk hv
    · next hk =>
      split at he
      · next hbody =>
        rw [← name_of_package hk] at he
        exact ih (h.nested hc hk hbody) he
      · cases he
    · cases he

theorem declares_of_mem_entriesFrom (h : a.Directives m list)
    (he : e ∈ a.entriesFrom fuel list) : a.Declares m e := by
  induction fuel generalizing list with
  | zero => cases he
  | succ fuel ih =>
    obtain ⟨c, hc, he⟩ := List.mem_flatMap.1 he
    split at he
    · next hk => exact ih (h.list hc hk) he
    · next hk =>
      split at he
      · next hbody =>
        rw [← name_of_package hk] at he
        exact declares_of_mem_packageEntries (.package h hc hk hbody) he
      · cases he
    · cases he

/-- A first child, and all that hangs below it, hangs below its parent. -/
theorem sublist_preorderFrom_head (hbody : (a.children p).head? = some body) (levels : Nat) :
    (a.preorderFrom levels body).Sublist ((a.children p).flatMap (a.preorderFrom levels)) := by
  have hone := (List.singleton_sublist.2 (List.mem_of_head? hbody)).flatMap (a.preorderFrom levels)
  rwa [List.flatMap_singleton] at hone

/-! ### What is declared is met -/

section Walk

variable (h : a.Consistent) (hm : ¬ TransGen a.Under m m) (hprogram : a.kind m = .program)

include h hm hprogram

/-- The walk comes to every list of directives of the program, and may still go deep enough. -/
theorem Directives.walked (hlist : a.Directives m list) : ∃ k fuel, a.Hangs m k list ∧
    a.size < fuel + 1 + k ∧ ∀ e ∈ a.entriesFrom (fuel + 1) list, e ∈ a.entries m := by
  have hsize := lt_size_of_kind_ne (a := a) (n := m) (by rw [hprogram]; decide)
  induction hlist with
  | program =>
    refine ⟨0, a.size, .root, Nat.lt_succ_self _, fun e he => ?_⟩
    rwa [entries, if_pos hprogram]
  | @list list c _ hc hk ih =>
    obtain ⟨k, fuel, hlevel, hfuel, hmem⟩ := ih
    have hchild : a.Hangs m (k + 1) c := .child ((h.mem_children list c).1 hc) hlevel
    have hlt := hchild.lt_size hm hsize
    obtain ⟨fuel, rfl⟩ : ∃ f, fuel = f + 1 := ⟨fuel - 1, by omega⟩
    refine ⟨k + 1, fuel, hchild, by omega, fun e he => hmem e ?_⟩
    refine List.mem_flatMap.2 ⟨c, hc, ?_⟩
    rw [hk]
    exact he

/-- The walk comes to the directives of every package, and may still go deep enough. -/
theorem PackageBody.walked (hlist : a.PackageBody m package list) : ∃ k fuel, a.Hangs m k list ∧
    a.size < fuel + 1 + k ∧ ∀ e ∈ a.packageEntries (fuel + 1) package list, e ∈ a.entries m := by
  have hsize := lt_size_of_kind_ne (a := a) (n := m) (by rw [hprogram]; decide)
  have hbelow : ∀ {k p c}, a.Hangs m k p → c ∈ a.children p → a.Hangs m (k + 1) c :=
    fun hp hc => .child ((h.mem_children _ _).1 hc) hp
  induction hlist with
  | @package list p body hlist hp hk hbody =>
    obtain ⟨k, fuel, hlevel, hfuel, hmem⟩ := hlist.walked h hm hprogram
    refine ⟨k + 2, a.size, hbelow (hbelow hlevel hp) (List.mem_of_head? hbody), by omega,
      fun e he => hmem e (List.mem_flatMap.2 ⟨p, hp, ?_⟩)⟩
    rw [hk]
    dsimp only
    rw [hbody, ← name_of_package hk]
    exact he
  | @list package list c _ hc hk ih =>
    obtain ⟨k, fuel, hlevel, hfuel, hmem⟩ := ih
    have hlt := (hbelow hlevel hc).lt_size hm hsize
    obtain ⟨fuel, rfl⟩ : ∃ f, fuel = f + 1 := ⟨fuel - 1, by omega⟩
    refine ⟨k + 1, fuel, hbelow hlevel hc, by omega,
      fun e he => hmem e (List.mem_flatMap.2 ⟨c, hc, ?_⟩)⟩
    rw [hk]
    exact he
  | @nested package list p body _ hp hk hbody ih =>
    obtain ⟨k, fuel, hlevel, hfuel, hmem⟩ := ih
    have hinner := hbelow (hbelow hlevel hp) (List.mem_of_head? hbody)
    have hlt := hinner.lt_size hm hsize
    obtain ⟨fuel, rfl⟩ : ∃ f, fuel = f + 1 := ⟨fuel - 1, by omega⟩
    refine ⟨k + 2, fuel, hinner, by omega, fun e he => hmem e (List.mem_flatMap.2 ⟨p, hp, ?_⟩)⟩
    rw [hk]
    dsimp only
    rw [hbody, ← name_of_package hk]
    exact he

/-- **The walk meets exactly what the packages of the program declare.** -/
theorem mem_entries_iff : e ∈ a.entries m ↔ a.Declares m e := by
  constructor
  · intro he
    rw [entries, if_pos hprogram] at he
    exact declares_of_mem_entriesFrom .program he
  · intro he
    cases he with
    | @class_ package list c hlist hc hk =>
      obtain ⟨_, _, -, -, hmem⟩ := hlist.walked h hm hprogram
      refine hmem _ (List.mem_flatMap.2 ⟨c, hc, ?_⟩)
      rw [hk]
      exact List.mem_singleton_self _
    | @function package list c hlist hc hk =>
      obtain ⟨_, _, -, -, hmem⟩ := hlist.walked h hm hprogram
      refine hmem _ (List.mem_flatMap.2 ⟨c, hc, ?_⟩)
      rw [hk]
      exact List.mem_singleton_self _
    | @variable_ package list c v hlist hc hk hv =>
      obtain ⟨_, _, -, -, hmem⟩ := hlist.walked h hm hprogram
      refine hmem _ (List.mem_flatMap.2 ⟨c, hc, ?_⟩)
      rw [hk]
      exact List.mem_map.2 ⟨v, hv, rfl⟩

/-! ### The order -/

/-- What a package declares comes in the order of the tree. -/
theorem sublist_packageEntries (hlist : a.Hangs m k list) {levels : Nat}
    (hlevels : a.size ≤ levels + k) (fuel : Nat) (package : String) :
    ((a.packageEntries fuel package list).map Entry.node).Sublist
      ((a.children list).flatMap (a.preorderFrom levels)) := by
  have hsize := lt_size_of_kind_ne (a := a) (n := m) (by rw [hprogram]; decide)
  induction fuel generalizing list k levels package with
  | zero => exact List.nil_sublist _
  | succ fuel ih =>
    rw [packageEntries, List.map_flatMap]
    refine List.Sublist.flatMap_right _ fun c hc => ?_
    have hchild : a.Hangs m (k + 1) c := .child ((h.mem_children list c).1 hc) hlist
    have hlt := hchild.lt_size hm hsize
    obtain ⟨levels, rfl⟩ : ∃ l, levels = l + 1 := ⟨levels - 1, by omega⟩
    rw [preorderFrom]
    split
    · exact (ih hchild (by omega) package).cons c
    · exact List.cons_sublist_cons.2 (List.nil_sublist _)
    · exact List.cons_sublist_cons.2 (List.nil_sublist _)
    · refine List.Sublist.cons c ?_
      rw [List.map_map, ← List.flatMap_pure_eq_map]
      refine List.Sublist.flatMap_right _ fun v hv => ?_
      have hvariable : a.Hangs m (k + 2) v := .child ((h.mem_children c v).1 hv) hchild
      have hlt := hvariable.lt_size hm hsize
      obtain ⟨levels, rfl⟩ : ∃ l, levels = l + 1 := ⟨levels - 1, by omega⟩
      exact List.cons_sublist_cons.2 (List.nil_sublist _)
    · split
      · next body hbody =>
        have hinner : a.Hangs m (k + 2) body :=
          .child ((h.mem_children c body).1 (List.mem_of_head? hbody)) hchild
        have hlt := hinner.lt_size hm hsize
        obtain ⟨levels, rfl⟩ : ∃ l, levels = l + 1 := ⟨levels - 1, by omega⟩
        exact (((ih hinner (by omega) _).cons body).trans
          (sublist_preorderFrom_head hbody (levels + 1))).cons c
      · exact List.nil_sublist _
    · exact List.nil_sublist _

/-- **What the packages of a program declare is met in the order of the tree.** -/
theorem sublist_preorder_entries :
    ((a.entries m).map Entry.node).Sublist (a.preorder m) := by
  have hsize := lt_size_of_kind_ne (a := a) (n := m) (by rw [hprogram]; decide)
  have hfrom : ∀ fuel k list levels, a.Hangs m k list → a.size ≤ levels + k →
      ((a.entriesFrom fuel list).map Entry.node).Sublist
        ((a.children list).flatMap (a.preorderFrom levels)) := by
    intro fuel
    induction fuel with
    | zero => exact fun _ _ _ _ _ => List.nil_sublist _
    | succ fuel ih =>
      intro k list levels hlist hlevels
      rw [entriesFrom, List.map_flatMap]
      refine List.Sublist.flatMap_right _ fun c hc => ?_
      have hchild : a.Hangs m (k + 1) c := .child ((h.mem_children list c).1 hc) hlist
      have hlt := hchild.lt_size hm hsize
      obtain ⟨levels, rfl⟩ : ∃ l, levels = l + 1 := ⟨levels - 1, by omega⟩
      rw [preorderFrom]
      split
      · exact (ih (k + 1) c levels hchild (by omega)).cons c
      · split
        · next body hbody =>
          have hinner : a.Hangs m (k + 2) body :=
            .child ((h.mem_children c body).1 (List.mem_of_head? hbody)) hchild
          have hlt := hinner.lt_size hm hsize
          obtain ⟨levels, rfl⟩ : ∃ l, levels = l + 1 := ⟨levels - 1, by omega⟩
          have hbelow := sublist_packageEntries h hm hprogram hinner
            (show a.size ≤ levels + (k + 2) by omega) (a.size + 1) (a.node c).text
          exact ((hbelow.cons body).trans (sublist_preorderFrom_head hbody (levels + 1))).cons c
        · exact List.nil_sublist _
      · exact List.nil_sublist _
  rw [entries, if_pos hprogram]
  exact (hfrom _ 0 m a.size .root (Nat.le_refl _)).cons m

end Walk

end Arena

end SymbolTree
