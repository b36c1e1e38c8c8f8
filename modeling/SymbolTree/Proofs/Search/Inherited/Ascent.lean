import Mathlib.Algebra.Group.Int.Defs
import Mathlib.Data.Nat.Find
import Mathlib.Order.Bounds.Basic
import SymbolTree.Proofs.Search.Inherited.Hierarchy

/-!
# Ways up a class hierarchy

A class may inherit from another one along many ways, of different lengths.  `Arena.Ascent` counts
the steps of each.  A search that looks for the other class does not follow all of them: at a class
that names the one looked for it ends, so that it only sees the *prompt* ways
(`Arena.PromptAscent`).  The shortest way is prompt (`Arena.prompt_of_isLeast`), but prompt ways may
differ in length.

## Main statements

* `Arena.transGen_iff_exists_prompt` — a class inherits from another one if there is a prompt way.
* `Arena.Hierarchy.depthFits_of_ids` — depths that are counted from two on fit into 32 bits if the
  nodes are numbered in 32 bits.
* `Arena.isGreatest_ascents_of_not_namesSuper` — the longest prompt way from a class is one step
  longer than the longest from the classes that it names.
-/

set_option autoImplicit false
namespace SymbolTree.Arena

open Relation (ReflTransGen TransGen)

variable {a : Arena} {s t y : NodeId} {k m : Nat}

/-! ## Hierarchies -/

/-- Linking a name would change nothing: it is linked, it is of a kind that is never linked, or the
one attempt to link it was made. -/
def LinkTried (a : Arena) (name : NodeId) : Prop :=
  (a.inst name).isSome = true ∨ (a.kind name ≠ .identifier ∧ a.kind name ≠ .string) ∨
    (a.node name).flags.contains .identifierTyped = true

instance (a : Arena) (name : NodeId) : Decidable (a.LinkTried name) :=
  inferInstanceAs (Decidable (_ ∨ _ ∧ _ ∨ _))

/-- The class `s` and those from which it inherits do not inherit from themselves, and linking was
tried on every name in their `extends` and `implements` clauses. -/
structure Hierarchy (a : Arena) (s : NodeId) : Prop where
  /-- Linking was tried. -/
  tried : ∀ x, a.DerivedFrom s x → ∀ name ∈ a.superNames x, a.LinkTried name
  /-- No class inherits from itself. -/
  acyclic : ∀ x, a.DerivedFrom s x → ¬ TransGen a.NamesSuper x x

/-- The class `s` and those from which it inherits do not inherit from themselves, and every name in
their `extends` and `implements` clauses is linked. -/
structure LinkedHierarchy (a : Arena) (s : NodeId) : Prop where
  /-- The names are linked. -/
  linked : ∀ x, a.DerivedFrom s x → ∀ name ∈ a.superNames x, (a.inst name).isSome = true
  /-- No class inherits from itself. -/
  acyclic : ∀ x, a.DerivedFrom s x → ¬ TransGen a.NamesSuper x x

theorem LinkedHierarchy.hierarchy (h : a.LinkedHierarchy s) : a.Hierarchy s :=
  ⟨fun x hx name hname => .inl (h.linked x hx name hname), h.acyclic⟩

theorem lt_size_of_mem_superNames {name : NodeId} (h : name ∈ a.superNames s) :
    s.index < a.size := by
  obtain ⟨clause, hclause, -⟩ := List.mem_flatMap.1 h
  exact lt_size_of_mem_children hclause

/-- Where a class names only classes that were created before it, none inherits from itself. -/
theorem hierarchy_of_lt (h : ∀ i < a.size, ∀ name ∈ a.superNames ⟨i⟩,
    a.LinkTried name ∧ ∀ y ∈ a.inst name, y.index < i) (s : NodeId) : a.Hierarchy s :=
  ⟨fun x _ name hname => (h x.index (lt_size_of_mem_superNames hname) name hname).1,
    fun x _ => not_transGen_self (f := NodeId.index) (fun x y ⟨name, hname, hy⟩ =>
      (h x.index (lt_size_of_mem_superNames hname) name hname).2 y hy) x⟩

theorem linkedHierarchy_of_lt (h : ∀ i < a.size, ∀ name ∈ a.superNames ⟨i⟩,
    (a.inst name).isSome = true ∧ ∀ y ∈ a.inst name, y.index < i) (s : NodeId) :
    a.LinkedHierarchy s :=
  ⟨fun x _ name hname => (h x.index (lt_size_of_mem_superNames hname) name hname).1,
    (hierarchy_of_lt (fun i hi name hname =>
      ⟨.inl (h i hi name hname).1, (h i hi name hname).2⟩) s).acyclic⟩

namespace Hierarchy

/-- What a class names has a hierarchy, and is not as high. -/
theorem of_namesSuper (h : a.Hierarchy s) (hy : a.NamesSuper s y) :
    a.Hierarchy y ∧ a.height y < a.height s :=
  ⟨⟨fun x hx => h.tried x (.head hy hx), fun x hx => h.acyclic x (.head hy hx)⟩,
    height_lt hy (h.acyclic y (.single hy))⟩

theorem transGen_iff (h : a.Hierarchy s) :
    TransGen a.NamesSuper s t ↔ s ≠ t ∧ a.DerivedFrom s t := by
  constructor
  · refine fun hst => ⟨?_, hst.to_reflTransGen⟩
    rintro rfl
    exact h.acyclic s .refl hst
  · rintro ⟨hne, hst⟩
    exact (Relation.reflTransGen_iff_eq_or_transGen.1 hst).resolve_left hne.symm

end Hierarchy

/-! ## Ways up -/

/-- There is a way of so many steps from a class up to the class `t`. -/
inductive Ascent (a : Arena) (t : NodeId) : NodeId → Nat → Prop
  /-- The class names `t`. -/
  | last {s : NodeId} (h : a.NamesSuper s t) : Ascent a t s 1
  /-- The way goes through a class that it names. -/
  | step {s y : NodeId} {k : Nat} (h : a.NamesSuper s y) (hy : Ascent a t y k) :
      Ascent a t s (k + 1)

/-- There is a way of so many steps from a class up to the class `t`, and no class on it names `t`
but the last. -/
inductive PromptAscent (a : Arena) (t : NodeId) : NodeId → Nat → Prop
  /-- The class names `t`. -/
  | last {s : NodeId} (h : a.NamesSuper s t) : PromptAscent a t s 1
  /-- The class does not, and the way goes through one that it names. -/
  | step {s y : NodeId} {k : Nat} (hs : ¬ a.NamesSuper s t) (h : a.NamesSuper s y)
      (hy : PromptAscent a t y k) : PromptAscent a t s (k + 1)

theorem PromptAscent.ascent (h : a.PromptAscent t s k) : a.Ascent t s k := by
  induction h with
  | last h => exact .last h
  | step _ h _ ih => exact .step h ih

theorem PromptAscent.ne_zero (h : a.PromptAscent t s k) : k ≠ 0 := by
  cases h with
  | last => exact one_ne_zero
  | step => exact Nat.succ_ne_zero _

/-- A way that goes past a class that names `t` can be cut short there. -/
theorem Ascent.exists_prompt (h : a.Ascent t s k) : ∃ m ≤ k, a.PromptAscent t s m := by
  induction h with
  | last h => exact ⟨1, le_rfl, .last h⟩
  | @step s y k h _ ih =>
    by_cases hs : a.NamesSuper s t
    · exact ⟨1, Nat.le_add_left 1 k, .last hs⟩
    · obtain ⟨m, hm, hy⟩ := ih
      exact ⟨m + 1, Nat.succ_le_succ hm, .step hs h hy⟩

open Classical in
theorem exists_isLeast_ascent (h : ∃ k, a.Ascent t s k) : ∃ k, IsLeast {k | a.Ascent t s k} k :=
  ⟨Nat.find h, Nat.find_spec h, fun _ hk => Nat.find_min' h hk⟩

/-- The shortest way up is prompt. -/
theorem prompt_of_isLeast (h : IsLeast {k | a.Ascent t s k} k) : a.PromptAscent t s k := by
  obtain ⟨m, hm, hprompt⟩ := h.1.exists_prompt
  rwa [hm.antisymm (h.2 hprompt.ascent)] at hprompt

theorem Ascent.transGen (h : a.Ascent t s k) : TransGen a.NamesSuper s t := by
  induction h with
  | last h => exact .single h
  | step h _ ih => exact .head h ih

theorem exists_ascent (h : TransGen a.NamesSuper s t) : ∃ k, a.Ascent t s k := by
  induction h using TransGen.head_induction_on with
  | single h => exact ⟨1, .last h⟩
  | head h _ ih =>
    obtain ⟨k, hk⟩ := ih
    exact ⟨k + 1, .step h hk⟩

/-- A class inherits from another one if and only if there is a prompt way up. -/
theorem transGen_iff_exists_prompt :
    TransGen a.NamesSuper s t ↔ ∃ k, a.PromptAscent t s k := by
  constructor
  · intro h
    obtain ⟨k, hk⟩ := exists_ascent h
    obtain ⟨m, -, hm⟩ := hk.exists_prompt
    exact ⟨m, hm⟩
  · rintro ⟨k, hk⟩
    exact hk.ascent.transGen

/-- No way up has more steps than the class has classes from which it inherits. -/
theorem Hierarchy.le_height (h : a.Hierarchy s) (hk : a.Ascent t s k) : k ≤ a.height s := by
  induction hk with
  | last hy => exact Nat.one_le_of_lt (h.of_namesSuper hy).2
  | step hy _ ih =>
    obtain ⟨hhierarchy, hlt⟩ := h.of_namesSuper hy
    exact Nat.succ_le_of_lt ((ih hhierarchy).trans_lt hlt)

/-! ## Depths in 32 bits -/

/-- The classes above `s` are counted in 32 bits from `depth` on, `t` aside, at which a search
ends. -/
def DepthFits (a : Arena) (s t : NodeId) (depth : Int) : Prop :=
  ∀ x k, x ≠ t → a.Ascent x s k → depth + k < 2 ^ 31

/-- At a class that does not name `t`, the next depth fits, and so do those after it. -/
theorem DepthFits.of_namesSuper {depth : Int} (h : a.DepthFits s t depth)
    (hs : ¬ a.NamesSuper s t) (hy : a.NamesSuper s y) :
    depth + 1 < 2 ^ 31 ∧ a.DepthFits y t (depth + 1) := by
  refine ⟨h y 1 (fun heq => hs (heq ▸ hy)) (.last hy), fun x k hx hk => ?_⟩
  have hlt := h x (k + 1) hx (.step hy hk)
  push_cast at hlt
  omega

/-- Depths fit where there are not that many nodes. -/
theorem Hierarchy.depthFits {depth : Int} (h : a.Hierarchy s) (hsize : depth + a.size < 2 ^ 31) :
    a.DepthFits s t depth := by
  intro x k _ hk
  have hheight := (h.le_height hk).trans (a.height_le_size s)
  omega

/-- A name in a clause of a class hangs below the clause, in a list if there are several. -/
theorem exists_clause_of_mem_superNames (h : a.Consistent) {name : NodeId}
    (hname : name ∈ a.superNames s) :
    ∃ clause, a.parent clause = some s ∧
      (a.kind clause = .extends_ ∨ a.kind clause = .implements) ∧
      (a.parent name = some clause ∨ ∃ list, a.kind list = .list ∧ a.parent name = some list ∧
        a.parent list = some clause) := by
  obtain ⟨clause, hclause, hmem⟩ := List.mem_flatMap.1 hname
  split at hmem
  · next hk =>
    refine ⟨clause, (h.mem_children s clause).1 hclause, by simpa using hk, ?_⟩
    split at hmem
    · next child hchild =>
      have hparent : a.parent child = some clause :=
        (h.mem_children clause child).1 (by simp [hchild])
      split at hmem
      · next hlist => exact .inr ⟨child, hlist, (h.mem_children child name).1 hmem, hparent⟩
      · exact .inl (List.mem_singleton.1 hmem ▸ hparent)
    · cases hmem
  · cases hmem

/-- A name stands in the clauses of one class only. -/
theorem eq_of_mem_superNames (h : a.Consistent) {name : NodeId} (hs : name ∈ a.superNames s)
    (hy : name ∈ a.superNames y) : s = y := by
  obtain ⟨e, he, hke, hs⟩ := exists_clause_of_mem_superNames h hs
  obtain ⟨f, hf, hkf, hy⟩ := exists_clause_of_mem_superNames h hy
  suffices e = f by
    subst this
    exact Option.some.inj (he.symm.trans hf)
  rcases hs with hs | ⟨l, hl, hs, hls⟩ <;> rcases hy with hy | ⟨m, hm, hy, hmy⟩ <;> grind

/-- On a way up without circles there are as many classes as steps, the last one left out. -/
theorem Ascent.exists_classes (h : a.Hierarchy s) (hk : a.Ascent t s k) :
    ∃ ys : List NodeId, ys.length = k ∧ ys.Nodup ∧
      ∀ y ∈ ys, a.DerivedFrom s y ∧ ∃ name, name ∈ a.superNames y := by
  induction hk with
  | @last s hy =>
    obtain ⟨name, hname, -⟩ := hy
    exact ⟨[s], rfl, List.nodup_singleton s, by simpa using ⟨.refl, name, hname⟩⟩
  | @step s y k hy _ ih =>
    obtain ⟨ys, hlength, hnodup, hys⟩ := ih (h.of_namesSuper hy).1
    have hs : s ∉ ys := fun hmem => h.acyclic s .refl (.head' hy (hys s hmem).1)
    obtain ⟨name, hname, -⟩ := id hy
    refine ⟨s :: ys, congrArg (· + 1) hlength, List.nodup_cons.2 ⟨hs, hnodup⟩, fun z hz => ?_⟩
    rcases List.mem_cons.1 hz with rfl | hz
    · exact ⟨.refl, name, hname⟩
    · exact ⟨.head hy (hys z hz).1, (hys z hz).2⟩

/-- Classes that name others take three nodes each: one for the class, one for a clause and one for
a name in it. -/
theorem three_mul_length_le_size (h : a.Consistent) {ys : List NodeId} (hnodup : ys.Nodup)
    (hclass : ∀ y ∈ ys, (a.kind y).isClass = true)
    (hnames : ∀ y ∈ ys, ∃ name ∈ a.superNames y, (a.kind name).isName = true) :
    3 * ys.length ≤ a.size := by
  have hfacts : ∀ y, ∃ name clause, y ∈ ys → name ∈ a.superNames y ∧
      (a.kind name).isName = true ∧ a.parent clause = some y ∧
      (a.kind clause = .extends_ ∨ a.kind clause = .implements) := by
    intro y
    by_cases hy : y ∈ ys
    · obtain ⟨name, hname, hk⟩ := hnames y hy
      obtain ⟨clause, hparent, hclause, -⟩ := exists_clause_of_mem_superNames h hname
      exact ⟨name, clause, fun _ => ⟨hname, hk, hparent, hclause⟩⟩
    · exact ⟨y, y, fun h => absurd h hy⟩
  choose name clause hfacts using hfacts
  have hclauseInj : ∀ y ∈ ys, ∀ z ∈ ys, clause y = clause z → y = z := fun y hy z hz heq =>
    Option.some.inj ((hfacts y hy).2.2.1.symm.trans (heq ▸ (hfacts z hz).2.2.1))
  have hnameInj : ∀ y ∈ ys, ∀ z ∈ ys, name y = name z → y = z := fun y hy z hz heq =>
    eq_of_mem_superNames h (hfacts y hy).1 (heq ▸ (hfacts z hz).1)
  -- the three sorts of nodes differ in kind
  have hclauses : ∀ n ∈ ys.map clause, a.kind n = .extends_ ∨ a.kind n = .implements :=
    List.forall_mem_map.2 fun y hy => (hfacts y hy).2.2.2
  have hnames : ∀ n ∈ ys.map name, (a.kind n).isName = true :=
    List.forall_mem_map.2 fun y hy => (hfacts y hy).2.1
  have hall : (ys ++ (ys.map clause ++ ys.map name)).Nodup := by
    refine hnodup.append ((hnodup.map_on hclauseInj).append (hnodup.map_on hnameInj) ?_) ?_
    · intro n hn hn'
      rcases hclauses n hn with hk | hk <;> simpa [hk, Kind.isName] using hnames n hn'
    · intro n hn hn'
      have hk := hclass n hn
      rcases List.mem_append.1 hn' with hn' | hn'
      · rcases hclauses n hn' with hk' | hk' <;> simp [hk', Kind.isClass] at hk
      · have hk' := hnames n hn'
        revert hk hk'
        cases a.kind n <;> decide
  have hcard : (ys ++ (ys.map clause ++ ys.map name)).length ≤ a.size := by
    refine length_le_size hall fun n hn => lt_size_of_kind_ne fun hk => ?_
    simp only [List.mem_append] at hn
    rcases hn with hn | hn | hn
    · simpa [hk, Kind.isClass] using hclass n hn
    · simpa [hk] using hclauses n hn
    · simpa [hk, Kind.isName] using hnames n hn
  simp only [List.length_append, List.length_map] at hcard
  omega

/-- **Depths fit where ids do.**  Each class on a way up brings a clause and a name along, so that
32 bits for the nodes leave no room for a way whose depths need more. -/
theorem Hierarchy.depthFits_of_ids (h : a.Hierarchy s) (ha : a.Consistent)
    (hclass : ∀ x, a.DerivedFrom s x → (a.kind x).isClass = true)
    (hname : ∀ x, a.DerivedFrom s x → ∀ name ∈ a.superNames x, (a.kind name).isName = true)
    (hids : a.size ≤ UInt32.size) : a.DepthFits s t 2 := by
  intro x k _ hk
  obtain ⟨ys, rfl, hnodup, hys⟩ := hk.exists_classes h
  have hcard : 3 * ys.length ≤ a.size :=
    three_mul_length_le_size ha hnodup (fun y hy => hclass y (hys y hy).1) fun y hy =>
      (hys y hy).2.imp fun name hmem => ⟨hmem, hname y (hys y hy).1 name hmem⟩
  have : UInt32.size = 2 ^ 32 := rfl
  omega

/-! ## The longest prompt way -/

/-- How many steps the prompt ways from some classes have; and zero, for there may be none. -/
def ascents (a : Arena) (t : NodeId) (ys : List NodeId) : Set Nat :=
  {k | k = 0 ∨ ∃ y ∈ ys, a.PromptAscent t y k}

theorem mem_ascents {ys : List NodeId} :
    k ∈ a.ascents t ys ↔ k = 0 ∨ ∃ y ∈ ys, a.PromptAscent t y k :=
  Iff.rfl

theorem mem_ascents_singleton : k ∈ a.ascents t [s] ↔ k = 0 ∨ a.PromptAscent t s k := by
  simp only [mem_ascents, List.mem_singleton, exists_eq_left]

theorem ascents_nil : a.ascents t [] = {0} := by
  ext k
  simp [mem_ascents]

theorem ascents_cons (ys : List NodeId) :
    a.ascents t (y :: ys) = a.ascents t [y] ∪ a.ascents t ys := by
  ext k
  simp only [Set.mem_union, mem_ascents, List.mem_cons, exists_eq_or_imp]
  tauto

/-- From a class that names `t` every prompt way is a single step. -/
theorem isGreatest_ascents_of_namesSuper (h : a.NamesSuper s t) :
    IsGreatest (a.ascents t [s]) 1 := by
  refine ⟨mem_ascents_singleton.2 (.inr (.last h)), fun k hk => ?_⟩
  rcases mem_ascents_singleton.1 hk with rfl | hk
  · exact Nat.zero_le 1
  · cases hk with
    | last => exact le_rfl
    | step hs => exact absurd h hs

/-- The longest prompt way from a class that does not name `t` is one step longer than the longest
from the classes that it names, if there is one. -/
theorem isGreatest_ascents_of_not_namesSuper (hs : ¬ a.NamesSuper s t)
    (hm : IsGreatest (a.ascents t (a.superClasses s)) m) :
    IsGreatest (a.ascents t [s]) (if m = 0 then 0 else m + 1) := by
  have hle : ∀ y k, a.NamesSuper s y → a.PromptAscent t y k → k ≤ m := fun y k hy hk =>
    hm.2 (.inr ⟨y, mem_superClasses.2 hy, hk⟩)
  constructor
  · rw [mem_ascents_singleton]
    split
    · exact .inl rfl
    · next hne =>
      obtain ⟨y, hy, hk⟩ := hm.1.resolve_left hne
      exact .inr (.step hs (mem_superClasses.1 hy) hk)
  · intro k hk
    rcases mem_ascents_singleton.1 hk with rfl | hk
    · exact Nat.zero_le _
    · cases hk with
      | last h => exact absurd h hs
      | @step _ y k _ h hy =>
        -- the way has a step at least, so that the longest way is none of zero steps
        have hkm := hle y k h hy
        have hne := hy.ne_zero
        rw [if_neg (by omega)]
        exact Nat.succ_le_succ hkm

/-- What is greatest is the number of steps of the longest prompt way, if there is one. -/
theorem isGreatest_prompt (hm : IsGreatest (a.ascents t [s]) m) (h : TransGen a.NamesSuper s t) :
    IsGreatest {k | a.PromptAscent t s k} m := by
  obtain ⟨k, hk⟩ := transGen_iff_exists_prompt.1 h
  have hkm : k ≤ m := hm.2 (mem_ascents_singleton.2 (.inr hk))
  have hne := hk.ne_zero
  exact ⟨(mem_ascents_singleton.1 hm.1).resolve_left (by omega),
    fun k hk => hm.2 (mem_ascents_singleton.2 (.inr hk))⟩

/-- It is zero if and only if there is none. -/
theorem ne_zero_iff_transGen (hm : IsGreatest (a.ascents t [s]) m) :
    m ≠ 0 ↔ TransGen a.NamesSuper s t := by
  constructor
  · intro hne
    exact transGen_iff_exists_prompt.2
      ⟨m, (mem_ascents_singleton.1 hm.1).resolve_left hne⟩
  · exact fun h => (isGreatest_prompt hm h).1.ne_zero

end SymbolTree.Arena
