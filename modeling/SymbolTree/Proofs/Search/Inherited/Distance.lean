import SymbolTree.Proofs.Search.Inherited.Derived

/-!
# How far away a class is

The depth of a class among those from which another one inherits is told along the longest prompt
way up.  Where a class is reached by ways of different lengths, this is not how many steps away it
is: a class that is two steps away by one way counts as further than a class three steps away, if
another way to it takes four.

## Main statement

* `Search.classDepth_longest` — the depth, the shortest way, and when they agree.
-/

set_option autoImplicit false
namespace SymbolTree.Search

open Relation (TransGen)

/-- **The longest prompt way counts.**  In a hierarchy without circles, in which every name is
linked, the depth of a class is told by the longest of the ways up on which no class but the last
names it.  That is how many steps away the class is if and only if all of these ways are equally
long, and more otherwise.  The depths have to fit into 32 bits. -/
theorem classDepth_longest (c : Context) (s t : NodeId) (depth : Int32)
    (h : c.arena.LinkedHierarchy s) (hst : TransGen c.arena.NamesSuper s t) (hdepth : 1 ≤ depth)
    (hfits : c.arena.DepthFits s t depth.toInt) :
    ∃ (k m : Nat) (n : Int32), IsLeast {k | c.arena.Ascent t s k} k ∧
      IsGreatest {m | c.arena.PromptAscent t s m} m ∧
      ((run (classDepth · s t depth)).exec c).1 = .ok n ∧ n.toInt = depth.toInt + m - 1 ∧
      k ≤ m ∧ (m = k ↔ ∀ j, c.arena.PromptAscent t s j → j = k) := by
  obtain ⟨n, e, hn, -, m, hm, hscore⟩ := Answers.run (s := (classDepth · s t depth))
    (answers_classDepth h.hierarchy (height_le_fuel c s) (Int32.le_iff_toInt_le.1 hdepth) hfits
      (.refl c))
  have hgreatest := Arena.isGreatest_prompt hm hst
  obtain ⟨k, hk⟩ := Arena.exists_isLeast_ascent (Arena.exists_ascent hst)
  have hprompt := Arena.prompt_of_isLeast hk
  rw [score, if_neg hgreatest.1.ne_zero] at hscore
  refine ⟨k, m, n, hk, hgreatest, congrArg Prod.fst hn, hscore, hgreatest.2 hprompt, ?_,
    fun hall => ?_⟩
  · rintro rfl j hj
    exact le_antisymm (hgreatest.2 hj) (hk.2 hj.ascent)
  · exact hall m hgreatest.1

/-! ### A class that is reached by two ways -/

/-- The classes `A` and `X` extend `T`, and `B` extends `X`; `C` implements `A` and `B`. -/
def diamondHistory : List Command :=
  [.create .program {}, .create .directiveList {}, .create .class_ {},
   .create .class_ {}, .create .extends_ {}, .create .identifier {},
   .create .class_ {}, .create .extends_ {}, .create .identifier {},
   .create .class_ {}, .create .extends_ {}, .create .identifier {},
   .create .class_ {}, .create .implements {}, .create .list {}, .create .identifier {},
   .create .identifier {},
   .setText ⟨2⟩ "T", .setText ⟨3⟩ "A", .setText ⟨5⟩ "T", .setText ⟨6⟩ "X", .setText ⟨8⟩ "T",
   .setText ⟨9⟩ "B", .setText ⟨11⟩ "X", .setText ⟨12⟩ "C", .setText ⟨15⟩ "A", .setText ⟨16⟩ "B",
   .appendChild ⟨0⟩ ⟨1⟩, .appendChild ⟨1⟩ ⟨2⟩,
   .appendChild ⟨1⟩ ⟨3⟩, .appendChild ⟨3⟩ ⟨4⟩, .appendChild ⟨4⟩ ⟨5⟩,
   .appendChild ⟨1⟩ ⟨6⟩, .appendChild ⟨6⟩ ⟨7⟩, .appendChild ⟨7⟩ ⟨8⟩,
   .appendChild ⟨1⟩ ⟨9⟩, .appendChild ⟨9⟩ ⟨10⟩, .appendChild ⟨10⟩ ⟨11⟩,
   .appendChild ⟨1⟩ ⟨12⟩, .appendChild ⟨12⟩ ⟨13⟩, .appendChild ⟨13⟩ ⟨14⟩, .appendChild ⟨14⟩ ⟨15⟩,
   .appendChild ⟨14⟩ ⟨16⟩,
   .setLink ⟨5⟩ .inst (some ⟨2⟩), .setLink ⟨8⟩ .inst (some ⟨2⟩), .setLink ⟨11⟩ .inst (some ⟨6⟩),
   .setLink ⟨15⟩ .inst (some ⟨3⟩), .setLink ⟨16⟩ .inst (some ⟨9⟩)]

/-- The context of that program. -/
def diamondContext : Context := { arena := after diamondHistory, parser := fun _ => .rejected }

/-- Every name is linked to a class that was created before the one that names it.  The search for
`T` from `C` answers three. -/
theorem names_diamondContext :
    (∀ i < diamondContext.arena.size, ∀ name ∈ diamondContext.arena.superNames ⟨i⟩,
      (diamondContext.arena.inst name).isSome = true ∧
        ∀ y ∈ diamondContext.arena.inst name, y.index < i) ∧
    diamondContext.arena.superClasses ⟨3⟩ = [⟨2⟩] ∧
    diamondContext.arena.superClasses ⟨12⟩ = [⟨3⟩, ⟨9⟩] ∧
    ((run (classDepth · ⟨12⟩ ⟨2⟩ 1)).exec diamondContext).1.toOption = some 3 ∧
    diamondContext.arena.size = 17 := by
  decide +kernel

theorem linkedHierarchy_diamondContext (s : NodeId) : diamondContext.arena.LinkedHierarchy s :=
  Arena.linkedHierarchy_of_lt names_diamondContext.1 s

/-- The class `C` names `A`, which names `T`. -/
theorem namesSuper_diamondContext : diamondContext.arena.NamesSuper ⟨12⟩ ⟨3⟩ ∧
    diamondContext.arena.NamesSuper ⟨3⟩ ⟨2⟩ := by
  obtain ⟨-, hA, hC, -⟩ := names_diamondContext
  rw [← Arena.mem_superClasses, ← Arena.mem_superClasses, hA, hC]
  exact ⟨List.mem_cons_self, List.mem_cons_self⟩

theorem derivedFrom_diamondContext : TransGen diamondContext.arena.NamesSuper ⟨12⟩ ⟨2⟩ :=
  .head namesSuper_diamondContext.1 (.single namesSuper_diamondContext.2)

/-- The class `T` is two steps away from `C`. -/
theorem isLeast_diamondContext :
    IsLeast {k | diamondContext.arena.Ascent ⟨2⟩ ⟨12⟩ k} 2 := by
  constructor
  · exact Arena.Ascent.step namesSuper_diamondContext.1 (.last namesSuper_diamondContext.2)
  · intro k hk
    cases hk with
    | last h =>
      rw [← Arena.mem_superClasses, names_diamondContext.2.2.1] at h
      exact absurd h (by decide)
    | step _ hy =>
      obtain ⟨j, hj, hprompt⟩ := hy.exists_prompt
      have hne := hprompt.ne_zero
      omega

theorem run_diamondContext :
    ((run (classDepth · ⟨12⟩ ⟨2⟩ 1)).exec diamondContext).1 = .ok 3 :=
  eq_ok_of_toOption names_diamondContext.2.2.2.1

theorem depthFits_diamondContext :
    diamondContext.arena.DepthFits ⟨12⟩ ⟨2⟩ (1 : Int32).toInt := by
  obtain ⟨-, -, -, -, hsize⟩ := names_diamondContext
  exact (linkedHierarchy_diamondContext _).hierarchy.depthFits (hsize ▸ by decide)

/-- The longest prompt way from `C` to `T` goes through `B` and `X` and has three steps. -/
theorem classDepth_longest_diamond : diamondContext.arena.LinkedHierarchy ⟨12⟩ ∧
    TransGen diamondContext.arena.NamesSuper ⟨12⟩ ⟨2⟩ ∧
    diamondContext.arena.DepthFits ⟨12⟩ ⟨2⟩ (1 : Int32).toInt ∧
    IsGreatest {m | diamondContext.arena.PromptAscent ⟨2⟩ ⟨12⟩ m} 3 ∧
    ((run (classDepth · ⟨12⟩ ⟨2⟩ 1)).exec diamondContext).1 = .ok 3 := by
  obtain ⟨k, m, n, -, hm, hrun, hn, -⟩ := classDepth_longest diamondContext ⟨12⟩ ⟨2⟩ 1
    (linkedHierarchy_diamondContext _) derivedFrom_diamondContext (Int32.le_refl 1)
    depthFits_diamondContext
  have hdepth : n = 3 := Except.ok.inj (hrun.symm.trans run_diamondContext)
  rw [hdepth] at hn
  have hm3 : (3 : Int) = 1 + m - 1 := hn
  obtain rfl : m = 3 := by omega
  exact ⟨linkedHierarchy_diamondContext _, derivedFrom_diamondContext, depthFits_diamondContext, hm,
    run_diamondContext⟩

/-- The depth of a class does not always tell how many steps away it is, even where the depths fit
into 32 bits. -/
theorem classDepth_misses_shortest : ¬ ∀ (c : Context) (s t : NodeId) (depth : Int32) (k : Nat),
    c.arena.LinkedHierarchy s → TransGen c.arena.NamesSuper s t → 1 ≤ depth →
    c.arena.DepthFits s t depth.toInt → IsLeast {k | c.arena.Ascent t s k} k →
    ∃ n, ((run (classDepth · s t depth)).exec c).1 = .ok n ∧ n.toInt = depth.toInt + k - 1 := by
  intro h
  obtain ⟨n, hrun, hn⟩ := h diamondContext ⟨12⟩ ⟨2⟩ 1 2 (linkedHierarchy_diamondContext _)
    derivedFrom_diamondContext (Int32.le_refl 1) depthFits_diamondContext isLeast_diamondContext
  have hdepth : n = 3 := Except.ok.inj (hrun.symm.trans run_diamondContext)
  rw [hdepth] at hn
  exact absurd hn (by decide)

end SymbolTree.Search
