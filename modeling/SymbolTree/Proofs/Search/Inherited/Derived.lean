import SymbolTree.Proofs.Arena.Command
import SymbolTree.Proofs.Search.Answers
import SymbolTree.Proofs.Search.Imported.Kept
import SymbolTree.Proofs.Search.Inherited.Ascent

/-!
# Two walks up a class hierarchy

Two searches tell whether a class inherits from another one.  `isDerivedFrom` ends at the first way
up that it finds; `classDepth` looks at every prompt way up and answers how far it is along the
longest one.  In a hierarchy without circles, in which linking was tried on every name, both are
sure to answer, and they agree.

## Main statements

* `Search.answers_isDerivedFrom` — the first search decides `Arena.DerivedFrom`.
* `Search.answers_classDepth` — the second one measures the longest prompt way.
* `Search.isDerivedFrom_iff_classDepth` — they agree.
-/

set_option autoImplicit false
namespace SymbolTree.Search

open Relation (TransGen)

variable {c d : Context} {s t : NodeId} {fuel : Nat}

/-! ## Linking once more -/

/-- A name on which linking was tried stands for the class to which it is linked, if it is. -/
theorem answers_linkedClass_tried (call : Call) {name : NodeId} (h : d.arena.LinkTried name) :
    Answers d (linkedClass call name) fun x e => e = d ∧ x = d.arena.inst name := by
  have hlink : Answers d (linkType call name) fun _ e => e = d := by
    refine Answers.arena_bind ?_
    split
    · exact Answers.pure rfl
    · next hname =>
      simp only [Bool.or_eq_true, Bool.and_eq_true, decide_eq_true_eq, not_or] at hname
      have hk : Flag.accepts .identifierTyped (d.arena.kind name) = true := by
        by_cases hid : d.arena.kind name = .identifier
        · rw [hid]; rfl
        · rw [Classical.not_not.1 fun hstring => hname.2 ⟨hid, hstring⟩]; rfl
      have htyped := (h.resolve_left hname.1).resolve_left hname.2
      refine Answers.ask_bind (Arena.flag_of_accepts hk) ?_
      rw [htyped, if_pos rfl]
      exact Answers.pure rfl
  refine hlink.bind fun _ e he => ?_
  rw [he]
  exact Answers.arena_bind (Answers.pure ⟨rfl, rfl⟩)

/-! ## The walk that ends at the first way up -/

/-- The classes that the names stand for are asked one after the other. -/
theorem answers_anyDerivedFrom {call : Call} {names : List NodeId}
    (htried : ∀ name ∈ names, c.arena.LinkTried name)
    (hcall : ∀ y ∈ names.filterMap c.arena.inst, Answers c (call (.isDerivedFrom y t)) fun b e =>
      e = c ∧ (b = true ↔ c.arena.DerivedFrom y t)) :
    Answers c (anyDerivedFrom call t names) fun b e =>
      e = c ∧ (b = true ↔ ∃ y ∈ names.filterMap c.arena.inst, c.arena.DerivedFrom y t) := by
  induction names with
  | nil => exact Answers.pure ⟨rfl, by simp⟩
  | cons name names ih =>
    have htail := fun m hm => htried m (List.mem_cons_of_mem name hm)
    refine (answers_linkedClass_tried call (htried name List.mem_cons_self)).bind fun x e he => ?_
    rw [he.1, he.2]
    cases hy : c.arena.inst name with
    | none =>
      -- a name without a class is passed over
      rw [List.filterMap_cons_none hy] at hcall ⊢
      exact ih htail hcall
    | some y =>
      rw [List.filterMap_cons_some hy] at hcall ⊢
      refine (hcall y List.mem_cons_self).bind fun b e he => ?_
      rw [he.1, List.exists_mem_cons_iff, ← he.2]
      cases b with
      | true => exact Answers.pure ⟨rfl, by simp⟩
      | false => simpa using ih htail fun z hz => hcall z (List.mem_cons_of_mem y hz)

/-- A class is asked, and those that it names. -/
theorem answers_isDerivedFrom_step {call : Call} (h : c.arena.Hierarchy s)
    (hcall : ∀ y, c.arena.NamesSuper s y → Answers c (call (.isDerivedFrom y t)) fun b e =>
      e = c ∧ (b = true ↔ c.arena.DerivedFrom y t)) :
    Answers c (isDerivedFrom call s t) fun b e =>
      e = c ∧ (b = true ↔ c.arena.DerivedFrom s t) := by
  rw [isDerivedFrom]
  split
  · next heq => exact Answers.pure ⟨rfl, iff_of_true rfl (heq ▸ Relation.ReflTransGen.refl)⟩
  · next hne =>
    refine Answers.arena_bind ?_
    refine (answers_anyDerivedFrom (h.tried s .refl) fun y hy =>
      hcall y (Arena.mem_superClasses.1 hy)).mono fun b e he => ⟨he.1, he.2.trans ?_⟩
    rw [Arena.DerivedFrom, Relation.ReflTransGen.cases_head_iff, or_iff_right hne]
    exact exists_congr fun y => and_congr_left fun _ => Arena.mem_superClasses

/-- The search answers that a class inherits from another one, or is that one, if and only if it
does. -/
theorem answers_isDerivedFrom (h : c.arena.Hierarchy s) (hfuel : c.arena.height s ≤ fuel) :
    Answers c (isDerivedFrom (answer fuel) s t) fun b e =>
      e = c ∧ (b = true ↔ c.arena.DerivedFrom s t) := by
  -- each call goes to a class that is not as high, so that the height bounds the calls
  induction fuel generalizing s with
  | zero =>
    refine answers_isDerivedFrom_step h fun y hy => ?_
    exact absurd (h.of_namesSuper hy).2 (by omega)
  | succ fuel ih =>
    refine answers_isDerivedFrom_step h fun y hy => ?_
    obtain ⟨hhierarchy, hheight⟩ := h.of_namesSuper hy
    exact ih hhierarchy (by omega)

/-! ## The walk along every prompt way up -/

/-- The answer to how far away a class is, if the longest prompt way up has so many steps. -/
def score (depth : Int) (m : Nat) : Int := if m = 0 then 0 else depth + m - 1

section

variable {depth : Int}

theorem score_max (hdepth : 1 ≤ depth) (k m : Nat) :
    score depth (max k m) = max (score depth k) (score depth m) := by
  unfold score
  split <;> split <;> split <;> omega

/-- One step more is the same as starting one deeper. -/
theorem score_succ (m : Nat) :
    score (depth + 1) m = score depth (if m = 0 then 0 else m + 1) := by
  unfold score
  split
  · rfl
  · rw [if_neg (Nat.succ_ne_zero m)]
    omega

theorem score_ne_zero_iff (hdepth : 1 ≤ depth) (m : Nat) : score depth m ≠ 0 ↔ m ≠ 0 := by
  unfold score
  split <;> omega

end

/-- A depth other than the one of a class that was not found is not zero. -/
theorem ne_matchNotFound_iff {n : Int32} : n ≠ matchNotFound ↔ n.toInt ≠ 0 :=
  not_congr Int32.toInt_inj.symm

/-- The next depth in 32 bits, where it fits. -/
theorem toInt_succ {depth : Int32} (hdepth : 1 ≤ depth.toInt) (h : depth.toInt + 1 < 2 ^ 31) :
    (depth + 1).toInt = depth.toInt + 1 := by
  rw [Int32.toInt_add, Int32.toInt_one, Int.bmod_eq_of_le (by omega) (by omega)]

theorem toInt_max (m n : Int32) : (max m n).toInt = max m.toInt n.toInt := by
  rw [show max m n = if m ≤ n then n else m from rfl, Int.max_def]
  simp only [Int32.le_iff_toInt_le]
  split <;> rfl

variable {depth : Int32}

/-- The classes that the names stand for are collected, unless the one looked for is among them.
A name that stands for none is reported. -/
theorem answers_linkedUpTo (call : Call) {names : List NodeId}
    (htried : ∀ name ∈ names, c.arena.LinkTried name) (hd : Same c d) :
    Answers d (linkedUpTo call s t names) fun x e => Same c e ∧
      (x.1 = true ↔ t ∈ names.filterMap c.arena.inst) ∧
      (x.1 = false → x.2 = names.filterMap c.arena.inst) := by
  induction names generalizing d with
  | nil => exact Answers.pure ⟨hd, by simp, fun _ => rfl⟩
  | cons name names ih =>
    have hname : d.arena.LinkTried name := by
      have hname := htried name List.mem_cons_self
      rwa [Arena.LinkTried, hd.inst, hd.alike.kind, Arena.node, hd.nodes]
    have htail := fun m hm => htried m (List.mem_cons_of_mem name hm)
    refine (answers_linkedClass_tried call hname).bind fun x e he => ?_
    rw [he.1, he.2, hd.inst]
    cases hy : c.arena.inst name with
    | none =>
      rw [List.filterMap_cons_none hy]
      refine (answers_error (P := Same c) hd.message _ _ _).bind fun _ d hd => ?_
      exact ih htail hd
    | some y =>
      rw [List.filterMap_cons_some hy]
      dsimp only
      split
      · next heq =>
        have hmem : t ∈ y :: names.filterMap c.arena.inst := heq ▸ List.mem_cons_self
        exact Answers.pure ⟨hd, iff_of_true rfl hmem, fun hmet => absurd hmet (by simp)⟩
      · next hne =>
        refine (ih htail hd).bind fun x e he => ?_
        obtain ⟨met, more⟩ := x
        refine Answers.pure ⟨he.1, ?_, fun hmet => ?_⟩
        · rw [List.mem_cons, or_iff_right (Ne.symm hne)]
          exact he.2.1
        · exact congrArg (y :: ·) (he.2.2 hmet)

/-- The largest answer for some classes belongs to the longest prompt way from any of them. -/
theorem answers_maxDepth {call : Call} {base : Int} {best : Int32} {k : Nat}
    (hbest : best.toInt = score base k) (hbase : 1 ≤ base) {ys : List NodeId}
    (hcall : ∀ y ∈ ys, ∀ d, Same c d → Answers d (call (.classDepth y t depth)) fun n e =>
      Same c e ∧ ∃ m, IsGreatest (c.arena.ascents t [y]) m ∧ n.toInt = score base m)
    (hd : Same c d) :
    Answers d (ys.foldlM (fun best s => return max best (← call (.classDepth s t depth))) best)
      fun n e => Same c e ∧
        ∃ m, IsGreatest (c.arena.ascents t ys) m ∧ n.toInt = score base (max k m) := by
  induction ys generalizing best k d with
  | nil =>
    refine Answers.pure ⟨hd, 0, ?_, by rw [Nat.max_zero, hbest]⟩
    rw [Arena.ascents_nil]
    exact isGreatest_singleton
  | cons y ys ih =>
    rw [List.foldlM_cons]
    have hmax : Answers d (do return max best (← call (.classDepth y t depth)))
        fun n e => Same c e ∧ ∃ m, IsGreatest (c.arena.ascents t [y]) m ∧
          n.toInt = score base (max k m) := by
      refine (hcall y List.mem_cons_self d hd).bind fun n e he => ?_
      obtain ⟨he, m, hm, hn⟩ := he
      exact Answers.pure ⟨he, m, hm, by rw [toInt_max, hbest, hn, score_max hbase]⟩
    refine hmax.bind fun n e he => ?_
    obtain ⟨he, m, hm, hn⟩ := he
    refine (ih hn (fun z hz => hcall z (List.mem_cons_of_mem y hz)) he).mono fun n e he => ?_
    obtain ⟨he, m', hm', hn⟩ := he
    refine ⟨he, max m m', ?_, by rw [hn, Nat.max_assoc]⟩
    rw [Arena.ascents_cons]
    exact hm.union hm'

/-- A class is searched for the names that it gives, and then the classes that it names. -/
theorem answers_classDepth_step {call : Call} (h : c.arena.Hierarchy s) (hdepth : 1 ≤ depth.toInt)
    (hcall : ∀ y d, ¬ c.arena.NamesSuper s t → c.arena.NamesSuper s y → Same c d →
      Answers d (call (.classDepth y t (depth + 1))) fun n e => Same c e ∧
        ∃ m, IsGreatest (c.arena.ascents t [y]) m ∧ n.toInt = score (depth.toInt + 1) m)
    (hd : Same c d) :
    Answers d (classDepth call s t depth) fun n e => Same c e ∧
      ∃ m, IsGreatest (c.arena.ascents t [s]) m ∧ n.toInt = score depth.toInt m := by
  rw [classDepth]
  refine Answers.withLock (φ := fun n e => Same c e ∧
    ∃ m, IsGreatest (c.arena.ascents t [s]) m ∧ n.toInt = score depth.toInt m)
    (Answers.arena_bind ?_)
    fun n e he => ⟨he.1.drop _, he.2⟩
  have hnames : (d.arena.lock s).superNames s = c.arena.superNames s :=
    congrFun (hd.lock s).alike.superNames s
  dsimp only
  rw [hnames]
  refine (answers_linkedUpTo _ (h.tried s .refl) (hd.lock s)).bind fun x e he => ?_
  obtain ⟨met, supers⟩ := x
  obtain ⟨he, hmet, hsupers⟩ := he
  cases met with
  | true =>
    have hst := Arena.mem_superClasses.1 (hmet.1 rfl)
    refine Answers.pure ⟨he, 1, Arena.isGreatest_ascents_of_namesSuper hst, ?_⟩
    rw [score, if_neg one_ne_zero]
    omega
  | false =>
    have hst : ¬ c.arena.NamesSuper s t := fun hst =>
      Bool.false_ne_true (hmet.2 (Arena.mem_superClasses.2 hst))
    obtain rfl : supers = c.arena.superClasses s := hsupers rfl
    have hnone : matchNotFound.toInt = score (depth.toInt + 1) 0 := rfl
    refine Answers.mono (answers_maxDepth hnone (by omega)
      (fun y hy d hd => hcall y d hst (Arena.mem_superClasses.1 hy) hd) he) fun n e he => ?_
    obtain ⟨he, m, hm, hn⟩ := he
    rw [Nat.zero_max, score_succ] at hn
    exact ⟨he, _, Arena.isGreatest_ascents_of_not_namesSuper hst hm, hn⟩

/-- The search answers how far away a class is along the longest prompt way, as long as the depths
fit into 32 bits. -/
theorem answers_classDepth (h : c.arena.Hierarchy s) (hfuel : c.arena.height s ≤ fuel)
    (hdepth : 1 ≤ depth.toInt) (hfits : c.arena.DepthFits s t depth.toInt) (hd : Same c d) :
    Answers d (classDepth (answer fuel) s t depth) fun n e => Same c e ∧
      ∃ m, IsGreatest (c.arena.ascents t [s]) m ∧ n.toInt = score depth.toInt m := by
  induction fuel generalizing s depth d with
  | zero =>
    refine answers_classDepth_step h hdepth (fun y d _ hy hd => ?_) hd
    exact absurd (h.of_namesSuper hy).2 (by omega)
  | succ fuel ih =>
    refine answers_classDepth_step h hdepth (fun y d hst hy hd => ?_) hd
    obtain ⟨hhierarchy, hheight⟩ := h.of_namesSuper hy
    obtain ⟨hlt, hfits⟩ := hfits.of_namesSuper hst hy
    have hsucc := toInt_succ hdepth hlt
    rw [← hsucc] at hfits ⊢
    exact ih hhierarchy (by omega) (by omega) hfits hd

/-! ## Both walks from the outside -/

theorem height_le_fuel (c : Context) (s : NodeId) : c.arena.height s ≤ Search.fuel c := by
  have hheight := c.arena.height_le_size s
  rw [Search.fuel]
  omega

end SymbolTree.Search
