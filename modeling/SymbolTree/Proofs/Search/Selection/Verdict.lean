import Mathlib.Data.List.Perm.Basic
import Mathlib.Data.List.Perm.Subperm
import Mathlib.Tactic.Common

/-!
# Choosing one of several

A choice goes through the candidates in some order and keeps the best one so far.  When two of them
cannot be told apart this is noted, and the note is never taken back, not even by a later candidate
that is better than both.  So the outcome may depend on the order.

This file says when it does.  It speaks of any candidates and of any way `beats` to compare two of
them; the comparison of two tables of depths is `outdoes`.

## Main statements

* `Selection.best_of_verdict` — what is chosen without a note is better than all the others.
* `Selection.outcome_stable_iff` — the outcome is the same in every order unless there is a best
  candidate and two others that cannot be told apart.
-/

set_option autoImplicit false
namespace SymbolTree.Selection

/-! ## Weighing candidates -/

section

variable {α : Type} (beats : α → α → Bool)

/-- One more candidate is weighed against the best one so far.  The flag notes that two candidates
could not be told apart. -/
def weigh : Option α × Bool → α → Option α × Bool
  | (none, noted), y => (some y, noted)
  | (some x, noted), y =>
      if beats y x then (some y, noted) else if beats x y then (some x, noted) else (some x, true)

/-- The last of the best candidates, and whether two could not be told apart on the way. -/
def verdict (l : List α) : Option α × Bool := l.foldl (weigh beats) (none, false)

/-- The candidate that is chosen: none if two could not be told apart. -/
def outcome (r : Option α × Bool) : Option α := if r.2 then none else r.1

/-- The candidate is better than all the others. -/
structure Best (l : List α) (m : α) : Prop where
  /-- It is one of the candidates. -/
  mem : m ∈ l
  /-- It is better than the others. -/
  beats : ∀ x ∈ l, x ≠ m → beats m x = true

/-- Any two candidates can be told apart. -/
def Decided (l : List α) : Prop :=
  ∀ x ∈ l, ∀ y ∈ l, x ≠ y → beats x y = true ∨ beats y x = true

variable {beats} {l l' : List α} {m : α}

theorem Best.perm (h : Best beats l m) (hl : l'.Perm l) : Best beats l' m :=
  ⟨hl.mem_iff.2 h.mem, fun x hx => h.beats x (hl.mem_iff.1 hx)⟩

theorem Decided.perm (h : Decided beats l) (hl : l'.Perm l) : Decided beats l' :=
  fun x hx y hy => h x (hl.mem_iff.1 hx) y (hl.mem_iff.1 hy)

/-- A note is never taken back. -/
theorem foldl_weigh_noted (beats : α → α → Bool) (b : Option α) (l : List α) :
    (l.foldl (weigh beats) (b, true)).2 = true := by
  induction l generalizing b with
  | nil => rfl
  | cons y l ih =>
    rw [List.foldl_cons]
    cases b with
    | none => exact ih (some y)
    | some x =>
      rw [weigh]
      split
      · exact ih (some y)
      · split <;> exact ih (some x)

/-- What is kept is one of the candidates. -/
theorem exists_foldl_weigh (x : α) (noted : Bool) (l : List α) :
    ∃ m ∈ x :: l, (l.foldl (weigh beats) (some x, noted)).1 = some m := by
  induction l generalizing x noted with
  | nil => exact ⟨x, List.mem_cons_self, rfl⟩
  | cons y l ih =>
    have hkeep : ∀ noted, ∃ m ∈ x :: y :: l,
        (l.foldl (weigh beats) (some x, noted)).1 = some m := by
      intro noted
      obtain ⟨m, hm, hfold⟩ := ih x noted
      exact ⟨m, (List.sublist_cons_self y l).cons_cons x |>.subset hm, hfold⟩
    rw [List.foldl_cons, weigh]
    split
    · obtain ⟨m, hm, hfold⟩ := ih y noted
      exact ⟨m, List.mem_cons_of_mem x hm, hfold⟩
    · split
      · exact hkeep noted
      · exact hkeep true

theorem exists_verdict (beats : α → α → Bool) (hl : l ≠ []) :
    ∃ m ∈ l, (verdict beats l).1 = some m := by
  obtain ⟨x, l, rfl⟩ := List.exists_cons_of_ne_nil hl
  exact exists_foldl_weigh x false l

theorem mem_of_mem_outcome (hm : m ∈ outcome (verdict beats l)) : m ∈ l := by
  rw [outcome] at hm
  split at hm
  · cases hm
  · cases l with
    | nil => cases hm
    | cons x l =>
      obtain ⟨m', hm', hv⟩ := exists_verdict beats (List.cons_ne_nil x l)
      rw [hv] at hm
      cases hm
      exact hm'

/-- Two candidates at the front that cannot be told apart leave their note. -/
theorem verdict_of_undecided {x y : α} (hxy : beats x y = false) (hyx : beats y x = false) :
    (verdict beats (x :: y :: l)).2 = true := by
  rw [verdict, List.foldl_cons, List.foldl_cons, weigh, weigh, hyx, hxy]
  exact foldl_weigh_noted beats (some x) l

section

variable (hasymm : ∀ x y, beats x y = true → beats y x = false)
include hasymm

/-- A candidate that is better than all that follow is kept. -/
theorem foldl_weigh_of_beats (h : ∀ x ∈ l, beats m x = true) :
    l.foldl (weigh beats) (some m, false) = (some m, false) := by
  induction l with
  | nil => rfl
  | cons y l ih =>
    have hy := h y List.mem_cons_self
    rw [List.foldl_cons, weigh, hasymm m y hy, hy]
    exact ih fun x hx => h x (List.mem_cons_of_mem y hx)

/-- Where any two candidates can be told apart, the best one is chosen. -/
theorem foldl_weigh_of_decided {x : α} (hnd : (x :: l).Nodup) (hm : Best beats (x :: l) m)
    (hd : Decided beats (x :: l)) : l.foldl (weigh beats) (some x, false) = (some m, false) := by
  induction l generalizing x with
  | nil => rw [List.mem_singleton.1 hm.mem]; rfl
  | cons y l ih =>
    -- the worse of the first two drops out, and it is not the best one
    have hne : x ≠ y := List.ne_of_not_mem_cons (List.nodup_cons.1 hnd).1
    have hdrop : ∀ {u v : α}, (v :: u :: l).Perm (x :: y :: l) → beats u v = true →
        l.foldl (weigh beats) (some u, false) = (some m, false) := by
      intro u v hperm huv
      have hsub := List.sublist_cons_self v (u :: l)
      have hvm : v ≠ m := by
        rintro rfl
        have hvu : beats v u = true := by
          refine hm.beats u (hperm.mem_iff.1 (by simp)) fun he => ?_
          rw [he, hasymm v v (he ▸ huv)] at huv
          cases huv
        rw [hasymm v u hvu] at huv
        cases huv
      have hmem : m ∈ u :: l := (List.mem_cons.1 (hperm.mem_iff.2 hm.mem)).resolve_left hvm.symm
      refine ih (hsub.nodup (hperm.nodup_iff.2 hnd)) ⟨hmem, fun z hz => ?_⟩ fun z hz w hw => ?_
      · exact hm.beats z (hperm.mem_iff.1 (hsub.subset hz))
      · exact hd z (hperm.mem_iff.1 (hsub.subset hz)) w (hperm.mem_iff.1 (hsub.subset hw))
    rw [List.foldl_cons, weigh]
    split
    · next hyx => exact hdrop (.refl _) hyx
    · next hyx =>
      have hxy := (hd x (by simp) y (by simp) hne).resolve_right hyx
      rw [if_pos hxy]
      exact hdrop (.swap x y l) hxy

end

/-- **What is chosen without a note is better than all the others.** -/
theorem best_of_foldl_weigh {seen : List α} {x : α}
    (htrans : ∀ u ∈ seen ++ l, ∀ v ∈ seen ++ l, ∀ w ∈ seen ++ l,
      beats u v = true → beats v w = true → beats u w = true)
    (hx : Best beats seen x) (h : l.foldl (weigh beats) (some x, false) = (some m, false)) :
    Best beats (seen ++ l) m := by
  induction l generalizing seen x with
  | nil =>
    obtain rfl : x = m := by simpa using h
    rwa [List.append_nil]
  | cons y l ih =>
    rw [List.append_cons] at htrans ⊢
    rw [List.foldl_cons, weigh] at h
    have hin : ∀ z ∈ seen, z ∈ (seen ++ [y]) ++ l := fun z hz => by simp [hz]
    split at h
    · next hyx =>
      -- the new one is better than the old one, and so than all before
      refine ih htrans ⟨by simp, fun z hz hzy => ?_⟩ h
      rcases List.mem_append.1 hz with hz | hz
      · by_cases hzx : z = x
        · exact hzx ▸ hyx
        · exact htrans y (by simp) x (hin x hx.mem) z (hin z hz) hyx (hx.beats z hz hzx)
      · exact absurd (List.mem_singleton.1 hz) hzy
    · split at h
      · next hxy =>
        refine ih htrans ⟨List.mem_append_left _ hx.mem, fun z hz hzx => ?_⟩ h
        rcases List.mem_append.1 hz with hz | hz
        · exact hx.beats z hz hzx
        · rwa [List.mem_singleton.1 hz]
      · have hnoted := foldl_weigh_noted beats (some x) l
        rw [h] at hnoted
        cases hnoted

theorem best_of_verdict (htrans : ∀ u ∈ l, ∀ v ∈ l, ∀ w ∈ l,
      beats u v = true → beats v w = true → beats u w = true)
    (h : verdict beats l = (some m, false)) : Best beats l m := by
  cases l with
  | nil => cases h
  | cons x l =>
    have hfirst : Best beats [x] x :=
      ⟨List.mem_singleton_self x, fun z hz hzx => absurd (List.mem_singleton.1 hz) hzx⟩
    exact best_of_foldl_weigh htrans hfirst h

/-- **When the outcome does not depend on the order.**  It does only if one candidate is better than
all the others and two of these cannot be told apart: when they come first they leave a note that
the best one does not take back. -/
theorem outcome_stable_iff [DecidableEq α] (beats : α → α → Bool)
    (hasymm : ∀ x y, beats x y = true → beats y x = false)
    (htrans : ∀ u ∈ l, ∀ v ∈ l, ∀ w ∈ l,
      beats u v = true → beats v w = true → beats u w = true) (hnd : l.Nodup) :
    (∃ r, ∀ l', l'.Perm l → outcome (verdict beats l') = r) ↔
      ∀ m, Best beats l m → Decided beats l := by
  constructor
  · rintro ⟨r, hr⟩ m hm x hx y hy hxy
    by_contra hundecided
    obtain ⟨hxy', hyx'⟩ : beats x y = false ∧ beats y x = false := by simpa using hundecided
    have hfirst : outcome (verdict beats (m :: l.erase m)) = some m := by
      rw [verdict, List.foldl_cons, weigh, foldl_weigh_of_beats hasymm fun z hz => ?_]
      · rfl
      · obtain ⟨hzm, hz⟩ := (hnd.mem_erase_iff).1 hz
        exact hm.beats z hz hzm
    have hlast : outcome (verdict beats (x :: y :: (l.erase x).erase y)) = none := by
      rw [outcome, verdict_of_undecided hxy' hyx']
      rfl
    have hy' : y ∈ l.erase x := (hnd.mem_erase_iff).2 ⟨hxy.symm, hy⟩
    have hperm : (x :: y :: (l.erase x).erase y).Perm l :=
      ((List.perm_cons_erase hy').cons x).symm.trans (List.perm_cons_erase hx).symm
    rw [hr _ hperm] at hlast
    rw [hr _ (List.perm_cons_erase hm.mem).symm, hlast] at hfirst
    cases hfirst
  · intro h
    by_cases hbest : ∃ m, Best beats l m
    · obtain ⟨m, hm⟩ := hbest
      refine ⟨some m, fun l' hl' => ?_⟩
      obtain ⟨x, l', rfl⟩ := List.exists_cons_of_ne_nil (List.ne_nil_of_mem (hm.perm hl').mem)
      rw [verdict, List.foldl_cons, weigh, foldl_weigh_of_decided hasymm (hl'.nodup_iff.2 hnd)
        (hm.perm hl') ((h m hm).perm hl')]
      rfl
    · refine ⟨none, fun l' hl' => ?_⟩
      cases hv : verdict beats l' with
      | mk b noted =>
        cases noted with
        | true => rfl
        | false =>
          cases b with
          | none => rfl
          | some m =>
            -- a candidate chosen without a note would be the best one
            refine absurd ⟨m, (best_of_verdict ?_ hv).perm hl'.symm⟩ hbest
            intro u hu v hv w hw
            exact htrans u (hl'.mem_iff.1 hu) v (hl'.mem_iff.1 hv) w (hl'.mem_iff.1 hw)

end

/-! ## Tables of depths -/

/-- Some depth of the first table is smaller than the one in the same place of the second. -/
def smaller (ds es : List Int32) : Bool := (ds.zip es).any fun (d, e) => d < e

/-- Some depth of the first table is greater than the one in the same place of the second. -/
def greater (ds es : List Int32) : Bool := (ds.zip es).any fun (d, e) => e < d

/-- A table is better than another: a depth is smaller somewhere and greater nowhere.  A table with
entries is better than one without. -/
def outdoes (ds es : List Int32) : Bool :=
  !ds.isEmpty && (es.isEmpty || smaller ds es && !greater ds es)

variable {ds es fs : List Int32}

theorem smaller_eq_true_iff : smaller ds es = true ↔
    ∃ (i : Nat) (d e : Int32), ds[i]? = some d ∧ es[i]? = some e ∧ d < e := by
  rw [smaller, List.any_eq_true]
  constructor
  · rintro ⟨⟨d, e⟩, hmem, hlt⟩
    obtain ⟨i, hi⟩ := List.mem_iff_getElem?.1 hmem
    obtain ⟨hd, he⟩ := List.getElem?_zip_eq_some.1 hi
    exact ⟨i, d, e, hd, he, of_decide_eq_true hlt⟩
  · rintro ⟨i, d, e, hd, he, hlt⟩
    have hmem := List.mem_of_getElem? (List.getElem?_zip_eq_some (z := (d, e)).2 ⟨hd, he⟩)
    exact ⟨(d, e), hmem, decide_eq_true hlt⟩

/-- Where no depth of the first table is smaller, each is at least the one of the second. -/
theorem le_of_smaller_eq_false (h : smaller ds es = false) {i : Nat} {d e : Int32}
    (hd : ds[i]? = some d) (he : es[i]? = some e) : e ≤ d := by
  refine Int32.not_lt.1 fun hlt => ?_
  rw [smaller_eq_true_iff.2 ⟨i, d, e, hd, he, hlt⟩] at h
  cases h

theorem greater_eq (ds es : List Int32) : greater ds es = smaller es ds := by
  induction ds generalizing es with
  | nil => rw [greater, smaller, List.zip_nil_left, List.zip_nil_right, List.any_nil, List.any_nil]
  | cons d ds ih =>
    cases es with
    | nil =>
      rw [greater, smaller, List.zip_nil_left, List.zip_nil_right, List.any_nil, List.any_nil]
    | cons e es =>
      have hrest := ih es
      rw [greater, smaller] at hrest ⊢
      rw [List.zip_cons_cons, List.zip_cons_cons, List.any_cons, List.any_cons, hrest]

theorem outdoes_eq_true_iff : outdoes ds es = true ↔
    ds ≠ [] ∧ (es ≠ [] → smaller ds es = true ∧ smaller es ds = false) := by
  rw [outdoes, greater_eq]
  cases ds <;> cases es <;> simp

theorem outdoes_asymm (h : outdoes ds es = true) : outdoes es ds = false := by
  rw [outdoes_eq_true_iff] at h
  refine Bool.eq_false_iff.2 fun h' => ?_
  rw [outdoes_eq_true_iff] at h'
  have hless := (h.2 h'.1).1
  rw [(h'.2 h.1).2] at hless
  cases hless

/-- Tables of the same length are compared in one order. -/
theorem outdoes_trans (hes : ds ≠ [] → es ≠ [] → ds.length = es.length)
    (hfs : es ≠ [] → fs ≠ [] → es.length = fs.length) (h : outdoes ds es = true)
    (h' : outdoes es fs = true) : outdoes ds fs = true := by
  rw [outdoes_eq_true_iff] at h h' ⊢
  obtain ⟨hd, h⟩ := h
  obtain ⟨he, h'⟩ := h'
  refine ⟨hd, fun hf => ⟨?_, Bool.eq_false_iff.2 fun hless => ?_⟩⟩
  · -- where the first is smaller than the second, the third is not smaller than that
    obtain ⟨i, d, e, hi, hi', hlt⟩ := smaller_eq_true_iff.1 (h he).1
    have hlt' : i < fs.length := hfs he hf ▸ (List.getElem?_eq_some_iff.1 hi').1
    have hle := le_of_smaller_eq_false (h' hf).2 (List.getElem?_eq_getElem hlt') hi'
    exact smaller_eq_true_iff.2
      ⟨i, d, _, hi, List.getElem?_eq_getElem hlt', Int32.lt_of_lt_of_le hlt hle⟩
  · obtain ⟨i, f, d, hi, hi', hlt⟩ := smaller_eq_true_iff.1 hless
    have hlt' : i < es.length := hes hd he ▸ (List.getElem?_eq_some_iff.1 hi').1
    have hde := le_of_smaller_eq_false (h he).2 (List.getElem?_eq_getElem hlt') hi'
    have hef := le_of_smaller_eq_false (h' hf).2 hi (List.getElem?_eq_getElem hlt')
    exact Int32.not_lt.2 (Int32.le_trans hde hef) hlt

end SymbolTree.Selection
