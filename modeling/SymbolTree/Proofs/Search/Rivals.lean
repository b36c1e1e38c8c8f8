import SymbolTree.Proofs.Arena.Marks
import SymbolTree.Proofs.Search.Effective

/-!
# Rivals among inherited attributes

A set of attributes is `Exclusive` if no two of its members are rivals.  Sets that grow by one
attribute at a time stay so, since each new attribute is compared with those that are there.

What is inherited is not compared in this way.  The visibilities are only taken over by a declaration
that has none, and so are the sorts of members `static`, `abstract` and `virtual`; but the other
rivals of these sorts are not looked for, and those of `native` are not looked for at all.
`Attribute.unchecked` lists the attributes that are inherited although a rival is there, together
with that rival.  A set in which no other rivals meet is `Checked`.

## Main statements

* `AttributeSet.Exclusive.add` — an attribute that is added by itself meets no rival.
* `AttributeSet.Checked.inherit` — what is inherited meets only those rivals that are not looked for.
* `AttributeSet.exclusive_iff_inherited` — and if it does, one of the two comes from the parent.
-/

set_option autoImplicit false
namespace SymbolTree

namespace Attribute

/-- The attributes that a node may inherit. -/
def inheritable : List Attribute :=
  visibility ++ memberSort ++ [.native, .enumerable, .false_, .dynamic, .final]

/-- The attributes that are inherited although a rival is there, each with that rival. -/
def unchecked : List (Attribute × Attribute) :=
  [(.static, .constructor), (.abstract, .constructor), (.virtual, .constructor),
   (.abstract, .inline), (.virtual, .inline), (.native, .inline),
   (.abstract, .native), (.native, .abstract)]

variable {t u : Attribute}

theorem mem_rivals_of_unchecked {q : Attribute × Attribute} (h : q ∈ unchecked) :
    q.2 ∈ q.1.rivals := by
  revert q
  decide

/-- Of the attributes that a node may inherit, those with rivals. -/
theorem inheritable_cases (ht : t ∈ inheritable) (h : u ∈ t.rivals) :
    t ∈ visibility ∨ t ∈ memberSort ∨ t = .native ∨ t = .false_ := by
  cases t <;> revert ht h <;> cases u <;> decide

/-- The rivals of a visibility are visibilities. -/
theorem mem_visibility_of_rival (ht : t ∈ visibility) (h : u ∈ t.rivals) : u ∈ visibility := by
  cases t <;> revert ht h <;> cases u <;> decide

/-- Besides the other sorts of members, no rivals of a sort are looked for. -/
theorem mem_unchecked_of_memberSort (ht : t ∈ memberSort) (hu : u ∉ memberSort)
    (h : u ∈ t.rivals) : (t, u) ∈ unchecked := by
  cases t <;> revert ht hu h <;> cases u <;> decide

theorem mem_unchecked_of_native (h : u ∈ native.rivals) : (native, u) ∈ unchecked := by
  revert h
  cases u <;> decide

theorem eq_true_of_rival (h : u ∈ false_.rivals) : u = .true_ := by
  simpa [rivals] using h

end Attribute

open Attribute (visibility memberSort inheritable unchecked)

namespace AttributeSet

variable {s f l i : AttributeSet} {t u x : Attribute} {xs : List Attribute} {k : Kind}

/-! ## Where an inherited attribute comes from -/

/-- A family is taken over as a whole, or not at all if one of its members is there. -/
theorem contains_inheritFamily_of_mem (hx : x ∈ xs) :
    (s.inheritFamily f xs).contains x = if s.any xs then s.contains x else f.contains x := by
  rw [inheritFamily]
  split
  · rfl
  · clear * - hx
    induction xs generalizing s with
    | nil => exact absurd hx List.not_mem_nil
    | cons y xs ih =>
      rw [List.foldl_cons]
      by_cases hmem : x ∈ xs
      · exact ih hmem
      · obtain rfl : x = y := (List.mem_cons.1 hx).resolve_right hmem
        simp [contains_foldl_taken hmem]

theorem contains_inheritFamily_or (h : (s.inheritFamily f xs).contains x = true) :
    s.contains x = true ∨ x ∈ xs ∧ f.contains x = true := by
  by_cases hx : x ∈ xs
  · rw [contains_inheritFamily_of_mem hx] at h
    split at h
    · exact .inl h
    · exact .inr ⟨hx, h⟩
  · exact .inl (contains_inheritFamily hx ▸ h)

theorem contains_inheritEach_or (h : (s.inheritEach f xs).contains x = true) :
    s.contains x = true ∨ x ∈ xs ∧ f.contains x = true := by
  rw [inheritEach] at h
  induction xs generalizing s with
  | nil => exact .inl h
  | cons y xs ih =>
    rw [List.foldl_cons] at h
    refine (ih h).elim (fun hs => ?_) fun hx => .inr ⟨List.mem_cons_of_mem y hx.1, hx.2⟩
    split at hs
    · next hy =>
      obtain rfl | hs : x = y ∨ s.contains x = true := by simpa using hs
      · exact .inr ⟨List.mem_cons_self, hy⟩
      · exact .inl hs
    · exact .inl hs

theorem contains_inheritFalse_or (h : (s.inheritFalse f).contains x = true) :
    s.contains x = true ∨ x = .false_ ∧ f.contains x = true := by
  rw [inheritFalse] at h
  split at h
  · next hf =>
    obtain ⟨-, rfl | h⟩ : x ≠ .true_ ∧ (x = .false_ ∨ s.contains x = true) := by simpa using h
    · exact .inr ⟨rfl, hf⟩
    · exact .inl h
  · exact .inl h

/-- What a node has after it has inherited was there before, or comes from its parent. -/
theorem contains_inherit_or (h : (l.inherit i k).contains x = true) :
    l.contains x = true ∨ x ∈ inheritable ∧ i.contains x = true := by
  have hparts : (∀ x ∈ visibility, x ∈ inheritable) ∧ (∀ x ∈ memberSort, x ∈ inheritable) ∧
      (∀ x ∈ [Attribute.native, .enumerable], x ∈ inheritable) ∧ .false_ ∈ inheritable ∧
      ∀ x ∈ [Attribute.dynamic, .final], x ∈ inheritable := by decide
  obtain ⟨hvisibility, hmemberSort, heach, hfalse, hlast⟩ := hparts
  have hbase : ((((l.inheritFamily i visibility).inheritFamily i memberSort).inheritEach
        i [.native, .enumerable]).inheritFalse i).contains x = true →
      l.contains x = true ∨ x ∈ inheritable ∧ i.contains x = true := by
    intro hs
    refine (contains_inheritFalse_or hs).elim (fun hs => ?_) fun hx => .inr ⟨hx.1 ▸ hfalse, hx.2⟩
    refine (contains_inheritEach_or hs).elim (fun hs => ?_) fun hx => .inr ⟨heach x hx.1, hx.2⟩
    refine (contains_inheritFamily_or hs).elim (fun hs => ?_) fun hx =>
      .inr ⟨hmemberSort x hx.1, hx.2⟩
    exact (contains_inheritFamily_or hs).imp id fun hx => ⟨hvisibility x hx.1, hx.2⟩
  rw [inherit] at h
  split at h
  · exact hbase h
  · exact (contains_inheritEach_or h).elim hbase fun hx => .inr ⟨hlast x hx.1, hx.2⟩

/-- A visibility is inherited only by a node without one, and a sort of member likewise. -/
theorem contains_inherit_family (hxs : xs = visibility ∨ xs = memberSort) (hx : x ∈ xs) :
    (l.inherit i k).contains x = if l.any xs then l.contains x else i.contains x := by
  have hothers : (∀ x ∈ visibility ++ memberSort, x ∉ [Attribute.native, .enumerable] ∧
      x ∉ [Attribute.false_, .true_] ∧ x ∉ [Attribute.dynamic, .final]) ∧
      ∀ x ∈ visibility, x ∉ memberSort := by decide
  have hmem : x ∈ visibility ++ memberSort := by
    rw [List.mem_append]
    rcases hxs with rfl | rfl
    · exact .inl hx
    · exact .inr hx
  obtain ⟨heach, hfalse, hlast⟩ := hothers.1 x hmem
  have hfamilies : (l.inherit i k).contains x =
      ((l.inheritFamily i visibility).inheritFamily i memberSort).contains x := by
    have hbase : ((((l.inheritFamily i visibility).inheritFamily i memberSort).inheritEach
        i [.native, .enumerable]).inheritFalse i).contains x =
        ((l.inheritFamily i visibility).inheritFamily i memberSort).contains x := by
      rw [contains_inheritFalse hfalse, contains_inheritEach heach]
    rw [inherit]
    split
    · exact hbase
    · rw [contains_inheritEach hlast, hbase]
  rw [hfamilies]
  rcases hxs with rfl | rfl
  · rw [contains_inheritFamily (hothers.2 x hx), contains_inheritFamily_of_mem hx]
  · -- the visibilities that were taken over before are no sorts of members
    have hfirst : ∀ y ∈ memberSort, (l.inheritFamily i visibility).contains y = l.contains y :=
      fun y hy => contains_inheritFamily fun hmem => hothers.2 y hmem hy
    have hany : (l.inheritFamily i visibility).any memberSort = l.any memberSort := by
      rw [Bool.eq_iff_iff, any, any, List.any_eq_true, List.any_eq_true]
      exact exists_congr fun y => and_congr_right fun hy => by rw [hfirst y hy]
    rw [contains_inheritFamily_of_mem hx, hany, hfirst x hx]

/-- A node that inherits what excludes it from the compilation is excluded. -/
theorem contains_inherit_true (h : (l.inherit i k).contains .true_ = true) :
    i.contains .false_ = false := by
  have hlast : Attribute.true_ ∉ [Attribute.dynamic, .final] := by decide
  rw [Bool.eq_false_iff]
  intro hi
  have hfalse : ∀ s : AttributeSet, (s.inheritFalse i).contains .true_ = false := fun s => by
    simp [inheritFalse, hi]
  rw [inherit] at h
  split at h
  · rw [hfalse] at h
    cases h
  · rw [contains_inheritEach hlast, hfalse] at h
    cases h

/-- **An inherited attribute that meets a rival is one that is not compared with it.** -/
theorem mem_unchecked_of_inherit (ht : (l.inherit i k).contains t = true)
    (htl : l.contains t = false) (hu : (l.inherit i k).contains u = true)
    (hul : l.contains u = true) (h : u ∈ t.rivals) : (t, u) ∈ unchecked := by
  have hfamily : ∀ xs, xs = visibility ∨ xs = memberSort → t ∈ xs → u ∉ xs := by
    intro xs hxs hmem humem
    have hany : l.any xs = true := List.any_eq_true.2 ⟨u, humem, hul⟩
    rw [contains_inherit_family hxs hmem, if_pos hany, htl] at ht
    cases ht
  have hinherited : t ∈ inheritable ∧ i.contains t = true :=
    (contains_inherit_or ht).resolve_left fun hl => by rw [htl] at hl; cases hl
  rcases Attribute.inheritable_cases hinherited.1 h with hv | hm | rfl | rfl
  · exact absurd (Attribute.mem_visibility_of_rival hv h) (hfamily _ (.inl rfl) hv)
  · exact Attribute.mem_unchecked_of_memberSort hm (hfamily _ (.inr rfl) hm) h
  · exact Attribute.mem_unchecked_of_native h
  · obtain rfl := Attribute.eq_true_of_rival h
    rw [contains_inherit_true hu] at hinherited
    cases hinherited.2

/-! ## Sets without rivals -/

/-- No attribute of the set would be kept away by another one alone. -/
def Exclusive (s : AttributeSet) : Prop :=
  ∀ t u, s.contains t = true → s.contains u = true → t ≠ u →
    (empty.set t true).conflict? u = none

theorem exclusive_iff : s.Exclusive ↔
    ∀ t u, s.contains t = true → s.contains u = true → u ∉ t.rivals := by
  constructor
  · intro h t u ht hu hmem
    have hne : u ≠ t := fun he => Attribute.not_mem_rivals_self t (he ▸ hmem)
    exact conflict?_single_eq_none_iff.1 (h u t hu ht hne) hmem
  · exact fun h t u ht hu _ => conflict?_single_eq_none_iff.2 (h u t hu ht)

/-- Only rivals meet that are not looked for when attributes are inherited. -/
def Checked (s : AttributeSet) : Prop :=
  ∀ t u, s.contains t = true → s.contains u = true → u ∈ t.rivals →
    (t, u) ∈ unchecked ∨ (u, t) ∈ unchecked

theorem Exclusive.checked (h : s.Exclusive) : s.Checked :=
  fun t u ht hu hmem => absurd hmem (exclusive_iff.1 h t u ht hu)

theorem Exclusive.of_le (h : l.Exclusive) (hs : ∀ x, s.contains x = true → l.contains x = true) :
    s.Exclusive :=
  fun x y hx hy => h x y (hs x hx) (hs y hy)

theorem Checked.of_le (h : l.Checked) (hs : ∀ x, s.contains x = true → l.contains x = true) :
    s.Checked :=
  fun x y hx hy => h x y (hs x hx) (hs y hy)

/-- An attribute that is added by itself is compared with those that are there. -/
theorem Exclusive.add (h : s.Exclusive) (t : Attribute) : (s.add t).Exclusive := by
  rw [AttributeSet.add]
  cases hc : s.conflict? t with
  | some g => exact h
  | none =>
    rw [conflict?_eq_none_iff] at hc
    have hfree : ∀ u, s.contains u = true → u ∉ t.rivals := by
      intro u hu hmem
      rw [hc u hmem] at hu
      cases hu
    have hnew : ∀ u, (s.set t true).contains u = true → u = t ∨ s.contains u = true :=
      fun u hu => by simpa using hu
    rw [exclusive_iff]
    intro u v hu hv
    rcases hnew u hu with rfl | hu'
    · rcases hnew v hv with rfl | hv'
      · exact Attribute.not_mem_rivals_self v
      · exact hfree v hv'
    · rcases hnew v hv with rfl | hv'
      · exact fun hmem => hfree u hu' (Attribute.rivals_symm hmem)
      · exact exclusive_iff.1 h u v hu' hv'

/-- Rivals in what a node has after it has inherited: one of them comes from the parent, although
the other is there and not looked for. -/
theorem exists_unchecked_of_inherit (hl : l.Exclusive) (hi : i.Checked)
    (ht : (l.inherit i k).contains t = true) (hu : (l.inherit i k).contains u = true)
    (h : u ∈ t.rivals) :
    (t, u) ∈ unchecked ∧ i.contains t = true ∨ (u, t) ∈ unchecked ∧ i.contains u = true := by
  have hfrom : ∀ x, (l.inherit i k).contains x = true → l.contains x = false →
      i.contains x = true := fun x hx hxl =>
    ((contains_inherit_or hx).resolve_left fun h => by rw [hxl] at h; cases h).2
  cases htl : l.contains t with
  | false =>
    cases hul : l.contains u with
    | false =>
      exact (hi t u (hfrom t ht htl) (hfrom u hu hul) h).imp (⟨·, hfrom t ht htl⟩)
        (⟨·, hfrom u hu hul⟩)
    | true => exact .inl ⟨mem_unchecked_of_inherit ht htl hu hul h, hfrom t ht htl⟩
  | true =>
    cases hul : l.contains u with
    | false =>
      exact .inr ⟨mem_unchecked_of_inherit hu hul ht htl (Attribute.rivals_symm h), hfrom u hu hul⟩
    | true => exact absurd h (exclusive_iff.1 hl t u htl hul)

theorem Checked.inherit (hi : i.Checked) (hl : l.Exclusive) (k : Kind) :
    (l.inherit i k).Checked :=
  fun _ _ ht hu h => (exists_unchecked_of_inherit hl hi ht hu h).imp And.left And.left

/-- A set in which only those rivals meet that are not looked for is without rivals if these do not
meet either. -/
theorem Checked.exclusive_iff (h : s.Checked) : s.Exclusive ↔
    ∀ q ∈ unchecked, s.contains q.1 = true → s.contains q.2 = false := by
  constructor
  · intro hs q hq ht
    rw [Bool.eq_false_iff]
    exact fun hu => AttributeSet.exclusive_iff.1 hs q.1 q.2 ht hu (Attribute.mem_rivals_of_unchecked hq)
  · intro hq
    rw [AttributeSet.exclusive_iff]
    intro t u ht hu hmem
    rcases h t u ht hu hmem with h | h
    · rw [hq _ h ht] at hu
      cases hu
    · rw [hq _ h hu] at ht
      cases ht

/-- **What a node inherits from its parent brings rivals together only if it is a sort of member or
`native`, and the parent has it.** -/
theorem exclusive_iff_inherited (hl : l.Exclusive) (hi : i.Checked)
    (hs : ∀ x, s.contains x = true → (l.inherit i k).contains x = true) :
    s.Exclusive ↔ ∀ q ∈ unchecked, i.contains q.1 = true → s.contains q.1 = true →
      s.contains q.2 = false := by
  constructor
  · exact fun h q hq _ => ((hi.inherit hl k).of_le hs).exclusive_iff.1 h q hq
  · intro hq
    rw [exclusive_iff]
    intro t u ht hu hmem
    rcases exists_unchecked_of_inherit hl hi (hs t ht) (hs u hu) hmem with ⟨h, hit⟩ | ⟨h, hiu⟩
    · rw [hq _ h hit ht] at hu
      cases hu
    · rw [hq _ h hiu hu] at ht
      cases ht

end AttributeSet

end SymbolTree
