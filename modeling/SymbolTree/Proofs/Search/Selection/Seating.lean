import Mathlib.Data.List.Perm.Basic
import Mathlib.Data.List.Nodup
import Mathlib.Data.List.Range
import SymbolTree.Search.Overload

/-!
# Who sits where

Arguments are seated one after the other, each where the ones before it have left room: at the
parameter of its name, at the next free parameter, or behind the parameters if one of them takes
any number of arguments (`Arena.Seats`).  The places behind the parameters are taken in order and
none is taken twice (`Seating.Fair`).

The tables of a match have room for the parameters and for the arguments, whichever are more.  This
is enough unless an argument sits behind the parameters while a parameter is left without one
(`Seating.fits_iff`), which takes a name that is given twice.

## Main statements

* `Arena.Seated.fair` — nobody sits where somebody else does.
* `Arena.Seated.within_or_full` — without names the parameters are taken first.
* `Seating.perm_vacant` — the arguments and the parameters without one take all places up to the
  last.
* `Seating.fits_iff` — when the places fit into the tables.
-/

set_option autoImplicit false
namespace SymbolTree

/-! ## Places -/

namespace Seating

variable {k size j : Nat} {taken : List Nat}

/-- How many places behind `k` parameters are taken. -/
def behind (k : Nat) (taken : List Nat) : Nat := (taken.filter (k ≤ ·)).length

/-- The parameters, of which there are `k`, that are left without an argument. -/
def vacant (k : Nat) (taken : List Nat) : List Nat := (List.range k).filter (· ∉ taken)

/-- No place is taken twice, and those behind the parameters are taken in order. -/
structure Fair (k : Nat) (taken : List Nat) : Prop where
  /-- No place is taken twice. -/
  nodup : taken.Nodup
  /-- Behind the parameters no place is left free. -/
  behind : taken.filter (k ≤ ·) = List.range' k (behind k taken)

theorem mem_vacant : j ∈ vacant k taken ↔ j < k ∧ j ∉ taken := by
  rw [vacant, List.mem_filter, List.mem_range, decide_eq_true_eq]

theorem vacant_eq_nil : vacant k taken = [] ↔ ∀ j < k, j ∈ taken := by
  simp [vacant, List.filter_eq_nil_iff]

theorem behind_eq_zero : behind k taken = 0 ↔ ∀ j ∈ taken, j < k := by
  simp [behind, List.filter_eq_nil_iff]

theorem behind_concat (k : Nat) (taken : List Nat) (j : Nat) :
    behind k (taken ++ [j]) = behind k taken + if k ≤ j then 1 else 0 := by
  rw [behind, List.filter_append, List.length_append, List.filter_singleton, behind]
  by_cases hj : k ≤ j <;> simp [hj]

namespace Fair

theorem nil : Fair k [] := ⟨List.nodup_nil, rfl⟩

theorem mem_of_le (h : Fair k taken) (hj : k ≤ j) : j ∈ taken ↔ j < k + Seating.behind k taken := by
  have hmem : j ∈ taken.filter (k ≤ ·) ↔ j ∈ taken := by simp [hj]
  rw [← hmem, h.behind, List.mem_range'_1]
  exact and_iff_right hj

/-- A free parameter is taken. -/
theorem concat (h : Fair k taken) (hj : j < k) (hfree : j ∉ taken) : Fair k (taken ++ [j]) := by
  have hfilter : (taken ++ [j]).filter (k ≤ ·) = taken.filter (k ≤ ·) := by
    rw [List.filter_append, List.filter_singleton, decide_eq_false (Nat.not_le.2 hj)]
    exact List.append_nil _
  refine ⟨?_, ?_⟩
  · rw [List.nodup_append_comm, List.singleton_append, List.nodup_cons]
    exact ⟨hfree, h.nodup⟩
  · rw [hfilter, behind_concat, if_neg (Nat.not_le.2 hj)]
    exact h.behind

/-- The next place behind the parameters is taken. -/
theorem concat_behind (h : Fair k taken) : Fair k (taken ++ [k + Seating.behind k taken]) := by
  have hfilter : (taken ++ [k + Seating.behind k taken]).filter (k ≤ ·) =
      taken.filter (k ≤ ·) ++ [k + Seating.behind k taken] := by
    rw [List.filter_append, List.filter_singleton, decide_eq_true (Nat.le_add_right ..)]
    rfl
  refine ⟨?_, ?_⟩
  · rw [List.nodup_append_comm, List.singleton_append, List.nodup_cons, h.mem_of_le (by omega)]
    exact ⟨Nat.lt_irrefl _, h.nodup⟩
  · rw [hfilter, behind_concat, if_pos (Nat.le_add_right ..), List.range'_1_concat, h.behind]

end Fair

/-- The arguments and the parameters without one take all places up to the last. -/
theorem perm_vacant (h : Fair k taken) :
    (taken ++ vacant k taken).Perm (List.range (k + behind k taken)) := by
  have hnodup : (taken ++ vacant k taken).Nodup := by
    refine List.nodup_append'.2 ⟨h.nodup, List.nodup_range.filter _, fun j hj hj' => ?_⟩
    exact (mem_vacant.1 hj').2 hj
  refine (List.perm_ext_iff_of_nodup hnodup List.nodup_range).2 fun j => ?_
  rw [List.mem_append, mem_vacant, List.mem_range]
  rcases Nat.lt_or_ge j k with hj | hj
  · exact ⟨fun _ => by omega, fun _ => (Classical.em (j ∈ taken)).imp_right fun h => ⟨hj, h⟩⟩
  · rw [h.mem_of_le hj]
    exact ⟨fun h => h.resolve_right fun h => absurd h.1 (Nat.not_lt.2 hj), .inl⟩

theorem length_add_vacant (h : Fair k taken) :
    taken.length + (vacant k taken).length = k + behind k taken := by
  simpa using (perm_vacant h).length_eq

/-- The places fit into tables for the parameters and the arguments unless an argument sits behind
the parameters while a parameter is left without one. -/
theorem fits_iff (h : Fair k taken) : k + behind k taken = max k taken.length ↔
    (∀ j ∈ taken, j < k) ∨ ∀ j < k, j ∈ taken := by
  have hlength := length_add_vacant h
  rw [← behind_eq_zero, ← vacant_eq_nil, ← List.length_eq_zero_iff]
  omega

/-! ## Tables -/

/-- A table of places, filled in from the beginning. -/
def fill (size : Nat) (l : List Nat) : List Nat :=
  (l ++ List.replicate (size - l.length) 0).take size

theorem fill_nil : fill size [] = List.replicate size 0 := by simp [fill]

theorem length_fill (l : List Nat) : (fill size l).length = size := by
  rw [fill, List.length_take, List.length_append, List.length_replicate]
  omega

theorem getElem?_fill (l : List Nat) (i : Nat) : (fill size l)[i]? =
    if i < size then some (l.getD i 0) else none := by
  rw [fill, List.getElem?_take]
  split
  · rw [List.getD_eq_getElem?_getD, List.getElem?_append, List.getElem?_replicate]
    split
    · next hi => simp [hi]
    · next hi => simp [List.getElem?_eq_none (Nat.le_of_not_lt hi)]; omega
  · rfl

/-- The next entry is made. -/
theorem fill_set (l : List Nat) (j : Nat) :
    (fill size l).set l.length j = fill size (l ++ [j]) := by
  refine List.ext_getElem? fun i => ?_
  rw [List.getElem?_set, getElem?_fill, getElem?_fill, length_fill]
  split
  · next hi => simp [← hi]
  · next hi =>
    split
    · congr 1
      simp only [List.getD_eq_getElem?_getD, List.getElem?_append, List.getElem?_singleton]
      split
      · rfl
      · next hlt => rw [if_neg (by omega), List.getElem?_eq_none (Nat.le_of_not_lt hlt)]
    · rfl

/-- What is left out leaves the entry that is there in the beginning. -/
theorem fill_concat_zero (l : List Nat) : fill size (l ++ [0]) = fill size l := by
  refine List.ext_getElem? fun i => ?_
  rw [getElem?_fill, getElem?_fill]
  split
  · congr 1
    simp only [List.getD_eq_getElem?_getD, List.getElem?_append, List.getElem?_singleton]
    split
    · rfl
    · next hlt =>
      rw [List.getElem?_eq_none (Nat.le_of_not_lt hlt)]
      split <;> rfl
  · rfl

/-- There is no entry after the last one. -/
theorem fill_concat_of_le {l : List Nat} (h : size ≤ l.length) (j : Nat) :
    fill size (l ++ [j]) = fill size l := by
  refine List.ext_getElem? fun i => ?_
  rw [getElem?_fill, getElem?_fill]
  split
  · next hi =>
    rw [List.getD_eq_getElem?_getD, List.getD_eq_getElem?_getD,
      List.getElem?_append_left (Nat.lt_of_lt_of_le hi h)]
  · rfl

theorem fill_of_length {l : List Nat} (h : l.length = size) : fill size l = l := by
  rw [fill, h, Nat.sub_self, List.replicate_zero, List.append_nil, ← h, List.take_length]

/-- The entry for an argument: its place, if the table has room for it. -/
def entry (size j : Nat) : Nat := if j < size then j else 0

/-- The table of places for the arguments and then for the parameters without one. -/
def indexTable (k size : Nat) (taken : List Nat) : List Nat :=
  fill size (taken.map (entry size) ++ vacant k taken)

/-- With room for all places the table holds each of them. -/
theorem indexTable_eq (h : Fair k taken) (hsize : k + behind k taken = size) :
    indexTable k size taken = taken ++ vacant k taken := by
  have hentry : taken.map (entry size) = taken := by
    refine (List.map_congr_left fun j hj => ?_).trans (List.map_id taken)
    have hmem := (perm_vacant h).subset (List.mem_append_left _ hj)
    exact if_pos (hsize ▸ List.mem_range.1 hmem)
  rw [indexTable, hentry]
  exact fill_of_length (by rw [List.length_append, length_add_vacant h, hsize])

/-- Without room for all places an argument sits behind the table. -/
theorem exists_beyond (h : Fair k taken) (hk : 0 < k)
    (hsize : k + behind k taken ≠ max k taken.length) : ∃ j ∈ taken, max k taken.length ≤ j := by
  have hlength := length_add_vacant h
  exact ⟨k + behind k taken - 1, (h.mem_of_le (by omega)).2 (by omega), by omega⟩

end Seating

/-! ## Arguments -/

namespace Arena

open Search (paramFlag)

/-- The arguments in a list, without the matches that were put after them. -/
def arguments (a : Arena) (params : NodeId) : List NodeId :=
  (a.children params).filter fun n => a.kind n ≠ .paramMatch

/-- An argument has the name of parameter number `i`. -/
def NamesParam (a : Arena) (declared : List NodeId) (arg : NodeId) (i : Nat) : Prop :=
  ∃ x, a.children arg = [x] ∧ a.kind x = .identifier ∧
    declared.findIdx? (fun p => a.textIs p (a.name x)) = some i

/-- The place of an argument, where those before it have taken some. -/
inductive Seats (a : Arena) (declared : List NodeId) (last : NodeId) (taken : List Nat)
    (arg : NodeId) : Nat → Prop
  /-- The parameter of its name, which is free. -/
  | named {i : Nat} (hk : a.kind arg = .name_) (hi : a.NamesParam declared arg i)
      (hfree : i ∉ taken) : Seats a declared last taken arg i
  /-- Behind the parameters, as the parameter of its name has an argument but takes more. -/
  | again {i : Nat} (hk : a.kind arg = .name_) (hi : a.NamesParam declared arg i)
      (hused : i ∈ taken) (hrest : paramFlag a (declared.getD i arg) .paramRest = true) :
      Seats a declared last taken arg (declared.length + Seating.behind declared.length taken)
  /-- The first parameter that is free. -/
  | next {i : Nat} (hk : a.kind arg ≠ .name_) (hi : i < declared.length) (hfree : i ∉ taken)
      (hbefore : ∀ j < i, j ∈ taken) : Seats a declared last taken arg i
  /-- Behind the parameters, as none is free but the last one takes more. -/
  | beyond (hk : a.kind arg ≠ .name_) (hfull : ∀ j < declared.length, j ∈ taken)
      (hrest : paramFlag a last .paramRest = true) :
      Seats a declared last taken arg (declared.length + Seating.behind declared.length taken)

/-- The places of arguments, one after the other. -/
inductive Seated (a : Arena) (declared : List NodeId) (last : NodeId) :
    List Nat → List NodeId → List Nat → Prop
  | nil {taken : List Nat} : Seated a declared last taken [] []
  | cons {taken : List Nat} {arg : NodeId} {args : List NodeId} {j : Nat} {slots : List Nat}
      (h : a.Seats declared last taken arg j)
      (hs : Seated a declared last (taken ++ [j]) args slots) :
      Seated a declared last taken (arg :: args) (j :: slots)

variable {a : Arena} {declared args : List NodeId} {last arg : NodeId} {taken slots : List Nat}
  {i j : Nat}

theorem NamesParam.lt_length (h : a.NamesParam declared arg i) : i < declared.length := by
  obtain ⟨x, -, -, hi⟩ := h
  exact (List.findIdx?_eq_some_iff_getElem.1 hi).1

/-- The parameter that an argument names is one of those that are declared. -/
theorem NamesParam.getD_mem (h : a.NamesParam declared arg i) : declared.getD i arg ∈ declared := by
  rw [List.getD_eq_getElem?_getD, List.getElem?_eq_getElem h.lt_length, Option.getD_some]
  exact List.getElem_mem h.lt_length

theorem Seats.fair (h : a.Seats declared last taken arg j)
    (ht : Seating.Fair declared.length taken) : Seating.Fair declared.length (taken ++ [j]) := by
  cases h with
  | named _ hi hfree => exact ht.concat hi.lt_length hfree
  | again => exact ht.concat_behind
  | next _ hi hfree _ => exact ht.concat hi hfree
  | beyond => exact ht.concat_behind

theorem Seats.not_mem (h : a.Seats declared last taken arg j)
    (ht : Seating.Fair declared.length taken) : j ∉ taken := by
  have hnodup := (h.fair ht).nodup
  rw [List.nodup_append_comm, List.singleton_append, List.nodup_cons] at hnodup
  exact hnodup.1

/-- Nobody sits where somebody else does. -/
theorem Seated.fair (h : a.Seated declared last taken args slots)
    (ht : Seating.Fair declared.length taken) : Seating.Fair declared.length (taken ++ slots) := by
  induction h with
  | nil => rwa [List.append_nil]
  | cons h _ ih =>
    rw [List.append_cons]
    exact ih (h.fair ht)

/-- Without names nobody sits behind the parameters before all of them have an argument. -/
theorem Seated.within_or_full (h : a.Seated declared last taken args slots)
    (hargs : ∀ arg ∈ args, a.kind arg ≠ .name_) :
    (∀ j ∈ slots, j < declared.length) ∨ ∀ j < declared.length, j ∈ taken ++ slots := by
  induction h with
  | nil => exact .inl nofun
  | cons h _ ih =>
    have hk := hargs _ List.mem_cons_self
    have hrest := ih fun x hx => hargs x (List.mem_cons_of_mem _ hx)
    rw [List.append_assoc, List.singleton_append] at hrest
    cases h with
    | named hname => exact absurd hname hk
    | again hname => exact absurd hname hk
    | next _ hi => exact hrest.imp_left fun h => List.forall_mem_cons.2 ⟨hi, h⟩
    | beyond _ hfull => exact .inr fun j hj => List.mem_append_left _ (hfull j hj)

end Arena

end SymbolTree
