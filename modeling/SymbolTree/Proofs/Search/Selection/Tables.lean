import SymbolTree.Proofs.Search.Bounds.Match
import SymbolTree.Proofs.Search.Selection.Seating

/-!
# What is kept while arguments are seated

While arguments are seated, the search keeps which parameters are taken, from where on the next free
one is looked for, and the next place behind the parameters.  This agrees with the places that are
taken (`Search.Tracks`), so that a place it comes upon is the place of the argument
(`Search.Tracks.seats_placeNext`).

The tables of a match show the places and the depths of the arguments so far, and then the
parameters that are left (`Arena.Charted`), in as far as there is room for them.

## Main statement

* `Arena.Charted.proper_iff` — when the tables of a match are a proper assignment.
-/

set_option autoImplicit false
namespace SymbolTree

namespace Search

variable {k j : Nat} {taken : List Nat} {s s' : Assignment}

/-- The search knows which places are taken. -/
structure Tracks (k : Nat) (taken : List Nat) (s : Assignment) : Prop where
  /-- The parameters that are taken are marked. -/
  used : s.used = (List.range k).map fun i => decide (i ∈ taken)
  /-- No parameter is free before the one from which a free one is looked for. -/
  free : ∀ i < s.free, i < k → i ∈ taken
  /-- The next place behind the parameters is known. -/
  rest : s.rest = k + Seating.behind k taken

/-- A list of marks begins with those that are set, up to one that is not. -/
theorem getElem?_takeWhile_id (l : List Bool) :
    (∀ i < (l.takeWhile id).length, l[i]? = some true) ∧
      l[(l.takeWhile id).length]? ≠ some true := by
  induction l with
  | nil => exact ⟨nofun, nofun⟩
  | cons b l ih =>
    cases b with
    | false => exact ⟨nofun, nofun⟩
    | true =>
      refine ⟨fun i hi => ?_, ih.2⟩
      cases i with
      | zero => rfl
      | succ i => exact ih.1 i (Nat.lt_of_succ_lt_succ hi)

namespace Tracks

/-- In the beginning nothing is taken. -/
theorem start (declared : List NodeId) : Tracks declared.length []
    { used := declared.map fun _ => false, rest := declared.length } := by
  refine ⟨?_, nofun, rfl⟩
  simp

theorem getElem?_used (h : Tracks k taken s) (j : Nat) :
    s.used[j]? = if j < k then some (decide (j ∈ taken)) else none := by
  rw [h.used, List.getElem?_map]
  split
  · next hj => rw [List.getElem?_range hj, Option.map_some]
  · next hj => rw [List.getElem?_eq_none (by simpa using hj), Option.map_none]

theorem length_used (h : Tracks k taken s) : s.used.length = k := by
  rw [h.used, List.length_map, List.length_range]

/-- A parameter is marked if it is taken. -/
theorem getD_used (h : Tracks k taken s) (hj : j < k) :
    s.used.getD j false = decide (j ∈ taken) := by
  rw [List.getD_eq_getElem?_getD, h.getElem?_used, if_pos hj, Option.getD_some]

theorem set_used (h : Tracks k taken s) (j : Nat) :
    s.used.set j true = (List.range k).map fun i => decide (i ∈ taken ++ [j]) := by
  refine List.ext_getElem? fun i => ?_
  rw [List.getElem?_set, h.length_used, h.getElem?_used]
  by_cases hi : i < k
  · by_cases hij : j = i
    · simp [hi, hij]
    · simp [hi, hij, Ne.symm hij]
  · by_cases hij : j = i
    · simp [hi, hij]
    · simp [hi, hij]

/-- A parameter is taken. -/
theorem take (h : Tracks k taken s) (hj : j < k) {free : Nat}
    (hfree : ∀ i < free, i < k → i ∈ taken) :
    Tracks k (taken ++ [j]) { s with used := s.used.set j true, free } := by
  refine ⟨h.set_used j, fun i hi hik => List.mem_append_left _ (hfree i hi hik), ?_⟩
  rw [Seating.behind_concat, if_neg (Nat.not_le.2 hj)]
  exact h.rest

/-- The next place behind the parameters is taken. -/
theorem take_rest (h : Tracks k taken s) {free : Nat}
    (hfree : ∀ i < free, i < k → i ∈ taken) :
    Tracks k (taken ++ [s.rest])
      { used := s.used.set s.rest true, free, rest := s.rest + 1 } := by
  refine ⟨h.set_used _, fun i hi hik => List.mem_append_left _ (hfree i hi hik), ?_⟩
  rw [Seating.behind_concat, if_pos (h.rest ▸ Nat.le_add_right ..), h.rest, Nat.add_assoc]

/-- Looking for a free parameter passes those that are taken, up to one that is not. -/
theorem next (h : Tracks k taken s) {free : Nat}
    (hfree : free = s.free + ((s.used.drop s.free).takeWhile id).length) :
    (∀ i < free, i < k → i ∈ taken) ∧ (free < k → free ∉ taken) := by
  obtain ⟨hbefore, hat⟩ := getElem?_takeWhile_id (s.used.drop s.free)
  refine ⟨fun i hi hik => ?_, fun hlt hmem => ?_⟩
  · rcases Nat.lt_or_ge i s.free with hs | hs
    · exact h.free i hs hik
    · have hget := hbefore (i - s.free) (by omega)
      rw [List.getElem?_drop, Nat.add_sub_cancel' hs, h.getElem?_used, if_pos hik] at hget
      exact of_decide_eq_true (Option.some.inj hget)
  · rw [List.getElem?_drop, ← hfree, h.getElem?_used, if_pos hlt, decide_eq_true hmem] at hat
    exact hat rfl

/-- The parameters that are not marked are those that are left. -/
theorem map_missing {declared : List NodeId} (h : Tracks declared.length taken s) :
    (declared.zipIdx.filter fun p => !s.used.getD p.2 false).map Prod.snd =
      Seating.vacant declared.length taken := by
  have hfilter : (declared.zipIdx.filter fun p => !s.used.getD p.2 false).map Prod.snd =
      (declared.zipIdx.map Prod.snd).filter fun j => !s.used.getD j false := by
    rw [List.filter_map]
    rfl
  rw [hfilter, List.zipIdx_map_snd, ← List.range_eq_range']
  refine List.filter_congr fun j hj => ?_
  rw [h.getD_used (List.mem_range.1 hj), decide_not]

/-- The place that is found for an argument without a name is its own. -/
theorem seats_placeNext {a : Arena} {declared : List NodeId} {last arg : NodeId}
    (h : Tracks declared.length taken s) (hk : a.kind arg ≠ .name_)
    (hp : placeNext a last s = some (j, s')) :
    a.Seats declared last taken arg j ∧
      Tracks declared.length (taken ++ [j]) { s' with used := s'.used.set j true } := by
  unfold placeNext at hp
  extract_lets free at hp
  obtain ⟨hbefore, hat⟩ := h.next (show free = s.free + _ from rfl)
  clear_value free
  rw [h.length_used] at hp
  split at hp
  · next hlt =>
    obtain ⟨rfl, rfl⟩ := Prod.mk.inj (Option.some.inj hp)
    exact ⟨.next hk hlt (hat hlt) fun i hi => hbefore i hi (by omega), h.take hlt hbefore⟩
  · next hge =>
    split at hp
    · next hrest =>
      obtain ⟨rfl, rfl⟩ := Prod.mk.inj (Option.some.inj hp)
      refine ⟨?_, h.take_rest hbefore⟩
      rw [h.rest]
      exact .beyond hk (fun i hi => hbefore i (by omega) hi) hrest
    · cases hp

end Tracks

end Search

namespace Arena

variable {a b c : Arena} {m : NodeId} {size i j : Nat} {depth : Int32} {placed : List (Nat × Int32)}
  {left : List Nat}

/-- The tables of a match show the places of arguments with how well these fit there, and then the
parameters that are left. -/
structure Charted (m : NodeId) (size : Nat) (placed : List (Nat × Int32)) (left : List Nat)
    (a : Arena) : Prop where
  /-- The match is there. -/
  lt : m.index < a.size
  /-- An entry is made for each argument and for each parameter that is left. -/
  index : (a.node m).paramIndex =
    Seating.fill size (placed.map (fun p => Seating.entry size p.1) ++ left)
  /-- There is a depth for each place. -/
  length : (a.node m).paramDepth.length = size
  /-- The depth of an argument is found at its place. -/
  depth : ∀ p ∈ placed, p.1 < size → (a.node m).paramDepth[p.1]? = some p.2

namespace Charted

theorem steady (h : Charted m size placed left a) (hb : a.Steady b) :
    Charted m size placed left b := by
  obtain ⟨hd, hi⟩ := hb.tables m h.lt nofun
  refine ⟨Nat.lt_of_lt_of_le h.lt hb.size_le, ?_, ?_, ?_⟩
  · rw [hi, h.index]
  · rw [hd, h.length]
  · rw [hd]
    exact h.depth

/-- An argument is recorded whose place nobody else has. -/
theorem concat (h : Charted m size placed [] a) (hj : j < size) (hnew : ∀ p ∈ placed, p.1 ≠ j)
    (hb : a.setParamDepth m j depth = .ok b) (hc : b.setParamIndex m placed.length j = .ok c) :
    Charted m size (placed ++ [(j, depth)]) [] c := by
  have hentry : Seating.entry size j = j := if_pos hj
  rw [setParamDepth, paramSize, h.length, if_pos hj] at hb
  cases hb
  rw [setParamIndex] at hc
  split at hc
  · cases hc
    refine ⟨by simpa using h.lt, ?_, ?_, ?_⟩
    all_goals
      rw [node_update, if_pos ⟨rfl, by simpa using h.lt⟩, node_update,
        if_pos ⟨rfl, h.lt⟩]
    · rw [List.append_nil, List.map_append, List.map_singleton, ← Seating.fill_set,
        List.length_map, hentry, h.index, List.append_nil]
    · rw [List.length_set, h.length]
    · intro p hp hlt
      rcases List.mem_append.1 hp with hp | hp
      · rw [List.getElem?_set_ne (hnew p hp).symm]
        exact h.depth p hp hlt
      · obtain rfl := List.mem_singleton.1 hp
        exact List.getElem?_set_self (by rw [h.length]; exact hj)
  · cases hc

/-- Without room for its place an argument is passed over. -/
theorem skip (h : Charted m size placed [] a) (hj : size ≤ j) :
    Charted m size (placed ++ [(j, depth)]) [] a := by
  have hentry : Seating.entry size j = 0 := if_neg (Nat.not_lt.2 hj)
  refine ⟨h.lt, ?_, h.length, fun p hp hlt => ?_⟩
  · rw [h.index, List.append_nil, List.append_nil, List.map_append, List.map_singleton, hentry,
      Seating.fill_concat_zero]
  · rcases List.mem_append.1 hp with hp | hp
    · exact h.depth p hp hlt
    · obtain rfl := List.mem_singleton.1 hp
      exact absurd hlt (Nat.not_lt.2 hj)

/-- A parameter that is left is put after those before it. -/
theorem leave (h : Charted m size placed left a)
    (hb : a.setParamIndex m (placed.length + left.length) j = .ok b) :
    Charted m size placed (left ++ [j]) b := by
  rw [setParamIndex] at hb
  split at hb
  · cases hb
    refine ⟨by simpa using h.lt, ?_, ?_, ?_⟩
    all_goals rw [node_update, if_pos ⟨rfl, h.lt⟩]
    · rw [← List.append_assoc, ← Seating.fill_set, List.length_append, List.length_map, h.index]
    · exact h.length
    · exact h.depth
  · cases hb

/-- Without room for its entry a parameter is passed over. -/
theorem leave_out (h : Charted m size placed left a) (hsize : size ≤ placed.length + left.length) :
    Charted m size placed (left ++ [j]) a := by
  refine ⟨h.lt, ?_, h.length, h.depth⟩
  rw [← List.append_assoc, Seating.fill_concat_of_le, h.index]
  rwa [List.length_append, List.length_map]

end Charted

/-- A match without tables is given some in which nothing is recorded. -/
theorem Blank.charted (h : a.Blank m) (hb : a.setParamSize m size = .ok b) :
    Charted m size [] [] b := by
  obtain ⟨hk, -, -⟩ := h
  have hlt : m.index < a.size := lt_size_of_kind_ne (by rw [hk]; decide)
  rw [Arena.setParamSize] at hb
  split at hb
  · cases hb
  · split at hb
    · cases hb
    · split at hb
      · cases hb
      · cases hb
        refine ⟨by rwa [size_update], ?_, ?_, fun p hp => absurd hp List.not_mem_nil⟩
        · rw [node_update, if_pos ⟨rfl, hlt⟩, List.map_nil, List.append_nil, Seating.fill_nil]
        · rw [node_update, if_pos ⟨rfl, hlt⟩, List.length_replicate]

/-- The tables of a match are a proper assignment: each place is given once, and an argument finds
its own place and depth. -/
structure Proper (m : NodeId) (size : Nat) (placed : List (Nat × Int32)) (a : Arena) : Prop where
  /-- Each place is given once. -/
  perm : (a.node m).paramIndex.Perm (List.range size)
  /-- An argument finds its place. -/
  index : ∀ (i : Nat) (p : Nat × Int32), placed[i]? = some p → a.paramIndex m i = .ok p.1
  /-- The depth of an argument is found at its place. -/
  depth : ∀ p ∈ placed, a.paramDepth m p.1 = .ok p.2

/-- With proper tables every argument sits within them. -/
theorem Proper.lt {p : Nat × Int32} (h : a.Proper m size placed) (hp : p ∈ placed) : p.1 < size := by
  obtain ⟨i, hi⟩ := List.getElem?_of_mem hp
  have hindex := h.index i p hi
  rw [Arena.paramIndex] at hindex
  split at hindex
  · next j hj =>
    obtain rfl := Except.ok.inj hindex
    exact List.mem_range.1 (h.perm.subset (List.mem_of_getElem? hj))
  · cases hindex

/-- **Tables are proper unless an argument sits behind the parameters while a parameter is left
without one.** -/
theorem Charted.proper_iff {k : Nat}
    (h : Charted m (max k placed.length) placed (Seating.vacant k (placed.map Prod.fst)) a)
    (hfair : Seating.Fair k (placed.map Prod.fst)) (hk : 0 < k) :
    a.Proper m (max k placed.length) placed ↔
      (∀ p ∈ placed, p.1 < k) ∨ ∀ j < k, j ∈ placed.map Prod.fst := by
  have hfits := Seating.fits_iff hfair
  rw [List.length_map, List.forall_mem_map] at hfits
  rw [← hfits]
  refine ⟨fun hproper => Classical.by_contradiction fun hnot => ?_, fun hsize => ?_⟩
  · obtain ⟨j, hj, hle⟩ := Seating.exists_beyond hfair hk (by rwa [List.length_map])
    obtain ⟨p, hp, rfl⟩ := List.mem_map.1 hj
    rw [List.length_map] at hle
    exact Nat.not_lt.2 hle (hproper.lt hp)
  · have hindex : (a.node m).paramIndex =
        placed.map Prod.fst ++ Seating.vacant k (placed.map Prod.fst) := by
      rw [h.index, ← Seating.indexTable_eq hfair hsize, Seating.indexTable, List.map_map]
      rfl
    have hlt : ∀ p ∈ placed, p.1 < max k placed.length := fun p hp => by
      have hmem := (Seating.perm_vacant hfair).subset
        (List.mem_append_left _ (List.mem_map_of_mem hp))
      rwa [List.mem_range, hsize] at hmem
    refine ⟨?_, fun i p hi => ?_, fun p hp => ?_⟩
    · rw [hindex, ← hsize]
      exact Seating.perm_vacant hfair
    · have hget : (a.node m).paramIndex[i]? = some p.1 := by
        have hi' : (placed.map Prod.fst)[i]? = some p.1 := by rw [List.getElem?_map, hi]; rfl
        rw [hindex, List.getElem?_append_left (List.getElem?_eq_some_iff.1 hi').1, hi']
      rw [Arena.paramIndex, hget]
    · rw [Arena.paramDepth, h.depth p hp (hlt p hp)]

end Arena

end SymbolTree
