import SymbolTree.Proofs.Arena.Discard

/-!
# Cleaning a tree

The unknown nodes below a node are taken out of the tree and discarded.  The children of a node are
gone through from the last to the first, so that taking one out does not move those that are still
to come.  What hangs below an unknown node is not looked at any more; it dies with it, and so does
the attribute node of everything there, which may be shared with nodes that stay.

The proof compares every state on the way with the arena in the beginning: some nodes were removed
(`Arena.Swept`), and these are the first unknown ones on the ways down (`Arena.Topmost`) from the
children that had their turn.

## Main statements

* `Arena.Swept.discard` — taking one more node out and discarding it.
* `Arena.ensures_cleanTreeFrom` — which nodes a cleaning removes.
* `cleanTree_exact` — what becomes of every node.
-/

set_option autoImplicit false
namespace SymbolTree

open Relation (ReflTransGen TransGen)

namespace Arena

variable {a b d : Arena} {n m c x u : NodeId} {removed : NodeId → Prop}

/-! ## Nodes that are removed -/

open Classical in
/-- Some nodes were taken out of the tree, each died with all that it owns, and nothing else
happened. -/
structure Swept (a : Arena) (removed : NodeId → Prop) (b : Arena) : Prop where
  /-- A removed node has no parent and is no child, and some nodes are dead; beside that every node
  is as it was. -/
  node : ∀ m, b.node m = { a.node m with
    parent := if removed m then none else a.parent m
    children := (a.children m).filter fun c => ¬ removed c
    alive := b.isAlive m }
  /-- What died is what the removed nodes own. -/
  dead : ∀ m, b.isAlive m = false ↔
    a.isAlive m = false ∨ ∃ u, removed u ∧ ReflTransGen a.Owns u m
  /-- There are as many nodes. -/
  size : b.size = a.size
  /-- All locks are as they were. -/
  locks : b.locks = a.locks

theorem Swept.refl (a : Arena) : a.Swept (fun _ => False) a where
  node m := by simp [parent, children, isAlive]
  dead m := by simp
  size := rfl
  locks := rfl

namespace Swept

open Classical in
theorem children (h : a.Swept removed b) (m : NodeId) :
    b.children m = (a.children m).filter fun c => ¬ removed c := by
  rw [Arena.children, h.node]

theorem kind (h : a.Swept removed b) (m : NodeId) : b.kind m = a.kind m := by
  rw [Arena.kind, h.node, Arena.kind]

theorem mem_children (h : a.Swept removed b) :
    c ∈ b.children m ↔ c ∈ a.children m ∧ ¬ removed c := by
  rw [h.children, List.mem_filter]
  simp

theorem under_iff (h : a.Swept removed b) : b.Under m x ↔ a.Under m x ∧ ¬ removed m := by
  rw [Under, parent, h.node, Under]
  by_cases hm : removed m <;> simp [hm]

theorem consistent (h : a.Swept removed b) (ha : a.Consistent) : b.Consistent where
  nodup m := by
    rw [h.children]
    exact (ha.nodup m).filter _
  mem_children p m := by
    rw [h.mem_children, ha.mem_children]
    exact h.under_iff.symm
  parent_lt m p hp := by
    rw [h.size]
    exact ha.parent_lt m p (h.under_iff.1 hp).1
  child_lt p m hm := by
    rw [h.size]
    exact ha.child_lt p m (h.mem_children.1 hm).1
  locks_size := by
    rw [h.locks, h.size]
    exact ha.locks_size
  canBeParent m hm := by
    rw [h.kind]
    refine ha.canBeParent m fun hnil => hm ?_
    rw [h.children, hnil]
    rfl
  canBeChild m hm := by
    obtain ⟨p, hp⟩ := Option.ne_none_iff_exists'.1 hm
    rw [h.kind]
    refine ha.canBeChild m fun hnone => ?_
    rw [(h.under_iff.1 hp).1] at hnone
    cases hnone

theorem congr {removed' : NodeId → Prop} (h : a.Swept removed b)
    (hiff : ∀ u, removed u ↔ removed' u) : a.Swept removed' b := by
  obtain rfl : removed = removed' := funext fun u => propext (hiff u)
  exact h

section

variable (h : a.Swept removed b) (ha : a.Consistent)
include h ha

theorem mem_children_detach :
    m ∈ (b.detach c).children x ↔ m ∈ a.children x ∧ ¬ removed m ∧ m ≠ c := by
  have hb := h.consistent ha
  rw [children_detach hb, (hb.nodup x).mem_erase_iff, h.mem_children, and_comm, and_assoc]

theorem attributeNode_detach (c x : NodeId) :
    ((b.detach c).node x).attributeNode = (a.node x).attributeNode := by
  rw [node_detach (h.consistent ha), h.node]

theorem owns_of_gathers_detach (hm : (b.detach c).Gathers c m) : ReflTransGen a.Owns c m :=
  ReflTransGen.mono (fun x _ hxy => hxy.2.imp (fun hy => ((h.mem_children_detach ha).1 hy).1)
    (h.attributeNode_detach ha c x).symm.trans) c m hm

/-- Where a way along what was owned is not met any more, something on it was removed before. -/
theorem gathers_detach_of_owns (hc : ∀ m, ReflTransGen a.Owns c m → a.isAlive m = true)
    (hm : ReflTransGen a.Owns c m) :
    (∃ u, removed u ∧ ReflTransGen a.Owns u m) ∨ (b.detach c).Gathers c m := by
  induction hm with
  | refl => exact .inr .refl
  | @tail x y hx hxy ih =>
    rcases ih with ⟨u, hu, hux⟩ | hgathers
    · exact .inl ⟨u, hu, hux.tail hxy⟩
    · cases hlive : b.isAlive x with
      | false =>
        obtain ⟨u, hu, hux⟩ := ((h.dead x).1 hlive).resolve_left (by simp [hc x hx])
        exact .inl ⟨u, hu, hux.tail hxy⟩
      | true =>
        by_cases hy : removed y
        · exact .inl ⟨y, hy, .refl⟩
        · by_cases hyc : y = c
          · exact .inr (hyc ▸ .refl)
          · have halive := (isAlive_detach (h.consistent ha) c x).trans hlive
            refine .inr (hgathers.tail ⟨halive, ?_⟩)
            exact hxy.imp (fun hyx => (h.mem_children_detach ha).2 ⟨hyx, hy, hyc⟩)
              (h.attributeNode_detach ha c x).trans

/-- **One more node is taken out and discarded.**  All that it owned was alive in the beginning. -/
theorem discard (hc : ∀ m, ReflTransGen a.Owns c m → a.isAlive m = true)
    (hlive : b.isAlive c = true) (hd : (b.detach c).discard c = .ok d) :
    a.Swept (fun u => removed u ∨ u = c) d := by
  have hb := h.consistent ha
  have halive := isAlive_detach hb c
  have hretires := retires_of_discard ((halive c).trans hlive) hd
  refine ⟨fun m => ?_, fun m => ?_, ?_, ?_⟩
  · rw [hretires.node, node_detach hb, parent, h.node]
    refine congrArg₂ (fun p l => ({ a.node m with parent := p, children := l, alive := d.isAlive m }
      : Node)) ?_ ?_
    · by_cases hm : m = c <;> by_cases hr : removed m <;> simp [hm, hr]
    · rw [← hb.filter_ne, h.children, List.filter_filter]
      refine List.filter_congr fun x _ => ?_
      by_cases hx : x = c <;> by_cases hr : removed x <;> simp [hx, hr]
  · rw [hretires.isAlive_eq_false_iff, halive, h.dead]
    constructor
    · rintro ((hm | ⟨u, hu, hum⟩) | hm)
      · exact .inl hm
      · exact .inr ⟨u, .inl hu, hum⟩
      · exact .inr ⟨c, .inr rfl, h.owns_of_gathers_detach ha hm⟩
    · rintro (hm | ⟨u, hu | rfl, hum⟩)
      · exact .inl (.inl hm)
      · exact .inl (.inr ⟨u, hu, hum⟩)
      · exact (h.gathers_detach_of_owns ha hc hum).imp_left .inr
  · simp [hretires.size, h.size]
  · simp [hretires.locks, h.locks]

end

end Swept

/-! ## The run -/

/-- The node `u` is unknown, and the first such node on the way down from `c`. -/
inductive Topmost (a : Arena) : NodeId → NodeId → Prop
  /-- The way begins with an unknown node. -/
  | here {c : NodeId} : a.kind c = .unknown → Topmost a c c
  /-- The way goes on below a known one. -/
  | further {c d u : NodeId} : a.kind c ≠ .unknown → a.Under d c → Topmost a d u → Topmost a c u

/-- The first unknown nodes below a node. -/
def TopmostBelow (a : Arena) (x u : NodeId) : Prop := ∃ c, a.Under c x ∧ a.Topmost c u

theorem Topmost.inside (h : a.Topmost c u) : a.Inside u c := by
  induction h with
  | here => exact .refl
  | further _ hd _ ih => exact ih.tail hd

theorem topmost_iff_of_unknown (hc : a.kind c = .unknown) : a.Topmost c u ↔ u = c := by
  constructor
  · rintro (_ | ⟨hne, -, -⟩)
    · rfl
    · exact absurd hc hne
  · rintro rfl
    exact .here hc

theorem topmost_iff_of_known (hc : a.kind c ≠ .unknown) : a.Topmost c u ↔ a.TopmostBelow c u := by
  constructor
  · rintro (hunknown | ⟨-, hd, hu⟩)
    · exact absurd hunknown hc
    · exact ⟨_, hd, hu⟩
  · rintro ⟨d, hd, hu⟩
    exact .further hc hd hu

/-- Nothing stands below two children of a node that is not below itself. -/
theorem not_inside_sibling {y : NodeId} (hx : ¬ TransGen a.Under x x) (hc : a.Under c x)
    (hy : a.Under y x) (hne : c ≠ y) (hu : a.Inside u c) : ¬ a.Inside u y := by
  intro huy
  have hunder : ∀ {z w}, a.Under z x → a.Under w x → z ≠ w → ¬ a.Inside z w := by
    intro z w hz hw hne hzw
    rcases ReflTransGen.cases_head hzw with rfl | ⟨v, hv, hvw⟩
    · exact hne rfl
    · obtain rfl : x = v := Option.some.inj (hz.symm.trans hv)
      exact hx (.tail' hvw hw)
  have hunique : Relator.RightUnique a.Under :=
    fun _ _ _ hv hw => Option.some.inj (hv.symm.trans hw)
  rcases ReflTransGen.total_of_right_unique hunique hu huy with h | h
  · exact hunder hc hy hne h
  · exact hunder hy hc (Ne.symm hne) h

open Edit in
/-- When its turn comes, a child goes if it is unknown, or the first unknown nodes below it do. -/
theorem ensures_cleanChild {clean : NodeId → Edit Unit} {i : Nat} (ha : a.Consistent)
    (hc : ∀ m, ReflTransGen a.Owns c m → a.isAlive m = true)
    (hplace : ∀ b, a.Swept removed b → (b.children x)[i]? = some c)
    (hclean : a.kind c ≠ .unknown → Ensures (a.Swept removed) (clean c)
      (fun _ => a.Swept fun u => removed u ∨ a.TopmostBelow c u) fun _ _ => True) :
    Ensures (a.Swept removed) (cleanChild clean x i)
      (fun _ => a.Swept fun u => removed u ∨ a.Topmost c u) fun _ _ => True := by
  have hlookup : Ensures (a.Swept removed) (checked fun a => return (← a.child x i, a))
      (fun c' b => a.Swept removed b ∧ c' = c) fun _ _ => True := by
    refine ensures_checked.mono (fun _ h => h) (fun c' b h => ?_) fun _ _ _ => trivial
    obtain ⟨b', hb, h⟩ := h
    obtain ⟨c'', hc', h⟩ := bind_eq_ok_iff.1 h
    obtain ⟨rfl, rfl⟩ := Prod.mk.inj (Except.ok.inj h)
    exact ⟨hb, Option.some.inj ((child_eq_ok_iff.1 hc').symm.trans (hplace _ hb))⟩
  refine Ensures.bind_of hlookup fun c' hc' => Ensures.get_bind fun b hb => ?_
  subst hc'
  rw [hb.kind]
  split
  · next hunknown =>
    have hdelete : Ensures (· = b) (checked (·.deleteChild x i))
        (fun _ d => b.isAlive c' = true ∧ d = b.detach c') fun _ _ => True := by
      refine ensures_checked.mono (fun _ h => h) (fun c'' d h => ?_) fun _ _ _ => trivial
      obtain ⟨_, rfl, hd⟩ := h
      obtain ⟨hget, -, hfree, rfl⟩ := eq_detach_of_deleteChild (hb.consistent ha) hd
      obtain rfl : c'' = c' := Option.some.inj (hget.symm.trans (hplace _ hb))
      exact ⟨(modifying_eq_ok_iff.1 hfree).1, rfl⟩
    refine hdelete.bind fun _ => ensures_change.mono (fun _ h => h) (fun _ e h => ?_)
      fun _ _ _ => trivial
    obtain ⟨_, ⟨hlive, rfl⟩, he⟩ := h
    refine (hb.discard ha hc hlive he).congr fun u => ?_
    rw [topmost_iff_of_unknown hunknown]
  · next hknown =>
    refine (hclean hknown).mono (fun _ h => h ▸ hb) (fun _ e he => ?_) fun _ _ h => h
    exact he.congr fun u => by rw [topmost_iff_of_known hknown]

/-- The children that had their turn are the last ones; those before them stand where they stood. -/
theorem ensures_cleanChildren {clean : NodeId → Edit Unit} (ha : a.Consistent)
    (halive : ∀ m, ReflTransGen a.Owns x m → a.isAlive m = true) (hx : ¬ TransGen a.Under x x)
    (hclean : ∀ c, a.Under c x → ∀ removed, (∀ u, removed u → ¬ a.Inside u c) →
      Ensures (a.Swept removed) (clean c) (fun _ => a.Swept fun u => removed u ∨ a.TopmostBelow c u)
        fun _ _ => True) {before behind : List NodeId}
    (hchildren : a.children x = before ++ behind)
    (hremoved : ∀ u, removed u → ∀ c ∈ before, ¬ a.Inside u c) :
    Ensures (a.Swept removed) (Edit.cleanChildren clean x before.length)
      (fun _ => a.Swept fun u => removed u ∨ ∃ c ∈ before, a.Topmost c u) fun _ _ => True := by
  induction before using List.reverseRecOn generalizing behind removed with
  | nil => exact Ensures.pure fun b hb => hb.congr fun u => by simp
  | append_singleton before c ih =>
    have hmem : ∀ y ∈ before ++ [c], y ∈ a.children x := fun y hy =>
      hchildren ▸ List.mem_append_left behind hy
    have hunder : ∀ y ∈ before ++ [c], a.Under y x := fun y hy =>
      (ha.mem_children x y).1 (hmem y hy)
    have hcx := hunder c (by simp)
    have hcbefore : c ∉ before := fun hc => by
      have hnodup : (before ++ [c]).Nodup := (hchildren ▸ ha.nodup x).of_append_left
      exact (List.nodup_append.1 hnodup).2.2 c hc c (by simp) rfl
    have hplace : ∀ b, a.Swept removed b → (b.children x)[before.length]? = some c := fun b hb => by
      rw [hb.children, hchildren, List.filter_append, List.filter_eq_self.2 fun y hy => ?_]
      · simp
      · simpa using fun hr => hremoved y hr y hy .refl
    rw [List.length_append, List.length_singleton]
    refine (ensures_cleanChild ha (fun m hm => halive m (.head (.inl (hmem c (by simp))) hm)) hplace
      fun _ => hclean c hcx removed fun u hu => hremoved u hu c (by simp)).bind fun _ => ?_
    refine (ih (by rw [hchildren, List.append_assoc]) fun u hu y hy => ?_).mono (fun _ h => h)
      (fun _ b hb => hb.congr fun u => ?_) fun _ _ h => h
    · rcases hu with hu | hu
      · exact hremoved u hu y (by simp [hy])
      · exact not_inside_sibling hx hcx (hunder y (by simp [hy]))
          (ne_of_mem_of_not_mem hy hcbefore).symm hu.inside
    · simp only [List.mem_append, List.mem_singleton, or_and_right, exists_or, exists_eq_left]
      rw [or_assoc, or_comm (a := a.Topmost c u)]

/-- **A cleaning removes the first unknown nodes below a node**, provided nothing there was removed
before. -/
theorem ensures_cleanTreeFrom (ha : a.Consistent) {fuel : Nat} (hfuel : a.Shallow fuel x)
    (halive : ∀ m, ReflTransGen a.Owns x m → a.isAlive m = true)
    (hloop : ∀ m, a.Inside m x → ¬ TransGen a.Under m m)
    (hremoved : ∀ u, removed u → ¬ a.Inside u x) :
    Ensures (a.Swept removed) (Edit.cleanTreeFrom fuel x)
      (fun _ => a.Swept fun u => removed u ∨ a.TopmostBelow x u) fun _ _ => True := by
  induction fuel generalizing x removed with
  | zero => exact hfuel.elim
  | succ fuel ih =>
    refine Ensures.get_bind fun b hb => ?_
    have hunder : ∀ c ∈ a.children x, a.Under c x := fun c => (ha.mem_children x c).1
    have hsame : b.children x = a.children x := by
      rw [hb.children]
      refine List.filter_eq_self.2 fun c hc => ?_
      simpa using fun hr => hremoved c hr (.single (hunder c hc))
    rw [hsame]
    refine (ensures_cleanChildren ha halive (hloop x .refl) (fun c hc removed hr => ?_)
      (List.append_nil _).symm fun u hu c hc huc => ?_).mono (fun _ h => h ▸ hb)
      (fun _ d hd => hd.congr fun u => ?_) fun _ _ h => h
    · have hmem : c ∈ a.children x := (ha.mem_children x c).2 hc
      exact ih (hfuel c hmem) (fun m hm => halive m (.head (.inl hmem) hm))
        (fun m hm => hloop m (hm.tail hc)) hr
    · exact hremoved u hu (huc.tail (hunder c hc))
    · simp only [TopmostBelow, ha.mem_children, Under]

/-! ## What becomes of the tree -/

/-- Every unknown node belongs to a first one. -/
theorem exists_topmostBelow (hu : TransGen a.Under u n) (hunknown : a.kind u = .unknown) :
    ∃ t, a.TopmostBelow n t ∧ a.Inside u t := by
  obtain ⟨c, huc, hc⟩ := TransGen.tail'_iff.1 hu
  suffices h : ∃ t, a.Topmost c t ∧ a.Inside u t from
    let ⟨t, ht, hut⟩ := h
    ⟨t, ⟨c, hc, ht⟩, hut⟩
  clear hc
  induction huc with
  | refl => exact ⟨u, .here hunknown, .refl⟩
  | @tail x y hux hy ih =>
    by_cases hyk : a.kind y = .unknown
    · exact ⟨y, .here hyk, hux.tail hy⟩
    · obtain ⟨t, ht, hut⟩ := ih
      exact ⟨t, .further hyk hy ht, hut⟩

theorem Topmost.unknown (h : a.Topmost c u) : a.kind u = .unknown := by
  induction h with
  | here hu => exact hu
  | further _ _ _ ih => exact ih

theorem TopmostBelow.unknown (h : a.TopmostBelow n u) : a.kind u = .unknown :=
  let ⟨_, _, hu⟩ := h
  hu.unknown

theorem TopmostBelow.below (h : a.TopmostBelow n u) : TransGen a.Under u n :=
  let ⟨_, hc, hu⟩ := h
  .tail' hu.inside hc

/-- A node owns what stands below it. -/
theorem owns_of_inside (ha : a.Consistent) (h : a.Inside m x) : ReflTransGen a.Owns x m :=
  ReflTransGen.mono (fun _ _ hyz => .inl ((ha.mem_children _ _).2 hyz)) x m
    (ReflTransGen.swap x m h)

theorem OwnsNoLoop.not_below_self (h : a.OwnsNoLoop n) (ha : a.Consistent) (hm : a.Inside m n) :
    ¬ TransGen a.Under m m := fun hloop =>
  h m (owns_of_inside ha hm) (TransGen.mono (fun _ _ hyz => .inl ((ha.mem_children _ _).2 hyz)) m m
    (TransGen.swap m m hloop))

/-- Where what is owned is alive, the children are among what is met. -/
theorem GathersWithin.shallow {k : Nat} (h : a.GathersWithin k n)
    (halive : ∀ m, ReflTransGen a.Owns n m → a.isAlive m = true) : a.Shallow k n := by
  induction k generalizing n with
  | zero => exact h
  | succ k ih =>
    exact fun c hc => ih (h (halive n .refl) c (.inl hc)) fun m hm => halive m (.head (.inl hc) hm)

/-- The unknown nodes below `n` were removed with all that they own, and nothing else happened. -/
structure Cleans (a b : Arena) (n : NodeId) : Prop where
  /-- No unknown node is left below. -/
  known : ∀ m, TransGen b.Under m n → b.kind m ≠ .unknown
  /-- A node that stood below still does unless it was unknown or stood below an unknown one. -/
  stays_iff : ∀ m, TransGen a.Under m n → (TransGen b.Under m n ↔
    ∀ x, a.Inside m x → TransGen a.Under x n → a.kind x ≠ .unknown)
  /-- Nothing came, and what is left stands below the parent that it had. -/
  parent : ∀ m, TransGen b.Under m n → TransGen a.Under m n ∧ b.parent m = a.parent m
  /-- Whatever is left has the known ones of its children, in their order. -/
  children : ∀ m, b.Inside m n → b.children m = (a.children m).filter (a.kind · ≠ .unknown)
  /-- What died is what the unknown nodes own. -/
  dead_iff : ∀ m, b.isAlive m = false ↔ a.isAlive m = false ∨
    ∃ u, TransGen a.Under u n ∧ a.kind u = .unknown ∧ ReflTransGen a.Owns u m
  /-- What neither stood in the tree nor was owned by an unknown node there is as it was. -/
  others : ∀ m, ¬ a.Inside m n →
    (∀ u, TransGen a.Under u n → a.kind u = .unknown → ¬ ReflTransGen a.Owns u m) →
    b.node m = a.node m
  /-- Apart from its relatives and its death, every node is as it was. -/
  rest : ∀ m, b.node m = { a.node m with
    parent := b.parent m, children := b.children m, alive := b.isAlive m }
  /-- There are as many nodes. -/
  size : b.size = a.size
  /-- All locks are as they were. -/
  locks : b.locks = a.locks

namespace Swept

/-- Whatever is left below a node that is not below itself stood below nothing that was removed. -/
theorem not_inside_topmost (h : a.Swept (a.TopmostBelow n) b) (hn : ¬ TransGen a.Under n n)
    (hm : b.Inside m n) (hu : a.TopmostBelow n u) : ¬ a.Inside m u := by
  intro hmu
  induction hm using ReflTransGen.head_induction_on with
  | refl => exact hn (.trans_right hmu hu.below)
  | @head x y hxy _ ih =>
    obtain ⟨hxy, hx⟩ := h.under_iff.1 hxy
    rcases ReflTransGen.cases_head hmu with rfl | ⟨z, hz, hzu⟩
    · exact hx hu
    · exact ih (Option.some.inj (hxy.symm.trans hz) ▸ hzu)

theorem below (h : a.Swept removed b) (hm : TransGen b.Under m n) : TransGen a.Under m n :=
  TransGen.mono (fun _ _ hxy => (h.under_iff.1 hxy).1) m n hm

section

variable (h : a.Swept (a.TopmostBelow n) b) (ha : a.Consistent) (hn : ¬ TransGen a.Under n n)

include h hn in
/-- Above what is left nothing is unknown. -/
theorem known_above (hm : TransGen b.Under m n) (hmx : a.Inside m x) (hx : TransGen a.Under x n) :
    a.kind x ≠ .unknown := fun hunknown => by
  obtain ⟨t, ht, hxt⟩ := exists_topmostBelow hx hunknown
  exact h.not_inside_topmost hn hm.to_reflTransGen ht (hmx.trans hxt)

include h in
/-- Where nothing above is unknown nothing is taken out. -/
theorem below_of_known (hm : TransGen a.Under m n)
    (hknown : ∀ x, a.Inside m x → TransGen a.Under x n → a.kind x ≠ .unknown) :
    TransGen b.Under m n := by
  have hstays : ∀ {x y}, a.Under x y → a.kind x ≠ .unknown → b.Under x y := fun hxy hx =>
    h.under_iff.2 ⟨hxy, fun ht => hx ht.unknown⟩
  induction hm using TransGen.head_induction_on with
  | @single x hx => exact .single (hstays hx (hknown x .refl (.single hx)))
  | @head x y hx hy ih =>
    exact .head (hstays hx (hknown x .refl (.head hx hy))) (ih fun z hz => hknown z (.head hx hz))

include h ha hn in
/-- Of the children of what is left the unknown ones are taken out. -/
theorem children_left (hm : b.Inside m n) :
    b.children m = (a.children m).filter (a.kind · ≠ .unknown) := by
  rw [h.children]
  refine List.filter_congr fun c hc => decide_eq_decide.2 (not_congr ⟨fun ht => ht.unknown, ?_⟩)
  intro hunknown
  have hcm : a.Under c m := (ha.mem_children m c).1 hc
  have hmn : a.Inside m n := ReflTransGen.mono (fun _ _ hxy => (h.under_iff.1 hxy).1) m n hm
  obtain ⟨t, ht, hct⟩ := exists_topmostBelow (.head' hcm hmn) hunknown
  rcases ReflTransGen.cases_head hct with rfl | ⟨y, hy, hyt⟩
  · exact ht
  · obtain rfl : m = y := Option.some.inj (hcm.symm.trans hy)
    exact absurd hyt (h.not_inside_topmost hn hm ht)

include h ha in
/-- What died is what the unknown nodes own, whether they are first ones or not. -/
theorem dead_iff : b.isAlive m = false ↔ a.isAlive m = false ∨
    ∃ u, TransGen a.Under u n ∧ a.kind u = .unknown ∧ ReflTransGen a.Owns u m := by
  rw [h.dead]
  refine or_congr_right ⟨?_, ?_⟩
  · rintro ⟨u, hu, hum⟩
    exact ⟨u, hu.below, hu.unknown, hum⟩
  · rintro ⟨u, hu, hunknown, hum⟩
    obtain ⟨t, ht, hut⟩ := exists_topmostBelow hu hunknown
    exact ⟨t, ht, (owns_of_inside ha hut).trans hum⟩

include h ha in
/-- A node outside the tree is as it was unless it died. -/
theorem node_outside (hm : ¬ a.Inside m n) (halive : b.isAlive m = a.isAlive m) :
    b.node m = a.node m := by
  have hparent : ¬ a.TopmostBelow n m := fun ht => hm ht.below.to_reflTransGen
  have hchildren : ∀ c ∈ a.children m, ¬ a.TopmostBelow n c := fun c hc ht => by
    obtain ⟨y, hy, hyn⟩ := TransGen.head'_iff.1 ht.below
    obtain rfl : m = y := Option.some.inj (((ha.mem_children m c).1 hc).symm.trans hy)
    exact hm hyn
  rw [h.node, if_neg hparent, halive, List.filter_eq_self.2 fun c hc => ?_]
  · rfl
  · simpa using hchildren c hc

include h ha hn in
/-- **What a cleaning removes makes a tree without unknown nodes.** -/
theorem cleans : a.Cleans b n := by
  refine ⟨fun m hm => ?_, fun m hm => ⟨fun hleft x => h.known_above hn hleft, h.below_of_known hm⟩,
    fun m hm => ⟨h.below hm, ?_⟩, fun m => h.children_left ha hn, fun m => h.dead_iff ha,
    fun m hm hown => h.node_outside ha hm ?_, fun m => ?_, h.size, h.locks⟩
  · rw [h.kind]
    exact h.known_above hn hm .refl (h.below hm)
  · obtain ⟨p, hp, -⟩ := TransGen.head'_iff.1 hm
    exact Eq.trans hp (h.under_iff.1 hp).1.symm
  · rw [← Bool.not_inj_iff, Bool.eq_iff_iff, Bool.not_eq_true', Bool.not_eq_true', h.dead_iff ha]
    exact or_iff_left fun ⟨u, hu, hunknown, hum⟩ => hown u hu hunknown hum
  · rw [Arena.parent, Arena.children, h.node]

end

end Swept

end Arena

/-- **A cleaning removes exactly the unknown subtrees**, in every arena that can be reached.  Where
what a node owns is alive and has no loops, a cleaning from it that is granted leaves no unknown
node below it and takes nothing else out; what dies is what the unknown nodes own.  It does not
depend on how deep the walk may go. -/
theorem cleanTree_exact (history : List Command) (n : NodeId)
    (halive : ∀ m, ReflTransGen (after history).Owns n m → (after history).isAlive m = true)
    (hloop : (after history).OwnsNoLoop n) :
    (∀ steps, (after history).size < steps →
      (Edit.cleanTreeFrom steps n).exec (after history)
        = (Command.cleanTree n).run.exec (after history)) ∧
    ∀ b, (Command.cleanTree n).run.exec (after history) = (.ok (), b) →
      (after history).Cleans b n := by
  have ha := after_invariant Arena.consistent_empty Command.keeps_consistent history
  generalize after history = a at ha halive hloop ⊢
  have hshallow : ∀ steps, a.size < steps → a.Shallow steps n := fun steps hsteps =>
    (hloop.gathersWithin List.nodup_nil nofun hsteps).shallow halive
  refine ⟨fun steps hsteps => ?_, fun b hb => ?_⟩
  · exact Edit.exec_cleanTreeFrom_congr ha (hshallow steps hsteps)
      (hshallow (a.size + 1) (Nat.lt_succ_self _))
  · have hswept := (Arena.ensures_cleanTreeFrom ha (hshallow (a.size + 1) (Nat.lt_succ_self _))
      halive (fun m hm => hloop.not_below_self ha hm) fun _ hf => hf.elim).of_ok (.refl a) hb
    exact (hswept.congr fun u => .of_eq (false_or _)).cleans ha (hloop.not_below_self ha .refl)

/-- Two unknown nodes in a row, one with a name and with attributes that a class outside shares,
and a third one in a list that stays. -/
def untidyHistory : List Command :=
  [.create .identifier {}, .create .attributes {}, .create .identifier {}, .create .unknown {},
   .create .unknown {}, .create .unknown {}, .create .identifier {}, .create .list {},
   .create .class_ {}, .create .directiveList {}, .appendChild ⟨3⟩ ⟨2⟩,
   .setAttributeNode ⟨3⟩ (some ⟨1⟩), .setAttributeNode ⟨8⟩ (some ⟨1⟩), .appendChild ⟨7⟩ ⟨5⟩,
   .appendChild ⟨7⟩ ⟨6⟩, .appendChild ⟨9⟩ ⟨0⟩, .appendChild ⟨9⟩ ⟨3⟩, .appendChild ⟨9⟩ ⟨4⟩,
   .appendChild ⟨9⟩ ⟨7⟩]

/-- The unknown nodes go, and with them the attributes that the class shared. -/
theorem cleanTree_exact_untidy :
    (∀ m, ReflTransGen (after untidyHistory).Owns ⟨9⟩ m → (after untidyHistory).isAlive m = true) ∧
      (after untidyHistory).OwnsNoLoop ⟨9⟩ ∧
      ∃ b, (Command.cleanTree ⟨9⟩).run.exec (after untidyHistory) = (.ok (), b) ∧
        (after untidyHistory).Cleans b ⟨9⟩ ∧ b.children ⟨9⟩ = [⟨0⟩, ⟨7⟩] ∧
        b.children ⟨7⟩ = [⟨6⟩] ∧
        (List.range 10).filter (fun i => b.isAlive ⟨i⟩) = [0, 6, 7, 8, 9] := by
  have hearlier : (after untidyHistory).OwnsEarlier := by decide +kernel
  have hlive : ∀ i < 10, (after untidyHistory).isAlive ⟨i⟩ = true := by decide +kernel
  have halive : ∀ m, ReflTransGen (after untidyHistory).Owns ⟨9⟩ m →
      (after untidyHistory).isAlive m = true := fun m hm => by
    have hle : m.index ≤ 9 := by
      induction hm with
      | refl => exact Nat.le_refl 9
      | tail _ hxy ih => exact Nat.le_trans (Nat.le_of_lt (hearlier.lt hxy)) ih
    exact hlive m.index (Nat.lt_succ_of_le hle)
  have hloop := hearlier.ownsNoLoop ⟨9⟩
  have hexec : (Command.cleanTree ⟨9⟩).run.exec (after untidyHistory)
      = (.ok (), ((Command.cleanTree ⟨9⟩).run.exec (after untidyHistory)).2) :=
    Prod.ext (by decide +kernel) (by dsimp only)
  exact ⟨halive, hloop, _, hexec, (cleanTree_exact untidyHistory ⟨9⟩ halive hloop).2 _ hexec,
    by decide +kernel, by decide +kernel, by decide +kernel⟩

end SymbolTree
