import SymbolTree.Proofs.Arena.Refusal
import SymbolTree.Proofs.Search.Selection.Verdict
import SymbolTree.Proofs.Search.Yields

/-!
# The choice among overloaded functions

`Search.selectBestFunction` goes through the matches among the arguments of a call and drops the
worse of two as soon as they are compared.  This file shows that it comes to the verdict of
`Selection.verdict` on their tables (`Search.exec_selectBestFunction`), and so when its answer
depends on the order in which the functions were declared.

The matches are those that the search itself makes: each of a function of its own, with nothing
below it (`Arena.Contest`).  Functions of different classes are left out, since the choice between
two of them may look at the classes.

## Main statements

* `Search.selection_stable_iff` — the same function is chosen in every order, unless one match is
  better than all the others and there are two of these of which neither is better.
* `Search.selection_depends_on_order` — three functions for which it is not.
-/

set_option autoImplicit false
namespace SymbolTree

open Selection

namespace Arena

/-- The table of a match: how well each parameter is met. -/
def depths (a : Arena) (m : NodeId) : List Int32 := (a.node m).paramDepth

/-- The table of one match is better than that of another. -/
def beats (a : Arena) (x y : NodeId) : Bool := outdoes (a.depths x) (a.depths y)

/-- The matches among some nodes. -/
def candidates (a : Arena) (l : List NodeId) : List NodeId :=
  l.filter fun m => a.kind m = .paramMatch

theorem mem_candidates {a : Arena} {l : List NodeId} {m : NodeId} :
    m ∈ a.candidates l ↔ m ∈ l ∧ a.kind m = .paramMatch := by
  rw [candidates, List.mem_filter, decide_eq_true_iff]

/-- Among the arguments there are matches between which the choice lies. -/
structure Contest (a : Arena) (p : NodeId) : Prop where
  /-- Parents and children agree. -/
  consistent : a.Consistent
  /-- The list of the arguments is free to change. -/
  free : a.modifying p = .ok ()
  /-- There is a match. -/
  exists_candidate : a.candidates (a.children p) ≠ []
  /-- A match is free to change. -/
  loose : ∀ m ∈ a.candidates (a.children p), a.modifying m = .ok ()
  /-- Nothing hangs below a match. -/
  leaf : ∀ m ∈ a.candidates (a.children p), a.children m = [] ∧ (a.node m).attributeNode = none
  /-- A match is one of a function. -/
  function : ∀ m ∈ a.candidates (a.children p), ∃ f, a.inst m = some f ∧ a.kind f ≠ .paramMatch
  /-- Each is one of another function. -/
  distinct : ∀ x ∈ a.candidates (a.children p), ∀ y ∈ a.candidates (a.children p),
    a.inst x = a.inst y → x = y
  /-- No two of the functions are members of different classes. -/
  oneClass : ∀ x ∈ a.candidates (a.children p), ∀ y ∈ a.candidates (a.children p),
    ∀ b ∈ (a.inst x).bind a.classOfMember, ∀ c ∈ (a.inst y).bind a.classOfMember, b = c
  /-- Tables with entries have the same length. -/
  sameLength : ∀ x ∈ a.candidates (a.children p), ∀ y ∈ a.candidates (a.children p),
    a.depths x ≠ [] → a.depths y ≠ [] → (a.depths x).length = (a.depths y).length

/-- An arena that is like `a`, but that the arguments are those of `l` in this order.  Matches that
are not in `l` may be gone. -/
structure Lineup (a b : Arena) (p : NodeId) (l : List NodeId) : Prop where
  /-- Parents and children agree. -/
  consistent : b.Consistent
  /-- There are as many nodes. -/
  size : b.size = a.size
  /-- The locks are the same. -/
  lockCount : b.lockCount = a.lockCount
  /-- The kinds are the same. -/
  kind : b.kind = a.kind
  /-- The arguments are those of `l`. -/
  children : b.children p = l
  /-- No argument is new. -/
  subset : ∀ n ∈ l, n ∈ a.children p
  /-- Other children are the same. -/
  others : ∀ n, n ≠ p → b.children n = a.children n
  /-- Apart from its children, a node is as it was. -/
  node : ∀ n, (n ∈ a.candidates (a.children p) → n ∈ l) →
    b.node n = { a.node n with children := b.children n }

variable {a b : Arena} {p m n : NodeId} {l : List NodeId}

namespace Contest

theorem not_mem (h : a.Contest p) : p ∉ a.candidates (a.children p) := fun hp => by
  have hmem := (mem_candidates.1 hp).1
  rw [(h.leaf p hp).1] at hmem
  cases hmem

/-- A match is not the parent of anything. -/
theorem parent_ne (h : a.Contest p) (hm : m ∈ a.candidates (a.children p)) (n : NodeId) :
    a.parent n ≠ some m := fun hn => by
  have hmem := (h.consistent.mem_children m n).2 hn
  rw [(h.leaf m hm).1] at hmem
  cases hmem

theorem not_mem_of_kind (hk : a.kind n ≠ .paramMatch) (l : List NodeId) : n ∉ a.candidates l :=
  fun hn => hk (mem_candidates.1 hn).2

/-- Different choices are choices of different functions. -/
theorem inst_inj (h : a.Contest p) {o o' : Option NodeId}
    (ho : ∀ m ∈ o, m ∈ a.candidates (a.children p))
    (ho' : ∀ m ∈ o', m ∈ a.candidates (a.children p)) (he : o.bind a.inst = o'.bind a.inst) :
    o = o' := by
  have hsome : ∀ {o : Option NodeId}, (∀ m ∈ o, m ∈ a.candidates (a.children p)) →
      o.bind a.inst = none → o = none := by
    intro o ho hnone
    refine Option.eq_none_iff_forall_ne_some.2 fun m hm => ?_
    obtain ⟨f, hf, -⟩ := h.function m (ho m hm)
    rw [hm, Option.bind_some, hf] at hnone
    cases hnone
  cases hq : o.bind a.inst with
  | none => rw [hsome ho hq, hsome ho' (he ▸ hq)]
  | some f =>
    obtain ⟨m, rfl, hm⟩ := Option.bind_eq_some_iff.1 hq
    obtain ⟨m', rfl, hm'⟩ := Option.bind_eq_some_iff.1 (he ▸ hq)
    rw [h.distinct m (ho m rfl) m' (ho' m' rfl) (hm.trans hm'.symm)]

theorem beats_trans (h : a.Contest p) {x y z : NodeId} (hx : x ∈ a.candidates (a.children p))
    (hy : y ∈ a.candidates (a.children p)) (hz : z ∈ a.candidates (a.children p))
    (hxy : a.beats x y = true) (hyz : a.beats y z = true) : a.beats x z = true :=
  outdoes_trans (h.sameLength x hx y hy) (h.sameLength y hy z hz) hxy hyz

end Contest

namespace Lineup

theorem isAlive (hb : a.Lineup b p l) (hn : n ∈ a.candidates (a.children p) → n ∈ l) :
    b.isAlive n = a.isAlive n := by
  rw [Arena.isAlive, hb.node n hn, Arena.isAlive]

theorem modifying (hb : a.Lineup b p l) (hn : n ∈ a.candidates (a.children p) → n ∈ l) :
    b.modifying n = a.modifying n := by
  rw [Arena.modifying, hb.isAlive hn, isLocked, hb.lockCount, hb.kind]
  rfl

theorem depths (hb : a.Lineup b p l) (hn : n ∈ l) : b.depths n = a.depths n := by
  rw [Arena.depths, hb.node n fun _ => hn, Arena.depths]

theorem parent (hb : a.Lineup b p l) (hn : n ∈ a.candidates (a.children p) → n ∈ l) :
    b.parent n = a.parent n := by
  rw [Arena.parent, hb.node n hn, Arena.parent]

theorem inst (hb : a.Lineup b p l) (h : a.Contest p) (hm : m ∈ a.candidates (a.children p))
    (hl : m ∈ l) : b.inst m = a.inst m := by
  obtain ⟨f, hf, hk⟩ := h.function m hm
  have halive := hb.isAlive (n := f) fun hf => absurd hf (Contest.not_mem_of_kind hk _)
  rw [hf]
  obtain ⟨hraw, hfa⟩ := Option.filter_eq_some_iff.1 hf
  rw [Arena.inst, link, live, hb.node m fun _ => hl]
  exact Option.filter_eq_some_iff.2 ⟨hraw, halive.trans hfa⟩

/-- The way up from a node that is no match leads through no match. -/
theorem ancestorsFrom (hb : a.Lineup b p l) (h : a.Contest p) (steps : Nat)
    (hn : n ∉ a.candidates (a.children p)) : b.ancestorsFrom steps n = a.ancestorsFrom steps n := by
  induction steps generalizing n with
  | zero => rfl
  | succ steps ih =>
    rw [Arena.ancestorsFrom, Arena.ancestorsFrom, hb.parent fun hm => absurd hm hn]
    cases hq : a.parent n with
    | none => rfl
    | some q => exact congrArg (q :: ·) (ih fun hq' => h.parent_ne hq' n hq)

theorem classOfMember (hb : a.Lineup b p l) (h : a.Contest p)
    (hn : n ∉ a.candidates (a.children p)) : b.classOfMember n = a.classOfMember n := by
  rw [Arena.classOfMember, ancestors, hb.size, hb.ancestorsFrom h _ hn, hb.kind]
  rfl

theorem beats (hb : a.Lineup b p l) {x y : NodeId} (hx : x ∈ l) (hy : y ∈ l) :
    b.beats x y = a.beats x y := by
  rw [Arena.beats, hb.depths hx, hb.depths hy, Arena.beats]

/-- A match is taken away and discarded. -/
theorem drop (hb : a.Lineup b p l) (hm : m ∈ a.candidates (a.children p)) (hl : m ∈ l) :
    a.Lineup ((b.detach m).kill m) p (l.erase m) := by
  have hnodup : l.Nodup := hb.children ▸ hb.consistent.nodup p
  have hchildren : ∀ n, ((b.detach m).kill m).children n = (b.children n).erase m := fun n => by
    rw [← children_detach hb.consistent]
    exact field_update Node.children rfl n
  refine ⟨(hb.consistent.detach m).kill m, ?_, ?_, ?_, ?_,
    fun n hn => hb.subset n (List.mem_of_mem_erase hn), fun n hn => ?_, fun n hn => ?_⟩
  · simp [kill, hb.size]
  · exact (lockCount_congr (locks_detach b m)).trans hb.lockCount
  · funext n
    rw [← hb.kind, ← kind_detach hb.consistent m n]
    exact field_update Node.kind rfl n
  · rw [hchildren, hb.children]
  · rw [hchildren, ← hb.others n hn]
    refine List.erase_of_not_mem fun hmn => hn ?_
    -- the match is listed by the arguments, and by nothing else
    have hp : b.parent m = some p := (hb.consistent.mem_children p m).1 (hb.children ▸ hl)
    exact Option.some.inj (((hb.consistent.mem_children n m).1 hmn).symm.trans hp)
  · have hnm : n ≠ m := by
      rintro rfl
      exact hnodup.not_mem_erase (hn hm)
    rw [hchildren, kill, node_update, if_neg fun e => hnm e.1, node_detach hb.consistent,
      if_neg hnm, Arena.parent, hb.node n fun hc => List.mem_of_mem_erase (hn hc)]

end Lineup

/-! ## Another order -/

/-- The arena with the arguments in another order. -/
def rearrange (a : Arena) (p : NodeId) (l : List NodeId) : Arena :=
  a.update p fun d => { d with children := l }

theorem lineup_rearrange (h : a.Consistent) (hp : p.index < a.size) (hl : l.Perm (a.children p)) :
    a.Lineup (a.rearrange p l) p l := by
  have hchildren : ∀ n, (a.rearrange p l).children n = if n = p then l else a.children n :=
    fun n => by simp [rearrange, hp]
  have hperm : ∀ n, ((a.rearrange p l).children n).Perm (a.children n) := fun n => by
    rw [hchildren]
    split
    · next hn => rw [hn]; exact hl
    · exact .refl _
  have hparent : (a.rearrange p l).parent = a.parent := funext (field_update Node.parent rfl)
  have hkind : (a.rearrange p l).kind = a.kind := funext (field_update Node.kind rfl)
  have hsize : (a.rearrange p l).size = a.size := size_update a p _
  refine ⟨?_, hsize, rfl, hkind, by rw [hchildren, if_pos rfl], fun n hn => hl.mem_iff.1 hn,
    fun n hn => by rw [hchildren, if_neg hn], fun n _ => ?_⟩
  · refine ⟨fun n => (hperm n).nodup_iff.2 (h.nodup n), fun q c => ?_, ?_, fun q c hc => ?_, ?_,
      fun n hn => ?_, ?_⟩
    · rw [(hperm q).mem_iff, hparent]
      exact h.mem_children q c
    · rw [hparent, hsize]
      exact h.parent_lt
    · rw [hsize]
      exact h.child_lt q c ((hperm q).mem_iff.1 hc)
    · rw [hsize]
      exact h.locks_size
    · rw [hkind]
      exact h.canBeParent n fun he => hn (List.perm_nil.1 (he ▸ hperm n))
    · rw [hparent, hkind]
      exact h.canBeChild
  · rw [hchildren, rearrange, node_update]
    by_cases hn : n = p
    · rw [if_pos ⟨hn, hp⟩, if_pos hn]
    · rw [if_neg fun e => hn e.1, if_neg hn]
      rfl

/-- Any order of the matches is part of an order of the arguments. -/
theorem exists_arguments (hl : l.Perm (a.candidates (a.children p))) :
    ∃ l', l'.Perm (a.children p) ∧ a.candidates l' = l := by
  refine ⟨l ++ (a.children p).filter fun m => !decide (a.kind m = .paramMatch), ?_, ?_⟩
  · exact (hl.append_right _).trans (List.filter_append_perm _ _)
  · have hkept : a.candidates l = l :=
      List.filter_eq_self.2 fun m hm => (List.mem_filter.1 (hl.mem_iff.1 hm)).2
    rw [candidates, List.filter_append, List.filter_filter]
    rw [candidates] at hkept
    simp [hkept]

/-! ## Requests that are granted -/

theorem deleteChild_of_free (h : a.Consistent) {i : Nat} (hget : (a.children p)[i]? = some m)
    (hm : a.modifying m = .ok ()) (hp : a.modifying p = .ok ()) :
    a.deleteChild p i = .ok (m, a.detach m) := by
  have hparent : a.parent m = some p := (h.mem_children p m).1 (List.mem_of_getElem? hget)
  have hkind := h.canBeChild m (by rw [hparent]; nofun)
  have hmoved : a.relocate m none none = .ok (a.detach m) := by
    rw [relocate, hparent, if_pos hkind]
    rfl
  have hset : a.setParent m none none = .ok (a.detach m) := by
    rw [setParent_eq, hm, hparent, hmoved]
    simp only [hp]
    rfl
  have hchild : a.child p i = .ok m := by rw [child, hget]
  rw [deleteChild, hchild]
  change (do return (m, ← a.setParent m none none)) = _
  rw [hset]
  rfl

/-- A child has a place among the children of its parent. -/
theorem offset_of_mem (h : a.Consistent) (hm : m ∈ a.children p) :
    ∃ i, a.offset m = .ok i ∧ (a.children p)[i]? = some m := by
  obtain ⟨i, hi⟩ := Option.isSome_iff_exists.1 (List.isSome_idxOf?.2 hm)
  refine ⟨i, ?_, ?_⟩
  · rw [offset, (h.mem_children p m).1 hm]
    dsimp only
    rw [hi]
  · obtain ⟨hlt, hat, -⟩ := List.idxOf?_eq_some_iff.1 hi
    rw [List.getElem?_eq_getElem hlt]
    simpa using hat

theorem discard_of_leaf (hm : a.modifying m = .ok ()) (hparent : a.parent m = none)
    (hchildren : a.children m = []) (hattribute : (a.node m).attributeNode = none) :
    a.discard m = .ok (a.kill m) := by
  obtain ⟨halive, hlocks⟩ := modifying_eq_ok_iff.1 hm
  have howned : a.owned m = [m] := by
    rw [owned, ownedFrom, if_pos halive, hattribute, hchildren]
    rfl
  rw [discard, howned, halive, hparent]
  simp [isLocked, hlocks]

end Arena

namespace Search

open Arena

variable {a : Arena} {p x y : NodeId} {l : List NodeId} {c : Context} {call : Call}

/-! ## Comparing two matches -/

/-- Functions of the same class, or of none, are not told apart by their classes. -/
theorem exec_betterByClass (hinst : c.arena.inst x ≠ c.arena.inst y)
    (hclass : ∀ b ∈ (c.arena.inst x).bind c.arena.classOfMember,
      ∀ d ∈ (c.arena.inst y).bind c.arena.classOfMember, b = d) :
    ∃ diagnostics,
      (betterByClass call x y).exec c = (.ok none, { c with diagnostics := diagnostics }) := by
  have hnone : (do
      let b ← c.arena.classOfMember (← c.arena.inst x)
      let d ← c.arena.classOfMember (← c.arena.inst y)
      if b = d then none else some (b, d)) = none := by
    refine Option.eq_none_iff_forall_ne_some.2 fun q hq => ?_
    simp only [Option.bind_eq_bind, Option.bind_eq_some_iff] at hq
    obtain ⟨f, hf, b, hb, g, hg, d, hd, hq⟩ := hq
    rw [if_pos (hclass b (Option.bind_eq_some_iff.2 ⟨f, hf, hb⟩) d
      (Option.bind_eq_some_iff.2 ⟨g, hg, hd⟩))] at hq
    cases hq
  rw [betterByClass, exec_arena_bind]
  dsimp only
  rw [if_neg hinst, hnone]
  exact ⟨_, rfl⟩

theorem exec_betterMatch (call : Call) (x y : NodeId) (c : Context) :
    (betterMatch call x y).exec c =
      if c.arena.beats y x then (.ok (some y), c)
      else if c.arena.beats x y then (.ok (some x), c)
      else (betterByClass call x y).exec c := by
  rw [betterMatch, exec_arena_bind]
  rw [beats, beats, Arena.depths, Arena.depths]
  generalize (c.arena.node x).paramDepth = ds
  generalize (c.arena.node y).paramDepth = es
  cases ds with
  | nil => cases es <;> rfl
  | cons d ds =>
    cases es with
    | nil => rfl
    | cons e es =>
      change Search.exec (if smaller (d :: ds) (e :: es) = greater (d :: ds) (e :: es)
        then betterByClass call x y
        else return some (if greater (d :: ds) (e :: es) then y else x)) c = _
      simp only [outdoes, greater_eq, List.isEmpty_cons, Bool.not_false, Bool.true_and,
        Bool.false_or]
      cases smaller (d :: ds) (e :: es) <;> cases smaller (e :: es) (d :: ds) <;> rfl

/-- What a comparison of two of the matches comes to. -/
theorem exec_betterMatch_of_contest (call : Call) (h : a.Contest p) (hc : a.Lineup c.arena p l)
    (hx : x ∈ a.candidates (a.children p)) (hy : y ∈ a.candidates (a.children p)) (hxl : x ∈ l)
    (hyl : y ∈ l) (hxy : x ≠ y) : ∃ diagnostics, (betterMatch call x y).exec c
      = (.ok (if a.beats y x then some y else if a.beats x y then some x else none),
          { c with diagnostics := diagnostics }) := by
  rw [exec_betterMatch, hc.beats hxl hyl, hc.beats hyl hxl]
  split
  · exact ⟨c.diagnostics, rfl⟩
  · split
    · exact ⟨c.diagnostics, rfl⟩
    · have hclass : ∀ {z}, z ∈ a.candidates (a.children p) → z ∈ l →
          (c.arena.inst z).bind c.arena.classOfMember = (a.inst z).bind a.classOfMember := by
        intro z hz hzl
        obtain ⟨f, hf, hk⟩ := h.function z hz
        rw [hc.inst h hz hzl, hf, Option.bind_some, Option.bind_some,
          hc.classOfMember h (Contest.not_mem_of_kind hk _)]
      refine exec_betterByClass ?_ ?_
      · rw [hc.inst h hx hxl, hc.inst h hy hyl]
        exact fun e => hxy (h.distinct x hx y hy e)
      · rw [hclass hx hxl, hclass hy hyl]
        exact h.oneClass x hx y hy

/-- A match that is dropped is gone, and nothing else changes. -/
theorem exec_dropMatch (h : a.Contest p) (hc : a.Lineup c.arena p l) {i : Nat}
    (hi : l[i]? = some x) (hx : x ∈ a.candidates (a.children p)) :
    ∃ b, (dropMatch p i x).exec c = (.ok (), { c with arena := b }) ∧
      a.Lineup b p (l.erase x) := by
  have hxl : x ∈ l := List.mem_of_getElem? hi
  have hloose : c.arena.modifying x = .ok () := (hc.modifying fun _ => hxl).trans (h.loose x hx)
  have hfree : c.arena.modifying p = .ok () :=
    (hc.modifying fun hp => absurd hp h.not_mem).trans h.free
  have hxp : x ≠ p := fun e => h.not_mem (e ▸ hx)
  have hdelete := deleteChild_of_free hc.consistent (hc.children ▸ hi) hloose hfree
  have hdiscard : (c.arena.detach x).discard x = .ok ((c.arena.detach x).kill x) := by
    refine discard_of_leaf ?_ ?_ ?_ ?_
    · rw [modifying_detach hc.consistent, hloose]
    · rw [parent_detach hc.consistent, if_pos rfl]
    · rw [children_detach hc.consistent, hc.others x hxp, (h.leaf x hx).1]
      rfl
    · rw [node_detach hc.consistent, hc.node x fun _ => hxl]
      exact (h.leaf x hx).2
  refine ⟨_, ?_, hc.drop hx hxl⟩
  rw [dropMatch, exec_bind, exec_checked, hdelete]
  dsimp only
  rw [exec_change, hdiscard]

/-! ## Going through the arguments -/

section

variable {n : NodeId} {i : Nat} (call : Call) (fuel : Nat) (noted : Bool)

theorem exec_selectFrom_skip (hc : a.Lineup c.arena p l) (hi : l[i]? = some n)
    (hn : a.kind n ≠ .paramMatch) (best : Option NodeId) :
    (selectFrom call p (fuel + 1) i best noted).exec c
      = (selectFrom call p fuel (i + 1) best noted).exec c := by
  rw [selectFrom, exec_arena_bind, hc.children, hi, hc.kind]
  dsimp only
  rw [if_pos hn]

theorem exec_selectFrom_first (hc : a.Lineup c.arena p l) (hi : l[i]? = some n)
    (hn : a.kind n = .paramMatch) : (selectFrom call p (fuel + 1) i none noted).exec c
      = (selectFrom call p fuel (i + 1) (some n) noted).exec c := by
  rw [selectFrom, exec_arena_bind, hc.children, hi, hc.kind]
  dsimp only
  rw [if_neg (not_not.2 hn)]

theorem exec_selectFrom_some (hc : a.Lineup c.arena p l) (hi : l[i]? = some n)
    (hn : a.kind n = .paramMatch) : (selectFrom call p (fuel + 1) i (some x) noted).exec c
      = (do match ← betterMatch call x n with
          | none => selectFrom call p fuel (i + 1) (some x) true
          | some winner =>
              if winner = n then
                let previous ← ask fun a => a.offset x
                dropMatch p previous x
                selectFrom call p fuel i (some n) noted
              else
                dropMatch p i n
                selectFrom call p fuel i (some x) noted : Search _).exec c := by
  rw [selectFrom, exec_arena_bind, hc.children, hi, hc.kind]
  dsimp only
  exact congrArg (Search.exec · c) (if_neg (not_not.2 hn))

variable (h : a.Contest p) (hc : a.Lineup c.arena p l) (hi : l[i]? = some n)
  (hn : n ∈ a.candidates (a.children p)) (hx : x ∈ a.candidates (a.children p)) (hxl : x ∈ l)
  (hxn : x ≠ n)
include h hc hi hn hx hxl hxn

/-- A better match takes the place of the best one so far, which is dropped. -/
theorem exec_selectFrom_better (hbeats : a.beats n x = true) :
    ∃ d, (selectFrom call p (fuel + 1) i (some x) noted).exec c
      = (selectFrom call p fuel i (some n) noted).exec d ∧ a.Lineup d.arena p (l.erase x) := by
  obtain ⟨diagnostics, hbetter⟩ := exec_betterMatch_of_contest call h hc hx hn hxl
    (List.mem_of_getElem? hi) hxn
  obtain ⟨j, hoffset, hj⟩ := offset_of_mem hc.consistent (hc.children.symm ▸ hxl)
  obtain ⟨b, hdrop, hb⟩ := exec_dropMatch h (c := { c with diagnostics := diagnostics }) hc
    (hc.children ▸ hj) hx
  refine ⟨{ c with diagnostics := diagnostics, arena := b }, ?_, hb⟩
  rw [exec_selectFrom_some call fuel noted hc hi (mem_candidates.1 hn).2, exec_bind, hbetter,
    if_pos hbeats]
  dsimp only
  rw [if_pos rfl, exec_bind, exec_ask, hoffset]
  dsimp only
  rw [exec_bind, hdrop]

/-- A worse match is dropped. -/
theorem exec_selectFrom_worse (hbeats : a.beats x n = true) :
    ∃ d, (selectFrom call p (fuel + 1) i (some x) noted).exec c
      = (selectFrom call p fuel i (some x) noted).exec d ∧ a.Lineup d.arena p (l.erase n) := by
  obtain ⟨diagnostics, hbetter⟩ := exec_betterMatch_of_contest call h hc hx hn hxl
    (List.mem_of_getElem? hi) hxn
  obtain ⟨b, hdrop, hb⟩ := exec_dropMatch h (c := { c with diagnostics := diagnostics }) hc hi hn
  refine ⟨{ c with diagnostics := diagnostics, arena := b }, ?_, hb⟩
  have hnx : a.beats n x ≠ true := Bool.eq_false_iff.1 (outdoes_asymm hbeats)
  rw [exec_selectFrom_some call fuel noted hc hi (mem_candidates.1 hn).2, exec_bind, hbetter,
    if_neg hnx, if_pos hbeats]
  dsimp only
  rw [if_neg hxn, exec_bind, hdrop]

/-- Two matches that are equally good are both kept, and this is noted. -/
theorem exec_selectFrom_tie (hnx : a.beats n x ≠ true) (hxn' : a.beats x n ≠ true) :
    ∃ d, (selectFrom call p (fuel + 1) i (some x) noted).exec c
      = (selectFrom call p fuel (i + 1) (some x) true).exec d ∧ a.Lineup d.arena p l := by
  obtain ⟨diagnostics, hbetter⟩ := exec_betterMatch_of_contest call h hc hx hn hxl
    (List.mem_of_getElem? hi) hxn
  refine ⟨{ c with diagnostics := diagnostics }, ?_, hc⟩
  rw [exec_selectFrom_some call fuel noted hc hi (mem_candidates.1 hn).2, exec_bind, hbetter,
    if_neg hnx, if_neg hxn']

end

/-- A run through the arguments that answers `r`: the match that it kept is still there. -/
def Concludes (a : Arena) (p : NodeId) (r : Option NodeId × Bool)
    (run : Except Stop (Option NodeId × Bool) × Context) : Prop :=
  ∃ d l, run = (.ok r, d) ∧ a.Lineup d.arena p l ∧
    ∀ x ∈ r.1, x ∈ l ∧ x ∈ a.candidates (a.children p)

/-- **The arguments are gone through as the verdict says.**  Those of `pre` are behind, and the best
match so far is one of them. -/
theorem exec_selectFrom (h : a.Contest p) (call : Call) (suf : List NodeId) :
    ∀ (pre : List NodeId) (best : Option NodeId) (noted : Bool) (fuel : Nat) (c : Context),
      a.Lineup c.arena p (pre ++ suf) → suf.length < fuel →
      (∀ x ∈ best, x ∈ pre ∧ x ∈ a.candidates (a.children p)) →
      Concludes a p ((a.candidates suf).foldl (weigh a.beats) (best, noted))
        ((selectFrom call p fuel pre.length best noted).exec c) := by
  induction suf with
  | nil =>
    intro pre best noted fuel c hc hfuel hbest
    obtain ⟨fuel, rfl⟩ : ∃ k, fuel = k + 1 := ⟨fuel - 1, by simp at hfuel; omega⟩
    refine ⟨c, pre ++ [], ?_, hc, fun x hx => ?_⟩
    · rw [selectFrom, exec_arena_bind, hc.children, List.append_nil,
        List.getElem?_eq_none (Nat.le_refl _)]
      rfl
    · rw [List.append_nil]
      exact hbest x hx
  | cons n suf ih =>
    intro pre best noted fuel c hc hfuel hbest
    obtain ⟨fuel, rfl⟩ : ∃ k, fuel = k + 1 := ⟨fuel - 1, by omega⟩
    have hfuel : suf.length < fuel := Nat.lt_of_succ_lt_succ hfuel
    have hi : (pre ++ n :: suf)[pre.length]? = some n := by simp
    -- the argument stays where it is, and the next one is looked at
    have hnext : ∀ best noted d, a.Lineup d.arena p (pre ++ n :: suf) →
        (∀ x ∈ best, x ∈ pre ++ [n] ∧ x ∈ a.candidates (a.children p)) →
        Concludes a p ((a.candidates suf).foldl (weigh a.beats) (best, noted))
          ((selectFrom call p fuel (pre.length + 1) best noted).exec d) := by
      intro best noted d hd hbest
      rw [List.append_cons] at hd
      have := ih (pre ++ [n]) best noted fuel d hd hfuel hbest
      rwa [List.length_append] at this
    by_cases hk : a.kind n = .paramMatch
    · have hn : n ∈ a.candidates (a.children p) := mem_candidates.2 ⟨hc.subset n (by simp), hk⟩
      rw [candidates, List.filter_cons, if_pos (by simpa using hk), List.foldl_cons]
      cases best with
      | none =>
        rw [exec_selectFrom_first call fuel noted hc hi hk]
        exact hnext (some n) noted c hc fun x hx => by cases hx; exact ⟨by simp, hn⟩
      | some x =>
        obtain ⟨hxpre, hx⟩ := hbest x rfl
        have hxl : x ∈ pre ++ n :: suf := List.mem_append_left _ hxpre
        have hnodup : (pre ++ n :: suf).Nodup := hc.children ▸ hc.consistent.nodup p
        have hnpre : n ∉ pre := fun hn => List.disjoint_of_nodup_append hnodup hn (by simp)
        have hxn : x ≠ n := fun e => hnpre (e ▸ hxpre)
        rw [weigh]
        by_cases hnx : a.beats n x = true
        · obtain ⟨d, hrun, hd⟩ := exec_selectFrom_better call fuel noted h hc hi hn hx hxl hxn hnx
          rw [if_pos hnx, hrun]
          -- one argument less is behind, and `n` is behind now
          have hlength : (pre.erase x ++ [n]).length = pre.length := by
            rw [List.length_append, List.length_erase_of_mem hxpre]
            exact Nat.sub_add_cancel (List.length_pos_of_mem hxpre)
          rw [List.erase_append_left _ hxpre, List.append_cons] at hd
          rw [← hlength]
          refine ih (pre.erase x ++ [n]) (some n) noted fuel d hd hfuel fun y hy => ?_
          cases hy
          exact ⟨by simp, hn⟩
        · by_cases hxn' : a.beats x n = true
          · obtain ⟨d, hrun, hd⟩ :=
              exec_selectFrom_worse call fuel noted h hc hi hn hx hxl hxn hxn'
            rw [if_neg hnx, if_pos hxn', hrun]
            rw [List.erase_append_right _ hnpre, List.erase_cons_head] at hd
            exact ih pre (some x) noted fuel d hd hfuel hbest
          · obtain ⟨d, hrun, hd⟩ :=
              exec_selectFrom_tie call fuel noted h hc hi hn hx hxl hxn hnx hxn'
            rw [if_neg hnx, if_neg hxn', hrun]
            exact hnext (some x) true d hd fun y hy => by
              cases hy; exact ⟨List.mem_append_left _ hxpre, hx⟩
    · rw [exec_selectFrom_skip call fuel noted hc hi hk, candidates, List.filter_cons,
        if_neg (by simpa using hk)]
      exact hnext best noted c hc fun x hx =>
        ⟨List.mem_append_left _ (hbest x hx).1, (hbest x hx).2⟩

/-- **The choice is the verdict on the tables**, in the order in which the matches are listed. -/
theorem exec_selectBestFunction (h : a.Contest p) (hc : a.Lineup c.arena p l)
    (hl : l.Perm (a.children p)) (call : Call) :
    ((selectBestFunction call (some p)).exec c).1
      = .ok ((outcome (verdict a.beats (a.candidates l))).bind a.inst) := by
  have hne : a.candidates l ≠ [] := fun he =>
    h.exists_candidate (List.perm_nil.1 (he ▸ (hl.filter _).symm))
  obtain ⟨m, -, hm⟩ := exists_verdict a.beats hne
  obtain ⟨d, l', hrun, hd, hkept⟩ := exec_selectFrom h call l [] none false (l.length + 1) c hc
    (Nat.lt_succ_self _) nofun
  obtain ⟨hml, hmc⟩ := hkept m hm
  rw [selectBestFunction, exec_arena_bind, exec_bind, hc.children]
  rw [show (0 : Nat) = ([] : List NodeId).length from rfl, hrun]
  change Prod.fst (Search.exec (match (verdict a.beats (a.candidates l)).1 with
    | none => internal .noCandidate
    | some m => if (verdict a.beats (a.candidates l)).2 then return none
        else return (← arena).inst m) d) = _
  rw [hm, outcome]
  dsimp only
  split
  · rfl
  · rw [exec_arena_bind, hd.inst h hmc hml, hm]
    rfl

/-! ## The order of the declarations -/

/-- The function that is chosen when the arguments are those of `l`, in this order. -/
def designated (c : Context) (p : NodeId) (l : List NodeId) : Except Stop (Option NodeId) :=
  ((run (selectBestFunction · (some p))).exec { c with arena := c.arena.rearrange p l }).1

/-- **When the choice does not depend on the order of the declarations.**  It always has an answer,
and this is the same in every order, unless one match is better than all the others and there are
two of these of which neither is better.  Then it depends on whether these two meet before the best
one comes. -/
theorem selection_stable_iff (c : Context) (p : NodeId) (h : c.arena.Contest p) :
    (∀ l, l.Perm (c.arena.children p) → ∃ f, designated c p l = .ok f) ∧
      ((∃ f, ∀ l, l.Perm (c.arena.children p) → designated c p l = .ok f) ↔
        ∀ m, Best c.arena.beats (c.arena.candidates (c.arena.children p)) m →
          Decided c.arena.beats (c.arena.candidates (c.arena.children p))) := by
  have hanswer : ∀ l, l.Perm (c.arena.children p) → designated c p l
      = .ok ((outcome (verdict c.arena.beats (c.arena.candidates l))).bind c.arena.inst) := by
    intro l hl
    rw [designated, exec_run]
    exact exec_selectBestFunction h
      (lineup_rearrange h.consistent (lt_size_of_modifying h.free) hl) hl _
  refine ⟨fun l hl => ⟨_, hanswer l hl⟩, ?_⟩
  have hnodup : (c.arena.candidates (c.arena.children p)).Nodup := (h.consistent.nodup p).filter _
  rw [← outcome_stable_iff c.arena.beats (fun x y => outdoes_asymm)
    (fun x hx y hy z hz => h.beats_trans hx hy hz) hnodup]
  constructor
  · rintro ⟨f, hf⟩
    have hsame : ∀ l, l.Perm (c.arena.candidates (c.arena.children p)) →
        (outcome (verdict c.arena.beats l)).bind c.arena.inst = f := by
      intro l hl
      obtain ⟨l', hl', rfl⟩ := exists_arguments hl
      exact Except.ok.inj ((hanswer l' hl').symm.trans (hf l' hl'))
    refine ⟨_, fun l hl => h.inst_inj (fun m hm => hl.mem_iff.1 (mem_of_mem_outcome hm))
      (fun m hm => mem_of_mem_outcome hm) ((hsame l hl).trans (hsame _ (.refl _)).symm)⟩
  · rintro ⟨r, hr⟩
    refine ⟨r.bind c.arena.inst, fun l hl => ?_⟩
    rw [hanswer l hl, hr (c.arena.candidates l) (hl.filter _)]

/-- Three functions with a match each among the arguments of a call.  The first match is better than
the other two, of which each is better in one of two places. -/
def overloadHistory : List Command :=
  [.create .list {}, .create .function {}, .create .function {}, .create .function {},
   .create .paramMatch {}, .create .paramMatch {}, .create .paramMatch {},
   .setLink ⟨4⟩ .inst (some ⟨1⟩), .setLink ⟨5⟩ .inst (some ⟨2⟩), .setLink ⟨6⟩ .inst (some ⟨3⟩),
   .setParamSize ⟨4⟩ 2, .setParamDepth ⟨4⟩ 0 1, .setParamDepth ⟨4⟩ 1 1,
   .setParamSize ⟨5⟩ 2, .setParamDepth ⟨5⟩ 0 1, .setParamDepth ⟨5⟩ 1 2,
   .setParamSize ⟨6⟩ 2, .setParamDepth ⟨6⟩ 0 2, .setParamDepth ⟨6⟩ 1 1,
   .appendChild ⟨0⟩ ⟨4⟩, .appendChild ⟨0⟩ ⟨5⟩, .appendChild ⟨0⟩ ⟨6⟩]

/-- The context of these functions. -/
def overloads : Context := { arena := after overloadHistory, parser := fun _ => .rejected }

theorem consistent_overloads : overloads.arena.Consistent :=
  .of_history overloadHistory (by rw [overloads])

theorem contest_overloads : overloads.arena.Contest ⟨0⟩ where
  consistent := consistent_overloads
  free := by decide +kernel
  exists_candidate := by decide +kernel
  loose := by decide +kernel
  leaf := by decide +kernel
  function m hm := by
    have hfunction : ∀ m ∈ overloads.arena.candidates (overloads.arena.children ⟨0⟩),
        (overloads.arena.inst m).any (overloads.arena.kind · ≠ .paramMatch) := by
      decide +kernel
    obtain ⟨f, hf, hk⟩ := (Option.any_eq_true _ _).1 (hfunction m hm)
    exact ⟨f, hf, of_decide_eq_true hk⟩
  distinct := by decide +kernel
  oneClass x hx y hy b hb := by
    have hnone : ∀ m ∈ overloads.arena.candidates (overloads.arena.children ⟨0⟩),
        (overloads.arena.inst m).bind overloads.arena.classOfMember = none := by
      decide +kernel
    rw [hnone x hx] at hb
    cases hb
  sameLength := by decide +kernel

/-- The first match is the best one, and the other two are equally good. -/
theorem selection_stable_iff_overloads : overloads.arena.Contest ⟨0⟩ ∧
    ¬ ∃ f, ∀ l, l.Perm (overloads.arena.children ⟨0⟩) → designated overloads ⟨0⟩ l = .ok f := by
  refine ⟨contest_overloads, fun h => ?_⟩
  have hbest : Best overloads.arena.beats
      (overloads.arena.candidates (overloads.arena.children ⟨0⟩)) ⟨4⟩ :=
    .mk (by decide +kernel) (by decide +kernel)
  have hdecided := (selection_stable_iff overloads ⟨0⟩ contest_overloads).2.1 h ⟨4⟩ hbest
  exact absurd (hdecided ⟨5⟩ (by decide +kernel) ⟨6⟩ (by decide +kernel) (by decide))
    (by decide +kernel)

/-- The choice among the three functions depends on the order: when the best comes first it is
found, and when it comes last nothing is. -/
theorem selection_depends_on_order : [⟨5⟩, ⟨6⟩, ⟨4⟩].Perm (overloads.arena.children ⟨0⟩) ∧
    designated overloads ⟨0⟩ (overloads.arena.children ⟨0⟩) = .ok (some ⟨1⟩) ∧
      designated overloads ⟨0⟩ [⟨5⟩, ⟨6⟩, ⟨4⟩] = .ok none := by
  decide +kernel

end Search

end SymbolTree
