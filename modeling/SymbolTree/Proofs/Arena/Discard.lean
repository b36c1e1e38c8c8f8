import SymbolTree.Proofs.Arena.Forest
import SymbolTree.Proofs.Arena.Protection
import SymbolTree.Proofs.Outline

/-!
# Discarding a node with all that it owns

A node owns its children and its attribute node, which other nodes may own as well.  What is
discarded with a node is what is met on the way along these links (`Arena.Gathers`): a dead node is
met like the others, but nothing behind it.

The listing `Arena.owned` follows as many levels as the arena has nodes.  A node that is met at all
is met on a way without repetition, so this is enough to list all that is met, whether or not the
links have loops (`Arena.mem_owned_iff`).  Where they have none, the listing is the same however
deep it may go.

An attribute node can only be named once it was created, since that is how its name is got
(`namesCreatedFrom`).  From there on a dead node owns dead nodes only.

## Main statements

* `discard_exec` — what the request does, by what is met.
* `Command.buried_exec` — no request leaves something alive below a dead node.
* `discard_exact` — both, in every arena that can be reached.
-/

set_option autoImplicit false
namespace SymbolTree

open Relation (ReflTransGen TransGen)

/-- A way that leads on may leave its first node for good. -/
theorem ReflTransGen.exists_leaving {α : Type} {r : α → α → Prop} {x z : α}
    (h : ReflTransGen r x z) :
    z = x ∨ ∃ y, r x y ∧ ReflTransGen (fun u v => r u v ∧ u ≠ x) y z := by
  induction h with
  | refl => exact .inl rfl
  | @tail u v _ huv ih =>
    by_cases hu : u = x
    · exact .inr ⟨v, hu ▸ huv, .refl⟩
    · obtain rfl | ⟨y, hy, hyu⟩ := ih
      · exact absurd rfl hu
      · exact .inr ⟨y, hy, hyu.tail ⟨huv, hu⟩⟩

namespace Arena

variable {a b : Arena} {n m : NodeId}

/-! ## What is met -/

/-- A node that is met beyond the nodes of a list is listed, if there are levels enough for a way
through all the other nodes. -/
theorem mem_ownedFrom_of_avoiding {fuel : Nat} {seen : List NodeId} (hnodup : seen.Nodup)
    (hlt : ∀ x ∈ seen, x.index < a.size) (hfuel : a.size < fuel + seen.length)
    (h : ReflTransGen (fun x y => (a.isAlive x = true ∧ a.Owns x y) ∧ x ∉ seen) n m) :
    m ∈ a.ownedFrom fuel n := by
  induction fuel generalizing n seen with
  | zero =>
    have := length_le_size hnodup hlt
    omega
  | succ fuel ih =>
    obtain rfl | ⟨y, ⟨⟨hn, hny⟩, hseen⟩, hway⟩ := ReflTransGen.exists_leaving h
    · exact mem_ownedFrom_succ.2 (.inl rfl)
    · refine mem_ownedFrom_succ.2 (.inr ⟨hn, y, hny, ?_⟩)
      -- the rest of the way has one node more to avoid and one level less to go
      refine ih (List.nodup_cons.2 ⟨hseen, hnodup⟩) (fun x hx => ?_) ?_ ?_
      · rcases List.mem_cons.1 hx with rfl | hx
        · exact lt_size_of_isAlive hn
        · exact hlt x hx
      · rw [List.length_cons]
        omega
      · exact ReflTransGen.mono (fun u v huv => ⟨huv.1.1, List.not_mem_cons_of_ne_of_not_mem
          huv.2 huv.1.2⟩) _ _ hway

/-- **The listing of what a node owns is what is met from it.** -/
theorem mem_owned_iff : m ∈ a.owned n ↔ a.Gathers n m := by
  refine ⟨gathers_of_mem_ownedFrom, fun h => ?_⟩
  refine mem_ownedFrom_of_avoiding List.nodup_nil (fun x hx => nomatch hx) (Nat.lt_succ_self _) ?_
  exact ReflTransGen.mono (fun x y hxy => ⟨hxy, List.not_mem_nil⟩) _ _ h

/-- From a dead node nothing else is met. -/
theorem eq_of_gathers_dead {x : NodeId} (hx : a.isAlive x = false) (hm : a.Gathers x m) :
    m = x := by
  rcases ReflTransGen.cases_head hm with hxm | ⟨y, ⟨halive, -⟩, -⟩
  · exact hxm.symm
  · rw [hx] at halive
    cases halive

/-- No way along what is owned comes back to a node, from the given one on. -/
def OwnsNoLoop (a : Arena) (n : NodeId) : Prop :=
  ∀ m, ReflTransGen a.Owns n m → ¬ TransGen a.Owns m m

/-- Every node was created after what it owns. -/
def OwnsEarlier (a : Arena) : Prop :=
  ∀ i < a.size, (∀ y ∈ a.children ⟨i⟩, y.index < i) ∧
    ∀ y ∈ (a.node ⟨i⟩).attributeNode, y.index < i

instance (a : Arena) : Decidable a.OwnsEarlier :=
  inferInstanceAs (Decidable (∀ i < a.size, _ ∧ _))

theorem OwnsEarlier.lt (h : a.OwnsEarlier) {x y : NodeId} (hxy : a.Owns x y) :
    y.index < x.index := by
  obtain ⟨hchildren, hattribute⟩ := h x.index hxy.lt_size
  exact hxy.elim (hchildren y) (hattribute y)

theorem OwnsEarlier.ownsNoLoop (h : a.OwnsEarlier) (n : NodeId) : a.OwnsNoLoop n :=
  fun m _ => not_transGen_self (f := NodeId.index) (fun _ _ => h.lt) m

/-- Nothing that is met from the node is `k` or more levels away from it. -/
def GathersWithin (a : Arena) : Nat → NodeId → Prop
  | 0, _ => False
  | k + 1, n => a.isAlive n = true → ∀ m, a.Owns n m → a.GathersWithin k m

theorem OwnsNoLoop.gathersWithin {k : Nat} {seen : List NodeId} (h : a.OwnsNoLoop n)
    (hnodup : seen.Nodup) (hseen : ∀ x ∈ seen, x.index < a.size ∧ TransGen a.Owns x n)
    (hk : a.size < k + seen.length) : a.GathersWithin k n := by
  induction k generalizing n seen with
  | zero =>
    have := length_le_size hnodup fun x hx => (hseen x hx).1
    omega
  | succ k ih =>
    intro hn m hm
    have hcons : (n :: seen).Nodup :=
      List.nodup_cons.2 ⟨fun hmem => h n .refl (hseen n hmem).2, hnodup⟩
    refine ih (fun x hx => h x (.head hm hx)) hcons (fun x hx => ?_) ?_
    · rcases List.mem_cons.1 hx with rfl | hx
      · exact ⟨lt_size_of_isAlive hn, .single hm⟩
      · exact ⟨(hseen x hx).1, (hseen x hx).2.tail hm⟩
    · rw [List.length_cons]
      omega

theorem GathersWithin.ownedFrom {k l : Nat} (h : a.GathersWithin k n) (hkl : k ≤ l) :
    a.ownedFrom l n = a.ownedFrom k n := by
  induction k generalizing n l with
  | zero => exact h.elim
  | succ k ih =>
    obtain ⟨l, rfl⟩ : ∃ j, l = j + 1 := ⟨l - 1, by omega⟩
    rw [Arena.ownedFrom, Arena.ownedFrom]
    split
    · next hn =>
      refine congrArg (n :: ·) (List.flatMap_congr fun m hm => ih (h hn m ?_) (by omega))
      rcases List.mem_append.1 hm with hm | hm
      · exact .inr (Option.mem_toList.1 hm)
      · exact .inl (List.mem_reverse.1 hm)
    · rfl

/-- Without loops the listing of what a node owns does not depend on how deep it may go. -/
theorem OwnsNoLoop.ownedFrom (h : a.OwnsNoLoop n) {depth : Nat} (hdepth : a.size < depth) :
    a.ownedFrom depth n = a.owned n := by
  have hwithin : a.GathersWithin (a.size + 1) n :=
    h.gathersWithin List.nodup_nil (fun x hx => nomatch hx) (Nat.lt_succ_self _)
  exact hwithin.ownedFrom hdepth

/-! ## The request -/

/-- All that is met from a node died, and nothing else happened. -/
structure Retires (a b : Arena) (n : NodeId) : Prop where
  /-- What is met is dead and otherwise as it was. -/
  met : ∀ m, a.Gathers n m → b.node m = { a.node m with alive := false }
  /-- What is not met is as it was. -/
  others : ∀ m, ¬ a.Gathers n m → b.node m = a.node m
  /-- There are as many nodes. -/
  size : b.size = a.size
  /-- All locks are as they were. -/
  locks : b.locks = a.locks

theorem retires_owned (a : Arena) (n : NodeId) : a.Retires ((a.owned n).foldl kill a) n := by
  refine ⟨fun m hm => ?_, fun m hm => ?_, size_foldl_kill a _, locks_foldl_kill a _⟩
  · rw [node_foldl_kill, List.contains_iff_mem.2 (mem_owned_iff.2 hm), Bool.not_true,
      Bool.and_false]
  · have hmem : (a.owned n).contains m = false := by
      rw [List.contains_eq_mem, decide_eq_false]
      exact fun hmem => hm (mem_owned_iff.1 hmem)
    rw [node_foldl_kill, hmem, Bool.not_false, Bool.and_true, isAlive]

theorem retires_of_discard (hn : a.isAlive n = true) (hb : a.discard n = .ok b) :
    a.Retires b n := by
  obtain ⟨hdead, -⟩ | ⟨-, -, -, rfl⟩ := discard_eq_ok hb
  · rw [hn] at hdead
    cases hdead
  · exact retires_owned a n

theorem Retires.node (h : a.Retires b n) (m : NodeId) :
    b.node m = { a.node m with alive := b.isAlive m } := by
  by_cases hmet : a.Gathers n m
  · rw [isAlive, h.met m hmet]
  · rw [isAlive, h.others m hmet]

theorem Retires.isAlive_eq_false_iff (h : a.Retires b n) :
    b.isAlive m = false ↔ a.isAlive m = false ∨ a.Gathers n m := by
  by_cases hmet : a.Gathers n m
  · rw [isAlive, h.met m hmet]
    exact iff_of_true rfl (.inr hmet)
  · rw [isAlive, h.others m hmet, ← isAlive]
    exact (or_iff_left hmet).symm

theorem Retires.link (h : a.Retires b n) (m : NodeId) (l : Link) :
    (b.node m).link l = (a.node m).link l := by
  rw [h.node]
  cases l <;> rfl

theorem Retires.attributeNode (h : a.Retires b n) (m : NodeId) :
    (b.node m).attributeNode = (a.node m).attributeNode := by
  rw [h.node]

/-- What becomes of the request to discard a living node whose links have no loop. -/
structure DiscardsExactly (a : Arena) (n : NodeId) : Prop where
  /-- However deep the listing may go, it is the same. -/
  ends : ∀ depth, a.size < depth → a.ownedFrom depth n = a.owned n
  /-- A node that has a parent is refused, and nothing changes. -/
  attached : a.parent n ≠ none →
    (Command.discard n).run.exec a = (.error (.invalidData .discard (a.kind n)), a)
  /-- Where something is met that is locked, a node of this sort is named, and nothing changes. -/
  locked : a.parent n = none → (∃ m, a.Gathers n m ∧ a.isLocked m = true) →
    ∃ m, a.Gathers n m ∧ a.isLocked m = true ∧
      (Command.discard n).run.exec a = (.error (.locked m (a.kind m)), a)
  /-- In any other case what is met dies. -/
  retired : a.parent n = none → (∀ m, a.Gathers n m → a.isLocked m = false) →
    ∃ b, (Command.discard n).run.exec a = (.ok (), b) ∧ a.Retires b n

theorem discard_exec (hn : a.isAlive n = true) (hloop : a.OwnsNoLoop n) :
    a.DiscardsExactly n := by
  have hexec : (Command.discard n).run.exec a = _ := Edit.exec_change (·.discard n) a
  refine ⟨fun depth => hloop.ownedFrom, fun hp => ?_, fun hp hlocked => ?_, fun hp hfree => ?_⟩
  · rw [hexec, discard, hn, Bool.not_true, if_neg Bool.false_ne_true,
      if_pos (Option.isSome_iff_ne_none.2 hp)]
  · obtain ⟨m, hm, hlock⟩ := hlocked
    -- the first locked node of the listing is the one that is named
    obtain ⟨l, hl⟩ := Option.isSome_iff_exists.1
      (List.find?_isSome.2 ⟨m, mem_owned_iff.2 hm, hlock⟩)
    refine ⟨l, mem_owned_iff.1 (List.mem_of_find?_eq_some hl), List.find?_some hl, ?_⟩
    rw [hexec, discard, hn, hp]
    simp only [Bool.not_true, Bool.false_eq_true, ↓reduceIte, Option.isSome_none, hl]
  · have hnone : (a.owned n).find? a.isLocked = none := by
      refine List.find?_eq_none.2 fun m hm => ?_
      rw [hfree m (mem_owned_iff.1 hm)]
      exact Bool.false_ne_true
    refine ⟨_, ?_, retires_owned a n⟩
    rw [hexec, discard, hn, hp]
    simp only [Bool.not_true, Bool.false_eq_true, ↓reduceIte, Option.isSome_none, hnone]

end Arena

/-! ## Dead nodes -/

/-- Two states of a node that own the same and are both alive or both dead. -/
structure Node.OwnsAlike (d e : Node) : Prop where
  /-- The node is dead if and only if it was. -/
  alive : e.alive = d.alive
  /-- The children are the same. -/
  children : e.children = d.children
  /-- The attribute node is the same. -/
  attributeNode : e.attributeNode = d.attributeNode

theorem Conversion.ownsAlike {c : Conversion} {d e : Node} (h : c.apply d = some e) :
    d.OwnsAlike e := by
  obtain rfl | ⟨k, i, f, s, rfl⟩ := c.eq_of_apply h
  · exact ⟨rfl, rfl, rfl⟩
  · exact ⟨rfl, rfl, rfl⟩

namespace Arena

variable {a b : Arena} {n m : NodeId}

/-- What a dead node owns is dead, and what any node owns was created. -/
structure Buried (a : Arena) : Prop where
  /-- Parents and children agree. -/
  consistent : a.Consistent
  /-- Every attribute node is there. -/
  housed : a.Housed
  /-- A dead node owns dead nodes. -/
  dead : ∀ x y, a.isAlive x = false → a.Owns x y → a.isAlive y = false

theorem buried_empty : ({} : Arena).Buried :=
  ⟨consistent_empty, fun _ _ h => (nomatch h),
    fun _ _ _ hxy => absurd (Owns.lt_size hxy) (Nat.not_lt_zero _)⟩

namespace Buried

theorem owned_lt_size (h : a.Buried) {x y : NodeId} (hxy : a.Owns x y) : y.index < a.size := by
  rcases hxy with hxy | hxy
  · exact h.consistent.child_lt x y hxy
  · exact h.housed x y hxy

theorem of_alike (h : a.Buried) (hb : b.Consistent) (hsize : b.size = a.size)
    (hnode : ∀ n, (a.node n).OwnsAlike (b.node n)) : b.Buried := by
  refine ⟨hb, h.housed.of_eq (Nat.le_of_eq hsize.symm) fun n => (hnode n).attributeNode,
    fun x y hx hxy => ?_⟩
  have hxy : a.Owns x y := by
    rw [Owns, Arena.children, (hnode x).children, (hnode x).attributeNode] at hxy
    exact hxy
  exact (hnode y).alive.trans (h.dead x y ((hnode x).alive.symm.trans hx) hxy)

theorem of_nodes (h : a.Buried) (hb : b.Consistent) (hnodes : b.nodes = a.nodes) : b.Buried :=
  h.of_alike hb (by rw [size, size, hnodes]) fun n => by
    rw [node, node, hnodes]
    exact ⟨rfl, rfl, rfl⟩

theorem update (h : a.Buried) (hb : b.Consistent) {f : Node → Node} (he : b = a.update n f)
    (hf : (a.node n).OwnsAlike (f (a.node n))) : b.Buried := by
  subst he
  exact h.of_alike hb (size_update a n f) (rel_node_update (fun _ => ⟨rfl, rfl, rfl⟩) hf)

theorem push (h : a.Buried) {d : Node} (hb : (a.push d).2.Consistent) (hd : d.alive = true)
    (hown : ∀ l, d.attributeNode = some l → l.index < a.size) : (a.push d).2.Buried := by
  have hold : ∀ x, x.index < a.size → (a.push d).2.node x = a.node x := fun x hx => by
    rw [node_push, if_neg (Nat.ne_of_lt hx)]
  refine ⟨hb, h.housed.push hown, fun x y hx hxy => ?_⟩
  have hlt : x.index < a.size := by
    -- the new node is alive
    have hle := Owns.lt_size hxy
    rw [size_push] at hle
    refine Nat.lt_of_le_of_ne (Nat.le_of_lt_succ hle) fun he => ?_
    rw [isAlive, node_push, if_pos he, hd] at hx
    cases hx
  rw [Owns, Arena.children, hold x hlt] at hxy
  rw [isAlive, hold x hlt] at hx
  rw [isAlive, hold y (h.owned_lt_size hxy)]
  exact h.dead x y hx hxy

theorem cloneBasicNode (h : a.Buried) (hb : a.cloneBasicNode n = .ok (m, b)) : b.Buried := by
  have hconsistent := h.consistent.cloneBasicNode hb
  simp only [Arena.cloneBasicNode] at hb
  split at hb
  · obtain rfl : _ = b := congrArg Prod.snd (Except.ok.inj hb)
    exact h.push hconsistent rfl fun l hl => h.housed n l hl
  · cases hb

theorem setParent (h : a.Buried) {c : NodeId} {p : Option NodeId} {i : Option Nat}
    (hb : a.setParent c p i = .ok b) : b.Buried := by
  refine ⟨h.consistent.setParent hb, h.housed.setParent hb, fun x y hx hxy => ?_⟩
  rw [isAlive_setParent hb] at hx ⊢
  have hlt : x.index < a.size := (setParent_attributeNode hb).1 ▸ Owns.lt_size hxy
  have hsame := (Shields.setParent ⟨hlt, .refl _, .inr hx⟩ hb).same
  rw [Owns, Arena.children, hsame.children, hsame.attributeNode] at hxy
  exact h.dead x y hx hxy

theorem discard (h : a.Buried) (hb : a.discard n = .ok b) : b.Buried := by
  have hconsistent := h.consistent.discard hb
  obtain ⟨-, rfl⟩ | ⟨-, -, -, rfl⟩ := discard_eq_ok hb
  · exact h
  · have hnode := node_foldl_kill a (a.owned n)
    have hdead : ∀ x, ((a.owned n).foldl kill a).isAlive x = false ↔
        a.isAlive x = false ∨ a.Gathers n x := fun x => by
      rw [isAlive, hnode, ← mem_owned_iff, Bool.and_eq_false_iff, Bool.not_eq_false',
        List.contains_iff_mem]
    refine ⟨hconsistent, h.housed.of_eq (Nat.le_of_eq (size_foldl_kill a _).symm) fun x => ?_,
      fun x y hx hxy => ?_⟩
    · rw [hnode]
    · rw [Owns, Arena.children, hnode] at hxy
      rw [hdead] at hx ⊢
      -- what has died is left behind by no link, and what was dead leads to dead nodes
      cases halive : a.isAlive x with
      | false => exact .inl (h.dead x y halive hxy)
      | true =>
        rw [halive] at hx
        exact .inr ((hx.resolve_left Bool.noConfusion).tail ⟨halive, hxy⟩)

theorem setAttributeNode (h : a.Buried) {t : Option NodeId}
    (ht : ∀ l, t = some l → l.index < a.size) (hb : a.setAttributeNode n t = .ok b) :
    b.Buried := by
  have hconsistent := h.consistent.setAttributeNode hb
  obtain ⟨hm, -⟩ := writesTo_setAttributeNode hb
  obtain rfl := setAttributeNode_eq_ok hb
  have halive := isAlive_update (f := fun d => { d with attributeNode := t }) (fun _ => rfl) a n
  refine ⟨hconsistent, fun x l hl => ?_, fun x y hx hxy => ?_⟩
  · rw [size_update]
    rw [node_update] at hl
    split at hl
    · exact ht l hl
    · exact h.housed x l hl
  · rw [halive] at hx ⊢
    -- only a living node is given another attribute node
    have hne : x ≠ n := fun e => by
      rw [e, (modifying_eq_ok_iff.1 hm).1] at hx
      cases hx
    rw [Owns, Arena.children, node_update, if_neg fun e => hne e.1] at hxy
    exact h.dead x y hx hxy

end Buried

end Arena

namespace Command

open Arena

/-- The attribute node that a request gives to a node, if any, was created. -/
def namesCreated (a : Arena) : Command → Bool
  | setAttributeNode _ (some m) => m.index < a.size
  | _ => true

/-- No request leaves something alive below a dead node. -/
theorem keeps_buried (c : Command) (hc : ∀ n t, c ≠ setAttributeNode n t) :
    Keeps Buried c.run := by
  have hmove : ∀ {a b : Arena} {c p i}, a.Buried → a.setParent c p i = .ok b → b.Buried :=
    fun h hb => h.setParent hb
  have hdiscard : ∀ {a b : Arena} {n}, a.Buried → a.discard n = .ok b → b.Buried :=
    fun h hb => h.discard hb
  have hset : ∀ {a b : Arena} {n t v r}, a.Buried → a.setAttribute n t v = .ok (r, b) →
      b.Buried := fun h hb => by
    obtain rfl | he := (setAttribute_eq_ok hb).2.2
    · exact h
    · exact h.update (h.consistent.setAttribute hb) he ⟨rfl, rfl, rfl⟩
  by_cases hv : c.writesValue = true
  · refine keeps_of_writesValue (fun a n f hf h => ?_) c hv
    have hb := h.consistent.update (n := n) (.of_eq (hf _).parent (hf _).children (hf _).kind)
    exact h.update hb rfl ⟨(hf _).alive, (hf _).children, (hf _).attributeNode⟩
  open Edit in
  cases c with
  | create k p =>
    exact Keeps.modify fun _ h => h.push (h.consistent.create k p) rfl fun _ hl => nomatch hl
  | createReplacement n k =>
    exact Keeps.modify fun _ h => h.push (h.consistent.create k _) rfl fun _ hl => nomatch hl
  | cloneBasicNode n =>
    exact Keeps.bind (keeps_checked fun _ _ _ h hb => h.cloneBasicNode hb) fun _ => Keeps.pure
  | setParent c p i => exact keeps_change fun _ _ => hmove
  | appendChild p c => exact keeps_change fun _ _ => hmove
  | insertChild p i c => exact keeps_change fun _ _ => hmove
  | deleteChild p i => exact Keeps.bind (keeps_deleteChild hmove p i) fun _ => Keeps.pure
  | setChild p i c => exact Keeps.bind (keeps_setChild hmove p i c) fun _ => Keeps.pure
  | replaceWith n m =>
    exact keeps_replaceWith hmove m fun p _ k h => h.of_nodes (h.consistent.setLockCount p k) rfl
  | cleanTree n => exact Keeps.get_bind fun _ _ => keeps_cleanTreeFrom hmove hdiscard _ n
  | discard n => exact keeps_change fun _ _ => hdiscard
  | setFlag n f v =>
    exact keeps_change fun _ _ h hb =>
      h.update (h.consistent.setFlag hb) (setFlag_eq_ok_iff.1 hb).2.2 ⟨rfl, rfl, rfl⟩
  | setAttribute n t v => exact Keeps.bind (keeps_checked fun _ _ _ => hset) fun _ => Keeps.pure
  | setAttributeTree n t v =>
    exact Keeps.bind (keeps_setAttributeTree hset n t v) fun _ => Keeps.pure
  | setAttributeNode n t => exact absurd rfl (hc n t)
  | setBoolean n v =>
    exact keeps_change fun _ _ h hb =>
      h.update (h.consistent.setBoolean hb) (setBoolean_eq_ok hb).2.2 ⟨rfl, rfl, rfl⟩
  | addLabel n l =>
    exact keeps_change fun _ _ h hb =>
      h.update (h.consistent.addLabel hb) (addLabel_eq_ok hb).2.2.2 ⟨rfl, rfl, rfl⟩
  | lock n => exact Keeps.modify fun _ h => h.of_nodes (h.consistent.lock n) rfl
  | unlock n =>
    exact keeps_change fun _ _ h hb => h.of_nodes (h.consistent.unlock hb) (nodes_unlock hb)
  | convert n c =>
    refine Keeps.bind (keeps_checked fun _ _ _ h hb => ?_) fun _ => Keeps.pure
    obtain ⟨-, rfl | ⟨d, hd, he⟩⟩ := convert_eq_ok hb
    · exact h
    · exact h.update (h.consistent.convert hb) he (Conversion.ownsAlike hd)
  | _ => exact absurd rfl hv

theorem buried_exec {a : Arena} (h : a.Buried) {c : Command} (hc : c.namesCreated a = true) :
    (c.run.exec a).2.Buried := by
  by_cases ht : ∀ n t, c ≠ setAttributeNode n t
  · exact (c.keeps_buried ht).state h
  · simp only [not_forall, not_not] at ht
    obtain ⟨n, t, rfl⟩ := ht
    rw [show (setAttributeNode n t).run.exec a = _ from Edit.exec_change (·.setAttributeNode n t) a]
    cases hb : a.setAttributeNode n t with
    | error e => exact h
    | ok b =>
      refine h.setAttributeNode (fun l hl => ?_) hb
      subst hl
      exact of_decide_eq_true hc

end Command

/-- Every attribute node that a history gives to a node was created before. -/
def namesCreatedFrom (a : Arena) : List Command → Bool
  | [] => true
  | c :: history => c.namesCreated a && namesCreatedFrom (c.run.exec a).2 history

theorem buried_after {history : List Command} (hnames : namesCreatedFrom {} history = true) :
    (after history).Buried := by
  suffices ∀ a : Arena, a.Buried → namesCreatedFrom a history = true →
      (history.foldl (fun a c => (c.run.exec a).2) a).Buried from
    this {} Arena.buried_empty hnames
  clear hnames
  induction history with
  | nil => exact fun a ha _ => ha
  | cons c history ih =>
    intro a ha hnames
    rw [namesCreatedFrom, Bool.and_eq_true] at hnames
    exact ih _ (Command.buried_exec ha hnames.1) hnames.2

/-- **Discarding is exact**, in every arena that can be reached.  A living node whose links have no
loop is refused while it has a parent, and while something is locked that is met on the way along
what living nodes own; otherwise what is met dies, and nothing else changes.  And what a dead node
owns is dead. -/
theorem discard_exact (history : List Command) (hnames : namesCreatedFrom {} history = true) :
    (∀ n, (after history).isAlive n = true → (after history).OwnsNoLoop n →
      (after history).DiscardsExactly n) ∧
    ∀ x y, (after history).isAlive x = false → (after history).Owns x y →
      (after history).isAlive y = false :=
  ⟨fun _ => Arena.discard_exec, (buried_after hnames).dead⟩

/-- Two classes share a list of attributes.  One of them stands in a directive list, next to a class
whose own list of attributes was discarded. -/
def sharedHistory : List Command :=
  [.create .attributes {}, .create .attributes {}, .create .class_ {}, .create .class_ {},
   .create .class_ {}, .create .directiveList {}, .setAttributeNode ⟨2⟩ (some ⟨0⟩),
   .setAttributeNode ⟨3⟩ (some ⟨0⟩), .setAttributeNode ⟨4⟩ (some ⟨1⟩), .appendChild ⟨5⟩ ⟨2⟩,
   .appendChild ⟨5⟩ ⟨4⟩, .discard ⟨1⟩]

theorem ownsNoLoop_sharedHistory (n : NodeId) : (after sharedHistory).OwnsNoLoop n :=
  Arena.OwnsEarlier.ownsNoLoop (by decide +kernel) n

/-- With the directive list the two classes and the shared list of attributes die.  The other class
that owns it lives on. -/
theorem discard_exact_shared :
    namesCreatedFrom {} sharedHistory = true ∧ (after sharedHistory).isAlive ⟨5⟩ = true ∧
      (after sharedHistory).OwnsNoLoop ⟨5⟩ ∧
      ∃ b, (Command.discard ⟨5⟩).run.exec (after sharedHistory) = (.ok (), b) ∧
        (after sharedHistory).Retires b ⟨5⟩ ∧
        [0, 1, 2, 3, 4, 5].filter (fun i => b.isAlive ⟨i⟩) = [3] := by
  have hnames : namesCreatedFrom {} sharedHistory = true := by decide +kernel
  have halive : (after sharedHistory).isAlive ⟨5⟩ = true := by decide +kernel
  have hparent : (after sharedHistory).parent ⟨5⟩ = none := by decide +kernel
  have hlocks : (after sharedHistory).locks = Array.replicate 6 0 := by decide +kernel
  have hfree : ∀ m, (after sharedHistory).isLocked m = false := by
    intro m
    rw [Arena.isLocked, Arena.lockCount, hlocks, Array.getD_eq_getD_getElem?,
      Array.getElem?_replicate]
    split <;> rfl
  have hexact := (discard_exact sharedHistory hnames).1 ⟨5⟩ halive (ownsNoLoop_sharedHistory ⟨5⟩)
  obtain ⟨b, hb, hretires⟩ := hexact.retired hparent fun m _ => hfree m
  refine ⟨hnames, halive, ownsNoLoop_sharedHistory ⟨5⟩, b, hb, hretires, ?_⟩
  obtain rfl : ((Command.discard ⟨5⟩).run.exec (after sharedHistory)).2 = b := congrArg Prod.snd hb
  decide +kernel

end SymbolTree
