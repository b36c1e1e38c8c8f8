import SymbolTree.Proofs.Search.Settled
import SymbolTree.Proofs.Search.Trace.Scope

/-!
# What is remembered stays right

While searches go on, nodes are added and marked, but those that are there keep their place and
their attributes (`Arena.Grows`).  Hence the effective attributes of a node stay what they were, and
what is remembered about it stays right (`Context.Right`).

A search works out attributes only of nodes that are there.  As long as attribute lists name no
variables, no other search runs while it does, so that what is remembered after it is right again.

## Main statements

* `Arena.Grows.effective` — effective attributes do not change.
* `Search.StaysRight.of_course` — a search that remembers nothing keeps what is remembered right.
* `Search.staysRight_answer_effective` — a search that works out attributes keeps it right as well.
-/

set_option autoImplicit false
namespace SymbolTree

namespace Arena

/-- The tree is consistent, and the attribute nodes are there. -/
structure Sound (a : Arena) : Prop where
  /-- Parents and children agree. -/
  consistent : a.Consistent
  /-- Attribute nodes are there. -/
  housed : a.Housed

/-- Nodes were only added, and those that were there keep their place and their attributes. -/
structure Grows (a b : Arena) : Prop where
  /-- Nodes are only added. -/
  size_le : a.size ≤ b.size
  /-- What was there is in its place. -/
  node : ∀ n, n.index < a.size → (a.node n).AgesInPlace (b.node n)

namespace Grows

variable {a b c : Arena}

theorem refl (a : Arena) : a.Grows a := ⟨Nat.le_refl _, fun _ _ => .refl _⟩

theorem trans (h : a.Grows b) (h' : b.Grows c) : a.Grows c :=
  ⟨Nat.le_trans h.size_le h'.size_le, fun n hn =>
    (h.node n hn).trans (h'.node n (Nat.lt_of_lt_of_le hn h.size_le))⟩

/-- Searches without arguments leave the nodes in their places. -/
theorem of_frame (h : a.Frame none b) : a.Grows b :=
  ⟨h.size_le, fun n hn => ⟨h.ages n hn, h.parent n hn Arena.not_disposable_none,
    h.children n hn nofun, h.alive n hn Arena.not_disposable_none⟩⟩

/-- A link is no part of what attributes are worked out from. -/
theorem setLink (a : Arena) (n : NodeId) (l : Link) (t : Option NodeId) :
    a.Grows (a.setLink n l t) := by
  refine ⟨Nat.le_of_eq (size_update a n _).symm, fun m _ => ?_⟩
  rw [Arena.setLink, node_update]
  split
  · exact Node.agesInPlace_setLink _ l t
  · exact .refl _

variable {n : NodeId}

theorem lt (h : a.Grows b) (hn : n.index < a.size) : n.index < b.size :=
  Nat.lt_of_lt_of_le hn h.size_le

theorem kind (h : a.Grows b) (hn : n.index < a.size) : b.kind n = a.kind n := (h.node n hn).kind

theorem parent (h : a.Grows b) (hn : n.index < a.size) : b.parent n = a.parent n :=
  (h.node n hn).parent

theorem children (h : a.Grows b) (hn : n.index < a.size) : b.children n = a.children n :=
  (h.node n hn).children

theorem name (h : a.Grows b) (hn : n.index < a.size) : b.name n = a.name n := by
  rw [Arena.name, Arena.name, h.kind hn, (h.node n hn).text]

/-- The list of attributes of a node hangs where it hung. -/
theorem attributeEntries (h : a.Grows b) (ha : a.Housed) (hn : n.index < a.size) :
    b.attributeEntries n = a.attributeEntries n := by
  rw [Arena.attributeEntries, Arena.attributeEntries, attributeNode, attributeNode,
    (h.node n hn).attributeNode]
  cases hl : (a.node n).attributeNode with
  | none => rfl
  | some l =>
    have hlt := ha n l hl
    have hlive : b.live (some l) = a.live (some l) := by
      rw [live, live, Option.filter, Option.filter, isAlive, isAlive, (h.node l hlt).alive]
    rw [hlive]
    cases hlist : a.live (some l) with
    | none => rfl
    | some m =>
      obtain ⟨he, -⟩ := Option.filter_eq_some_iff.1 hlist
      cases he
      exact h.children hlt

/-- The entries of a list of attributes are nodes of the arena. -/
theorem mem_attributeEntries (ha : a.Consistent) {e : NodeId} (he : e ∈ a.attributeEntries n) :
    e.index < a.size := by
  rw [Arena.attributeEntries] at he
  split at he
  · exact ha.child_lt _ e he
  · exact absurd he List.not_mem_nil

theorem entryAttribute (h : a.Grows b) (hn : n.index < a.size) :
    b.entryAttribute n = a.entryAttribute n := by
  rw [Arena.entryAttribute, Arena.entryAttribute, h.kind hn, h.name hn]

/-- Attributes that are built in later on were so before. -/
theorem builtIn (h : a.Grows b) (ha : a.Sound) (hn : n.index < a.size) (hb : b.BuiltIn n) :
    a.BuiltIn n := by
  rw [BuiltIn, h.attributeEntries ha.housed hn] at hb
  intro e he
  rw [← h.entryAttribute (mem_attributeEntries ha.consistent he)]
  exact hb e he

theorem ownAttributes (h : a.Grows b) (hn : n.index < a.size) :
    b.ownAttributes n = a.ownAttributes n := by
  refine AttributeSet.ext_contains fun t => ?_
  rw [Arena.ownAttributes, Arena.ownAttributes, AttributeSet.contains_set,
    AttributeSet.contains_set]
  split
  · rfl
  · next ht =>
    rw [Bool.eq_iff_iff]
    refine ⟨fun hb => ?_, (h.node n hn).attributes t⟩
    rcases (h.node n hn).gained t hb with ha | rfl
    · exact ha
    · exact absurd rfl ht

/-- What a list of attributes stands for does not change. -/
theorem listedAttributes (h : a.Grows b) (ha : a.Sound) (hn : n.index < a.size) :
    b.listedAttributes n = a.listedAttributes n := by
  rw [Arena.listedAttributes, Arena.listedAttributes, h.attributeEntries ha.housed hn,
    h.ownAttributes hn]
  refine List.foldl_rel (r := (· = ·)) rfl fun e he s _ hs => ?_
  rw [← hs, addEntry, addEntry, h.entryAttribute (mem_attributeEntries ha.consistent he)]

theorem withoutNative (h : a.Grows b) (ha : a.Consistent) (hn : n.index < a.size)
    (s : AttributeSet) : b.withoutNative n s = a.withoutNative n s := by
  have hbody : (b.children n).any (fun m => b.kind m = .directiveList)
      = (a.children n).any (fun m => a.kind m = .directiveList) := by
    rw [h.children hn, Bool.eq_iff_iff, List.any_eq_true, List.any_eq_true]
    refine exists_congr fun m => and_congr_right fun hm => ?_
    rw [h.kind (ha.child_lt n m hm)]
  rw [Arena.withoutNative, Arena.withoutNative, h.kind hn, hbody]

/-- The effective attributes of a node that was there are what they were. -/
theorem effective (h : a.Grows b) (ha : a.Sound) (hn : n.index < a.size) {s : AttributeSet}
    (hs : b.Effective n s) : a.Effective n s := by
  refine Effective.transfer (S := (·.index < a.size))
    (fun m p _ hp => ha.consistent.parent_lt m p hp) (fun m hm => ?_) hs hn
  exact ⟨h.kind hm, h.parent hm, h.ownAttributes hm, h.listedAttributes ha hm,
    funext fun s => h.withoutNative ha.consistent hm s⟩

/-- What fits a node fits it later on. -/
theorem fits (h : a.Grows b) (ha : a.Sound) (hn : n.index < a.size) {s : AttributeSet}
    (hs : a.Fits n s) : b.Fits n s :=
  fun t ht => hs t (h.effective ha hn ht)

end Grows

end Arena

/-- What is remembered is about nodes that are there, and agrees with their effective attributes. -/
structure Context.Right (c : Context) : Prop where
  /-- The node is there. -/
  lt_size : ∀ m s, c.attributeCache.lookup m = some s → m.index < c.arena.size
  /-- The attributes agree. -/
  fits : ∀ m s, c.attributeCache.lookup m = some s → c.arena.Fits m s

namespace Search

/-- All attribute lists in a context hold only keywords and names of attributes. -/
def BuiltIn (c : Context) : Prop := ∀ n, c.arena.BuiltIn n

/-- No attribute list names a variable if none does later on. -/
theorem builtIn_of_grows {c d : Context} (h : c.arena.Grows d.arena) (hc : c.arena.Sound)
    (hd : BuiltIn d) : BuiltIn c := by
  intro n
  by_cases hn : n.index < c.arena.size
  · exact h.builtIn hc hn (hd n)
  · exact Arena.builtIn_of_unlisted (by rw [Arena.node_of_size_le (Nat.le_of_not_lt hn)]; rfl)

/-- A context that comes after another one, where what is remembered stays right. -/
structure StaysRight (c d : Context) : Prop where
  /-- The arena was sound. -/
  before : c.arena.Sound
  /-- The arena is sound. -/
  after : d.arena.Sound
  /-- Nodes are only added. -/
  grows : c.arena.Grows d.arena
  /-- What is remembered stays right. -/
  right : BuiltIn d → c.Right → d.Right

namespace StaysRight

variable {c d e : Context}

theorem refl (hc : c.arena.Sound) : StaysRight c c := ⟨hc, hc, .refl _, fun _ => id⟩

theorem trans (h : StaysRight c d) (h' : StaysRight d e) : StaysRight c e :=
  ⟨h.before, h'.after, h.grows.trans h'.grows, fun he hr =>
    h'.right he (h.right (builtIn_of_grows h'.grows h.after he) hr)⟩

/-- A step that does not touch what is remembered. -/
theorem of_grows (hc : c.arena.Sound) (hd : d.arena.Sound) (h : c.arena.Grows d.arena)
    (hcache : d.attributeCache = c.attributeCache) : StaysRight c d := by
  refine ⟨hc, hd, h, fun _ hr => ⟨fun m s hm => ?_, fun m s hm => ?_⟩⟩
  · exact h.lt (hr.lt_size m s (hcache ▸ hm))
  · rw [hcache] at hm
    exact h.fits hc (hr.lt_size m s hm) (hr.fits m s hm)

theorem setLink (hc : c.arena.Sound) (n : NodeId) {l : Link} (hl : l = .inst ∨ l = .typeNode)
    (t : Option NodeId) : StaysRight c { c with arena := c.arena.setLink n l t } := by
  refine .of_grows hc ⟨hc.consistent.setLink n l t, hc.housed.update fun d => ?_⟩ (.setLink ..) rfl
  rcases hl with rfl | rfl <;> rfl

/-- Where nothing was remembered in the beginning, what is remembered in the end is right. -/
theorem agrees (h : StaysRight c d) (hcache : c.attributeCache = []) (hd : BuiltIn d) {n : NodeId}
    {r s : AttributeSet} (hr : d.attributeCache.lookup n = some r)
    (hs : d.arena.Effective n s) : r.Agrees s := by
  have hnone : ∀ m t, c.attributeCache.lookup m ≠ some t := fun m t hm => by
    rw [hcache] at hm
    cases hm
  exact (h.right hd ⟨fun m t hm => absurd hm (hnone m t), fun m t hm =>
    absurd hm (hnone m t)⟩).fits n r hr s hs

end StaysRight

theorem Course.sound {c d : Context} (h : Course none c d) (hc : c.arena.Sound) : d.arena.Sound :=
  ⟨h.consistent hc.consistent, h.housed hc.housed⟩

/-- What is answered is remembered. -/
theorem yields_remembered (call : Call) (n : NodeId) :
    Yields (fun _ => True) (effectiveAttributes call n) fun s d =>
      d.attributeCache.lookup n = some s := by
  have hlookup : ∀ (s : AttributeSet) l, ((n, s) :: l).lookup n = some s := fun s l => by
    rw [List.lookup_cons, beq_self_eq_true]
  refine Yields.get_bind fun c _ => ?_
  cases hn : c.attributeCache.lookup n with
  | some s =>
    refine Yields.pure fun d hd => ?_
    rw [hd, hn]
  | none =>
    dsimp only
    have hany : ∀ {α : Type} {P : Context → Prop} (p : Search α), Yields P p fun _ _ => True :=
      fun _ => Yields.of_exec fun _ _ _ _ _ => trivial
    refine Yields.bind
      (Q := fun _ d => d.attributeCache.lookup n = some (c.arena.node n).attributes)
      (Yields.modify fun d _ => hlookup ..) fun _ => ?_
    split
    · exact Yields.pure fun d hd => hd
    · refine (hany _).bind fun _ => (hany _).bind fun _ => (hany _).bind fun s => ?_
      exact Yields.bind (Q := fun _ d => d.attributeCache.lookup n = some s)
        (Yields.modify fun d _ => hlookup ..) fun _ => Yields.pure fun d hd => hd

/-- What is remembered is right after the attributes of a node were worked out. -/
theorem staysRight_answer_effective {c : Context} (hc : c.arena.Sound) {n : NodeId}
    (hn : n.index < c.arena.size) (fuel : Nat) :
    Yields (· = c) (answer fuel (.effectiveAttributes n)) fun s d =>
      Course none c d ∧ StaysRight c d ∧ d.attributeCache.lookup n = some s := by
  refine Yields.of_exec fun e s d he hr => ?_
  rw [he] at hr
  have hcourse : Course none c d :=
    (faithful_answer fuel (.effectiveAttributes n)).of_ok hc.consistent hr
  have hgrows : c.arena.Grows d.arena := .of_frame (hcourse.frame hc.consistent)
  refine ⟨hcourse, ⟨hc, hcourse.sound hc, hgrows, fun hd hright => ?_⟩, ?_⟩
  · have hbuiltIn := builtIn_of_grows hgrows hc hd
    have hsettled : Settled (·.index < c.arena.size) c [] d :=
      ((yields_answer_effective (fun m p _ hp => hc.consistent.parent_lt m p hp.2.2)
        (fun m _ => hbuiltIn m) hn fuel fun _ hm => absurd hm List.not_mem_nil).of_ok
        (.start fun m s _ hs => hright.fits m s hs) hr).1
    have hthere : ∀ m s, d.attributeCache.lookup m = some s → m.index < c.arena.size := by
      intro m s hs
      rcases hsettled.known m s hs with hm | hm
      · exact hm
      · obtain ⟨u, hu⟩ := Option.isSome_iff_exists.1 hm
        exact hright.lt_size m u hu
    exact ⟨fun m s hs => hgrows.lt (hthere m s hs), fun m s hs => hgrows.fits hc (hthere m s hs)
      (hsettled.agrees m s (hthere m s hs) List.not_mem_nil hs)⟩
  · cases fuel with
    | zero => cases hr
    | succ fuel => exact (yields_remembered _ n).of_ok trivial hr

end Search

end SymbolTree
