import SymbolTree.Proofs.Search.Legible

/-!
# What is remembered about attributes does not show

A question about the attributes of a node is answered from what is remembered about it and about
the nodes around it.  While a node is worked out, a provisional entry stands for it among what is
remembered; on the way up its parents are worked out and remembered as well.  Once a question is
answered no provisional entry is left, so that later questions cannot tell in which order the
earlier ones came, or whether there were any.

The statements about what a search works out leave the mark of a type aside, since searches for
types add it on their way.  Questions about attributes alone do not, so here the mark is followed,
too (`MarksKept`): every entry, provisional or not, carries the mark that is written on the node.

## Main statements

* `Search.answers_effective_exact` — the attributes that are answered are those that the tree has.
* `Search.attributes_transparent` — the same question has the same answer whatever was asked before.
-/

set_option autoImplicit false
namespace SymbolTree

/-! ## The mark of a type -/

namespace AttributeSet

/-- The mark of a type is not inherited. -/
theorem contains_type_inherit (s f : AttributeSet) (k : Kind) :
    (s.inherit f k).contains .type = s.contains .type := by
  have hbase : ((((s.inheritFamily f Attribute.visibility).inheritFamily f
      Attribute.memberSort).inheritEach f [.native, .enumerable]).inheritFalse f).contains .type
        = s.contains .type := by
    rw [contains_inheritFalse (by decide), contains_inheritEach (by decide),
      contains_inheritFamily (by decide), contains_inheritFamily (by decide)]
  rw [inherit]
  split
  · exact hbase
  · rw [contains_inheritEach (by decide), hbase]

end AttributeSet

namespace Arena

variable {a : Arena}

/-- No entry of an attribute list stands for the mark of a type. -/
theorem entryAttribute_ne_type (a : Arena) (e : NodeId) : a.entryAttribute e ≠ some .type := by
  have hname : ∀ s, Attribute.ofListName? s ≠ some .type := by
    intro s
    unfold Attribute.ofListName?
    split <;> exact fun h => nomatch h
  have hkeyword : ∀ k, Attribute.ofKeyword? k ≠ some .type := by
    intro k
    unfold Attribute.ofKeyword?
    split <;> exact fun h => nomatch h
  rw [entryAttribute]
  split
  · exact hname _
  · exact hkeyword _

theorem contains_type_addEntry (s : AttributeSet) (e : NodeId) :
    (a.addEntry s e).contains .type = s.contains .type := by
  have he := a.entryAttribute_ne_type e
  rw [addEntry]
  cases hx : a.entryAttribute e with
  | none => rfl
  | some x =>
    rw [hx] at he
    dsimp only
    rw [AttributeSet.add]
    split
    · rfl
    · rw [AttributeSet.contains_set, if_neg fun h => he (congrArg some h.symm)]

theorem contains_type_addEntries (es : List NodeId) (s : AttributeSet) :
    (es.foldl a.addEntry s).contains .type = s.contains .type :=
  List.foldlRecOn (motive := fun t => t.contains .type = s.contains .type) es a.addEntry rfl
    fun t ht e _ => (contains_type_addEntry t e).trans ht

theorem contains_type_withoutNative (n : NodeId) (s : AttributeSet) :
    (a.withoutNative n s).contains .type = s.contains .type := by
  rw [withoutNative]
  split
  · simp
  · rfl

/-- The node carries the mark of a type. -/
def markedType (a : Arena) (n : NodeId) : Bool := (a.node n).attributes.contains .type

/-- The attributes of a node as the tree has them, with the mark of a type that is written on it. -/
def Prepares (a : Arena) (n : NodeId) (s : AttributeSet) : Prop :=
  ∃ t, a.Effective n t ∧ s = t.set .type (a.markedType n)

theorem Prepares.unique {n : NodeId} {s t : AttributeSet} (hs : a.Prepares n s)
    (ht : a.Prepares n t) : s = t := by
  obtain ⟨u, hu, rfl⟩ := hs
  obtain ⟨v, hv, rfl⟩ := ht
  rw [hu.unique hv]

theorem Prepares.of_fits {n : NodeId} {s t : AttributeSet} (h : a.Effective n t)
    (hfits : a.Fits n s) (htype : s.contains .type = a.markedType n) : a.Prepares n s := by
  refine ⟨t, h, AttributeSet.ext_contains fun x => ?_⟩
  rw [AttributeSet.contains_set]
  split
  · next hx => rw [hx, htype]
  · next hx => exact hfits t h x hx

end Arena

namespace Search

variable {c d : Context}

/-- Nothing has changed since `c`, and what is remembered about a node carries the mark of a type if
and only if the node does. -/
structure MarksKept (c d : Context) : Prop where
  /-- Nothing has changed. -/
  same : Same c d
  /-- The mark is the one on the node. -/
  marked : ∀ m s, d.attributeCache.lookup m = some s → s.contains .type = c.arena.markedType m

namespace MarksKept

theorem inert (c : Context) : Inert c (MarksKept c) where
  same := same
  lock h n := ⟨h.same.lock n, h.marked⟩
  drop h g := ⟨h.same.drop g, h.marked⟩
  message _ ds h := ⟨h.same.message ds, h.marked⟩

theorem remember (h : MarksKept c d) {n : NodeId} {s : AttributeSet}
    (hs : s.contains .type = c.arena.markedType n) :
    MarksKept c { d with attributeCache := (n, s) :: d.attributeCache } := by
  refine ⟨h.same.remember _, fun m u hu => ?_⟩
  rw [List.lookup_cons] at hu
  split at hu
  · next hm =>
    rw [beq_iff_eq] at hm
    cases hu
    exact hm ▸ hs
  · exact h.marked m u hu

end MarksKept

/-- Neither what is remembered on the way nor what is answered gets or loses the mark of a type. -/
theorem yields_marksKept (hbuiltIn : ∀ m, c.arena.BuiltIn m) (n : NodeId) (fuel : Nat) :
    Yields (MarksKept c) (answer fuel (.effectiveAttributes n)) fun r d =>
      MarksKept c d ∧ r.contains .type = c.arena.markedType n := by
  have hinert := MarksKept.inert c
  have hremember : ∀ {n s}, s.contains .type = c.arena.markedType n →
      Yields (MarksKept c) (remember n s) fun _ => MarksKept c :=
    fun hs => Yields.modify fun _ hd => hd.remember hs
  induction fuel generalizing n with
  | zero => exact Yields.throw
  | succ fuel ih =>
    refine Yields.get_bind fun d hd => ?_
    cases hcache : d.attributeCache.lookup n with
    | some s => exact Yields.pure fun e he => he ▸ ⟨hd, hd.marked n s hcache⟩
    | none =>
      dsimp only
      rw [hd.same.alike.kind, (hd.same.alike n).attributes]
      refine ((hremember rfl).bind fun _ => ?_).start hd
      split
      · exact Yields.pure fun e he => ⟨he, rfl⟩
      · refine (yields_addAllListed hinert (hbuiltIn n) fuel _).bind_at fun listed d hd => ?_
        have hlisted : listed.contains .type = c.arena.markedType n :=
          hd.2 ▸ Arena.contains_type_addEntries _ _
        have hinherited : Yields (MarksKept c) (addInherited (answer fuel) n listed) fun r e =>
            MarksKept c e ∧ r.contains .type = c.arena.markedType n := by
          refine Yields.arena_bind fun d hd => ?_
          cases d.arena.parent n with
          | none => exact Yields.pure fun e he => ⟨he ▸ hd, hlisted⟩
          | some p =>
            dsimp only
            split
            · exact Yields.pure fun e he => ⟨he ▸ hd, hlisted⟩
            · refine ((ih p).bind fun inherited => Yields.pure fun e he => ?_).start hd
              exact ⟨he.1, (AttributeSet.contains_type_inherit ..).trans hlisted⟩
        refine (hinherited.bind_at fun s e he => ?_).start hd.1
        refine ((yields_dropNative hinert _ s).bind_at fun r e' he' => ?_).start he.1
        have hr : r.contains .type = c.arena.markedType n := by
          rw [he'.2, Arena.contains_type_withoutNative, he.2]
        exact ((hremember hr).bind fun _ => Yields.pure fun e he => ⟨he, hr⟩).start he'.1

/-! ## Answers -/

/-- Between two questions: nothing has changed since `c`, and what is remembered is final. -/
structure Recalls (c d : Context) : Prop where
  /-- What is remembered agrees with the tree. -/
  settled : Settled (fun _ => True) c [] d
  /-- It carries the marks of types that are written there. -/
  marks : MarksKept c d

/-- Where nothing is remembered yet, nothing is wrong. -/
theorem Recalls.of_empty (hd : Same c d) (hempty : d.attributeCache = []) : Recalls c d := by
  have hnone : ∀ m s, d.attributeCache.lookup m ≠ some s := fun m s h => by
    rw [hempty] at h
    cases h
  exact ⟨⟨hd, fun m s _ _ h => absurd h (hnone m s), fun m s h => absurd h (hnone m s)⟩,
    hd, fun m s h => absurd h (hnone m s)⟩

/-- **The attributes that are answered are those that the tree has**, and what is remembered is
final again. -/
theorem answers_effective_exact (hf : c.arena.Forest) (hc : c.arena.Consistent)
    (hlegible : ∀ m, c.arena.Legible m) (n : NodeId) {fuel : Nat}
    (hfuel : c.arena.size + 1 < fuel) (hd : Recalls c d) :
    Answers d (answer fuel (.effectiveAttributes n)) fun s e =>
      Recalls c e ∧ c.arena.Prepares n s := by
  obtain ⟨t, ht⟩ := hf.exists_effective hc n
  have hlength := hf.length_ancestors_le hc n
  have hsettled := answers_effective hf hc (fun _ _ _ _ => trivial) (fun m _ => hlegible m) trivial
    (show (c.arena.ancestors n).length + 1 < fuel by omega) hd.settled
  have hmarks := (yields_marksKept (fun m => (hlegible m).builtIn) n fuel).start hd.marks
  exact (hsettled.and hmarks).mono fun s e he => ⟨⟨he.1.1, he.2.1⟩, .of_fits ht he.1.2 he.2.2⟩

/-- A run has room for as many nested calls as there are nodes. -/
theorem size_lt_fuel (h : Same c d) : c.arena.size + 1 < fuel d := by
  have hsize : d.arena.size = c.arena.size := by rw [Arena.size, Arena.size, h.nodes]
  rw [fuel, hsize]
  omega

/-- A question about the attributes of a node. -/
inductive AttributeQuery where
  /-- What are the attributes of the node? -/
  | prepare (n : NodeId)
  /-- Has the node this attribute? -/
  | has (n : NodeId) (t : Attribute)

namespace AttributeQuery

/-- What is answered to a question. -/
def Answer : AttributeQuery → Type
  | prepare _ => AttributeSet
  | has .. => Bool

/-- The search for the answer. -/
def ask : (q : AttributeQuery) → Search q.Answer
  | prepare n => run (effectiveAttributes · n)
  | has n t => run (hasAttribute · n t)

/-- The answer as the tree has it. -/
def Holds (a : Arena) : (q : AttributeQuery) → q.Answer → Prop
  | prepare n, s => a.Prepares n s
  | has n t, b => ∃ s, a.Prepares n s ∧ b = s.contains t

theorem Holds.unique {a : Arena} {q : AttributeQuery} {x y : q.Answer} (hx : q.Holds a x)
    (hy : q.Holds a y) : x = y := by
  cases q with
  | prepare n => exact Arena.Prepares.unique hx hy
  | has n t =>
    obtain ⟨s, hs, rfl⟩ := hx
    obtain ⟨u, hu, rfl⟩ := hy
    rw [hs.unique hu]

theorem answers_ask (hf : c.arena.Forest) (hc : c.arena.Consistent)
    (hlegible : ∀ m, c.arena.Legible m) (q : AttributeQuery) (hd : Recalls c d) :
    Answers d q.ask fun x e => Recalls c e ∧ q.Holds c.arena x := by
  have hfuel := size_lt_fuel hd.marks.same
  cases q with
  | prepare n =>
    refine Answers.run (s := (effectiveAttributes · n)) ?_
    exact answers_effective_exact hf hc hlegible n (Nat.lt_succ_of_lt hfuel) hd
  | has n t =>
    refine Answers.run (s := (hasAttribute · n t)) ?_
    exact (answers_effective_exact hf hc hlegible n hfuel hd).bind fun s e he =>
      Answers.pure ⟨he.1, s, he.2, rfl⟩

end AttributeQuery

/-- The context after a number of questions. -/
def afterQueries (c : Context) (past : List AttributeQuery) : Context :=
  past.foldl (fun d q => (q.ask.exec d).2) c

theorem recalls_afterQueries (hf : c.arena.Forest) (hc : c.arena.Consistent)
    (hlegible : ∀ m, c.arena.Legible m) (past : List AttributeQuery) (hd : Recalls c d) :
    Recalls c (afterQueries d past) := by
  induction past generalizing d with
  | nil => exact hd
  | cons q past ih =>
    obtain ⟨x, e, hr, he, -⟩ := q.answers_ask hf hc hlegible hd
    refine ih (d := (q.ask.exec d).2) ?_
    rw [hr]
    exact he

/-- **What is remembered about attributes does not show.**  In a forest whose attribute lists can be
read, any question is answered, and its answer after any number of questions in any order is the one
it has at the beginning, and the one it has when all that is remembered is forgotten. -/
theorem attributes_transparent (hf : c.arena.Forest) (hc : c.arena.Consistent)
    (hlegible : ∀ m, c.arena.Legible m) (hempty : c.attributeCache = [])
    (past : List AttributeQuery) (q : AttributeQuery) :
    ∃ x, q.Holds c.arena x ∧ (q.ask.exec c).1 = .ok x ∧
      (q.ask.exec (afterQueries c past)).1 = .ok x ∧
      (q.ask.exec { afterQueries c past with attributeCache := [] }).1 = .ok x := by
  have hstart : Recalls c c := .of_empty (.refl c) hempty
  have hpast := recalls_afterQueries hf hc hlegible past hstart
  have hcleared : Recalls c { afterQueries c past with attributeCache := [] } :=
    .of_empty (hpast.marks.same.remember []) rfl
  obtain ⟨x, d, hr, -, hx⟩ := q.answers_ask hf hc hlegible hstart
  have hsame : ∀ {e}, Recalls c e → (q.ask.exec e).1 = .ok x := by
    intro e he
    obtain ⟨y, e', hr', -, hy⟩ := q.answers_ask hf hc hlegible he
    rw [hr', hx.unique hy]
  exact ⟨x, hx, by rw [hr], hsame hpast, hsame hcleared⟩

/-- The requests that make a program with a class that is final and enumerable.  Its method is
protected, and the name of a type stands in the body of the method. -/
def listedHistory : List Command :=
  [.create .program {}, .create .directiveList {}, .create .class_ {}, .create .directiveList {},
   .create .function {}, .create .directiveList {}, .create .identifier {},
   .create .attributes {}, .create .final {}, .create .identifier {},
   .create .attributes {}, .create .protected_ {},
   .setText ⟨9⟩ "enumerable", .setAttribute ⟨6⟩ .type true,
   .appendChild ⟨0⟩ ⟨1⟩, .appendChild ⟨1⟩ ⟨2⟩, .appendChild ⟨2⟩ ⟨3⟩, .appendChild ⟨3⟩ ⟨4⟩,
   .appendChild ⟨4⟩ ⟨5⟩, .appendChild ⟨5⟩ ⟨6⟩, .appendChild ⟨7⟩ ⟨8⟩, .appendChild ⟨7⟩ ⟨9⟩,
   .appendChild ⟨10⟩ ⟨11⟩, .setAttributeNode ⟨2⟩ (some ⟨7⟩), .setAttributeNode ⟨4⟩ (some ⟨10⟩)]

/-- The context of that program. -/
def listedContext : Context := { arena := after listedHistory, parser := fun _ => .rejected }

theorem consistent_listedContext : listedContext.arena.Consistent :=
  .of_history listedHistory (by rw [listedContext])

theorem forest_listedContext : listedContext.arena.Forest := by
  have hup : ∀ i < listedContext.arena.size, ∀ p ∈ listedContext.arena.parent ⟨i⟩,
      p.index < i := by decide +kernel
  exact Arena.forest_of_lt fun n p hp => hup n.index (Arena.lt_size_of_parent hp) p hp

theorem legible_listedContext (m : NodeId) : listedContext.arena.Legible m := by
  have hentries : ∀ i < 12, ∀ e ∈ listedContext.arena.attributeEntries ⟨i⟩,
      (listedContext.arena.entryAttribute e).any (·.accepts (listedContext.arena.kind ⟨i⟩))
        = true := by decide +kernel
  intro e he
  have hm : m.index < 12 := by
    by_contra hm
    have hsize : listedContext.arena.size = 12 := by decide +kernel
    have hout : listedContext.arena.size ≤ m.index := hsize ▸ Nat.le_of_not_lt hm
    rw [Arena.attributeEntries, Arena.attributeNode, Arena.node_of_size_le hout] at he
    exact absurd he List.not_mem_nil
  exact (Option.any_eq_true _ _).1 (hentries m.index hm e he)

/-- The method is enumerable like its class, before and after the class, the method and the name in
its body have been asked for their attributes. -/
theorem attributes_transparent_method :
    listedContext.arena.Forest ∧ listedContext.arena.Consistent ∧
      (∀ m, listedContext.arena.Legible m) ∧ listedContext.attributeCache = [] ∧
      ((AttributeQuery.has ⟨4⟩ .enumerable).ask.exec listedContext).1 = .ok true ∧
      ((AttributeQuery.has ⟨4⟩ .enumerable).ask.exec (afterQueries listedContext
        [.has ⟨6⟩ .type, .prepare ⟨2⟩, .has ⟨4⟩ .final])).1 = .ok true := by
  have hfirst : ((run (hasAttribute · ⟨4⟩ .enumerable)).exec listedContext).1 = .ok true :=
    eq_ok_of_toOption (by decide +kernel)
  obtain ⟨x, -, hx, hpast, -⟩ := attributes_transparent forest_listedContext
    consistent_listedContext legible_listedContext rfl
    [.has ⟨6⟩ .type, .prepare ⟨2⟩, .has ⟨4⟩ .final] (.has ⟨4⟩ .enumerable)
  obtain rfl : true = x := Except.ok.inj (hfirst.symm.trans hx)
  exact ⟨forest_listedContext, consistent_listedContext, legible_listedContext, rfl, hfirst, hpast⟩

end Search

end SymbolTree
