import SymbolTree.Proofs.Search.Effective
import SymbolTree.Proofs.Search.Yields

/-!
# Attributes that a search works out

A search works attributes out once and remembers them.  While it does, the node has a provisional
entry among what is remembered, so that the statement about a search carries the nodes whose
attributes are being worked out at the moment.  Where attributes are inherited in a circle such a
node is asked again, but then it has no effective attributes.

## Main statement

* `Search.yields_answer_effective` — where what is remembered agrees with the tree, the attributes
  that a search answers agree with it as well.
-/

set_option autoImplicit false
namespace SymbolTree

namespace Search

/-- Nothing has changed since `c` but locks, messages, rejections and what is remembered about
attributes. -/
structure Same (c d : Context) : Prop where
  /-- The rest is the same. -/
  eq : d = { c with
    arena := { c.arena with locks := d.arena.locks }
    diagnostics := d.diagnostics
    rejections := d.rejections
    attributeCache := d.attributeCache }
  /-- There are as many locks. -/
  locks : d.arena.locks.size = c.arena.locks.size

namespace Same

variable {c d : Context}

theorem refl (c : Context) : Same c c := ⟨rfl, rfl⟩

theorem nodes (h : Same c d) : d.arena.nodes = c.arena.nodes := congrArg (·.arena.nodes) h.eq

theorem alike (h : Same c d) : c.arena.Alike d.arena := .of_nodes h.nodes

theorem inst (h : Same c d) : d.arena.inst = c.arena.inst := by
  funext n
  rw [Arena.inst, Arena.inst, Arena.link, Arena.link, h.alike.live, Arena.node, Arena.node,
    h.nodes]

theorem ancestors (h : Same c d) : d.arena.ancestors = c.arena.ancestors := by
  funext n
  rw [Arena.ancestors, Arena.ancestors, Arena.size, h.nodes]
  exact h.alike.ancestorsFrom _ n

theorem consistent (h : Same c d) (hc : c.arena.Consistent) : d.arena.Consistent :=
  hc.of_locks h.nodes h.locks

theorem lock (h : Same c d) (n : NodeId) : Same c { d with arena := d.arena.lock n } :=
  ⟨congrArg (fun d : Context => { d with arena := d.arena.lock n }) h.eq,
    (Array.size_modify ..).trans h.locks⟩

/-- A guard that is dropped leaves the nodes as they are. -/
theorem drop (h : Same c d) (g : Guard) : Same c { d with arena := g.drop d.arena } := by
  have hdrop : g.drop d.arena = { c.arena with locks := (g.drop d.arena).locks } := by
    dsimp only
    rw [← h.nodes, ← Arena.nodes_drop g d.arena]
  refine ⟨?_, (Arena.size_locks_drop g d.arena).trans h.locks⟩
  rw [hdrop]
  exact congrArg (fun e : Context =>
    { e with arena := { c.arena with locks := (g.drop d.arena).locks } }) h.eq

theorem message (h : Same c d) (ds : Diagnostics) : Same c { d with diagnostics := ds } :=
  ⟨congrArg (fun d : Context => { d with diagnostics := ds }) h.eq, h.locks⟩

theorem remember (h : Same c d) (l : List (NodeId × AttributeSet)) :
    Same c { d with attributeCache := l } :=
  ⟨congrArg (fun d : Context => { d with attributeCache := l }) h.eq, h.locks⟩

end Same

/-- A property of contexts that differ from `c` by no more than that, and that looks neither at the
locks nor at the messages. -/
structure Inert (c : Context) (P : Context → Prop) : Prop where
  /-- Nothing else has changed. -/
  same : ∀ {d}, P d → Same c d
  /-- A lock does not matter. -/
  lock : ∀ {d}, P d → ∀ n, P { d with arena := d.arena.lock n }
  /-- Nor does a guard that is given up. -/
  drop : ∀ {d}, P d → ∀ g : Guard, P { d with arena := g.drop d.arena }
  /-- Nor do messages. -/
  message : ∀ d ds, P d → P { d with diagnostics := ds }

/-- Nothing has changed since `c`, and what is remembered about the nodes in `tree` agrees with
their effective attributes, except for the nodes whose attributes are being worked out. -/
structure Settled (tree : NodeId → Prop) (c : Context) (busy : List NodeId) (d : Context) :
    Prop where
  /-- Nothing has changed. -/
  same : Same c d
  /-- What is remembered agrees. -/
  agrees : ∀ m s, tree m → m ∉ busy → d.attributeCache.lookup m = some s → c.arena.Fits m s
  /-- What is remembered now is about the nodes in `tree`, or was remembered before. -/
  known : ∀ m s, d.attributeCache.lookup m = some s →
    tree m ∨ (c.attributeCache.lookup m).isSome = true

namespace Settled

variable {tree : NodeId → Prop} {c d : Context} {busy : List NodeId}

/-- Nothing is being worked out, so all that is remembered fits. -/
theorem start (h : ∀ m s, tree m → c.attributeCache.lookup m = some s → c.arena.Fits m s) :
    Settled tree c [] c :=
  ⟨.refl c, fun m s hm _ => h m s hm, fun m s hs => .inr (by rw [hs]; rfl)⟩

theorem lock (h : Settled tree c busy d) (n : NodeId) :
    Settled tree c busy { d with arena := d.arena.lock n } :=
  ⟨h.same.lock n, h.agrees, h.known⟩

theorem drop (h : Settled tree c busy d) (g : Guard) :
    Settled tree c busy { d with arena := g.drop d.arena } :=
  ⟨h.same.drop g, h.agrees, h.known⟩

theorem message (h : Settled tree c busy d) (ds : Diagnostics) :
    Settled tree c busy { d with diagnostics := ds } :=
  ⟨h.same.message ds, h.agrees, h.known⟩

theorem inert (tree : NodeId → Prop) (c : Context) (busy : List NodeId) :
    Inert c (Settled tree c busy) :=
  ⟨same, lock, drop, fun _ ds h => h.message ds⟩

/-- Something is remembered about a node whose attributes are being worked out. -/
theorem remember (h : Settled tree c busy d) {n : NodeId} (hn : tree n) (s : AttributeSet) :
    Settled tree c (n :: busy) { d with attributeCache := (n, s) :: d.attributeCache } := by
  refine ⟨h.same.remember _, fun m u hm hbusy hu => ?_, fun m u hu => ?_⟩
  · rw [List.mem_cons, not_or] at hbusy
    have hne : (m == n) = false := by simpa using hbusy.1
    rw [List.lookup_cons, hne] at hu
    exact h.agrees m u hm hbusy.2 hu
  · rw [List.lookup_cons] at hu
    split at hu
    · next heq =>
      rw [beq_iff_eq] at heq
      exact .inl (heq ▸ hn)
    · exact h.known m u hu

/-- Nodes whose attributes are being worked out may be counted more than once. -/
theorem contract {n : NodeId} (h : Settled tree c (n :: n :: busy) d) :
    Settled tree c (n :: busy) d :=
  ⟨h.same, fun m s hm hbusy => h.agrees m s hm (by simpa using hbusy), h.known⟩

/-- The attributes of a node were worked out. -/
theorem finish {n : NodeId} {s : AttributeSet} (h : Settled tree c (n :: busy) d)
    (hs : d.attributeCache.lookup n = some s) (hfits : c.arena.Fits n s) :
    Settled tree c busy d := by
  refine ⟨h.same, fun m u hm hbusy hu => ?_, h.known⟩
  by_cases hmn : m = n
  · subst hmn
    rw [hs] at hu
    cases hu
    exact hfits
  · exact h.agrees m u hm (by simpa [hmn] using hbusy) hu

end Settled

variable {tree : NodeId → Prop} {c : Context} {busy : List NodeId}

/-! ## One list -/

section Inert

variable {P : Context → Prop}

theorem yields_error (hP : ∀ c ds, P c → P { c with diagnostics := ds }) (code : Code)
    (n : NodeId) (text : String) : Yields P (error code n text) fun _ => P :=
  Yields.modify fun _ hd => hP _ _ hd

variable (hP : Inert c P)

include hP

/-- An attribute is added as the tree says, be it that a rival is reported. -/
theorem yields_addAttribute (n : NodeId) (s : AttributeSet) (t : Attribute) :
    Yields P (addAttribute n s t) fun r d => P d ∧ r = s.add t := by
  refine Yields.bind (Yields.ask fun d x hd _ => hd) fun _ => ?_
  rw [AttributeSet.add]
  cases s.conflict? t with
  | none => exact Yields.pure fun d hd => ⟨hd, rfl⟩
  | some g =>
    exact (yields_error hP.message _ _ _).bind fun _ => Yields.pure fun d hd => ⟨hd, rfl⟩

/-- An entry that stands for an attribute by itself is not looked for. -/
theorem yields_addListed {n e : NodeId} (s : AttributeSet)
    (he : (c.arena.entryAttribute e).isSome = true) (fuel : Nat) :
    Yields P (answer fuel (.addListed n e s)) fun r d => P d ∧ r = c.arena.addEntry s e := by
  obtain ⟨t, ht⟩ := Option.isSome_iff_exists.1 he
  cases fuel with
  | zero => exact Yields.throw
  | succ fuel =>
    have hadd : Yields P (addAttribute n s t) fun r d => P d ∧ r = c.arena.addEntry s e := by
      rw [Arena.addEntry, ht]
      exact yields_addAttribute hP n s t
    refine Yields.arena_bind fun d hd => ?_
    dsimp only
    rw [(hP.same hd).alike.kind]
    rw [Arena.entryAttribute] at ht
    split
    · next hk =>
      rw [if_pos hk] at ht
      refine Yields.bind_at (Yields.nameOf e) fun name d' hd' => ?_
      rw [hd'.2, hd'.1, (hP.same hd).alike.name, ht]
      exact hadd.start hd
    · next hk =>
      rw [if_neg hk] at ht
      rw [ht]
      exact hadd.start hd

/-- The entries of a list are added from the first to the last. -/
theorem yields_foldl_addListed {n : NodeId} (fuel : Nat) (es : List NodeId) (s : AttributeSet)
    (hes : ∀ e ∈ es, (c.arena.entryAttribute e).isSome = true) :
    Yields P (es.foldlM (fun s e => answer fuel (.addListed n e s)) s)
      fun r d => P d ∧ r = es.foldl c.arena.addEntry s := by
  induction es generalizing s with
  | nil => exact Yields.pure fun d hd => ⟨hd, rfl⟩
  | cons e es ih =>
    rw [List.foldlM_cons]
    refine (yields_addListed hP s (hes e List.mem_cons_self) fuel).bind_at fun r d hd => ?_
    rw [List.foldl_cons, ← hd.2]
    exact (ih r fun e he => hes e (List.mem_cons_of_mem _ he)).start hd.1

/-- All that a list of attributes says is added. -/
theorem yields_addAllListed {n : NodeId} (hn : c.arena.BuiltIn n) (fuel : Nat)
    (s : AttributeSet) :
    Yields P (addAllListed (answer fuel) n s) fun r d =>
      P d ∧ r = (c.arena.attributeEntries n).foldl c.arena.addEntry s := by
  refine Yields.arena_bind fun d hd => ?_
  have hentries := hn
  rw [Arena.BuiltIn, Arena.attributeEntries] at hentries
  rw [(hP.same hd).alike.attributeNode, (hP.same hd).alike.children, Arena.attributeEntries]
  cases hlist : c.arena.attributeNode n with
  | none => exact Yields.pure fun e he => ⟨he ▸ hd, rfl⟩
  | some list =>
    rw [hlist] at hentries
    exact (yields_foldl_addListed hP fuel _ s hentries).withLock
      (fun e he => hP.lock (he ▸ hd) list) fun r e he => ⟨hP.drop he.1 _, he.2⟩

/-- A function with a body loses the attribute in the tree as well. -/
theorem yields_dropNative {n : NodeId} (written : Bool) (s : AttributeSet) :
    Yields P (dropNative n written s) fun r d => P d ∧ r = c.arena.withoutNative n s := by
  refine Yields.arena_bind fun d hd => ?_
  rw [(hP.same hd).alike.kind, (hP.same hd).alike.children, Arena.withoutNative]
  split
  · dsimp only
    split
    · exact ((yields_error hP.message _ _ _).bind fun _ =>
        Yields.pure fun e he => ⟨he, rfl⟩).start hd
    · exact Yields.pure fun e he => ⟨he ▸ hd, rfl⟩
  · exact Yields.pure fun e he => ⟨he ▸ hd, rfl⟩

end Inert

/-! ## All that is inherited -/

/-- Attributes are inherited as the tree has them, if those of the parent are known. -/
theorem yields_addInherited {n : NodeId} {s : AttributeSet} {fuel : Nat}
    (hk : c.arena.kind n ≠ .program) (hs : s.Agrees (c.arena.listedAttributes n))
    (hparent : ∀ p, c.arena.InheritsFrom n p →
      Yields (Settled tree c busy) (answer fuel (.effectiveAttributes p)) fun r d =>
        Settled tree c busy d ∧ c.arena.Fits p r) :
    Yields (Settled tree c busy) (addInherited (answer fuel) n s) fun r d =>
      Settled tree c busy d ∧ c.arena.Fits n (c.arena.withoutNative n r) := by
  refine Yields.arena_bind fun d hd => ?_
  rw [hd.same.alike.parent, hd.same.alike.kind]
  have halone : c.arena.parent n = none ∨ c.arena.kind n = .package →
      c.arena.Fits n (c.arena.withoutNative n s) := by
    intro hp t ht
    rw [ht.unique (.alone hk hp)]
    exact Arena.withoutNative_agrees hs
  cases hp : c.arena.parent n with
  | none => exact Yields.pure fun e he => ⟨he ▸ hd, halone (.inl hp)⟩
  | some p =>
    dsimp only
    split
    · next hk' => exact Yields.pure fun e he => ⟨he ▸ hd, halone (.inr hk')⟩
    · next hk' =>
      refine ((hparent p ⟨hk, hk', hp⟩).start hd).bind fun inherited => Yields.pure fun e he => ?_
      refine ⟨he.1, fun t ht => ?_⟩
      cases ht with
      | program hk'' => exact absurd hk'' hk
      | alone _ hp' =>
        rcases hp' with hp' | hp'
        · rw [hp] at hp'; cases hp'
        · exact absurd hp' hk'
      | inherited _ _ hp' h =>
        cases hp.symm.trans hp'
        exact Arena.withoutNative_agrees (hs.inherit (he.2 _ h) _)

/-- Attributes are worked out as the tree has them, if those to be inherited are. -/
theorem yields_workOut {n : NodeId} (hn : c.arena.BuiltIn n) (fuel : Nat)
    (hinherit : ∀ s : AttributeSet, s.Agrees (c.arena.listedAttributes n) →
      Yields (Settled tree c busy) (addInherited (answer fuel) n s) fun r d =>
        Settled tree c busy d ∧ c.arena.Fits n (c.arena.withoutNative n r)) :
    Yields (Settled tree c busy) (do
      let listed ← addAllListed (answer fuel) n (c.arena.node n).attributes
      let s ← addInherited (answer fuel) n listed
      dropNative n (listed.contains .native) s) fun r d =>
        Settled tree c busy d ∧ c.arena.Fits n r := by
  refine (yields_addAllListed (Settled.inert ..) hn fuel _).bind_at fun listed d hd => ?_
  have hlisted : listed.Agrees (c.arena.listedAttributes n) := by
    rw [hd.2, Arena.listedAttributes]
    exact Arena.foldl_addEntry_agrees (.set_type _) _
  refine ((hinherit listed hlisted).start hd.1).bind_at fun s e he => ?_
  refine ((yields_dropNative (Settled.inert ..) _ s).start he.1).mono (fun _ h => h)
    fun r d h => ⟨h.1, ?_⟩
  rw [h.2]
  exact he.2

/-- What was worked out is remembered in the place of what was written. -/
theorem yields_effectiveAttributes {n : NodeId} (htree : tree n)
    (hbusy : n ∈ busy → ∀ t, ¬ c.arena.Effective n t) (fuel : Nat)
    (hwork : c.arena.kind n ≠ .program → Yields (Settled tree c (n :: busy)) (do
      let listed ← addAllListed (answer fuel) n (c.arena.node n).attributes
      let s ← addInherited (answer fuel) n listed
      dropNative n (listed.contains .native) s) fun r d =>
        Settled tree c (n :: busy) d ∧ c.arena.Fits n r) :
    Yields (Settled tree c busy) (effectiveAttributes (answer fuel) n) fun r d =>
      Settled tree c busy d ∧ c.arena.Fits n r ∧ d.attributeCache.lookup n = some r := by
  refine Yields.get_bind fun d hd => ?_
  cases hcache : d.attributeCache.lookup n with
  | some s =>
    refine Yields.pure fun e he => ?_
    subst he
    refine ⟨hd, fun t ht => ?_, hcache⟩
    exact hd.agrees n s htree (fun h => hbusy h t ht) hcache t ht
  | none =>
    dsimp only
    rw [hd.same.alike.kind, (hd.same.alike n).attributes]
    refine Yields.bind (Q := fun _ e => Settled tree c (n :: busy) e ∧
      e.attributeCache.lookup n = some (c.arena.node n).attributes) (Yields.modify ?_) fun _ => ?_
    · intro e he
      subst he
      exact ⟨hd.remember htree _, by rw [List.lookup_cons, beq_self_eq_true]⟩
    · split
      · next hk =>
        refine Yields.pure fun e he => ?_
        have hown : c.arena.Fits n (c.arena.node n).attributes := by
          intro t ht
          rw [ht.unique (.program hk)]
          exact .set_type _
        exact ⟨he.1.finish he.2 hown, hown, he.2⟩
      · next hk =>
        have hrest : ∀ s, c.arena.Fits n s → Yields (Settled tree c (n :: busy))
            (do remember n s; return s) fun r d =>
              Settled tree c busy d ∧ c.arena.Fits n r ∧ d.attributeCache.lookup n = some r := by
          intro s hs
          refine Yields.bind (Q := fun _ d => Settled tree c busy d ∧
            d.attributeCache.lookup n = some s) (Yields.modify fun e he => ?_) fun _ =>
            Yields.pure fun e he => ⟨he.1, hs, he.2⟩
          have hlookup : ((n, s) :: e.attributeCache).lookup n = some s := by
            rw [List.lookup_cons, beq_self_eq_true]
          exact ⟨(he.remember htree s).contract.finish hlookup hs, hlookup⟩
        have hall := (hwork hk).bind_at fun s e he => (hrest s he.2).start he.1
        simp only [bind_assoc] at hall
        exact hall.mono (fun _ h => h.1) fun _ _ h => h

/-- **What a search works out agrees with the tree.**  The nodes whose attributes are being worked
out are those that inherit from `n`. -/
theorem yields_answer_effective (hclosed : ∀ m p, tree m → c.arena.InheritsFrom m p → tree p)
    (hbuiltIn : ∀ m, tree m → c.arena.BuiltIn m) {n : NodeId} (hn : tree n) (fuel : Nat)
    (hbusy : ∀ m ∈ busy, Relation.TransGen c.arena.InheritsFrom m n) :
    Yields (Settled tree c busy) (answer fuel (.effectiveAttributes n)) fun r d =>
      Settled tree c busy d ∧ c.arena.Fits n r ∧ d.attributeCache.lookup n = some r := by
  induction fuel generalizing n busy with
  | zero => exact Yields.throw
  | succ fuel ih =>
    refine yields_effectiveAttributes hn (fun h t ht => ht.not_cyclic (hbusy n h)) fuel fun hk =>
      yields_workOut (hbuiltIn n hn) fuel fun s hs => yields_addInherited hk hs fun p hp => ?_
    have hbusy' : ∀ m ∈ n :: busy, Relation.TransGen c.arena.InheritsFrom m p := by
      intro m hm
      rcases List.mem_cons.1 hm with rfl | hm
      · exact .single hp
      · exact (hbusy m hm).tail hp
    exact (ih (hclosed n p hn hp) hbusy').mono (fun _ h => h) fun r d h => ⟨h.1, h.2.1⟩

end Search

end SymbolTree
