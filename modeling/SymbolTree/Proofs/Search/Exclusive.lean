import SymbolTree.Proofs.Search.Rivals
import SymbolTree.Proofs.Search.Stable.Task
import SymbolTree.Proofs.Search.Visible.Remembered

/-!
# Rivals among effective attributes

No rivals are written on a node (`Arena.Legal`), and what its attribute list adds is compared with
what is there.  What the node inherits is compared with less than that, so that rivals can meet in
its effective attributes: a constructor of a static class is static as well.

Nothing else brings rivals together, whatever was asked before, whether it succeeded or failed, and
however the tree was changed in between.  What is remembered about attributes may be out of date, but
it never holds rivals that some check keeps apart (`Search.Compatible`), and this is the only thing
that has to be known about the parent of a node to say which rivals can meet in its own attributes
(`Search.Descent`).

## Main statements

* `Search.preserves_effectiveAttributes` — what is remembered holds no rivals that a check keeps apart.
* `Search.effectiveAttributes_exclusive_iff` — when no rivals meet in the effective attributes of a
  node.
* `Search.unchecked_meet`, `Search.rivals_inherited` — that they can meet.
-/

set_option autoImplicit false
namespace SymbolTree.Search

open Attribute (unchecked)

/-! ## What attribute lists add -/

/-- An entry that is added to a set without rivals brings none in. -/
def AddsNoRivals (call : Call) : Prop :=
  ∀ n e (s : AttributeSet), s.Exclusive →
    Yields (fun _ => True) (call (.addListed n e s)) fun r _ => r.Exclusive

variable {call : Call} {s : AttributeSet}

theorem exclusive_addAttribute (n : NodeId) (hs : s.Exclusive) (t : Attribute) :
    Yields (fun _ => True) (addAttribute n s t) fun r _ => r.Exclusive := by
  have hadd := hs.add t
  rw [AttributeSet.add] at hadd
  refine Yields.any.bind fun _ => ?_
  cases hc : s.conflict? t with
  | none =>
    rw [hc] at hadd
    exact Yields.pure fun _ _ => hadd
  | some g => exact Yields.any.bind fun _ => Yields.pure fun _ _ => hs

/-- A message is reported, and nothing is added. -/
theorem exclusive_unchanged {α : Type} {p : Search α} (hs : s.Exclusive) :
    Yields (fun _ => True) (do let _ ← p; return s) fun r _ => r.Exclusive :=
  Yields.any.bind fun _ => Yields.pure fun _ _ => hs

theorem exclusive_foldlM {f : AttributeSet → NodeId → Search AttributeSet}
    (hf : ∀ (s : AttributeSet) e, s.Exclusive → Yields (fun _ => True) (f s e) fun r _ => r.Exclusive)
    (es : List NodeId) (hs : s.Exclusive) :
    Yields (fun _ => True) (es.foldlM f s) fun r _ => r.Exclusive := by
  induction es generalizing s with
  | nil => exact Yields.pure fun _ _ => hs
  | cons e es ih =>
    rw [List.foldlM_cons]
    exact (hf s e hs).bind_at fun r _ hr => (ih hr).start trivial

section

variable (hcall : AddsNoRivals call)

include hcall

theorem exclusive_addVariablePart (n : NodeId) (hs : s.Exclusive) (part : NodeId) :
    Yields (fun _ => True) (addVariablePart call n s part) fun r _ => r.Exclusive := by
  refine Yields.any.bind fun a => ?_
  dsimp only
  split
  · exact exclusive_unchanged hs
  · split
    · exact hcall _ _ _ hs
    · exact exclusive_unchanged hs

theorem exclusive_addVariable (n : NodeId) (name : String) (v : NodeId) (hs : s.Exclusive) :
    Yields (fun _ => True) (addVariable call n name v s) fun r _ => r.Exclusive := by
  have hparts : ∀ xs : List NodeId, Yields (fun _ => True) (xs.foldlM (addVariablePart call n) s)
      fun r _ => r.Exclusive := fun xs =>
    exclusive_foldlM (fun _ part hs => exclusive_addVariablePart hcall n hs part) xs hs
  refine Yields.any.bind fun a => ?_
  split
  · exact exclusive_unchanged hs
  · refine Yields.any.bind fun c => ?_
    split
    · exact exclusive_unchanged hs
    · refine Yields.whileExpanding (P := fun _ => True) ?_ (fun _ _ => trivial) fun _ _ _ h => h
      exact (hparts _).withLock (fun _ _ => trivial) fun _ _ h => h

theorem exclusive_addNamed (n entry : NodeId) (hs : s.Exclusive) :
    Yields (fun _ => True) (addNamed call n entry s) fun r _ => r.Exclusive := by
  refine Yields.any.bind fun name => ?_
  split
  · exact exclusive_addAttribute n hs _
  · refine Yields.any.bind fun a => ?_
    extract_lets add
    have hadd : ∀ found, Yields (fun _ => True) (add found) fun r _ => r.Exclusive := by
      intro found
      cases found with
      | none => exact exclusive_unchanged hs
      | some v => exact exclusive_addVariable hcall n name v hs
    split
    · exact Yields.any.bind hadd
    · exact Yields.any.bind hadd

theorem exclusive_addListed (n entry : NodeId) (hs : s.Exclusive) :
    Yields (fun _ => True) (addListed call n entry s) fun r _ => r.Exclusive := by
  refine Yields.any.bind fun a => ?_
  dsimp only
  split
  · exact exclusive_addNamed hcall n entry hs
  · split
    · exact exclusive_addAttribute n hs _
    · exact exclusive_unchanged hs

/-- The attribute list of a node adds nothing that has a rival on the node or in the list. -/
theorem exclusive_addAllListed (n : NodeId) (hs : s.Exclusive) :
    Yields (fun _ => True) (addAllListed call n s) fun r _ => r.Exclusive := by
  refine Yields.any.bind fun a => ?_
  split
  · exact Yields.pure fun _ _ => hs
  · exact (exclusive_foldlM (fun s entry hs => hcall n entry s hs) _ hs).withLock
      (fun _ _ => trivial) fun _ _ h => h

end

theorem addsNoRivals_answer (fuel : Nat) : AddsNoRivals (answer fuel) := by
  induction fuel with
  | zero => exact fun _ _ _ _ => Yields.throw
  | succ fuel ih => exact fun n e s hs => exclusive_addListed ih n e hs

/-! ## What is remembered -/

/-- What is written on nodes is legal, and in what is remembered no rivals meet that some check keeps
apart. -/
structure Compatible (c : Context) : Prop where
  /-- What is written on nodes is legal. -/
  legal : c.arena.Legal
  /-- The rivals that meet are those that are not looked for. -/
  remembered : ∀ e ∈ c.attributeCache, e.2.Checked

instance : Stable Compatible where
  deed _ _ hc h := ⟨h.legal hc.legal, hc.remembered⟩
  same _ _ hc hn hcache := ⟨hc.legal.of_nodes hn, hcache ▸ hc.remembered⟩

variable {c d : Context} {n : NodeId}

theorem Compatible.lookup (hc : Compatible c) (h : c.attributeCache.lookup n = some s) :
    s.Checked := by
  obtain ⟨front, back, hcache, -⟩ := List.lookup_eq_some_iff.1 h
  exact hc.remembered (n, s) (by simp [hcache])

theorem preserves_remember (n : NodeId) (hs : s.Checked) :
    Preserves Compatible (remember n s) := by
  refine ⟨Keeps.modify fun c hc => ⟨hc.legal, fun e he => ?_⟩⟩
  rcases List.mem_cons.1 he with rfl | he
  · exact hs
  · exact hc.remembered e he

/-- The attributes of another node, when they are asked for, are remembered. -/
theorem ensures_effective {fuel : Nat} (h : Upholds Compatible (answer fuel)) (n : NodeId) :
    Ensures Compatible (answer fuel (.effectiveAttributes n))
      (fun s d => Compatible d ∧ s.Checked ∧ d.attributeCache.lookup n = some s)
      fun _ => Compatible := by
  cases fuel with
  | zero => exact Ensures.throw fun _ hc => hc
  | succ fuel =>
    refine ((h (.effectiveAttributes n)).keeps.and (yields_remembered (answer fuel) n)).mono
      (fun c hc => ⟨hc, trivial⟩) (fun s d hd => ?_) fun _ _ hd => hd.1
    exact ⟨hd.1, hd.1.lookup hd.2, hd.2⟩

/-- What survives a step, with what is known of its answer. -/
theorem Preserves.ensures {α : Type} {I : Context → Prop} {p : Search α} {φ : α → Prop}
    (h : Preserves I p) (hp : Yields (fun _ => True) p fun x _ => φ x) :
    Ensures I p (fun x d => I d ∧ φ x) fun _ => I :=
  (h.keeps.and hp).mono (fun _ hc => ⟨hc, trivial⟩) (fun _ _ hd => hd) fun _ _ hd => hd.1

/-- What a node inherits is an addition of what is known of its parent. -/
theorem ensures_addInherited {fuel : Nat} (h : Upholds Compatible (answer fuel)) (n : NodeId)
    (hs : s.Exclusive) :
    Ensures Compatible (addInherited (answer fuel) n s) (fun r d => Compatible d ∧ r.Checked)
      fun _ => Compatible := by
  have halone : Ensures Compatible (pure s) (fun r d => Compatible d ∧ r.Checked)
      fun (_ : Stop) => Compatible := Ensures.pure fun c hc => ⟨hc, hs.checked⟩
  refine Ensures.get_bind fun c hc => ?_
  refine Ensures.mono (P := Compatible) ?_ (fun _ he => he ▸ hc) (fun _ _ hd => hd) fun _ _ hd => hd
  split
  · exact halone
  · split
    · exact halone
    · refine (ensures_effective h _).bind fun i => Ensures.pure fun d hd => ?_
      exact ⟨hd.1, hd.2.1.inherit hs _⟩

/-- A function with a body only loses an attribute, and nothing is remembered yet. -/
theorem yields_dropNative_le (d : Context) (n : NodeId) (written : Bool) (s : AttributeSet) :
    Yields (· = d) (dropNative n written s) fun r e =>
      e.attributeCache = d.attributeCache ∧ ∀ x, r.contains x = true → s.contains x = true := by
  have hdrop : ∀ x, (s.set .native false).contains x = true → s.contains x = true := by
    intro x hx
    obtain ⟨-, hx⟩ : x ≠ .native ∧ s.contains x = true := by simpa using hx
    exact hx
  refine Yields.arena_bind fun d' hd' => ?_
  subst hd'
  split
  · dsimp only
    split
    · exact Yields.bind (Q := fun _ e => e.attributeCache = d'.attributeCache)
        (Yields.modify fun e he => he ▸ rfl) fun _ => Yields.pure fun _ he => ⟨he, hdrop⟩
    · exact Yields.pure fun _ he => ⟨he ▸ rfl, hdrop⟩
  · exact Yields.pure fun _ he => ⟨he ▸ rfl, fun _ hx => hx⟩

/-- **What is remembered holds no rivals that a check keeps apart**, be it that the attributes of a
node are worked out or that something fails on the way. -/
theorem preserves_effectiveAttributes {fuel : Nat} (h : Upholds Compatible (answer fuel))
    (n : NodeId) : Preserves Compatible (effectiveAttributes (answer fuel) n) := by
  refine ⟨Keeps.get_bind fun c hc => ?_⟩
  split
  · exact Keeps.pure
  · -- what is written on the node is remembered until its attributes are worked out
    have hown : (c.arena.node n).attributes.Exclusive := (hc.legal n).compatible
    refine Keeps.bind (preserves_remember n hown.checked).keeps fun _ => ?_
    split
    · exact Keeps.pure
    · refine Ensures.bind_of ((modular_addAllListed modular_preserves h.answered n _).ensures
        (exclusive_addAllListed (addsNoRivals_answer fuel) n hown)) fun listed hlisted => ?_
      refine (ensures_addInherited h n hlisted).bind_of fun s hs => ?_
      refine Ensures.bind_of ((modular_dropNative modular_preserves n _ s).ensures
        (Ensures.at fun d _ => (yields_dropNative_le d n _ s).mono (fun _ h => h)
          fun _ _ h => h.2)) fun r hr => ?_
      exact Keeps.bind (preserves_remember n (hs.of_le hr)).keeps fun _ => Keeps.pure

theorem upholds_compatible (fuel : Nat) : Upholds Compatible (answer fuel) :=
  upholds_answer (fun _ h n => preserves_effectiveAttributes h n) fuel

/-! ## Where the attributes of a node come from -/

/-- The attributes of a node that were worked out: its own and those of its list, and of those that
are remembered for its parent what it inherits. -/
inductive Descent (a : Arena) (d : Context) (n : NodeId) (s : AttributeSet) : Prop
  | alone (hp : ∀ p, ¬ a.InheritsFrom n p) (hs : s.Exclusive)
  | inherited {p : NodeId} {l i : AttributeSet} {k : Kind} (hp : a.InheritsFrom n p)
      (hi : i.Checked) (hremembered : d.attributeCache.lookup p = some i) (hl : l.Exclusive)
      (hs : ∀ x, s.contains x = true → (l.inherit i k).contains x = true)

theorem Descent.of_le {a : Arena} {e : Context} {r : AttributeSet} (h : Descent a d n s)
    (hcache : e.attributeCache = d.attributeCache)
    (hr : ∀ x, r.contains x = true → s.contains x = true) : Descent a e n r := by
  cases h with
  | alone hp hs => exact .alone hp (hs.of_le hr)
  | inherited hp hi hremembered hl hs =>
    exact .inherited hp hi (hcache ▸ hremembered) hl fun x hx => hs x (hr x hx)

theorem yields_addInherited_descent (hd : Compatible d) (hgrows : c.arena.Grows d.arena)
    (hn : n.index < c.arena.size) (hk : c.arena.kind n ≠ .program) (hs : s.Exclusive) (fuel : Nat) :
    Yields (· = d) (addInherited (answer fuel) n s) fun r e => Descent c.arena e n r := by
  refine Yields.arena_bind fun d' hd' => ?_
  subst hd'
  rw [hgrows.parent hn, hgrows.kind hn]
  cases hp : c.arena.parent n with
  | none => exact Yields.pure fun _ _ => .alone (fun p hp' => by cases hp.symm.trans hp'.2.2) hs
  | some p =>
    dsimp only
    split
    · next hk' => exact Yields.pure fun _ _ => .alone (fun p hp' => hp'.2.1 hk') hs
    · next hk' =>
      have hparent : Yields (· = d') (answer fuel (.effectiveAttributes p)) fun i e =>
          i.Checked ∧ e.attributeCache.lookup p = some i :=
        (ensures_effective (upholds_compatible fuel) p).mono (fun _ he => he ▸ hd)
          (fun _ _ he => he.2) fun _ _ _ => trivial
      exact hparent.bind fun i => Yields.pure fun e he =>
        .inherited ⟨hk, hk', hp⟩ he.1 he.2 hs fun _ hx => hx

/-- While the attribute list of a node is looked through, nodes are only added. -/
theorem yields_addAllListed_compatible (hd : Compatible d) (hconsistent : d.arena.Consistent)
    (n : NodeId) (hs : s.Exclusive) (fuel : Nat) :
    Yields (· = d) (addAllListed (answer fuel) n s) fun l e =>
      Compatible e ∧ d.arena.Grows e.arena ∧ l.Exclusive := by
  refine Yields.of_exec fun d' l e hd' hr => ?_
  subst hd'
  have hcourse : Course none d' e :=
    (modular_addAllListed modular_follows (faithful_answer fuel).answered n s).of_ok hconsistent hr
  have hcompatible : Compatible _ :=
    (modular_addAllListed modular_preserves (upholds_compatible fuel).answered n s).state hd
  rw [hr] at hcompatible
  exact ⟨hcompatible, .of_frame (hcourse.frame hconsistent),
    (exclusive_addAllListed (addsNoRivals_answer fuel) n hs).of_ok trivial hr⟩

/-- The attributes of a node that is not remembered are worked out and then remembered. -/
theorem yields_descent (hc : Compatible c) (hconsistent : c.arena.Consistent)
    (hn : n.index < c.arena.size) (hnone : c.attributeCache.lookup n = none) (fuel : Nat) :
    Yields (· = c) (effectiveAttributes (answer fuel) n) fun s d =>
      ∃ e, Descent c.arena e n s ∧ d.attributeCache = (n, s) :: e.attributeCache := by
  have hown : (c.arena.node n).attributes.Exclusive := (hc.legal n).compatible
  have hremember : ∀ (s : AttributeSet) e, Yields (· = e) (remember n s) fun _ d =>
      d = { e with attributeCache := (n, s) :: e.attributeCache } := fun s e =>
    Yields.modify fun _ hd => hd ▸ rfl
  refine Yields.get_bind fun c' hc' => ?_
  subst hc'
  rw [hnone]
  refine (hremember (c'.arena.node n).attributes c').bind_at fun _ d hd => ?_
  split
  · next hk =>
    refine Yields.pure fun e he => ⟨c', .alone (fun p hp => hp.1 hk) hown, ?_⟩
    rw [he, hd]
  · next hk =>
    have hdc : Compatible d := hd ▸ (preserves_remember n hown.checked).state hc
    have hlisted := yields_addAllListed_compatible hdc (hd ▸ hconsistent) n hown fuel
    rw [show d.arena = c'.arena from hd ▸ rfl] at hlisted
    refine hlisted.bind_at fun listed e he => ?_
    refine Yields.bind_at (yields_addInherited_descent he.1 he.2.1 hn hk he.2.2 fuel)
      fun s e' he' => ?_
    refine (yields_dropNative_le e' n _ s).bind_at fun r e'' he'' => ?_
    refine (hremember r e'').bind fun _ => Yields.pure fun d' hd' => ⟨e'', ?_, by rw [hd']⟩
    exact he'.of_le he''.1 he''.2

/-! ## Contexts that come up -/

/-- The contexts that come up.  In the beginning the tree is what some requests have made of it.
Then a compiler is asked for things, the tree is changed, and what is remembered may be
forgotten. -/
inductive Arises : Context → Prop
  | fresh (history : List Command) {c : Context} (harena : c.arena = after history)
      (hempty : c.attributeCache = []) : Arises c
  | task (t : Task) {c : Context} (h : Arises c) : Arises (t.run.exec c).2
  | command (r : Command) {c : Context} (h : Arises c) :
      Arises { c with arena := (r.run.exec c.arena).2 }
  | others {c d : Context} (h : Arises c) (harena : d.arena = c.arena)
      (hcache : d.attributeCache = c.attributeCache ∨ d.attributeCache = []) : Arises d

theorem Arises.consistent (h : Arises c) : c.arena.Consistent := by
  induction h with
  | fresh history harena => exact .of_history history harena
  | task t _ ih => exact (t.continues ih).consistent
  | command r _ ih => exact (r.keeps_consistent).state ih
  | others _ harena _ ih => exact harena ▸ ih

theorem Arises.compatible (h : Arises c) : Compatible c := by
  induction h with
  | fresh history harena hempty =>
    refine ⟨harena ▸ after_invariant Arena.legal_empty Command.keeps_legal history,
      fun e he => ?_⟩
    rw [hempty] at he
    exact absurd he List.not_mem_nil
  | task t _ ih => exact (preserves_task upholds_compatible t).state ih
  | command r _ ih => exact ⟨r.keeps_legal.state ih.legal, ih.remembered⟩
  | others _ harena hcache ih =>
    refine ⟨harena ▸ ih.legal, fun e he => ?_⟩
    rcases hcache with hcache | hcache
    · exact ih.remembered e (hcache ▸ he)
    · rw [hcache] at he
      exact absurd he List.not_mem_nil

/-! ## When no rivals meet -/

/-- **When the effective attributes of a node are free of rivals.**  Whatever has happened before, no
rivals can meet in them but those of the table.  When they are worked out anew, rivals meet only if
the node inherits from a parent, and one of them is a sort of member, or `native`, that is remembered
for the parent. -/
theorem effectiveAttributes_exclusive_iff (hc : Arises c)
    (hr : (run (effectiveAttributes · n)).exec c = (.ok s, d)) :
    (s.Exclusive ↔ ∀ q ∈ unchecked, s.contains q.1 = true → s.contains q.2 = false) ∧
      (n.index < c.arena.size → c.attributeCache.lookup n = none →
        ((∀ p, ¬ c.arena.InheritsFrom n p) → s.Exclusive) ∧
        ∀ p, c.arena.InheritsFrom n p → ∃ i, d.attributeCache.lookup p = some i ∧
          (s.Exclusive ↔ ∀ q ∈ unchecked, i.contains q.1 = true → s.contains q.1 = true →
            s.contains q.2 = false)) := by
  rw [exec_run] at hr
  have hchecked : s.Checked :=
    ((ensures_effective (upholds_compatible (fuel c + 1)) n).of_ok hc.compatible hr).2.1
  refine ⟨hchecked.exclusive_iff, fun hn hnone => ?_⟩
  obtain ⟨e, hdescent, hcache⟩ :=
    (yields_descent hc.compatible hc.consistent hn hnone (fuel c)).of_ok rfl hr
  cases hdescent with
  | alone hp hs => exact ⟨fun _ => hs, fun p hp' => absurd hp' (hp p)⟩
  | @inherited p l i k hp hi hremembered hl hs =>
    refine ⟨fun h => absurd hp (h p), fun p' hp' => ?_⟩
    obtain rfl : p = p' := Option.some.inj (hp.2.2.symm.trans hp'.2.2)
    rw [hcache, List.lookup_cons]
    cases hpn : p == n with
    | true =>
      -- a node that is its own parent inherits from itself
      refine ⟨s, rfl, hchecked.exclusive_iff.trans (forall₂_congr fun q _ => ?_)⟩
      exact ⟨fun h _ => h, fun h hq => h hq hq⟩
    | false => exact ⟨i, hremembered, AttributeSet.exclusive_iff_inherited hl hi hs⟩

/-! ### A method of a class -/

/-- The requests that make a program with a class that has one attribute and a method in it that has
another. -/
def methodHistory (x y : Attribute) : List Command :=
  [.create .program {}, .create .directiveList {}, .create .class_ {}, .create .directiveList {},
   .create .function {}, .setAttribute ⟨2⟩ x true, .setAttribute ⟨4⟩ y true,
   .appendChild ⟨0⟩ ⟨1⟩, .appendChild ⟨1⟩ ⟨2⟩, .appendChild ⟨2⟩ ⟨3⟩, .appendChild ⟨3⟩ ⟨4⟩]

/-- The context of that program. -/
def methodContext (x y : Attribute) : Context :=
  { arena := after (methodHistory x y), parser := fun _ => .rejected }

theorem arises_methodContext (x y : Attribute) : Arises (methodContext x y) := by
  refine .fresh (methodHistory x y) ?_ rfl
  dsimp only [methodContext]

/-- A public method of a static class is static, and none of its attributes has a rival. -/
theorem effectiveAttributes_exclusive_iff_public :
    Arises (methodContext .static .public_) ∧
      (⟨4⟩ : NodeId).index < (methodContext .static .public_).arena.size ∧
      (methodContext .static .public_).attributeCache.lookup ⟨4⟩ = none ∧
      (methodContext .static .public_).arena.InheritsFrom ⟨4⟩ ⟨3⟩ ∧
      ∃ s d i, (run (effectiveAttributes · ⟨4⟩)).exec (methodContext .static .public_) = (.ok s, d) ∧
        s.contains .static = true ∧ s.contains .public_ = true ∧ s.Exclusive ∧
        d.attributeCache.lookup ⟨3⟩ = some i ∧ i.contains .static = true := by
  have hr : (run (effectiveAttributes · ⟨4⟩)).exec (methodContext .static .public_) =
      (.ok (.ofList [.public_, .static]),
        ((run (effectiveAttributes · ⟨4⟩)).exec (methodContext .static .public_)).2) :=
    exec_of_toOption (by decide +kernel)
  have hsize : (⟨4⟩ : NodeId).index < (methodContext .static .public_).arena.size := by
    decide +kernel
  have hp : (methodContext .static .public_).arena.InheritsFrom ⟨4⟩ ⟨3⟩ :=
    ⟨by decide +kernel, by decide +kernel, by decide +kernel⟩
  have hinherited : ((((run (effectiveAttributes · ⟨4⟩)).exec
      (methodContext .static .public_)).2.attributeCache.lookup ⟨3⟩).map (·.contains .static))
        = some true := by decide +kernel
  obtain ⟨hiff, hanew⟩ :=
    effectiveAttributes_exclusive_iff (arises_methodContext .static .public_) hr
  obtain ⟨i, hi, -⟩ := (hanew hsize rfl).2 ⟨3⟩ hp
  rw [hi] at hinherited
  exact ⟨arises_methodContext .static .public_, hsize, rfl, hp, _, _, i, hr, by decide, by decide,
    hiff.2 (by decide), hi, Option.some.inj hinherited⟩

/-- Every line of the table comes up: a class has the first attribute, and its method the second. -/
theorem unchecked_meet {q : Attribute × Attribute} (hq : q ∈ unchecked) :
    ∃ s d, (run (effectiveAttributes · ⟨4⟩)).exec (methodContext q.1 q.2) = (.ok s, d) ∧
      s.contains q.1 = true ∧ s.contains q.2 = true := by
  have hboth : ∀ q ∈ unchecked, (((run (effectiveAttributes · ⟨4⟩)).exec
      (methodContext q.1 q.2)).1.toOption.any fun s => s.contains q.1 && s.contains q.2) = true := by
    decide +kernel
  obtain ⟨s, hs, hcontains⟩ := (Option.any_eq_true _ _).1 (hboth q hq)
  rw [Bool.and_eq_true] at hcontains
  exact ⟨s, _, exec_of_toOption hs, hcontains⟩

/-- The effective attributes of a node are not always free of rivals. -/
theorem rivals_inherited : ¬ ∀ (c d : Context) (n : NodeId) (s : AttributeSet), Arises c →
    (run (effectiveAttributes · n)).exec c = (.ok s, d) → s.Exclusive := by
  intro h
  obtain ⟨s, d, hr, hstatic, hconstructor⟩ :=
    unchecked_meet (q := (.static, .constructor)) (by decide)
  have hfree := h _ d ⟨4⟩ s (arises_methodContext .static .constructor) hr .static .constructor
    hstatic hconstructor (by decide)
  exact absurd hfree (by decide)

end SymbolTree.Search
