import SymbolTree.Proofs.Search.Yields

/-!
# Searches that proceed

A search is carried from one context to the next.  What a proof keeps on the way differs: that no
node was moved, that what was found out stays true, that nothing is held but what may be.  Each time
it is a relation between the context where a search starts and the one where it has led, and what
is asked of this relation is the same (`Search.Progress`): it is transitive, and messages,
rejections and locks that are taken off do not matter to it.

`Search.Proceeds I R E c p φ` says that the search `p`, started in `c` with `I c`, goes on along `R`
to a context with `φ` if it answers, and that it is stopped for a reason in `E` if it is.  The rules
for it are stated here, once for all relations.

## Main statements

* `Search.Proceeds.bind` — a search goes on from where another one led.
* `Search.Proceeds.withLock`, `Search.Proceeds.withFreshRejections` — what is undone in the end.
* `Search.Proceeds.and` — two things that are found out about an answer are found out together.
-/

set_option autoImplicit false
namespace SymbolTree.Search

variable {α β : Type} {I : Context → Prop} {R : Context → Context → Prop} {E : Stop → Prop}
  {c d e : Context}

/-- A relation `R` along which searches proceed from contexts with `I`, be it that they answer or
that they are stopped for a reason in `E`. -/
class Progress (I : Context → Prop) (R : Context → Context → Prop) (E : Stop → Prop) : Prop where
  /-- What comes after a later context comes after an earlier one. -/
  trans : ∀ {c d e : Context}, R c d → R d e → R c e
  /-- A search may start where another one has led. -/
  start : ∀ {c d : Context}, R c d → I d
  /-- It does not matter what was reported or rejected, or what is being expanded. -/
  aside : ∀ {c : Context} (messages : Diagnostics) (rejections last : Rejections)
    (expanding : List NodeId), I c → R c { c with
      diagnostics := messages, rejections, lastRejections := last, expanding }
  /-- A lock may be taken off. -/
  drop : ∀ {c : Context} (n : NodeId), I c → R c { c with arena := Guard.drop ⟨some n⟩ c.arena }
  /-- A search may be stopped because the tree is not as it has to be. -/
  fault : ∀ f : TreeFault, E (.failed (.internal f))

theorem Progress.refl (P : Progress I R E) (hc : I c) : R c c := P.aside _ _ _ _ hc

/-- A search that goes on along `R` from `c`, if `I c`: it answers in a context with `φ`, or is
stopped for a reason in `E`. -/
structure Proceeds (I : Context → Prop) (R : Context → Context → Prop) (E : Stop → Prop)
    (c : Context) (p : Search α) (φ : α → Context → Prop) : Prop where
  /-- What is ensured from `c`. -/
  ensures : I c → Ensures (· = c) p (fun x d => R c d ∧ φ x d) fun e _ => E e

namespace Proceeds

variable {p : Search α} {f : α → Search β} {φ φ' : α → Context → Prop} {ψ : β → Context → Prop}

/-- In the terms of what a search yields. -/
theorem yields (h : Proceeds I R E c p φ) (hc : I c) :
    Yields (· = c) p fun x d => R c d ∧ φ x d :=
  (h.ensures hc).mono (fun _ hd => hd) (fun _ _ hx => hx) fun _ _ _ => trivial

/-- A search that answers goes on along the relation. -/
theorem of_ok (h : Proceeds I R E c p φ) (hc : I c) {x : α} (hr : p.exec c = (.ok x, d)) :
    R c d ∧ φ x d :=
  (h.ensures hc).of_ok rfl hr

/-- A search that is stopped is stopped for one of the reasons. -/
theorem of_error (h : Proceeds I R E c p φ) (hc : I c) {stop : Stop}
    (hr : p.exec c = (.error stop, d)) : E stop :=
  (h.ensures hc).of_error rfl hr

/-- From the ways in which a run may end. -/
theorem of_exec (hok : ∀ x d, I c → p.exec c = (.ok x, d) → R c d ∧ φ x d)
    (hstop : ∀ e d, I c → p.exec c = (.error e, d) → E e) : Proceeds I R E c p φ :=
  ⟨fun hc => ensures_of_exec (fun _ x d hd hr => hok x d hc (hd ▸ hr)) fun _ e d hd hr =>
    hstop e d hc (hd ▸ hr)⟩

/-- What is known of the context where a search starts may be used. -/
theorem of_start (h : I c → Proceeds I R E c p φ) : Proceeds I R E c p φ :=
  ⟨fun hc => (h hc).ensures hc⟩

/-- Less may be said about the answer. -/
theorem mono (h : Proceeds I R E c p φ) (hφ : ∀ x d, R c d → φ x d → φ' x d) :
    Proceeds I R E c p φ' :=
  ⟨fun hc => (h.ensures hc).mono (fun _ hd => hd) (fun x d hx => ⟨hx.1, hφ x d hx.1 hx.2⟩)
    fun _ _ he => he⟩

/-- What two arguments find out about an answer holds together. -/
theorem and (h : Proceeds I R E c p φ) (h' : Proceeds I R E c p φ') :
    Proceeds I R E c p fun x d => φ x d ∧ φ' x d :=
  ⟨fun hc => ((h.ensures hc).and (h'.ensures hc)).mono (fun _ hd => ⟨hd, hd⟩)
    (fun _ _ hx => ⟨hx.1.1, hx.1.2, hx.2.2⟩) fun _ _ he => he.1⟩

theorem throw {stop : Stop} (h : E stop) : Proceeds I R E c (throw stop : Search α) φ :=
  ⟨fun _ => Ensures.throw fun _ _ => h⟩

theorem fail {cause : CompileError} (h : E (.failed cause)) :
    Proceeds I R E c (fail cause : Search α) φ :=
  throw h

/-- The second of two searches goes on from where the first one led. -/
theorem bind [P : Progress I R E] (hp : Proceeds I R E c p φ)
    (hf : ∀ x d, R c d → φ x d → Proceeds I R E d (f x) ψ) : Proceeds I R E c (p >>= f) ψ := by
  refine ⟨fun hc => (hp.ensures hc).bind fun x => Ensures.at fun d hd => ?_⟩
  exact ((hf x d hd.1 hd.2).ensures (P.start hd.1)).mono (fun _ h => h)
    (fun y e he => ⟨P.trans hd.1 he.1, he.2⟩) fun _ _ he => he

/-- What is read is the context where the search starts. -/
theorem get_bind {f : Context → Search β} (h : Proceeds I R E c (f c) ψ) :
    Proceeds I R E c (get >>= f) ψ :=
  ⟨fun hc => Ensures.get_bind fun d hd => by
    subst hd
    exact h.ensures hc⟩

theorem arena_bind {f : Arena → Search β} (h : Proceeds I R E c (f c.arena) ψ) :
    Proceeds I R E c (arena >>= f) ψ :=
  ⟨fun hc => ensures_arena_bind fun d hd => by
    subst hd
    exact h.ensures hc⟩

/-- A request that reads the arena. -/
theorem ask_bind {g : Arena → Except NodeError α}
    (herror : ∀ e, g c.arena = .error e → E (.failed (.node e)))
    (h : ∀ x, g c.arena = .ok x → Proceeds I R E c (f x) ψ) :
    Proceeds I R E c (Search.ask g >>= f) ψ := by
  refine ⟨fun hc => Ensures.bind (Q := fun x d => g c.arena = .ok x ∧ d = c)
    (ensures_ask (fun d x hd hx => ?_) fun d e hd he => ?_) fun x => Ensures.at fun d hd => ?_⟩
  · subst hd
    exact ⟨hx, rfl⟩
  · subst hd
    exact herror e he
  · obtain ⟨hx, rfl⟩ := hd
    exact (h x hx).ensures hc

/-- A change of the context has to go on along the relation. -/
theorem modify {g : Context → Context} (hg : I c → R c (g c)) :
    Proceeds I R E c (modify g : Search Unit) fun _ _ => True :=
  ⟨fun hc => Ensures.modify fun d hd => by
    subst hd
    exact ⟨hg hc, trivial⟩⟩

/-- A request that changes the arena. -/
theorem change {g : Arena → Except NodeError Arena}
    (hok : ∀ b, I c → g c.arena = .ok b → R c { c with arena := b })
    (herror : ∀ e, I c → g c.arena = .error e → E (.failed (.node e))) :
    Proceeds I R E c (change g) fun _ d => ∃ b, g c.arena = .ok b ∧ d = { c with arena := b } := by
  refine ⟨fun hc => ensures_change (fun d b hd hb => ?_) fun d e hd he => ?_⟩
  · subst hd
    exact ⟨hok b hc hb, b, hb, rfl⟩
  · subst hd
    exact herror e hc he

variable [P : Progress I R E]
include P

theorem pure {x : α} (h : φ x c) : Proceeds I R E c (Pure.pure x : Search α) φ :=
  ⟨fun hc => Ensures.pure fun d hd => by
    subst hd
    exact ⟨P.refl hc, h⟩⟩

/-- A fault of the tree is no reason that is excluded. -/
theorem internal {fault : TreeFault} : Proceeds I R E c (internal fault : Search α) φ :=
  throw (P.fault fault)

theorem fail_bind {cause : CompileError} (h : E (.failed cause)) :
    Proceeds I R E c (Search.fail cause >>= f) ψ :=
  bind (φ := fun _ _ => False) (fail h) fun _ _ _ hx => False.elim hx

theorem internal_bind {fault : TreeFault} : Proceeds I R E c (Search.internal fault >>= f) ψ :=
  fail_bind (P.fault fault)

theorem ask {g : Arena → Except NodeError α}
    (herror : ∀ e, g c.arena = .error e → E (.failed (.node e))) :
    Proceeds I R E c (ask g) fun x d => g c.arena = .ok x ∧ d = c :=
  ⟨fun hc => ensures_ask (fun d x hd hx => by
    subst hd
    exact ⟨P.refl hc, hx, rfl⟩) fun d e hd he => by
      subst hd
      exact herror e he⟩

theorem nameOf (n : NodeId) : Proceeds I R E c (nameOf n) fun _ _ => True :=
  arena_bind (pure trivial)

/-! ## Messages -/

/-- Messages do not matter to the relation. -/
theorem report (level : Level) (code : Code) (n : NodeId) (text : String) :
    Proceeds I R E c (report level code n text) fun _ _ => True :=
  modify (P.aside _ _ _ _)

theorem error (code : Code) (n : NodeId) (text : String) :
    Proceeds I R E c (error code n text) fun _ _ => True := report ..

theorem warning (code : Code) (n : NodeId) (text : String) :
    Proceeds I R E c (warning code n text) fun _ _ => True := report ..

theorem fatal (code : Code) (n : NodeId) (text : String) :
    Proceeds I R E c (fatal code n text) fun _ _ => True := report ..

theorem reject (r : Rejection) : Proceeds I R E c (reject r) fun _ _ => True :=
  modify (P.aside _ _ _ _)

/-- Nor does the message that the rejections are put in. -/
theorem reportRejections (n : NodeId) : Proceeds I R E c (reportRejections n) fun _ _ => True := by
  refine get_bind ((modify (P.aside _ _ _ _)).bind fun _ d _ _ => ?_)
  dsimp only
  split
  · exact pure trivial
  · exact (nameOf n).bind fun _ _ _ _ => error ..

/-! ## What is undone in the end -/

/-- A search while a node is locked. -/
theorem withLock {n : NodeId} (hlock : I c → R c { c with arena := c.arena.lock n })
    (h : R c { c with arena := c.arena.lock n } →
      Proceeds I R E { c with arena := c.arena.lock n } p φ)
    (hφ : ∀ x d e, R d e → e.arena.nodes = d.arena.nodes → φ x d → φ x e) :
    Proceeds I R E c (withLock n p) φ := by
  refine ⟨fun hc => ?_⟩
  have hlocked := hlock hc
  refine ensures_withLock ((h hlocked).ensures (P.start hlocked)) (fun d hd => by rw [hd])
    (fun x d hd => ?_) fun _ _ he => he
  have hdrop : R d { d with arena := Guard.drop ⟨some n⟩ d.arena } := P.drop _ (P.start hd.1)
  exact ⟨P.trans hlocked (P.trans hd.1 hdrop),
    hφ x d _ hdrop (Arena.nodes_drop _ _) hd.2⟩

/-- A search with rejections of its own. -/
theorem withFreshRejections
    (h : R c { c with rejections := Rejections.none } →
      Proceeds I R E { c with rejections := Rejections.none } p φ)
    (hφ : ∀ x d e, R d e → e.arena.nodes = d.arena.nodes → φ x d → φ x e) :
    Proceeds I R E c (withFreshRejections p) φ := by
  refine ⟨fun hc => ?_⟩
  have hfresh : R c { c with rejections := Rejections.none } := P.aside _ _ _ _ hc
  refine ensures_withFreshRejections ((h hfresh).ensures (P.start hfresh))
    (fun d hd => by rw [hd]) (fun x d r hd => ?_) fun _ _ _ he => he
  have hback : R d { d with rejections := r } := P.aside _ _ _ _ (P.start hd.1)
  exact ⟨P.trans hfresh (P.trans hd.1 hback), hφ x d _ hback rfl hd.2⟩

/-- A search while a variable is being expanded. -/
theorem whileExpanding {v : NodeId}
    (h : Proceeds I R E { c with expanding := v :: c.expanding } p φ)
    (hφ : ∀ x d e, R d e → e.arena.nodes = d.arena.nodes → φ x d → φ x e) :
    Proceeds I R E c (whileExpanding v p) φ := by
  refine ⟨fun hc => ?_⟩
  have hpushed : R c { c with expanding := v :: c.expanding } := P.aside _ _ _ _ hc
  refine ensures_whileExpanding (h.ensures (P.start hpushed)) (fun d hd => by rw [hd])
    (fun x d l hd => ?_) fun _ _ _ he => he
  have hback : R d { d with expanding := l } := P.aside _ _ _ _ (P.start hd.1)
  exact ⟨P.trans hpushed (P.trans hd.1 hback), hφ x d _ hback rfl hd.2⟩

/-! ## Lists -/

/-- What every step does from wherever it is started, all steps do one after the other. -/
theorem foldlM {γ : Type} {g : β → γ → Search β} (l : List γ) {b : β}
    (h : ∀ b x c, Proceeds I R E c (g b x) fun _ _ => True) :
    Proceeds I R E c (l.foldlM g b) fun _ _ => True := by
  induction l generalizing b c with
  | nil => exact pure trivial
  | cons x l ih =>
    rw [List.foldlM_cons]
    exact (h b x c).bind fun _ _ _ _ => ih

end Proceeds

end SymbolTree.Search
