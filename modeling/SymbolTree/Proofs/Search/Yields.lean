import SymbolTree.Proofs.Search.Follows

/-!
# What a search answers

`Search.Yields P p Q` says that whenever the search `p`, started in a context with `P`, answers `x`,
it leaves a context with `Q x`.  Nothing is said about a search that stops early, so that the rules
have no case for it.

A proof can carry a property of contexts from step to step (`Yields.bind`), or go on from the very
context that a step left (`Yields.bind_at`).
-/

set_option autoImplicit false
namespace SymbolTree.Search

variable {α β : Type}

/-- Whenever the search is started in a context with `P` and answers `x`, it leaves a context with
`Q x`. -/
def Yields (P : Context → Prop) (p : Search α) (Q : α → Context → Prop) : Prop :=
  Ensures P p Q fun _ _ => True

/-- A search that is run on its own may nest as many calls as the allowance of its context. -/
theorem exec_run (s : Call → Search α) (c : Context) :
    (run s).exec c = (s (answer (fuel c))).exec c := rfl

/-- A run of a search, from its answer. -/
theorem exec_of_toOption {p : Search α} {c : Context} {x : α}
    (h : (p.exec c).1.toOption = some x) : p.exec c = (.ok x, (p.exec c).2) :=
  Prod.ext (eq_ok_of_toOption h) rfl

namespace Yields

variable {P P' : Context → Prop} {p : Search α} {f : α → Search β} {Q Q' : α → Context → Prop}
  {S : β → Context → Prop} {c d : Context}

theorem of_ok (h : Yields P p Q) {x : α} (hc : P c) (hr : p.exec c = (.ok x, d)) : Q x d :=
  Ensures.of_ok h hc hr

/-- From the run of a search. -/
theorem of_exec (h : ∀ c x d, P c → p.exec c = (.ok x, d) → Q x d) : Yields P p Q :=
  ensures_of_exec h fun _ _ _ _ _ => trivial

/-- More may be required of the start, and less be said of the end. -/
theorem mono (h : Yields P p Q) (hP : ∀ c, P' c → P c) (hQ : ∀ x d, Q x d → Q' x d) :
    Yields P' p Q' :=
  Ensures.mono h hP hQ fun _ _ => id

/-- A search may be looked at from one of the contexts that it is about. -/
theorem start (h : Yields P p Q) (hc : P c) : Yields (· = c) p Q :=
  h.mono (fun _ hd => hd ▸ hc) fun _ _ hx => hx

/-- The answer has to be right in the context where the search starts. -/
theorem pure {x : α} (h : ∀ c, P c → Q x c) : Yields P (Pure.pure x : Search α) Q :=
  Ensures.pure h

/-- Nothing is claimed of what is answered. -/
theorem any : Yields P p fun _ _ => True := of_exec fun _ _ _ _ _ => trivial

theorem throw {e : Stop} : Yields P (throw e : Search α) Q := Ensures.throw fun _ _ => trivial

theorem fail {e : CompileError} : Yields P (fail e : Search α) Q := throw

theorem internal {e : TreeFault} : Yields P (internal e : Search α) Q := throw

/-- The second search goes on from what is known of the first one's end. -/
theorem bind (hp : Yields P p Q) (hf : ∀ x, Yields (Q x) (f x) S) : Yields P (p >>= f) S :=
  Ensures.bind hp hf

/-- The second of two searches goes on from where the first one led. -/
theorem bind_at (hp : Yields P p Q) (hf : ∀ x d, Q x d → Yields (· = d) (f x) S) :
    Yields P (p >>= f) S :=
  hp.bind fun x => Ensures.at (hf x)

/-- What is read is the context at hand. -/
theorem get_bind {f : Context → Search β} (h : ∀ c, P c → Yields (· = c) (f c) S) :
    Yields P (get >>= f) S :=
  Ensures.get_bind h

theorem arena_bind {f : Arena → Search β} (h : ∀ c, P c → Yields (· = c) (f c.arena) S) :
    Yields P (arena >>= f) S :=
  fun c hc => h c hc c rfl

theorem modify {g : Context → Context} {Q : Unit → Context → Prop} (h : ∀ c, P c → Q () (g c)) :
    Yields P (modify g : Search Unit) Q :=
  Ensures.modify h

/-- A question leaves the context as it is. -/
theorem ask {g : Arena → Except NodeError α} (h : ∀ c x, P c → g c.arena = .ok x → Q x c) :
    Yields P (ask g) Q :=
  ensures_ask h fun _ _ _ _ => trivial

theorem nameOf (n : NodeId) : Yields P (nameOf n) fun name d => P d ∧ name = d.arena.name n :=
  arena_bind fun c hc => pure fun d hd => by
    subst hd
    exact ⟨hc, rfl⟩

/-- A request that is granted leaves the arena it answers with. -/
theorem change {g : Arena → Except NodeError Arena} {Q : Unit → Context → Prop}
    (h : ∀ c b, P c → g c.arena = .ok b → Q () { c with arena := b }) :
    Yields P (change g) Q :=
  ensures_change h fun _ _ _ _ => trivial

/-- A search while a node is locked, for properties that do not look at the locks. -/
theorem withLock {n : NodeId} (h : Yields P p Q)
    (hP : ∀ c, P' c → P { c with arena := c.arena.lock n })
    (hQ : ∀ x d, Q x d → Q' x { d with arena := Guard.drop ⟨some n⟩ d.arena }) :
    Yields P' (withLock n p) Q' :=
  ensures_withLock h hP hQ fun _ _ _ => trivial

/-- A search while a node is locked, for properties that look at nothing but the nodes. -/
theorem withLock_at {n : NodeId} (h : Yields (· = { c with arena := c.arena.lock n }) p Q)
    (hQ : ∀ x d e, e.arena.nodes = d.arena.nodes → Q x d → Q x e) :
    Yields (· = c) (Search.withLock n p) Q :=
  h.withLock (fun _ hd => by rw [hd]) fun x d hd => hQ x d _ (Arena.nodes_drop _ _) hd

/-- A search with rejections of its own, for properties that do not look at the rejections. -/
theorem withFreshRejections (h : Yields P p Q)
    (hP : ∀ c, P' c → P { c with rejections := Rejections.none })
    (hQ : ∀ x d r, Q x d → Q' x { d with rejections := r }) :
    Yields P' (withFreshRejections p) Q' :=
  ensures_withFreshRejections h hP hQ fun _ _ _ _ => trivial

/-- A search while a variable is being expanded, for properties that do not look at the variables
being expanded. -/
theorem whileExpanding {v : NodeId} (h : Yields P p Q)
    (hP : ∀ c, P' c → P { c with expanding := v :: c.expanding })
    (hQ : ∀ x d l, Q x d → Q' x { d with expanding := l }) :
    Yields P' (whileExpanding v p) Q' :=
  ensures_whileExpanding h hP hQ fun _ _ _ _ => trivial

end Yields

/-- A search that runs a course yields one. -/
theorem Follows.yields {params : Option NodeId} {p : Search α} (h : Follows params p)
    {P : Context → Prop} (hP : ∀ c, P c → c.arena.Consistent) :
    Yields P p fun _ d => ∃ c, P c ∧ Course params c d :=
  Yields.of_exec fun c _ _ hc hr => ⟨c, hc, h.of_ok (hP c hc) hr⟩

end SymbolTree.Search
