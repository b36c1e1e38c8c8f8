import SymbolTree.Proofs.Search.Yields

/-!
# Searches that are sure to answer

`Search.Answers c p φ` says that the search `p`, started in `c`, is not stopped: it answers some `x`
and leaves a context with `φ x`.  Where `Search.Yields` is about what an answer is like if there is
one, this is about there being one, so that every step has to be granted.

A search has a bound on how deep its calls may be nested.  A proof that it answers therefore goes by
induction on what bounds the depth: how far a node is from its root, how far a class is from the
last of those that it inherits from.

## Main statements

* `Search.Answers.bind` — a search goes on from where another one led.
* `Search.Answers.and` — what holds of every answer holds of the one that is sure to come.
-/

set_option autoImplicit false
namespace SymbolTree.Search

variable {α β : Type}

/-- The search, started in `c`, answers some `x` and leaves a context with `φ x`. -/
def Answers (c : Context) (p : Search α) (φ : α → Context → Prop) : Prop :=
  ∃ x d, p.exec c = (.ok x, d) ∧ φ x d

namespace Answers

variable {c : Context} {p : Search α} {f : α → Search β} {φ φ' : α → Context → Prop}
  {ψ : β → Context → Prop}

theorem mono (h : Answers c p φ) (hφ : ∀ x d, φ x d → φ' x d) : Answers c p φ' := by
  obtain ⟨x, d, hr, hx⟩ := h
  exact ⟨x, d, hr, hφ x d hx⟩

/-- What holds of every answer holds of the one that is sure to come. -/
theorem and (h : Answers c p φ) (h' : Yields (· = c) p φ') :
    Answers c p fun x d => φ x d ∧ φ' x d := by
  obtain ⟨x, d, hr, hx⟩ := h
  exact ⟨x, d, hr, hx, h'.of_ok rfl hr⟩

/-- Nothing has to be said of how the search may be stopped. -/
theorem ensures (h : Answers c p φ) {R : Stop → Context → Prop} : Ensures (· = c) p φ R := by
  obtain ⟨x, d, hr, hx⟩ := h
  refine ensures_of_exec (fun c' y e hc hr' => ?_) fun c' stop e hc hr' => ?_
  all_goals
    rw [hc, hr] at hr'
    cases hr'
  exact hx

theorem pure {x : α} (h : φ x c) : Answers c (Pure.pure x : Search α) φ := ⟨x, c, rfl, h⟩

/-- The second of two searches goes on from where the first one led. -/
theorem bind (hp : Answers c p φ) (hf : ∀ x d, φ x d → Answers d (f x) ψ) :
    Answers c (p >>= f) ψ := by
  obtain ⟨x, d, hr, hx⟩ := hp
  obtain ⟨y, e, hs, hy⟩ := hf x d hx
  refine ⟨y, e, ?_, hy⟩
  rw [exec_bind, hr]
  exact hs

theorem get_bind {f : Context → Search β} (h : Answers c (f c) ψ) : Answers c (get >>= f) ψ := h

theorem arena_bind {f : Arena → Search β} (h : Answers c (f c.arena) ψ) :
    Answers c (arena >>= f) ψ := h

theorem nameOf_bind {n : NodeId} {f : String → Search β} (h : Answers c (f (c.arena.name n)) ψ) :
    Answers c (nameOf n >>= f) ψ := h

theorem modify {g : Context → Context} {φ : Unit → Context → Prop} (h : φ () (g c)) :
    Answers c (modify g : Search Unit) φ :=
  ⟨(), g c, rfl, h⟩

/-- A request that reads the arena and is granted. -/
theorem ask_bind {g : Arena → Except NodeError α} {x : α} (hg : g c.arena = .ok x)
    (h : Answers c (f x) ψ) : Answers c (ask g >>= f) ψ := by
  have hask : Answers c (ask g) fun y d => y = x ∧ d = c := by
    refine ⟨x, c, ?_, rfl, rfl⟩
    rw [exec_ask, hg]
  refine hask.bind fun y d hd => ?_
  rw [hd.1, hd.2]
  exact h

/-- A request that changes the arena and is granted. -/
theorem change {g : Arena → Except NodeError Arena} {b : Arena} {φ : Unit → Context → Prop}
    (hg : g c.arena = .ok b) (h : φ () { c with arena := b }) : Answers c (change g) φ := by
  refine ⟨(), _, ?_, h⟩
  rw [exec_change, hg]

/-- A run of a search may nest as many calls as there is room for. -/
theorem run {s : Call → Search α} (h : Answers c (s (answer (fuel c))) φ) : Answers c (run s) φ := h

/-- A search while a node is locked. -/
theorem withLock {n : NodeId} (h : Answers { c with arena := c.arena.lock n } p φ)
    (hφ : ∀ x d, φ x d → φ' x { d with arena := Guard.drop ⟨some n⟩ d.arena }) :
    Answers c (withLock n p) φ' := by
  obtain ⟨x, d, hr, hx⟩ := h
  refine ⟨x, _, ?_, hφ x d hx⟩
  rw [exec_withLock, hr]

/-- A search with rejections of its own. -/
theorem withFreshRejections (h : Answers { c with rejections := Rejections.none } p φ)
    (hφ : ∀ x d r, φ x d → φ' x { d with rejections := r }) :
    Answers c (withFreshRejections p) φ' := by
  obtain ⟨x, d, hr, hx⟩ := h
  refine ⟨x, _, ?_, hφ x d c.rejections hx⟩
  rw [exec_withFreshRejections, hr]

end Answers

end SymbolTree.Search
