import SymbolTree.Proofs.Arena.Steady
import SymbolTree.Proofs.Search.Trace.Scope

/-!
# Searches that stay in bounds

Searches go through the children of a node by place, while the searches nested in them append and
take away nodes elsewhere, load modules and fill in tables.  A place that was in range when a scan
began could be out of range when its turn comes.  It never is, since what is scanned is locked.

`Search.InBounds T p` says that the search `p`, started in an arena with `T`, leads on steadily and
is not stopped because of a place that is out of range.  The condition `T` is what a scan knows about
the list it goes through; most searches need none.

## Main statements

* `Search.InBounds.bind`, `Search.InBounds.bind_keep` — a search goes on from where another one led.
* `Search.InBounds.arena_bind_at` — a search goes on from the arena that it has read.
* `Search.InBounds.withLock_of` — what is locked is held while a search runs.
* `Search.modular_inBounds` — most searches stay in bounds because their parts do.
-/

set_option autoImplicit false
namespace SymbolTree

namespace Search

/-! ## Searches in bounds -/

variable {α β : Type} {T S : Arena → Prop}

/-- How a search ends that was started in the arena `a`: steadily, apart from the tables of a match
if one is given, or for another reason than a place that is out of range. -/
def EndsInBounds (m : Option NodeId) (a : Arena) : Except Stop α × Context → Prop
  | (.ok _, d) => Arena.SteadyBut m a d.arena
  | (.error e, _) => e.isMisplaced = false

/-- What comes before may lead on steadily. -/
theorem EndsInBounds.of_steady {m : Option NodeId} {a b : Arena} {r : Except Stop α × Context}
    (h : EndsInBounds m b r) (hab : Arena.SteadyBut m a b) : EndsInBounds m a r := by
  obtain ⟨e | x, d⟩ := r
  · exact h
  · exact hab.trans h

/-- A table may have changed. -/
theorem EndsInBounds.but {a : Arena} {r : Except Stop α × Context} (h : EndsInBounds none a r)
    (m : Option NodeId) : EndsInBounds m a r := by
  obtain ⟨e | x, d⟩ := r
  · exact h
  · exact Arena.Steady.but h m

/-- What becomes of the tables of a new match makes no difference for those that were there. -/
theorem EndsInBounds.of_new {m : NodeId} {a b : Arena} {r : Except Stop α × Context}
    (h : EndsInBounds (some m) b r) (hm : a.size ≤ m.index) (hab : a.Steady b) :
    EndsInBounds none a r := by
  obtain ⟨e | x, d⟩ := r
  · exact h
  · exact hab.trans_new hm h

/-- The second of two searches goes on from where the first one led. -/
theorem EndsInBounds.bind {m : Option NodeId} {a : Arena} {c : Context} {p : Search α}
    {f : α → Search β} (hp : EndsInBounds m a (p.exec c))
    (hf : ∀ x d, p.exec c = (.ok x, d) → Arena.SteadyBut m a d.arena →
      EndsInBounds m a ((f x).exec d)) :
    EndsInBounds m a ((p >>= f).exec c) := by
  rw [exec_bind]
  match hr : p.exec c with
  | (.error e, d) =>
    rw [hr] at hp
    exact hp
  | (.ok x, d) =>
    rw [hr] at hp
    exact hf x d hr hp

/-- Started in an arena with `T`, the search leads on steadily, and if it stops then not because of
a place that is out of range. -/
structure InBounds (T : Arena → Prop) (p : Search α) : Prop where
  /-- From a consistent arena with `T` the search ends as it should. -/
  ends : ∀ c : Context, c.arena.Consistent → T c.arena → EndsInBounds none c.arena (p.exec c)

namespace InBounds

variable {p : Search α} {f : α → Search β}

/-- More may be known of the arena where a search starts. -/
theorem of_imp (h : InBounds S p) (hT : ∀ b, T b → S b) : InBounds T p :=
  ⟨fun c hc hTc => h.ends c hc (hT _ hTc)⟩

/-- A search that needs nothing to stay in bounds does so anywhere. -/
theorem anywhere (h : InBounds (fun _ => True) p) : InBounds T p := h.of_imp fun _ _ => trivial

/-- From what is ensured of a search. -/
theorem of_ensures (h : ∀ c : Context, c.arena.Consistent → T c.arena → Ensures (· = c) p
    (fun _ d => c.arena.Steady d.arena) fun e _ => e.isMisplaced = false) : InBounds T p := by
  refine ⟨fun c hc hT => ?_⟩
  match hr : p.exec c with
  | (.ok x, d) => exact (h c hc hT).of_ok rfl hr
  | (.error e, d) => exact (h c hc hT).of_error rfl hr

theorem not_isMisplaced (h : InBounds T p) {c : Context} (hc : c.arena.Consistent) (hT : T c.arena)
    {e : Stop} (he : (p.exec c).1 = .error e) : e.isMisplaced = false := by
  have hp := h.ends c hc hT
  match hr : p.exec c with
  | (.ok x, d) =>
    rw [hr] at he
    cases he
  | (.error e', d) =>
    rw [hr] at he hp
    cases he
    exact hp

theorem pure {x : α} : InBounds T (Pure.pure x : Search α) := ⟨fun _ hc _ => .refl hc⟩

theorem throw {e : Stop} (he : e.isMisplaced = false) : InBounds T (throw e : Search α) :=
  ⟨fun _ _ _ => he⟩

/-- The second of two searches may use what the first one has left as it is. -/
theorem bind_of {S : α → Arena → Prop} (hp : InBounds T p)
    (hT : ∀ (c d : Context) (x : α), c.arena.Consistent → T c.arena → p.exec c = (.ok x, d) →
      c.arena.Steady d.arena → S x d.arena)
    (hf : ∀ x, InBounds (S x) (f x)) : InBounds T (p >>= f) := by
  refine ⟨fun c hc hTc => (hp.ends c hc hTc).bind fun x d hr hd => ?_⟩
  exact ((hf x).ends d hd.consistent (hT c d x hc hTc hr hd)).of_steady hd

/-- The second of two searches goes on from where the first one led. -/
theorem bind (hp : InBounds T p) (hf : ∀ x, InBounds (fun _ => True) (f x)) :
    InBounds T (p >>= f) :=
  hp.bind_of (fun _ _ _ _ _ _ _ => trivial) hf

/-- What the first of two searches leaves as it is holds for the second. -/
theorem bind_keep (hT : ∀ b d : Arena, T b → b.Steady d → T d) (hp : InBounds T p)
    (hf : ∀ x, InBounds T (f x)) : InBounds T (p >>= f) :=
  hp.bind_of (fun _ _ _ _ hTc _ hd => hT _ _ hTc hd) hf

theorem get_bind {f : Context → Search β} (h : ∀ c, InBounds T (f c)) : InBounds T (get >>= f) :=
  ⟨fun c hc hT => (h c).ends c hc hT⟩

/-- A search goes on from the arena that it has read. -/
theorem arena_bind_at {f : Arena → Search β}
    (h : ∀ b : Arena, b.Consistent → T b → InBounds (· = b) (f b)) : InBounds T (arena >>= f) :=
  ⟨fun c hc hT => (h c.arena hc hT).ends c hc rfl⟩

theorem arena_bind {f : Arena → Search β} (h : ∀ b, InBounds T (f b)) : InBounds T (arena >>= f) :=
  arena_bind_at fun b _ hT => (h b).of_imp fun _ he => he ▸ hT

theorem arena : InBounds T arena := ⟨fun _ hc _ => .refl hc⟩

theorem ask {g : Arena → Except NodeError α}
    (h : ∀ b : Arena, T b → Arena.InRange (g b)) :
    InBounds T (ask g) := by
  refine ⟨fun c hc hT => ?_⟩
  rw [exec_ask]
  cases hg : g c.arena with
  | ok x => exact .refl hc
  | error e => exact h _ hT e hg

/-- A change of the context that leaves the arena as it is. -/
theorem modify {g : Context → Context} (h : ∀ c, (g c).arena = c.arena) :
    InBounds T (modify g : Search Unit) := by
  refine ⟨fun c hc _ => ?_⟩
  change c.arena.Steady (g c).arena
  rw [h]
  exact .refl hc

/-- A write has to lead on steadily. -/
theorem write {g : Arena → Arena} (h : ∀ b : Arena, b.Consistent → b.Steady (g b)) :
    InBounds T (write g) :=
  ⟨fun c hc _ => h c.arena hc⟩

/-- A request has to lead on steadily, and be refused for no place. -/
theorem checked {g : Arena → Except NodeError (α × Arena)}
    (hok : ∀ b x d, b.Consistent → g b = .ok (x, d) → b.Steady d)
    (hrange : ∀ b : Arena, T b → Arena.InRange (g b)) :
    InBounds T (edit (Edit.checked g)) := by
  refine ⟨fun c hc hT => ?_⟩
  rw [exec_checked]
  cases hg : g c.arena with
  | ok r => exact hok _ r.1 r.2 hc hg
  | error e => exact hrange _ hT e hg

theorem change {g : Arena → Except NodeError Arena}
    (hok : ∀ b d, b.Consistent → g b = .ok d → b.Steady d)
    (hrange : ∀ b : Arena, T b → Arena.InRange (g b)) :
    InBounds T (change g) := by
  refine ⟨fun c hc hT => ?_⟩
  rw [exec_change]
  cases hg : g c.arena with
  | ok d => exact hok _ d hc hg
  | error e => exact hrange _ hT e hg

/-- What is locked is held while a search runs. -/
theorem withLock_of {n : NodeId} (h : InBounds S p)
    (hT : ∀ b : Arena, b.Consistent → T b → S (b.lock n)) : InBounds T (withLock n p) := by
  refine ⟨fun c hc hTc => ?_⟩
  have hp := h.ends { c with arena := c.arena.lock n } (hc.lock n) (hT _ hc hTc)
  rw [exec_withLock]
  match hr : p.exec { c with arena := c.arena.lock n } with
  | (.ok x, d) =>
    rw [hr] at hp
    exact Arena.SteadyBut.drop hp
  | (.error e, d) =>
    rw [hr] at hp
    exact hp

/-- A search that needs to know nothing of its start may be locked in. -/
theorem withLock {n : NodeId} (h : InBounds (fun _ => True) p) : InBounds T (withLock n p) :=
  withLock_of h fun _ _ _ => trivial

theorem withFreshRejections (h : InBounds T p) : InBounds T (withFreshRejections p) := by
  refine ⟨fun c hc hT => ?_⟩
  have hp := h.ends { c with rejections := Rejections.none } hc hT
  rw [exec_withFreshRejections]
  match hr : p.exec { c with rejections := Rejections.none } with
  | (.ok x, d) =>
    rw [hr] at hp
    exact hp
  | (.error e, d) =>
    rw [hr] at hp
    exact hp

theorem whileExpanding {v : NodeId} (h : InBounds T p) : InBounds T (whileExpanding v p) := by
  refine ⟨fun c hc hT => ?_⟩
  have hp := h.ends { c with expanding := v :: c.expanding } hc hT
  rw [exec_whileExpanding]
  match hr : p.exec { c with expanding := v :: c.expanding } with
  | (.ok x, d) =>
    rw [hr] at hp
    exact hp
  | (.error e, d) =>
    rw [hr] at hp
    exact hp

/-! ### Requests -/

theorem flag (n : NodeId) (f : Flag) : InBounds T (Search.ask fun a => a.flag n f) :=
  ask fun _ _ => .flag

theorem setFlag (n : NodeId) (f : Flag) : InBounds T (Search.change fun a => a.setFlag n f true) :=
  change
    (fun b d hb hd => by
      obtain ⟨-, -, rfl⟩ := Arena.setFlag_eq_ok_iff.1 hd
      exact .update hb fun _ => ⟨rfl, rfl, rfl, rfl, rfl⟩)
    fun _ _ => .setFlag

theorem setLink (n : NodeId) (l : Link) (t : Option NodeId) :
    InBounds T (Search.write fun a => a.setLink n l t) :=
  write fun b hb => .update hb fun d => by cases l <;> exact ⟨rfl, rfl, rfl, rfl, rfl⟩

theorem setText (n : NodeId) (s : String) : InBounds T (Search.change fun a => a.setText n s) :=
  change
    (fun b d hb hd => by
      rw [(Arena.setText_eq_ok hd).2]
      exact .update hb fun _ => ⟨rfl, rfl, rfl, rfl, rfl⟩)
    fun _ _ => .setText

/-- The names in the expression of a type are marked. -/
theorem markType (e : NodeId) : InBounds T (edit (Edit.setAttributeTree e .type true)) := by
  refine ⟨fun c hc _ => ?_⟩
  have h : Ensures (fun b => c.arena.Steady b) (Edit.setAttributeTree e .type true)
      (fun _ b => c.arena.Steady b) fun e _ => e.isMisplaced = false := by
    refine Ensures.get_bind fun a ha => ?_
    refine Ensures.mono (P := fun b => c.arena.Steady b) ?_ (fun _ he => he ▸ ha) (fun _ _ h => h)
      fun _ _ h => h
    refine Ensures.foldlM (S := fun _ b => c.arena.Steady b) fun all m _ => ?_
    refine Ensures.bind (Q := fun _ b => c.arena.Steady b) ?_ fun _ => Ensures.pure fun _ h => h
    refine Edit.ensures_checked.mono (fun _ h => h) (fun r b hb => ?_) fun _ _ he => ?_
    · obtain ⟨a', ha', hr⟩ := hb
      obtain ⟨-, -, rfl | rfl⟩ := Arena.setAttribute_eq_ok hr
      · exact ha'
      · exact ha'.trans (Arena.Steady.update ha'.consistent fun _ => ⟨rfl, rfl, rfl, rfl, rfl⟩)
    · exact Arena.InRange.setAttribute _ he.2
  have hrun := h c.arena (.refl hc)
  rw [exec_edit]
  match hr : (Edit.setAttributeTree e .type true).exec c.arena with
  | (.ok x, a) =>
    rw [show StateT.run (ExceptT.run (Edit.setAttributeTree e .type true)) c.arena = (.ok x, a)
      from hr] at hrun
    exact hrun
  | (.error e', a) =>
    rw [show StateT.run (ExceptT.run (Edit.setAttributeTree e .type true)) c.arena = (.error e', a)
      from hr] at hrun
    exact hrun

theorem createReplacement (n : NodeId) (k : Kind) : InBounds T (createReplacement n k) :=
  checked
    (fun b x d hb hd => by
      obtain rfl : (b.createReplacement n k).2 = d := congrArg Prod.snd (Except.ok.inj hd)
      exact .push hb rfl rfl)
    fun _ _ => .ok

theorem reject (r : Rejection) : InBounds T (reject r) := modify fun _ => rfl

end InBounds

/-- To stay in bounds passes from the parts of a search to the whole, if they need nothing for
it. -/
theorem modular_inBounds : Modular fun _ => InBounds fun _ => True where
  pure := .pure
  throw := .throw
  bind hp hf := hp.bind hf
  get := ⟨fun _ hc _ => .refl hc⟩
  flag := .flag
  checkAttribute _ _ := .ask fun _ _ => .checkAttribute
  setFlag n f _ := .setFlag n f
  addLabel owner n := .change
    (fun b d hb hd => by
      obtain ⟨-, -, -, rfl⟩ := Arena.addLabel_eq_ok hd
      exact .update hb fun _ => ⟨rfl, rfl, rfl, rfl, rfl⟩)
    fun _ _ => .addLabel
  markType := .markType
  createName hk := .bind (.createReplacement ..) fun id => .bind (.setText id _) fun _ => hk id
  aside {f} hf := .modify fun c => by
    obtain ⟨ds, o, ms, l, h⟩ := hf c
    rw [h]
  withLock h := h.withLock
  withFreshRejections h := h.withFreshRejections
  whileExpanding h := h.whileExpanding

/-- Every request runs a course and stays in bounds. -/
structure InBoundsCalls (call : Call) : Prop where
  /-- Every request runs a course. -/
  faithful : Faithful call
  /-- Every request stays in bounds. -/
  inBounds : ∀ {T : Arena → Prop} (r : Request), InBounds T (call r)

namespace InBoundsCalls

variable {call : Call}

/-- The requests without arguments stay in bounds. -/
theorem answered (hcall : InBoundsCalls call) :
    Answered (fun _ => InBounds fun _ => True) call where
  resolveName list id mode := hcall.inBounds (.resolveName list id none mode)
  effectiveAttributes n := hcall.inBounds (.effectiveAttributes n)
  addListed n entry s := hcall.inBounds (.addListed n entry s)
  isDerivedFrom derived base := hcall.inBounds (.isDerivedFrom derived base)

theorem answeredAll (hcall : InBoundsCalls call) {params : Option NodeId} :
    AnsweredAll (fun _ => InBounds fun _ => True) call params where
  toAnswered := hcall.answered
  findMember link field t mode := hcall.inBounds (.findMember link field t params mode)
  findInList list field t mode := hcall.inBounds (.findInList list field t params mode)

/-- What sets links stays in bounds, for a link is no place. -/
theorem typed (hcall : InBoundsCalls call) : Typed (fun _ => InBounds fun _ => True) call :=
  modular_typed .setLink modular_inBounds hcall.answered fun f => .createReplacement f .void

end InBoundsCalls

end Search

end SymbolTree
