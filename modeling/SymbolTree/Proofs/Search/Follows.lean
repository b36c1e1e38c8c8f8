import SymbolTree.Proofs.Search.Course

/-!
# Programs that run a course

`Search.Follows params p` says that the program `p`, started in a consistent context, runs a course
for `params`, however it ends.  Here are the rules by which this is shown for a program from its
parts, and what the smallest programs do (`Search.exec_bind` and the lemmas after it).

Most programs are covered by the rules alone.  A program that goes on from what it has read needs
the rules for a fixed context instead, `Follows.bind_at` and `Follows.withLock_at`.
-/

set_option autoImplicit false
namespace SymbolTree

/-- The list of arguments that a request is about. -/
def Request.params : Request → Option NodeId
  | .resolveName _ _ params _ => params
  | .effectiveAttributes _ => none
  | .addListed .. => none
  | .isDerivedFrom .. => none
  | .classDepth .. => none
  | .findMember _ _ _ params _ => params
  | .findInList _ _ _ params _ => params

namespace Search

variable {α β : Type}

/-! ## Running a program step by step -/

/-- The second program runs in the context that the first one leaves, unless that one stopped. -/
theorem exec_bind (p : Search α) (f : α → Search β) (c : Context) :
    (p >>= f).exec c = match p.exec c with
      | (.ok x, d) => (f x).exec d
      | (.error e, d) => (.error e, d) := by
  change (p.exec c >>= fun r => StateT.run (ExceptT.bindCont f r.1) r.2 :
    Id (Except Stop β × Context)) = _
  cases p.exec c with
  | mk r d =>
    cases r with
    | ok x => rfl
    | error e => rfl

@[simp] theorem exec_arena (c : Context) : arena.exec c = (.ok c.arena, c) := rfl

@[simp] theorem exec_get_bind (f : Context → Search β) (c : Context) :
    (get >>= f).exec c = (f c).exec c := rfl

@[simp] theorem exec_arena_bind (f : Arena → Search β) (c : Context) :
    (arena >>= f).exec c = (f c.arena).exec c := rfl

@[simp] theorem exec_nameOf_bind (n : NodeId) (f : String → Search β) (c : Context) :
    (nameOf n >>= f).exec c = (f (c.arena.name n)).exec c := rfl

/-- A search under a lock: one guard more before it, one less after it, also when it stopped. -/
@[simp] theorem exec_withLock (n : NodeId) (p : Search α) (c : Context) :
    (withLock n p).exec c = ((p.exec { c with arena := c.arena.lock n }).1,
      { (p.exec { c with arena := c.arena.lock n }).2 with
        arena := Guard.drop ⟨some n⟩ (p.exec { c with arena := c.arena.lock n }).2.arena }) := rfl

/-- The rejections from before come back, whatever the search gathered. -/
@[simp] theorem exec_withFreshRejections (p : Search α) (c : Context) :
    (withFreshRejections p).exec c = ((p.exec { c with rejections := Rejections.none }).1,
      { (p.exec { c with rejections := Rejections.none }).2 with rejections := c.rejections }) :=
  rfl

/-- A variable that is being expanded is taken off again in the end. -/
@[simp] theorem exec_whileExpanding (v : NodeId) (p : Search α) (c : Context) :
    (whileExpanding v p).exec c = ((p.exec { c with expanding := v :: c.expanding }).1,
      { (p.exec { c with expanding := v :: c.expanding }).2 with
        expanding := (p.exec { c with expanding := v :: c.expanding }).2.expanding.erase v }) :=
  rfl

/-- A refused question stops the search and leaves the context as it is. -/
theorem exec_ask (f : Arena → Except NodeError α) (c : Context) :
    (ask f).exec c = match f c.arena with
      | .ok x => (.ok x, c)
      | .error e => (.error (.failed (.node e)), c) := by
  rw [ask, exec_arena_bind]
  cases f c.arena with
  | ok x => rfl
  | error e => rfl

/-- What a refused edit has already done to the arena stays done. -/
theorem exec_edit (p : Edit α) (c : Context) :
    (edit p).exec c = match p.exec c.arena with
      | (.ok x, a) => (.ok x, { c with arena := a })
      | (.error e, a) => (.error (.failed (.node e)), { c with arena := a }) := by
  rw [edit, exec_arena_bind]
  cases p.exec c.arena with
  | mk r a =>
    cases r with
    | ok x => rfl
    | error e => rfl

/-- An edit that is checked before it is made leaves the arena alone when it is refused. -/
theorem exec_checked (f : Arena → Except NodeError (α × Arena)) (c : Context) :
    (edit (Edit.checked f)).exec c = match f c.arena with
      | .ok (x, a) => (.ok x, { c with arena := a })
      | .error e => (.error (.failed (.node e)), c) := by
  rw [exec_edit, Edit.exec_checked]
  cases f c.arena with
  | ok r => rfl
  | error e => rfl

/-- A refused change leaves the context as it is. -/
theorem exec_change (f : Arena → Except NodeError Arena) (c : Context) :
    (change f).exec c = match f c.arena with
      | .ok a => (.ok (), { c with arena := a })
      | .error e => (.error (.failed (.node e)), c) := by
  rw [change, Edit.change, exec_checked]
  cases f c.arena with
  | ok a => rfl
  | error e => rfl

/-! ## What is ensured -/

section

variable {P P' : Context → Prop} {Q Q' : α → Context → Prop} {S : β → Context → Prop}
  {R R' : Stop → Context → Prop} {p : Search α}

/-- What is ensured can be read off the two ways in which a program ends. -/
theorem ensures_of_exec (hok : ∀ c x d, P c → p.exec c = (.ok x, d) → Q x d)
    (hstop : ∀ c e d, P c → p.exec c = (.error e, d) → R e d) : Ensures P p Q R := by
  intro c hc
  cases hr : StateT.run (ExceptT.run p) c with
  | mk r d =>
    cases r with
    | ok x => exact hok c x d hc hr
    | error e => exact hstop c e d hc hr

/-- What is read from the arena belongs to the context that it was read in. -/
theorem ensures_arena_bind {f : Arena → Search β}
    (h : ∀ c, P c → Ensures (· = c) (f c.arena) S R) : Ensures P (arena >>= f) S R :=
  fun c hc => h c hc c rfl

theorem ensures_ask {g : Arena → Except NodeError α}
    (hok : ∀ c x, P c → g c.arena = .ok x → Q x c)
    (hstop : ∀ c e, P c → g c.arena = .error e → R (.failed (.node e)) c) :
    Ensures P (ask g) Q R := by
  refine ensures_of_exec (fun c x d hc hr => ?_) fun c e d hc hr => ?_
  · rw [exec_ask] at hr
    cases hg : g c.arena with
    | ok y =>
      rw [hg] at hr
      cases hr
      exact hok c x hc hg
    | error e =>
      rw [hg] at hr
      cases hr
  · rw [exec_ask] at hr
    cases hg : g c.arena with
    | ok y =>
      rw [hg] at hr
      cases hr
    | error e' =>
      rw [hg] at hr
      cases hr
      exact hstop c e' hc hg

/-- What a change ensures, by the arena that it leads to. -/
theorem ensures_change {g : Arena → Except NodeError Arena} {Q : Unit → Context → Prop}
    (hok : ∀ c b, P c → g c.arena = .ok b → Q () { c with arena := b })
    (hstop : ∀ c e, P c → g c.arena = .error e → R (.failed (.node e)) c) :
    Ensures P (change g) Q R := by
  intro c hc
  rw [show StateT.run (ExceptT.run (change g)) c = _ from exec_change g c]
  cases hg : g c.arena with
  | ok b => exact hok c b hc hg
  | error e => exact hstop c e hc hg

/-- A search while a node is locked. -/
theorem ensures_withLock {n : NodeId} (h : Ensures P p Q R)
    (hP : ∀ c, P' c → P { c with arena := c.arena.lock n })
    (hQ : ∀ x d, Q x d → Q' x { d with arena := Guard.drop ⟨some n⟩ d.arena })
    (hR : ∀ e d, R e d → R' e { d with arena := Guard.drop ⟨some n⟩ d.arena }) :
    Ensures P' (withLock n p) Q' R' := by
  intro c hc
  rw [show StateT.run (ExceptT.run (withLock n p)) c = _ from exec_withLock n p c]
  cases hr : p.exec { c with arena := c.arena.lock n } with
  | mk r d =>
    cases r with
    | ok x => exact hQ x d (h.of_ok (hP c hc) hr)
    | error e => exact hR e d (h.of_error (hP c hc) hr)

/-- A search with rejections of its own. -/
theorem ensures_withFreshRejections (h : Ensures P p Q R)
    (hP : ∀ c, P' c → P { c with rejections := Rejections.none })
    (hQ : ∀ x d r, Q x d → Q' x { d with rejections := r })
    (hR : ∀ e d r, R e d → R' e { d with rejections := r }) :
    Ensures P' (withFreshRejections p) Q' R' := by
  intro c hc
  rw [show StateT.run (ExceptT.run (withFreshRejections p)) c = _ from exec_withFreshRejections p c]
  cases hr : p.exec { c with rejections := Rejections.none } with
  | mk r d =>
    cases r with
    | ok x => exact hQ x d _ (h.of_ok (hP c hc) hr)
    | error e => exact hR e d _ (h.of_error (hP c hc) hr)

/-- A search while a variable is being expanded. -/
theorem ensures_whileExpanding {v : NodeId} (h : Ensures P p Q R)
    (hP : ∀ c, P' c → P { c with expanding := v :: c.expanding })
    (hQ : ∀ x d l, Q x d → Q' x { d with expanding := l })
    (hR : ∀ e d l, R e d → R' e { d with expanding := l }) :
    Ensures P' (whileExpanding v p) Q' R' := by
  intro c hc
  rw [show StateT.run (ExceptT.run (whileExpanding v p)) c = _ from exec_whileExpanding v p c]
  cases hr : p.exec { c with expanding := v :: c.expanding } with
  | mk r d =>
    cases r with
    | ok x => exact hQ x d _ (h.of_ok (hP c hc) hr)
    | error e => exact hR e d _ (h.of_error (hP c hc) hr)

end

/-! ## Courses -/

/-- The program runs a course, be it that it answers or that it stops. -/
structure Follows (params : Option NodeId) (p : Search α) : Prop where
  /-- From a consistent context the program runs a course. -/
  course : ∀ c : Context, c.arena.Consistent → Course params c (p.exec c).2

/-- Every request runs a course. -/
def Faithful (call : Call) : Prop := ∀ r : Request, Follows r.params (call r)

namespace Follows

variable {params : Option NodeId} {p : Search α} {f : α → Search β}

/-- A course without arguments is one for any arguments. -/
theorem of_none (h : Follows none p) (params : Option NodeId) : Follows params p :=
  ⟨fun c hc => (h.course c hc).of_none params⟩

theorem of_ok (h : Follows params p) {c d : Context} {x : α} (hc : c.arena.Consistent)
    (hr : p.exec c = (.ok x, d)) : Course params c d := by
  have := h.course c hc
  rwa [hr] at this

/-- Once on a course, a program that runs one stays on it. -/
theorem keeps (h : Follows params p) {c : Context} (hc : c.arena.Consistent) :
    Keeps (Course params c) p :=
  Keeps.of_state fun d hd => hd.trans (h.course d (hd.consistent hc))

theorem pure {x : α} : Follows params (Pure.pure x : Search α) := ⟨fun c _ => .refl c⟩

theorem throw {e : Stop} : Follows params (throw e : Search α) := ⟨fun c _ => .refl c⟩

/-- The second of two programs goes on from where the first one leads. -/
theorem bind_at {c : Context} (hp : Course params c (p.exec c).2)
    (hf : ∀ x d, p.exec c = (.ok x, d) → Course params c d → Course params c ((f x).exec d).2) :
    Course params c ((p >>= f).exec c).2 := by
  rw [exec_bind]
  cases hr : p.exec c with
  | mk r d =>
    rw [hr] at hp
    cases r with
    | ok x => exact hf x d hr hp
    | error e => exact hp

/-- One course after another; the first leaves a consistent context to the second. -/
theorem bind (hp : Follows params p) (hf : ∀ x, Follows params (f x)) :
    Follows params (p >>= f) :=
  ⟨fun c hc => bind_at (hp.course c hc) fun x d _ hd =>
    hd.trans ((hf x).course d (hd.consistent hc))⟩

theorem get_bind {f : Context → Search β} (h : ∀ c, Follows params (f c)) :
    Follows params (get >>= f) :=
  ⟨fun c hc => (h c).course c hc⟩

theorem arena_bind {f : Arena → Search β} (h : ∀ a, Follows params (f a)) :
    Follows params (arena >>= f) :=
  ⟨fun c hc => (h c.arena).course c hc⟩

theorem arena : Follows params arena := ⟨fun c _ => .refl c⟩

theorem ask (f : Arena → Except NodeError α) : Follows params (ask f) := by
  refine ⟨fun c _ => ?_⟩
  rw [exec_ask]
  cases f c.arena with
  | ok x => exact .refl c
  | error e => exact .refl c

theorem nameOf (n : NodeId) : Follows params (nameOf n) := arena_bind fun _ => pure

/-! ## Requests on the arena -/

/-- A checked edit runs a course if the arena it leads to is an effect. -/
theorem checked {g : Arena → Except NodeError (α × Arena)}
    (h : ∀ a x b, a.Consistent → g a = .ok (x, b) → Effect params a b) :
    Follows params (edit (Edit.checked g)) := by
  refine ⟨fun c hc => ?_⟩
  rw [exec_checked]
  cases hg : g c.arena with
  | ok r => exact .effect (h c.arena r.1 r.2 hc hg)
  | error e => exact .refl c

/-- A change runs a course if the arena it leads to is an effect. -/
theorem change {g : Arena → Except NodeError Arena}
    (h : ∀ a b, a.Consistent → g a = .ok b → Effect params a b) : Follows params (change g) := by
  refine ⟨fun c hc => ?_⟩
  rw [exec_change]
  cases hg : g c.arena with
  | ok b => exact .effect (h c.arena b hc hg)
  | error e => exact .refl c

/-- A mark for what was come upon is an effect. -/
theorem setFlag (n : NodeId) {f : Flag} (hf : f.isTrace = true) :
    Follows params (Search.change fun a => a.setFlag n f true) :=
  change fun _ _ _ h => .flag hf h

/-! ## What is undone in the end -/

/-- For a search that has already read the context it is locked in. -/
theorem withLock_at {c : Context} {n : NodeId}
    (h : Course params { c with arena := c.arena.lock n }
      (p.exec { c with arena := c.arena.lock n }).2) :
    Course params c ((withLock n p).exec c).2 := by
  rw [exec_withLock]
  exact .lock h

/-- A search under a lock; the lock taken keeps the arena consistent. -/
theorem withLock {n : NodeId} (h : Follows params p) : Follows params (withLock n p) :=
  ⟨fun _ hc => withLock_at (h.course _ (hc.lock n))⟩

theorem withFreshRejections (h : Follows params p) : Follows params (withFreshRejections p) := by
  refine ⟨fun c hc => ?_⟩
  rw [exec_withFreshRejections]
  exact .fresh (h.course _ hc)

theorem whileExpanding {v : NodeId} (h : Follows params p) :
    Follows params (whileExpanding v p) := by
  refine ⟨fun c hc => ?_⟩
  rw [exec_whileExpanding]
  exact .expand (h.course _ hc)

/-! ## Messages -/

/-- Messages are beside the course. -/
theorem report (level : Level) (code : Code) (n : NodeId) (text : String) :
    Follows params (report level code n text) := ⟨fun _ _ => .aside _ _ _ _⟩

theorem error (code : Code) (n : NodeId) (text : String) : Follows params (error code n text) :=
  report ..

theorem warning (code : Code) (n : NodeId) (text : String) :
    Follows params (warning code n text) := report ..

theorem fatal (code : Code) (n : NodeId) (text : String) : Follows params (fatal code n text) :=
  report ..

theorem fatalAt (code : Code) (filename text : String) :
    Follows params (fatalAt code filename text) := ⟨fun _ _ => .aside _ _ _ _⟩

theorem reject (r : Rejection) : Follows params (reject r) := ⟨fun _ _ => .reject r⟩

end Follows

end Search

end SymbolTree
