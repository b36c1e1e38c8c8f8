import SymbolTree.Proofs.Search.Follows
import SymbolTree.Proofs.Search.Modular.Scope

/-!
# Searches that keep their rejections to themselves

While a name is looked for, the candidates that were rejected are collected.  A search that another
search starts on the way, such as one for the attributes of a candidate, must not add to them: what
it rejects are candidates for another name.  `Search.Discreet p` says that `p` leaves the rejections
of its caller as they are, however it ends.

Only the searches that go through the children of lists and classes collect rejections for their
caller.  All others collect none, or collect their own (`Discreet.withFreshRejections`).

## Main statements

* `Search.discreetCalls_answer` — the requests made on the way leave the rejections alone.
* `Search.discreet_linkType`, `Search.discreet_hasAttribute`, `Search.discreet_resolveField`,
  `Search.discreet_checkImport` — so are the searches that a compiler starts.
-/

set_option autoImplicit false
namespace SymbolTree.Search

variable {α β : Type}

/-- The search leaves the rejections of its caller as they are, be it that it answers or that it
stops. -/
structure Discreet (p : Search α) : Prop where
  /-- The rejections are the same afterwards. -/
  rejections : ∀ c : Context, (p.exec c).2.rejections = c.rejections

namespace Discreet

variable {p : Search α} {f : α → Search β}

theorem pure {x : α} : Discreet (Pure.pure x : Search α) := ⟨fun _ => rfl⟩

theorem throw {e : Stop} : Discreet (throw e : Search α) := ⟨fun _ => rfl⟩

/-- Two searches that leave the rejections alone do so one after the other. -/
theorem bind (hp : Discreet p) (hf : ∀ x, Discreet (f x)) : Discreet (p >>= f) := by
  refine ⟨fun c => ?_⟩
  have h := hp.rejections c
  rw [exec_bind]
  cases hr : p.exec c with
  | mk r d =>
    rw [hr] at h
    cases r with
    | ok x => exact ((hf x).rejections d).trans h
    | error e => exact h

theorem get_bind {f : Context → Search β} (h : ∀ c, Discreet (f c)) : Discreet (get >>= f) :=
  ⟨fun c => (h c).rejections c⟩

/-- A change of the context that does not touch the rejections. -/
theorem modify {g : Context → Context} (h : ∀ c, (g c).rejections = c.rejections) :
    Discreet (modify g : Search Unit) := ⟨h⟩

/-- The arena holds no rejections. -/
theorem write (g : Arena → Arena) : Discreet (write g) := modify fun _ => rfl

theorem ask (g : Arena → Except NodeError α) : Discreet (ask g) := by
  refine ⟨fun c => ?_⟩
  rw [exec_ask]
  cases g c.arena with
  | ok x => rfl
  | error e => rfl

theorem edit (e : Edit α) : Discreet (edit e) := by
  refine ⟨fun c => ?_⟩
  rw [exec_edit]
  cases e.exec c.arena with
  | mk r a =>
    cases r with
    | ok x => rfl
    | error e => rfl

theorem change (g : Arena → Except NodeError Arena) : Discreet (change g) := edit _

/-- A lock does not touch the rejections. -/
theorem withLock {n : NodeId} (h : Discreet p) : Discreet (withLock n p) :=
  ⟨fun _ => h.rejections _⟩

theorem whileExpanding {v : NodeId} (h : Discreet p) : Discreet (whileExpanding v p) :=
  ⟨fun _ => h.rejections _⟩

/-- Whatever a search rejects on its own account is forgotten in the end. -/
theorem withFreshRejections : Discreet (withFreshRejections p) := ⟨fun _ => rfl⟩

end Discreet

/-- To be discreet passes from the parts of a search to the whole. -/
theorem modular_discreet : Modular fun _ => Discreet where
  pure := .pure
  throw _ := .throw
  bind hp hf := hp.bind hf
  get := ⟨fun _ => rfl⟩
  flag _ _ := .ask _
  checkAttribute _ _ := .ask _
  setFlag _ _ _ := .change _
  addLabel _ _ := .change _
  markType _ := .edit _
  createName hk := .bind (.edit _) fun id => .bind (.change _) fun _ => hk id
  aside {f} hf := .modify fun c => by
    obtain ⟨ds, o, ms, l, h⟩ := hf c
    rw [h]
  withLock h := h.withLock
  withFreshRejections _ := .withFreshRejections
  whileExpanding h := h.whileExpanding

/-- The requests that a search makes on its way to something else leave the rejections of the search
as they are. -/
structure DiscreetCalls (call : Call) : Prop where
  /-- Names. -/
  resolveName : ∀ list id params mode, Discreet (call (.resolveName list id params mode))
  /-- Attributes. -/
  effectiveAttributes : ∀ n, Discreet (call (.effectiveAttributes n))
  /-- Entries of attribute lists. -/
  addListed : ∀ n entry s, Discreet (call (.addListed n entry s))
  /-- Derivation. -/
  isDerivedFrom : ∀ derived base, Discreet (call (.isDerivedFrom derived base))

variable {call : Call}

/-- Requests for names and attributes are among those that are discreet. -/
theorem DiscreetCalls.answered (hcall : DiscreetCalls call) :
    Answered (fun _ => Discreet) call where
  resolveName list id mode := hcall.resolveName list id none mode
  effectiveAttributes := hcall.effectiveAttributes
  addListed := hcall.addListed
  isDerivedFrom := hcall.isDerivedFrom

/-! ## Attributes and classes -/

theorem discreet_hasAttribute (hcall : DiscreetCalls call) (n : NodeId) (t : Attribute) :
    Discreet (hasAttribute call n t) :=
  modular_hasAttribute modular_discreet hcall.answered n t

theorem discreet_linkType (hcall : DiscreetCalls call) (ty : NodeId) :
    Discreet (linkType call ty) :=
  modular_linkType modular_discreet hcall.answered (fun _ _ _ => .write _) ty

/-- A name is resolved with rejections of its own, whatever the requests do. -/
theorem discreet_resolveName (list id : NodeId) (params : Option NodeId) (mode : SearchMode) :
    Discreet (resolveName call list id params mode) :=
  .withFreshRejections

/-- The requests that a search makes on its way leave its rejections as they are, however deep they
nest. -/
theorem discreetCalls_answer (fuel : Nat) : DiscreetCalls (answer fuel) := by
  induction fuel with
  | zero => exact ⟨fun _ _ _ _ => .throw, fun _ => .throw, fun _ _ _ => .throw, fun _ _ => .throw⟩
  | succ fuel ih =>
    have L : Modular fun _ => Discreet := modular_discreet
    exact
      { resolveName := discreet_resolveName
        effectiveAttributes := fun _ =>
          modular_effectiveAttributes L ih.answered fun s => .modify fun _ => rfl
        addListed := modular_addListed L ih.answered
        isDerivedFrom := modular_isDerivedFrom (discreet_linkType ih) L ih.answered }

/-- A search that is run on its own is discreet if it is so for discreet requests. -/
theorem discreet_run {s : Call → Search α} (h : ∀ call, DiscreetCalls call → Discreet (s call)) :
    Discreet (run s) :=
  .get_bind fun _ => h _ (discreetCalls_answer _)

/-! ## Members -/

theorem discreet_dropMatch (params : NodeId) (index : Nat) (m : NodeId) :
    Discreet (dropMatch params index m) :=
  .bind (.edit _) fun _ => .change _

/-- The choice among functions asks for derivation only. -/
theorem discreet_selectBestFunction (hcall : DiscreetCalls call) (params : Option NodeId) :
    Discreet (selectBestFunction call params) :=
  modular_selectBestFunction modular_discreet fun p _ fuel =>
    modular_selectFrom modular_discreet hcall.answered discreet_dropMatch (fun _ => .ask _) p fuel 0
      none false

/-- A field is searched for with rejections of its own. -/
theorem discreet_findField (link field : NodeId) (funcs : Nat) (params : Option NodeId)
    (mode : SearchMode) : Discreet (findField call link field funcs params mode) :=
  .withFreshRejections

theorem discreet_resolveField (hcall : DiscreetCalls call) (object field : NodeId)
    (params : Option NodeId) (mode : SearchMode) :
    Discreet (resolveField call object field params mode) :=
  modular_resolveField (discreet_selectBestFunction hcall params)
    (fun _ _ _ => discreet_findField ..) modular_discreet (discreet_linkType hcall) object field
    mode

/-! ## Modules and packages -/

theorem discreet_findModule (filename : String) : Discreet (findModule filename) :=
  modular_findModule modular_discreet (fun _ _ => ⟨fun _ => rfl⟩) filename

theorem discreet_markReferenced (p : NodeId) : Discreet (markReferenced p) := by
  refine .bind (.ask _) fun b => ?_
  split
  · exact .pure
  · exact .bind (.change _) fun _ => .modify fun _ => rfl

/-- What an import leads to is searched for under a name of its own, and so are its rejections. -/
theorem discreet_checkImport (hcall : DiscreetCalls call) (import_ : NodeId) (name : String)
    (params : Option NodeId) (mode : SearchMode) :
    Discreet (checkImport call import_ name params mode) :=
  modular_checkImport
    (modular_importMember (discreet_selectBestFunction hcall params)
      (fun _ _ _ => discreet_findField ..) modular_discreet hcall.answered discreet_markReferenced)
    modular_discreet discreet_findModule import_ name mode

end SymbolTree.Search
