import SymbolTree.Proofs.Arena.Steady
import SymbolTree.Proofs.Search.Course

/-!
# Properties that pass from parts to the whole

Much of what is shown of searches does not depend on what they find: that they keep an invariant,
that they run a course, that they stay in bounds.  Such a property is shown from parts, by a rule
for each way in which searches are put together.  It is `Search.Modular` if these rules hold for it.

So the searches are gone through once for all such properties.  What a property has to say for
itself, such as when a link may be set, is a hypothesis where it matters.

## Main definitions

* `Search.Modular` — the rules for a property of searches.
* `Search.Answered`, `Search.AnsweredAll` — the requests made on the way have the property.
* `Search.Scanning` — the rules for a property that says nothing about rejections and places.
-/

set_option autoImplicit false
namespace SymbolTree

/-- A search was stopped because of a place that is out of range, or because a table was sized
wrongly. -/
def Stop.isMisplaced : Stop → Bool
  | .failed (.node e) => e.isMisplaced
  | .failed (.internal .indexTooLarge) | .failed (.internal .offsetOutOfRange) => true
  | _ => false

namespace Search

/-- A search has the property if its parts have it. -/
structure Modular (H : (α : Type) → Search α → Prop) : Prop where
  /-- An answer. -/
  pure {α : Type} {x : α} : H α (Pure.pure x)
  /-- A stop for another reason than a place. -/
  throw {α : Type} {e : Stop} (he : e.isMisplaced = false) : H α (MonadExcept.throw e)
  /-- One search after another. -/
  bind {α β : Type} {p : Search α} {f : α → Search β} (hp : H α p) (hf : ∀ x, H β (f x)) :
    H β (p >>= f)
  /-- A look at the context. -/
  get : H Context get
  /-- A look at a flag. -/
  flag (n : NodeId) (f : Flag) : H Bool (ask fun a => a.flag n f)
  /-- A check of an attribute. -/
  checkAttribute (n : NodeId) (t : Attribute) : H Unit (ask fun a => a.checkAttribute n t)
  /-- A mark on what was come upon. -/
  setFlag (n : NodeId) {f : Flag} (hf : f.isTrace = true) :
    H Unit (change fun a => a.setFlag n f true)
  /-- A label that is registered. -/
  addLabel (owner n : NodeId) : H Unit (change fun a => a.addLabel owner n)
  /-- The names in the expression of a type are marked. -/
  markType (e : NodeId) : H Bool (edit (Edit.setAttributeTree e .type true))
  /-- A name is created to be resolved. -/
  createName {β : Type} {n : NodeId} {name : String} {k : NodeId → Search β}
    (hk : ∀ id, H β (k id)) : H β (do
      let id ← createReplacement n .identifier
      change fun a => a.setText id name
      k id)
  /-- A message, the configuration, a loaded module or the reasons for a failure are recorded. -/
  aside {f : Context → Context} (hf : ∀ c, ∃ ds o ms l, f c =
    { c with diagnostics := ds, options := o, modules := ms, lastRejections := l }) :
    H Unit (modify f)
  /-- A search under a lock. -/
  withLock {α : Type} {n : NodeId} {p : Search α} (h : H α p) : H α (withLock n p)
  /-- A search with rejections of its own. -/
  withFreshRejections {α : Type} {p : Search α} (h : H α p) : H α (withFreshRejections p)
  /-- A search while a variable is expanded. -/
  whileExpanding {α : Type} {v : NodeId} {p : Search α} (h : H α p) : H α (whileExpanding v p)

/-- The requests for names without arguments, for attributes and for derivation have the
property. -/
structure Answered (H : (α : Type) → Search α → Prop) (call : Call) : Prop where
  /-- Names. -/
  resolveName : ∀ list id mode, H _ (call (.resolveName list id none mode))
  /-- Attributes. -/
  effectiveAttributes : ∀ n, H _ (call (.effectiveAttributes n))
  /-- Entries of attribute lists. -/
  addListed : ∀ n entry s, H _ (call (.addListed n entry s))
  /-- Derivation. -/
  isDerivedFrom : ∀ derived base, H _ (call (.isDerivedFrom derived base))

/-- And so have, with the given arguments, the requests for members. -/
structure AnsweredAll (H : (α : Type) → Search α → Prop) (call : Call)
    (params : Option NodeId) : Prop extends Answered H call where
  /-- Members of classes. -/
  findMember : ∀ link field t mode, H _ (call (.findMember link field t params mode))
  /-- Members in lists. -/
  findInList : ∀ list field t mode, H _ (call (.findInList list field t params mode))

/-- The property is modular and says nothing about rejections, places and what was asked of the
arena. -/
structure Scanning (H : (α : Type) → Search α → Prop) : Prop extends Modular H where
  /-- A stop. -/
  stop {α : Type} {e : Stop} : H α (MonadExcept.throw e)
  /-- A question to the arena. -/
  ask {α : Type} (f : Arena → Except NodeError α) : H α (ask f)
  /-- A rejection. -/
  reject (r : Rejection) : H Unit (reject r)

namespace Modular

variable {α β : Type} {H : (α : Type) → Search α → Prop}

/-- A reported failure is a stop. -/
theorem fail (L : Modular H) {e : CompileError} (he : (Stop.failed e).isMisplaced = false) :
    H α (fail e) := L.throw he

theorem internal (L : Modular H) {e : TreeFault}
    (he : (Stop.failed (.internal e)).isMisplaced = false) : H α (internal e) := L.throw he

theorem get_bind (L : Modular H) {f : Context → Search β} (h : ∀ c, H β (f c)) :
    H β (MonadState.get >>= f) := L.bind L.get h

theorem arena (L : Modular H) : H Arena arena := L.get_bind fun _ => L.pure

theorem arena_bind (L : Modular H) {f : Arena → Search β} (h : ∀ a, H β (f a)) :
    H β (Search.arena >>= f) := L.bind L.arena h

theorem nameOf (L : Modular H) (n : NodeId) : H String (nameOf n) := L.arena_bind fun _ => L.pure

/-- One search for each entry of a list. -/
theorem forM (L : Modular H) {γ : Type} {g : γ → Search PUnit} {l : List γ}
    (h : ∀ x, H PUnit (g x)) : H PUnit (l.forM g) := by
  induction l with
  | nil => exact L.pure
  | cons x l ih =>
    show H PUnit (g x >>= fun _ => l.forM g)
    exact L.bind (h x) fun _ => ih

/-- A fold has the property if each step has it, from every value. -/
theorem foldlM (L : Modular H) {γ : Type} {g : β → γ → Search β} {l : List γ} {b : β}
    (h : ∀ b x, H β (g b x)) : H β (l.foldlM g b) := by
  induction l generalizing b with
  | nil => exact L.pure
  | cons x l ih =>
    rw [List.foldlM_cons]
    exact L.bind (h b x) fun _ => ih

/-- Whatever is reported is recorded beside the arena. -/
theorem report (L : Modular H) (level : Level) (code : Code) (n : NodeId) (text : String) :
    H Unit (report level code n text) := L.aside fun _ => ⟨_, _, _, _, rfl⟩

theorem error (L : Modular H) (code : Code) (n : NodeId) (text : String) :
    H Unit (error code n text) := L.report ..

theorem warning (L : Modular H) (code : Code) (n : NodeId) (text : String) :
    H Unit (warning code n text) := L.report ..

theorem fatal (L : Modular H) (code : Code) (n : NodeId) (text : String) :
    H Unit (fatal code n text) := L.report ..

theorem fatalAt (L : Modular H) (code : Code) (filename text : String) :
    H Unit (fatalAt code filename text) := L.aside fun _ => ⟨_, _, _, _, rfl⟩

/-- The rejections are put in one message, and the store for the last ones is filled. -/
theorem reportRejections (L : Modular H) (n : NodeId) : H Unit (reportRejections n) := by
  refine L.get_bind fun c => L.bind (L.aside fun _ => ⟨_, _, _, _, rfl⟩) fun _ => ?_
  dsimp only
  split
  · exact L.pure
  · exact L.bind (L.nameOf n) fun _ => L.error ..

end Modular

end Search

end SymbolTree
