import SymbolTree.Proofs.Arena.Deed
import SymbolTree.Proofs.Outline
import SymbolTree.Proofs.Search.Follows
import SymbolTree.Proofs.Search.Modular.Rules

/-!
# Properties that searches keep

Some properties of contexts look at nothing but the nodes and what is remembered about attributes,
and are kept by every single write to the arena.  Such a property is `Search.Stable`.  It survives every
search (`Search.Preserves`), as long as it survives what is remembered on the way, since searches do
nothing else that it could notice.

Here are the rules by which this is shown for a search from its parts.  Nothing has to be known of
the context in which a search is started, unlike for a course (`Search.Follows`), which allows some
writes only once and so looks at what was there before.

## Main statements

* `Outline.keeps_of_deeds` — what every write keeps, the building of a tree keeps.
* `Search.Preserves.edit`, `Search.Preserves.change` — requests on the arena.
* `Search.Preserves.withLock`, `Search.Preserves.withFreshRejections`,
  `Search.Preserves.whileExpanding` — what is undone in the end.
-/

set_option autoImplicit false
namespace SymbolTree

open Arena (Deed Deeds)

/-! ## Building -/

section

variable {I : Arena → Prop}

/-- A step of the building is a request on the arena. -/
theorem Build.keeps_of_deed (hI : ∀ a b, Deed true a b → I a → I b)
    {f : Arena → Except NodeError Arena} (h : ∀ a b, f a = .ok b → Deed true a b) :
    Keeps (fun s : Draft => I s.arena) (Build.change f) :=
  Build.keeps_change fun _ _ hs hb => hI _ _ (h _ _ hb) hs

variable (hI : ∀ a b, Deed true a b → I a → I b)

include hI

/-- A node is created and its fields are set, each a deed of its own. -/
theorem NodeOutline.keeps_of_deeds (o : NodeOutline) (p : Position) :
    Keeps (fun s : Draft => I s.arena) (o.build p) := by
  have hoption : ∀ {α : Type} {f : α → Arena → Except NodeError Arena} (x : Option α),
      (∀ x a b, f x a = .ok b → Deed true a b) →
      Keeps (fun s : Draft => I s.arena) (x.forM fun x => Build.change (f x)) := fun x hf => by
    cases x with
    | none => exact Keeps.pure
    | some x => exact Build.keeps_of_deed hI (hf x)
  have hfill : ∀ {a : Arena} {n : NodeId} {f : Node → Node},
      (∀ d : Node, d.SameStanding (f d)) → Deed true a (a.update n f) := fun hf => .fill _ hf
  have hcreate : Keeps (fun s : Draft => I s.arena) (Build.create o.kind p o.label) :=
    fun s hs => hI _ _ (.create o.kind p) hs
  refine Keeps.bind hcreate fun n => Keeps.bind (hoption o.text fun x a b h => ?_) fun _ =>
    Keeps.bind (hoption o.int fun x a b h => ?_) fun _ =>
    Keeps.bind (hoption o.float fun x a b h => ?_) fun _ =>
    Keeps.bind (Keeps.forM fun f _ => Build.keeps_of_deed hI fun _ _ h => .setFlag h) fun _ =>
    Keeps.bind (Keeps.forM fun t _ => Build.keeps_of_deed hI fun a b h => ?_) fun _ => Keeps.pure
  · rw [(Arena.setText_eq_ok h).2]
    exact hfill fun _ => ⟨rfl, rfl, rfl, rfl, rfl⟩
  · rw [Arena.setInt64_eq_ok h]
    exact hfill fun _ => ⟨rfl, rfl, rfl, rfl, rfl⟩
  · rw [Arena.setFloat64_eq_ok h]
    exact hfill fun _ => ⟨rfl, rfl, rfl, rfl, rfl⟩
  · obtain ⟨r, hr, rfl⟩ := map_eq_ok_iff.1 h
    exact .setAttribute hr

/-- What every write to an arena keeps, the building of a tree keeps. -/
theorem Outline.keeps_of_deeds (o : Outline) (p : Position) :
    Keeps (fun s : Draft => I s.arena) (o.build p) := by
  refine Outline.keeps_build (fun o p => o.keeps_of_deeds hI p)
    (fun n m => Build.keeps_of_deed hI fun a b h => ?_)
    (fun n m => Build.keeps_of_deed hI fun a b h => .attach rfl h) o p
  rw [Arena.setAttributeNode_eq_ok h]
  exact .fill n fun _ => ⟨rfl, rfl, rfl, rfl, rfl⟩

end

namespace Search

/-- The property looks at nothing but the nodes and what is remembered about attributes, and a write
to the arena keeps it. -/
class Stable (I : Context → Prop) : Prop where
  /-- A write to the arena keeps it. -/
  deed : ∀ (c : Context) (b : Arena), I c → Deed true c.arena b → I { c with arena := b }
  /-- It looks at nothing else. -/
  same : ∀ c d : Context, I c → d.arena.nodes = c.arena.nodes →
    d.attributeCache = c.attributeCache → I d

/-- The property survives the program, be it that it answers or that it stops. -/
structure Preserves {α : Type} (I : Context → Prop) (p : Search α) : Prop where
  /-- The property is an invariant. -/
  keeps : Keeps I p

/-- The property survives whatever is called. -/
def Upholds (I : Context → Prop) (call : Call) : Prop := ∀ r : Request, Preserves I (call r)

namespace Preserves

variable {α β : Type} {I : Context → Prop} {p : Search α} {f : α → Search β}

/-- To preserve a property is to lead from contexts that have it to such contexts. -/
theorem of_state (h : ∀ c, I c → I (p.exec c).2) : Preserves I p := ⟨Keeps.of_state h⟩

/-- And so the property holds in the context that a search leads to. -/
theorem state (h : Preserves I p) {c : Context} (hc : I c) : I (p.exec c).2 := h.keeps.state hc

theorem pure {x : α} : Preserves I (Pure.pure x : Search α) := ⟨Keeps.pure⟩

theorem throw {e : Stop} : Preserves I (throw e : Search α) := ⟨Keeps.throw⟩

theorem fail {e : CompileError} : Preserves I (fail e : Search α) := throw

/-- What both of two searches preserve, they preserve one after the other. -/
theorem bind (hp : Preserves I p) (hf : ∀ x, Preserves I (f x)) : Preserves I (p >>= f) :=
  ⟨Keeps.bind hp.keeps fun x => (hf x).keeps⟩

theorem get_bind {f : Context → Search β} (h : ∀ c, Preserves I (f c)) :
    Preserves I (get >>= f) :=
  ⟨Keeps.get_bind fun c _ => (h c).keeps⟩

theorem arena : Preserves I arena := ⟨fun _ hc => hc⟩

theorem arena_bind {f : Arena → Search β} (h : ∀ a, Preserves I (f a)) :
    Preserves I (Search.arena >>= f) :=
  bind arena h

theorem ask (f : Arena → Except NodeError α) : Preserves I (ask f) := by
  refine of_state fun c hc => ?_
  rw [exec_ask]
  cases f c.arena with
  | ok x => exact hc
  | error e => exact hc

theorem forM {γ : Type} {g : γ → Search PUnit} {l : List γ} (h : ∀ x, Preserves I (g x)) :
    Preserves I (l.forM g) :=
  ⟨Keeps.forM fun x _ => (h x).keeps⟩

variable [Stable I]

/-- A change beside the arena and what is remembered is not noticed. -/
theorem modify {f : Context → Context}
    (hf : ∀ c, (f c).arena = c.arena ∧ (f c).attributeCache = c.attributeCache) :
    Preserves I (modify f : Search Unit) :=
  ⟨Keeps.modify fun c hc => Stable.same c _ hc (by rw [(hf c).1]) (hf c).2⟩

/-! ## Requests on the arena -/

/-- An edit is preserved if it is a sequence of deeds, even where it is refused halfway. -/
theorem edit {p : Edit α} (h : ∀ a, Keeps (Deeds true a) p) : Preserves I (edit p) := by
  refine of_state fun c hc => ?_
  have hdeeds : I { c with arena := (p.exec c.arena).2 } :=
    Deeds.keeps (I := fun b => I { c with arena := b })
      (fun a b hdeed hb => Stable.deed { c with arena := a } b hb hdeed) ((h c.arena).state .refl) hc
  rw [exec_edit]
  cases hr : p.exec c.arena with
  | mk r b =>
    rw [hr] at hdeeds
    cases r with
    | ok x => exact hdeeds
    | error e => exact hdeeds

/-- A request that is a deed is preserved, and one that is refused changes nothing. -/
theorem change {f : Arena → Except NodeError Arena}
    (h : ∀ a b, f a = .ok b → Deed true a b) : Preserves I (change f) :=
  edit fun _ => Edit.keeps_deeds_change h

theorem setFlag (n : NodeId) (f : Flag) :
    Preserves I (Search.change fun a => a.setFlag n f true) :=
  change fun _ _ h => .setFlag h

theorem append (n m : NodeId) : Preserves I (Search.change fun a => a.appendChild n m) :=
  change fun _ _ h => .attach rfl h

/-- A node that stands in for another is created at its place. -/
theorem create (n : NodeId) (k : Kind) : Preserves I (createReplacement n k) :=
  edit fun _ => Edit.keeps_deeds_checked fun a m b h => by
    have hb : (a.createReplacement n k).2 = b := congrArg Prod.snd (Except.ok.inj h)
    exact hb ▸ .create k _

theorem setText (n : NodeId) (s : String) :
    Preserves I (Search.change fun a => a.setText n s) :=
  change fun a b h => by
    rw [(Arena.setText_eq_ok h).2]
    exact .fill n fun _ => ⟨rfl, rfl, rfl, rfl, rfl⟩

/-- A link is set whatever it was before. -/
theorem setLink (n : NodeId) (l : Link) (t : Option NodeId) :
    Preserves I (write fun a => a.setLink n l t) :=
  ⟨Keeps.modify fun c hc => Stable.deed c _ hc
    (.fill n fun d => (Node.SameButValues.setLink d l t).toSameStanding)⟩

/-- The tables of a match are filled in. -/
theorem table {m : NodeId} {g : Arena → Except NodeError Arena}
    (h : ∀ a b, g a = .ok b → ∃ f f', b = a.retable m f f') : Preserves I (Search.change g) :=
  change fun a b hb => by
    obtain ⟨f, f', rfl⟩ := h a b hb
    exact .retable m f f'

theorem addLabel (owner n : NodeId) : Preserves I (Search.change fun a => a.addLabel owner n) :=
  change fun a b h => by
    obtain ⟨-, -, -, rfl⟩ := Arena.addLabel_eq_ok h
    exact .fill owner fun _ => ⟨rfl, rfl, rfl, rfl, rfl⟩

/-- The names in the expression of a type are marked. -/
theorem markType (e : NodeId) :
    Preserves I (Search.edit (Edit.setAttributeTree e .type true)) :=
  edit fun _ => Edit.keeps_setAttributeTree (fun h hb => h.tail (.setAttribute hb)) e .type true

/-! ## What is undone in the end -/

/-- The lock that is taken and the one that is given back are deeds. -/
theorem withLock {n : NodeId} (h : Preserves I p) : Preserves I (withLock n p) := by
  refine of_state fun c hc => ?_
  have hbody := h.state (c := { c with arena := c.arena.lock n }) (Stable.same c _ hc rfl rfl)
  exact Stable.same _ _ hbody (Arena.nodes_drop _ _) rfl

/-- The property does not look at rejections. -/
theorem withFreshRejections (h : Preserves I p) : Preserves I (withFreshRejections p) := by
  refine of_state fun c hc => ?_
  have hbody := h.state (c := { c with rejections := Rejections.none })
    (Stable.same c _ hc rfl rfl)
  exact Stable.same _ _ hbody rfl rfl

/-- Nor does it look at the variables that are being expanded. -/
theorem whileExpanding {v : NodeId} (h : Preserves I p) : Preserves I (whileExpanding v p) := by
  refine of_state fun c hc => ?_
  have hbody := h.state (c := { c with expanding := v :: c.expanding })
    (Stable.same c _ hc rfl rfl)
  exact Stable.same _ _ hbody rfl rfl

/-! ## Messages -/

theorem fatalAt (code : Code) (filename text : String) : Preserves I (fatalAt code filename text) :=
  modify fun _ => ⟨rfl, rfl⟩

theorem reject (r : Rejection) : Preserves I (reject r) := modify fun _ => ⟨rfl, rfl⟩

end Preserves

/-- To preserve a stable property passes from the parts of a search to the whole. -/
theorem modular_preserves {I : Context → Prop} [Stable I] : Modular fun _ => Preserves I where
  pure := .pure
  throw _ := .throw
  bind hp hf := hp.bind hf
  get := ⟨fun _ hc => hc⟩
  flag _ _ := .ask _
  checkAttribute _ _ := .ask _
  setFlag n f _ := .setFlag n f
  addLabel := .addLabel
  markType := .markType
  createName hk := .bind (.create _ _) fun id => .bind (.setText id _) fun _ => hk id
  aside {f} hf := .modify fun c => by
    obtain ⟨ds, o, ms, l, h⟩ := hf c
    rw [h]
    exact ⟨rfl, rfl⟩
  withLock h := h.withLock
  withFreshRejections h := h.withFreshRejections
  whileExpanding h := h.whileExpanding

theorem scanning_preserves {I : Context → Prop} [Stable I] : Scanning fun _ => Preserves I where
  toModular := modular_preserves
  stop := .throw
  ask f := .ask f
  reject r := .reject r

end Search

end SymbolTree
