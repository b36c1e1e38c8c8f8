import SymbolTree.Proofs.Search.Proceeds
import SymbolTree.Proofs.Search.Stable.Requests
import SymbolTree.Proofs.Search.Visible.Remembered

/-!
# Searches that retain what was found out

What a search has found out about a declaration stays true while other searches run: nodes keep
their place, links keep their ends, and what is remembered about attributes is neither forgotten nor
becomes wrong.  `Search.Retains c d` says so about two contexts, and `Search.Retaining c p φ` about
a search that is started in `c`: when it answers, everything found out in `c` is retained, and the
context it leaves has `φ`.  The rules for such searches are those of `Search.Proceeds`.

A search that sets a link which it found empty retains everything as a whole (`Retains.of_course`),
but not step by step, since the link may have been set in between.

## Main statements

* `Search.Retains.of_course` — a course retains everything if what is remembered stays right.
* `Search.retaining_of_preserves` — a search that leaves what is remembered alone retains
  everything; among these are loading a package (`Search.retaining_findExternalPackage`) and
  registering labels (`Search.retaining_registerLabels`).
-/

set_option autoImplicit false
namespace SymbolTree.Search

variable {α β : Type} {c d e : Context}

/-- A context that comes after another one, where everything found out so far stays true. -/
structure Retains (c d : Context) : Prop extends StaysRight c d where
  /-- Links to declarations stay. -/
  inst : ∀ n t, c.arena.inst n = some t → d.arena.inst n = some t
  /-- What is remembered stays. -/
  lookup : ∀ n s, c.attributeCache.lookup n = some s → d.attributeCache.lookup n = some s

namespace Retains

theorem refl (hc : c.arena.Sound) : Retains c c := ⟨.refl hc, fun _ _ => id, fun _ _ => id⟩

theorem trans (h : Retains c d) (h' : Retains d e) : Retains c e :=
  ⟨h.toStaysRight.trans h'.toStaysRight, fun n t ht => h'.inst n t (h.inst n t ht),
    fun n s hs => h'.lookup n s (h.lookup n s hs)⟩

theorem inst_of_frame {a b : Arena} (h : a.Frame none b) {n t : NodeId} (ht : a.inst n = some t) :
    b.inst n = some t :=
  h.link n .inst t (.inl rfl) ht Arena.not_disposable_none

/-- A whole course retains everything if what is remembered stays right. -/
theorem of_course (h : Course none c d) (hright : StaysRight c d) : Retains c d :=
  ⟨hright, fun _ _ => inst_of_frame (h.frame hright.before.consistent), fun _ _ => h.lookup⟩

/-- A step that does not touch what is remembered. -/
theorem of_frame (hc : c.arena.Sound) (hd : d.arena.Sound) (h : c.arena.Frame none d.arena)
    (hcache : d.attributeCache = c.attributeCache) : Retains c d :=
  ⟨.of_grows hc hd (.of_frame h) hcache, fun _ _ => inst_of_frame h, fun n s hn => by rwa [hcache]⟩

theorem of_effect {b : Arena} (hc : c.arena.Sound) (h : Effect none c.arena b) :
    Retains c { c with arena := b } :=
  .of_frame hc ⟨h.consistent hc.consistent, h.housed hc.housed⟩ (h.frame hc.consistent) rfl

/-- A step that only takes or gives back locks. -/
theorem of_nodes (hc : c.arena.Sound) (hn : d.arena.nodes = c.arena.nodes)
    (hl : d.arena.locks.size = c.arena.locks.size)
    (hcache : d.attributeCache = c.attributeCache) : Retains c d :=
  .of_frame hc ⟨hc.consistent.of_locks hn hl, hc.housed.of_nodes hn⟩
    ((Arena.Frame.refl none c.arena).of_nodes rfl hn) hcache

theorem lock (hc : c.arena.Sound) (n : NodeId) : Retains c { c with arena := c.arena.lock n } :=
  .of_nodes hc rfl (Array.size_modify ..) rfl

theorem drop (hc : c.arena.Sound) (g : Guard) : Retains c { c with arena := g.drop c.arena } :=
  .of_nodes hc (Arena.nodes_drop g c.arena) (Arena.size_locks_drop g c.arena) rfl

/-- The type of a node is no link to a declaration. -/
theorem setType (hc : c.arena.Sound) (n : NodeId) (t : Option NodeId) :
    Retains c { c with arena := c.arena.setLink n .typeNode t } := by
  refine ⟨.setLink hc n (.inr rfl) t, fun m u hu => ?_, fun _ _ => id⟩
  have hlink : ((c.arena.setLink n .typeNode t).node m).link .inst
      = (c.arena.node m).link .inst := Arena.field_update (·.link .inst) (by simp) m
  have halive : (c.arena.setLink n .typeNode t).isAlive = c.arena.isAlive :=
    funext (Arena.field_update Node.alive rfl)
  rw [Arena.inst, Arena.link, Arena.live, hlink, halive]
  exact hu

end Retains

instance progress_retains : Progress (fun c => c.arena.Sound) Retains fun _ => True where
  trans := Retains.trans
  start h := h.after
  aside _ _ _ _ hc := .of_nodes hc rfl rfl rfl
  drop n hc := .drop hc ⟨some n⟩
  fault _ := trivial

/-- A search that, if it answers, retains everything found out in `c` and leads to a context with
`φ`. -/
abbrev Retaining (c : Context) (p : Search α) (φ : α → Context → Prop) : Prop :=
  Proceeds (fun c => c.arena.Sound) Retains (fun _ => True) c p φ

namespace Retaining

variable {p : Search α} {φ : α → Context → Prop}

/-- A request that reads the arena. -/
theorem ask {g : Arena → Except NodeError α} : Retaining c (ask g) fun _ _ => True :=
  (Proceeds.ask fun _ _ => trivial).mono fun _ _ _ _ => trivial

/-- Besides, the search runs a course. -/
theorem course (h : Retaining c p φ) (hp : Follows none p) :
    Retaining c p fun x d => Course none c d ∧ φ x d :=
  .and ⟨fun hc => Yields.of_exec fun d x e hd hr => by
    subst hd
    exact ⟨(h.of_ok hc hr).1, hp.of_ok hc.consistent hr⟩⟩ h

/-- A search that leaves what is remembered alone. -/
theorem of_follows (hp : Follows none p)
    (hcache : ∀ c, (p.exec c).2.attributeCache = c.attributeCache) :
    Retaining c p fun _ _ => True := by
  refine ⟨fun hc => Yields.of_exec fun d x e hd hr => ?_⟩
  rw [hd] at hr
  have hcourse := hp.of_ok hc.consistent hr
  have hkept := hcache c
  rw [hr] at hkept
  exact ⟨.of_frame hc (hcourse.sound hc) (hcourse.frame hc.consistent) hkept, trivial⟩

theorem setFlag (n : NodeId) (f : Flag) :
    Retaining c (Search.change fun a => a.setFlag n f true) fun _ _ => True :=
  (Proceeds.change (fun _ hc hb => .of_frame hc
    ⟨hc.consistent.setFlag hb, hc.housed.setFlag hb⟩ (.setFlag hb) rfl)
    fun _ _ _ => trivial).mono fun _ _ _ _ => trivial

end Retaining

/-! ## Modules and labels -/

/-- A write to the arena leaves what is remembered alone. -/
instance stable_attributeCache (s : List (NodeId × AttributeSet)) :
    Stable fun c => c.attributeCache = s where
  deed _ _ hc _ := hc
  same _ _ hc _ hcache := hcache.trans hc

/-- A search that runs a course and keeps what is remembered retains everything. -/
theorem retaining_of_preserves {p : Search α} (hp : Follows none p)
    (hcache : ∀ s, Preserves (fun c => c.attributeCache = s) p) : Retaining c p fun _ _ => True :=
  .of_follows hp fun _ => (hcache _).state rfl

theorem retaining_findExternalPackage (import_ : NodeId) (name : String) :
    Retaining c (findExternalPackage import_ name) fun _ _ => True :=
  retaining_of_preserves (follows_findExternalPackage import_ name) fun _ =>
    preserves_findExternalPackage import_ name

theorem retaining_markReferenced (p : NodeId) : Retaining c (markReferenced p) fun _ _ => True :=
  retaining_of_preserves (follows_markReferenced p) fun _ => preserves_markReferenced p

theorem retaining_registerLabels (package body : NodeId) :
    Retaining c (registerLabels package body) fun _ _ => True :=
  retaining_of_preserves (follows_registerLabels package body) fun _ =>
    modular_registerLabels modular_preserves package body

end SymbolTree.Search
