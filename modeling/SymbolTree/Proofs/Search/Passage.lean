import SymbolTree.Proofs.Arena.Forest
import SymbolTree.Proofs.Search.Lasting
import SymbolTree.Proofs.Search.Proceeds
import SymbolTree.Proofs.Search.Visible.Remembered

/-!
# What is carried through a search without arguments

A search without arguments adds nodes and marks them, but it moves none, so that what was found out
about the places of nodes stays true (`Search.Reaches`).  `Search.Runs c p φ` says that the search
`p`, started in `c`, passes on to a context with `φ` if it answers.  What such a search keeps is
carried by the rules of `Search.Proceeds`, so that a proof is left with what is found on the way.

## Main statements

* `Search.Reaches.of_course` — a course without arguments moves nothing.
* `Search.Runs.follows_bind`, `Search.Runs.change_bind` — a search goes on from a course, or from an
  arena that was written to.
-/

set_option autoImplicit false
namespace SymbolTree.Search

variable {α β : Type} {c d e : Context}

/-- A context that comes after another one in which nothing was moved. -/
structure Reaches (c d : Context) : Prop where
  /-- The tree is consistent. -/
  consistent : d.arena.Consistent
  /-- Nodes are only added. -/
  grows : c.arena.Grows d.arena
  /-- The flags that say something of the program stay. -/
  flag : ∀ n f, n.index < c.arena.size → f.isTrace = false → f ≠ .packageReferenced →
    (d.arena.node n).flags.contains f = (c.arena.node n).flags.contains f
  /-- The modules that declare things for all programs stay. -/
  provided : d.globalImport = c.globalImport ∧ d.systemImport = c.systemImport ∧
    d.nativeImport = c.nativeImport

namespace Reaches

variable {n m : NodeId}

/-- A step that at most takes or gives back locks. -/
theorem of_nodes (hc : c.arena.Consistent) (hn : d.arena.nodes = c.arena.nodes)
    (hl : d.arena.locks.size = c.arena.locks.size)
    (hprovided : d.globalImport = c.globalImport ∧ d.systemImport = c.systemImport ∧
      d.nativeImport = c.nativeImport) : Reaches c d :=
  ⟨hc.of_locks hn hl, .of_frame ((Arena.Frame.refl none c.arena).of_nodes rfl hn),
    fun n f _ _ _ => by rw [Arena.node, hn, Arena.node], hprovided⟩

theorem refl (hc : c.arena.Consistent) : Reaches c c := .of_nodes hc rfl rfl ⟨rfl, rfl, rfl⟩

theorem trans (h : Reaches c d) (h' : Reaches d e) : Reaches c e :=
  ⟨h'.consistent, h.grows.trans h'.grows,
    fun n f hn hf hp => (h'.flag n f (h.grows.lt hn) hf hp).trans (h.flag n f hn hf hp),
    h'.provided.1.trans h.provided.1, h'.provided.2.1.trans h.provided.2.1,
    h'.provided.2.2.trans h.provided.2.2⟩

theorem of_course (h : Course none c d) (hc : c.arena.Consistent) : Reaches c d :=
  ⟨h.consistent hc, .of_frame (h.frame hc), fun _ _ hn hf hp => h.flag_eq hc hn hf hp, h.provided⟩

theorem lock (hc : c.arena.Consistent) (n : NodeId) :
    Reaches c { c with arena := c.arena.lock n } :=
  .of_nodes hc rfl (Array.size_modify ..) ⟨rfl, rfl, rfl⟩

theorem drop (hc : c.arena.Consistent) (g : Guard) :
    Reaches c { c with arena := g.drop c.arena } :=
  .of_nodes hc (Arena.nodes_drop g c.arena) (Arena.size_locks_drop g c.arena) ⟨rfl, rfl, rfl⟩

theorem lt (h : Reaches c d) (hn : n.index < c.arena.size) : n.index < d.arena.size :=
  h.grows.lt hn

/-- A node of a kind is there and keeps it. -/
theorem kind (h : Reaches c d) (hn : c.arena.kind n ≠ .unknown) :
    d.arena.kind n = c.arena.kind n :=
  h.grows.kind (Arena.lt_size_of_kind_ne hn)

theorem children (h : Reaches c d) (hn : n.index < c.arena.size) :
    d.arena.children n = c.arena.children n :=
  h.grows.children hn

theorem under (h : Reaches c d) (hn : c.arena.Under n m) : d.arena.Under n m :=
  (h.grows.parent (Arena.lt_size_of_parent hn)).trans hn

theorem inside (h : Reaches c d) (hn : c.arena.Inside n m) : d.arena.Inside n m :=
  Relation.ReflTransGen.mono (fun _ _ => h.under) n m hn

theorem below (h : Reaches c d) (hn : Relation.TransGen c.arena.Under n m) :
    Relation.TransGen d.arena.Under n m :=
  Relation.TransGen.mono (fun _ _ => h.under) n m hn

end Reaches

instance progress_reaches :
    Progress (fun c => c.arena.Consistent) Reaches fun _ => True where
  trans := Reaches.trans
  start := Reaches.consistent
  aside _ _ _ _ hc := .of_nodes hc rfl rfl ⟨rfl, rfl, rfl⟩
  drop n hc := .drop hc ⟨some n⟩
  fault _ := trivial

/-- A search without arguments that passes from `c` to a context with `φ`, if it answers. -/
abbrev Runs (c : Context) (p : Search α) (φ : α → Context → Prop) : Prop :=
  Proceeds (fun c => c.arena.Consistent) Reaches (fun _ => True) c p φ

namespace Runs

variable {p : Search α} {f : α → Search β} {φ : α → Context → Prop} {ψ : β → Context → Prop}

/-- A search that follows a course, with what is known of its answers. -/
theorem of_yields (hp : Follows none p) (h : c.arena.Consistent → Yields (· = c) p φ) :
    Runs c p φ :=
  ⟨fun hc => Yields.of_exec fun _ _ _ he hr => by
    subst he
    exact ⟨.of_course (hp.of_ok hc hr) hc, (h hc).of_ok rfl hr⟩⟩

/-- A search that follows a course. -/
theorem of_follows (hp : Follows none p) : Runs c p fun _ _ => True :=
  of_yields hp fun _ => Yields.any

/-- A search of which only the course matters comes first. -/
theorem follows_bind (hp : Follows none p) (hf : ∀ x d, Reaches c d → Runs d (f x) ψ) :
    Runs c (p >>= f) ψ :=
  (of_follows hp).bind fun x d hd _ => hf x d hd

/-- A search goes on from an arena that was written to. -/
theorem change_bind {g : Arena → Except NodeError Arena} {f : Unit → Search β}
    (hg : Follows none (change g))
    (hf : ∀ e, g c.arena = .ok e → Reaches c { c with arena := e } →
      Runs { c with arena := e } (f ()) ψ) : Runs c (change g >>= f) ψ := by
  refine Proceeds.bind (φ := fun _ d => ∃ e, g c.arena = .ok e ∧ d = { c with arena := e })
    (of_yields hg fun _ => Yields.change fun _ e he hr => ?_) fun _ d hd hr => ?_
  · subst he
    exact ⟨e, hr, rfl⟩
  · obtain ⟨e, he, rfl⟩ := hr
    exact hf e he hd

/-- A name is created to be looked for. -/
theorem createName {n : NodeId} {text : String} {k : NodeId → Search β}
    (hk : ∀ id d, Reaches c d → Runs d (k id) ψ) :
    Runs c (do
      let id ← createReplacement n .identifier
      change fun a => a.setText id text
      k id) ψ := by
  have hnew : Follows none (do
      let id ← createReplacement n .identifier
      change fun a => a.setText id text
      return id) := follows_createName fun _ => .pure
  simpa using follows_bind (c := c) hnew hk

end Runs

end SymbolTree.Search
