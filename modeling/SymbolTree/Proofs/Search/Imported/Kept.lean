import SymbolTree.Proofs.Search.Balance
import SymbolTree.Proofs.Search.Imported.Package
import SymbolTree.Proofs.Search.Visible.Remembered

/-!
# A module while something is imported from it

An import changes little: it adds the name that is looked for, sets a few flags and links, and
remembers attributes.  `Search.Kept` says that everything else in a module is as it was, with so
many nodes more, and under it the attributes of every node of the module are sure to be worked out
(`Search.Kept.answers_hasAttribute`).

## Main statements

* `Search.Kept.update` — changing a node in place.
* `Search.Kept.answers_hasAttribute` — the attributes of a node, as `Arena.effective` has them.
-/

set_option autoImplicit false
namespace SymbolTree

open Relation (ReflTransGen)

/-- A module in good order: a tree of its own, in which nothing was discarded, nothing is locked,
and attribute lists can be read. -/
structure Context.HoldsModule (c : Context) (m : NodeId) : Prop where
  /-- Parents and children agree, and attribute nodes are there. -/
  sound : c.arena.Sound
  /-- No node stands below itself. -/
  forest : c.arena.Forest
  /-- The module is a program. -/
  program : c.arena.kind m = .program
  /-- Nothing in it was discarded. -/
  alive : ∀ n, c.arena.Inside n m → c.arena.isAlive n = true
  /-- Nothing is locked. -/
  unlocked : ∀ n, c.arena.lockCount n = 0
  /-- Its attribute lists can be read. -/
  legible : ∀ n, c.arena.Inside n m → c.arena.Legible n
  /-- What is remembered about it is right. -/
  remembered : ∀ n s, c.arena.Inside n m → c.attributeCache.lookup n = some s → c.arena.Fits n s
  /-- Its labels have names. -/
  labelled : ∀ n, c.arena.Inside n m → c.arena.kind n = .label → (c.arena.node n).text ≠ ""
  /-- Labels that are registered were not discarded. -/
  registered : ∀ n, c.arena.Inside n m → ∀ l ∈ (c.arena.node n).labels, c.arena.isAlive l.2 = true

namespace Context.HoldsModule

variable {c : Context} {m n p : NodeId}

theorem lt_size (h : c.HoldsModule m) (hn : c.arena.Inside n m) : n.index < c.arena.size := by
  rcases ReflTransGen.cases_head hn with rfl | ⟨p, hp, -⟩
  · exact Arena.lt_size_of_kind_ne (by rw [h.program]; decide)
  · exact Arena.lt_size_of_parent hp

/-- The nodes from which a node of the module inherits attributes are in the module. -/
theorem inside_of_inherits (h : c.HoldsModule m) (hn : c.arena.Inside n m)
    (hp : c.arena.InheritsFrom n p) : c.arena.Inside p m := by
  rcases ReflTransGen.cases_head hn with rfl | ⟨q, hq, hqm⟩
  · exact absurd h.program hp.1
  · cases hq.symm.trans hp.2.2
    exact hqm

end Context.HoldsModule

theorem Arena.flag_of_accepts {a : Arena} {n : NodeId} {f : Flag}
    (h : f.accepts (a.kind n) = true) : a.flag n f = .ok ((a.node n).flags.contains f) := by
  rw [flag, checkFlag, if_pos h]
  rfl

theorem Arena.setText_of_modifying {a : Arena} {n : NodeId} (hk : (a.kind n).hasText = true)
    (hn : a.modifying n = .ok ()) (value : String) :
    a.setText n value = .ok (a.update n fun d => { d with text := value }) := by
  rw [setText, hk, hn]
  rfl

theorem Arena.exists_setFlag {a : Arena} {n : NodeId} {f : Flag}
    (h : f.accepts (a.kind n) = true) (hn : a.modifying n = .ok ()) :
    ∃ b, a.setFlag n f true = .ok b :=
  ⟨_, setFlag_eq_ok_iff.2 ⟨h, hn, rfl⟩⟩

namespace Search

/-- What holds of the answer that is sure to come holds of it together with the course of the
search. -/
theorem Answers.follow {α : Type} {c : Context} {p : Search α} {φ : α → Context → Prop}
    (h : Answers c p φ) (hp : Follows none p) (hc : c.arena.Consistent) :
    Answers c p fun x d => φ x d ∧ Course none c d := by
  obtain ⟨x, d, hr, hx⟩ := h
  exact ⟨x, d, hr, hx, hp.of_ok hc hr⟩

/-- The module `m` is as it was in `c`, where `b` has `k` nodes more, and what is remembered about
its attributes is right. -/
structure Kept (c : Context) (m : NodeId) (k : Nat) (b : Arena)
    (cache : List (NodeId × AttributeSet)) : Prop where
  /-- There are so many nodes more. -/
  size : b.size = c.arena.size + k
  /-- What was there is in its place. -/
  grows : c.arena.Grows b
  /-- The arena is sound. -/
  sound : b.Sound
  /-- No node was put below another. -/
  under : ∀ x y, b.Under x y → c.arena.Under x y
  /-- Imports have the flags that they had. -/
  imports : ∀ n, c.arena.kind n = .import_ → (b.node n).flags = (c.arena.node n).flags
  /-- What is remembered agrees with the tree. -/
  remembered : ∀ n s, c.arena.Inside n m → cache.lookup n = some s → c.arena.Fits n s

namespace Kept

variable {c d : Context} {m n : NodeId} {k : Nat} {b : Arena}
  {cache : List (NodeId × AttributeSet)}

theorem refl (h : c.HoldsModule m) : Kept c m 0 c.arena c.attributeCache :=
  ⟨rfl, .refl _, h.sound, fun _ _ => id, fun _ _ => rfl, h.remembered⟩

theorem forest (hb : Kept c m k b cache) (h : c.HoldsModule m) : b.Forest :=
  h.forest.mono hb.under

theorem of_nodes (hb : Kept c m k b cache) {b' : Arena} (hn : b'.nodes = b.nodes)
    (hl : b'.locks.size = b.locks.size) : Kept c m k b' cache := by
  have hnode : b'.node = b.node := funext fun n => by rw [Arena.node, Arena.node, hn]
  refine ⟨(congrArg Array.size hn).trans hb.size, ⟨?_, fun n hlt => ?_⟩,
    ⟨hb.sound.consistent.of_locks hn hl, hb.sound.housed.of_nodes hn⟩, ?_, fun n hk => ?_,
    hb.remembered⟩
  · exact hb.grows.size_le.trans (congrArg Array.size hn).ge
  · rw [hnode]
    exact hb.grows.node n hlt
  · rw [Arena.under_congr hn]
    exact hb.under
  · rw [hnode]
    exact hb.imports n hk

theorem lock (hb : Kept c m k b cache) (n : NodeId) : Kept c m k (b.lock n) cache :=
  hb.of_nodes rfl (Array.size_modify ..)

theorem drop (hb : Kept c m k b cache) (g : Guard) : Kept c m k (g.drop b) cache :=
  hb.of_nodes (Arena.nodes_drop g b) (Arena.size_locks_drop g b)

/-- A node that is no import is changed in place. -/
theorem update (hb : Kept c m k b cache) {f : Node → Node}
    (hgrows : b.Grows (b.update n f)) (hsound : (b.update n f).Sound)
    (hparent : (f (b.node n)).parent = b.parent n) (hn : c.arena.kind n ≠ .import_) :
    Kept c m k (b.update n f) cache := by
  refine ⟨(Arena.size_update b n f).trans hb.size, hb.grows.trans hgrows, hsound, ?_,
    fun x hx => ?_, hb.remembered⟩
  · rw [Arena.under_update hparent]
    exact hb.under
  · have hne : ¬ (x = n ∧ n.index < b.size) := fun hxn => hn (hxn.1 ▸ hx)
    rw [Arena.node_update, if_neg hne]
    exact hb.imports x hx

/-- A flag is set on a node that is no import. -/
theorem setFlag (hb : Kept c m k b cache) {b' : Arena} {f : Flag}
    (h : b.setFlag n f true = .ok b') (hn : c.arena.kind n ≠ .import_) :
    Kept c m k b' cache := by
  have hgrows : b.Grows b' := .of_frame (.setFlag h)
  have hsound : b'.Sound := ⟨hb.sound.consistent.setFlag h, hb.sound.housed.setFlag h⟩
  obtain ⟨-, -, rfl⟩ := Arena.setFlag_eq_ok_iff.1 h
  exact hb.update hgrows hsound rfl hn

/-- A node that is no import is linked. -/
theorem setLink (hb : Kept c m k b cache) {l : Link} (hl : l = .inst ∨ l = .typeNode)
    (t : Option NodeId) (hn : c.arena.kind n ≠ .import_) : Kept c m k (b.setLink n l t) cache := by
  refine hb.update (.setLink b n l t)
    ⟨hb.sound.consistent.setLink n l t, hb.sound.housed.update fun _ => ?_⟩
    (Node.agesInPlace_setLink _ l t).parent hn
  rcases hl with rfl | rfl <;> rfl

/-- A label is registered with a node that is no import. -/
theorem addLabel (hb : Kept c m k b cache) {b' : Arena} {l : NodeId} (h : b.addLabel n l = .ok b')
    (hn : c.arena.kind n ≠ .import_) : Kept c m k b' cache := by
  have hgrows : b.Grows b' := .of_frame (.addLabel h)
  have hconsistent := hb.sound.consistent.addLabel h
  obtain ⟨-, -, -, rfl⟩ := Arena.addLabel_eq_ok h
  exact hb.update hgrows ⟨hconsistent, hb.sound.housed.update fun _ => rfl⟩ rfl hn

theorem textIs (hb : Kept c m k b cache) (hn : n.index < c.arena.size) :
    b.textIs n = c.arena.textIs n := by
  funext s
  rw [Arena.textIs, Arena.textIs, hb.grows.kind hn, (hb.grows.node n hn).text]

/-- A package is found where it was. -/
theorem findPackage (hb : Kept c m 0 b cache) (h : c.HoldsModule m) :
    b.findPackage m = c.arena.findPackage m := by
  have hfrom : ∀ fuel list name, list.index < c.arena.size →
      b.findPackageFrom name fuel list = c.arena.findPackageFrom name fuel list := by
    intro fuel
    induction fuel with
    | zero => exact fun _ _ _ => rfl
    | succ fuel ih =>
      intro list name hlist
      rw [Arena.findPackageFrom, Arena.findPackageFrom, hb.grows.children hlist]
      refine findSome?_congr fun n hn => ?_
      have hlt := h.sound.consistent.child_lt list n hn
      rw [hb.grows.kind hlt, ih n name hlt, hb.textIs hlt]
  funext name
  rw [Arena.findPackage, Arena.findPackage, hb.size]
  exact hfrom _ m name (h.lt_size .refl)

/-! ## Attributes -/

/-- The attribute lists of the module can still be read. -/
theorem legible (hb : Kept c m k b cache) (h : c.HoldsModule m) (hn : c.arena.Inside n m) :
    b.Legible n := by
  have hlt := h.lt_size hn
  intro e he
  rw [hb.grows.attributeEntries h.sound.housed hlt] at he
  rw [hb.grows.entryAttribute (Arena.Grows.mem_attributeEntries h.sound.consistent he),
    hb.grows.kind hlt]
  exact h.legible n hn e he

/-- The effective attributes of a node that was there are what they were. -/
theorem effective (hb : Kept c m k b cache) (h : c.HoldsModule m)
    (hn : n.index < c.arena.size) : b.Effective n (c.arena.effective n) := by
  have hnow := (hb.forest h).effective hb.sound.consistent n
  have hthen := h.forest.effective h.sound.consistent n
  rwa [(hb.grows.effective h.sound hn hnow).unique hthen] at hnow

/-- **The attributes of a node of the module** are sure to be worked out, and nothing else is done
meanwhile. -/
theorem answers_hasAttribute {fuel : Nat} {t : Attribute} (h : c.HoldsModule m)
    (hd : Kept c m k d.arena d.attributeCache) (hn : c.arena.Inside n m) (ht : t ≠ .type)
    (hfuel : c.arena.size + k + 1 < fuel) :
    Answers d (hasAttribute (answer fuel) n t) fun r e =>
      (Kept c m k e.arena e.attributeCache ∧ Same d e ∧ e.arena.lockCount = d.arena.lockCount) ∧
        r = (c.arena.effective n).contains t := by
  have hforest := hd.forest h
  have hclosed : ∀ x p, c.arena.Inside x m → d.arena.InheritsFrom x p → c.arena.Inside p m := by
    rintro x p hx ⟨hk, hk', hp⟩
    have hlt := h.lt_size hx
    rw [hd.grows.kind hlt] at hk hk'
    rw [hd.grows.parent hlt] at hp
    exact h.inside_of_inherits hx ⟨hk, hk', hp⟩
  have hdepth := hforest.length_ancestors_le hd.sound.consistent n
  rw [hd.size] at hdepth
  have hstart : Settled (c.arena.Inside · m) d [] d :=
    .start fun x s hx hs => hd.grows.fits h.sound (h.lt_size hx) (hd.remembered x s hx hs)
  refine ((Search.answers_hasAttribute hforest hd.sound.consistent
    hclosed (fun x hx => hd.legible h hx) hn (by omega) hstart ht
    (hd.effective h (h.lt_size hn))).follow (follows_hasAttribute (faithful_answer fuel) n t)
    hd.sound.consistent).mono fun r e he => ?_
  obtain ⟨⟨hsettled, hr⟩, hcourse⟩ := he
  have hkept := hd.of_nodes hsettled.same.nodes hsettled.same.locks
  refine ⟨⟨{ hkept with remembered := fun x s hx hs => ?_ }, hsettled.same, hcourse.lockCount⟩, hr⟩
  intro u hu
  have hlt := h.lt_size hx
  have hthen := h.forest.effective h.sound.consistent x
  rw [hu.unique hthen]
  exact hsettled.agrees x s hx List.not_mem_nil hs _ (hd.effective h hlt)

end Kept

end Search

end SymbolTree
