import SymbolTree.Proofs.Arena.Deed
import SymbolTree.Proofs.Arena.Frame
import SymbolTree.Proofs.Arena.Refusal
import Mathlib.Data.List.Induction
import Mathlib.Data.List.Perm.Subperm

/-!
# Trees and loops

Parents and children agree in every arena that can be reached, but this alone does not make them
trees: `Arena.setParent` puts a node below any other that owns children, and that may be the node
itself or one that stands below it.  Then the node is its own descendant, and a walk along the
parents never comes to an end.

This file shows that there is no other way to such a loop.  A granted request closes one exactly
when it puts a node inside itself (`Command.Loops`), and as long as none does, every walk along
parents or children ends (`Arena.WalksEnd`), with no more steps than the arena has nodes.

## Main statements

* `Arena.forest_setParent_iff` — when a granted move leaves a forest.
* `forest_iff_no_loops` — a history keeps to forests as long as it puts no node inside itself.
* `looping_history` — nothing refuses the request that does.
-/

set_option autoImplicit false
namespace SymbolTree

open Relation (TransGen ReflTransGen)

namespace Arena

/-- One node stands directly below another. -/
def Under (a : Arena) (x y : NodeId) : Prop := a.parent x = some y

/-- One node is another or stands below it. -/
abbrev Inside (a : Arena) : NodeId → NodeId → Prop := ReflTransGen a.Under

/-- No node stands below itself. -/
def Forest (a : Arena) : Prop := ∀ n, ¬ TransGen a.Under n n

variable {a b : Arena} {n c p x y : NodeId}

/-- What goes down at every step does not come back. -/
theorem not_transGen_self {α : Type} {r : α → α → Prop} {f : α → Nat}
    (h : ∀ x y, r x y → f y < f x) (x : α) : ¬ TransGen r x x := by
  have hlt : ∀ y, TransGen r x y → f y < f x := by
    intro y hy
    induction hy with
    | single hxy => exact h _ _ hxy
    | tail _ hyz ih => exact Nat.lt_trans (h _ _ hyz) ih
  exact fun hx => Nat.lt_irrefl _ (hlt x hx)

/-- Where every parent was created before its children, the arena is a forest. -/
theorem forest_of_lt (h : ∀ n p, a.parent n = some p → p.index < n.index) : a.Forest :=
  not_transGen_self h

/-- A forest of which nodes were only taken away from their parents is a forest. -/
theorem Forest.mono (h : a.Forest) (hab : ∀ x y, b.Under x y → a.Under x y) : b.Forest :=
  fun n hn => h n (TransGen.mono hab n n hn)

theorem forest_empty : ({} : Arena).Forest := by
  intro n hn
  obtain ⟨m, hm, -⟩ := TransGen.head'_iff.1 hn
  cases hm

theorem under_congr (h : b.nodes = a.nodes) : b.Under = a.Under := by
  funext x y
  rw [Under, parent, node, h]
  rfl

/-! ## Moves -/

theorem parent_setParent (h : a.Consistent) {p : Option NodeId} {i : Option Nat}
    (hb : a.setParent c p i = .ok b) (x : NodeId) :
    b.parent x = if x = c then p else a.parent x := by
  obtain ⟨hc, hp, -, hb⟩ := setParent_eq_ok hb
  obtain ⟨hstay, -, rfl⟩ | ⟨-, -, -, rfl⟩ := relocate_eq_ok hb
  · split
    · next hx => rw [hx, hstay]
    · rfl
  · cases p with
    | none => exact parent_detach h c x
    | some q =>
      rw [Option.elim_some, parent_attach, parent_detach h]
      · split <;> rfl
      · simpa using lt_size_of_modifying hc
      · simpa using lt_size_of_modifying (hp q rfl)

/-- A way up that ends at `c` does not depend on what is above `c`. -/
theorem inside_of_parent_ne (hne : ∀ x, x ≠ c → b.parent x = a.parent x) (h : a.Inside p c) :
    b.Inside p c := by
  induction h using ReflTransGen.head_induction_on with
  | refl => exact .refl
  | @head x y hxy _ ih =>
    by_cases hx : x = c
    · exact hx ▸ .refl
    · exact .head ((hne x hx).trans hxy) ih

/-- **A granted move leaves a forest unless it puts a node inside itself.** -/
theorem forest_setParent_iff (h : a.Consistent) (hf : a.Forest) {i : Option Nat}
    (hb : a.setParent c (some p) i = .ok b) : b.Forest ↔ ¬ a.Inside p c := by
  have hparent := parent_setParent h hb
  constructor
  · intro hforest hpc
    -- the way from `p` up to `c` is still there, and now `c` is below `p`
    have hup : b.Inside p c := inside_of_parent_ne (fun x hx => by rw [hparent, if_neg hx]) hpc
    have hcp : b.Under c p := by rw [Under, hparent, if_pos rfl]
    exact hforest c (.head' hcp hup)
  · intro hpc n hn
    -- a way up is as before, or it comes to `c` and goes on from `p`; it cannot do so twice
    have hway : ∀ x y, TransGen b.Under x y →
        TransGen a.Under x y ∨ a.Inside x c ∧ a.Inside p y := by
      intro x y hxy
      induction hxy with
      | @single y hxy =>
        rw [Under, hparent] at hxy
        split at hxy
        · next hx =>
          cases hxy
          exact .inr ⟨hx ▸ .refl, .refl⟩
        · exact .inl (.single hxy)
      | @tail y z _ hyz ih =>
        rw [Under, hparent] at hyz
        split at hyz
        · next hy =>
          cases hyz
          subst hy
          rcases ih with hxy | ⟨-, hpy⟩
          · exact .inr ⟨hxy.to_reflTransGen, .refl⟩
          · exact absurd hpy hpc
        · rcases ih with hxy | ⟨hxc, hpy⟩
          · exact .inl (hxy.tail hyz)
          · exact .inr ⟨hxc, hpy.tail hyz⟩
    rcases hway n n hn with hn | ⟨hnc, hpn⟩
    · exact hf n hn
    · exact hpc (hpn.trans hnc)

theorem under_of_detach (h : (a.detach c).Under x y) : a.Under x y := by
  rw [Under, Arena.detach] at h
  split at h
  · exact h
  · rw [parent_update] at h
    split at h
    · cases h
    · rw [parent_update] at h
      split at h <;> exact h

/-- Rewriting a node does not bring it below another when its parent stays. -/
theorem under_update {f : Node → Node} (hf : (f (a.node n)).parent = a.parent n) :
    (a.update n f).Under = a.Under := by
  funext x y
  rw [Under, parent_update]
  split
  · next hx => rw [hx.1, hf, Under]
  · rfl

theorem under_of_push {d : Node} (hd : d.parent = none) (h : (a.push d).2.Under x y) :
    a.Under x y := by
  rw [Under, parent, node_push] at h
  split at h
  · rw [hd] at h
    cases h
  · exact h

/-- Without attaching, nodes are at most taken away from their parents. -/
theorem Deed.under (hab : Deed false a b) (h : b.Under x y) : a.Under x y := by
  cases hab with
  | create k p => exact under_of_push rfl h
  | clone hb =>
    simp only [cloneBasicNode] at hb
    split at hb
    · obtain rfl : _ = b := congrArg Prod.snd (Except.ok.inj hb)
      exact under_of_push rfl h
    · cases hb
  | fill n hf => rwa [under_update (hf _).parent] at h
  | setFlag hb =>
    obtain ⟨-, -, rfl⟩ := setFlag_eq_ok_iff.1 hb
    rwa [under_update rfl] at h
  | setAttribute hb =>
    obtain ⟨-, -, rfl | rfl⟩ := setAttribute_eq_ok hb
    · exact h
    · rwa [under_update rfl] at h
  | setBoolean hb =>
    obtain ⟨-, -, rfl⟩ := setBoolean_eq_ok hb
    rwa [under_update rfl] at h
  | convert hb =>
    obtain ⟨-, rfl | ⟨d, hd, rfl⟩⟩ := convert_eq_ok hb
    · exact h
    · rwa [under_update (Conversion.refits hd).parent] at h
  | detach hb =>
    obtain ⟨-, -, -, hb⟩ := setParent_eq_ok hb
    obtain ⟨-, -, rfl⟩ | ⟨-, -, -, rfl⟩ := relocate_eq_ok hb
    · exact h
    · exact under_of_detach h
  | attach ht => cases ht
  | discard hb =>
    obtain ⟨-, rfl⟩ | ⟨-, -, -, rfl⟩ := discard_eq_ok hb
    · exact h
    · rwa [Under, parent, node_foldl_kill] at h

theorem Deeds.under (hab : Deeds false a b) (h : b.Under x y) : a.Under x y := by
  induction hab with
  | refl => exact h
  | tail _ hdeed ih => exact ih (hdeed.under h)

/-! ## Walks -/

/-- Nothing below the node is `k` or more levels away from it. -/
def Shallow (a : Arena) : Nat → NodeId → Prop
  | 0, _ => False
  | k + 1, n => ∀ c ∈ a.children n, a.Shallow k c

/-- **Every walk comes to its end**, so that the bound on its steps is none. -/
structure WalksEnd (a : Arena) : Prop where
  /-- The nodes above a node end with one that has no parent. -/
  root : ∀ n, ∃ r ∈ n :: a.ancestors n, a.parent r = none
  /-- A walk along the parents finds the same nodes whatever the number of steps it may take. -/
  up : ∀ n steps, a.size ≤ steps → a.ancestorsFrom steps n = a.ancestors n
  /-- A walk over all that hangs below a node finds the same nodes however deep it may go. -/
  down : ∀ n steps, a.size < steps → a.preorderFrom steps n = a.preorder n
  /-- A removal of the unknown nodes does the same however deep it may go. -/
  clean : ∀ n steps, a.size < steps →
    (Edit.cleanTreeFrom steps n).exec a = (Edit.cleanTree n).exec a

theorem isChain_ancestorsFrom (a : Arena) (steps : Nat) (n : NodeId) :
    List.IsChain a.Under (n :: a.ancestorsFrom steps n) := by
  induction steps generalizing n with
  | zero => exact .singleton n
  | succ steps ih =>
    rw [ancestorsFrom]
    cases hn : a.parent n with
    | none => exact .singleton n
    | some p => exact .cons_cons hn (ih p)

theorem pairwise_ancestorsFrom (a : Arena) (steps : Nat) (n : NodeId) :
    (n :: a.ancestorsFrom steps n).Pairwise (TransGen a.Under) :=
  List.isChain_iff_pairwise.1 ((a.isChain_ancestorsFrom steps n).imp fun _ _ => .single)

/-- No node comes twice on a way up. -/
theorem Forest.nodup_ancestorsFrom (hf : a.Forest) (steps : Nat) (n : NodeId) :
    (n :: a.ancestorsFrom steps n).Nodup := by
  refine (a.pairwise_ancestorsFrom steps n).imp fun {x y} hxy hne => ?_
  exact hf x (hne ▸ hxy)

/-- What is met on the way up from a node stands above it. -/
theorem below_of_mem_ancestorsFrom {steps : Nat} (hx : x ∈ a.ancestorsFrom steps n) :
    TransGen a.Under n x :=
  List.rel_of_pairwise_cons (a.pairwise_ancestorsFrom steps n) hx

theorem lt_size_of_mem_ancestorsFrom (h : a.Consistent) {steps : Nat}
    (hx : x ∈ a.ancestorsFrom steps n) : x.index < a.size := by
  obtain ⟨y, -, hyx⟩ := TransGen.tail'_iff.1 (below_of_mem_ancestorsFrom hx)
  exact h.parent_lt y x hyx

/-- There are no more different nodes than the arena has. -/
theorem length_le_size {l : List NodeId} (hl : l.Nodup) (hlt : ∀ x ∈ l, x.index < a.size) :
    l.length ≤ a.size := by
  have hindex : (l.map NodeId.index).Nodup :=
    hl.map fun x y hxy => by cases x; cases y; cases hxy; rfl
  have hrange : l.map NodeId.index ⊆ List.range a.size := by
    intro i hi
    obtain ⟨x, hx, rfl⟩ := List.mem_map.1 hi
    exact List.mem_range.2 (hlt x hx)
  have hlength := (List.subperm_of_subset hindex hrange).length_le
  rwa [List.length_map, List.length_range] at hlength

/-- A way up is shorter than the arena, since no node comes twice on it. -/
theorem Forest.length_ancestorsFrom_lt (hf : a.Forest) (h : a.Consistent) (steps : Nat)
    (hn : n.index < a.size) : (a.ancestorsFrom steps n).length < a.size := by
  refine length_le_size (hf.nodup_ancestorsFrom steps n) fun x hx => ?_
  rcases List.mem_cons.1 hx with rfl | hx
  · exact hn
  · exact lt_size_of_mem_ancestorsFrom h hx

/-- A walk that stops before its last step stopped for want of a parent. -/
theorem ancestorsFrom_of_length_lt {steps : Nat} (hlt : (a.ancestorsFrom steps n).length < steps)
    {more : Nat} (hle : steps ≤ more) : a.ancestorsFrom more n = a.ancestorsFrom steps n ∧
      ∃ r ∈ n :: a.ancestorsFrom steps n, a.parent r = none := by
  induction steps generalizing n more with
  | zero => cases hlt
  | succ steps ih =>
    obtain ⟨more, rfl⟩ : ∃ k, more = k + 1 := ⟨more - 1, by omega⟩
    rw [ancestorsFrom] at hlt ⊢
    rw [ancestorsFrom]
    cases hn : a.parent n with
    | none => exact ⟨rfl, n, List.mem_cons_self, hn⟩
    | some p =>
      rw [hn] at hlt
      obtain ⟨heq, r, hr, hroot⟩ := ih (Nat.lt_of_succ_lt_succ hlt) (Nat.le_of_succ_le_succ hle)
      exact ⟨congrArg (p :: ·) heq, r, List.mem_cons_of_mem n hr, hroot⟩

/-- What is no node stands below nothing. -/
theorem parent_of_size_le (hn : a.size ≤ n.index) : a.parent n = none := by
  rw [parent, node_of_size_le hn]
  rfl

theorem ancestorsFrom_of_root (hn : a.parent n = none) (steps : Nat) :
    a.ancestorsFrom steps n = [] := by
  cases steps with
  | zero => rfl
  | succ steps => rw [ancestorsFrom, hn]

/-- In a forest the walk along the parents ends with a node that has none. -/
theorem Forest.ancestors (hf : a.Forest) (h : a.Consistent) (n : NodeId) :
    (∀ steps, a.size ≤ steps → a.ancestorsFrom steps n = a.ancestors n) ∧
      ∃ r ∈ n :: a.ancestors n, a.parent r = none := by
  by_cases hn : n.index < a.size
  · have hlt := hf.length_ancestorsFrom_lt h a.size hn
    exact ⟨fun steps hle => (ancestorsFrom_of_length_lt hlt hle).1,
      (ancestorsFrom_of_length_lt hlt (Nat.le_refl _)).2⟩
  · have hroot : a.parent n = none := parent_of_size_le (Nat.le_of_not_lt hn)
    refine ⟨fun steps _ => ?_, n, List.mem_cons_self, hroot⟩
    rw [Arena.ancestors, ancestorsFrom_of_root hroot, ancestorsFrom_of_root hroot]

/-! ### Down -/

theorem Forest.length_ancestors_le (hf : a.Forest) (h : a.Consistent) (n : NodeId) :
    (a.ancestors n).length ≤ a.size := by
  by_cases hn : n.index < a.size
  · exact Nat.le_of_lt (hf.length_ancestorsFrom_lt h a.size hn)
  · rw [Arena.ancestors, ancestorsFrom_of_root (parent_of_size_le (Nat.le_of_not_lt hn))]
    exact Nat.zero_le _

/-- What is below a node has more nodes above it, and these are at most as many as there are. -/
theorem Forest.shallow (hf : a.Forest) (h : a.Consistent) {k : Nat}
    (hk : a.size < k + (a.ancestors n).length) : a.Shallow k n := by
  induction k generalizing n with
  | zero =>
    have := hf.length_ancestors_le h n
    omega
  | succ k ih =>
    intro c hc
    have hcn : a.parent c = some n := (h.mem_children n c).1 hc
    have hup : a.ancestors c = n :: a.ancestors n := by
      rw [← (hf.ancestors h c).1 (a.size + 1) (Nat.le_succ _), ancestorsFrom, hcn]
      rfl
    refine ih ?_
    rw [hup, List.length_cons]
    omega

theorem Shallow.mono (ha : a.Consistent) (hb : b.Consistent)
    (hab : ∀ x y, b.Under x y → a.Under x y) {k : Nat} (h : a.Shallow k n) : b.Shallow k n := by
  induction k generalizing n with
  | zero => exact h
  | succ k ih =>
    exact fun c hc => ih (h c ((ha.mem_children n c).2 (hab c n ((hb.mem_children n c).1 hc))))

theorem preorderFrom_congr {k l : Nat} (hk : a.Shallow k n) (hl : a.Shallow l n) :
    a.preorderFrom k n = a.preorderFrom l n := by
  induction k generalizing n l with
  | zero => exact hk.elim
  | succ k ih =>
    cases l with
    | zero => exact hl.elim
    | succ l =>
      rw [preorderFrom, preorderFrom]
      exact congrArg (n :: ·) (List.flatMap_congr fun c hc => ih (hk c hc) (hl c hc))

end Arena

namespace Edit

open Arena

variable {a b : Arena} {p c : NodeId}

theorem exec_cleanChild (clean : NodeId → Edit Unit) (n : NodeId) (i : Nat) (a : Arena) :
    (cleanChild clean n i).exec a = match a.child n i with
      | .error e => (.error e, a)
      | .ok c =>
          if a.kind c = .unknown then
            (do
              let _ ← checked (·.deleteChild n i)
              change (·.discard c) : Edit Unit).exec a
          else (clean c).exec a := by
  rw [cleanChild, exec_bind, exec_checked]
  cases a.child n i with
  | error e => rfl
  | ok c =>
    change (do
      if (← get).kind c = .unknown then
        let _ ← checked (·.deleteChild n i)
        change (·.discard c)
      else clean c : Edit Unit).exec a = _
    rw [exec_bind, show (get : Edit Arena).exec a = (.ok a, a) from rfl]
    dsimp only
    split <;> rfl

/-- Children are gone through in the same way when they are cleaned in the same way, in all arenas
with an invariant that is kept meanwhile. -/
theorem exec_cleanChildren_congr {I : Arena → Prop} {f g : NodeId → Edit Unit} {n : NodeId}
    (hkeep : ∀ i, Keeps I (cleanChild f n i))
    (hfg : ∀ b, I b → ∀ c ∈ b.children n, (f c).exec b = (g c).exec b) (i : Nat) (ha : I a) :
    (cleanChildren f n i).exec a = (cleanChildren g n i).exec a := by
  induction i generalizing a with
  | zero => rfl
  | succ i ih =>
    have hchild : (cleanChild f n i).exec a = (cleanChild g n i).exec a := by
      rw [exec_cleanChild, exec_cleanChild]
      cases hc : a.child n i with
      | error e => rfl
      | ok c =>
        dsimp only
        rw [hfg a ha c (List.mem_of_getElem? (child_eq_ok_iff.1 hc))]
    rw [cleanChildren, cleanChildren, exec_bind, exec_bind, ← hchild]
    have hleft : I ((cleanChild f n i).exec a).2 := (hkeep i).state ha
    cases hr : (cleanChild f n i).exec a with
    | mk r b =>
      rw [hr] at hleft
      cases r with
      | error e => rfl
      | ok u => exact ih hleft

/-- The removal of unknown nodes does not depend on a bound that it does not reach. -/
theorem exec_cleanTreeFrom_congr (h : a.Consistent) {n : NodeId} {k l : Nat} (hk : a.Shallow k n)
    (hl : a.Shallow l n) : (cleanTreeFrom k n).exec a = (cleanTreeFrom l n).exec a := by
  induction k generalizing a n l with
  | zero => exact hk.elim
  | succ k ih =>
    cases l with
    | zero => exact hl.elim
    | succ l =>
      refine exec_cleanChildren_congr (I := Deeds false a) (fun i => ?_) (fun b hb c hc => ?_) _
        .refl
      · exact keeps_cleanChild (fun h hb => h.tail (.detach hb))
          (fun h hb => h.tail (.discard hb)) (keeps_deeds_cleanTreeFrom a k) n i
      -- on the way nothing new came below the node or the child
      have hbc : b.Consistent := hb.keeps (fun _ _ => Deed.consistent) h
      have hsame : ∀ {m}, a.Shallow m c → b.Shallow m c :=
        fun hm => hm.mono h hbc fun _ _ => hb.under
      have hc : c ∈ a.children n := (h.mem_children n c).2 (hb.under ((hbc.mem_children n c).1 hc))
      exact ih hbc (hsame (hk c hc)) (hsame (hl c hc))

end Edit

theorem Arena.Forest.walksEnd {a : Arena} (hf : a.Forest) (h : a.Consistent) : a.WalksEnd where
  root n := (hf.ancestors h n).2
  up n := (hf.ancestors h n).1
  down n steps hlt :=
    preorderFrom_congr (hf.shallow h (by omega)) (hf.shallow h (by omega))
  clean n steps hlt :=
    Edit.exec_cleanTreeFrom_congr h (hf.shallow h (by omega)) (hf.shallow h (by omega))

/-! ## Requests -/

/-- The exchange of a child that is granted takes the old child out and puts the new one there. -/
theorem Edit.setChild_eq_ok {a b : Arena} {p c previous : NodeId} {i : Nat}
    (hr : (setChild p i c).exec a = (.ok previous, b)) :
    ∃ d, a.deleteChild p i = .ok (previous, d) ∧ d.insertChild p i c = .ok b := by
  suffices h : Ensures (· = a) (setChild p i c)
      (fun previous b => ∃ d, a.deleteChild p i = .ok (previous, d) ∧ d.insertChild p i c = .ok b)
      fun _ _ => True from h.of_ok rfl hr
  have hdelete : Ensures (· = a) (checked (·.deleteChild p i))
      (fun previous b => a.deleteChild p i = .ok (previous, b)) fun _ _ => True := by
    refine ensures_checked.mono (fun _ h => h) (fun _ _ h => ?_) fun _ _ _ => trivial
    obtain ⟨_, rfl, hb⟩ := h
    exact hb
  refine hdelete.bind fun previous => Ensures.bind ?_ fun _ => Ensures.pure fun _ h => h
  refine Ensures.tryCatch ensures_change fun e => Ensures.bind (Q := fun _ _ => True) ?_ fun _ =>
    Ensures.throw fun _ _ => trivial
  exact ensures_change.mono (fun _ h => h) (fun _ _ _ => trivial) fun _ _ _ => trivial

namespace Arena

variable {a b d : Arena} {p c previous : NodeId} {i : Nat}

/-- Taking a child out leaves the ways up from its parent alone, unless the parent is below it. -/
theorem inside_deleteChild_iff (h : a.Consistent) (hf : a.Forest)
    (hd : a.deleteChild p i = .ok (previous, d)) : d.Inside p c ↔ a.Inside p c := by
  obtain ⟨hget, hd⟩ := deleteChild_eq_ok hd
  have hprevious : a.Under previous p := (h.mem_children p previous).1 (List.mem_of_getElem? hget)
  have hparent := parent_setParent h hd
  constructor
  · exact ReflTransGen.mono (fun x y => (Deed.detach hd).under) p c
  · intro hpc
    induction hpc with
    | refl => exact .refl
    | @tail y z hpy hyz ih =>
      have hne : y ≠ previous := fun he => hf previous (.head' hprevious (he ▸ hpy))
      refine ih.tail ?_
      rw [Under, hparent, if_neg hne]
      exact hyz

theorem forest_setChild_iff (h : a.Consistent) (hf : a.Forest)
    (hd : a.deleteChild p i = .ok (previous, d)) (hb : d.insertChild p i c = .ok b) :
    b.Forest ↔ ¬ a.Inside p c := by
  have hdf : d.Forest := hf.mono fun _ _ => (Deed.deleteChild hd).under
  rw [forest_setParent_iff (h.deleteChild hd) hdf hb, inside_deleteChild_iff h hf hd]

theorem forest_congr (h : b.nodes = a.nodes) : b.Forest ↔ a.Forest := by
  rw [Forest, Forest, under_congr h]

end Arena

namespace Command

open Arena

variable {a b : Arena}

/-- Which node a request puts below which other, if any. -/
def graft? (a : Arena) : Command → Option (NodeId × NodeId)
  | setParent c p _ => p.map (c, ·)
  | appendChild p c | insertChild p _ c | setChild p _ c => some (c, p)
  | replaceWith n m => (a.parent n).map (m, ·)
  | _ => none

/-- A request that puts a node inside itself: below itself or below what stands below it. -/
def Loops (a : Arena) (c : Command) : Prop := ∃ x p, c.graft? a = some (x, p) ∧ a.Inside p x

theorem attaches_of_graft {c : Command} {g : NodeId × NodeId} (h : c.graft? a = some g) :
    c.attaches = true := by
  cases c with
  | setParent x p i =>
    obtain ⟨_, rfl, -⟩ := Option.map_eq_some_iff.1 h
    rfl
  | appendChild p x => rfl
  | insertChild p i x => rfl
  | setChild p i x => rfl
  | replaceWith n m => rfl
  | _ => cases h

theorem loops_iff {c : Command} {x p : NodeId} (h : c.graft? a = some (x, p)) :
    c.Loops a ↔ a.Inside p x := by
  constructor
  · rintro ⟨x', p', h', hin⟩
    cases h.symm.trans h'
    exact hin
  · exact fun hin => ⟨x, p, h, hin⟩

/-- A request that puts no node below another leaves a forest. -/
theorem forest_of_not_attaches (c : Command) (hc : c.attaches = false) (hf : a.Forest) :
    (c.run.exec a).2.Forest := by
  by_cases ht : c.touchesLocks = false
  · exact hf.mono fun _ _ => (hc ▸ c.deeds ht a).under
  · cases c with
    | lock n => exact hf
    | unlock n =>
      refine (Edit.keeps_change fun a b hf hb => ?_).state hf
      exact (forest_congr (nodes_unlock hb)).2 hf
    | replaceWith n m => cases hc
    | _ => exact absurd rfl ht

/-- What a request that puts a node below another leaves when it is granted. -/
theorem forest_of_attaches (c : Command) (hc : c.attaches = true) (h : a.Consistent)
    (hf : a.Forest) (hr : c.run.exec a = (.ok (), b)) : b.Forest ↔ ¬ c.Loops a := by
  cases c with
  | setParent x p i =>
    obtain ⟨_, rfl, hb⟩ := Edit.ensures_change.of_ok rfl hr
    obtain ⟨p, rfl⟩ := Option.isSome_iff_exists.1 hc
    rw [loops_iff (x := x) (p := p) rfl]
    exact forest_setParent_iff h hf hb
  | appendChild p x =>
    obtain ⟨_, rfl, hb⟩ := Edit.ensures_change.of_ok rfl hr
    rw [loops_iff (x := x) (p := p) rfl]
    exact forest_setParent_iff h hf hb
  | insertChild p i x =>
    obtain ⟨_, rfl, hb⟩ := Edit.ensures_change.of_ok rfl hr
    rw [loops_iff (x := x) (p := p) rfl]
    exact forest_setParent_iff h hf hb
  | setChild p i x =>
    change (Edit.setChild p i x >>= fun _ => pure ()).exec a = _ at hr
    rw [Edit.exec_bind] at hr
    split at hr
    · next previous d hs =>
      cases hr
      obtain ⟨d, hd, hb⟩ := Edit.setChild_eq_ok hs
      rw [loops_iff (x := x) (p := p) rfl]
      exact forest_setChild_iff h hf hd hb
    · cases hr
  | replaceWith n m =>
    change (Edit.replaceWith n m).exec a = _ at hr
    rw [Edit.exec_replaceWith] at hr
    split at hr
    · cases hr
    · next p hp =>
      split at hr
      · cases hr
      · next i _ =>
        -- locks are set aside, which no way up goes along
        cases hs : (Edit.setChild p i m).exec (a.setLockCount p 0) with
        | mk r d =>
          rw [hs] at hr
          cases r with
          | error e => cases hr
          | ok previous =>
            cases hr
            obtain ⟨d', hd, hb⟩ := Edit.setChild_eq_ok hs
            rw [loops_iff (x := m) (p := p) (by rw [graft?, hp]; rfl),
              forest_congr (b := d.setLockCount p (a.lockCount p)) (a := d) rfl,
              forest_setChild_iff (h.setLockCount p 0) ((forest_congr rfl).2 hf) hd hb]
            rfl
  | _ => cases hc

theorem isSweep_eq_false {c : Command} (hc : c.attaches = true) : c.isSweep = false := by
  cases c with
  | cleanTree n => cases hc
  | setAttributeTree n t v => cases hc
  | _ => rfl

/-- **A request leaves a forest unless it puts a node inside itself and is granted.** -/
theorem forest_exec_iff (c : Command) (h : a.Consistent) (hf : a.Forest) :
    (c.run.exec a).2.Forest ↔ ((c.run.exec a).1 = .ok () → ¬ c.Loops a) := by
  cases hc : c.attaches with
  | false =>
    refine iff_of_true (c.forest_of_not_attaches hc hf) ?_
    rintro - ⟨x, p, hg, -⟩
    rw [attaches_of_graft hg] at hc
    cases hc
  | true =>
    cases hr : c.run.exec a with
    | mk r b =>
      cases r with
      | ok u =>
        rw [forest_of_attaches c hc h hf hr]
        exact ⟨fun hl _ => hl, fun hl => hl rfl⟩
      | error e =>
        obtain rfl : b = a := (c.leaves h (isSweep_eq_false hc)).of_error rfl hr
        exact iff_of_true hf nofun

end Command

/-! ## Histories -/

theorem after_append (past : List Command) (c : Command) :
    after (past ++ [c]) = (c.run.exec (after past)).2 := by
  rw [after, List.foldl_append]
  rfl

/-- **A history keeps to forests, and all walks end, as long as no request that puts a node inside
itself is granted.** -/
theorem forest_iff_no_loops (history : List Command) :
    (∀ past, past <+: history → (after past).Forest ∧ (after past).WalksEnd) ↔
      ∀ past c, past ++ [c] <+: history →
        (c.run.exec (after past)).1 = .ok () → ¬ c.Loops (after past) := by
  have hconsistent := after_invariant Arena.consistent_empty Command.keeps_consistent
  constructor
  · intro h past c hpast
    have hforest := (h past ((List.prefix_append past [c]).trans hpast)).1
    refine (c.forest_exec_iff (hconsistent past) hforest).1 ?_
    rw [← after_append]
    exact (h _ hpast).1
  · intro h past hpast
    suffices hforest : (after past).Forest from ⟨hforest, hforest.walksEnd (hconsistent past)⟩
    induction past using List.reverseRecOn with
    | nil => exact Arena.forest_empty
    | append_singleton past c ih =>
      rw [after_append]
      refine (c.forest_exec_iff (hconsistent past) ?_).2 (h past c hpast)
      exact ih ((List.prefix_append past [c]).trans hpast)

/-- Two lists, the one put below the other and this one below the first. -/
def loopingHistory : List Command :=
  [.create .directiveList {}, .create .directiveList {}, .appendChild ⟨0⟩ ⟨1⟩,
   .appendChild ⟨1⟩ ⟨0⟩]

/-- Nothing refuses the request that closes a loop, and a walk along the parents then never comes to
a node without one. -/
theorem looping_history : TransGen (after loopingHistory).Under ⟨0⟩ ⟨0⟩ ∧
    ∀ steps, ((after loopingHistory).ancestorsFrom steps ⟨0⟩).length = steps := by
  have hfirst : (after loopingHistory).parent ⟨0⟩ = some ⟨1⟩ := by decide
  have hsecond : (after loopingHistory).parent ⟨1⟩ = some ⟨0⟩ := by decide
  refine ⟨.tail (.single hfirst) hsecond, fun steps => ?_⟩
  suffices h : ∀ n, n = ⟨0⟩ ∨ n = ⟨1⟩ →
      ((after loopingHistory).ancestorsFrom steps n).length = steps from h ⟨0⟩ (.inl rfl)
  induction steps with
  | zero => exact fun _ _ => rfl
  | succ steps ih =>
    rintro n (rfl | rfl)
    · rw [Arena.ancestorsFrom, hfirst]
      exact congrArg (· + 1) (ih ⟨1⟩ (.inr rfl))
    · rw [Arena.ancestorsFrom, hsecond]
      exact congrArg (· + 1) (ih ⟨0⟩ (.inl rfl))

end SymbolTree
