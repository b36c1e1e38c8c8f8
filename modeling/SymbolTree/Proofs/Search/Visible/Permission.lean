import Mathlib.Data.List.Basic
import Mathlib.Data.List.Find
import SymbolTree.Proofs.Arena.Forest
import SymbolTree.Proofs.Search.Visible.Retains

/-!
# Who may see a declaration

The rules for private, protected and internal declarations, stated on the tree alone
(`Arena.Permits`), and the declarations that they are for (`Arena.Guarded`).  A search that has
found a declaration knows its attributes, and the place that asked may see it (`Search.Found`).

All of this stays true while searches go on (`Search.Retains.found`).  The nodes above a node may
become more when nodes are added, but only where parents run in a circle, and then the nearest one
of a kind is still the same.
-/

set_option autoImplicit false
namespace SymbolTree

namespace Arena

/-- A class names another one among those it inherits from. -/
def NamesSuper (a : Arena) (x y : NodeId) : Prop := ∃ name ∈ a.superNames x, a.inst name = some y

/-- A class is another one or inherits from it, be it through others. -/
def DerivedFrom (a : Arena) : NodeId → NodeId → Prop := Relation.ReflTransGen a.NamesSuper

/-- A member of a class is seen within that class, and a member of a package within that package. -/
def SeesPrivate (a : Arena) (id n : NodeId) : Prop :=
  ∃ o, a.memberOwner n = some o ∧
    ((a.kind o).isClass = true ∧ a.classOfMember id = some o ∨
      a.kind o = .package ∧ a.findAncestor id [.package] = some o)

/-- A member of a class is seen within the classes that inherit from it. -/
def SeesProtected (a : Arena) (id n : NodeId) : Prop :=
  ∃ o x, a.memberOwner n = some o ∧ (a.kind o).isClass = true ∧ a.classOfMember id = some x ∧
    a.DerivedFrom x o

/-- An internal declaration is seen within packages. -/
def SeesInternal (a : Arena) (id : NodeId) : Prop := ∃ p, a.findAncestor id [.package] = some p

/-- A place may see a declaration with the given attributes. -/
structure Permits (a : Arena) (id n : NodeId) (s : AttributeSet) : Prop where
  /-- The rule for private declarations. -/
  ofPrivate : s.contains .private_ = true → a.SeesPrivate id n
  /-- The rule for protected declarations. -/
  ofProtected : s.contains .protected_ = true → a.SeesProtected id n
  /-- The rule for internal declarations. -/
  ofInternal : s.contains .internal = true → a.SeesInternal id

/-- The declarations that not every place may see: functions, classes, interfaces, and the variables
of a `var`. -/
def Guarded (a : Arena) (n : NodeId) : Prop :=
  a.kind n = .function ∨ (a.kind n).isClass = true ∨
    a.kind n = .variable_ ∧ ∃ p, a.parent n = some p ∧ a.kind p = .var

/-! ## Nodes above a node -/

theorem lt_size_of_findAncestor {a : Arena} (ha : a.Consistent) {n o : NodeId} {ks : List Kind}
    (h : a.findAncestor n ks = some o) : o.index < a.size :=
  lt_size_of_mem_ancestorsFrom ha (List.mem_of_find?_eq_some h)

theorem lt_size_of_memberOwner {a : Arena} (ha : a.Consistent) {n o : NodeId}
    (h : a.memberOwner n = some o) : o.index < a.size := by
  rw [memberOwner] at h
  split at h
  · next m hm =>
    split at h
    · cases h
      exact lt_size_of_findAncestor ha hm
    · cases h
  · cases h

theorem lt_size_of_live {a : Arena} {o : Option NodeId} {n : NodeId} (h : a.live o = some n) :
    n.index < a.size :=
  lt_size_of_isAlive (Option.filter_eq_some_iff.1 h).2

namespace Grows

variable {a b : Arena} {n o : NodeId}

theorem ancestorsFrom_prefix (h : a.Grows b) {fuel fuel' : Nat} (hle : fuel ≤ fuel')
    (n : NodeId) : a.ancestorsFrom fuel n <+: b.ancestorsFrom fuel' n := by
  induction fuel generalizing fuel' n with
  | zero => exact List.nil_prefix
  | succ fuel ih =>
    obtain ⟨k, rfl⟩ := Nat.exists_eq_add_of_le' (Nat.lt_of_lt_of_le (Nat.zero_lt_succ fuel) hle)
    rw [ancestorsFrom]
    cases hp : a.parent n with
    | none => exact List.nil_prefix
    | some p =>
      have hp' : b.parent n = some p := by rw [h.parent (lt_size_of_parent hp), hp]
      rw [ancestorsFrom, hp']
      exact List.prefix_cons_inj p |>.2 (ih (Nat.le_of_succ_le_succ hle) p)

/-- The first node above that is of one of some kinds is the same. -/
theorem find?_ancestors (h : a.Grows b) (ha : a.Consistent) {ks : List Kind}
    (ho : (a.ancestors n).find? (fun m => ks.contains (a.kind m)) = some o) :
    (b.ancestors n).find? (fun m => ks.contains (b.kind m)) = some o := by
  refine (h.ancestorsFrom_prefix h.size_le n).find?_eq_some ?_
  rw [← ho]
  refine List.find?_congr fun m hm => ?_
  rw [h.kind (lt_size_of_mem_ancestorsFrom ha hm)]

theorem findAncestor (h : a.Grows b) (ha : a.Consistent) {ks : List Kind}
    (ho : a.findAncestor n ks = some o) : b.findAncestor n ks = some o :=
  h.find?_ancestors ha ho

theorem memberOwner (h : a.Grows b) (ha : a.Consistent) (ho : a.memberOwner n = some o) :
    b.memberOwner n = some o := by
  rw [Arena.memberOwner] at ho
  split at ho
  · next m hm =>
    rw [Arena.memberOwner, h.findAncestor ha hm]
    dsimp only
    rw [h.kind (lt_size_of_findAncestor ha hm)]
    exact ho
  · cases ho

theorem classOfMember (h : a.Grows b) (ha : a.Consistent) (ho : a.classOfMember n = some o) :
    b.classOfMember n = some o := by
  rw [Arena.classOfMember] at ho
  split at ho
  · next m hm =>
    -- a node that is not there has no nodes above it
    have hn : n.index < a.size := by
      by_contra hn
      have habsent := node_of_size_le (Nat.le_of_not_lt hn)
      have hnone : ∀ fuel, a.ancestorsFrom fuel n = [] := by
        intro fuel
        cases fuel with
        | zero => rfl
        | succ fuel => rw [ancestorsFrom, Arena.parent, habsent]; rfl
      rw [ancestors, hnone, List.find?_cons, Arena.kind, habsent] at hm
      cases hm
    have hm' : (n :: b.ancestors n).find? (fun m =>
        [Kind.class_, .interface, .package, .program, .root].contains (b.kind m)) = some m := by
      rw [List.find?_cons] at hm ⊢
      rw [h.kind hn]
      split at hm
      · exact hm
      · exact h.find?_ancestors ha hm
    have hlt : m.index < a.size := by
      rcases List.mem_cons.1 (List.mem_of_find?_eq_some hm) with rfl | hmem
      · exact hn
      · exact lt_size_of_mem_ancestorsFrom ha hmem
    rw [Arena.classOfMember, hm']
    dsimp only
    rw [h.kind hlt]
    exact ho
  · cases ho

theorem superNames (h : a.Grows b) (ha : a.Consistent) (hn : n.index < a.size) :
    b.superNames n = a.superNames n := by
  rw [Arena.superNames, Arena.superNames, h.children hn]
  refine List.flatMap_congr fun clause hclause => ?_
  have hlt := ha.child_lt n clause hclause
  rw [h.kind hlt, h.children hlt]
  split
  · split
    · next name hname =>
      have hname' : name.index < a.size :=
        ha.child_lt clause name (by rw [hname]; exact List.mem_singleton_self name)
      rw [h.kind hname', h.children hname']
    · rfl
  · rfl

end Grows

end Arena

namespace Search

/-- The attributes of a declaration are known, and the place may see it. -/
def Seen (c : Context) (id n : NodeId) : Prop :=
  ∃ s, c.attributeCache.lookup n = some s ∧ c.arena.Permits id n s

/-- A declaration that is there, and that the place may see. -/
structure Found (c : Context) (id n : NodeId) : Prop where
  /-- The declaration is there. -/
  lt_size : n.index < c.arena.size
  /-- The place may see it. -/
  seen : c.arena.Guarded n → Seen c id n

namespace Retains

variable {c d : Context} {id n : NodeId}

theorem lt (h : Retains c d) (hn : n.index < c.arena.size) : n.index < d.arena.size := h.grows.lt hn

theorem mem_superNames (h : Retains c d) {x name : NodeId} (hname : name ∈ c.arena.superNames x) :
    name ∈ d.arena.superNames x := by
  obtain ⟨clause, hclause, -⟩ := List.mem_flatMap.1 hname
  rw [h.grows.superNames h.before.consistent (Arena.lt_size_of_mem_children hclause)]
  exact hname

theorem derivedFrom (h : Retains c d) {x y : NodeId} (hxy : c.arena.DerivedFrom x y) :
    d.arena.DerivedFrom x y := by
  refine Relation.ReflTransGen.mono (fun u v huv => ?_) x y hxy
  obtain ⟨name, hname, hinst⟩ := huv
  exact ⟨name, h.mem_superNames hname, h.inst name v hinst⟩

theorem seesPrivate (h : Retains c d) (hs : c.arena.SeesPrivate id n) :
    d.arena.SeesPrivate id n := by
  have hc := h.before.consistent
  obtain ⟨o, ho, hsees⟩ := hs
  refine ⟨o, h.grows.memberOwner hc ho, ?_⟩
  rw [h.grows.kind (Arena.lt_size_of_memberOwner hc ho)]
  exact hsees.imp (And.imp_right (h.grows.classOfMember hc))
    (And.imp_right (h.grows.findAncestor hc))

theorem seesProtected (h : Retains c d) (hs : c.arena.SeesProtected id n) :
    d.arena.SeesProtected id n := by
  have hc := h.before.consistent
  obtain ⟨o, x, ho, hk, hx, hderived⟩ := hs
  refine ⟨o, x, h.grows.memberOwner hc ho, ?_, h.grows.classOfMember hc hx, h.derivedFrom hderived⟩
  rw [h.grows.kind (Arena.lt_size_of_memberOwner hc ho)]
  exact hk

theorem seesInternal (h : Retains c d) (hs : c.arena.SeesInternal id) :
    d.arena.SeesInternal id := by
  obtain ⟨p, hp⟩ := hs
  exact ⟨p, h.grows.findAncestor h.before.consistent hp⟩

theorem permits (h : Retains c d) {s : AttributeSet} (hs : c.arena.Permits id n s) :
    d.arena.Permits id n s :=
  ⟨fun hp => h.seesPrivate (hs.ofPrivate hp), fun hp => h.seesProtected (hs.ofProtected hp),
    fun hp => h.seesInternal (hs.ofInternal hp)⟩

theorem seen (h : Retains c d) (hs : Seen c id n) : Seen d id n := by
  obtain ⟨s, hlookup, hpermits⟩ := hs
  exact ⟨s, h.lookup n s hlookup, h.permits hpermits⟩

theorem guarded (h : Retains c d) (hn : n.index < c.arena.size) (hg : d.arena.Guarded n) :
    c.arena.Guarded n := by
  rw [Arena.Guarded, h.grows.kind hn, h.grows.parent hn] at hg
  refine hg.imp_right (.imp_right (.imp_right ?_))
  rintro ⟨p, hp, hk⟩
  exact ⟨p, hp, (h.grows.kind (h.before.consistent.parent_lt n p hp)).symm.trans hk⟩

/-- What was found stays found. -/
theorem found (h : Retains c d) (hf : Found c id n) : Found d id n :=
  ⟨h.lt hf.lt_size, fun hg => h.seen (hf.seen (h.guarded hf.lt_size hg))⟩

end Retains

end Search

end SymbolTree
