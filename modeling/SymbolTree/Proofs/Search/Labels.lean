import SymbolTree.Proofs.Arena.Labels
import SymbolTree.Proofs.Search.Imported.Declares

/-!
# Labels in the order of the source

The labels of a tree are registered by a walk that turns back at declarations, at expressions that
do something and at labels.  What it meets are the labels in sight (`Arena.seenLabels`): those of
the tree in the order of the source, without what something on the way down to them hides.

Each label that is met takes its name, unless there is a label of the name already, which is
reported.  So of several labels of one name the first in the source is registered, and a label that
was there before comes before them all.

## Main statements

* `Arena.metLabels_eq` — the walk meets the labels in sight, in the order of the source.
* `Registering.findLabel_foldl`, `Registering.diagnostics_foldl` — what is found and what was
  reported after labels were registered one after the other.
* `Search.exec_findLabelsFrom` — the walk registers what it meets, and does nothing else.
* `Search.findLabels_registers` — what is found after a walk, and what it reports.
-/

set_option autoImplicit false
namespace SymbolTree

open Relation (ReflTransGen TransGen)

/-- Kinds below which labels are in sight: those that are searched for labels and are none. -/
def Kind.showsLabels (k : Kind) : Bool := k ≠ .label && !k.hidesLabels

namespace Arena

variable {a b : Arena} {root n p c l x y : NodeId} {j k fuel : Nat}

/-! ## The tree below a node -/

/-- The nodes above a node up to `root`, the nearest first. -/
def between (a : Arena) (root n : NodeId) : List NodeId :=
  (a.ancestors n).take ((n :: a.ancestors n).idxOf root)

theorem take_ancestorsFrom (h : k ≤ fuel) :
    (a.ancestorsFrom fuel n).take k = a.ancestorsFrom k n := by
  induction k generalizing fuel n with
  | zero => rfl
  | succ k ih =>
    obtain ⟨fuel, rfl⟩ : ∃ f, fuel = f + 1 := ⟨fuel - 1, by omega⟩
    rw [ancestorsFrom, ancestorsFrom]
    cases a.parent n with
    | none => rfl
    | some p => exact congrArg (p :: ·) (ih (Nat.le_of_succ_le_succ h))

theorem inside_of_mem_preorderFrom (h : a.Consistent) (hx : x ∈ a.preorderFrom fuel n) :
    a.Inside x n := by
  induction fuel generalizing n with
  | zero => cases hx
  | succ fuel ih =>
    rw [preorderFrom, List.mem_cons, List.mem_flatMap] at hx
    rcases hx with rfl | ⟨c, hc, hx⟩
    · exact .refl
    · exact (ih hx).tail ((h.mem_children n c).1 hc)

theorem mem_preorderFrom_of_inside (h : a.Consistent) (hfuel : a.Shallow fuel n)
    (hx : a.Inside x n) : x ∈ a.preorderFrom fuel n := by
  induction fuel generalizing n with
  | zero => exact hfuel.elim
  | succ fuel ih =>
    rw [preorderFrom, List.mem_cons, List.mem_flatMap]
    rcases ReflTransGen.cases_tail hx with rfl | ⟨c, hxc, hc⟩
    · exact .inl rfl
    · have hmem := (h.mem_children n c).2 hc
      exact .inr ⟨c, hmem, ih (hfuel c hmem) hxc⟩

/-- What is inside a node hangs at its level or lower, and what is below it hangs lower. -/
theorem Hangs.of_below (hy : a.Hangs root k y) (hxy : TransGen a.Under x y) :
    ∃ j, k < j ∧ a.Hangs root j x := by
  induction hxy using TransGen.head_induction_on with
  | single hxy => exact ⟨k + 1, Nat.lt_succ_self k, .child hxy hy⟩
  | head hxz _ ih =>
    obtain ⟨j, hj, hz⟩ := ih
    exact ⟨j + 1, Nat.lt_succ_of_lt hj, .child hxz hz⟩

section Tree

variable (h : a.Consistent) (hroot : ¬ TransGen a.Under root root)

include hroot

/-- In a tree no node stands below itself. -/
theorem Hangs.not_below (hn : a.Hangs root k n) : ¬ TransGen a.Under n n := fun hnn => by
  obtain ⟨j, hj, hn'⟩ := hn.of_below hnn
  exact Nat.ne_of_lt hj (hn.unique hroot hn')

theorem Hangs.between (hn : a.Hangs root k n) (hsize : root.index < a.size) :
    a.between root n = a.ancestorsFrom k n := by
  have hle := Nat.le_of_lt (hn.lt_size hroot hsize)
  rw [Arena.between, Arena.ancestors, hn.idxOf hroot hle, take_ancestorsFrom hle]

theorem Hangs.between_child (hp : a.Hangs root k p) (hn : a.Under n p)
    (hsize : root.index < a.size) : a.between root n = p :: a.between root p := by
  rw [(Hangs.child hn hp).between hroot hsize, hp.between hroot hsize, ancestorsFrom,
    show a.parent n = some p from hn]

/-- The nodes between are those above the one and inside the other. -/
theorem Hangs.mem_between_iff (hn : a.Hangs root k n) (hsize : root.index < a.size) :
    x ∈ a.between root n ↔ TransGen a.Under n x ∧ a.Inside x root := by
  induction hn with
  | root =>
    rw [(Hangs.root : a.Hangs root 0 root).between hroot hsize]
    exact iff_of_false List.not_mem_nil fun hx => hroot (hx.1.trans_left hx.2)
  | @child k n p hn hp ih =>
    rw [hp.between_child hroot hn hsize, List.mem_cons, ih]
    constructor
    · rintro (rfl | ⟨hx, hin⟩)
      · exact ⟨.single hn, hp.inside⟩
      · exact ⟨.head hn hx, hin⟩
    · rintro ⟨hx, hin⟩
      obtain ⟨q, hq, hx⟩ := TransGen.head'_iff.1 hx
      obtain rfl := Option.some.inj (hn.symm.trans hq)
      rcases ReflTransGen.cases_head hx with heq | ⟨r, hr, hx⟩
      · exact .inl heq.symm
      · exact .inr ⟨.head' hr hx, hin⟩

include h

/-- A listing of a tree lists no node twice. -/
theorem nodup_preorderFrom (hn : a.Hangs root k n) (fuel : Nat) :
    (a.preorderFrom fuel n).Nodup := by
  induction fuel generalizing n k with
  | zero => exact List.nodup_nil
  | succ fuel ih =>
    have hunder : ∀ c ∈ a.children n, a.Under c n := fun c => (h.mem_children n c).1
    have hbelow := hn.not_below hroot
    rw [preorderFrom, List.nodup_cons, List.nodup_flatMap]
    refine ⟨fun hmem => ?_, fun c hc => ih (.child (hunder c hc) hn), ?_⟩
    · obtain ⟨c, hc, hmem⟩ := List.mem_flatMap.1 hmem
      exact hbelow (.tail' (inside_of_mem_preorderFrom h hmem) (hunder c hc))
    · -- two children of one node are not inside each other
      have hsame : ∀ c ∈ a.children n, ∀ d ∈ a.children n, a.Inside c d → c = d := by
        intro c hc d hd hcd
        rcases ReflTransGen.cases_head hcd with heq | ⟨m, hm, hmd⟩
        · exact heq
        · obtain rfl := Option.some.inj ((hunder c hc).symm.trans hm)
          exact absurd (.tail' hmd (hunder d hd)) hbelow
      refine (h.nodup n).imp_of_mem fun {c d} hc hd hne x hxc hxd => ?_
      have hunique : Relator.RightUnique a.Under := fun x y z hy hz =>
        Option.some.inj (hy.symm.trans hz)
      rcases ReflTransGen.total_of_right_unique hunique (inside_of_mem_preorderFrom h hxc)
        (inside_of_mem_preorderFrom h hxd) with hcd | hdc
      · exact hne (hsame c hc d hd hcd)
      · exact hne (hsame d hd c hc hdc).symm

/-- A tree is not deeper than the arena has nodes. -/
theorem Hangs.shallow (hn : a.Hangs root k n) (hsize : root.index < a.size)
    (hfuel : a.size < fuel + k) : a.Shallow fuel n := by
  induction fuel generalizing n k with
  | zero =>
    have := hn.lt_size hroot hsize
    omega
  | succ fuel ih => exact fun c hc => ih (.child ((h.mem_children n c).1 hc) hn) (by omega)

end Tree

/-! ## Labels in sight -/

/-- A label that nothing on the way down from `root` hides: neither a node of a kind that is not
searched for labels, nor another label. -/
def isSeenLabel (a : Arena) (root l : NodeId) : Bool :=
  a.kind l = .label && (a.between root l).all fun x => (a.kind x).showsLabels

/-- The labels in sight from a node, in the order of the source. -/
def seenLabels (a : Arena) (root : NodeId) : List NodeId :=
  (a.preorder root).filter (a.isSeenLabel root)

/-- The labels that are met by a walk which turns back at what hides labels and at labels, down to
`fuel` levels. -/
def metLabels (a : Arena) : Nat → NodeId → List NodeId
  | 0, _ => []
  | fuel + 1, n =>
      if a.kind n = .label then [n]
      else if (a.kind n).hidesLabels then []
      else (a.children n).flatMap (a.metLabels fuel)

section Tree

variable (h : a.Consistent) (hroot : ¬ TransGen a.Under root root) (hsize : root.index < a.size)

include h hroot hsize

/-- Below what hides labels none is in sight. -/
theorem Hangs.hidden (hn : a.Hangs root k n) (hk : (a.kind n).showsLabels = false) :
    (a.children n).flatMap (fun c => (a.preorderFrom fuel c).filter (a.isSeenLabel root)) = [] := by
  refine List.flatMap_eq_nil_iff.2 fun c hc => List.filter_eq_nil_iff.2 fun x hx hseen => ?_
  have hxc := inside_of_mem_preorderFrom h hx
  have hcn : a.Under c n := (h.mem_children n c).1 hc
  obtain ⟨j, hj⟩ := exists_hangs (hxc.trans (.head hcn hn.inside))
  have hmem : n ∈ a.between root x := (hj.mem_between_iff hroot hsize).2 ⟨.tail' hxc hcn, hn.inside⟩
  rw [isSeenLabel, Bool.and_eq_true, List.all_eq_true] at hseen
  have hshows := hseen.2 n hmem
  rw [hk] at hshows
  cases hshows

/-- **The walk meets the labels in sight**, in the order of the source. -/
theorem metLabels_eq (hn : a.Hangs root k n)
    (hway : ((a.between root n).all fun x => (a.kind x).showsLabels) = true) (fuel : Nat) :
    a.metLabels fuel n = (a.preorderFrom fuel n).filter (a.isSeenLabel root) := by
  induction fuel generalizing n k with
  | zero => rfl
  | succ fuel ih =>
    rw [metLabels, preorderFrom, List.filter_cons, List.filter_flatMap, isSeenLabel, hway,
      Bool.and_true]
    by_cases hlabel : a.kind n = .label
    · have hk : (a.kind n).showsLabels = false := by rw [hlabel]; rfl
      rw [if_pos hlabel, hn.hidden h hroot hsize hk, if_pos (decide_eq_true hlabel)]
    rw [if_neg hlabel, if_neg (decide_eq_true_iff.not.2 hlabel)]
    by_cases hhides : (a.kind n).hidesLabels = true
    · have hk : (a.kind n).showsLabels = false := by
        rw [Kind.showsLabels, hhides]
        exact Bool.and_false _
      rw [if_pos hhides, hn.hidden h hroot hsize hk]
    · rw [if_neg hhides]
      refine List.flatMap_congr fun c hc => ?_
      have hcn : a.Under c n := (h.mem_children n c).1 hc
      refine ih (.child hcn hn) ?_
      rw [hn.between_child hroot hcn hsize, List.all_cons, hway, Bool.and_true, Kind.showsLabels]
      simp [hlabel, hhides]

theorem seenLabels_eq : a.seenLabels root = a.metLabels (a.size + 1) root := by
  have hway : a.between root root = [] := by
    rw [(Hangs.root : a.Hangs root 0 root).between hroot hsize]
    rfl
  rw [seenLabels, preorder, metLabels_eq h hroot hsize .root (by rw [hway]; rfl)]

/-- A label is in sight if on the way down to it stands neither a label nor a node of a kind that
hides labels. -/
theorem mem_seenLabels_iff : l ∈ a.seenLabels root ↔ a.Inside l root ∧ a.kind l = .label ∧
    ∀ x, TransGen a.Under l x → a.Inside x root →
      a.kind x ≠ .label ∧ (a.kind x).hidesLabels = false := by
  have hshallow := (Hangs.root : a.Hangs root 0 root).shallow h hroot hsize
    (Nat.lt_succ_self a.size)
  have hmem : l ∈ a.preorder root ↔ a.Inside l root :=
    ⟨inside_of_mem_preorderFrom h, mem_preorderFrom_of_inside h hshallow⟩
  rw [seenLabels, List.mem_filter, hmem]
  refine and_congr_right fun hin => ?_
  obtain ⟨j, hj⟩ := exists_hangs hin
  simp only [isSeenLabel, Kind.showsLabels, Bool.and_eq_true, decide_eq_true_eq, List.all_eq_true,
    hj.mem_between_iff hroot hsize, Bool.not_eq_true', and_imp, ne_eq]

omit hsize in
theorem nodup_seenLabels : (a.seenLabels root).Nodup :=
  (nodup_preorderFrom h hroot .root (a.size + 1)).filter _

end Tree

end Arena

/-! ## Registering one label after the other -/

/-- What is reported of a label whose name is taken. -/
def duplicateText (name : String) : String :=
  "label '" ++ name ++ "' defined twice in the same program, package or function."

theorem isEmpty_duplicateText (name : String) : (duplicateText name).isEmpty = false := by
  rw [Bool.eq_false_iff, ne_eq, String.isEmpty_iff, duplicateText]
  simp

/-- A label is registered under its name, or reported when there is a label of the name already. -/
def Context.register (owner : NodeId) (c : Context) (l : NodeId) : Context :=
  if (c.arena.findLabel owner (c.arena.name l)).isSome then
    { c with
      diagnostics := c.diagnostics.error .duplicates (c.arena.position owner)
        (duplicateText (c.arena.name l)) }
  else
    { c with
      arena := c.arena.update owner fun d =>
        { d with labels := d.labels ++ [(c.arena.name l, l)] } }

/-- What is registered while a node is locked is what would be registered otherwise. -/
theorem Context.foldl_register_lock (owner n : NodeId) (ls : List NodeId) (c : Context) :
    ls.foldl (register owner) { c with arena := c.arena.lock n } =
      { ls.foldl (register owner) c with
        arena := (ls.foldl (register owner) c).arena.lock n } := by
  refine List.foldl_hom (fun c : Context => { c with arena := c.arena.lock n }) fun c l => ?_
  by_cases hname : (c.arena.findLabel owner (c.arena.name l)).isSome = true
  · have hlocked : ((c.arena.lock n).findLabel owner ((c.arena.lock n).name l)).isSome = true :=
      hname
    rw [register, register, if_pos hname, if_pos hlocked]
    rfl
  · have hlocked : ¬ ((c.arena.lock n).findLabel owner ((c.arena.lock n).name l)).isSome = true :=
      hname
    rw [register, register, if_neg hname, if_neg hlocked]
    rfl

/-- A label with a name, which was not discarded. -/
structure Arena.Registrable (a : Arena) (l : NodeId) : Prop where
  /-- It is a label. -/
  label : a.kind l = .label
  /-- It was not discarded. -/
  alive : a.isAlive l = true
  /-- It has a name. -/
  named : a.name l ≠ ""

/-- The arena is as it was, but for labels registered with a node that may have them.  Of these none
was discarded. -/
structure Registering (a : Arena) (owner : NodeId) (c : Context) : Prop where
  /-- A node differs in its labels at most. -/
  node : ∀ n, { c.arena.node n with labels := (a.node n).labels } = a.node n
  /-- Labels may be registered with the node. -/
  owns : Arena.ownsLabels (a.kind owner) = true
  /-- Labels that are registered were not discarded. -/
  alive : ∀ l ∈ (c.arena.node owner).labels, a.isAlive l.2 = true

/-- The label is the first of its name, and no label had the name before. -/
def Arena.takesName (a : Arena) (owner : NodeId) (ls : List NodeId) (l : NodeId) : Bool :=
  (a.findLabel owner (a.name l)).isNone && ls.find? (fun m => a.name m = a.name l) = some l

namespace Arena

variable {a : Arena} {owner l : NodeId} {ls : List NodeId}

/-- What comes behind a label does not count. -/
theorem takesName_append (ms : List NodeId) (hl : l ∈ ls) :
    a.takesName owner (ls ++ ms) l = a.takesName owner ls l := by
  obtain ⟨k, hk⟩ : ∃ k, ls.find? (fun m => a.name m = a.name l) = some k :=
    Option.isSome_iff_exists.1 (List.find?_isSome.2 ⟨l, hl, decide_eq_true rfl⟩)
  rw [takesName, takesName, List.find?_append, hk, Option.some_or]

/-- The last label takes its name if neither a label before it nor one of old has it. -/
theorem takesName_concat (hl : l ∉ ls) : a.takesName owner (ls ++ [l]) l =
    !((a.findLabel owner (a.name l)).or (ls.find? fun m => a.name m = a.name l)).isSome := by
  rw [takesName, List.find?_append]
  cases a.findLabel owner (a.name l) with
  | some k => rfl
  | none =>
    cases hk : ls.find? fun m => a.name m = a.name l with
    | none => simp
    | some k =>
      have hne : k ≠ l := fun heq => hl (heq ▸ List.mem_of_find?_eq_some hk)
      simp [hne]

end Arena

namespace Registering

variable {a : Arena} {owner n l : NodeId} {c : Context} {s : String}

theorem kind (h : Registering a owner c) (n : NodeId) : c.arena.kind n = a.kind n :=
  (congrArg Node.kind (h.node n) :)

theorem children (h : Registering a owner c) (n : NodeId) : c.arena.children n = a.children n :=
  (congrArg Node.children (h.node n) :)

theorem text (h : Registering a owner c) (n : NodeId) : (c.arena.node n).text = (a.node n).text :=
  (congrArg Node.text (h.node n) :)

theorem isAlive (h : Registering a owner c) (n : NodeId) : c.arena.isAlive n = a.isAlive n :=
  (congrArg Node.alive (h.node n) :)

theorem position (h : Registering a owner c) (n : NodeId) : c.arena.position n = a.position n :=
  (congrArg Node.position (h.node n) :)

theorem name (h : Registering a owner c) (n : NodeId) : c.arena.name n = a.name n := by
  rw [Arena.name, Arena.name, h.kind, h.text]

theorem lock (h : Registering a owner c) (n : NodeId) :
    Registering a owner { c with arena := c.arena.lock n } :=
  ⟨h.node, h.owns, h.alive⟩

theorem findLabel (h : Registering a owner c) (s : String) :
    c.arena.findLabel owner s = (c.arena.node owner).labels.lookup s :=
  Arena.findLabel_eq_lookup (fun l hl => (h.isAlive l.2).trans (h.alive l hl)) s

theorem node_update_owner (h : Registering a owner c) (f : Node → Node) :
    (c.arena.update owner f).node owner = f (c.arena.node owner) := by
  have hlt : owner.index < c.arena.size := Arena.lt_size_of_kind_ne fun hk => by
    have howns := h.owns
    rw [← h.kind, hk] at howns
    cases howns
  rw [Arena.node_update, if_pos ⟨rfl, hlt⟩]

/-- One label more can be registered. -/
theorem register (h : Registering a owner c) (hl : a.Registrable l) :
    Registering a owner (c.register owner l) := by
  rw [Context.register]
  split
  · exact ⟨h.node, h.owns, h.alive⟩
  refine ⟨fun n => ?_, h.owns, fun k hk => ?_⟩
  · dsimp only
    rw [Arena.node_update]
    split
    · next hn =>
      rw [hn.1]
      exact h.node owner
    · exact h.node n
  · dsimp only at hk
    rw [h.node_update_owner, List.mem_append, List.mem_singleton] at hk
    rcases hk with hk | rfl
    · exact h.alive k hk
    · exact hl.alive

theorem foldl (h : Registering a owner c) {ls : List NodeId} (hls : ∀ l ∈ ls, a.Registrable l) :
    Registering a owner (ls.foldl (Context.register owner) c) :=
  List.foldlRecOn ls _ h fun _ h l hl => h.register (hls l hl)

/-- A label takes its name if no label has it. -/
theorem findLabel_register (h : Registering a owner c) (hl : a.Registrable l) (s : String) :
    (c.register owner l).arena.findLabel owner s =
      (c.arena.findLabel owner s).or (if a.name l = s then some l else none) := by
  have hr := h.register hl
  rw [Context.register] at hr ⊢
  split at hr
  · next hname =>
    rw [if_pos hname]
    rw [h.name] at hname
    split
    · next hs =>
      obtain ⟨m, hm⟩ := Option.isSome_iff_exists.1 (hs ▸ hname)
      rw [hm, Option.some_or]
    · rw [Option.or_none]
  · next hname =>
    rw [if_neg hname, hr.findLabel, h.findLabel]
    dsimp only
    rw [h.node_update_owner, List.lookup_append, h.name, List.lookup_cons, List.lookup_nil]
    by_cases hs : a.name l = s
    · subst hs
      simp
    · have hne : (s == a.name l) = false := beq_eq_false_iff_ne.2 (Ne.symm hs)
      simp [hs, hne]

/-- **The first label of a name takes it**, if no label had it before. -/
theorem findLabel_foldl (h : Registering a owner c) {ls : List NodeId}
    (hls : ∀ l ∈ ls, a.Registrable l) (s : String) :
    (ls.foldl (Context.register owner) c).arena.findLabel owner s =
      (c.arena.findLabel owner s).or (ls.find? fun l => a.name l = s) := by
  induction ls generalizing c with
  | nil => rw [List.foldl_nil, List.find?_nil, Option.or_none]
  | cons l ls ih =>
    obtain ⟨hl, hls⟩ := List.forall_mem_cons.1 hls
    rw [List.foldl_cons, ih (h.register hl) hls, h.findLabel_register hl, Option.or_assoc,
      List.find?_cons]
    by_cases hs : a.name l = s <;> simp [hs]

theorem diagnostics_register (h : Registering a owner c) (l : NodeId) :
    (c.register owner l).diagnostics =
      if (c.arena.findLabel owner (a.name l)).isSome then
        c.diagnostics.error .duplicates (a.position owner) (duplicateText (a.name l))
      else c.diagnostics := by
  rw [Context.register, h.name, h.position, apply_ite Context.diagnostics]

/-- **Every other label is reported**, in order. -/
theorem diagnostics_foldl (h : Registering c.arena owner c) {ls : List NodeId}
    (hls : ∀ l ∈ ls, c.arena.Registrable l) (hnodup : ls.Nodup) :
    (ls.foldl (Context.register owner) c).diagnostics =
      (ls.filter fun l => !c.arena.takesName owner ls l).foldl (fun d l =>
        d.error .duplicates (c.arena.position owner) (duplicateText (c.arena.name l)))
        c.diagnostics := by
  induction ls using List.reverseRecOn with
  | nil => rfl
  | append_singleton ls l ih =>
    have hfront : ∀ m ∈ ls, c.arena.Registrable m := fun m hm => hls m (List.mem_append_left [l] hm)
    obtain ⟨hnodup, -, hdisjoint⟩ := List.nodup_append.1 hnodup
    have hmet : l ∉ ls := fun hl => hdisjoint l hl l (List.mem_singleton_self l) rfl
    -- the last label changes nothing for those before it, and is reported if its name is found
    have hsame : ∀ m ∈ ls,
        (!c.arena.takesName owner (ls ++ [l]) m) = !c.arena.takesName owner ls m :=
      fun m hm => congrArg (! ·) (Arena.takesName_append [l] hm)
    have hlast : (!c.arena.takesName owner (ls ++ [l]) l) =
        ((ls.foldl (Context.register owner) c).arena.findLabel owner (c.arena.name l)).isSome := by
      rw [Arena.takesName_concat hmet, h.findLabel_foldl hfront, Bool.not_not]
    rw [List.foldl_append, List.foldl_cons, List.foldl_nil,
      (h.foldl hfront).diagnostics_register, ih hfront hnodup, List.filter_append,
      List.filter_congr hsame, List.filter_cons, hlast]
    split
    · rw [List.filter_nil, List.foldl_append]
      rfl
    · rw [List.filter_nil, List.append_nil]

end Registering

namespace Search

variable {a : Arena} {c : Context} {owner n l : NodeId} {k : Nat}

/-! ## The walk -/

/-- A label that is met is registered or reported. -/
theorem exec_registerLabel (h : Registering a owner c) (hl : a.Registrable l) :
    (if (c.arena.findLabel owner (c.arena.name l)).isSome then
        error .duplicates owner (duplicateText (c.arena.name l))
      else change fun a => a.addLabel owner l).exec c = (.ok (), c.register owner l) := by
  rw [Context.register]
  split
  · rfl
  · next hname =>
    have hkind : c.arena.kind l = .label := (h.kind l).trans hl.label
    have htext : c.arena.name l = (c.arena.node l).text := by
      rw [Arena.name, hkind]
      rfl
    rw [h.findLabel, htext, Option.not_isSome_iff_eq_none] at hname
    rw [exec_change, Arena.addLabel_of_lookup_eq_none hkind (by rw [h.kind]; exact h.owns)
      (by rw [← htext, h.name]; exact hl.named) hname, htext]

/-- **The walk registers what it meets**, one label after the other, and does nothing else. -/
theorem exec_findLabelsFrom (h : Registering a owner c) (hfuel : a.Shallow k n)
    (hmet : ∀ l ∈ a.metLabels k n, a.Registrable l) :
    (findLabelsFrom owner k n).exec c =
      (.ok (), (a.metLabels k n).foldl (Context.register owner) c) := by
  induction k generalizing n c with
  | zero => exact hfuel.elim
  | succ k ih =>
    rw [findLabelsFrom, exec_arena_bind]
    rw [Arena.metLabels] at hmet ⊢
    by_cases hlabel : a.kind n = .label
    · rw [if_pos hlabel] at hmet ⊢
      rw [if_pos ((h.kind n).trans hlabel)]
      exact exec_registerLabel h (hmet n List.mem_cons_self)
    rw [if_neg hlabel] at hmet ⊢
    rw [if_neg fun hk => hlabel ((h.kind n).symm.trans hk), h.kind]
    by_cases hhides : (a.kind n).hidesLabels = true
    · rw [if_pos hhides, if_pos hhides]
      rfl
    rw [if_neg hhides] at hmet ⊢
    rw [if_neg hhides, h.children, exec_withLock]
    -- what is registered for one child changes nothing that the walk reads for the next
    have hall : ∀ (ls : List NodeId), (∀ x ∈ ls, x ∈ a.children n) → ∀ d, Registering a owner d →
        (ls.forM (findLabelsFrom owner k)).exec d =
          (.ok (), (ls.flatMap (a.metLabels k)).foldl (Context.register owner) d) := by
      intro ls
      induction ls with
      | nil => exact fun _ d _ => rfl
      | cons x ls ihl =>
        intro hls d hd
        obtain ⟨hx, hls⟩ := List.forall_mem_cons.1 hls
        have hfits : ∀ l ∈ a.metLabels k x, a.Registrable l := fun l hl =>
          hmet l (List.mem_flatMap.2 ⟨x, hx, hl⟩)
        rw [List.forM, exec_bind, ih hd (hfuel x hx) hfits]
        dsimp only
        rw [ihl hls _ (hd.foldl hfits), List.flatMap_cons, List.foldl_append]
    rw [hall _ (fun _ => id) _ (h.lock n), Context.foldl_register_lock, Arena.drop_lock]

/-- **Labels are registered in the order of the source.**  A name leads to the label that had it
before, if there was one, and otherwise to the first label of the name in sight.  Each label in
sight that the walk does not register is reported, be it that the name was taken before or that an
earlier one took it.  A label that was registered when the walk began is none that it registers. -/
theorem findLabels_registers (c : Context) (owner n : NodeId) (h : c.arena.Consistent)
    (howner : Arena.ownsLabels (c.arena.kind owner) = true)
    (hlabels : ∀ l ∈ (c.arena.node owner).labels, c.arena.isAlive l.2 = true)
    (hacyclic : ¬ TransGen c.arena.Under n n)
    (halive : ∀ x, c.arena.Inside x n → c.arena.isAlive x = true)
    (hnamed : ∀ l, c.arena.Inside l n → c.arena.kind l = .label → c.arena.name l ≠ "") :
    ∃ (d : Context) (missed : List NodeId), (findLabels owner n).exec c = (.ok (), d) ∧
      (∀ s, d.arena.findLabel owner s = (c.arena.findLabel owner s).or
        ((c.arena.seenLabels n).find? fun l => c.arena.name l = s)) ∧
      missed = (c.arena.seenLabels n).filter (fun l =>
        !((c.arena.findLabel owner (c.arena.name l)).isNone &&
          d.arena.findLabel owner (c.arena.name l) = some l)) ∧
      d.diagnostics = missed.foldl (fun d l =>
        d.error .duplicates (c.arena.position owner) (duplicateText (c.arena.name l)))
        c.diagnostics ∧
      (Level.error.detail ≤ c.diagnostics.maximumLevel.detail →
        ∀ log, c.diagnostics.sink = .log log → d.diagnostics = { c.diagnostics with
          errorCount := c.diagnostics.errorCount + missed.length
          sink := .log (log ++ (missed.map fun l =>
            (⟨.error, .duplicates, Diagnostics.locate (c.arena.position owner),
              duplicateText (c.arena.name l)⟩ : Message)).toArray) }) := by
  have hsize : n.index < c.arena.size := Arena.lt_size_of_isAlive (halive n .refl)
  have hls : ∀ l ∈ c.arena.seenLabels n, c.arena.Registrable l := by
    intro l hl
    obtain ⟨hin, hkind, -⟩ := (Arena.mem_seenLabels_iff h hacyclic hsize).1 hl
    exact ⟨hkind, halive l hin, hnamed l hin hkind⟩
  have hready : Registering c.arena owner c := ⟨fun _ => rfl, howner, hlabels⟩
  have hexec : (findLabels owner n).exec c =
      (.ok (), (c.arena.seenLabels n).foldl (Context.register owner) c) := by
    rw [findLabels, exec_arena_bind]
    have hshallow := (Arena.Hangs.root : c.arena.Hangs n 0 n).shallow h hacyclic hsize
      (Nat.lt_succ_self c.arena.size)
    rw [Arena.seenLabels_eq h hacyclic hsize] at hls ⊢
    exact exec_findLabelsFrom hready hshallow hls
  have hfind := hready.findLabel_foldl hls
  have hreported := hready.diagnostics_foldl hls (Arena.nodup_seenLabels h hacyclic)
  have hmissed : ∀ l, c.arena.takesName owner (c.arena.seenLabels n) l =
      ((c.arena.findLabel owner (c.arena.name l)).isNone &&
        ((c.arena.seenLabels n).foldl (Context.register owner) c).arena.findLabel owner
          (c.arena.name l) = some l) := by
    intro l
    rw [hfind, Arena.takesName]
    cases c.arena.findLabel owner (c.arena.name l) <;> rfl
  refine ⟨_, _, hexec, hfind, rfl, ?_, fun hlevel log hlog => ?_⟩
  · simp only [← hmissed]
    exact hreported
  · simp only [← hmissed]
    rw [hreported, Diagnostics.foldl_error_of_log hlevel hlog fun l _ => isEmpty_duplicateText _]

/-- A function with labels in its body.  The body holds `again` with a label `deep` below it, a list
with a second `again` and with `other`, a function with a label `hidden`, and a label `old`, whose
name was registered with the function before. -/
def bodyHistory : List Command :=
  [.create .function {}, .create .directiveList {}, .create .label {}, .create .label {},
   .create .directiveList {}, .create .label {}, .create .label {}, .create .function {},
   .create .label {}, .create .label {}, .create .label {},
   .setText ⟨2⟩ "again", .setText ⟨3⟩ "deep", .setText ⟨5⟩ "again", .setText ⟨6⟩ "other",
   .setText ⟨8⟩ "hidden", .setText ⟨9⟩ "old", .setText ⟨10⟩ "old",
   .appendChild ⟨0⟩ ⟨1⟩, .appendChild ⟨1⟩ ⟨2⟩, .appendChild ⟨2⟩ ⟨3⟩, .appendChild ⟨1⟩ ⟨4⟩,
   .appendChild ⟨4⟩ ⟨5⟩, .appendChild ⟨4⟩ ⟨6⟩, .appendChild ⟨1⟩ ⟨7⟩, .appendChild ⟨7⟩ ⟨8⟩,
   .appendChild ⟨1⟩ ⟨9⟩, .addLabel ⟨0⟩ ⟨10⟩]

/-- The context of that function, with an empty log. -/
def bodyContext : Context := { arena := after bodyHistory, parser := fun _ => .rejected }

theorem consistent_bodyContext : bodyContext.arena.Consistent :=
  .of_history bodyHistory (by rw [bodyContext])

/-- Of the labels `again` the first is found afterwards, and the other is reported as `old` is,
whose name was taken.  Labels that are not in sight are not found. -/
theorem findLabels_registers_first : ∃ d : Context,
    (findLabels ⟨0⟩ ⟨1⟩).exec bodyContext = (.ok (), d) ∧
    ["again", "other", "old", "deep", "hidden"].map (d.arena.findLabel ⟨0⟩) =
      [some ⟨2⟩, some ⟨6⟩, some ⟨10⟩, none, none] ∧
    d.diagnostics.sink.messages.toList.map Message.text =
      [duplicateText "again", duplicateText "old"] := by
  have hroot : bodyContext.arena.parent ⟨0⟩ = none := by decide +kernel
  have hbody : bodyContext.arena.parent ⟨1⟩ = some ⟨0⟩ := by decide +kernel
  have hacyclic : ¬ TransGen bodyContext.arena.Under ⟨1⟩ ⟨1⟩ := by
    intro h
    obtain ⟨p, hp, hinside⟩ := TransGen.head'_iff.1 h
    obtain rfl := Option.some.inj (hp.symm.trans hbody)
    rcases ReflTransGen.cases_head hinside with heq | ⟨q, hq, -⟩
    · cases heq
    · exact nomatch hroot.symm.trans hq
  have halive : ∀ x, bodyContext.arena.Inside x ⟨1⟩ → bodyContext.arena.isAlive x = true := by
    intro x hx
    have hnode := Arena.forall_node (a := bodyContext.arena)
      (P := fun d => d.parent ≠ none → d.alive = true) (by decide +kernel) (by decide) x
    rcases ReflTransGen.cases_head hx with rfl | ⟨p, hp, -⟩
    · decide +kernel
    · exact hnode fun hnone => nomatch hnone.symm.trans hp
  have hnamed : ∀ l, bodyContext.arena.Inside l ⟨1⟩ → bodyContext.arena.kind l = .label →
      bodyContext.arena.name l ≠ "" := by
    intro l _ hl
    have hnode := Arena.forall_node (a := bodyContext.arena)
      (P := fun d => d.kind = .label → d.text ≠ "") (by decide +kernel) (by decide) l
    rw [Arena.name, hl]
    exact hnode hl
  obtain ⟨d, missed, hexec, hfind, hmissed, -, hlogged⟩ := findLabels_registers bodyContext ⟨0⟩ ⟨1⟩
    consistent_bodyContext (by decide +kernel) (by decide +kernel) hacyclic halive hnamed
  simp only [hfind] at hmissed
  have htwo : missed = [⟨5⟩, ⟨9⟩] := by
    rw [hmissed]
    decide +kernel
  refine ⟨d, hexec, ?_, ?_⟩
  · simp only [List.map_cons, List.map_nil, hfind]
    decide +kernel
  · rw [hlogged (by decide) #[] rfl, htwo]
    decide +kernel

end Search

end SymbolTree
