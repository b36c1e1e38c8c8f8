import Mathlib.Data.List.Find
import Mathlib.Data.List.Sublists
import SymbolTree.Proofs.Search.Settled
import SymbolTree.Proofs.Search.Unhindered.Tidy

/-!
# What is reported about a name

A name for which there are only candidates that were rejected is reported, once the search for it
has failed.  `Context.reports` counts these messages name by name, so that it can be said of a
search for one name that it reports nothing about another.

Most searches look up further names on their way: what a class inherits from, the types of variables
and functions, variables that are used as attributes.  `Context.Consults` says which ones may still
be looked up on account of the tree, and `Context.Distinct` that a name is spelt otherwise than all
of them.  What is then left of a context is said by `Search.Tracked`: the tree stands, and so many
messages are about the name.

## Main statements

* `rejectionText_inj` — the text of a report tells the name.
* `Arena.Endures.update`, `Arena.Endures.push` — what searches do to the arena lets the tree stand.
* `Search.Quiet.reportRejections` — a report about one name is none about another.
-/

set_option autoImplicit false
namespace SymbolTree

/-! ## Reports -/

/-- The text of a report about a name, for the reasons listed. -/
def rejectionText (name : String) (rs : List Rejection) : String :=
  "the name '" ++ name ++ "' could not be resolved because:\n"
    ++ String.join (rs.map fun r => "   " ++ r.reason)

/-- The message reports that a name was not resolved since candidates were rejected. -/
def Message.isAbout (m : Message) (name : String) : Bool :=
  m.code = .cannotMatch && Rejection.all.sublists.any fun rs => m.text = rejectionText name rs

/-- The number of reports about a name. -/
def Diagnostics.reports (ds : Diagnostics) (name : String) : Nat :=
  ds.sink.messages.toList.countP (·.isAbout name)

/-- The number of reports about a name. -/
def Context.reports (c : Context) (name : String) : Nat := c.diagnostics.reports name

/-- Without the reasons, the text of a report ends with the name in quotes. -/
theorem toList_rejectionText (name : String) (rs : List Rejection) :
    (rejectionText name rs).toList = ("the name '" ++ name).toList ++
      '\'' :: (" could not be resolved because:\n".toList
        ++ rs.flatMap fun r => ("   " ++ r.reason).toList) := by
  rw [rejectionText, String.toList_append, String.toList_append, String.toList_join,
    List.flatMap_map, List.append_assoc]
  rfl

/-- No reason holds an apostrophe, so that the last one stands right after the name. -/
theorem not_mem_reasons (rs : List Rejection) :
    '\'' ∉ " could not be resolved because:\n".toList
      ++ rs.flatMap fun r => ("   " ++ r.reason).toList := by
  have hreason : ∀ r : Rejection, '\'' ∉ ("   " ++ r.reason).toList := fun r => by
    cases r <;> decide +kernel
  rw [List.mem_append, List.mem_flatMap, not_or]
  exact ⟨by decide +kernel, fun ⟨r, _, hr⟩ => hreason r hr⟩

/-- The text of a report tells the name. -/
theorem rejectionText_inj {x y : String} {rs qs : List Rejection}
    (h : rejectionText x rs = rejectionText y qs) : x = y := by
  have hname : ∀ (name : String) (rs : List Rejection),
      (rejectionText name rs).toList.reverse.dropWhile (· ≠ '\'') =
        '\'' :: ("the name '" ++ name).toList.reverse := by
    intro name rs
    rw [toList_rejectionText, List.reverse_append, List.reverse_cons, List.append_assoc,
      List.dropWhile_append_of_pos]
    · rfl
    · intro c hc
      rw [List.mem_reverse] at hc
      exact decide_eq_true fun hquote => not_mem_reasons rs (hquote ▸ hc)
  have hreversed := (hname x rs).symm.trans (h ▸ hname y qs)
  have hquoted := List.reverse_injective (List.cons.inj hreversed).2
  rw [String.toList_append, String.toList_append] at hquoted
  exact String.toList_inj.1 (List.append_cancel_left hquoted)

/-- A report about one name is none about another. -/
theorem Message.isAbout_rejectionText {m : Message} {x y : String} (rs : List Rejection)
    (hm : m.text = rejectionText y rs) (hxy : y ≠ x) : m.isAbout x = false := by
  rw [isAbout, Bool.and_eq_false_imp]
  intro _
  rw [List.any_eq_false]
  intro qs _ hqs
  exact hxy (rejectionText_inj (hm.symm.trans (of_decide_eq_true hqs)))

namespace Diagnostics

variable {ds : Diagnostics} {level : Level} {code : Code} {p : Position} {text name : String}

/-- One message is one report at most. -/
theorem reports_emit_le : (ds.emit level code p text).reports name ≤ ds.reports name + 1 := by
  rw [emit]
  split
  · rw [reports, reports]
    dsimp only
    cases ds.sink with
    | none => exact Nat.le_succ _
    | log ms =>
      rw [Sink.push, Sink.messages, Array.toList_push, List.countP_append]
      exact Nat.add_le_add_left List.countP_le_length _
  · exact Nat.le_succ _

/-- A message that is no report about a name does not count. -/
theorem reports_emit
    (h : ∀ q, (Message.mk level code q text).isAbout name = false) :
    (ds.emit level code p text).reports name = ds.reports name := by
  rw [emit]
  split
  · rw [reports, reports]
    dsimp only
    cases ds.sink with
    | none => rfl
    | log ms =>
      rw [Sink.push, Sink.messages, Array.toList_push, List.countP_append, List.countP_singleton,
        h]
      rfl
  · rfl

/-- Only a message of one code is a report. -/
theorem reports_emit_of_ne (h : code ≠ .cannotMatch) :
    (ds.emit level code p text).reports name = ds.reports name :=
  reports_emit fun q => by rw [Message.isAbout, decide_eq_false h, Bool.false_and]

end Diagnostics

/-! ## A tree that stands -/

namespace Arena

/-- The tree of an arena still stands in a later one: nodes were only added, names and types that
hang nowhere, and those that were there have gained flags and links at most. -/
structure Endures (a b : Arena) : Prop extends a.Sprouts b where
  /-- Parents and children agree. -/
  consistent : b.Consistent
  /-- A node stays below its parent. -/
  parent : ∀ n, b.parent n = a.parent n
  /-- A text stays. -/
  text : ∀ n, n.index < a.size → (b.node n).text = (a.node n).text
  /-- A node is as alive as it was. -/
  alive : ∀ n, n.index < a.size → b.isAlive n = a.isAlive n
  /-- Flags are only gained. -/
  flags : ∀ n f, (a.node n).flags.contains f = true → (b.node n).flags.contains f = true
  /-- No import has come to implement its package. -/
  implements_ : ∀ n, (b.node n).flags.contains .importImplements = true →
    (a.node n).flags.contains .importImplements = true
  /-- A link that leads somewhere still does. -/
  link : ∀ n l, (a.link n l).isSome = true → (b.link n l).isSome = true

namespace Endures

variable {a b : Arena} {n : NodeId}

theorem refl (h : a.Consistent) : a.Endures a :=
  ⟨.refl a, h, fun _ => rfl, fun _ _ => rfl, fun _ _ => rfl, fun _ _ => id, fun _ => id,
    fun _ _ => id⟩

theorem trans {c : Arena} (h : a.Endures b) (h' : b.Endures c) : a.Endures c where
  toSprouts := h.toSprouts.trans h'.toSprouts
  consistent := h'.consistent
  parent n := (h'.parent n).trans (h.parent n)
  text n hn := (h'.text n (h.lt hn)).trans (h.text n hn)
  alive n hn := (h'.alive n (h.lt hn)).trans (h.alive n hn)
  flags n f hf := h'.flags n f (h.flags n f hf)
  implements_ n hn := h.implements_ n (h'.implements_ n hn)
  link n l hl := h'.link n l (h.link n l hl)

theorem of_nodes {b' : Arena} (h : a.Endures b) (hc : b'.Consistent)
    (hb : b'.nodes = b.nodes) : a.Endures b' := by
  obtain ⟨nodes, locks⟩ := b
  cases b'
  cases hb
  exact ⟨⟨h.size_le, h.children, h.attributeNode, h.kind, h.added⟩, hc, h.parent, h.text, h.alive,
    h.flags, h.implements_, h.link⟩

/-- A node may age in its place, unless it is an import that comes to implement its package or a
link is lost. -/
theorem update (h : a.Endures b) {g : Node → Node} (hg : (b.node n).AgesInPlace (g (b.node n)))
    (himplements : (g (b.node n)).flags.contains .importImplements = true →
      (b.node n).flags.contains .importImplements = true)
    (hlink : ∀ l, (a.link n l).isSome = true → (g (b.node n)).link l = (b.node n).link l) :
    a.Endures (b.update n g) := by
  have hnode : ∀ m, (b.node m).AgesInPlace ((b.update n g).node m) := rel_node_update .refl hg
  have halive : (b.update n g).isAlive = b.isAlive := funext fun m => (hnode m).alive
  exact {
    toSprouts := h.toSprouts.trans (.update hg.kind hg.children hg.attributeNode)
    consistent := h.consistent.update (.of_eq hg.parent hg.children hg.kind)
    parent := fun m => (hnode m).parent.trans (h.parent m)
    text := fun m hm => (hnode m).text.trans (h.text m hm)
    alive := fun m hm => by rw [halive]; exact h.alive m hm
    flags := fun m f hf => (hnode m).flags f (h.flags m f hf)
    implements_ := fun m hm => h.implements_ m (rel_node_update
      (r := fun d e => e.flags.contains .importImplements = true →
        d.flags.contains .importImplements = true) (fun _ => id) himplements m hm)
    link := fun m l hm => by
      rw [Arena.link, live, halive, node_update]
      split
      · next heq =>
        rw [heq.1] at hm ⊢
        rw [hlink l hm]
        exact h.link n l hm
      · exact h.link m l hm }

theorem setFlag (h : a.Endures b) {f : Flag} {b' : Arena} (hb : b.setFlag n f true = .ok b')
    (hf : f ≠ .importImplements) : a.Endures b' := by
  obtain ⟨-, -, rfl⟩ := setFlag_eq_ok_iff.1 hb
  refine h.update ⟨⟨rfl, rfl, rfl, rfl, rfl, rfl, fun g hg => ?_, fun _ => id, fun _ => .inl⟩,
    rfl, rfl, rfl⟩ (fun hset => ?_) fun l _ => by cases l <;> rfl
  · simp [hg]
  · simpa [hf.symm] using hset

theorem setType (h : a.Endures b) {b' : Arena} {r : Bool}
    (hb : b.setAttribute n .type true = .ok (r, b')) : a.Endures b' := by
  obtain ⟨-, -, rfl | rfl⟩ := setAttribute_eq_ok hb
  · exact h
  · refine h.update ⟨⟨rfl, rfl, rfl, rfl, rfl, rfl, fun _ => id, fun t ht => ?_, fun t ht => ?_⟩,
      rfl, rfl, rfl⟩ id fun l _ => by cases l <;> rfl
    · simp [ht]
    · simpa [or_comm] using ht

/-- A link that led nowhere at the beginning may be given an end. -/
theorem setLink (h : a.Endures b) {l : Link} (hl : a.link n l = none) (t : Option NodeId) :
    a.Endures (b.setLink n l t) := by
  refine h.update (Node.agesInPlace_setLink _ l t) (fun hset => ?_) fun k hk => ?_
  · cases l <;> exact hset
  · rw [Node.link_setLink, if_neg]
    rintro rfl
    rw [hl] at hk
    cases hk

/-- A name or a type that hangs nowhere may be added. -/
theorem push (h : a.Endures b) {d : Node} (hk : d.kind = .identifier ∨ d.kind = .void)
    (hparent : d.parent = none) (hchildren : d.children = []) (hattr : d.attributeNode = none)
    (hflags : d.flags.contains .importImplements = false) : a.Endures (b.push d).2 := by
  have hold : ∀ m, m.index < b.size → (b.push d).2.node m = b.node m := fun m hm => by
    rw [node_push, if_neg (Nat.ne_of_lt hm)]
  have hnew : ∀ m, (b.push d).2.node m = b.node m ∨
      (b.node m = Node.absent ∧ a.node m = Node.absent) ∧ (b.push d).2.node m = d := fun m => by
    rw [node_push]
    split
    · next hm =>
      have hb := Nat.le_of_eq hm.symm
      exact .inr ⟨⟨node_of_size_le hb, node_of_size_le (Nat.le_trans h.size_le hb)⟩, rfl⟩
    · exact .inl rfl
  exact {
    toSprouts := h.toSprouts.trans (.push hk hchildren hattr)
    consistent := h.consistent.push hparent hchildren
    parent := fun m => by
      rw [← h.parent m, Arena.parent, Arena.parent]
      rcases hnew m with hm | ⟨⟨hb, -⟩, hm⟩ <;> rw [hm]
      rw [hb, hparent]
      rfl
    text := fun m hm => by
      rw [hold m (h.lt hm)]
      exact h.text m hm
    alive := fun m hm => by
      rw [isAlive, hold m (h.lt hm)]
      exact h.alive m hm
    flags := fun m f hf => by
      rcases hnew m with hm | ⟨⟨-, ha⟩, -⟩
      · rw [hm]
        exact h.flags m f hf
      · rw [ha] at hf
        cases f <;> cases hf
    implements_ := fun m hm => by
      rcases hnew m with he | ⟨-, he⟩ <;> rw [he] at hm
      · exact h.implements_ m hm
      · rw [hflags] at hm
        cases hm
    link := fun m l hl => by
      rcases hnew m with hm | ⟨⟨-, ha⟩, -⟩
      · obtain ⟨t, ht⟩ := Option.isSome_iff_exists.1 (h.link m l hl)
        have halive := (Option.filter_eq_some_iff.1 ht).2
        rw [Arena.link, live, hm, (Option.filter_eq_some_iff.1 ht).1, Option.filter_some,
          isAlive, hold t (lt_size_of_isAlive halive)]
        rw [isAlive] at halive
        rw [if_pos halive]
        rfl
      · rw [Arena.link, ha] at hl
        cases l <;> cases hl }

/-! ### What is read off the tree -/

theorem name (h : a.Endures b) (hn : n.index < a.size) : b.name n = a.name n := by
  rw [Arena.name, Arena.name, h.kind n hn, h.text n hn]

/-- A child keeps its kind. -/
theorem kind_child (h : a.Endures b) (ha : a.Consistent) {p : NodeId} (hn : n ∈ a.children p) :
    b.kind n = a.kind n :=
  h.kind n (ha.child_lt p n hn)

theorem attributeEntries (h : a.Endures b) (n : NodeId) :
    b.attributeEntries n = a.attributeEntries n := by
  rw [Arena.attributeEntries, Arena.attributeEntries, funext h.children, Arena.attributeNode,
    Arena.attributeNode, h.attributeNode]
  cases (a.node n).attributeNode with
  | none => rfl
  | some list =>
    rw [live, live, Option.filter_some, Option.filter_some]
    by_cases hlist : list.index < a.size
    · rw [h.alive list hlist]
    · -- a list that is not there has no entries, and neither has what was added in its place
      have habsent : a.children list = [] := by
        rw [Arena.children, node_of_size_le (Nat.le_of_not_lt hlist)]
        rfl
      split <;> split <;> simp_all

end Endures

/-! ## Names that are looked up on the way -/

/-- The name of a type that was neither linked nor tried. -/
def Untried (a : Arena) (n : NodeId) : Prop :=
  (a.kind n = .identifier ∨ a.kind n = .string) ∧ a.inst n = none ∧
    (a.node n).flags.contains .identifierTyped = false

/-- The type of a variable or a parameter. -/
def IsTypeOf (a : Arena) (n v : NodeId) : Prop :=
  (a.kind v = .variable_ ∨ a.kind v = .param) ∧
    (a.children v).find? (fun c => a.kind c ≠ .set && a.kind c ≠ .varAttributes) = some n

/-- An entry of an attribute list that stands for a variable. -/
def NamesVariable (a : Arena) (n : NodeId) : Prop :=
  a.kind n = .identifier ∧ Attribute.ofListName? (a.name n) = none

/-- The value to which a variable is set. -/
def IsValue (a : Arena) (n : NodeId) : Prop :=
  ∃ v part, part ∈ a.children v ∧ a.kind part = .set ∧ (a.children part).head? = some n

/-- Looking up a name reports nothing about `x`: the name is spelt otherwise, or it is a member
expression whose parts are. -/
inductive Apart (a : Arena) (x : String) : NodeId → Prop
  | name {n : NodeId} (hk : a.kind n ≠ .member) (hx : a.name n ≠ x) : Apart a x n
  | member {n : NodeId} (hk : a.kind n = .member)
      (hobject : ∀ o f, a.children n = [o, f] → Apart a x o)
      (hfield : ∀ o f, a.children n = [o, f] → a.name f ≠ x) : Apart a x n

/-- The names that a class inherits from hang below it. -/
theorem mem_children_of_superNames {a : Arena} {n s : NodeId} (h : n ∈ a.superNames s) :
    ∃ p, n ∈ a.children p := by
  obtain ⟨clause, -, hn⟩ := List.mem_flatMap.1 h
  split at hn
  · split at hn
    · next name hname =>
      split at hn
      · exact ⟨name, hn⟩
      · exact ⟨clause, by rw [hname]; exact hn⟩
    · cases hn
  · cases hn

/-- The declared type of a function hangs below it. -/
theorem mem_children_of_declaredType {a : Arena} {n f : NodeId}
    (h : Search.declaredType a f = some n) : ∃ p, n ∈ a.children p := by
  obtain ⟨ty, -, hty⟩ := List.exists_of_findSome?_eq_some h
  split at hty
  · split at hty
    · next e he =>
      obtain rfl := Option.some.inj hty
      exact ⟨ty, by rw [he]; exact List.mem_cons_self⟩
    · cases hty
  · cases hty

namespace Endures

variable {a b : Arena} {n v : NodeId}

theorem untried (h : a.Endures b) (hn : n.index < a.size) (hb : b.Untried n) : a.Untried n := by
  refine ⟨h.kind n hn ▸ hb.1, ?_, ?_⟩
  · cases ha : a.inst n with
    | none => rfl
    | some t =>
      have hsome := h.link n .inst (by rw [← inst, ha]; rfl)
      rw [← inst, hb.2.1] at hsome
      cases hsome
  · cases ha : (a.node n).flags.contains .identifierTyped with
    | false => rfl
    | true =>
      have htyped := h.flags n _ ha
      rw [hb.2.2] at htyped
      cases htyped

theorem isTypeOf (h : a.Endures b) (ha : a.Consistent) (hb : b.IsTypeOf n v) :
    a.IsTypeOf n v := by
  have hmem := List.mem_of_find?_eq_some hb.2
  rw [h.children] at hmem
  have hv := h.kind v (lt_size_of_mem_children hmem)
  refine ⟨hv ▸ hb.1, ?_⟩
  rw [← hb.2, h.children]
  exact List.find?_congr fun c hc => by rw [h.kind_child ha hc]

theorem declaredType (h : a.Endures b) (ha : a.Consistent) (n : NodeId) :
    Search.declaredType b n = Search.declaredType a n := by
  rw [Search.declaredType, Search.declaredType, h.children, ← List.head?_filterMap,
    ← List.head?_filterMap]
  refine congrArg List.head? (List.filterMap_congr fun c hc => ?_)
  rw [h.kind_child ha hc, h.children]

theorem isValue (h : a.Endures b) (ha : a.Consistent) (hb : b.IsValue n) : a.IsValue n := by
  obtain ⟨v, part, hpart, hk, hn⟩ := hb
  rw [h.children] at hpart hn
  rw [h.kind_child ha hpart] at hk
  exact ⟨v, part, hpart, hk, hn⟩

theorem namesVariable (h : a.Endures b) (hn : n.index < a.size) (hb : b.NamesVariable n) :
    a.NamesVariable n := by
  rw [NamesVariable, h.kind n hn, h.name hn] at hb
  exact hb

theorem apart (h : a.Endures b) (ha : a.Consistent) {x : String} (hn : n.index < a.size)
    (hx : a.Apart x n) : b.Apart x n := by
  induction hx with
  | @name n hk hx => exact .name (h.kind n hn ▸ hk) (h.name hn ▸ hx)
  | @member n hk _ hfield ih =>
    refine .member (h.kind n hn ▸ hk) (fun o f hc => ?_) fun o f hc => ?_
    · rw [h.children] at hc
      exact ih o f hc (ha.child_lt n o (by rw [hc]; exact List.mem_cons_self))
    · rw [h.children] at hc
      rw [h.name (ha.child_lt n f (by rw [hc]; simp))]
      exact hfield o f hc

end Endures

end Arena

namespace Context

/-- An entry of an attribute list from which the attributes of a node are still to be worked
out. -/
def Lists (c : Context) (n : NodeId) : Prop :=
  ∃ d, c.attributeCache.lookup d = none ∧ n ∈ c.arena.attributeEntries d

/-- What is read as an entry of an attribute list: an entry of one, or the value of a variable, if
an entry stands for one. -/
def Expands (c : Context) (n : NodeId) : Prop :=
  c.Lists n ∨ (∃ e, c.Lists e ∧ c.arena.NamesVariable e) ∧ c.arena.IsValue n

/-- The names that searches may look up on the way to another one: those after `extends` and
`implements`, the types of variables, parameters and functions, and the variables that stand for
attributes, as far as they were not looked up before. -/
inductive Consults (c : Context) : NodeId → Prop
  | super {n s : NodeId} (h : n ∈ c.arena.superNames s) (hn : c.arena.Untried n) : Consults c n
  | typed {n v : NodeId} (h : c.arena.IsTypeOf n v) (hn : c.arena.Untried n) : Consults c n
  | declared {n f : NodeId} (h : Search.declaredType c.arena f = some n)
      (hf : c.arena.typeNode f = none) : Consults c n
  | listed {n : NodeId} (h : c.Expands n) (hn : c.arena.NamesVariable n) : Consults c n

/-- The name is looked up only where it stands, and no import leads into another module. -/
structure Distinct (c : Context) (x : String) : Prop where
  /-- Parents and children agree. -/
  consistent : c.arena.Consistent
  /-- No import implements its package. -/
  imports : ∀ n, c.arena.kind n = .import_ →
    (c.arena.node n).flags.contains .importImplements = false
  /-- The name is not that of the type which functions without a type return. -/
  object : x ≠ "Object"
  /-- What else is looked up is spelt otherwise. -/
  consults : ∀ n, c.Consults n → c.arena.Apart x n

variable {c : Context} {n : NodeId}

theorem Lists.lt_size (h : c.Lists n) (hc : c.arena.Consistent) : n.index < c.arena.size := by
  obtain ⟨d, -, hn⟩ := h
  rw [Arena.attributeEntries] at hn
  split at hn
  · exact hc.child_lt _ n hn
  · cases hn

theorem Expands.lt_size (h : c.Expands n) (hc : c.arena.Consistent) :
    n.index < c.arena.size := by
  rcases h with h | ⟨-, v, part, -, -, hn⟩
  · exact h.lt_size hc
  · exact hc.child_lt part n (List.mem_of_mem_head? hn)

end Context

end SymbolTree
