import SymbolTree.Proofs.Arena.Deed
import SymbolTree.Proofs.Search.Trace.Scope

/-!
# Searches leave the program as it is

A search writes in many places: it marks what it uses, links names to what they stand for, creates
nodes to work with, loads modules.  Yet every node that was there before holds what it held and
stands where it stood, whether the search answers or fails.  `Search.Operation` lists the searches
in question.

What a search may take away are the parameter matches below its arguments, or those that hang
nowhere, with all that they own (`Arena.Disposable`).  These are excepted twice.  They come and go
themselves, and a link from elsewhere to a match that is dropped leads nowhere afterwards
(`Search.link_to_dropped_match`).

## Main statement

* `Search.operation_undisturbed` — what a search leaves of the nodes that were there before.
-/

set_option autoImplicit false
namespace SymbolTree

/-- What a node that was there before a search is like afterwards.  Only flags and the mark of a type
may have been added to it, links that led nowhere may lead somewhere, and if it is the list of
arguments, the matches among its children may have changed. -/
structure Arena.Undisturbed (params : Option NodeId) (a b : Arena) (n : NodeId) : Prop where
  /-- The kind is the same. -/
  kind : b.kind n = a.kind n
  /-- The position is the same. -/
  position : b.position n = a.position n
  /-- The name or text is the same. -/
  text : (b.node n).text = (a.node n).text
  /-- The integer is the same. -/
  int : (b.node n).int = (a.node n).int
  /-- The float is the same. -/
  float : (b.node n).float = (a.node n).float
  /-- The parent is the same. -/
  parent : b.parent n = a.parent n
  /-- The node is as alive as it was. -/
  alive : b.isAlive n = a.isAlive n
  /-- The attribute node is the same. -/
  attributeNode : (b.node n).attributeNode = (a.node n).attributeNode
  /-- The attribute node is seen as before, unless it may be taken away itself. -/
  attributeNode_live : ∀ t, a.attributeNode n = some t → ¬ a.Disposable params t →
    b.attributeNode n = some t
  /-- The children are the same, except in the list of arguments. -/
  children : params ≠ some n → b.children n = a.children n
  /-- In the list of arguments too, children other than matches are the same in the same order. -/
  arguments : (b.children n).filter (fun c => b.kind c ≠ .paramMatch)
    = (a.children n).filter (fun c => a.kind c ≠ .paramMatch)
  /-- Flags are only gained. -/
  flags : ∀ f, (a.node n).flags.contains f = true → (b.node n).flags.contains f = true
  /-- Attributes are only gained. -/
  attributes : ∀ t, (a.node n).attributes.contains t = true →
    (b.node n).attributes.contains t = true
  /-- No attribute is gained but the mark of a type. -/
  gained : ∀ t, (b.node n).attributes.contains t = true →
    (a.node n).attributes.contains t = true ∨ t = .type
  /-- A link to a live node leads there still, unless it leads to what may be taken away. -/
  link : ∀ l t, (l = .inst ∨ l = .typeNode) → a.link n l = some t → ¬ a.Disposable params t →
    b.link n l = some t

theorem Arena.Frame.undisturbed {params : Option NodeId} {a b : Arena} (h : a.Frame params b)
    {n : NodeId} (hn : n.index < a.size) (hm : ¬ a.Disposable params n) :
    a.Undisturbed params b n := by
  have hages := h.ages n hn
  refine ⟨hages.kind, hages.position, hages.text, hages.int, hages.float, h.parent n hn hm,
    h.alive n hn hm, hages.attributeNode, fun t ht hfree => ?_, h.children n hn, h.others n hn,
    hages.flags, hages.attributes, hages.gained, h.link n⟩
  obtain ⟨hraw, halive⟩ := Option.filter_eq_some_iff.1 ht
  rw [Arena.attributeNode, live, hages.attributeNode]
  exact Option.filter_eq_some_iff.2
    ⟨hraw, (h.alive t (lt_size_of_isAlive halive) hfree).trans halive⟩

namespace Search

/-- The searches that a compiler offers. -/
inductive Operation where
  | resolveName (list id : NodeId) (params : Option NodeId) (mode : SearchMode)
  | resolveField (object field : NodeId) (params : Option NodeId) (mode : SearchMode)
  | findField (link field : NodeId) (funcs : Nat) (params : Option NodeId) (mode : SearchMode)
  | checkImport (import_ : NodeId) (name : String) (params : Option NodeId) (mode : SearchMode)
  | importPackage (import_ : NodeId)
  | linkType (ty : NodeId)
  | matchType (arg target : NodeId)
  | hasAttribute (n : NodeId) (t : Attribute)
  | checkFunctionWithParams (f : NodeId) (params : Option NodeId)

namespace Operation

/-- The list of arguments that an operation is about. -/
def params : Operation → Option NodeId
  | resolveName _ _ params _ => params
  | resolveField _ _ params _ => params
  | findField _ _ _ params _ => params
  | checkImport _ _ params _ => params
  | checkFunctionWithParams _ params => params
  | _ => none

/-- The operation as a program, its answer forgotten. -/
def run : Operation → Search Unit
  | resolveName list id params mode => do
      let _ ← Search.run (Search.resolveName · list id params mode)
  | resolveField object field params mode => do
      let _ ← Search.run (Search.resolveField · object field params mode)
  | findField link field funcs params mode => do
      let _ ← Search.run (Search.findField · link field funcs params mode)
  | checkImport import_ name params mode => do
      let _ ← Search.run (Search.checkImport · import_ name params mode)
  | importPackage import_ => Search.importPackage import_
  | linkType ty => Search.run (Search.linkType · ty)
  | matchType arg target => do let _ ← Search.run (Search.matchType · arg target)
  | hasAttribute n t => do let _ ← Search.run (Search.hasAttribute · n t)
  | checkFunctionWithParams f params => do
      let _ ← Search.run (Search.checkFunctionWithParams · f params)

theorem follows (op : Operation) : Follows op.params op.run := by
  cases op with
  | resolveName list id params mode =>
    exact .bind (follows_run fun _ h => follows_resolveName h list id mode) fun _ => .pure
  | resolveField object field params mode =>
    exact .bind (follows_run fun _ h => follows_resolveField h object field mode) fun _ => .pure
  | findField link field funcs params mode =>
    exact .bind (follows_run fun _ h => follows_findField h link field funcs mode) fun _ => .pure
  | checkImport import_ name params mode =>
    exact .bind (follows_run fun _ h => follows_checkImport h import_ name mode) fun _ => .pure
  | importPackage import_ => exact follows_importPackage import_
  | linkType ty => exact follows_run fun _ h => follows_linkType h ty
  | matchType arg target =>
    exact .bind (follows_run fun _ h => follows_matchType h arg target) fun _ => .pure
  | hasAttribute n t =>
    exact .bind (follows_run fun _ h => follows_hasAttribute h n t) fun _ => .pure
  | checkFunctionWithParams f params =>
    exact .bind (follows_run fun _ h => follows_checkFunctionWithParams h f) fun _ => .pure

end Operation

/-- **A search leaves the program as it is.**  Whether it answers or fails, every node that was there
before holds what it held and stands where it stood, unless it is a parameter match below the
arguments, or one that hangs nowhere, or owned by such a match. -/
theorem operation_undisturbed (op : Operation) (c : Context) (hc : c.arena.Consistent)
    (n : NodeId) (hn : n.index < c.arena.size) (hm : ¬ c.arena.Disposable op.params n) :
    c.arena.Undisturbed op.params (op.run.exec c).2.arena n :=
  ((op.follows.course c hc).frame hc).undisturbed hn hm

/-! ### A call with an old match among its arguments -/

/-- A program that calls `f` with one argument.  Among the arguments there is a match from before,
to which the name `x` was linked. -/
def matchHistory : List Command :=
  [.create .program {}, .create .directiveList {}, .create .function {}, .create .parameters {},
   .create .param {}, .create .identifier {}, .create .list {}, .create .paramMatch {},
   .create .int64 {}, .create .identifier {},
   .setText ⟨2⟩ "f", .setText ⟨4⟩ "a", .setText ⟨5⟩ "f", .setText ⟨9⟩ "x",
   .appendChild ⟨0⟩ ⟨1⟩, .appendChild ⟨1⟩ ⟨2⟩, .appendChild ⟨2⟩ ⟨3⟩, .appendChild ⟨3⟩ ⟨4⟩,
   .appendChild ⟨1⟩ ⟨5⟩, .appendChild ⟨6⟩ ⟨7⟩, .appendChild ⟨6⟩ ⟨8⟩,
   .setLink ⟨2⟩ .typeNode (some ⟨2⟩), .setLink ⟨9⟩ .inst (some ⟨7⟩)]

/-- The context of that program.  There are no modules to load. -/
def matchContext : Context := { arena := after matchHistory, parser := fun _ => .rejected }

/-- The call of `f` is resolved with its arguments. -/
def matchCall : Operation := .resolveName ⟨5⟩ ⟨5⟩ (some ⟨6⟩) {}

theorem consistent_matchContext : matchContext.arena.Consistent :=
  after_invariant Arena.consistent_empty Command.keeps_consistent matchHistory

/-- In that program a node without a parent belongs to no match, unless it is one. -/
theorem not_ofMatch_matchContext {n : NodeId} (hp : matchContext.arena.parent n = none)
    (hk : matchContext.arena.kind n ≠ .paramMatch) : ¬ matchContext.arena.OfMatch n := by
  have hattr : ∀ x, (matchContext.arena.node x).attributeNode = none :=
    Arena.forall_node (P := fun d => d.attributeNode = none) (by decide +kernel) rfl
  rintro ⟨m, hm, hpath⟩
  rcases Relation.ReflTransGen.cases_tail hpath with rfl | ⟨x, -, hx⟩
  · exact hk hm
  · rcases hx with hx | hx
    · rw [consistent_matchContext.mem_children, hp] at hx
      cases hx
    · rw [hattr x] at hx
      cases hx

/-- The list of arguments gains a match and loses one, and is otherwise undisturbed. -/
theorem operation_undisturbed_arguments :
    matchContext.arena.Consistent ∧ (6 < matchContext.arena.size) ∧
      ¬ matchContext.arena.Disposable matchCall.params ⟨6⟩ ∧
      matchContext.arena.Undisturbed matchCall.params (matchCall.run.exec matchContext).2.arena ⟨6⟩ :=
  have hm : ¬ matchContext.arena.Disposable matchCall.params ⟨6⟩ := fun h =>
    not_ofMatch_matchContext (by decide +kernel) (by decide +kernel) h.ofMatch
  have hn : 6 < matchContext.arena.size := by decide +kernel
  ⟨consistent_matchContext, hn, hm,
    operation_undisturbed matchCall matchContext consistent_matchContext ⟨6⟩ hn hm⟩

/-- A link to a live match is lost when the match is dropped, wherever the link comes from: `x` does
not belong to a match, and its link leads nowhere after the call of `f` is resolved. -/
theorem link_to_dropped_match :
    ¬ ∀ (op : Operation) (c : Context), c.arena.Consistent → ∀ n : NodeId,
      n.index < c.arena.size → ¬ c.arena.OfMatch n → ∀ (l : Link) (t : NodeId),
      (l = .inst ∨ l = .typeNode) → c.arena.link n l = some t →
      (op.run.exec c).2.arena.link n l = some t := by
  intro h
  have hm : ¬ matchContext.arena.OfMatch ⟨9⟩ :=
    not_ofMatch_matchContext (by decide +kernel) (by decide +kernel)
  have hkept := h matchCall matchContext consistent_matchContext ⟨9⟩ (by decide +kernel) hm .inst ⟨7⟩
    (.inl rfl) (by decide +kernel)
  have hlost : (matchCall.run.exec matchContext).2.arena.link ⟨9⟩ .inst = none := by decide +kernel
  rw [hlost] at hkept
  cases hkept

end Search

end SymbolTree
