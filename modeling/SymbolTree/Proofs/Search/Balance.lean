import SymbolTree.Proofs.Search.Discreet
import SymbolTree.Proofs.Search.Undisturbed

/-!
# Searches give back what they take

A search locks the nodes whose children it goes through, marks the variables whose attributes it
works out, and puts the rejections of its caller aside.  It may stop at almost every step, and other
searches nest inside it.  Yet when it is over, every lock, every mark and the rejections are as they
were.

The locks and the marks follow from the course of a search, in which whatever is taken is given back
in the same step (`Search.Course.lockCount`, `Search.Course.expanding`).  The rejections are another
matter, as some searches do collect them for their caller (`Search.Discreet`).

## Main statement

* `Search.inquiry_balanced` — what was taken by a search is given back, however the search ends.
-/

set_option autoImplicit false
namespace SymbolTree

namespace Search

/-! ## Locks and marks along a course -/

section

variable {params : Option NodeId} {c d : Context}

theorem Effect.lockCount {a b : Arena} (h : Effect params a b) : b.lockCount = a.lockCount := by
  cases h with
  | flag hf h =>
    obtain ⟨-, -, rfl⟩ := Arena.setFlag_eq_ok_iff.1 h
    rfl
  | typed h =>
    obtain ⟨-, -, rfl | rfl⟩ := Arena.setAttribute_eq_ok h
    · rfl
    · rfl
  | label h =>
    obtain ⟨-, -, -, rfl⟩ := Arena.addLabel_eq_ok h
    rfl
  | table n f g => rfl
  | create p s i hk => exact funext (a.lockCount_push _)
  | append hp hk hm h => exact Arena.lockCount_setParent h
  | detach hp hk hm h => exact Arena.lockCount_setParent h
  | discard hp hk h => exact Arena.lockCount_discard h

theorem Course.lockCount (h : Course params c d) : d.arena.lockCount = c.arena.lockCount := by
  induction h with
  | refl => rfl
  | trans _ _ ih ih' => exact ih'.trans ih
  | effect h => exact h.lockCount
  | build p h => exact Outline.lockCount_build _ _ p
  | reference hp h =>
    obtain ⟨-, -, rfl⟩ := Arena.setFlag_eq_ok_iff.1 h
    rfl
  | aside => rfl
  | reject => rfl
  | remember => rfl
  | link t hl h hd ih => exact ih
  | attributes s h hd ih => exact ih
  | lock hd ih => exact Arena.lockCount_drop_lock ih
  | fresh hd ih => exact ih
  | expand hd ih => exact ih

theorem Course.expanding (h : Course params c d) : d.expanding = c.expanding := by
  induction h with
  | refl => rfl
  | trans _ _ ih ih' => exact ih'.trans ih
  | effect => rfl
  | build => rfl
  | reference => rfl
  | aside => rfl
  | reject => rfl
  | remember => rfl
  | link t hl h hd ih => exact ih
  | attributes s h hd ih => exact ih
  | lock hd ih => exact ih
  | fresh hd ih => exact ih
  | expand hd ih => rw [ih, List.erase_cons_head]

end

/-! ## The searches of a compiler -/

/-- Everything that a compiler may ask for: the operations, and the parts of them that are offered
by themselves. -/
inductive Inquiry where
  | operation (op : Operation)
  | checkName (list : NodeId) (index : Nat) (id : NodeId) (params : Option NodeId)
      (mode : SearchMode)
  | findInExtends (link field : NodeId) (t : Tally) (params : Option NodeId) (mode : SearchMode)
  | classDepth (class_ type : NodeId) (depth : Int32)
  | findLabels (owner n : NodeId)
  | resolveInternalType (n : NodeId) (name : String)

namespace Inquiry

/-- The list of arguments that an inquiry is about. -/
def params : Inquiry → Option NodeId
  | operation op => op.params
  | checkName _ _ _ params _ => params
  | findInExtends _ _ _ params _ => params
  | _ => none

/-- The inquiry as a program, its answer forgotten. -/
def run : Inquiry → Search Unit
  | operation op => op.run
  | checkName list index id params mode => do
      let _ ← Search.run (Search.checkName · list index id params mode)
  | findInExtends link field t params mode => do
      let _ ← Search.run (Search.findInExtends · link field t params mode)
  | classDepth c type depth => do
      let _ ← Search.run (Search.classDepth · c type depth)
  | findLabels owner n => Search.findLabels owner n
  | resolveInternalType n name => do
      let _ ← Search.run (Search.resolveInternalType · n name)

theorem follows (q : Inquiry) : Follows q.params q.run := by
  cases q with
  | operation op => exact op.follows
  | checkName list index id params mode =>
    exact .bind (follows_run fun _ h => follows_checkName h list index id mode) fun _ => .pure
  | findInExtends link field t params mode =>
    exact .bind (follows_run fun _ h => follows_findInExtends h link field t mode) fun _ => .pure
  | classDepth c type depth =>
    exact .bind (follows_run fun _ h => follows_classDepth h c type depth) fun _ => .pure
  | findLabels owner n => exact follows_findLabels owner n
  | resolveInternalType n name =>
    exact .bind (follows_run fun _ h => follows_resolveInternalType h n name) fun _ => .pure

/-- The inquiries that collect no rejections for their caller: those for names, members, types and
attributes, and those that go through an import. -/
def isDiscreet : Inquiry → Bool
  | operation (.resolveName ..) => true
  | operation (.resolveField ..) => true
  | operation (.findField ..) => true
  | operation (.checkImport ..) => true
  | operation (.linkType _) => true
  | operation (.hasAttribute ..) => true
  | _ => false

theorem discreet {q : Inquiry} (h : q.isDiscreet = true) : Discreet q.run := by
  cases q with
  | operation op =>
    cases op with
    | resolveName => exact .bind (discreet_run fun _ _ => discreet_resolveName ..) fun _ => .pure
    | resolveField =>
      exact .bind (discreet_run fun _ h => discreet_resolveField h ..) fun _ => .pure
    | findField => exact .bind (discreet_run fun _ _ => discreet_findField ..) fun _ => .pure
    | checkImport =>
      exact .bind (discreet_run fun _ h => discreet_checkImport h ..) fun _ => .pure
    | linkType => exact discreet_run fun _ h => discreet_linkType h _
    | hasAttribute =>
      exact .bind (discreet_run fun _ h => discreet_hasAttribute h ..) fun _ => .pure
    | importPackage => cases h
    | matchType => cases h
    | checkFunctionWithParams => cases h
  | checkName => cases h
  | findInExtends => cases h
  | classDepth => cases h
  | findLabels => cases h
  | resolveInternalType => cases h

end Inquiry

/-- What was taken between two contexts was given back. -/
structure Balanced (c d : Context) : Prop where
  /-- Every node that was there has as many locks as before. -/
  locks : ∀ n : NodeId, n.index < c.arena.size → d.arena.lockCount n = c.arena.lockCount n
  /-- No node that is new has a lock. -/
  fresh : ∀ n : NodeId, c.arena.size ≤ n.index → d.arena.lockCount n = 0
  /-- The same variables are being worked out. -/
  expanding : d.expanding = c.expanding

theorem Course.balanced {params : Option NodeId} {c d : Context} (h : Course params c d)
    (hc : c.arena.Consistent) : Balanced c d where
  locks n _ := congrFun h.lockCount n
  fresh n hn := (congrFun h.lockCount n).trans (Arena.lockCount_of_size_le hc hn)
  expanding := h.expanding

/-- **A search gives back what it takes.**  Whether it answers or fails, the locks and the variables
being worked out are as before; and unless it is meant to collect rejections for its caller, so are
the rejections.

A counter of locks has 32 bits, so this is about contexts whose counters leave room for the locks
that nest in the search. -/
theorem inquiry_balanced (q : Inquiry) (c : Context) (hc : c.arena.Consistent) :
    Balanced c (q.run.exec c).2 ∧
      (q.isDiscreet = true → (q.run.exec c).2.rejections = c.rejections) :=
  ⟨(q.follows.course c hc).balanced hc, fun h => (Inquiry.discreet h).rejections c⟩

/-! ### A call resolved in the middle of other searches -/

/-- The context of the call of `f` while its list of directives is locked, the attributes of a
variable are being worked out and a candidate was rejected. -/
def nestedContext : Context :=
  { matchContext with
    arena := matchContext.arena.lock ⟨1⟩
    expanding := [⟨9⟩]
    rejections := Rejections.none.add .private_ }

/-- The list of directives, which the call locks once more on its way, has one lock in the end. -/
theorem inquiry_balanced_nested :
    nestedContext.arena.Consistent ∧
      Balanced nestedContext ((Inquiry.operation matchCall).run.exec nestedContext).2 ∧
      ((Inquiry.operation matchCall).run.exec nestedContext).2.rejections
        = nestedContext.rejections ∧
      ((Inquiry.operation matchCall).run.exec nestedContext).2.arena.lockCount ⟨1⟩ = 1 := by
  have hc : nestedContext.arena.Consistent := consistent_matchContext.lock ⟨1⟩
  obtain ⟨hbalanced, hrejections⟩ := inquiry_balanced (.operation matchCall) nestedContext hc
  refine ⟨hc, hbalanced, hrejections rfl, ?_⟩
  exact (hbalanced.locks ⟨1⟩ (by decide +kernel)).trans (by decide +kernel)

end Search

end SymbolTree
