import SymbolTree.Proofs.Arena.Deed
import SymbolTree.Proofs.Search.Climbing
import SymbolTree.Proofs.Search.Unhindered.Declaration
import SymbolTree.Proofs.Search.Yields

/-!
# Names pass the locks

A name that is looked for without arguments in a tidy tree, and the attributes of a declaration in
it, are never refused because of a lock that the search itself took.

The two places where this does not hold outside of tidy trees are values of enumerations, which are
marked as used although they may be attributes that are being expanded, and packages, which are
marked as used by the import of a type in one of their own functions.

## Main statements

* `Search.unhinderedCalls_answer` — requests without arguments are not refused because of a lock.
* `Search.unhindered_by_locks` — neither are names and attributes, if no node is locked before.
* `Search.hindered_by_locks` — with enumerations or imports it may happen.
-/

set_option autoImplicit false
namespace SymbolTree

namespace Search

variable {call : Call} {c d : Context} {id : NodeId} {mode : SearchMode}

/-! ## Scopes -/

/-- A search that goes on has found nothing but what may be found in a body. -/
def Step.Declared : Step → Context → Prop
  | .ended _, _ => True
  | .next t, c => t.Declared c

theorem Step.Declared.leadsTo {s : Step} (h : s.Declared c) (hd : c.arena.LeadsTo d.arena) :
    s.Declared d := by
  cases s with
  | ended o => trivial
  | next t => exact Tally.Declared.leadsTo h hd

theorem unhindered_askChildren (hcall : UnhinderedCalls call) (list : NodeId) (places : List Nat)
    (hid : (c.arena.kind id).isClass = false) {t : Tally} (ht : t.Declared c) :
    Unhindered c (askChildren call ⟨id, none, mode⟩ list places t) fun s d => s.Declared d := by
  have hscan : Unhindered c (scan (tryChild call list id none mode) places t) fun r d =>
      (Step.ofScan r).Declared d := by
    refine unhindered_scan _ (fun index _ d t hd ht => ?_) ht
    refine (unhindered_tryChild hcall list index (hd.not_isClass hid) t).mono fun r e he hr => ?_
    rcases hr with rfl | ⟨m, rfl, -⟩
    · exact Tally.Declared.leadsTo ht he
    · trivial
  exact hscan.bind fun r d _ hr => .pure hr

theorem unhindered_inDirectives (hcall : UnhinderedCalls call) (list : NodeId) (offset : Nat)
    (hid : (c.arena.kind id).isClass = false) {t : Tally} (ht : t.Declared c) :
    Unhindered c (inDirectives call ⟨id, none, mode⟩ list offset t) fun s d => s.Declared d := by
  refine .arena_bind ?_
  dsimp only
  split
  · exact .internal_bind
  · exact unhindered_askChildren hcall list _ hid ht

theorem unhindered_inWith (hcall : UnhinderedCalls call) (list : NodeId)
    (hid : (c.arena.kind id).isClass = false) {t : Tally} (ht : t.Declared c) :
    Unhindered c (inWith call ⟨id, none, mode⟩ list t) fun s d => s.Declared d := by
  refine .arena_bind ?_
  split
  · split
    · exact .pure ht
    · refine (passes_resolveField hcall _ id).bind fun o d hd _ => ?_
      cases o with
      | none => exact .pure (ht.leadsTo hd)
      | some found =>
        refine (Unhindered.setFlag (Kind.isHeld_of_accepts_name (.inr rfl)
          (hd.not_isClass hid))).bind fun _ e _ _ => ?_
        dsimp only
        split
        · exact .internal_bind
        · exact .pure trivial
  · exact .pure ht

theorem unhindered_inFunction (hcall : UnhinderedCalls call) (list : NodeId)
    (hid : (c.arena.kind id).isClass = false) {t : Tally} (ht : t.Declared c) :
    Unhindered c (inFunction call ⟨id, none, mode⟩ list t) fun s d => s.Declared d := by
  refine .ask_bind (fun _ => Arena.not_isLock_hasAttribute) fun b _ => ?_
  split
  · exact .pure ht
  · refine .arena_bind ?_
    split
    · exact .pure ht
    · next parameters hparameters =>
      have hk : c.arena.kind parameters = .parameters := by
        simpa using List.find?_some hparameters
      exact Unhindered.withLock (by rw [hk]; rfl)
        (fun d hd => .arena_bind (unhindered_askChildren hcall _ _
        (hd.not_isClass hid) (ht.leadsTo hd))) fun _ _ _ he h => h.leadsTo he

theorem unhindered_inCatch (hcall : UnhinderedCalls call) (list : NodeId)
    (hid : (c.arena.kind id).isClass = false) {t : Tally} (ht : t.Declared c) :
    Unhindered c (inCatch call ⟨id, none, mode⟩ list t) fun s d => s.Declared d := by
  refine .arena_bind ?_
  split
  · exact .pure ht
  · split
    · exact .pure ht
    · exact unhindered_askChildren hcall _ _ hid ht

theorem unhindered_inClass (hcall : UnhinderedCalls call) {list : NodeId}
    (hlist : (c.arena.kind list).isClass = true) (hid : (c.arena.kind id).isClass = false)
    {t : Tally} (ht : t.Declared c) :
    Unhindered c (inClass call ⟨id, none, mode⟩ list t) fun s d => s.Declared d := by
  refine (unhindered_findInExtends hcall (Kind.isMember_of_isClass hlist) hid ht).bind
    fun r d _ hr => ?_
  obtain ⟨found, t⟩ := r
  dsimp only
  split
  · exact .arena_bind (.pure trivial)
  · exact .pure hr

/-- Every scope in which something is looked for may be locked. -/
theorem unhindered_inScope (hcall : UnhinderedCalls call) (list : NodeId) (offset : Nat)
    (hid : (c.arena.kind id).isClass = false) {t : Tally} (ht : t.Declared c) :
    Unhindered c (inScope call ⟨id, none, mode⟩ list offset t) fun s d => s.Declared d := by
  refine .of_start fun hc => .arena_bind ?_
  dsimp only
  split
  · next henum =>
    simp only [Bool.and_eq_true, decide_eq_true_eq] at henum
    exact absurd henum.1 (hc.tidy.noEnum list)
  · have hlock : ∀ {p : Search Step}, (c.arena.kind list).isHeld = true →
        (∀ d, c.arena.LeadsTo d.arena → (d.arena.kind id).isClass = false → t.Declared d →
          Unhindered d p fun s e => s.Declared e) →
        Unhindered c (withLock list p) fun s d => s.Declared d := fun hk hp =>
      Unhindered.withLock hk (fun d hd => hp d hd (hd.not_isClass hid) (ht.leadsTo hd))
        fun _ _ _ he h => h.leadsTo he
    split
    · next hk =>
      exact hlock (by rw [hk]; rfl) fun _ _ hid ht =>
        unhindered_inDirectives hcall list offset hid ht
    · next hk =>
      exact hlock (by rw [hk]; rfl) fun _ _ hid ht => unhindered_askChildren hcall list _ hid ht
    · next hk => exact hlock (by rw [hk]; rfl) fun _ _ hid ht => unhindered_inWith hcall list hid ht
    · next hk =>
      exact hlock (by rw [hk]; rfl) fun _ _ hid ht => unhindered_inFunction hcall list hid ht
    · next hk =>
      exact hlock (by rw [hk]; rfl) fun _ _ hid ht => unhindered_askChildren hcall list _ hid ht
    · next hk =>
      exact hlock (by rw [hk]; rfl) fun _ _ hid ht => unhindered_inCatch hcall list hid ht
    · next hk => exact absurd hk (hc.tidy.noEnum list)
    · next hk =>
      exact hlock (by rw [hk]; rfl) fun _ hd hid ht =>
        unhindered_inClass hcall (by rw [hd.kind hk (by decide)]; rfl) hid ht
    · next hk =>
      exact hlock (by rw [hk]; rfl) fun _ hd hid ht =>
        unhindered_inClass hcall (by rw [hd.kind hk (by decide)]; rfl) hid ht
    · exact Unhindered.withLock_internal

theorem passes_conclude (t : Tally) : Passes c (conclude call ⟨id, none, mode⟩ t) := by
  unfold conclude
  extract_lets go
  split
  · exact .internal_bind
  · exact (Proceeds.reportRejections id).bind fun _ _ _ _ => .pure trivial

theorem passes_walkImports (hcall : UnhinderedCalls call) (imports : List (Context → Option NodeId))
    (hid : (c.arena.kind id).isClass = false) {t : Tally} (ht : t.Declared c) :
    Passes c (walkImports call ⟨id, none, mode⟩ imports t) := by
  induction imports generalizing c t with
  | nil => exact passes_conclude t
  | cons import_ imports ih =>
    refine .get_bind ?_
    split
    · exact ih hid ht
    · refine (unhindered_inScope hcall _ 0 hid ht).bind fun s d hd hs => ?_
      cases s with
      | ended answer => exact .pure trivial
      | next t => exact ih (hd.not_isClass hid) hs

/-- The way to a scope is not a matter of locks. -/
theorem LeadsOut.not_isLock {e : CompileError} (h : LeadsOut e) :
    (Stop.failed e).isLock = false := by
  rcases h with ⟨r, rfl⟩ | rfl <;> rfl

theorem passes_walkScopes (hcall : UnhinderedCalls call) (fuel : Nat) (n : NodeId)
    (hid : (c.arena.kind id).isClass = false) {t : Tally} (ht : t.Declared c) :
    Passes c (walkScopes call ⟨id, none, mode⟩ fuel n t) := by
  induction fuel generalizing c n t with
  | zero => exact .throw rfl
  | succ fuel ih =>
    refine .arena_bind ?_
    split
    · next e he => exact .throw (leadsOut_of_enclosingScope he).not_isLock
    · split
      · exact passes_walkImports hcall _ hid ht
      · refine (unhindered_inScope hcall _ _ hid ht).bind fun s d hd hs => ?_
        cases s with
        | ended answer => exact .pure trivial
        | next t => exact ih _ (hd.not_isClass hid) hs

/-! ## Names and members -/

theorem passes_resolveMember (hcall : UnhinderedCalls call) (list : NodeId) {member : NodeId}
    (hm : c.arena.kind member = .member) : Passes c (resolveMember call list member none mode) := by
  refine .of_start fun hc => .arena_bind ?_
  split
  · next object field hchildren =>
    have hfield := hc.tidy.members member field hm (by rw [hchildren]; simp)
    refine (hcall.resolveName c list object mode).bind fun o d hd _ => ?_
    cases o with
    | none => exact .pure trivial
    | some scope =>
      refine .arena_bind ?_
      split
      · next hk =>
        exact (passes_findField hcall (by rw [hk]; rfl) (hd.not_isClass hfield) 0).bind
          fun found _ _ _ => passes_selectMember found
      · next hk => exact absurd hk (hd.orderly.tidy.noEnum scope)
      · exact passes_resolveField hcall scope field
  · exact .internal

theorem passes_resolveName (hcall : UnhinderedCalls call) (list reference : NodeId)
    (mode : SearchMode) :
    Passes c (resolveName call list reference none mode) := by
  refine .withFreshRejections (fun _ => .arena_bind ?_) fun _ _ _ _ _ => id
  split
  · next hk => exact passes_resolveMember hcall list hk
  · split
    · exact .internal
    · next hname =>
      have hid : (c.arena.kind reference).isClass = false :=
        Kind.not_isClass_of_isName (by simpa using hname)
      split
      · exact .pure trivial
      · exact passes_walkScopes (c := { c with rejections := Rejections.none }) hcall _ _ hid
          (t := {}) nofun

/-! ## All searches -/

theorem unhinderedCalls_answer (fuel : Nat) : UnhinderedCalls (answer fuel) := by
  induction fuel with
  | zero =>
    exact ⟨fun _ _ _ _ => .throw rfl, fun _ _ => .throw rfl, fun _ _ _ _ => .throw rfl,
      fun _ _ _ => .throw rfl, fun _ _ _ _ _ _ _ _ => .throw rfl,
      fun _ _ _ _ _ _ _ _ => .throw rfl⟩
  | succ fuel ih =>
    exact {
      resolveName := fun c list id mode => passes_resolveName ih list id mode
      effectiveAttributes := fun c n => passes_effectiveAttributes ih n
      addListed := fun c n entry s => passes_addListed ih n entry s
      isDerivedFrom := fun c derived base => passes_isDerivedFrom ih derived base
      findMember := fun c link field t mode hlink hfield ht =>
        unhindered_findMember ih hlink hfield ht
      findInList := fun c list field t mode hlist hfield ht =>
        unhindered_findInList ih hlist hfield ht }

/-- **A search is not stopped by its own locks.**  In a tree without enumerations and imports where
nothing is locked, looking for a name without arguments or for an attribute of a declaration may
fail, but never because a node is locked. -/
theorem unhindered_by_locks (c : Context) (htidy : c.arena.Tidy)
    (hfree : ∀ n, c.arena.lockCount n = 0) :
    (∀ list reference mode e,
      ((run (resolveName · list reference none mode)).exec c).1 = .error e → e.isLock = false) ∧
    ∀ n t e, ((run (hasAttribute · n t)).exec c).1 = .error e → e.isLock = false := by
  have horderly : c.arena.Orderly := ⟨htidy, fun n hn => by simp [Arena.isLocked, hfree n] at hn⟩
  have hcall := unhinderedCalls_answer (fuel c)
  refine ⟨fun list reference mode e he => ?_, fun n t e he => ?_⟩
  · rw [exec_run] at he
    exact (passes_resolveName hcall list reference mode).not_isLock horderly he
  · rw [exec_run] at he
    exact (passes_hasAttribute hcall n t).not_isLock horderly he

/-! ### Attributes that refer to themselves -/

/-- The requests that make a program with a value `a = a` and a variable with the attribute `a`.
The value is declared below a node of the given kind. -/
def loopHistory (k : Kind) : List Command :=
  [.create .program {}, .create .directiveList {}, .create k {}, .create .variable_ {},
   .create .set {}, .create .identifier {}, .create .var {}, .create .variable_ {},
   .create .attributes {}, .create .identifier {},
   .setText ⟨3⟩ "a", .setText ⟨5⟩ "a", .setText ⟨7⟩ "v", .setText ⟨9⟩ "a",
   .appendChild ⟨0⟩ ⟨1⟩, .appendChild ⟨1⟩ ⟨2⟩, .appendChild ⟨2⟩ ⟨3⟩, .appendChild ⟨3⟩ ⟨4⟩,
   .appendChild ⟨4⟩ ⟨5⟩, .appendChild ⟨1⟩ ⟨6⟩, .appendChild ⟨6⟩ ⟨7⟩, .appendChild ⟨8⟩ ⟨9⟩,
   .setAttributeNode ⟨7⟩ (some ⟨8⟩)]

/-- The context of that program. -/
def loopContext (k : Kind) : Context :=
  { arena := after (loopHistory k), parser := fun _ => .rejected }

theorem consistent_loopContext (k : Kind) : (loopContext k).arena.Consistent :=
  .of_history (loopHistory k) (by rw [loopContext])

/-- Below a `var` the program is tidy. -/
theorem tidy_loopContext : (loopContext .var).arena.Tidy := by
  have hnode := Arena.forall_node (a := (loopContext .var).arena)
    (P := fun d => d.kind ∉ [Kind.enum, .import_, .member, .param, .type] ∧ d.inst = none ∧
      (d.attributeNode = none ∨ d.attributeNode = some ⟨8⟩)) (by decide +kernel) (by decide)
  have hkind : ∀ n k, (loopContext .var).arena.kind n = k →
      k ∉ [Kind.enum, .import_, .member, .param, .type] := fun n k hk => hk ▸ (hnode n).1
  exact {
    consistent := consistent_loopContext .var
    noEnum := fun n hn => absurd (hkind n _ hn) (by decide)
    noImport := fun n hn => absurd (hkind n _ hn) (by decide)
    attributes := fun n l hl => by
      rcases (hnode n).2.2 with h | h
      · rw [h] at hl
        cases hl
      · rw [h] at hl
        cases hl
        decide +kernel
    members := fun m _ hm _ => absurd (hkind m _ hm) (by decide)
    bodies := fun _ p _ _ hp => absurd (hkind p _ hp) (by decide)
    types := fun t _ ht _ => absurd (hkind t _ ht) (by decide)
    linked := fun n t _ ht => by
      rw [(hnode n).2.1] at ht
      cases ht }

/-- A variable that refers to itself is reported, and nothing is refused. -/
theorem unhindered_by_locks_variable :
    ((run (hasAttribute · ⟨7⟩ .static)).exec (loopContext .var)).2.diagnostics.errorCount = 1 ∧
    ∀ n t e, ((run (hasAttribute · n t)).exec (loopContext .var)).1 = .error e →
      e.isLock = false :=
  ⟨by decide +kernel, (unhindered_by_locks (loopContext .var) tidy_loopContext
    (Arena.lockCount_eq_zero (by decide +kernel))).2⟩

/-! ### A package that imports itself -/

/-- The requests that make a program that implements the package `P`.  In the package the type of
the function `x` is the class `T`, and the program uses `x`. -/
def packageHistory : List Command :=
  [.create .program {}, .create .directiveList {}, .create .import_ {}, .create .package {},
   .create .directiveList {}, .create .function {}, .create .type {}, .create .identifier {},
   .create .directiveList {}, .create .class_ {}, .create .identifier {},
   .setText ⟨2⟩ "P", .setText ⟨3⟩ "P", .setText ⟨5⟩ "x", .setText ⟨7⟩ "T", .setText ⟨9⟩ "T",
   .setText ⟨10⟩ "x", .setFlag ⟨2⟩ .importImplements true,
   .appendChild ⟨0⟩ ⟨1⟩, .appendChild ⟨1⟩ ⟨2⟩, .appendChild ⟨1⟩ ⟨3⟩, .appendChild ⟨3⟩ ⟨4⟩,
   .appendChild ⟨4⟩ ⟨5⟩, .appendChild ⟨5⟩ ⟨6⟩, .appendChild ⟨6⟩ ⟨7⟩, .appendChild ⟨4⟩ ⟨8⟩,
   .appendChild ⟨8⟩ ⟨9⟩, .appendChild ⟨1⟩ ⟨10⟩]

/-- The context of that program. -/
def packageContext : Context :=
  { arena := after packageHistory, parser := fun _ => .rejected, program := some ⟨0⟩ }

/-- The search ended at a lock. -/
def endsAtLock {α : Type} : Except Stop α → Bool
  | .error e => e.isLock
  | .ok _ => false

theorem exists_isLock {α : Type} {x : Except Stop α} (h : endsAtLock x = true) :
    ∃ e, x = .error e ∧ e.isLock = true := by
  cases x with
  | error e => exact ⟨e, rfl, h⟩
  | ok x => cases h

/-- Outside of tidy trees a search may be stopped by its own locks.  The value of an enumeration is
locked while its attributes are worked out, and finding it marks it as used; a package is locked
while the type of one of its functions is looked for, and importing the type marks it as used. -/
theorem hindered_by_locks :
    (¬ ∀ c : Context, c.arena.Consistent → (∀ n, c.arena.lockCount n = 0) →
      ∀ n t e, c.arena.isAlive n = true →
        ((run (hasAttribute · n t)).exec c).1 = .error e → e.isLock = false) ∧
    ¬ ∀ c : Context, c.arena.Consistent → (∀ n, c.arena.lockCount n = 0) →
      ∀ list reference mode e, c.arena.isAlive list = true → c.arena.isAlive reference = true →
        ((run (resolveName · list reference none mode)).exec c).1 = .error e →
        e.isLock = false := by
  constructor
  · intro h
    obtain ⟨e, he, hlock⟩ := exists_isLock
      (x := ((run (hasAttribute · ⟨7⟩ .static)).exec (loopContext .enum)).1) (by decide +kernel)
    rw [h (loopContext .enum) (consistent_loopContext .enum)
      (Arena.lockCount_eq_zero (by decide +kernel)) ⟨7⟩ .static e (by decide +kernel) he] at hlock
    cases hlock
  · intro h
    have hconsistent : packageContext.arena.Consistent := by
      dsimp only [packageContext]
      exact after_invariant (I := Arena.Consistent) Arena.consistent_empty
        Command.keeps_consistent packageHistory
    obtain ⟨e, he, hlock⟩ := exists_isLock
      (x := ((run (resolveName · ⟨10⟩ ⟨10⟩ none {})).exec packageContext).1) (by decide +kernel)
    rw [h packageContext hconsistent (Arena.lockCount_eq_zero (by decide +kernel)) ⟨10⟩ ⟨10⟩ {} e
      (by decide +kernel) (by decide +kernel) he] at hlock
    cases hlock

end Search

end SymbolTree
