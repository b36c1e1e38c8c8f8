import SymbolTree.Proofs.Arena.Deed
import SymbolTree.Proofs.Search.Visible.Declaration

/-!
# Names without arguments stand for declarations that may be seen

Whatever way a search takes to a declaration — the lists around a name, the classes that a class
inherits from, the object of a `with` or of a member expression, an import — the declaration may be
seen from the name that was asked for.

## Main statements

* `Search.visibleCalls_answer` — requests without arguments answer with declarations that the name
  may see.
* `Search.resolveName_visible` — a private, protected or internal declaration to which a name is
  resolved may be seen from that name.
-/

set_option autoImplicit false
namespace SymbolTree

namespace Search

variable {call : Call} {c d : Context} {id field : NodeId}

/-! ## Scopes -/

/-- However the search in a scope ends, what was found may be seen. -/
def Step.Fair (id : NodeId) : Step → Context → Prop
  | .ended o, c => Shown id o c
  | .next t, c => t.Holds c id

/-- A fair step stays fair. -/
theorem Step.Fair.retains {s : Step} (h : s.Fair id c) (hd : Retains c d) : s.Fair id d := by
  cases s with
  | ended o => exact Shown.retains h hd
  | next t => exact Tally.Holds.retains h hd

/-- The end of a scan is fair if what it found may be seen. -/
theorem Step.fair_ofScan {r : Bool × Tally} (h : r.2.Holds c id) : (Step.ofScan r).Fair id c := by
  obtain ⟨_ | _, t⟩ := r
  · exact h
  · exact h

variable {mode : SearchMode}

theorem retaining_askChildren (hcall : VisibleCalls call) (list : NodeId) (places : List Nat)
    {t : Tally}
    (ht : t.Holds c id) :
    Retaining c (askChildren call ⟨id, none, mode⟩ list places t) fun s d => s.Fair id d :=
  (retaining_scan (P := fun t d => t.Holds d id)
    (fun index _ _ ht => retaining_tryChild hcall list id mode index ht) places ht).bind
      fun _ _ _ hr => .pure (Step.fair_ofScan hr)

theorem retaining_inDirectives (hcall : VisibleCalls call) (list : NodeId) (offset : Nat)
    {t : Tally}
    (ht : t.Holds c id) :
    Retaining c (inDirectives call ⟨id, none, mode⟩ list offset t) fun s d => s.Fair id d := by
  refine .arena_bind ?_
  dsimp only
  split
  · exact .internal_bind
  · exact retaining_askChildren hcall list _ ht

/-- The object of a `with` is taken for a class, whose members are guarded. -/
theorem retaining_inWith (hcall : VisibleCalls call) (list : NodeId) {t : Tally}
    (ht : t.Holds c id) :
    Retaining c (inWith call ⟨id, none, mode⟩ list t) fun s d => s.Fair id d := by
  refine .arena_bind ?_
  split
  · split
    · exact .pure ht
    · refine (retaining_resolveField hcall _ id mode).bind fun o d hd ho => ?_
      cases o with
      | none => exact .pure (ht.retains hd)
      | some found =>
        refine (Retaining.setFlag id _).bind fun _ e he _ => ?_
        dsimp only
        split
        · exact .internal_bind
        · exact .pure (Shown.retains ho he)
  · exact .pure ht

/-- Parameters are open to every name that reaches them. -/
theorem retaining_inFunction (hcall : VisibleCalls call) (list : NodeId) {t : Tally}
    (ht : t.Holds c id) :
    Retaining c (inFunction call ⟨id, none, mode⟩ list t) fun s d => s.Fair id d := by
  refine .ask_bind (fun _ _ => trivial) fun b _ => ?_
  split
  · exact .pure ht
  · refine .of_start fun hd => .arena_bind ?_
    split
    · exact .pure ht
    · exact .withLock (.lock · _) (fun _ =>
        .arena_bind (retaining_askChildren hcall _ _ (ht.retains (.lock hd _))))
        fun _ _ _ he _ h => h.retains he

theorem retaining_inCatch (hcall : VisibleCalls call) (list : NodeId) {t : Tally}
    (ht : t.Holds c id) :
    Retaining c (inCatch call ⟨id, none, mode⟩ list t) fun s d => s.Fair id d := by
  refine .arena_bind ?_
  split
  · exact .pure ht
  · split
    · exact .pure ht
    · exact retaining_askChildren hcall _ _ ht

/-- The values of an enumeration are open to every name. -/
theorem retaining_inEnum {list : NodeId} (hk : c.arena.kind list = .enum) (name : String)
    {t : Tally}
    (ht : t.Holds c id) : Retaining c (inEnum list name t) fun s d => s.Fair id d := by
  refine .of_start fun hc => .arena_bind ?_
  split
  · exact .pure ht
  · next v hv =>
    have hfound : Found c id v := .of_enum hc.consistent hk hv
    exact (Retaining.setFlag v _).bind fun _ _ hd _ => .pure (hd.found hfound).shown

/-- What a class inherits has passed the check where it was found. -/
theorem retaining_inClass (hcall : VisibleCalls call) (list : NodeId) {t : Tally}
    (ht : t.Holds c id) :
    Retaining c (inClass call ⟨id, none, mode⟩ list t) fun s d => s.Fair id d := by
  refine (retaining_findInExtends hcall list mode ht).bind fun r d _ hr => ?_
  obtain ⟨found, t⟩ := r
  dsimp only
  split
  · exact .arena_bind (.pure (Step.fair_ofScan hr))
  · exact .pure hr

/-- **One scope**: whatever its kind, the step that it answers is fair. -/
theorem retaining_inScope (hcall : VisibleCalls call) (list : NodeId) (offset : Nat) {t : Tally}
    (ht : t.Holds c id) :
    Retaining c (inScope call ⟨id, none, mode⟩ list offset t) fun s d => s.Fair id d := by
  refine .of_start fun hc => .arena_bind ?_
  dsimp only
  split
  · next henum =>
    simp only [Bool.and_eq_true, decide_eq_true_eq] at henum
    have hlist : Found c id list := .of_kind
      (Arena.lt_size_of_kind_ne (by rw [henum.1]; decide)) (by rw [henum.1]; decide)
    exact (Retaining.setFlag list _).bind fun _ _ hd _ => .pure (hd.found hlist).shown
  · have ht' := ht.retains (.lock hc list)
    refine .withLock (.lock · _) (fun _ => ?_) fun _ _ _ he _ h => h.retains he
    split
    · exact retaining_inDirectives hcall list offset ht'
    · exact retaining_askChildren hcall list _ ht'
    · exact retaining_inWith hcall list ht'
    · exact retaining_inFunction hcall list ht'
    · exact retaining_askChildren hcall list _ ht'
    · exact retaining_inCatch hcall list ht'
    · next hk => exact retaining_inEnum (by exact hk) _ ht'
    · exact retaining_inClass hcall list ht'
    · exact retaining_inClass hcall list ht'
    · exact .internal

/-- Without arguments no functions were gathered, so there is nothing to choose from. -/
theorem retaining_conclude (t : Tally) :
    Retaining c (conclude call ⟨id, none, mode⟩ t) fun o _ => o = none := by
  unfold conclude
  extract_lets go
  split
  · exact .internal_bind
  · exact (Proceeds.reportRejections id).bind fun _ _ _ _ => .pure rfl

/-- The modules that declare things for all programs are scopes like others. -/
theorem retaining_walkImports (hcall : VisibleCalls call) (imports : List (Context → Option NodeId))
    {t : Tally} (ht : t.Holds c id) :
    Retaining c (walkImports call ⟨id, none, mode⟩ imports t) fun o d => Shown id o d := by
  induction imports generalizing c t with
  | nil => exact (retaining_conclude t).mono fun _ _ _ h => h ▸ shown_none
  | cons import_ imports ih =>
    refine .get_bind ?_
    split
    · exact ih ht
    · refine (retaining_inScope hcall _ 0 ht).bind fun s d _ hs => ?_
      cases s with
      | ended answer => exact .pure hs
      | next t => exact ih hs

/-- By induction on the scopes that are left to be asked. -/
theorem retaining_walkScopes (hcall : VisibleCalls call) (fuel : Nat) (n : NodeId) {t : Tally}
    (ht : t.Holds c id) :
    Retaining c (walkScopes call ⟨id, none, mode⟩ fuel n t) fun o d => Shown id o d := by
  induction fuel generalizing c n t with
  | zero => exact .throw trivial
  | succ fuel ih =>
    refine .arena_bind ?_
    split
    · exact .fail trivial
    · split
      · exact retaining_walkImports hcall _ ht
      · refine (retaining_inScope hcall _ _ ht).bind fun s d _ hs => ?_
        cases s with
        | ended answer => exact .pure hs
        | next t => exact ih _ hs

/-! ## Names and members -/

/-- The name that is looked for: the reference itself, unless it was resolved before, or the second
part of a member expression. -/
def Asks (a : Arena) (reference id : NodeId) : Prop :=
  a.kind reference ≠ .member ∧ a.typeNode reference = none ∧ id = reference ∨
    a.kind reference = .member ∧ ∃ object, a.children reference = [object, id]

/-- The object may be anything; the member is seen from the name after the dot. -/
theorem retaining_resolveMember (hcall : VisibleCalls call) (list : NodeId)
    {member object field : NodeId}
    (hm : c.arena.children member = [object, field]) (mode : SearchMode) :
    Retaining c (resolveMember call list member none mode) fun o d => Shown field o d := by
  refine .arena_bind ?_
  rw [hm]
  refine (hcall.resolveName c list object mode).bind fun o d _ _ => ?_
  cases o with
  | none => exact .pure shown_none
  | some scope =>
    refine .of_start fun hd => .arena_bind ?_
    split
    · exact (retaining_findField hcall scope field 0 mode).bind fun found _ _ h =>
        retaining_selectMember found h
    · next hk =>
      split
      · exact .pure shown_none
      · next v hv =>
        have hfound : Found d field v := .of_enum hd.consistent hk hv
        exact (Retaining.setFlag v _).bind fun _ _ he _ => .pure (he.found hfound).shown
    · exact retaining_resolveField hcall scope field mode

/-- A plain name may see what it stands for, and so may the last name of a member expression. -/
theorem retaining_resolveName (hcall : VisibleCalls call) (list reference : NodeId)
    (mode : SearchMode) :
    Retaining c (resolveName call list reference none mode) fun o d => ∀ n, o = some n →
      n.index < d.arena.size ∧ ∀ id, Asks c.arena reference id → Found d id n := by
  refine .withFreshRejections (fun _ => .arena_bind ?_) fun _ _ _ he _ h n hn =>
    ⟨he.lt (h n hn).1, fun id hid => he.found ((h n hn).2 id hid)⟩
  split
  · next hk =>
    have hchildren : ∀ id object, c.arena.children reference = [object, id] →
        ∀ id', Asks c.arena reference id' → id' = id := by
      rintro id object h id' (⟨hk', -⟩ | ⟨-, object', h'⟩)
      · exact absurd hk hk'
      · rw [h] at h'
        cases h'
        rfl
    match hm : c.arena.children reference with
    | [object, field] =>
      refine (retaining_resolveMember hcall list (by exact hm) mode).mono fun o d _ h n hn => ?_
      exact ⟨(h n hn).lt_size, fun id hid => hchildren field object hm id hid ▸ h n hn⟩
    | [] | [_] | _ :: _ :: _ :: _ =>
      rw [resolveMember]
      refine .arena_bind ?_
      dsimp only
      rw [hm]
      exact .internal
  · next hk =>
    split
    · exact .internal
    · split
      · next resolved htype =>
        refine .pure fun n hn => ?_
        cases hn
        refine ⟨Arena.lt_size_of_live htype, ?_⟩
        rintro id (⟨-, hnone, -⟩ | ⟨hk', -⟩)
        · have htype' : c.arena.typeNode reference = some resolved := htype
          rw [hnone] at htype'
          cases htype'
        · exact absurd hk' hk
      · refine (retaining_walkScopes hcall _ _ (t := {}) nofun).mono fun o d _ h n hn => ?_
        refine ⟨(h n hn).lt_size, ?_⟩
        rintro id (⟨-, -, rfl⟩ | ⟨hk', -⟩)
        · exact h n hn
        · exact absurd hk' hk

/-! ## All searches -/

/-- By induction on the calls inside each other, with one case for each kind of request that is made
without arguments. -/
theorem visibleCalls_answer (fuel : Nat) : VisibleCalls (answer fuel) := by
  induction fuel with
  | zero =>
    exact ⟨faithful_answer 0, fun _ _ _ _ => .throw trivial, fun _ _ _ => .throw trivial,
      fun _ _ _ => .throw trivial, fun _ _ _ _ _ _ => .throw trivial,
      fun _ _ _ _ _ _ => .throw trivial⟩
  | succ fuel ih =>
    exact {
      faithful := faithful_answer (fuel + 1)
      resolveName := fun c list id mode =>
        (retaining_resolveName ih list id mode).mono fun _ _ _ h n hn => (h n hn).1
      effectiveAttributes := fun c n hn => ⟨fun hc =>
        (staysRight_answer_effective hc hn (fuel + 1)).mono (fun _ h => h) fun _ _ h =>
          ⟨.of_course h.1 h.2.1, h.2.2⟩⟩
      isDerivedFrom := fun c derived base => retaining_isDerivedFrom ih derived base
      findMember := fun c link field t mode ht => retaining_findMember ih link mode ht
      findInList := fun c list field t mode ht => retaining_findInList ih list mode ht }

/-- **A name is resolved only to what it may see.**  Nothing is remembered about attributes in the
beginning, and all attribute lists, also those of modules that are loaded on the way, hold only
keywords and names of attributes. -/
theorem resolveName_visible (c d : Context) (list reference id n : NodeId) (mode : SearchMode)
    (hc : c.arena.Consistent) (hhoused : c.arena.Housed) (hcache : c.attributeCache = [])
    (hid : Asks c.arena reference id)
    (hr : (run (resolveName · list reference none mode)).exec c = (.ok (some n), d))
    (hbuiltIn : BuiltIn d) (hn : d.arena.Guarded n) (s : AttributeSet)
    (hs : d.arena.Effective n s) : d.arena.Permits id n s := by
  rw [exec_run] at hr
  obtain ⟨hretains, hfound⟩ :=
    ((retaining_resolveName (visibleCalls_answer (fuel c)) list reference mode).yields
    ⟨hc, hhoused⟩).of_ok rfl hr
  obtain ⟨r, hlookup, hpermits⟩ := ((hfound n rfl).2 id hid).seen hn
  have hagrees := hretains.agrees hcache hbuiltIn hlookup hs
  refine ⟨fun h => hpermits.ofPrivate ?_, fun h => hpermits.ofProtected ?_,
    fun h => hpermits.ofInternal ?_⟩
  · rw [hagrees .private_ (by decide), h]
  · rw [hagrees .protected_ (by decide), h]
  · rw [hagrees .internal (by decide), h]

/-- The requests that make a program with two classes.  The first declares `x` in a protected `var`;
the second extends the first and uses `x`. -/
def memberHistory : List Command :=
  [.create .program {}, .create .directiveList {}, .create .class_ {}, .create .directiveList {},
   .create .var {}, .create .variable_ {}, .create .class_ {}, .create .extends_ {},
   .create .identifier {}, .create .directiveList {}, .create .identifier {},
   .setText ⟨2⟩ "B", .setText ⟨5⟩ "x", .setText ⟨6⟩ "D", .setText ⟨8⟩ "B", .setText ⟨10⟩ "x",
   .setAttribute ⟨4⟩ .protected_ true,
   .appendChild ⟨0⟩ ⟨1⟩, .appendChild ⟨1⟩ ⟨2⟩, .appendChild ⟨2⟩ ⟨3⟩, .appendChild ⟨3⟩ ⟨4⟩,
   .appendChild ⟨4⟩ ⟨5⟩, .appendChild ⟨1⟩ ⟨6⟩, .appendChild ⟨6⟩ ⟨7⟩, .appendChild ⟨7⟩ ⟨8⟩,
   .appendChild ⟨6⟩ ⟨9⟩, .appendChild ⟨9⟩ ⟨10⟩]

/-- The context of that program. -/
def memberContext : Context := { arena := after memberHistory, parser := fun _ => .rejected }

/-- The context that the search for `x` leaves. -/
def memberContextAfter : Context :=
  ((run (resolveName · ⟨10⟩ ⟨10⟩ none {})).exec memberContext).2

/-- The second class sees the protected variable of the first. -/
theorem resolveName_visible_protected :
    (run (resolveName · ⟨10⟩ ⟨10⟩ none {})).exec memberContext
      = (.ok (some ⟨5⟩), memberContextAfter) ∧
    memberContextAfter.arena.SeesProtected ⟨10⟩ ⟨5⟩ := by
  have hconsistent : memberContext.arena.Consistent := by
    dsimp only [memberContext]
    exact after_invariant (I := Arena.Consistent) Arena.consistent_empty Command.keeps_consistent
      memberHistory
  have hnone := Arena.forall_node (a := memberContext.arena) (P := fun d => d.attributeNode = none)
    (by decide +kernel) (by decide)
  have hnoneAfter := Arena.forall_node (a := memberContextAfter.arena)
    (P := fun d => d.attributeNode = none) (by decide +kernel) (by decide)
  have hbuiltIn : BuiltIn memberContextAfter := by
    intro n
    rw [Arena.BuiltIn, Arena.attributeEntries, Arena.attributeNode, hnoneAfter n]
    exact fun e he => absurd he List.not_mem_nil
  have hanswer : ((run (resolveName · ⟨10⟩ ⟨10⟩ none {})).exec memberContext).1
      = .ok (some ⟨5⟩) := eq_ok_of_toOption (by decide +kernel)
  have hrun : (run (resolveName · ⟨10⟩ ⟨10⟩ none {})).exec memberContext
      = (.ok (some ⟨5⟩), memberContextAfter) := by
    rw [← hanswer, memberContextAfter]
  -- each node down to the variable stands below the one made before it
  have hchain : ∀ i < 5, memberContextAfter.arena.kind ⟨i + 1⟩ ≠ .program ∧
      memberContextAfter.arena.kind ⟨i + 1⟩ ≠ .package ∧
      memberContextAfter.arena.parent ⟨i + 1⟩ = some ⟨i⟩ := by decide +kernel
  have hbelow : ∀ i s, i < 5 → memberContextAfter.arena.Effective ⟨i⟩ s →
      memberContextAfter.arena.Effective ⟨i + 1⟩ _ := fun i s hi hs =>
    .inherited (hchain i hi).1 (hchain i hi).2.1 (hchain i hi).2.2 hs
  have hlist := hbelow 0 _ (by decide) (.program (by decide +kernel))
  have hclass := hbelow 1 _ (by decide) hlist
  have hbody := hbelow 2 _ (by decide) hclass
  have hvar := hbelow 3 _ (by decide) hbody
  have hx := hbelow 4 _ (by decide) hvar
  have hpermits := resolveName_visible memberContext memberContextAfter ⟨10⟩ ⟨10⟩ ⟨10⟩ ⟨5⟩ {}
    hconsistent (fun n l hl => by rw [hnone n] at hl; cases hl) rfl
    (.inl ⟨by decide +kernel, by decide +kernel, rfl⟩) hrun hbuiltIn
    (.inr (.inr ⟨by decide +kernel, ⟨4⟩, by decide +kernel, by decide +kernel⟩)) _ hx
  exact ⟨hrun, hpermits.ofProtected (by decide +kernel)⟩

end Search

end SymbolTree
