import SymbolTree.Proofs.Search.Climbing
import SymbolTree.Proofs.Search.Legible
import SymbolTree.Proofs.Search.Lexical.Declaration
import SymbolTree.Proofs.Search.Nearby
import SymbolTree.Proofs.Search.Visible.Scope

/-!
# Who sees an enumeration

The rules for private, protected and internal declarations are checked for functions, classes,
interfaces and the variables of a `var`.  An enumeration and its values (`Arena.Enumerated`) are
found without that check, from wherever they can be named at all
(`Search.enumeration_seen_outside`).

What is left is where the search comes by.  Where no class inherits and no `with` is used, a name
that is no member expression stands for an enumeration of a list around it, so that the owner of the
enumeration lies around the name, or for one that is declared for all programs, which has no owner.
An import is the exception: it does check, and hands on nothing private, and something internal only
to a package.

## Main statement

* `Search.resolveName_enumerated` — from where an enumeration is seen.
-/

set_option autoImplicit false
namespace SymbolTree

/-- Kinds that own the declarations inside them, or end the search for an owner. -/
def Kind.owns (k : Kind) : Bool :=
  [Kind.class_, .interface, .package, .program, .root].contains k

namespace Arena

variable {a b : Arena} {l list n o x : NodeId}

/-- An enumeration, or one of its values. -/
def Enumerated (a : Arena) (n : NodeId) : Prop :=
  a.kind n = .enum ∨ a.kind n = .variable_ ∧ ∃ p, a.parent n = some p ∧ a.kind p = .enum

/-- A node hangs below another with nothing in between that owns declarations. -/
def Leads (a : Arena) : NodeId → NodeId → Prop :=
  Relation.ReflTransGen fun x p => a.parent x = some p ∧ (a.kind x).owns = false

/-- What holds a node lies around a place, or is a program. -/
def Around (a : Arena) (list n : NodeId) : Prop :=
  ∃ l, a.Leads n l ∧ (a.Inside list l ∨ a.kind l = .program)

/-- No class inherits, no object is opened by a `with`, and what a handler handles is no class,
package or program. -/
structure Simple (a : Arena) : Prop where
  /-- There is no `with`. -/
  noWith : ∀ n, a.kind n ≠ .with_
  /-- No class inherits. -/
  noSupers : ∀ n, a.superNames n = []
  /-- What a handler handles owns no declarations. -/
  handlers : ∀ n m, a.kind n = .catch_ → (a.children n).head? = some m → (a.kind m).owns = false

/-- A tree is simple if it has none of what makes it complicated. -/
theorem simple_of_kinds (h : ∀ n, a.kind n ∉ [.with_, .catch_, .extends_, .implements]) :
    a.Simple where
  noWith n hk := h n (by rw [hk]; decide)
  noSupers n := superNames_eq_nil fun clause _ =>
    ⟨fun hk => h clause (by rw [hk]; decide), fun hk => h clause (by rw [hk]; decide)⟩
  handlers n _ hk := absurd (show a.kind n ∈ _ by rw [hk]; decide) (h n)

theorem Enumerated.owns_eq_false (h : a.Enumerated n) : (a.kind n).owns = false := by
  obtain h | ⟨h, -⟩ := h <;> rw [h] <;> rfl

/-- What holds a node lies around a place, and so does what is met first on the way up, unless it is
a program. -/
theorem Around.inside_of_find? (h : a.Around list n) (hn : (a.kind n).owns = false) {fuel : Nat}
    (ho : (a.ancestorsFrom fuel n).find? (fun m => (a.kind m).owns) = some o)
    (hk : a.kind o ≠ .program) : a.Inside list o := by
  obtain ⟨l, hleads, hl⟩ := h
  induction hleads using Relation.ReflTransGen.head_induction_on generalizing fuel with
  | refl =>
    obtain hl | hl := hl
    · exact hl.trans (below_of_mem_ancestorsFrom (List.mem_of_find?_eq_some ho)).to_reflTransGen
    · rw [hl] at hn
      cases hn
  | @head x y hxy hyl ih =>
    cases fuel with
    | zero => cases ho
    | succ fuel =>
      rw [ancestorsFrom, hxy.1] at ho
      dsimp only at ho
      rw [List.find?_cons] at ho
      split at ho
      · next hy =>
        cases ho
        obtain rfl | ⟨z, hz, -⟩ := hyl.cases_head
        · exact hl.resolve_right hk
        · rw [hz.2] at hy
          cases hy
      · next hy => exact ih hy ho

/-- The owner of what lies around a place lies around the place. -/
theorem Around.inside (h : a.Around list n) (hn : (a.kind n).owns = false)
    (ho : a.memberOwner n = some o) : a.Inside list o := by
  rw [memberOwner] at ho
  split at ho
  · next m hm =>
    split at ho
    · next hk =>
      cases ho
      refine h.inside_of_find? hn hm fun hprogram => ?_
      rw [hprogram] at hk
      exact absurd hk (by decide)
    · cases ho
  · cases ho

namespace Grows

variable {m : NodeId}

theorem inside (h : a.Grows b) (hl : a.Inside n l) : b.Inside n l := by
  refine Relation.ReflTransGen.mono (fun x y hxy => ?_) _ _ hl
  exact (h.parent (lt_size_of_parent hxy)).trans hxy

theorem leads (h : a.Grows b) (hl : a.Leads n l) : b.Leads n l := by
  refine Relation.ReflTransGen.mono (fun x y hxy => ?_) _ _ hl
  have hlt := lt_size_of_parent hxy.1
  rw [h.parent hlt, h.kind hlt]
  exact hxy

theorem around (h : a.Grows b) (hn : a.Around list n) : b.Around list n := by
  obtain ⟨l, hleads, hl⟩ := hn
  refine ⟨l, h.leads hleads, hl.imp h.inside fun hk => ?_⟩
  rw [h.kind (lt_size_of_kind_ne (by rw [hk]; decide)), hk]

theorem enumerated (h : a.Grows b) (ha : a.Consistent) (hn : n.index < a.size)
    (hb : b.Enumerated n) : a.Enumerated n := by
  rw [Enumerated, h.kind hn, h.parent hn] at hb
  refine hb.imp_right (.imp_right ?_)
  rintro ⟨p, hp, hk⟩
  exact ⟨p, hp, (h.kind (ha.parent_lt n p hp)).symm.trans hk⟩

/-- What is simple was simple before. -/
theorem simple (h : a.Grows b) (ha : a.Consistent) (hb : b.Simple) : a.Simple where
  noWith n hk := by
    refine hb.noWith n ((h.kind (lt_size_of_kind_ne ?_)).trans hk)
    rw [hk]
    decide
  noSupers n := by
    by_cases hn : n.index < a.size
    · rw [← h.superNames ha hn]
      exact hb.noSupers n
    · rw [Arena.superNames, Arena.children, node_of_size_le (Nat.le_of_not_lt hn)]
      rfl
  handlers n m hk hm := by
    have hmem := List.mem_of_head? hm
    have hn := lt_size_of_mem_children hmem
    rw [← h.kind (ha.child_lt n m hmem)]
    exact hb.handlers n m ((h.kind hn).trans hk) (by rw [h.children hn]; exact hm)

end Grows

end Arena

namespace Search

variable {call : Call} {c d : Context} {id start list n m : NodeId} {mode : SearchMode}

/-! ## What was found nearby -/

/-- Where everything is simple, an enumeration that was found lies around the place where the search
started, or was checked by an import. -/
structure Near (start : NodeId) (c : Context) (n : NodeId) : Prop where
  /-- The declaration is there. -/
  lt_size : n.index < c.arena.size
  /-- An enumeration lies around the place, or was checked. -/
  around : c.arena.Simple → c.arena.Enumerated n →
    (∃ i, c.arena.kind i = .import_ ∧ Admitted c i n) ∨ c.arena.Around start n

theorem Retains.near (h : Retains c d) (hn : Near start c n) : Near start d n := by
  refine ⟨h.lt hn.lt_size, fun hs he => ?_⟩
  have hc := h.before.consistent
  refine (hn.around (h.grows.simple hc hs) (h.grows.enumerated hc hn.lt_size he)).imp ?_
    h.grows.around
  rintro ⟨i, hk, hi⟩
  exact ⟨i, (h.grows.kind (Arena.lt_size_of_kind_ne (by rw [hk]; decide))).trans hk, h.admitted hi⟩

/-- What a search has found so far is near. -/
def AllNear (start : NodeId) (t : Tally) (c : Context) : Prop :=
  ∀ n, t.found = some n → Near start c n

theorem AllNear.retains {t : Tally} (h : AllNear start t c) (hd : Retains c d) :
    AllNear start t d :=
  fun n hn => hd.near (h n hn)

/-- Where everything is simple, what holds the children of a list lies around the place. -/
def Opens (start list : NodeId) (c : Context) : Prop := c.arena.Simple → c.arena.Around start list

theorem Retains.opens (h : Retains c d) (hl : Opens start list c) : Opens start list d :=
  fun hs => h.grows.around (hl (h.grows.simple h.before.consistent hs))

theorem near_of_not_enumerated (hn : n.index < c.arena.size) (h : ¬ c.arena.Enumerated n) :
    Near start c n :=
  ⟨hn, fun _ he => absurd he h⟩

/-- What a child of an open list gives is near. -/
theorem near_of_gives (hc : c.arena.Consistent) (hlist : Opens start list c)
    (hn : n ∈ c.arena.children list) (hm : c.arena.Gives n m) : Near start c m := by
  have hup : c.arena.parent n = some list := (hc.mem_children list n).1 hn
  have hopen : c.arena.Simple → (c.arena.kind n).owns = false → c.arena.Around start n := by
    intro hs hk
    obtain ⟨l, hleads, hl⟩ := hlist hs
    exact ⟨l, .head ⟨hup, hk⟩ hleads, hl⟩
  obtain rfl | ⟨hm, hk⟩ | ⟨hm, hk⟩ := hm
  · exact ⟨hc.child_lt list m hn, fun hs he => .inr (hopen hs he.owns_eq_false)⟩
  · refine ⟨hc.child_lt n m hm, fun hs he => .inr ?_⟩
    have hparent := (hc.mem_children n m).1 hm
    -- a variable that is a value of an enumeration hangs below that enumeration
    have henum : c.arena.kind n = .enum := by
      obtain he | ⟨-, p, hp, hkp⟩ := he
      · rw [hk] at he
        cases he
      · rw [hparent] at hp
        cases hp
        exact hkp
    obtain ⟨l, hleads, hl⟩ := hopen hs (by rw [henum]; rfl)
    exact ⟨l, .head ⟨hparent, by rw [hk]; rfl⟩ hleads, hl⟩
  · refine near_of_not_enumerated (Arena.lt_size_of_kind_ne (by rw [hk]; decide)) ?_
    rintro (he | ⟨he, -⟩) <;> rw [hk] at he <;> cases he

/-! ## Declarations -/

theorem retaining_candidate_near (hcall : VisibleCalls call) (hlist : Opens start list c)
    (hn : n ∈ c.arena.children list) (id : NodeId) :
    Retaining c (candidate call n id none mode) fun o d => o.All (Near start d) := by
  refine .of_start fun hc => ⟨fun _ => Yields.of_exec fun c' o d hc' hr => ?_⟩
  subst hc'
  have hlt := hc.consistent.child_lt list n hn
  obtain ⟨hretains, -⟩ := ((retaining_candidate hcall hlt id mode).yields hc).of_ok rfl hr
  refine ⟨hretains, ((gives_candidate (Q := fun m d => Found d id m ∧ Admitted d n m) n id none mode
    fun _ => ((retaining_checkImport hcall id n _ mode).yields hc).mono (fun _ h => h)
      fun o d h m hm => h.2 m hm).of_ok rfl hr).imp fun m hm => ?_⟩
  obtain hm | ⟨hk, hfound, hadmitted⟩ := hm
  · exact hretains.near (near_of_gives hc.consistent hlist hn hm)
  · exact ⟨hfound.lt_size, fun _ _ => .inl ⟨n, (hretains.grows.kind hlt).trans hk, hadmitted⟩⟩

theorem retaining_checkName_near (hcall : VisibleCalls call) (hlist : Opens start list c)
    (index : Nat)
    (id : NodeId) :
    Retaining c (checkName call list index id none mode) fun o d =>
      ∀ m, o = some m → Near start d m := by
  refine .arena_bind ?_
  split
  · exact .internal
  · next n hn =>
    refine (retaining_candidate_near hcall hlist (List.mem_of_getElem? hn) id).bind
      fun o d _ ho => ?_
    cases o with
    | none => exact .pure nofun
    | open_ m => exact .pure fun x hx => Option.some.inj hx ▸ ho
    | guarded m =>
      have ho : Near start d m := ho
      refine (retaining_rejection hcall id ho.lt_size).bind fun o e he _ => ?_
      cases o with
      | some r => exact (Proceeds.reject r).bind fun _ _ _ _ => .pure nofun
      | none =>
        refine .arena_bind ?_
        rw [if_neg (by simp)]
        exact .pure fun x hx => Option.some.inj hx ▸ he.near ho

theorem retaining_tryChild_near (hcall : VisibleCalls call) (hlist : Opens start list c)
    (id : NodeId)
    (index : Nat) {t : Tally} (ht : AllNear start t c) :
    Retaining c (tryChild call list id none mode index t) fun r d =>
      AllNear start r.2 d ∧ Opens start list d := by
  refine (retaining_checkName_near hcall hlist index id).bind fun o d hd ho => ?_
  cases o with
  | none => exact .pure ⟨ht.retains hd, hd.opens hlist⟩
  | some n => exact .arena_bind (.pure ⟨ho, hd.opens hlist⟩)

/-! ## Scopes -/

/-- However the search in a scope ends, what was found is near. -/
def Step.Near (start : NodeId) : Step → Context → Prop
  | .ended o, c => ∀ n, o = some n → Search.Near start c n
  | .next t, c => AllNear start t c

theorem Step.Near.retains {s : Step} (h : s.Near start c) (hd : Retains c d) : s.Near start d := by
  cases s with
  | ended o => exact fun n hn => hd.near (h n hn)
  | next t => exact AllNear.retains h hd

theorem Step.near_ofScan {r : Bool × Tally} (h : AllNear start r.2 c) :
    (Step.ofScan r).Near start c := by
  obtain ⟨_ | _, t⟩ := r
  · exact h
  · exact h

theorem retaining_askChildren_near (hcall : VisibleCalls call) (hlist : Opens start list c)
    (places : List Nat) {t : Tally} (ht : AllNear start t c) :
    Retaining c (askChildren call ⟨id, none, mode⟩ list places t) (Step.Near start) :=
  (retaining_scan (P := fun t d => AllNear start t d ∧ Opens start list d)
    (fun index _ _ h => retaining_tryChild_near hcall h.2 id index h.1) places ⟨ht, hlist⟩).bind
      fun _ _ _ hr => .pure (Step.near_ofScan hr.1)

theorem retaining_inDirectives_near (hcall : VisibleCalls call) (hlist : Opens start list c)
    (offset : Nat)
    {t : Tally} (ht : AllNear start t c) :
    Retaining c (inDirectives call ⟨id, none, mode⟩ list offset t) (Step.Near start) := by
  refine .arena_bind ?_
  dsimp only
  split
  · exact .internal_bind
  · exact retaining_askChildren_near hcall hlist _ ht

theorem opens_of_child (hc : c.arena.Consistent) (hlist : Opens start list c)
    (hn : n ∈ c.arena.children list) (hk : c.arena.Simple → (c.arena.kind n).owns = false) :
    Opens start n c := by
  intro hs
  obtain ⟨l, hleads, hl⟩ := hlist hs
  exact ⟨l, .head ⟨(hc.mem_children list n).1 hn, hk hs⟩ hleads, hl⟩

theorem retaining_inFunction_near (hcall : VisibleCalls call) (hlist : Opens start list c)
    {t : Tally}
    (ht : AllNear start t c) :
    Retaining c (inFunction call ⟨id, none, mode⟩ list t) (Step.Near start) := by
  refine .ask_bind (fun _ _ => trivial) fun b _ => ?_
  split
  · exact .pure ht
  · refine .of_start fun hc => .arena_bind ?_
    split
    · exact .pure ht
    · next parameters hparameters =>
      have hmem := List.mem_of_find?_eq_some hparameters
      have hk : c.arena.kind parameters = .parameters := by
        simpa using List.find?_some hparameters
      have hopens := opens_of_child hc.consistent hlist hmem fun _ => by rw [hk]; rfl
      have hlock := Retains.lock hc parameters
      exact .withLock (.lock · _) (fun _ =>
        .arena_bind (retaining_askChildren_near hcall (hlock.opens hopens) _
        (ht.retains hlock))) fun _ _ _ he _ h => h.retains he

theorem retaining_inCatch_near (hcall : VisibleCalls call) (hk : c.arena.kind list = .catch_)
    (hlist : Opens start list c) {t : Tally} (ht : AllNear start t c) :
    Retaining c (inCatch call ⟨id, none, mode⟩ list t) (Step.Near start) := by
  refine .of_start fun hc => .arena_bind ?_
  split
  · exact .pure ht
  · next m hm =>
    have hopens := opens_of_child hc.consistent hlist (List.mem_of_head? hm) fun hs =>
      hs.handlers list m hk hm
    split
    · exact .pure ht
    · exact retaining_askChildren_near hcall hopens _ ht

theorem retaining_inEnum_near (hlist : Opens start list c) (name : String) {t : Tally}
    (ht : AllNear start t c) : Retaining c (inEnum list name t) (Step.Near start) := by
  refine .of_start fun hc => .arena_bind ?_
  split
  · exact .pure ht
  · next v hv =>
    obtain ⟨hmem, hkv⟩ := of_findVariable hv
    have hnear : Near start c v := by
      refine ⟨hc.consistent.child_lt list v hmem, fun hs _ => .inr ?_⟩
      exact opens_of_child hc.consistent hlist hmem (fun _ => by rw [hkv]; rfl) hs
    exact (Retaining.setFlag v _).bind fun _ _ hd _ => .pure fun n hn =>
      Option.some.inj hn ▸ hd.near hnear

/-- Where a class inherits nothing is claimed of what it yields. -/
theorem Step.near_of_fair {s : Step} (h : s.Fair id c) (hc : ¬ c.arena.Simple) :
    s.Near start c := by
  have hnear : ∀ {n}, Found c id n → Search.Near start c n := fun hn =>
    ⟨hn.lt_size, fun hs => absurd hs hc⟩
  cases s with
  | ended o => exact fun n hn => hnear (h n hn)
  | next t => exact fun n hn => hnear (h n hn)

theorem retaining_inClass_near (hcall : VisibleCalls call) (list : NodeId) {t : Tally}
    (hh : t.Holds c id)
    (ht : AllNear start t c) :
    Retaining c (inClass call ⟨id, none, mode⟩ list t) (Step.Near start) := by
  refine .of_start fun hc => ⟨fun _ => Yields.of_exec fun c' s d hc' hr => ?_⟩
  subst hc'
  obtain ⟨hretains, hfair⟩ := ((retaining_inClass hcall list hh).yields hc).of_ok rfl hr
  refine ⟨hretains, ?_⟩
  by_cases hs : c'.arena.Simple
  · have ht := ht.retains hretains
    rw [inClass, exec_bind, exec_findInExtends (hs.noSupers list)] at hr
    dsimp only at hr
    split at hr
    · cases hr
      exact Step.near_ofScan fun n hn => ht n (by rwa [Tally.found_settle] at hn)
    · cases hr
      exact ht
  · exact Step.near_of_fair hfair fun hd => hs (hretains.grows.simple hc.consistent hd)

theorem retaining_inWith_near (hcall : VisibleCalls call) (hk : c.arena.kind list = .with_)
    {t : Tally}
    (hh : t.Holds c id) : Retaining c (inWith call ⟨id, none, mode⟩ list t) (Step.Near start) := by
  refine .of_start fun hc => (retaining_inWith hcall list hh).mono fun s d hd hs => ?_
  exact Step.near_of_fair hs fun hsimple => (hd.grows.simple hc.consistent hsimple).noWith list hk

/-- What a scope shows is near, if nothing in between owns declarations or the scope does itself. -/
theorem retaining_inScope_near (hcall : VisibleCalls call) (offset : Nat)
    (hlist : (c.arena.kind list).owns = false → Opens start list c) {t : Tally}
    (hh : t.Holds c id) (ht : AllNear start t c) :
    Retaining c (inScope call ⟨id, none, mode⟩ list offset t) (Step.Near start) := by
  refine .of_start fun hc => .arena_bind ?_
  dsimp only
  split
  · next henum =>
    simp only [Bool.and_eq_true, decide_eq_true_eq] at henum
    have hnear : Near start c list :=
      ⟨Arena.lt_size_of_kind_ne (by rw [henum.1]; decide),
        fun hs _ => .inr (hlist (by rw [henum.1]; rfl) hs)⟩
    exact (Retaining.setFlag list _).bind fun _ _ hd _ => .pure fun n hn =>
      Option.some.inj hn ▸ hd.near hnear
  · have hlock := Retains.lock hc list
    have hh' := hh.retains hlock
    have ht' := ht.retains hlock
    have hopens : ∀ {k}, c.arena.kind list = k → k.owns = false →
        Opens start list { c with arena := c.arena.lock list } := fun hk ho =>
      hlock.opens (hlist (hk ▸ ho))
    refine .withLock (.lock · _) (fun _ => ?_) fun _ _ _ he _ h => h.retains he
    split
    · next hk => exact retaining_inDirectives_near hcall (hopens hk rfl) offset ht'
    · next hk => exact retaining_askChildren_near hcall (hopens hk rfl) _ ht'
    · next hk => exact retaining_inWith_near hcall (by exact hk) hh'
    · next hk => exact retaining_inFunction_near hcall (hopens hk rfl) ht'
    · next hk => exact retaining_askChildren_near hcall (hopens hk rfl) _ ht'
    · next hk => exact retaining_inCatch_near hcall (by exact hk) (hopens hk rfl) ht'
    · next hk => exact retaining_inEnum_near (hopens hk rfl) _ ht'
    · exact retaining_inClass_near hcall list hh' ht'
    · exact retaining_inClass_near hcall list hh' ht'
    · exact .internal

/-! ## All scopes -/

/-- What declares things for all programs are programs. -/
def Rooted (c : Context) : Prop := ∀ program, c.Provides program → c.arena.kind program = .program

theorem Rooted.course (h : Rooted c) (hc : c.arena.Consistent) (hd : Course none c d) :
    Rooted d := by
  intro program hprogram
  obtain ⟨hglobal, hsystem, hnative⟩ := hd.provided
  rw [Context.Provides, hglobal, hsystem, hnative] at hprogram
  have hk := h program hprogram
  exact ((hd.frame hc).kind (Arena.lt_size_of_kind_ne (by rw [hk]; decide))).trans hk

theorem retaining_walkImports_near (hcall : VisibleCalls call)
    {imports : List (Context → Option NodeId)}
    (himports : ∀ i ∈ imports, ∀ c program, i c = some program → c.Provides program)
    (hroot : Rooted c) {t : Tally} (hh : t.Holds c id) (ht : AllNear start t c) :
    Retaining c (walkImports call ⟨id, none, mode⟩ imports t) fun o d =>
      ∀ n, o = some n → Near start d n := by
  induction imports generalizing c t with
  | nil =>
    refine (retaining_conclude t).mono fun o d _ h n hn => ?_
    rw [h] at hn
    cases hn
  | cons import_ imports ih =>
    have ih := fun {c t} => ih (c := c) (t := t) fun i hi => himports i (List.mem_cons_of_mem _ hi)
    refine .of_start fun hc => .get_bind ?_
    split
    · exact ih hroot hh ht
    · next list hlist =>
      obtain ⟨program, hprogram, hhead⟩ := Option.bind_eq_some_iff.1 hlist
      have hkind := hroot program (himports import_ List.mem_cons_self c program hprogram)
      have hopens : (c.arena.kind list).owns = false → Opens start list c := fun hk _ =>
        ⟨program, .single ⟨(hc.consistent.mem_children program list).1 (List.mem_of_head? hhead),
          hk⟩, .inr hkind⟩
      have hscope := Retaining.course
        ((retaining_inScope hcall list 0 hh).and (retaining_inScope_near hcall 0 hopens hh ht))
        (follows_inScope (q := ⟨id, none, mode⟩) hcall.faithful list 0 t)
      refine hscope.bind fun s d _ hs => ?_
      obtain ⟨hcourse, hfair, hnear⟩ := hs
      cases s with
      | ended answer => exact .pure hnear
      | next t => exact ih (hroot.course hc.consistent hcourse) hfair hnear

theorem retaining_walkScopes_near (hcall : VisibleCalls call) (fuel : Nat)
    (hn : c.arena.Inside start n)
    (hroot : Rooted c) {t : Tally} (hh : t.Holds c id) (ht : AllNear start t c) :
    Retaining c (walkScopes call ⟨id, none, mode⟩ fuel n t) fun o d =>
      ∀ n, o = some n → Near start d n := by
  induction fuel generalizing c n t with
  | zero => exact .throw trivial
  | succ fuel ih =>
    refine .of_start fun hc => .arena_bind ?_
    split
    · exact .fail trivial
    · next list offset hscope =>
      have hlist : c.arena.Inside start list :=
        hn.trans (below_of_enclosingScope hscope).to_reflTransGen
      split
      · refine retaining_walkImports_near hcall (fun i hi c program hprogram => ?_) hroot hh ht
        rw [Context.Provides, ← hprogram]
        exact List.mem_map_of_mem (f := (· c)) hi
      · have hopens : (c.arena.kind list).owns = false → Opens start list c :=
          fun _ _ => ⟨list, .refl, .inl hlist⟩
        have hscope := Retaining.course
          ((retaining_inScope hcall list offset hh).and
            (retaining_inScope_near hcall offset hopens hh ht))
          (follows_inScope (q := ⟨id, none, mode⟩) hcall.faithful list offset t)
        refine hscope.bind fun s d hd hs => ?_
        obtain ⟨hcourse, hfair, hnear⟩ := hs
        cases s with
        | ended answer => exact .pure hnear
        | next t =>
          have hroot := hroot.course hc.consistent hcourse
          exact ih (hd.grows.inside hlist) hroot hfair hnear

theorem retaining_resolveName_near (hcall : VisibleCalls call) (list : NodeId) {reference : NodeId}
    (hk : c.arena.kind reference ≠ .member) (htype : c.arena.typeNode reference = none)
    (hroot : Rooted c) (mode : SearchMode) :
    Retaining c (resolveName call list reference none mode) fun o d =>
      ∀ n, o = some n → Near list d n := by
  have hroot : Rooted { c with rejections := Rejections.none } := hroot
  refine .withFreshRejections (fun _ => .arena_bind ?_) fun _ _ _ he _ h n hn => he.near (h n hn)
  rw [if_neg hk]
  split
  · exact .internal
  · rw [htype]
    dsimp only
    refine retaining_walkScopes_near (t := {}) hcall _ ?_ hroot nofun nofun
    split
    · next p hp =>
      split
      · exact .single hp
      · exact .refl
    · exact .refl

/-- What an import hands on is not private, and internal only to a package. -/
structure PassedOn (a : Arena) (import_ : NodeId) (s : AttributeSet) : Prop where
  /-- It is handed on by an import. -/
  kind : a.kind import_ = .import_
  /-- It is not private. -/
  notPrivate : s.contains .private_ = false
  /-- It is internal only if the import stands in a package. -/
  ofInternal : s.contains .internal = true → a.SeesInternal import_

/-- **From where an enumeration is seen.**  Where no class inherits and no `with` is used, a name
stands for an enumeration whose owner, if it has one, lies around the name, or for one that is handed
on by an import. -/
theorem resolveName_enumerated (c d : Context) (list reference n : NodeId) (mode : SearchMode)
    (hc : c.arena.Consistent) (hhoused : c.arena.Housed) (hcache : c.attributeCache = [])
    (hroot : Rooted c) (hkind : c.arena.kind reference ≠ .member)
    (htype : c.arena.typeNode reference = none)
    (hr : (run (resolveName · list reference none mode)).exec c = (.ok (some n), d))
    (hbuiltIn : BuiltIn d) (hsimple : d.arena.Simple) (hn : d.arena.Enumerated n)
    (s : AttributeSet) (hs : d.arena.Effective n s) :
    (∀ o, d.arena.memberOwner n = some o → d.arena.Inside list o) ∨
      ∃ i, PassedOn d.arena i s := by
  rw [exec_run] at hr
  obtain ⟨hretains, hnear⟩ :=
    ((retaining_resolveName_near (visibleCalls_answer (fuel c)) list hkind htype hroot
    mode).yields ⟨hc, hhoused⟩).of_ok rfl hr
  obtain ⟨i, hi, r, hlookup, hprivate, hinternal⟩ | haround := (hnear n rfl).around hsimple hn
  · have hagrees := hretains.agrees hcache hbuiltIn hlookup hs
    exact .inr ⟨i, hi, (hagrees .private_ (by decide)).symm.trans hprivate,
      fun h => hinternal ((hagrees .internal (by decide)).trans h)⟩
  · exact .inl fun o ho => haround.inside hn.owns_eq_false ho

/-- The requests that make a program with a class.  The class has a private enumeration `E`, which
is used in the class as `E` and after it as `C.E`. -/
def enumHistory : List Command :=
  [.create .program {}, .create .directiveList {}, .create .class_ {}, .create .directiveList {},
   .create .enum {}, .create .variable_ {}, .create .identifier {}, .create .member {},
   .create .identifier {}, .create .identifier {},
   .setText ⟨2⟩ "C", .setText ⟨4⟩ "E", .setText ⟨5⟩ "a", .setText ⟨6⟩ "E", .setText ⟨8⟩ "C",
   .setText ⟨9⟩ "E", .setAttribute ⟨4⟩ .private_ true,
   .appendChild ⟨0⟩ ⟨1⟩, .appendChild ⟨1⟩ ⟨2⟩, .appendChild ⟨2⟩ ⟨3⟩, .appendChild ⟨3⟩ ⟨4⟩,
   .appendChild ⟨4⟩ ⟨5⟩, .appendChild ⟨3⟩ ⟨6⟩, .appendChild ⟨1⟩ ⟨7⟩, .appendChild ⟨7⟩ ⟨8⟩,
   .appendChild ⟨7⟩ ⟨9⟩]

/-- The context of that program. -/
def enumContext : Context := { arena := after enumHistory, parser := fun _ => .rejected }

/-- The context that the search for a name leaves. -/
def enumContextAfter (reference : NodeId) : Context :=
  ((run (resolveName · reference reference none {})).exec enumContext).2

theorem consistent_enumContext : enumContext.arena.Consistent :=
  .of_history enumHistory (by rw [enumContext])

theorem housed_enumContext : enumContext.arena.Housed := by
  have hnone := Arena.forall_node (a := enumContext.arena) (P := fun d => d.attributeNode = none)
    (by decide +kernel) (by decide)
  exact fun n l hl => by rw [hnone n] at hl; cases hl

theorem consistent_enumContextAfter (reference : NodeId) :
    (enumContextAfter reference).arena.Consistent := by
  have hrun : Follows none (run (resolveName · reference reference none {})) :=
    follows_run fun _ hcall => follows_resolveName hcall reference reference {}
  rw [enumContextAfter]
  exact (hrun.course enumContext consistent_enumContext).consistent consistent_enumContext

/-- The program after a search: it lists no attributes, no class inherits, and the enumeration is
private. -/
theorem private_enumContextAfter (reference : NodeId)
    (hnodes : ∀ d ∈ (enumContextAfter reference).arena.nodes.toList,
      d.attributeNode = none ∧ d.kind ∉ [.with_, .catch_, .extends_, .implements])
    (hup : ∀ i < (enumContextAfter reference).arena.size,
      ∀ p ∈ (enumContextAfter reference).arena.parent ⟨i⟩, p.index < i)
    (henum : (enumContextAfter reference).arena.kind ⟨4⟩ = .enum)
    (hprivate : ((enumContextAfter reference).arena.listedAttributes ⟨4⟩).contains .private_
      = true) :
    BuiltIn (enumContextAfter reference) ∧ (enumContextAfter reference).arena.Simple ∧
      ∃ s, (enumContextAfter reference).arena.Effective ⟨4⟩ s ∧ s.contains .private_ = true := by
  have hnode := Arena.forall_node hnodes (by decide)
  have hforest : (enumContextAfter reference).arena.Forest :=
    Arena.forest_of_lt fun n p hp => hup n.index (Arena.lt_size_of_parent hp) p hp
  obtain ⟨s, hs⟩ := hforest.exists_effective (consistent_enumContextAfter reference) ⟨4⟩
  refine ⟨fun n => ?_, Arena.simple_of_kinds fun n => (hnode n).2, s, hs,
    hs.contains_listed (by decide) (by rw [henum]; decide) hprivate⟩
  exact Arena.builtIn_of_unlisted (hnode n).1

/-- A class sees its own enumeration. -/
theorem resolveName_enumerated_own :
    (run (resolveName · ⟨6⟩ ⟨6⟩ none {})).exec enumContext =
      (.ok (some ⟨4⟩), enumContextAfter ⟨6⟩) ∧
    (enumContextAfter ⟨6⟩).arena.memberOwner ⟨4⟩ = some ⟨2⟩ ∧
    (enumContextAfter ⟨6⟩).arena.Inside ⟨6⟩ ⟨2⟩ := by
  have hrun : (run (resolveName · ⟨6⟩ ⟨6⟩ none {})).exec enumContext =
      (.ok (some ⟨4⟩), enumContextAfter ⟨6⟩) := by
    rw [enumContextAfter]
    exact exec_of_toOption (by decide +kernel)
  obtain ⟨hbuiltIn, hsimple, s, hs, hprivate⟩ := private_enumContextAfter ⟨6⟩
    (by decide +kernel) (by decide +kernel) (by decide +kernel) (by decide +kernel)
  have howner : (enumContextAfter ⟨6⟩).arena.memberOwner ⟨4⟩ = some ⟨2⟩ := by decide +kernel
  have hroot : Rooted enumContext := fun program hprogram => by
    simp [Context.Provides, enumContext] at hprogram
  obtain hinside | ⟨i, hi⟩ := resolveName_enumerated enumContext (enumContextAfter ⟨6⟩) ⟨6⟩ ⟨6⟩ ⟨4⟩
    {} consistent_enumContext housed_enumContext rfl hroot (by decide +kernel)
    (by decide +kernel) hrun hbuiltIn hsimple (.inl (by decide +kernel)) s hs
  · exact ⟨hrun, howner, hinside ⟨2⟩ howner⟩
  · rw [hi.notPrivate] at hprivate
    cases hprivate

/-- Outside of the class its private enumeration is found as well. -/
theorem enumeration_seen_outside : ¬ ∀ (c d : Context) (list reference id n : NodeId)
    (mode : SearchMode), c.arena.Consistent → c.arena.Housed → c.attributeCache = [] →
    Asks c.arena reference id →
    (run (resolveName · list reference none mode)).exec c = (.ok (some n), d) → BuiltIn d →
    d.arena.Enumerated n → ∀ s, d.arena.Effective n s → d.arena.Permits id n s := by
  intro hall
  have hrun : (run (resolveName · ⟨7⟩ ⟨7⟩ none {})).exec enumContext =
      (.ok (some ⟨4⟩), enumContextAfter ⟨7⟩) := by
    rw [enumContextAfter]
    exact exec_of_toOption (by decide +kernel)
  obtain ⟨hbuiltIn, -, s, hs, hprivate⟩ := private_enumContextAfter ⟨7⟩
    (by decide +kernel) (by decide +kernel) (by decide +kernel) (by decide +kernel)
  have hpermits := hall enumContext (enumContextAfter ⟨7⟩) ⟨7⟩ ⟨7⟩ ⟨9⟩ ⟨4⟩ {}
    consistent_enumContext housed_enumContext rfl
    (.inr ⟨by decide +kernel, ⟨8⟩, by decide +kernel⟩) hrun hbuiltIn (.inl (by decide +kernel)) s hs
  have hclass : (enumContextAfter ⟨7⟩).arena.classOfMember ⟨9⟩ = none := by decide +kernel
  have hpackage : (enumContextAfter ⟨7⟩).arena.findAncestor ⟨9⟩ [.package] = none := by
    decide +kernel
  obtain ⟨o, -, ⟨-, ho⟩ | ⟨-, ho⟩⟩ := hpermits.ofPrivate hprivate
  · rw [hclass] at ho
    cases ho
  · rw [hpackage] at ho
    cases ho

end Search

end SymbolTree
