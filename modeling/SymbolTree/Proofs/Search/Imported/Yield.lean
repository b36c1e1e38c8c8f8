import SymbolTree.Proofs.Search.Imported.Origin
import SymbolTree.Proofs.Search.Imported.Package
import SymbolTree.Proofs.Search.Nearby
import SymbolTree.Proofs.Search.Referenced

/-!
# An import yields members of its package

An import asks a package of its name for a member.  What it answers stands inside such a package,
and a package of that name is marked, so that it is compiled as well.

This needs two things.  The package is sealed: it inherits from no class, and no import in its body
hands on what another package declares.  And the matches that are among the arguments from the
beginning belong to functions of packages of that name.  Without the latter a function that was
found elsewhere is selected as the member of the package, when it takes the arguments better than
the package's own (`Search.import_yields_other`).

## Main statement

* `Search.checkImport_yields` — what an import yields.
-/

set_option autoImplicit false
namespace SymbolTree

namespace Search

variable {b : Arena} {name : String} {params : Option NodeId} {X : Prop} {p list n x : NodeId}
  {call : Call} {c : Context}

/-! ## Declarations -/

namespace FromPackages

theorem standsIn (h : FromPackages b name params X c) (hp : b.IsPackage name p) :
    c.arena.StandsIn p x ↔ b.StandsIn p x :=
  h.frame.standsIn_iff h.before hp.lt_size

theorem memberOf (h : FromPackages b name params X c) (hp : b.IsPackage name p)
    (hn : c.arena.DeclaredIn p n) : b.MemberOf name n :=
  ⟨p, hp, (h.frame.declaredIn_iff h.before hp.lt_size).1 hn⟩

theorem isPackage (h : FromPackages b name params X c) (hp : b.IsPackage name p) :
    c.arena.IsPackage name p :=
  (h.frame.isPackage_iff hp.lt_size).2 hp

end FromPackages

/-- An import that stands in a sealed package finds nothing. -/
theorem fromPackages_checkImport_within (hcall : Faithful call)
    (hc : FromPackages b name params X c)
    (hp : b.IsPackage name p) (hn : b.StandsIn p n) (hk : c.arena.kind n = .import_)
    (text : String) (mode : SearchMode) :
    Yields (· = c) (checkImport call n text params mode) fun o =>
      FromPackages b name params (X ∧ ∀ m ∈ o, b.MemberOf name m) := by
  refine Yields.of_exec fun c' o d hc' hr => ?_
  subst hc'
  by_cases hs : c'.arena.Seals name
  · have hclosed := (hs p (hc.isPackage hp)).closed n ((hc.standsIn hp).2 hn) hk
    rw [checkImport, exec_bind, exec_ask] at hr
    cases hflag : c'.arena.flag n .importImplements with
    | error e =>
      rw [hflag] at hr
      cases hr
    | ok v =>
      obtain ⟨_, -, hv⟩ := bind_eq_ok_iff.1 hflag
      obtain rfl : false = v := hclosed.symm.trans (Except.ok.inj hv)
      rw [hflag] at hr
      cases hr
      exact hc.mono fun hX => ⟨hX, nofun⟩
  · exact hc.vacuous ((follows_checkImport hcall n text mode).of_ok hc.consistent hr) hs

/-- What stands in the body of a package declares members of it.  Nothing there constructs a class,
since the package is nearer than any class around it. -/
theorem FromPackages.memberOf_of_gives (h : FromPackages b name params X c)
    (hp : b.IsPackage name p)
    (hn : b.StandsIn p n) {m : NodeId} (hm : c.arena.Gives n m) : b.MemberOf name m := by
  obtain rfl | hm | ⟨hm, hk⟩ := hm
  · exact ⟨p, hp, .inl hn⟩
  · exact h.memberOf hp (.inr ⟨n, (h.standsIn hp).2 hn, hm⟩)
  · have hkp := (h.isPackage hp).kind
    obtain hnone | hsome := ((h.standsIn hp).2 hn).findAncestor h.consistent
      (show .directiveList ∉ [Kind.package, .program, .function, .interface, .class_] by decide)
      (by rw [hkp]; decide)
    · rw [hnone] at hm
      cases hm
    · rw [hsome] at hm
      cases hm
      rw [hkp] at hk
      cases hk

theorem fromPackages_candidate (hcall : Faithful call) (hp : b.IsPackage name p)
    (hn : b.StandsIn p n)
    (field : NodeId) (mode : SearchMode) :
    Yields (FromPackages b name params X) (candidate call n field params mode) fun o =>
      FromPackages b name params (X ∧ o.All (b.MemberOf name)) := by
  refine Yields.of_exec fun c o d hc hr => ?_
  by_cases hk : c.arena.kind n = .import_
  · have himport : Yields (· = c) (candidate call n field params mode) fun o =>
        FromPackages b name params (X ∧ o.All (b.MemberOf name)) := by
      refine Yields.arena_bind fun c' hc' => ?_
      subst hc'
      dsimp only
      rw [hk]
      refine Yields.bind (fromPackages_checkImport_within hcall hc hp hn hk _ mode) fun o => ?_
      cases o with
      | none => exact Yields.pure fun _ hd => hd.mono fun h => ⟨h.1, trivial⟩
      | some m => exact Yields.pure fun _ hd => hd.mono fun h => ⟨h.1, h.2 m rfl⟩
    exact himport.of_ok rfl hr
  · have hcourse : Course none c d := by
      have h : Course none c ((candidate call n field params mode).exec c).2 :=
        course_candidate hcall hc.consistent n field params mode fun h => absurd h hk
      rwa [hr] at h
    have hall := (gives_candidate (Q := fun _ _ => False) n field params mode
      fun h => absurd h hk).of_ok rfl hr
    refine (hc.course hcourse).mono fun hX => ⟨hX, hall.imp fun m hm => ?_⟩
    exact hc.memberOf_of_gives hp hn (hm.resolve_right fun h => h.2)

/-- A child of a list of the body is a declaration of the package, if it is found. -/
theorem fromPackages_checkName (hcall : Faithful call) (hp : b.IsPackage name p)
    (hl : b.BodyList p list) (index : Nat) (field : NodeId) (mode : SearchMode) :
    Yields (FromPackages b name params X) (checkName call list index field params mode) fun o =>
      FromPackages b name params (X ∧ ∀ m ∈ o, b.MemberOf name m) := by
  refine Yields.arena_bind fun c hc => ?_
  cases hi : (c.arena.children list)[index]? with
  | none => exact Yields.internal
  | some n =>
    dsimp only
    have hmem : n ∈ c.arena.children list := List.mem_of_getElem? hi
    have hnothing : Yields (FromPackages b name params X) (Pure.pure none : Search (Option NodeId))
        fun o => FromPackages b name params (X ∧ ∀ m ∈ o, b.MemberOf name m) :=
      Yields.pure fun _ hd => hd.mono fun hX => ⟨hX, nofun⟩
    by_cases hk : c.arena.kind n = .paramMatch
    · have hcandidate : Yields (· = c) (candidate call n field params mode) fun o d =>
          FromPackages b name params X d ∧ o = .none := by
        refine Yields.arena_bind fun c' hc' => ?_
        subst hc'
        dsimp only
        rw [hk]
        exact Yields.pure fun _ hd => hd ▸ ⟨hc, rfl⟩
      refine hcandidate.bind fun o => ?_
      cases o with
      | none => exact hnothing.mono (fun _ hd => hd.1) fun _ _ hd => hd
      | open_ m => exact Yields.of_exec fun _ _ _ hd => nomatch hd.2
      | guarded m => exact Yields.of_exec fun _ _ _ hd => nomatch hd.2
    · have hn : b.StandsIn p n := by
        obtain ⟨hmem, hk⟩ := (hc.frame.mem_children_iff (hl.lt_size hc.before)).1 ⟨hmem, hk⟩
        exact ⟨hk, list, hl, hmem⟩
      refine Yields.bind ((fromPackages_candidate hcall hp hn field mode).start hc) fun o => ?_
      cases o with
      | none => exact hnothing.mono (fun _ hd => hd.mono fun h => h.1) fun _ _ hd => hd
      | open_ m =>
        exact Yields.pure fun _ hd => hd.mono fun h =>
          ⟨h.1, fun x hx => Option.some.inj hx ▸ h.2⟩
      | guarded m =>
        refine Yields.bind (FromPackages.of_follows (follows_rejection hcall field m)) fun o => ?_
        have hfound : Yields (FromPackages b name params (X ∧ b.MemberOf name m))
            (Pure.pure (some m) : Search (Option NodeId)) fun o =>
              FromPackages b name params (X ∧ ∀ m ∈ o, b.MemberOf name m) :=
          Yields.pure fun _ hd => hd.mono fun h => ⟨h.1, fun x hx => Option.some.inj hx ▸ h.2⟩
        have hrejected : ∀ r, Yields (FromPackages b name params (X ∧ b.MemberOf name m)) (do
            reject r
            return none)
          fun o => FromPackages b name params (X ∧ ∀ m ∈ o, b.MemberOf name m) := fun r =>
          Yields.bind (FromPackages.of_follows (.reject r)) fun _ =>
            hnothing.mono (fun _ hd => hd.mono fun h => h.1) fun _ _ hd => hd
        split
        · exact hrejected _
        · refine Yields.arena_bind fun d hd => ?_
          split
          · refine Yields.bind ((fromPackages_checkFunctionWithParams hcall fun _ =>
              ⟨p, hp, .inl hn⟩).start hd) fun taken => ?_
            split
            · exact hrejected _
            · exact hfound
          · exact hfound.start hd

/-! ## Members -/

/-- What a search has found so far is declared by a package of the name. -/
def Holds (b : Arena) (name : String) (t : Tally) : Prop := ∀ n ∈ t.found, b.MemberOf name n

theorem fromPackages_tryChild (hcall : Faithful call) (hp : b.IsPackage name p)
    (hl : b.BodyList p list) (field : NodeId) (mode : SearchMode) (index : Nat) (t : Tally) :
    Yields (FromPackages b name params (Holds b name t))
      (tryChild call list field params mode index t)
      fun r => FromPackages b name params (Holds b name r.2) := by
  refine Yields.bind (fromPackages_checkName hcall hp hl index field mode) fun o => ?_
  cases o with
  | none => exact Yields.pure fun _ hd => hd.mono fun h => h.1
  | some n =>
    refine Yields.arena_bind fun d hd => Yields.pure fun _ he => ?_
    subst he
    refine hd.mono fun h m hm => ?_
    rw [Tally.found_settle] at hm
    exact h.2 m hm

/-- Requests for what a package declares: whatever is found or gathered on their behalf comes from
packages of the name. -/
structure PackageCalls (call : Call) : Prop where
  /-- Every request runs a course. -/
  faithful : Faithful call
  /-- What is found in a list of a package is declared by it. -/
  findInList : ∀ {b : Arena} {name : String} {params : Option NodeId} {p list : NodeId},
    b.IsPackage name p → b.BodyList p list → ∀ field t mode,
      Yields (FromPackages b name params (Holds b name t))
        (call (.findInList list field t params mode))
        fun r => FromPackages b name params (Holds b name r.2)
  /-- What is found in a package is declared by it. -/
  findMember : ∀ {b : Arena} {name : String} {params : Option NodeId} {p : NodeId},
    b.IsPackage name p → ∀ field t mode,
      Yields (FromPackages b name params (Holds b name t))
        (call (.findMember p field t params mode))
        fun r => FromPackages b name params (Holds b name r.2)

theorem fromPackages_scan {α : Type} {step : α → Tally → Search (Bool × Tally)} {xs : List α}
    (h : ∀ x ∈ xs, ∀ t, Yields (FromPackages b name params (Holds b name t)) (step x t) fun r =>
      FromPackages b name params (Holds b name r.2)) (t : Tally) :
    Yields (FromPackages b name params (Holds b name t)) (scan step xs t) fun r =>
      FromPackages b name params (Holds b name r.2) := by
  induction xs generalizing t with
  | nil => exact Yields.pure fun _ hd => hd
  | cons x xs ih =>
    refine Yields.bind (h x List.mem_cons_self t) fun r => ?_
    obtain ⟨ended, t⟩ := r
    dsimp only
    split
    · exact Yields.pure fun _ hd => hd
    · exact ih (fun x hx => h x (List.mem_cons_of_mem _ hx)) t

theorem fromPackages_tryBodyChild (hcall : PackageCalls call) (hp : b.IsPackage name p)
    (hl : b.BodyList p list) (field : NodeId) (mode : SearchMode) (index : Nat) (t : Tally) :
    Yields (FromPackages b name params (Holds b name t))
      (tryBodyChild call list field params mode index t) fun r =>
        FromPackages b name params (Holds b name r.2) := by
  refine Yields.bind (Q := fun n d => FromPackages b name params (Holds b name t) d ∧
    n ∈ d.arena.children list) (Yields.ask fun d n hd hn => ⟨hd, ?_⟩) fun n => ?_
  · rw [Arena.child] at hn
    split at hn
    · next hi =>
      obtain rfl := Except.ok.inj hn
      exact List.mem_of_getElem? hi
    · cases hn
  · refine Yields.arena_bind fun d hd => ?_
    obtain ⟨hd, hmem⟩ := hd
    split
    · next hk =>
      have hinner : b.BodyList p n := by
        obtain ⟨hmem, hkind⟩ := hd.frame.mem_children hd.before (hl.lt_size hd.before) hmem
          (by rw [hk]; decide)
        exact .inner hl hmem (hkind ▸ hk)
      refine Yields.bind ((hcall.findInList hp hinner field t mode).start hd) fun r => ?_
      obtain ⟨found, t⟩ := r
      dsimp only
      split
      · refine Yields.arena_bind fun e he => Yields.pure fun _ he' => ?_
        subst he'
        rw [Holds, Tally.found_settle]
        exact he
      · exact Yields.pure fun _ he => he
    · exact Yields.pure fun _ he => he ▸ hd
    · exact (fromPackages_tryChild hcall.faithful hp hl field mode index t).start hd

theorem fromPackages_findInList (hcall : PackageCalls call) (hp : b.IsPackage name p)
    (hl : b.BodyList p list) (field : NodeId) (t : Tally) (mode : SearchMode) :
    Yields (FromPackages b name params (Holds b name t)) (findInList call list field t params mode)
      fun r => FromPackages b name params (Holds b name r.2) :=
  FromPackages.withLock (Yields.arena_bind fun _ hc =>
    (fromPackages_scan (fun index _ t =>
      fromPackages_tryBodyChild hcall hp hl field mode index t) t).start hc)

theorem fromPackages_findInBody (hcall : PackageCalls call) (hp : b.IsPackage name p)
    (field : NodeId)
    (t : Tally) (mode : SearchMode) :
    Yields (FromPackages b name params (Holds b name t)) (findInBody call p field t params mode)
      fun r => FromPackages b name params (Holds b name r.2) := by
  refine FromPackages.withLock (Yields.arena_bind fun c hc => ?_)
  refine (fromPackages_scan (fun list hlist t => ?_) t).start hc
  obtain ⟨hmem, hk⟩ := List.mem_filter.1 hlist
  rw [decide_eq_true_eq] at hk
  obtain ⟨hmem, hkind⟩ := hc.frame.mem_children hc.before hp.lt_size hmem (by rw [hk]; decide)
  exact hcall.findInList hp (.own hmem (hkind ▸ hk)) field t mode

/-- A sealed package has nothing to inherit. -/
theorem fromPackages_findInExtends (hcall : PackageCalls call) (hp : b.IsPackage name p)
    (field : NodeId)
    (t : Tally) (mode : SearchMode) :
    Yields (FromPackages b name params (Holds b name t)) (findInExtends call p field t params mode)
      fun r => FromPackages b name params (Holds b name r.2) := by
  refine Yields.of_exec fun c r d hc hr => ?_
  by_cases hs : c.arena.Seals name
  · rw [exec_findInExtends (Arena.superNames_eq_nil (hs p (hc.isPackage hp)).plain)] at hr
    cases hr
    exact (hc.lock p).drop p
  · exact hc.vacuous ((follows_findInExtends hcall.faithful p field t mode).of_ok hc.consistent hr)
      hs

theorem fromPackages_findMember (hcall : PackageCalls call) (hp : b.IsPackage name p)
    (field : NodeId)
    (t : Tally) (mode : SearchMode) :
    Yields (FromPackages b name params (Holds b name t)) (findMember call p field t params mode)
      fun r => FromPackages b name params (Holds b name r.2) := by
  refine Yields.bind (fromPackages_findInBody hcall hp field t mode) fun r => ?_
  obtain ⟨found, t⟩ := r
  dsimp only
  split
  · exact Yields.pure fun _ hd => hd
  · exact fromPackages_findInExtends hcall hp field t mode

theorem packageCalls_answer (fuel : Nat) : PackageCalls (answer fuel) := by
  induction fuel with
  | zero => exact ⟨faithful_answer 0, fun _ _ _ _ _ => Yields.throw, fun _ _ _ _ => Yields.throw⟩
  | succ fuel ih =>
    exact ⟨faithful_answer _,
      fun hp hl field t mode => fromPackages_findInList ih hp hl field t mode,
      fun hp field t mode => fromPackages_findMember ih hp field t mode⟩

theorem fromPackages_findField (hcall : PackageCalls call) (hp : b.IsPackage name p)
    (field : NodeId)
    (mode : SearchMode) :
    Yields (FromPackages b name params X) (findField call p field 0 params mode) fun r =>
      FromPackages b name params (∀ n ∈ r.1, b.MemberOf name n) := by
  refine Yields.withFreshRejections (P := FromPackages b name params X)
    (Q := fun r => FromPackages b name params (∀ n ∈ r.1, b.MemberOf name n)) ?_
    (fun c hc => hc.of_nodes rfl hc.consistent) fun r d rs hd =>
      hd.of_nodes (d := { d with rejections := rs }) rfl hd.consistent
  refine Yields.bind ((hcall.findMember hp field { funcs := 0 } mode).mono
    (fun _ hc => hc.mono fun _ => nofun) fun _ _ hd => hd) fun r => ?_
  obtain ⟨found, t⟩ := r
  dsimp only
  have hfound : Yields (FromPackages b name params (Holds b name t))
      (Pure.pure (t.found, t.funcs) : Search (Option NodeId × Nat)) fun r =>
        FromPackages b name params (∀ n ∈ r.1, b.MemberOf name n) := Yields.pure fun _ hd => hd
  split
  · exact Yields.bind (FromPackages.of_follows (modular_follows.reportRejections field)) fun _ =>
      Yields.pure fun _ hd => hd.mono fun _ => nofun
  · split
    · split
      · exact Yields.bind (FromPackages.of_follows (follows_linkField field _)) fun _ => hfound
      · exact hfound
    · exact hfound

/-! ## Imports -/

/-- A name that is created to be looked for. -/
theorem FromPackages.createName {β : Type} {text : String} {k : NodeId → Search β}
    {Q : β → Context → Prop} (hk : ∀ id, Yields (FromPackages b name params X) (k id) Q) :
    Yields (FromPackages b name params X) (do
      let id ← createReplacement n .identifier
      change fun a => a.setText id text
      k id) Q := by
  have hcreate : Follows none (do
      let id ← createReplacement n .identifier
      change fun a => a.setText id text
      return id) := follows_createName fun _ => .pure
  have h := Yields.bind (FromPackages.of_follows hcreate) hk
  simpa only [bind_assoc, pure_bind] using h

theorem yields_markReferenced {P : Context → Prop} (p : NodeId) :
    Yields P (markReferenced p) fun _ d => (d.arena.node p).flags.contains .packageReferenced := by
  refine Yields.bind (Q := fun v c => (c.arena.node p).flags.contains .packageReferenced = v)
    (Yields.ask fun c v _ hv => ?_) fun v => ?_
  · obtain ⟨_, -, hv⟩ := bind_eq_ok_iff.1 hv
    exact Except.ok.inj hv
  · split
    · next hv => exact Yields.pure fun _ h => h.trans hv
    · refine Yields.bind (Q := fun _ c => (c.arena.node p).flags.contains .packageReferenced)
        (Yields.change fun c e _ he => ?_) fun _ => Yields.modify fun _ h => h
      exact ((Arena.referenced_mark he).2 (.inr rfl)).2

/-- What an import answers: a member of a package of the name, and a package of the name is marked
then. -/
structure Delivers (name : String) (params : Option NodeId) (o : Option NodeId) (c : Context) :
    Prop where
  /-- What is found is declared by a package of the name. -/
  fromPackages : FromPackages c.arena name params (∀ n ∈ o, c.arena.MemberOf name n) c
  /-- If something is found, a package of the name is marked. -/
  marked : o ≠ none → ∃ p, c.arena.name p = name ∧ c.arena.Referenced p

theorem fromPackages_importMember (hcall : PackageCalls call) (hp : b.IsPackage name p)
    (import_ : NodeId) (item : String) (mode : SearchMode) :
    Yields (FromPackages b name params X) (importMember call import_ p item params mode)
      (Delivers name params) := by
  have hnone : ∀ {X : Prop}, Yields (FromPackages b name params X)
      (Pure.pure none : Search (Option NodeId)) (Delivers name params) :=
    Yields.pure fun d hd => ⟨hd.rebase.mono fun _ => nofun, fun h => absurd rfl h⟩
  refine FromPackages.createName fun id => ?_
  refine Yields.bind (fromPackages_findField hcall hp id mode) fun found => ?_
  refine Yields.bind (fromPackages_selectMember hcall.faithful found) fun o => ?_
  cases o with
  | none => exact hnone
  | some member =>
    have hmember : Yields (FromPackages b name params (∀ n ∈ some member, b.MemberOf name n)) (do
        markReferenced p
        return some member) (Delivers name params) := by
      refine Yields.bind (Yields.of_exec fun c u d hc hr => ?_) fun u => Yields.pure
        fun d (hd : FromPackages b name params (∀ n ∈ some member, b.MemberOf name n) d ∧
          (d.arena.node p).flags.contains .packageReferenced) => ⟨?_, fun _ => ⟨p, ?_⟩⟩
      · exact ⟨hc.course ((follows_markReferenced p).of_ok hc.consistent hr),
          (yields_markReferenced p).of_ok hc hr⟩
      · exact hd.1.rebase.mono fun h n hn => hd.1.frame.memberOf hd.1.before (h n hn)
      · exact ⟨(hd.1.isPackage hp).name, (hd.1.isPackage hp).kind, hd.2⟩
    refine Yields.bind (FromPackages.of_follows (follows_hasAttribute hcall.faithful member _))
      fun private_ => ?_
    split
    · exact hnone
    · refine Yields.bind (FromPackages.of_follows (follows_hasAttribute hcall.faithful member _))
        fun internal => ?_
      dsimp only
      split
      · refine Yields.arena_bind fun c hc => ?_
        split
        · exact hnone.start hc
        · exact hmember.start hc
      · exact hmember

/-- An import on its way: it has the name, and the matches among the arguments are as they should
be. -/
structure Asking (import_ : NodeId) (name : String) (params : Option NodeId) (c : Context) :
    Prop where
  /-- The matches belong to functions of packages of the name. -/
  fromPackages : FromPackages c.arena name params True c
  /-- The import is a node of the arena. -/
  there : import_.index < c.arena.size
  /-- It has the name. -/
  named : c.arena.name import_ = name

variable {import_ : NodeId} {item : String} {mode : SearchMode}

theorem Asking.next {d : Context} (h : Asking import_ name params c) (hd : Course params c d)
    (hfrom : FromPackages d.arena name params True d) : Asking import_ name params d := by
  have hframe := hd.frame h.fromPackages.consistent
  exact ⟨hfrom, Nat.lt_of_lt_of_le h.there hframe.size_le,
    (hframe.name_eq h.there).trans h.named⟩

theorem delivers_none (h : FromPackages c.arena name params True c) : Delivers name params none c :=
  ⟨h.mono fun _ => nofun, fun h => absurd rfl h⟩

theorem fromPackages_findPackageItem (hcall : PackageCalls call) (program : NodeId) :
    Yields (Asking import_ name params) (findPackageItem call program import_ item params mode)
      (Delivers name params) := by
  refine Yields.bind (Yields.nameOf import_) fun packageName => Yields.arena_bind fun c hc => ?_
  obtain ⟨hc, rfl⟩ := hc
  rw [hc.named]
  split
  · dsimp only
    split
    · exact Yields.bind Yields.any fun _ =>
        Yields.bind (Q := fun _ _ => False) Yields.fail fun _ => Yields.pure fun _ h => h.elim
    · exact Yields.pure fun _ hd => hd ▸ delivers_none hc.fromPackages
  · next package hpackage =>
    obtain ⟨hk, htext, -⟩ := Arena.of_findPackage hc.fromPackages.consistent hpackage
    split
    · exact Yields.pure fun _ hd => hd ▸ delivers_none hc.fromPackages
    · refine Yields.bind
        ((FromPackages.of_follows (follows_registerLabels _ _)).start hc.fromPackages) fun _ => ?_
      exact fromPackages_importMember hcall ⟨hk, Arena.name_of_textIs htext⟩ import_ item mode

theorem delivers_checkImport (hcall : PackageCalls call) :
    Yields (Asking import_ name params) (checkImport call import_ item params mode)
      (Delivers name params) := by
  refine Yields.bind (Q := fun _ => Asking import_ name params) (Yields.ask fun _ _ hc _ => hc)
    fun v => ?_
  split
  · exact Yields.pure fun _ hd => delivers_none hd.fromPackages
  · refine Yields.get_bind fun c hc => ?_
    extract_lets go
    have hgo : ∀ own, Yields (fun d => Delivers name params own d ∧ Asking import_ name params d)
        (go own) (Delivers name params) := by
      intro own
      cases own with
      | some found => exact Yields.pure fun _ hd => hd.1
      | none =>
        refine Yields.bind (Q := fun _ => Asking import_ name params) (Yields.of_exec
          fun c o d hc hr => ?_) fun o => ?_
        · have hd : Course none c d :=
            (follows_findExternalPackage import_ item).of_ok hc.2.fromPackages.consistent hr
          exact hc.2.next (hd.of_none params) (hc.2.fromPackages.course hd).rebase
        · cases o with
          | none => exact Yields.pure fun _ hd => delivers_none hd.fromPackages
          | some program => exact fromPackages_findPackageItem hcall program
    split
    · next program _ =>
      refine Yields.bind (Yields.of_exec fun d own e hd hr => ?_) hgo
      subst hd
      have he := (fromPackages_findPackageItem hcall program).of_ok hc hr
      exact ⟨he, hc.next ((follows_findPackageItem hcall.faithful program import_ item mode).of_ok
        hc.fromPackages.consistent hr) (he.fromPackages.mono fun _ => trivial)⟩
    · refine Yields.bind (Yields.pure fun _ hd => ?_) hgo
      subst hd
      exact ⟨delivers_none hc.fromPackages, hc⟩

/-- What an import yields stands inside a package of its name, and a package of that name is marked
as used, provided that the packages of the name are sealed and that the matches which are among the
arguments belong to functions of such packages. -/
theorem checkImport_yields {c e : Context} (hc : c.arena.Consistent) {import_ : NodeId}
    {item : String} {params : Option NodeId} {mode : SearchMode} {n : NodeId}
    (hparams : ∀ q ∈ params, q.index < c.arena.size)
    (hmatches : c.arena.Matches params (c.arena.MemberOf (c.arena.name import_)))
    (h : (run (checkImport · import_ item params mode)).exec c = (.ok (some n), e))
    (hsealed : e.arena.Seals (c.arena.name import_)) :
    (∃ p, e.arena.IsPackage (c.arena.name import_) p ∧ e.arena.Inside n p) ∧
      ∃ p, e.arena.name p = c.arena.name import_ ∧ e.arena.Referenced p := by
  rw [exec_run] at h
  have hthere : import_.index < c.arena.size := by
    refine Arena.lt_size_of_kind_ne fun hk => ?_
    have hflag : c.arena.flag import_ .importImplements =
        .error (.illegalFlag .importImplements .unknown) := by
      rw [Arena.flag, Arena.checkFlag, hk]
      rfl
    rw [checkImport, exec_bind, exec_ask, hflag] at h
    cases h
  have he := (delivers_checkImport (packageCalls_answer _)).of_ok
    ⟨⟨hc, hc, .refl _ _, hparams, fun _ => hmatches, fun _ => trivial⟩, hthere, rfl⟩ h
  obtain ⟨p, hp, hn⟩ := he.fromPackages.known hsealed n rfl
  exact ⟨⟨p, hp, hn.inside he.fromPackages.consistent⟩, he.marked (Option.some_ne_none n)⟩

/-! ### A function beside the package -/

/-- Where all imports that implement stand in the list of a program, nothing inherits and nothing
but matches was discarded, every package is sealed. -/
theorem seals_of_outside {a : Arena} (h : a.Consistent) {l q : NodeId} (hl : a.parent l = some q)
    (hq : a.kind q = .program)
    (hnodes : ∀ d ∈ a.nodes.toList, (d.kind ≠ .extends_ ∧ d.kind ≠ .implements) ∧
      (d.kind ≠ .paramMatch → d.alive = true) ∧ (d.kind = .import_ →
        d.flags.contains .importImplements = true → d.parent = some l)) (name : String) :
    a.Seals name := by
  have hnode : ∀ n : NodeId, n.index < a.size → a.node n ∈ a.nodes.toList := by
    intro n hn
    rw [Arena.node, Array.getD_eq_getD_getElem?, Array.getElem?_eq_getElem hn]
    exact Array.mem_toList_iff.2 (Array.getElem_mem hn)
  refine fun p hp => ⟨fun c hc => (hnodes _ (hnode c (h.child_lt p c hc))).1, fun x hx hk => ?_,
    fun n hn => (hnodes _ (hnode n (hn.lt_size h))).2.1 hn.kind_ne⟩
  by_contra hflag
  have hparent := (hnodes _ (hnode x (hx.lt_size h))).2.2 hk (by simpa using hflag)
  obtain ⟨-, m, hm, hmem⟩ := hx
  obtain rfl : m = l := Option.some.inj (((h.mem_children m x).1 hmem).symm.trans hparent)
  cases hm with
  | own hmem' _ =>
    obtain rfl : p = q := Option.some.inj (((h.mem_children p m).1 hmem').symm.trans hl)
    rw [hp.kind] at hq
    cases hq
  | @inner m' _ hm' hmem' _ =>
    obtain rfl : m' = q := Option.some.inj (((h.mem_children m' m).1 hmem').symm.trans hl)
    rw [hm'.kind] at hq
    cases hq

/-- A program with a class `T`, a package `P` with a function `f`, another `f` with a parameter, and
an import of `P`.  The functions return a `T`.  Apart from it a list with one argument. -/
def sharedHistory : List Command :=
  [.create .program {}, .create .directiveList {}, .create .class_ {}, .create .package {},
   .create .directiveList {}, .create .function {}, .create .function {}, .create .parameters {},
   .create .param {}, .create .import_ {}, .create .list {}, .create .identifier {},
   .setText ⟨2⟩ "T", .setText ⟨3⟩ "P", .setText ⟨5⟩ "f", .setText ⟨6⟩ "f", .setText ⟨8⟩ "a",
   .setText ⟨9⟩ "P", .setText ⟨11⟩ "y", .setFlag ⟨9⟩ .importImplements true,
   .appendChild ⟨0⟩ ⟨1⟩, .appendChild ⟨1⟩ ⟨2⟩, .appendChild ⟨1⟩ ⟨3⟩, .appendChild ⟨3⟩ ⟨4⟩,
   .appendChild ⟨4⟩ ⟨5⟩, .appendChild ⟨1⟩ ⟨6⟩, .appendChild ⟨6⟩ ⟨7⟩, .appendChild ⟨7⟩ ⟨8⟩,
   .appendChild ⟨1⟩ ⟨9⟩, .appendChild ⟨10⟩ ⟨11⟩, .setLink ⟨5⟩ .typeNode (some ⟨2⟩),
   .setLink ⟨6⟩ .typeNode (some ⟨2⟩)]

/-- The context of that program. -/
def sharedProgram : Context :=
  { arena := after sharedHistory, program := some ⟨0⟩, parser := fun _ => .rejected }

/-- The context after a function has left its match among the arguments. -/
def sharedContext (f : NodeId) : Context :=
  ((run (checkFunctionWithParams · f (some ⟨10⟩))).exec sharedProgram).2

/-- The context after the import was asked for `f`. -/
def sharedAfter (f : NodeId) : Context :=
  ((run (checkImport · ⟨9⟩ "f" (some ⟨10⟩) {})).exec (sharedContext f)).2

theorem consistent_sharedContext (f : NodeId) : (sharedContext f).arena.Consistent := by
  have hc : sharedProgram.arena.Consistent :=
    after_invariant Arena.consistent_empty Command.keeps_consistent sharedHistory
  have hrun : Follows (some ⟨10⟩) (run (checkFunctionWithParams · f (some ⟨10⟩))) :=
    follows_run fun _ hcall => follows_checkFunctionWithParams hcall f
  rw [sharedContext]
  exact (hrun.course sharedProgram hc).consistent hc

theorem seals_sharedAfter (f : NodeId) (h : (sharedAfter f).arena.parent ⟨1⟩ = some ⟨0⟩ ∧
    (sharedAfter f).arena.kind ⟨0⟩ = .program ∧
    ∀ d ∈ (sharedAfter f).arena.nodes.toList, (d.kind ≠ .extends_ ∧ d.kind ≠ .implements) ∧
      (d.kind ≠ .paramMatch → d.alive = true) ∧ (d.kind = .import_ →
        d.flags.contains .importImplements = true → d.parent = some ⟨1⟩)) (name : String) :
    (sharedAfter f).arena.Seals name := by
  have hc := consistent_sharedContext f
  have hrun : Follows (some ⟨10⟩) (run (checkImport · ⟨9⟩ "f" (some ⟨10⟩) {})) :=
    follows_run fun _ hcall => follows_checkImport hcall ⟨9⟩ "f" {}
  have he : (sharedAfter f).arena.Consistent := by
    rw [sharedAfter]
    exact (hrun.course (sharedContext f) hc).consistent hc
  exact seals_of_outside he h.1 h.2.1 h.2.2 name

/-- A second match of the package's own function does no harm. -/
theorem checkImport_yields_own :
    (∃ p, (sharedAfter ⟨5⟩).arena.IsPackage "P" p ∧ (sharedAfter ⟨5⟩).arena.Inside ⟨5⟩ p) ∧
      ∃ p, (sharedAfter ⟨5⟩).arena.name p = "P" ∧ (sharedAfter ⟨5⟩).arena.Referenced p := by
  have hname : (sharedContext ⟨5⟩).arena.name ⟨9⟩ = "P" := by decide +kernel
  have hmember : (sharedContext ⟨5⟩).arena.MemberOf "P" ⟨5⟩ := by
    refine ⟨⟨3⟩, ⟨by decide +kernel, by decide +kernel⟩, .inl ⟨by decide +kernel, ⟨4⟩,
      .own (by decide +kernel) (by decide +kernel), by decide +kernel⟩⟩
  have hmatches : (sharedContext ⟨5⟩).arena.Matches (some ⟨10⟩)
      ((sharedContext ⟨5⟩).arena.MemberOf "P") := by
    have hinst : ∀ m ∈ (sharedContext ⟨5⟩).arena.children ⟨10⟩,
        (sharedContext ⟨5⟩).arena.kind m = .paramMatch →
        ((sharedContext ⟨5⟩).arena.node m).inst = some ⟨5⟩ := by
      decide +kernel
    intro q hq m hm hk
    obtain rfl := Option.some.inj hq
    exact ⟨⟨5⟩, hinst m hm hk, hmember⟩
  have hrun : (run (checkImport · ⟨9⟩ "f" (some ⟨10⟩) {})).exec (sharedContext ⟨5⟩) =
      (.ok (some ⟨5⟩), sharedAfter ⟨5⟩) := by
    rw [sharedAfter]
    exact exec_of_toOption (by decide +kernel)
  rw [← hname] at hmatches ⊢
  exact checkImport_yields (consistent_sharedContext ⟨5⟩) (by decide +kernel) hmatches hrun
    (seals_sharedAfter ⟨5⟩ (by decide +kernel) _)

/-- An import may yield what no package of its name declares. -/
theorem import_yields_other : ¬ ∀ (c e : Context) (import_ : NodeId) (item : String)
    (params : Option NodeId) (mode : SearchMode) (n : NodeId),
    c.arena.Consistent → (∀ q ∈ params, q.index < c.arena.size) →
    (run (checkImport · import_ item params mode)).exec c = (.ok (some n), e) →
    e.arena.Seals (c.arena.name import_) →
    ∃ p, e.arena.IsPackage (c.arena.name import_) p ∧ e.arena.Inside n p := by
  intro h
  have hrun : (run (checkImport · ⟨9⟩ "f" (some ⟨10⟩) {})).exec (sharedContext ⟨6⟩) =
      (.ok (some ⟨6⟩), sharedAfter ⟨6⟩) := by
    rw [sharedAfter]
    exact exec_of_toOption (by decide +kernel)
  obtain ⟨p, hp, hinside⟩ := h _ _ _ _ _ _ _ (consistent_sharedContext ⟨6⟩) (by decide +kernel)
    hrun (seals_sharedAfter ⟨6⟩ (by decide +kernel) _)
  have hup : ∀ n ∈ [⟨6⟩, ⟨1⟩, ⟨0⟩], (sharedAfter ⟨6⟩).arena.kind n ≠ .package := by
    decide +kernel
  have hparents : (sharedAfter ⟨6⟩).arena.parent ⟨6⟩ = some ⟨1⟩ ∧
      (sharedAfter ⟨6⟩).arena.parent ⟨1⟩ = some ⟨0⟩ ∧
      (sharedAfter ⟨6⟩).arena.parent ⟨0⟩ = none := by
    decide +kernel
  have hmem : p ∈ ([⟨6⟩, ⟨1⟩, ⟨0⟩] : List NodeId) := by
    obtain rfl | ⟨x, hx, hinside⟩ := hinside.cases_head
    · simp
    · obtain rfl := Option.some.inj (hx.symm.trans hparents.1)
      obtain rfl | ⟨y, hy, hinside⟩ := hinside.cases_head
      · simp
      · obtain rfl := Option.some.inj (hy.symm.trans hparents.2.1)
        obtain rfl | ⟨z, hz, -⟩ := hinside.cases_head
        · simp
        · cases hz.symm.trans hparents.2.2
  exact hup p hmem hp.kind

end Search

end SymbolTree
