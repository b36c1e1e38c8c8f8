import SymbolTree.Proofs.Arena.Deed
import SymbolTree.Proofs.Search.Climbing
import SymbolTree.Proofs.Search.Nearby
import SymbolTree.Proofs.Search.Passage

/-!
# Names of types and parameters

A function does not show its parameters to the name of a type.  This holds for the scope of the
function only: a list of parameters shows the parameters before the one from which the name is
looked for, and a `catch` shows its own, and both do so whatever is looked for
(`Context.MeetsParam`).

Whatever is found elsewhere is no parameter of a function.  The members of a class or a package are
the children of lists of directives, and what else is asked for a name is there as a child of such a
list or at the head of a loop.

## Main statements

* `Search.resolveName_meetsParam` — which parameters the name of a type may stand for.
* `Search.type_resolved_to_param` — it may stand for one.
-/

set_option autoImplicit false
namespace SymbolTree

open Relation (TransGen)

/-- A module that declares things for all programs begins with a node. -/
def Context.StartsModule (c : Context) (n : NodeId) : Prop :=
  ∃ program, (c.globalImport = some program ∨ c.systemImport = some program ∨
    c.nativeImport = some program) ∧ (c.arena.children program).head? = some n

/-- The parameters that a search from `start` may come upon when it looks for a type. -/
inductive Context.MeetsParam (c : Context) (start p : NodeId) : Prop
  /-- A parameter of no function. -/
  | loose {l : NodeId} (hl : c.arena.kind l = .directiveList ∨ c.arena.kind l = .for_)
      (hp : p ∈ c.arena.children l)
  /-- A parameter before the one where the search starts. -/
  | earlier {l x : NodeId} {i j : Nat} (hl : c.arena.kind l = .parameters)
      (hp : (c.arena.children l)[i]? = some p) (hx : (c.arena.children l)[j]? = some x)
      (hij : i < j) (hstart : c.arena.Inside start x)
  /-- The parameter of a `catch` around the start, or of one with which a module begins that
  declares things for all programs. -/
  | caught {k l : NodeId} (hk : c.arena.kind k = .catch_)
      (hl : (c.arena.children k).head? = some l) (hp : (c.arena.children l).head? = some p)
      (hstart : TransGen c.arena.Under start k ∨ c.StartsModule k)

/-- What is met from further out is met from within. -/
theorem Context.MeetsParam.within {c : Context} {start n p : NodeId} (h : c.MeetsParam start p)
    (hn : c.arena.Inside n start) : c.MeetsParam n p := by
  cases h with
  | loose hl hp => exact .loose hl hp
  | earlier hl hp hx hij hstart => exact .earlier hl hp hx hij (hn.trans hstart)
  | caught hk hl hp hstart => exact .caught hk hl hp (hstart.imp_left fun h => .trans_right hn h)

namespace Search

variable {call : Call} {c d : Context} {start list id n : NodeId} {mode : SearchMode}

theorem Reaches.startsModule (h : Reaches c d) (hn : c.StartsModule n) : d.StartsModule n := by
  obtain ⟨program, hprogram, hn⟩ := hn
  refine ⟨program, ?_, ?_⟩
  · rwa [h.provided.1, h.provided.2.1, h.provided.2.2]
  · rwa [h.children (Arena.lt_size_of_mem_children (List.mem_of_mem_head? hn))]

theorem Reaches.meetsParam (h : Reaches c d) (hn : c.MeetsParam start n) : d.MeetsParam start n := by
  cases hn with
  | @loose l hl hp =>
    have hkind : d.arena.kind l = c.arena.kind l :=
      h.grows.kind (Arena.lt_size_of_mem_children hp)
    refine .loose (l := l) (by rwa [hkind]) ?_
    rwa [h.children (Arena.lt_size_of_mem_children hp)]
  | @earlier l x i j hl hp hx hij hstart =>
    have hlt := Arena.lt_size_of_mem_children (List.mem_of_getElem? hp)
    refine .earlier (l := l) (x := x) ?_ ?_ ?_ hij (h.inside hstart)
    · rwa [h.grows.kind hlt]
    · rwa [h.children hlt]
    · rwa [h.children hlt]
  | @caught k l hk hl hp hstart =>
    have hklt := Arena.lt_size_of_mem_children (List.mem_of_mem_head? hl)
    refine .caught (k := k) (l := l) ?_ ?_ ?_ (hstart.imp h.below h.startsModule)
    · rwa [h.grows.kind hklt]
    · rwa [h.children hklt]
    · rwa [h.children (Arena.lt_size_of_mem_children (List.mem_of_mem_head? hp))]

/-- What was found, if anything, is there, and a parameter among it was met. -/
def Meets (start : NodeId) (o : Option NodeId) (c : Context) : Prop :=
  ∀ n ∈ o, n.index < c.arena.size ∧ (c.arena.kind n = .param → c.MeetsParam start n)

theorem meets_none : Meets start none c := nofun

theorem Meets.reaches {o : Option NodeId} (h : Meets start o c) (hd : Reaches c d) :
    Meets start o d := by
  intro n hn
  obtain ⟨hlt, hparam⟩ := h n hn
  refine ⟨hd.lt hlt, fun hk => hd.meetsParam (hparam ?_)⟩
  rwa [hd.grows.kind hlt] at hk

theorem meets_of_kind (hn : n.index < c.arena.size) (hk : c.arena.kind n ≠ .param) :
    Meets start (some n) c := by
  intro m hm
  cases hm
  exact ⟨hn, fun h => absurd h hk⟩

/-- What is declared nearby is met if the declaration is. -/
theorem Meets.gives {m : NodeId} (hc : c.arena.Consistent) (hn : Meets start (some n) c)
    (hm : c.arena.Gives n m) : Meets start (some m) c := by
  obtain rfl | ⟨hmem, hk⟩ | ⟨-, hk⟩ := hm
  · exact hn
  · exact meets_of_kind (hc.child_lt n m hmem) (by rw [hk]; decide)
  · exact meets_of_kind (Arena.lt_size_of_kind_ne (by rw [hk]; decide)) (by rw [hk]; decide)

/-- The children at some places of a list are met, if they are parameters. -/
structure Offered (start list : NodeId) (places : List Nat) (c : Context) : Prop where
  /-- The list is there. -/
  lt : list.index < c.arena.size
  /-- A child at one of the places is met. -/
  meets : ∀ i ∈ places, ∀ n, (c.arena.children list)[i]? = some n → Meets start (some n) c

theorem Offered.reaches {places : List Nat} (h : Offered start list places c) (hd : Reaches c d) :
    Offered start list places d := by
  refine ⟨hd.lt h.lt, fun i hi n hn => ?_⟩
  rw [hd.children h.lt] at hn
  exact (h.meets i hi n hn).reaches hd

/-- A list of directives, like the head of a loop, has no parameters of functions. -/
theorem offered_of_kind (hc : c.arena.Consistent)
    (hk : c.arena.kind list = .directiveList ∨ c.arena.kind list = .for_) (places : List Nat) :
    Offered start list places c := by
  refine ⟨Arena.lt_size_of_kind_ne (by rcases hk with hk | hk <;> rw [hk] <;> decide), ?_⟩
  intro i _ n hn m hm
  cases hm
  have hmem := List.mem_of_getElem? hn
  exact ⟨hc.child_lt list n hmem, fun _ => .loose hk hmem⟩

/-! ## Members -/

/-- A call that finds members without meeting a parameter that it should not. -/
structure Meeting (start : NodeId) (call : Call) : Prop where
  /-- Every request runs a course. -/
  faithful : Faithful call
  /-- Members of a class are met. -/
  findMember : ∀ (c : Context) (link field : NodeId) (t : Tally) (mode : SearchMode),
    Meets start t.found c →
      Runs c (call (.findMember link field t none mode)) fun r d => Meets start r.2.found d
  /-- What a list of directives declares is met. -/
  findInList : ∀ (c : Context) (list field : NodeId) (t : Tally) (mode : SearchMode),
    c.arena.kind list = .directiveList → Meets start t.found c →
      Runs c (call (.findInList list field t none mode)) fun r d => Meets start r.2.found d

/-- What each step keeps of what was found is kept by all of them. -/
theorem runs_scan {α : Type} {step : α → Tally → Search (Bool × Tally)} {xs : List α}
    (h : ∀ x ∈ xs, ∀ d t, Reaches c d → Meets start t.found d →
      Runs d (step x t) fun r e => Meets start r.2.found e) {t : Tally}
    (ht : Meets start t.found c) :
    Runs c (scan step xs t) fun r d => Meets start r.2.found d := by
  induction xs generalizing c t with
  | nil => exact .pure ht
  | cons x xs ih =>
    refine .of_start fun hc => ?_
    refine (h x List.mem_cons_self c t (.refl hc) ht).bind fun r d hd hr => ?_
    obtain ⟨ended, t⟩ := r
    dsimp only
    split
    · exact .pure hr
    · exact ih (fun y hy e t he => h y (List.mem_cons_of_mem x hy) e t (hd.trans he)) hr

theorem runs_findInSupers (hcall : Meeting start call) (link field : NodeId) (names : List NodeId)
    (count : Nat) {t : Tally} (ht : Meets start t.found c) :
    Runs c (findInSupers call link field none mode names count t) fun r d =>
      Meets start r.2.found d := by
  induction names generalizing c count t with
  | nil => exact .pure ht
  | cons name names ih =>
    refine Runs.follows_bind (follows_linkedClass hcall.faithful name) fun o d hd => ?_
    cases o with
    | none => exact Runs.follows_bind (.warning ..) fun _ e he => ih _ ((ht.reaches hd).reaches he)
    | some x =>
      exact (hcall.findMember d x field t mode (ht.reaches hd)).bind fun r e _ hr => ih _ hr

theorem runs_findInExtends (hcall : Meeting start call) (link field : NodeId) {t : Tally}
    (ht : Meets start t.found c) :
    Runs c (findInExtends call link field t none mode) fun r d => Meets start r.2.found d := by
  refine .withLock (.lock · _) (fun hd => .arena_bind ?_) fun _ _ _ he _ h => h.reaches he
  refine (runs_findInSupers hcall link field _ 0 (ht.reaches hd)).bind fun r d _ hr => ?_
  obtain ⟨count, t⟩ := r
  dsimp only
  split
  · exact .pure hr
  · split
    · exact Runs.follows_bind (.nameOf field) fun _ _ he =>
        Runs.follows_bind (.error ..) fun _ _ hf =>
        .pure ((Meets.reaches hr he).reaches hf)
    · exact .pure hr

theorem runs_findInBody (hcall : Meeting start call) (link field : NodeId) {t : Tally}
    (ht : Meets start t.found c) :
    Runs c (findInBody call link field t none mode) fun r d => Meets start r.2.found d := by
  refine .withLock (.lock · _) (fun hd => .arena_bind ?_) fun _ _ _ he _ h => h.reaches he
  refine runs_scan (fun list hlist d t hd ht => ?_) (ht.reaches hd)
  obtain ⟨-, hk⟩ := List.mem_filter.1 hlist
  rw [decide_eq_true_eq] at hk
  exact hcall.findInList d list field t mode ((hd.kind (by rw [hk]; decide)).trans hk) ht

theorem runs_findMember (hcall : Meeting start call) (link field : NodeId) {t : Tally}
    (ht : Meets start t.found c) :
    Runs c (findMember call link field t none mode) fun r d => Meets start r.2.found d := by
  refine (runs_findInBody hcall link field ht).bind fun r d _ hr => ?_
  obtain ⟨found, t⟩ := r
  dsimp only
  split
  · exact .pure hr
  · exact runs_findInExtends hcall link field hr

theorem runs_findField (hcall : Meeting start call) (link field : NodeId) (funcs : Nat) :
    Runs c (findField call link field funcs none mode) fun r d => Meets start r.1 d := by
  refine .withFreshRejections (fun _ => ?_) fun _ _ _ he _ h => h.reaches he
  refine (hcall.findMember _ link field { funcs } mode meets_none).bind fun r d _ hr => ?_
  obtain ⟨found, t⟩ := r
  dsimp only
  split
  · exact Runs.follows_bind (modular_follows.reportRejections field) fun _ _ _ => .pure meets_none
  · split
    · split
      · exact Runs.follows_bind (follows_linkField field _) fun _ _ he =>
          .pure (Meets.reaches hr he)
      · exact .pure hr
    · exact .pure hr

/-- Without arguments there is nothing to select from. -/
theorem runs_selectMember (found : Option NodeId × Nat) (h : Meets start found.1 c) :
    Runs c (selectMember call found none) fun o d => Meets start o d := by
  rw [selectMember, if_pos (by simp)]
  exact .pure h

theorem runs_resolveField (hcall : Meeting start call) (object field : NodeId) :
    Runs c (resolveField call object field none mode) fun o d => Meets start o d := by
  refine Runs.follows_bind (follows_classOfObject hcall.faithful object) fun o d _ => ?_
  cases o with
  | none => exact .pure meets_none
  | some link =>
    refine .arena_bind ?_
    split
    · exact (runs_findField hcall link field 0).bind fun found e _ h => runs_selectMember found h
    · exact .pure meets_none

/-! ## Imports -/

theorem runs_importMember (hcall : Meeting start call) (import_ package : NodeId) (name : String) :
    Runs c (importMember call import_ package name none mode) fun o d => Meets start o d := by
  refine Runs.createName fun id d _ => ?_
  refine (runs_findField hcall package id 0).bind fun found e _ hfound => ?_
  refine (runs_selectMember found hfound).bind fun o e _ ho => ?_
  cases o with
  | none => exact .pure meets_none
  | some member =>
    have hmark : ∀ d, Reaches e d → Runs d (do
        markReferenced package
        return some member : Search (Option NodeId)) fun o d => Meets start o d := fun d hd =>
      Runs.follows_bind (follows_markReferenced package) fun _ _ hf =>
        .pure ((Meets.reaches ho hd).reaches hf)
    refine Runs.follows_bind (follows_hasAttribute hcall.faithful member _) fun b d hd => ?_
    split
    · exact .pure meets_none
    · refine Runs.follows_bind (follows_hasAttribute hcall.faithful member _) fun b d' hd' => ?_
      dsimp only
      split
      · refine .arena_bind ?_
        split
        · exact .pure meets_none
        · exact hmark d' (hd.trans hd')
      · exact hmark d' (hd.trans hd')

theorem runs_findPackageItem (hcall : Meeting start call) (program import_ : NodeId)
    (name : String) :
    Runs c (findPackageItem call program import_ name none mode) fun o d => Meets start o d := by
  refine Runs.follows_bind (.nameOf import_) fun packageName d _ => .arena_bind ?_
  split
  · dsimp only
    split
    · exact Runs.follows_bind (.error ..) fun _ _ _ => .fail_bind trivial
    · exact .pure meets_none
  · split
    · exact .pure meets_none
    · exact Runs.follows_bind (follows_registerLabels _ _) fun _ _ _ =>
        runs_importMember hcall import_ _ name

theorem runs_checkImport (hcall : Meeting start call) (import_ : NodeId) (name : String) :
    Runs c (checkImport call import_ name none mode) fun o d => Meets start o d := by
  refine .ask_bind (fun _ _ => trivial) fun b _ => ?_
  split
  · exact .pure meets_none
  · refine .get_bind ?_
    extract_lets go
    have hgo : ∀ own e, Meets start own e → Runs e (go own) fun o d => Meets start o d := by
      intro own e hown
      cases own with
      | some found => exact .pure hown
      | none =>
        refine Runs.follows_bind (follows_findExternalPackage import_ name) fun o _ _ => ?_
        cases o with
        | none => exact .pure meets_none
        | some program => exact runs_findPackageItem hcall program import_ name
    split
    · exact (runs_findPackageItem hcall _ import_ name).bind fun own e _ h => hgo own e h
    · exact hgo none c meets_none

/-! ## Declarations -/

theorem runs_candidate (hcall : Meeting start call) (hn : Meets start (some n) c) :
    Runs c (candidate call n id none mode) fun o d => o.All fun m => Meets start (some m) d := by
  refine .of_start fun hc => ?_
  have hgives : Runs c (candidate call n id none mode) fun o d =>
      o.All fun m => c.arena.Gives n m ∨ c.arena.kind n = .import_ ∧ Meets start (some m) d := by
    refine Runs.of_yields (follows_candidate hcall.faithful n id mode) fun hc => ?_
    refine gives_candidate (Q := fun m d => Meets start (some m) d) n id none mode fun _ => ?_
    refine ((runs_checkImport hcall n _).yields hc).mono (fun _ h => h) fun o d hd m hm => ?_
    cases hm
    exact hd.2
  refine hgives.mono fun o d hd ho => ho.imp fun m hm => ?_
  rcases hm with hm | ⟨-, hm⟩
  · exact (hn.gives hc hm).reaches hd
  · exact hm

theorem runs_checkName (hcall : Meeting start call) {index : Nat}
    (hn : ∀ n, (c.arena.children list)[index]? = some n → Meets start (some n) c) :
    Runs c (checkName call list index id none mode) fun o d => Meets start o d := by
  refine .arena_bind ?_
  split
  · exact .internal
  · next n hi =>
    refine (runs_candidate hcall (hn n hi)).bind fun o d _ ho => ?_
    cases o with
    | none => exact .pure meets_none
    | open_ m => exact .pure ho
    | guarded m =>
      refine Runs.follows_bind (follows_rejection hcall.faithful id m) fun o e he => ?_
      cases o with
      | some r => exact Runs.follows_bind (.reject r) fun _ _ _ => .pure meets_none
      | none =>
        refine .arena_bind ?_
        rw [if_neg (by simp)]
        exact .pure (Meets.reaches ho he)

theorem runs_tryChild (hcall : Meeting start call) {index : Nat}
    (hn : ∀ n, (c.arena.children list)[index]? = some n → Meets start (some n) c) {t : Tally}
    (ht : Meets start t.found c) :
    Runs c (tryChild call list id none mode index t) fun r d => Meets start r.2.found d := by
  refine (runs_checkName hcall hn).bind fun o d hd ho => ?_
  cases o with
  | none => exact .pure (ht.reaches hd)
  | some n => exact .arena_bind (.pure (by rwa [Tally.found_settle]))

theorem runs_tryBodyChild (hcall : Meeting start call) (hk : c.arena.kind list = .directiveList)
    (index : Nat) {t : Tally} (ht : Meets start t.found c) :
    Runs c (tryBodyChild call list id none mode index t) fun r d => Meets start r.2.found d := by
  refine .of_start fun hc => .ask_bind (fun _ _ => trivial) fun m _ => .arena_bind ?_
  split
  · next hm =>
    refine (hcall.findInList c m id t mode hm ht).bind fun r e _ hr => ?_
    obtain ⟨found, t⟩ := r
    dsimp only
    split
    · exact .arena_bind (.pure (by rwa [Tally.found_settle]))
    · exact .pure hr
  · exact .pure ht
  · exact runs_tryChild hcall
      ((offered_of_kind hc (.inl hk) [index]).meets index List.mem_cons_self) ht

theorem runs_findInList (hcall : Meeting start call) (hk : c.arena.kind list = .directiveList)
    {t : Tally} (ht : Meets start t.found c) :
    Runs c (findInList call list id t none mode) fun r d => Meets start r.2.found d := by
  refine .withLock (.lock · _) (fun hlock => .arena_bind ?_) fun _ _ _ he _ h => h.reaches he
  refine runs_scan (fun index _ d t hd ht => ?_) (ht.reaches hlock)
  have hkind := (hlock.trans hd).kind (n := list) (by rw [hk]; decide)
  exact runs_tryBodyChild hcall (hkind.trans hk) index ht

theorem meeting_answer (start : NodeId) (fuel : Nat) : Meeting start (answer fuel) := by
  induction fuel with
  | zero => exact ⟨faithful_answer 0, fun _ _ _ _ _ _ => .throw trivial,
    fun _ _ _ _ _ _ _ => .throw trivial⟩
  | succ fuel ih =>
    exact ⟨faithful_answer _, fun _ link field _ _ ht => runs_findMember ih link field ht,
      fun _ _ _ _ _ hk ht => runs_findInList ih hk ht⟩

/-! ## Scopes -/

/-- However the search in a scope ends, what was found was met. -/
def Step.Met (start : NodeId) : Step → Context → Prop
  | .ended o, c => Meets start o c
  | .next t, c => Meets start t.found c

theorem Step.Met.reaches {s : Step} (h : s.Met start c) (hd : Reaches c d) : s.Met start d := by
  cases s with
  | ended o => exact Meets.reaches h hd
  | next t => exact Meets.reaches h hd

theorem Step.met_ofScan {r : Bool × Tally} (h : Meets start r.2.found c) :
    (Step.ofScan r).Met start c := by
  obtain ⟨_ | _, t⟩ := r
  · exact h
  · exact h

/-- A name is marked as the name of a type. -/
def NamesType (id : NodeId) (c : Context) : Prop :=
  (c.arena.node id).attributes.contains .type = true

instance : Decidable (NamesType id c) :=
  inferInstanceAs (Decidable ((c.arena.node id).attributes.contains .type = true))

theorem NamesType.reaches (h : NamesType id c) (hd : Reaches c d) : NamesType id d := by
  have hlt : id.index < c.arena.size := by
    by_contra hlt
    rw [NamesType, Arena.node_of_size_le (Nat.le_of_not_lt hlt)] at h
    cases h
  exact (hd.grows.node id hlt).attributes _ h

/-- A scope is entered from below, or it is the beginning of a module that declares things for all
programs. -/
def Entered (start list : NodeId) (offset : Nat) (c : Context) : Prop :=
  (∃ x, (c.arena.children list)[offset]? = some x ∧ c.arena.Inside start x) ∨
    offset = 0 ∧ c.StartsModule list

theorem Entered.reaches {offset : Nat} (h : Entered start list offset c) (hd : Reaches c d) :
    Entered start list offset d := by
  obtain ⟨x, hx, hstart⟩ | ⟨hzero, hlist⟩ := h
  · refine .inl ⟨x, ?_, hd.inside hstart⟩
    rwa [hd.children (Arena.lt_size_of_mem_children (List.mem_of_getElem? hx))]
  · exact .inr ⟨hzero, hd.startsModule hlist⟩

/-- The parameters before the one from which their list was entered. -/
theorem Entered.earlier {offset : Nat} (h : Entered start list offset c)
    (hc : c.arena.Consistent) (hk : c.arena.kind list = .parameters) :
    Offered start list (List.range offset).reverse c := by
  refine ⟨Arena.lt_size_of_kind_ne (by rw [hk]; decide), fun i hi n hn m hm => ?_⟩
  cases hm
  have hi : i < offset := List.mem_range.1 (List.mem_reverse.1 hi)
  refine ⟨hc.child_lt list n (List.mem_of_getElem? hn), fun _ => ?_⟩
  obtain ⟨x, hx, hstart⟩ | ⟨rfl, -⟩ := h
  · exact .earlier hk hn hx hi hstart
  · exact absurd hi (Nat.not_lt_zero i)

/-- The parameter of a `catch` that was entered. -/
theorem Entered.caught {offset : Nat} (h : Entered start list offset c) (hc : c.arena.Consistent)
    (hk : c.arena.kind list = .catch_) {l : NodeId} (hl : (c.arena.children list).head? = some l) :
    Offered start l [0] c := by
  refine ⟨hc.child_lt list l (List.mem_of_mem_head? hl), fun i hi n hn m hm => ?_⟩
  cases hm
  obtain rfl := List.mem_singleton.1 hi
  refine ⟨hc.child_lt l n (List.mem_of_getElem? hn), fun _ => ?_⟩
  refine .caught hk hl (by rwa [List.head?_eq_getElem?]) ?_
  obtain ⟨x, hx, hstart⟩ | ⟨-, hlist⟩ := h
  · exact .inl (.tail' hstart ((hc.mem_children list x).1 (List.mem_of_getElem? hx)))
  · exact .inr hlist

theorem runs_askChildren (hcall : Meeting start call) {places : List Nat}
    (hlist : Offered start list places c) {t : Tally} (ht : Meets start t.found c) :
    Runs c (askChildren call ⟨id, none, mode⟩ list places t) fun s d => s.Met start d := by
  refine (runs_scan (fun i hi d t hd ht => ?_) ht).bind fun _ _ _ hr => .pure (Step.met_ofScan hr)
  exact runs_tryChild hcall ((hlist.reaches hd).meets i hi) ht

theorem runs_inDirectives (hcall : Meeting start call) (hk : c.arena.kind list = .directiveList)
    (offset : Nat) {t : Tally} (ht : Meets start t.found c) :
    Runs c (inDirectives call ⟨id, none, mode⟩ list offset t) fun s d => s.Met start d := by
  refine .of_start fun hc => .arena_bind ?_
  dsimp only
  split
  · exact .internal_bind
  · exact runs_askChildren hcall (offered_of_kind hc (.inl hk) _) ht

theorem runs_inWith (hcall : Meeting start call) (list : NodeId) {t : Tally}
    (ht : Meets start t.found c) :
    Runs c (inWith call ⟨id, none, mode⟩ list t) fun s d => s.Met start d := by
  refine .arena_bind ?_
  split
  · split
    · exact .pure ht
    · refine (runs_resolveField hcall _ id).bind fun o d hd ho => ?_
      cases o with
      | none => exact .pure (ht.reaches hd)
      | some found =>
        refine Runs.follows_bind (.setFlag id (by decide)) fun _ e he => ?_
        dsimp only
        split
        · exact .internal_bind
        · exact .pure (Meets.reaches ho he)
  · exact .pure ht

/-- The parameters of a function are not asked for the name of a type. -/
theorem runs_inFunction (hid : NamesType id c) (list : NodeId) {t : Tally}
    (ht : Meets start t.found c) :
    Runs c (inFunction call ⟨id, none, mode⟩ list t) fun s d => s.Met start d := by
  refine .ask_bind (fun _ _ => trivial) fun b hb => ?_
  obtain ⟨_, -, hb⟩ := bind_eq_ok_iff.1 hb
  rw [if_pos ((Except.ok.inj hb).symm.trans hid)]
  exact .pure ht

theorem runs_inCatch (hcall : Meeting start call) {offset : Nat}
    (hlist : Entered start list offset c) (hk : c.arena.kind list = .catch_) {t : Tally}
    (ht : Meets start t.found c) :
    Runs c (inCatch call ⟨id, none, mode⟩ list t) fun s d => s.Met start d := by
  refine .of_start fun hc => .arena_bind ?_
  split
  · exact .pure ht
  · next parameters hl =>
    split
    · exact .pure ht
    · exact runs_askChildren hcall (hlist.caught hc hk hl) ht

theorem runs_inEnum (list : NodeId) (name : String) {t : Tally} (ht : Meets start t.found c) :
    Runs c (inEnum list name t) fun s d => s.Met start d := by
  refine .of_start fun hc => .arena_bind ?_
  split
  · exact .pure ht
  · next v hv =>
    obtain ⟨hmem, hk⟩ := of_findVariable hv
    have hmet : Meets start (some v) c :=
      meets_of_kind (hc.child_lt list v hmem) (by rw [hk]; decide)
    exact Runs.follows_bind (.setFlag v (by decide)) fun _ _ hd => .pure (hmet.reaches hd)

theorem runs_inClass (hcall : Meeting start call) (list : NodeId) {t : Tally}
    (ht : Meets start t.found c) :
    Runs c (inClass call ⟨id, none, mode⟩ list t) fun s d => s.Met start d := by
  refine (runs_findInExtends hcall list id ht).bind fun r d _ hr => ?_
  obtain ⟨found, t⟩ := r
  dsimp only
  split
  · exact .arena_bind (.pure (Step.met_ofScan (by rwa [Tally.found_settle])))
  · exact .pure hr

theorem runs_inScope (hcall : Meeting start call) (hid : NamesType id c) {offset : Nat}
    (hlist : Entered start list offset c) {t : Tally} (ht : Meets start t.found c) :
    Runs c (inScope call ⟨id, none, mode⟩ list offset t) fun s d => s.Met start d := by
  refine .of_start fun hc => .arena_bind ?_
  dsimp only
  split
  · next henum =>
    simp only [Bool.and_eq_true, decide_eq_true_eq] at henum
    have hmet : Meets start (some list) c := meets_of_kind
      (Arena.lt_size_of_kind_ne (by rw [henum.1]; decide)) (by rw [henum.1]; decide)
    exact Runs.follows_bind (.setFlag list (by decide)) fun _ _ hd => .pure (hmet.reaches hd)
  · refine .withLock (.lock · _) (fun hd => ?_) fun _ _ _ he _ h => h.reaches he
    have ht' := ht.reaches hd
    split
    · next hk => exact runs_inDirectives hcall (by exact hk) offset ht'
    · next hk => exact runs_askChildren hcall (offered_of_kind hd.consistent (.inr hk) _) ht'
    · exact runs_inWith hcall list ht'
    · exact runs_inFunction (hid.reaches hd) list ht'
    · next hk => exact runs_askChildren hcall ((hlist.reaches hd).earlier hd.consistent hk) ht'
    · next hk => exact runs_inCatch hcall (hlist.reaches hd) hk ht'
    · exact runs_inEnum list _ ht'
    · exact runs_inClass hcall list ht'
    · exact runs_inClass hcall list ht'
    · exact .internal

/-- Without arguments no functions were counted, so that nothing is left to select from. -/
theorem runs_conclude (t : Tally) :
    Runs c (conclude call ⟨id, none, mode⟩ t) fun o d => Meets start o d := by
  unfold conclude
  extract_lets go
  have hgo : ∀ d, Runs d (go none) fun o d => Meets start o d := fun _ =>
    Runs.follows_bind (modular_follows.reportRejections id) fun _ _ _ => .pure meets_none
  split
  · exact .internal_bind
  · exact hgo c

theorem runs_walkImports (hcall : Meeting start call) (hid : NamesType id c)
    {imports : List (Context → Option NodeId)}
    (himports : ∀ i ∈ imports, ∀ d program, i d = some program → d.globalImport = some program ∨
      d.systemImport = some program ∨ d.nativeImport = some program) {t : Tally}
    (ht : Meets start t.found c) :
    Runs c (walkImports call ⟨id, none, mode⟩ imports t) fun o d => Meets start o d := by
  induction imports generalizing c t with
  | nil => exact runs_conclude t
  | cons import_ imports ih =>
    have hrest := fun i hi => himports i (List.mem_cons_of_mem import_ hi)
    refine .get_bind ?_
    split
    · exact ih hid hrest ht
    · next list hlist =>
      obtain ⟨program, hprogram, hlist⟩ := Option.bind_eq_some_iff.1 hlist
      have hentered : Entered start list 0 c :=
        .inr ⟨rfl, program, himports import_ List.mem_cons_self c program hprogram, hlist⟩
      refine (runs_inScope hcall hid hentered ht).bind fun s d hd hs => ?_
      cases s with
      | ended answer => exact .pure hs
      | next t => exact ih (hid.reaches hd) hrest hs

/-- The search goes outwards, so that it enters every scope from where it started. -/
theorem runs_walkScopes (hcall : Meeting start call) (hid : NamesType id c) (fuel : Nat)
    (hn : c.arena.Inside start n) {t : Tally} (ht : Meets start t.found c) :
    Runs c (walkScopes call ⟨id, none, mode⟩ fuel n t) fun o d => Meets start o d := by
  induction fuel generalizing c n t with
  | zero => exact .throw trivial
  | succ fuel ih =>
    refine .arena_bind ?_
    split
    · exact .fail trivial
    · next list offset hscope =>
      split
      · refine runs_walkImports hcall hid (fun i hi d program hprogram => ?_) ht
        simp only [List.mem_cons, List.not_mem_nil, or_false] at hi
        rcases hi with rfl | rfl | rfl
        · exact .inl hprogram
        · exact .inr (.inl hprogram)
        · exact .inr (.inr hprogram)
      · obtain ⟨x, hx, hinside⟩ := entered_of_enclosingScope hscope
        have hentered : Entered start list offset c := .inl ⟨x, hx, hn.trans hinside⟩
        refine (runs_inScope hcall hid hentered ht).bind fun s d hd hs => ?_
        cases s with
        | ended answer => exact .pure hs
        | next t =>
          have hlist := hn.trans (below_of_enclosingScope hscope).to_reflTransGen
          exact ih (hid.reaches hd) (hd.inside hlist) hs

/-! ## Names -/

theorem Meets.within {o : Option NodeId} (h : Meets start o c) (hn : c.arena.Inside n start) :
    Meets n o c :=
  fun m hm => ⟨(h m hm).1, fun hk => ((h m hm).2 hk).within hn⟩

theorem runs_resolveName (hcall : ∀ start, Meeting start call)
    (hk : c.arena.kind id = .identifier) (hid : NamesType id c)
    (hnone : c.arena.typeNode id = none) (list : NodeId) :
    Runs c (resolveName call list id none mode) fun o d => Meets list o d := by
  refine .withFreshRejections (fun hd => .arena_bind ?_) fun _ _ _ he _ h => h.reaches he
  rw [if_neg (by rw [hk]; decide), if_neg (by rw [hk]; decide)]
  split
  · next resolved htype => exact absurd (hnone.symm.trans htype) nofun
  · extract_lets outside
    have hinside : c.arena.Inside list outside := by
      dsimp only [outside]
      split
      · next p hp =>
        split
        · exact .single hp
        · exact .refl
      · exact .refl
    refine (runs_walkScopes (hcall outside) (hid.reaches hd) _ .refl (t := {}) meets_none).mono
      fun o e he ho => ho.within ?_
    exact (hd.trans he).inside hinside

/-- **The name of a type stands for a parameter only where no function shows it**: the parameter is
before the one from which the name is looked for, it is that of a `catch`, or it is that of no
function at all. -/
theorem resolveName_meetsParam {p : NodeId} (hc : c.arena.Consistent)
    (hk : c.arena.kind id = .identifier) (hid : NamesType id c)
    (hnone : c.arena.typeNode id = none)
    (hr : (run (resolveName · list id none mode)).exec c = (.ok (some p), d))
    (hp : d.arena.kind p = .param) : d.MeetsParam list p := by
  rw [exec_run] at hr
  have hruns : Runs c (resolveName (answer (fuel c)) list id none mode) (Meets list) :=
    runs_resolveName (fun start => meeting_answer start (fuel c)) hk hid hnone list
  exact ((hruns.of_ok hc hr).2 p rfl).2 hp

/-- The requests that make a `catch` with the parameter `e`, in the body of which `e` is the name of
a type. -/
def caughtHistory : List Command :=
  [.create .program {}, .create .directiveList {}, .create .catch_ {}, .create .parameters {},
   .create .param {}, .create .directiveList {}, .create .identifier {},
   .setText ⟨4⟩ "e", .setText ⟨6⟩ "e", .setAttribute ⟨6⟩ .type true,
   .appendChild ⟨0⟩ ⟨1⟩, .appendChild ⟨1⟩ ⟨2⟩, .appendChild ⟨2⟩ ⟨3⟩, .appendChild ⟨3⟩ ⟨4⟩,
   .appendChild ⟨2⟩ ⟨5⟩, .appendChild ⟨5⟩ ⟨6⟩]

/-- The context of that `catch`. -/
def caughtContext : Context := { arena := after caughtHistory, parser := fun _ => .rejected }

/-- The context that the search for `e` leaves. -/
def caughtContextAfter : Context :=
  ((run (resolveName · ⟨6⟩ ⟨6⟩ none {})).exec caughtContext).2

/-- A `catch` shows its parameter to the name of a type. -/
theorem resolveName_meetsParam_caught :
    (run (resolveName · ⟨6⟩ ⟨6⟩ none {})).exec caughtContext
      = (.ok (some ⟨4⟩), caughtContextAfter) ∧
    caughtContextAfter.MeetsParam ⟨6⟩ ⟨4⟩ := by
  have hc : caughtContext.arena.Consistent := by
    dsimp only [caughtContext]
    exact after_invariant (I := Arena.Consistent) Arena.consistent_empty Command.keeps_consistent
      caughtHistory
  have hr : (run (resolveName · ⟨6⟩ ⟨6⟩ none {})).exec caughtContext =
      (.ok (some ⟨4⟩), caughtContextAfter) :=
    exec_of_toOption (by decide +kernel)
  exact ⟨hr, resolveName_meetsParam hc (by decide +kernel) (by decide +kernel)
    (by decide +kernel) hr (by decide +kernel)⟩

/-- The requests that make a function with a parameter `T` before one whose type is named `T`. -/
def earlierHistory : List Command :=
  [.create .program {}, .create .directiveList {}, .create .function {}, .create .parameters {},
   .create .param {}, .create .param {}, .create .identifier {},
   .setText ⟨2⟩ "f", .setText ⟨4⟩ "T", .setText ⟨5⟩ "x", .setText ⟨6⟩ "T",
   .setAttribute ⟨6⟩ .type true,
   .appendChild ⟨0⟩ ⟨1⟩, .appendChild ⟨1⟩ ⟨2⟩, .appendChild ⟨2⟩ ⟨3⟩, .appendChild ⟨3⟩ ⟨4⟩,
   .appendChild ⟨3⟩ ⟨5⟩, .appendChild ⟨5⟩ ⟨6⟩]

/-- The context of that function. -/
def earlierContext : Context := { arena := after earlierHistory, parser := fun _ => .rejected }

/-- The name of a type may stand for a parameter. -/
theorem type_resolved_to_param : ¬ ∀ (c d : Context) (list id p : NodeId) (mode : SearchMode),
    c.arena.Consistent → c.arena.kind id = .identifier → NamesType id c →
    c.arena.typeNode id = none →
    (run (resolveName · list id none mode)).exec c = (.ok (some p), d) →
    d.arena.kind p ≠ .param := by
  intro h
  have hc : earlierContext.arena.Consistent := by
    dsimp only [earlierContext]
    exact after_invariant (I := Arena.Consistent) Arena.consistent_empty Command.keeps_consistent
      earlierHistory
  have hr : (run (resolveName · ⟨6⟩ ⟨6⟩ none {})).exec earlierContext =
      (.ok (some ⟨4⟩), ((run (resolveName · ⟨6⟩ ⟨6⟩ none {})).exec earlierContext).2) :=
    exec_of_toOption (by decide +kernel)
  exact h _ _ ⟨6⟩ ⟨6⟩ ⟨4⟩ {} hc (by decide +kernel) (by decide +kernel) (by decide +kernel) hr
    (by decide +kernel)

end Search

end SymbolTree
