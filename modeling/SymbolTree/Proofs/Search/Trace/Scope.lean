import SymbolTree.Proofs.Search.Modular.Scope
import SymbolTree.Proofs.Search.Trace.Match

/-!
# Every search runs a course

One lemma for each of the remaining searches, from the members of a class to the scopes around a
name, and in the end one for all of them.

## Main statements

* `Search.faithful_answer` — whatever answers requests with a bounded number of calls inside each
  other runs a course.
* `Search.follows_run` — so does every search that is run on its own.
-/

set_option autoImplicit false
namespace SymbolTree.Search

variable {params : Option NodeId} {call : Call}

/-! ## Members -/

theorem follows_findInExtends (hcall : Faithful call) (link field : NodeId) (t : Tally)
    (mode : SearchMode) : Follows params (findInExtends call link field t params mode) :=
  modular_findInExtends (follows_linkType hcall) hcall.answeredAll.findMember modular_follows link
    field t mode

theorem follows_findMember (hcall : Faithful call) (link field : NodeId) (t : Tally)
    (mode : SearchMode) : Follows params (findMember call link field t params mode) :=
  modular_findMember modular_follows hcall.answeredAll (follows_linkType hcall) link field t mode

theorem follows_findField (hcall : Faithful call) (link field : NodeId) (funcs : Nat)
    (mode : SearchMode) : Follows params (findField call link field funcs params mode) :=
  modular_findField modular_follows hcall.answeredAll.findMember follows_linkField link field funcs
    mode

theorem follows_classOfObject (hcall : Faithful call) (object : NodeId) :
    Follows params (classOfObject call object) :=
  modular_classOfObject modular_follows (follows_linkType hcall) object

theorem follows_resolveField (hcall : Faithful call) (object field : NodeId) (mode : SearchMode) :
    Follows params (resolveField call object field params mode) :=
  modular_resolveField (follows_selectBestFunction hcall)
    (fun link field mode => follows_findField hcall link field 0 mode) modular_follows
    (follows_linkType hcall) object field mode

/-! ## Modules and packages -/

/-- What a source is parsed to is built, be it used or left over, and a module that is used is
recorded beside the arena. -/
theorem follows_findModule (filename : String) : Follows params (findModule filename) := by
  have hreject : ∀ reason, Follows params (rejectModule filename reason : Search NodeId) :=
    modular_rejectModule modular_follows filename
  refine .get_bind fun c => ?_
  split
  · exact .pure
  · refine .bind (modular_readSource modular_follows filename) fun source => ⟨fun c hc => ?_⟩
    rw [exec_get_bind]
    have hbuild : ∀ o, (c.parser source).outline = some o →
        Course params c ((buildModule filename o).exec c).2 := fun o h => .build _ h
    have hleave : ∀ reason, Course params c
        ((do leaveOver filename (c.parser source).outline
             rejectModule filename reason : Search NodeId).exec c).2 := by
      intro reason
      refine Follows.bind_at ?_ fun _ d _ hd => hd.trans ((hreject reason).course d (hd.consistent hc))
      cases ho : (c.parser source).outline with
      | none => exact .refl c
      | some o => exact Follows.bind_at (hbuild o ho) fun _ _ _ hd => hd
    cases hs : c.parser source with
    | failed reason built => simpa only [hs, ParsedModule.outline] using hleave (some reason)
    | rejected built => simpa only [hs, ParsedModule.outline] using hleave none
    | accepted o =>
      have hbuild := hbuild o (by rw [hs]; rfl)
      refine Follows.bind_at hbuild fun r d _ hd => hd.trans ?_
      refine Follows.course ?_ d (hd.consistent hc)
      cases r with
      | error e => exact hreject _
      | ok program => exact .bind ⟨fun _ _ => .aside _ _ _ _⟩ fun _ => .pure

theorem follows_findLabels (owner n : NodeId) : Follows params (findLabels owner n) :=
  modular_findLabels modular_follows owner n

/-- A package is put on the list when it is marked, and it is marked once. -/
theorem follows_markReferenced (p : NodeId) : Follows params (markReferenced p) := by
  refine ⟨fun c hc => ?_⟩
  rw [markReferenced, exec_bind, exec_ask]
  cases hflag : c.arena.flag p .packageReferenced with
  | error e => exact .refl c
  | ok b =>
    cases b with
    | true => exact .refl c
    | false =>
      have hp : (c.arena.node p).flags.contains .packageReferenced = false := by
        obtain ⟨_, -, h⟩ := bind_eq_ok_iff.1 hflag
        exact Except.ok.inj h
      dsimp only
      rw [if_neg (by simp), exec_bind, exec_change]
      cases hset : c.arena.setFlag p .packageReferenced true with
      | error e => exact .refl c
      | ok b => exact .reference hp hset

theorem follows_findExternalPackage (import_ : NodeId) (name : String) :
    Follows params (findExternalPackage import_ name) :=
  modular_findExternalPackage modular_follows follows_findModule import_ name

theorem follows_importPackage (import_ : NodeId) : Follows params (importPackage import_) :=
  modular_importPackage modular_follows follows_findModule follows_markReferenced import_

/-- A member that is imported is searched for with the arguments of the caller, so that its course
is one for them. -/
theorem follows_importMember (hcall : Faithful call) (import_ package : NodeId) (name : String)
    (mode : SearchMode) : Follows params (importMember call import_ package name params mode) :=
  modular_importMember (follows_selectBestFunction hcall)
    (fun link field mode => follows_findField hcall link field 0 mode) modular_follows
    hcall.answered follows_markReferenced import_ package name mode

theorem follows_registerLabels (package body : NodeId) :
    Follows params (registerLabels package body) :=
  modular_registerLabels modular_follows package body

theorem follows_findPackageItem (hcall : Faithful call) (program import_ : NodeId)
    (name : String) (mode : SearchMode) :
    Follows params (findPackageItem call program import_ name params mode) :=
  modular_findPackageItem (follows_importMember hcall) modular_follows program import_ name mode

theorem follows_checkImport (hcall : Faithful call) (import_ : NodeId) (name : String)
    (mode : SearchMode) : Follows params (checkImport call import_ name params mode) :=
  modular_checkImport (follows_importMember hcall) modular_follows follows_findModule import_ name
    mode

/-! ## Declarations -/

theorem follows_rejection (hcall : Faithful call) (id declaration : NodeId) :
    Follows params (rejection call id declaration) :=
  modular_rejection modular_follows hcall.answered id declaration

/-- A class that a name stands for is typed by itself, unless it has a type. -/
theorem follows_candidateClass (n id : NodeId) :
    Follows params (do
      let a ← arena
      if (a.typeNode n).isNone then
        write fun a => a.setLink n .typeNode (some n)
      change fun a => a.setFlag id .identifierTyped true
      return Candidate.guarded n) := by
  refine ⟨fun c hc => ?_⟩
  have hflag : Follows params (do
      change fun a => a.setFlag id .identifierTyped true
      return Candidate.guarded n) := .bind (.setFlag id (by decide)) fun _ => .pure
  change Course params c ((if (c.arena.typeNode n).isNone = true then _ else _ :
    Search Candidate).exec c).2
  split
  · next htype =>
    have hd : Course params c { c with arena := c.arena.setLink n .typeNode (some n) } :=
      .link n (.inr rfl) (Option.isNone_iff_eq_none.1 htype) (.refl c)
    exact hd.trans (hflag.course _ (hd.consistent hc))
  · exact hflag.course c hc

/-- Only an import asks for functions that take the arguments. -/
theorem course_candidate (hcall : Faithful call) {c : Context} (hc : c.arena.Consistent)
    (n id : NodeId) (args : Option NodeId) (mode : SearchMode)
    (himport : c.arena.kind n = .import_ →
      Follows params (checkImport call n (c.arena.name id) args mode)) :
    Course params c ((candidate call n id args mode).exec c).2 := by
  rw [candidate, exec_bind, exec_arena]
  dsimp only
  split
  · exact .refl c
  · split
    · exact (Follows.bind (.setFlag n (by decide)) fun _ => .pure).course c hc
    · exact .refl c
  · refine (Follows.bind (follows_isConstructor hcall n) fun o => ?_).course c hc
    cases o with
    | some m => exact .arena_bind fun _ => .pure
    | none => exact .bind (follows_checkFunction hcall n _ args mode) fun _ => .pure
  · split
    · exact (follows_candidateClass n id).course c hc
    · exact .refl c
  · split
    · exact (follows_candidateClass n id).course c hc
    · exact .refl c
  · exact (modular_checkEnum modular_follows n _).course c hc
  · exact .refl c
  · next hk =>
    refine (Follows.bind (himport hk) fun o => ?_).course c hc
    cases o <;> exact .pure
  · exact .refl c

/-- From the course for a context that was read before. -/
theorem follows_candidate (hcall : Faithful call) (n id : NodeId) (mode : SearchMode) :
    Follows params (candidate call n id params mode) :=
  ⟨fun _ hc => course_candidate hcall hc n id params mode fun _ =>
    follows_checkImport hcall n _ mode⟩

/-- A candidate is tried with the arguments of the caller. -/
theorem follows_checkName (hcall : Faithful call) (list : NodeId) (index : Nat) (id : NodeId)
    (mode : SearchMode) : Follows params (checkName call list index id params mode) :=
  scanning_checkName (follows_candidate hcall) (follows_checkFunctionWithParams hcall)
    scanning_follows hcall.answered list index id mode

theorem follows_tryChild (hcall : Faithful call) (list id : NodeId) (mode : SearchMode)
    (index : Nat) (t : Tally) : Follows params (tryChild call list id params mode index t) :=
  scanning_tryChild (follows_candidate hcall) (follows_checkFunctionWithParams hcall)
    scanning_follows hcall.answered list id mode index t

theorem follows_findInList (hcall : Faithful call) (list field : NodeId) (t : Tally)
    (mode : SearchMode) : Follows params (findInList call list field t params mode) :=
  scanning_findInList (follows_candidate hcall) (follows_checkFunctionWithParams hcall)
    scanning_follows hcall.answeredAll list field t mode

/-! ## Scopes -/

variable {q : Query}

/-- One scope; the members of the object of a `with` count among it. -/
theorem follows_inScope (hcall : Faithful call) (list : NodeId) (offset : Nat) (t : Tally) :
    Follows q.params (inScope call q list offset t) :=
  scanning_inScope (follows_tryChild hcall) scanning_follows (follows_resolveField hcall)
    (follows_findInExtends hcall) list offset t

theorem follows_walkScopes (hcall : Faithful call) (fuel : Nat) (n : NodeId) (t : Tally) :
    Follows q.params (walkScopes call q fuel n t) :=
  scanning_walkScopes (follows_selectBestFunction hcall) scanning_follows (follows_inScope hcall)
    fuel n t

/-- **To resolve a name is a course for the arguments of the call.** -/
theorem follows_resolveName (hcall : Faithful call) (list id : NodeId) (mode : SearchMode) :
    Follows params (resolveName call list id params mode) :=
  modular_resolveName (follows_selectBestFunction hcall)
    (fun link field mode => follows_findField hcall link field 0 mode) (follows_linkType hcall)
    modular_follows hcall.answered
    fun fuel n => follows_walkScopes hcall (q := ⟨id, params, mode⟩) fuel n {}

/-! ## All searches -/

/-- One step runs a course if the requests that it makes do, one case for each kind of request. -/
theorem faithful_step (hcall : Faithful call) : Faithful (step call) := by
  intro r
  cases r with
  | resolveName list id params mode => exact follows_resolveName hcall list id mode
  | effectiveAttributes n => exact follows_effectiveAttributes hcall n
  | addListed n entry attrs => exact modular_addListed modular_follows hcall.answered n entry attrs
  | isDerivedFrom derived base => exact follows_isDerivedFrom hcall derived base
  | classDepth c type depth => exact follows_classDepth hcall c type depth
  | findMember link field t params mode => exact follows_findMember hcall link field t mode
  | findInList list field t params mode => exact follows_findInList hcall list field t mode

/-- **Every request runs a course**, however many calls inside each other are allowed. -/
theorem faithful_answer (fuel : Nat) : Faithful (answer fuel) := by
  induction fuel with
  | zero => exact fun _ => .throw
  | succ fuel ih => exact faithful_step ih

/-- A search that is run on its own runs a course. -/
theorem follows_run {α : Type} {s : Call → Search α}
    (h : ∀ call, Faithful call → Follows params (s call)) : Follows params (run s) :=
  .get_bind fun c => h _ (faithful_answer (fuel c))

end SymbolTree.Search
