import SymbolTree.Proofs.Search.Modular.Type

/-!
# Modular properties of searches for names

One lemma for each of the remaining searches, from the members of a class to the scopes around a
name, in the order in which they are defined.

Searches that go through children by place, and those that reject candidates, are left to the
properties that say nothing about either (`Search.Scanning`).
-/

set_option autoImplicit false
namespace SymbolTree.Search

variable {H : (α : Type) → Search α → Prop} {call : Call} {params : Option NodeId}

/-! ## Members -/

/-- A scan has the property if each of its steps has it, whatever was found before. -/
theorem modular_scan (L : Modular H) {α : Type} {step : α → Tally → Search (Bool × Tally)}
    (h : ∀ x t, H _ (step x t)) (xs : List α) (t : Tally) : H _ (scan step xs t) := by
  induction xs generalizing t with
  | nil => exact L.pure
  | cons x xs ih =>
    refine L.bind (h x t) fun r => ?_
    obtain ⟨ended, t⟩ := r
    dsimp only
    split
    · exact L.pure
    · exact ih t

section

variable (htype : ∀ ty, H _ (linkType call ty))
  (hmember : ∀ link field t mode, H _ (call (.findMember link field t params mode)))

include htype hmember

/-- The super classes are asked one after the other; one whose name names no class is only warned
of. -/
theorem modular_findInSupers (L : Modular H) (link field : NodeId) (mode : SearchMode)
    (names : List NodeId) (count : Nat) (t : Tally) :
    H _ (findInSupers call link field params mode names count t) := by
  induction names generalizing count t with
  | nil => exact L.pure
  | cons name names ih =>
    refine L.bind (modular_linkedClass htype L name) fun o => ?_
    cases o with
    | none => exact L.bind (L.warning ..) fun _ => ih _ _
    | some c => exact L.bind (hmember c field t mode) fun _ => ih _ _

/-- The clauses with the super classes are gone through under a lock on the class. -/
theorem modular_findInExtends (L : Modular H) (link field : NodeId) (t : Tally)
    (mode : SearchMode) : H _ (findInExtends call link field t params mode) := by
  refine L.withLock (L.arena_bind fun a => ?_)
  refine L.bind (modular_findInSupers htype hmember L link field mode _ 0 t) fun r => ?_
  obtain ⟨count, t⟩ := r
  dsimp only
  split
  · exact L.pure
  · split
    · exact L.bind (L.nameOf field) fun _ => L.bind (L.error ..) fun _ => L.pure
    · exact L.pure

end

/-- The lists of a class are scanned by requests, so nothing but these requests counts. -/
theorem modular_findInBody (L : Modular H) (hcall : AnsweredAll H call params)
    (link field : NodeId) (t : Tally) (mode : SearchMode) :
    H _ (findInBody call link field t params mode) :=
  L.withLock (L.arena_bind fun _ =>
    modular_scan L (fun list t => hcall.findInList list field t mode) _ t)

/-- The super classes are asked only if the lists of the class itself did not end the search. -/
theorem modular_findMember (L : Modular H) (hcall : AnsweredAll H call params)
    (htype : ∀ ty, H _ (linkType call ty)) (link field : NodeId) (t : Tally) (mode : SearchMode) :
    H _ (findMember call link field t params mode) := by
  refine L.bind (modular_findInBody L hcall link field t mode) fun r => ?_
  obtain ⟨found, t⟩ := r
  dsimp only
  split
  · exact L.pure
  · exact modular_findInExtends htype hcall.findMember L link field t mode

/-- A field is searched for with rejections of its own, and the only declaration that it can stand
for is linked at the end.  Whether that link may be set is up to the property. -/
theorem modular_findField (L : Modular H)
    (hmember : ∀ link field t mode, H _ (call (.findMember link field t params mode)))
    (hlink : ∀ field found, H _ (linkField field found)) (link field : NodeId) (funcs : Nat)
    (mode : SearchMode) : H _ (findField call link field funcs params mode) := by
  refine L.withFreshRejections (L.bind (hmember link field { funcs } mode) fun r => ?_)
  obtain ⟨found, t⟩ := r
  dsimp only
  split
  · exact L.bind (L.reportRejections field) fun _ => L.pure
  · split
    · split
      · exact L.bind (hlink field _) fun _ => L.pure
      · exact L.pure
    · exact L.pure

/-- The class of an object comes from the type that it was declared with. -/
theorem modular_classOfObject (L : Modular H) (htype : ∀ ty, H _ (linkType call ty))
    (object : NodeId) : H _ (classOfObject call object) := by
  refine L.arena_bind fun a => ?_
  split
  iterate 2
    split
    · exact modular_linkedClass htype L _
    · exact L.bind (L.warning ..) fun _ => L.pure
  · exact L.pure
  · exact L.pure
  · exact L.bind (L.error ..) fun _ => L.pure

section

variable (hselect : H _ (selectBestFunction call params))
  (hfield : ∀ link field mode, H _ (findField call link field 0 params mode))

include hselect

theorem modular_selectMember (L : Modular H) (found : Option NodeId × Nat) :
    H _ (selectMember call found params) := by
  unfold selectMember
  split
  · exact L.pure
  · exact hselect

include hfield

theorem modular_resolveField (L : Modular H) (htype : ∀ ty, H _ (linkType call ty))
    (object field : NodeId) (mode : SearchMode) :
    H _ (resolveField call object field params mode) := by
  refine L.bind (modular_classOfObject L htype object) fun o => ?_
  cases o with
  | none => exact L.pure
  | some link =>
    refine L.arena_bind fun a => ?_
    split
    · exact L.bind (hfield link field mode) fun found => modular_selectMember hselect L found
    · exact L.pure

/-! ## Modules and packages -/

/-- What is imported from a package is resolved as a field of it, under a name that is created for
the purpose; the package is marked only if the member may be seen. -/
theorem modular_importMember (L : Modular H) (hcall : Answered H call)
    (hmark : ∀ p, H _ (markReferenced p)) (import_ package : NodeId) (name : String)
    (mode : SearchMode) : H _ (importMember call import_ package name params mode) := by
  refine L.createName fun id => L.bind (hfield package id mode) fun found => ?_
  refine L.bind (modular_selectMember hselect L found) fun o => ?_
  cases o with
  | none => exact L.pure
  | some member =>
    refine L.bind (modular_hasAttribute L hcall member _) fun b => ?_
    split
    · exact L.pure
    · refine L.bind (modular_hasAttribute L hcall member _) fun b => ?_
      dsimp only
      split
      · refine L.arena_bind fun a => ?_
        split
        · exact L.pure
        · exact L.bind (hmark package) fun _ => L.pure
      · exact L.bind (hmark package) fun _ => L.pure

end

theorem modular_readSource (L : Modular H) (filename : String) : H _ (readSource filename) := by
  refine L.get_bind fun c => ?_
  split
  · exact L.pure
  · split
    · exact L.pure
    · exact L.bind (L.fatalAt ..) fun _ => L.fail rfl

theorem modular_rejectModule (L : Modular H) {α : Type} (filename : String)
    (reason : Option String) : H α (rejectModule filename reason) :=
  L.bind (L.fatalAt ..) fun _ => L.fail rfl

/-- What a refused source left behind is built by whatever builds modules. -/
theorem modular_leaveOver (L : Modular H)
    (hbuild : ∀ filename o, H _ (buildModule filename o)) (filename : String)
    (built : Option Outline) : H _ (leaveOver filename built) := by
  cases built with
  | none => exact L.pure
  | some o => exact L.bind (hbuild filename o) fun _ => L.pure

/-- A module is looked up, else read and built.  A source that is refused ends the search, after
what it left behind was built as well. -/
theorem modular_findModule (L : Modular H)
    (hbuild : ∀ filename o, H _ (buildModule filename o)) (filename : String) :
    H _ (findModule filename) := by
  refine L.get_bind fun c => ?_
  split
  · exact L.pure
  · refine L.bind (modular_readSource L filename) fun source => L.get_bind fun c => ?_
    split
    · exact L.bind (modular_leaveOver L hbuild ..) fun _ => modular_rejectModule L ..
    · exact L.bind (modular_leaveOver L hbuild ..) fun _ => modular_rejectModule L ..
    · next o _ =>
      refine L.bind (hbuild filename o) fun r => ?_
      cases r with
      | error e => exact modular_rejectModule L ..
      | ok program => exact L.bind (L.aside fun _ => ⟨_, _, _, _, rfl⟩) fun _ => L.pure

/-- Labels are registered along the statements below a node, with one lock for each level. -/
theorem modular_findLabelsFrom (L : Modular H) (owner : NodeId) (fuel : Nat) (n : NodeId) :
    H _ (findLabelsFrom owner fuel n) := by
  induction fuel generalizing n with
  | zero => exact L.throw rfl
  | succ fuel ih =>
    refine L.arena_bind fun a => ?_
    dsimp only
    split
    · split
      · exact L.error ..
      · exact L.addLabel ..
    · split
      · exact L.pure
      · exact L.withLock (L.forM ih)

theorem modular_findLabels (L : Modular H) (owner n : NodeId) : H _ (findLabels owner n) :=
  L.arena_bind fun _ => modular_findLabelsFrom L owner _ n

/-- The labels of a package are registered once; the flag on it says that they were. -/
theorem modular_registerLabels (L : Modular H) (package body : NodeId) :
    H _ (registerLabels package body) := by
  refine L.bind (L.flag package _) fun b => ?_
  split
  · exact L.pure
  · exact L.bind (L.setFlag package rfl) fun _ => modular_findLabels L package body

theorem modular_findExternalPackage (L : Modular H)
    (hmodule : ∀ filename, H _ (findModule filename)) (import_ : NodeId) (name : String) :
    H _ (findExternalPackage import_ name) := by
  refine L.bind (L.nameOf import_) fun package => L.get_bind fun c => ?_
  split
  · exact L.pure
  · rw [map_eq_pure_bind]
    exact L.bind (hmodule _) fun _ => L.pure

/-- The package that an import implements is looked for first and marked then. -/
theorem modular_importPackage (L : Modular H) (hmodule : ∀ filename, H _ (findModule filename))
    (hmark : ∀ p, H _ (markReferenced p)) (import_ : NodeId) : H _ (importPackage import_) := by
  have himported : H _ (importedPackage import_) := by
    refine L.bind (L.nameOf import_) fun name => L.get_bind fun c => ?_
    split
    · exact L.pure
    · refine L.bind (modular_findExternalPackage L hmodule import_ _) fun o => ?_
      cases o with
      | none => exact L.pure
      | some program => exact L.arena_bind fun _ => L.pure
  refine L.bind (L.flag import_ _) fun b => ?_
  split
  · refine L.bind himported fun o => ?_
    cases o with
    | none => exact L.bind (L.nameOf import_) fun _ => L.error ..
    | some p => exact hmark p
  · exact L.pure

section

variable (himport : ∀ import_ package name mode,
  H _ (importMember call import_ package name params mode))

include himport

/-- The labels of a package are registered before the first look into it. -/
theorem modular_findPackageItem (L : Modular H) (program import_ : NodeId) (name : String)
    (mode : SearchMode) : H _ (findPackageItem call program import_ name params mode) := by
  refine L.bind (L.nameOf import_) fun packageName => L.arena_bind fun a => ?_
  split
  · dsimp only
    split
    · exact L.bind (L.error ..) fun _ => L.bind (L.fail rfl) fun _ => L.pure
    · exact L.pure
  · split
    · exact L.pure
    · exact L.bind (modular_registerLabels L _ _) fun _ => himport import_ _ name mode

/-- The program being compiled goes before the module that the database names. -/
theorem modular_checkImport (L : Modular H) (hmodule : ∀ filename, H _ (findModule filename))
    (import_ : NodeId) (name : String) (mode : SearchMode) :
    H _ (checkImport call import_ name params mode) := by
  refine L.bind (L.flag import_ _) fun b => ?_
  split
  · exact L.pure
  · refine L.get_bind fun c => ?_
    extract_lets go
    have hgo : ∀ own, H _ (go own) := by
      intro own
      cases own with
      | some found => exact L.pure
      | none =>
        refine L.bind (modular_findExternalPackage L hmodule import_ name) fun o => ?_
        cases o with
        | none => exact L.pure
        | some program => exact modular_findPackageItem himport L program import_ name _
    split
    · exact L.bind (modular_findPackageItem himport L _ import_ name mode) hgo
    · exact L.bind L.pure hgo

end

/-! ## Declarations -/

/-- A protected member is kept from whatever does not derive from its owner. -/
theorem modular_protectedRejection (L : Modular H) (hcall : Answered H call)
    (id declaration : NodeId) : H _ (protectedRejection call id declaration) := by
  refine L.bind (modular_isMemberDerivedFrom L hcall id declaration) fun r => ?_
  obtain ⟨derived, owner⟩ := r
  dsimp only
  split
  · exact L.pure
  · refine L.arena_bind fun a => ?_
    split <;> exact L.pure

/-- Private, protected and internal members, in the order in which they are checked. -/
theorem modular_rejection (L : Modular H) (hcall : Answered H call) (id declaration : NodeId) :
    H _ (rejection call id declaration) := by
  refine L.bind (modular_hasAttribute L hcall declaration _) fun b => ?_
  extract_lets none_ internal_ protected_
  have hinternal : ∀ u, H _ (internal_ u) := by
    intro u
    refine L.bind (modular_hasAttribute L hcall declaration _) fun b => ?_
    split
    · refine L.arena_bind fun a => ?_
      split <;> exact L.pure
    · exact L.pure
  have hprotected : ∀ u, H _ (protected_ u) := by
    intro u
    refine L.bind (modular_hasAttribute L hcall declaration _) fun b => ?_
    split
    · refine L.bind (modular_protectedRejection L hcall id declaration) fun o => ?_
      split
      · exact L.pure
      · exact hinternal ()
    · exact hinternal ()
  split
  · refine L.arena_bind fun a => ?_
    split
    · exact L.pure
    · exact hprotected ()
  · exact hprotected ()

/-- What an enumeration declares under a name, be it itself or one of its values, is marked as
used. -/
theorem modular_checkEnum (L : Modular H) (n : NodeId) (name : String) :
    H _ (checkEnum n name) := by
  refine L.arena_bind fun a => ?_
  split
  · exact L.bind (L.setFlag n rfl) fun _ => L.pure
  · split
    · exact L.bind (L.setFlag _ rfl) fun _ => L.pure
    · exact L.pure

/-- What a declaration offers to a name, one case for each kind of declaration.  The property has to
allow that a class is linked to itself and that an import is followed. -/
theorem modular_candidate (L : Modular H) (hcall : Answered H call) (htyped : Typed H call)
    (hlink : ∀ n l t, H _ (write fun a => a.setLink n l t))
    (himport : ∀ n name mode, H _ (checkImport call n name params mode)) (n id : NodeId)
    (mode : SearchMode) : H _ (candidate call n id params mode) := by
  have hclass : ∀ a : Arena, H _ (do
      if (a.typeNode n).isNone then
        write fun a => a.setLink n .typeNode (some n)
      change fun a => a.setFlag id .identifierTyped true
      return Candidate.guarded n) := by
    intro a
    dsimp only
    split
    · exact L.bind (hlink ..) fun _ => L.bind (L.setFlag id rfl) fun _ => L.pure
    · exact L.bind (L.setFlag id rfl) fun _ => L.pure
  refine L.arena_bind fun a => ?_
  dsimp only
  split
  · exact L.pure
  · split
    · exact L.bind (L.setFlag n rfl) fun _ => L.pure
    · exact L.pure
  · refine L.bind (modular_isConstructor L hcall n) fun o => ?_
    cases o with
    | some m => exact L.arena_bind fun _ => L.pure
    | none => exact L.bind (modular_checkFunction L hcall htyped n _ params mode) fun _ => L.pure
  · split
    · exact hclass a
    · exact L.pure
  · split
    · exact hclass a
    · exact L.pure
  · exact modular_checkEnum L n _
  · exact L.pure
  · refine L.bind (himport n _ mode) fun o => ?_
    cases o <;> exact L.pure
  · exact L.pure

section

variable (hcandidate : ∀ n id mode, H _ (candidate call n id params mode))
  (hmatch : ∀ f, H _ (checkFunctionWithParams call f params))

include hcandidate hmatch

/-- The candidate at a place, once it has passed the check of its visibility and, for a function,
the check of the arguments.  As the place can be out of range and a rejection is recorded, this and
what is built on it need a property that says nothing about either. -/
theorem scanning_checkName (L : Scanning H) (hcall : Answered H call) (list : NodeId)
    (index : Nat) (id : NodeId) (mode : SearchMode) :
    H _ (checkName call list index id params mode) := by
  refine L.arena_bind fun a => ?_
  split
  · exact L.stop
  · refine L.bind (hcandidate _ id mode) fun o => ?_
    cases o with
    | none => exact L.pure
    | open_ m => exact L.pure
    | guarded m =>
      refine L.bind (modular_rejection L.toModular hcall id m) fun o => ?_
      split
      · exact L.bind (L.reject _) fun _ => L.pure
      · refine L.arena_bind fun a => ?_
        split
        · refine L.bind (hmatch _) fun b => ?_
          split
          · exact L.bind (L.reject _) fun _ => L.pure
          · exact L.pure
        · exact L.pure

theorem scanning_tryChild (L : Scanning H) (hcall : Answered H call) (list id : NodeId)
    (mode : SearchMode) (index : Nat) (t : Tally) :
    H _ (tryChild call list id params mode index t) := by
  refine L.bind (scanning_checkName hcandidate hmatch L hcall list index id mode) fun o => ?_
  cases o with
  | none => exact L.pure
  | some n => exact L.arena_bind fun _ => L.pure

/-- The children of a list are tried by place, and the lists among them by a request. -/
theorem scanning_findInList (L : Scanning H) (hcall : AnsweredAll H call params)
    (list field : NodeId) (t : Tally) (mode : SearchMode) :
    H _ (findInList call list field t params mode) := by
  have hstep : ∀ index t, H _ (tryBodyChild call list field params mode index t) := by
    refine fun index t => L.bind (L.ask _) fun c => L.arena_bind fun a => ?_
    split
    · refine L.bind (hcall.findInList c field t mode) fun r => ?_
      obtain ⟨found, t⟩ := r
      dsimp only
      split
      · exact L.arena_bind fun _ => L.pure
      · exact L.pure
    · exact L.pure
    · exact scanning_tryChild hcandidate hmatch L hcall.toAnswered list field mode index t
  exact L.withLock (L.arena_bind fun _ => modular_scan L.toModular hstep _ t)

end

/-! ## Scopes -/

section

variable {q : Query}

theorem modular_inEnum (L : Modular H) (list : NodeId) (name : String) (t : Tally) :
    H _ (inEnum list name t) := by
  refine L.arena_bind fun a => ?_
  split
  · exact L.pure
  · exact L.bind (L.setFlag _ rfl) fun _ => L.pure

/-- The members of the object of a `with`.  The name that found one of them is marked. -/
theorem modular_inWith (L : Modular H)
    (hfield : ∀ object field mode, H _ (resolveField call object field q.params mode))
    (list : NodeId) (t : Tally) : H _ (inWith call q list t) := by
  refine L.arena_bind fun a => ?_
  split
  · split
    · exact L.pure
    · refine L.bind (hfield _ q.id q.mode) fun o => ?_
      cases o with
      | none => exact L.pure
      | some found =>
        refine L.bind (L.setFlag q.id rfl) fun _ => ?_
        dsimp only
        split
        · exact L.bind (L.internal rfl) fun _ => L.pure
        · exact L.pure
  · exact L.pure

/-- The super classes of a class around the name; its own lists are scopes themselves. -/
theorem modular_inClass (L : Modular H)
    (hextends : ∀ link field t mode, H _ (findInExtends call link field t q.params mode))
    (list : NodeId) (t : Tally) : H _ (inClass call q list t) := by
  refine L.bind (hextends list q.id t q.mode) fun r => ?_
  obtain ⟨found, t⟩ := r
  dsimp only
  split
  · exact L.arena_bind fun _ => L.pure
  · exact L.pure

section

variable (hchild : ∀ list id mode index t, H _ (tryChild call list id q.params mode index t))

include hchild

/-- The children at given places are tried one by one. -/
theorem modular_askChildren (L : Modular H) (list : NodeId) (places : List Nat) (t : Tally) :
    H _ (askChildren call q list places t) :=
  L.bind (modular_scan L (fun index t => hchild list q.id q.mode index t) places t)
    fun _ => L.pure

theorem scanning_inDirectives (L : Scanning H) (list : NodeId) (offset : Nat) (t : Tally) :
    H _ (inDirectives call q list offset t) := by
  refine L.arena_bind fun a => ?_
  dsimp only
  split
  · exact L.bind L.stop fun _ => modular_askChildren hchild L.toModular list _ t
  · exact modular_askChildren hchild L.toModular list _ t

theorem scanning_inFunction (L : Scanning H) (list : NodeId) (t : Tally) :
    H _ (inFunction call q list t) := by
  refine L.bind (L.ask _) fun b => ?_
  split
  · exact L.pure
  · refine L.arena_bind fun a => ?_
    split
    · exact L.pure
    · exact L.withLock (L.arena_bind fun _ => modular_askChildren hchild L.toModular _ _ t)

theorem scanning_inCatch (L : Scanning H) (list : NodeId) (t : Tally) :
    H _ (inCatch call q list t) := by
  refine L.arena_bind fun a => ?_
  split
  · exact L.pure
  · split
    · exact L.pure
    · exact modular_askChildren hchild L.toModular _ _ t

/-- One scope on the way out, one case for each kind of it.  An enumeration that has the name itself
is marked; every other scope is gone through under a lock. -/
theorem scanning_inScope (L : Scanning H)
    (hfield : ∀ object field mode, H _ (resolveField call object field q.params mode))
    (hextends : ∀ link field t mode, H _ (findInExtends call link field t q.params mode))
    (list : NodeId) (offset : Nat) (t : Tally) : H _ (inScope call q list offset t) := by
  refine L.arena_bind fun a => ?_
  dsimp only
  split
  · exact L.bind (L.setFlag list rfl) fun _ => L.pure
  · refine L.withLock ?_
    split
    · exact scanning_inDirectives hchild L list offset t
    · exact modular_askChildren hchild L.toModular list _ t
    · exact modular_inWith L.toModular hfield list t
    · exact scanning_inFunction hchild L list t
    · exact modular_askChildren hchild L.toModular list _ t
    · exact scanning_inCatch hchild L list t
    · exact modular_inEnum L.toModular list _ t
    · exact modular_inClass L.toModular hextends list t
    · exact modular_inClass L.toModular hextends list t
    · exact L.stop

end

/-- Nothing ended the walk: the best of the functions that were found is chosen, or the rejections
are reported. -/
theorem modular_conclude (L : Modular H) (hselect : H _ (selectBestFunction call q.params))
    (t : Tally) : H _ (conclude call q t) := by
  unfold conclude
  extract_lets go
  have hgo : ∀ best, H _ (go best) := by
    intro best
    cases best with
    | none => exact L.bind (L.reportRejections q.id) fun _ => L.pure
    | some n => exact L.pure
  split
  · exact L.bind hselect hgo
  · exact L.bind L.pure hgo

section

variable (hselect : H _ (selectBestFunction call q.params))

include hselect

/-- The modules that declare things for all programs are asked in turn, and what was found in the
scopes is concluded from after the last of them. -/
theorem modular_walkImports (L : Modular H)
    (hscope : ∀ list t, H _ (inScope call q list 0 t))
    (imports : List (Context → Option NodeId)) (t : Tally) :
    H _ (walkImports call q imports t) := by
  induction imports generalizing t with
  | nil => exact modular_conclude L hselect t
  | cons import_ imports ih =>
    refine L.get_bind fun c => ?_
    split
    · exact ih t
    · refine L.bind (hscope _ t) fun s => ?_
      cases s with
      | ended answer => exact L.pure
      | next t => exact ih t

/-- The walk from scope to scope, by induction on the number of steps that are left. -/
theorem scanning_walkScopes (L : Scanning H)
    (hscope : ∀ list offset t, H _ (inScope call q list offset t)) (fuel : Nat) (n : NodeId)
    (t : Tally) : H _ (walkScopes call q fuel n t) := by
  induction fuel generalizing n t with
  | zero => exact L.stop
  | succ fuel ih =>
    refine L.arena_bind fun a => ?_
    split
    · exact L.stop
    · split
      · exact modular_walkImports hselect L.toModular (fun list t => hscope list 0 t) _ t
      · refine L.bind (hscope _ _ t) fun s => ?_
        cases s with
        | ended answer => exact L.pure
        | next t => exact ih _ t

end

end

/-! ## Names -/

section

variable (hselect : H _ (selectBestFunction call params))
  (hfield : ∀ link field mode, H _ (findField call link field 0 params mode))
  (htype : ∀ ty, H _ (linkType call ty))

include hselect hfield htype

/-- The object before the dot is resolved first, then the member in what was found. -/
theorem modular_resolveMember (L : Modular H) (hcall : Answered H call) (list member : NodeId)
    (mode : SearchMode) : H _ (resolveMember call list member params mode) := by
  refine L.arena_bind fun a => ?_
  split
  · next object field _ =>
    refine L.bind (hcall.resolveName list object mode) fun o => ?_
    cases o with
    | none => exact L.pure
    | some scope =>
      refine L.arena_bind fun a => ?_
      split
      · exact L.bind (hfield scope field mode) fun found => modular_selectMember hselect L found
      · split
        · exact L.pure
        · exact L.bind (L.setFlag _ rfl) fun _ => L.pure
      · exact modular_resolveField hselect hfield L htype scope field mode
  · exact L.internal rfl

/-- **A name is resolved with rejections of its own**: a qualified one member by member, a plain one
by the walk. -/
theorem modular_resolveName (L : Modular H) (hcall : Answered H call) {list id : NodeId}
    {mode : SearchMode}
    (hscopes : ∀ fuel n, H _ (walkScopes call ⟨id, params, mode⟩ fuel n {})) :
    H _ (resolveName call list id params mode) := by
  refine L.withFreshRejections (L.arena_bind fun a => ?_)
  split
  · exact modular_resolveMember hselect hfield htype L hcall list id mode
  · split
    · exact L.internal rfl
    · split
      · exact L.pure
      · exact hscopes _ _

end

end SymbolTree.Search
