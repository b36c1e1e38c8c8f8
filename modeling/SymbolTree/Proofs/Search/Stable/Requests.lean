import SymbolTree.Proofs.Search.Modular.Scope
import SymbolTree.Proofs.Search.Stable.Rules

/-!
# Stable properties survive all searches

To preserve a stable property is a modular property of searches (`Search.modular_preserves`).  As
every write to the arena is allowed, little is left to be shown.  What a search for the attributes
of a node remembers is left to the property at hand.

## Main statements

* `Search.upholds_answer` — a stable property survives every request, however many calls inside each
  other are allowed, if it survives the requests for attributes.
-/

set_option autoImplicit false
namespace SymbolTree.Search

variable {I : Context → Prop} [Stable I] {call : Call} {params : Option NodeId}

namespace Upholds

omit [Stable I] in
/-- What every request does, the requests for names and attributes do. -/
theorem answered (hcall : Upholds I call) : Answered (fun _ => Preserves I) call where
  resolveName list id mode := hcall (.resolveName list id none mode)
  effectiveAttributes n := hcall (.effectiveAttributes n)
  addListed n entry s := hcall (.addListed n entry s)
  isDerivedFrom derived base := hcall (.isDerivedFrom derived base)

omit [Stable I] in
theorem answeredAll (hcall : Upholds I call) : AnsweredAll (fun _ => Preserves I) call params where
  toAnswered := hcall.answered
  findMember link field t mode := hcall (.findMember link field t params mode)
  findInList list field t mode := hcall (.findInList list field t params mode)

theorem typed (hcall : Upholds I call) : Typed (fun _ => Preserves I) call :=
  modular_typed .setLink modular_preserves hcall.answered fun f => .create f .void

end Upholds

/-! ## Attributes and types -/

theorem preserves_hasAttribute (hcall : Upholds I call) (n : NodeId) (t : Attribute) :
    Preserves I (hasAttribute call n t) :=
  modular_hasAttribute modular_preserves hcall.answered n t

theorem preserves_isConstructor (hcall : Upholds I call) (f : NodeId) :
    Preserves I (isConstructor call f) :=
  modular_isConstructor modular_preserves hcall.answered f

/-- The link on the name of a type is one of the writes that a stable property allows for. -/
theorem preserves_linkType (hcall : Upholds I call) (ty : NodeId) :
    Preserves I (linkType call ty) :=
  hcall.typed.linkType ty

theorem preserves_isDerivedFrom (hcall : Upholds I call) (derived base : NodeId) :
    Preserves I (isDerivedFrom call derived base) :=
  modular_isDerivedFrom hcall.typed.linkType modular_preserves hcall.answered derived base

/-- Depths are asked for by requests of their own. -/
theorem preserves_classDepth (hcall : Upholds I call) (c type : NodeId) (depth : Int32) :
    Preserves I (classDepth call c type depth) :=
  modular_classDepth hcall.typed.linkType modular_preserves
    (fun c type depth => hcall (.classDepth c type depth)) c type depth

theorem preserves_isMemberDerivedFrom (hcall : Upholds I call) (derived member : NodeId) :
    Preserves I (isMemberDerivedFrom call derived member) :=
  modular_isMemberDerivedFrom modular_preserves hcall.answered derived member

theorem preserves_resolveInternalType (hcall : Upholds I call) (n : NodeId) (name : String) :
    Preserves I (resolveInternalType call n name) :=
  modular_resolveInternalType modular_preserves hcall.answered n name

/-- And so is the link on the type of a function. -/
theorem preserves_defineFunctionType (hcall : Upholds I call) (f : NodeId) :
    Preserves I (defineFunctionType call f) :=
  hcall.typed.defineFunctionType f

theorem preserves_matchType (hcall : Upholds I call) (arg target : NodeId) :
    Preserves I (matchType call arg target) :=
  modular_matchType modular_preserves hcall.answered hcall.typed
    (fun c type depth => hcall (.classDepth c type depth)) arg target

theorem preserves_checkFunction (hcall : Upholds I call) (f : NodeId) (name : String)
    (args : Option NodeId) (mode : SearchMode) :
    Preserves I (checkFunction call f name args mode) :=
  modular_checkFunction modular_preserves hcall.answered hcall.typed f name args mode

/-! ## Matches -/

theorem preserves_acceptUnprototyped (params m : NodeId) :
    Preserves I (acceptUnprototyped params m) :=
  .bind (.setFlag m _) fun _ => .bind (.append params m) fun _ => .pure

theorem preserves_acceptEmpty (params m : NodeId) (args : List NodeId) :
    Preserves I (acceptEmpty params m args) := by
  rw [acceptEmpty]
  split
  · exact .bind (.append params m) fun _ => .pure
  · exact .pure

/-- The tables of a match are filled from the arguments, and it is appended if every parameter got
its value.  Tables are among the writes that a stable property allows for. -/
theorem preserves_matchParameters (hcall : Upholds I call) (params m : NodeId)
    (declared args : List NodeId) (last : NodeId) :
    Preserves I (matchParameters call params m declared args last) := by
  have hindex : ∀ m i j, Preserves I (change fun a => a.setParamIndex m i j) := fun _ _ _ =>
    .table fun _ _ => Arena.setParamIndex_eq_ok
  refine .bind (.table fun _ _ => Arena.setParamSize_eq_ok) fun _ => ?_
  refine .bind (modular_assign (fun _ _ _ => .table fun _ _ => Arena.setParamDepth_eq_ok) hindex
    modular_preserves (preserves_matchType hcall) m declared last _ 0 args _) fun o => ?_
  cases o with
  | none => exact .pure
  | some s =>
    refine .bind (modular_assignMissing hindex modular_preserves m _ _ _) fun b => ?_
    split
    · exact .bind (.append params m) fun _ => .pure
    · exact .pure

/-- A match is created for every function that is tried, appended if the arguments fit and left
hanging if not. -/
theorem preserves_checkFunctionWithParams (hcall : Upholds I call) (f : NodeId)
    (params : Option NodeId) : Preserves I (checkFunctionWithParams call f params) := by
  cases params with
  | none => exact .pure
  | some params =>
    refine .bind (.create f _) fun m => .bind (.setLink ..) fun _ => ?_
    refine .bind (preserves_defineFunctionType hcall f) fun b => ?_
    split
    · exact .pure
    · refine .arena_bind fun a => ?_
      dsimp only
      split
      · refine .bind (.ask _) fun b => ?_
        split
        · exact preserves_acceptEmpty params m _
        · exact preserves_acceptUnprototyped params m
      · refine .withLock ?_
        split
        · exact preserves_acceptUnprototyped params m
        · refine .withLock ?_
          split
          · split
            · exact preserves_acceptUnprototyped params m
            · exact preserves_matchParameters hcall params m _ _ _
          · exact preserves_acceptEmpty params m _

/-- The worse of two matches is taken out of the list and discarded. -/
theorem preserves_dropMatch (params : NodeId) (index : Nat) (m : NodeId) :
    Preserves I (dropMatch params index m) := by
  refine .bind (.edit fun _ => ?_) fun _ => .change fun _ _ h => .discard h
  exact Edit.keeps_deeds_checked fun _ _ _ h => .deleteChild h

/-- The loop through the matches drops all but the best of them. -/
theorem preserves_selectBestFunction (hcall : Upholds I call) (params : Option NodeId) :
    Preserves I (selectBestFunction call params) :=
  modular_selectBestFunction modular_preserves fun p _ fuel =>
    modular_selectFrom modular_preserves hcall.answered preserves_dropMatch (fun _ => .ask _) p fuel 0
      none false

/-! ## Members -/

theorem preserves_findInExtends (hcall : Upholds I call) (link field : NodeId) (t : Tally)
    (mode : SearchMode) : Preserves I (findInExtends call link field t params mode) :=
  modular_findInExtends hcall.typed.linkType hcall.answeredAll.findMember modular_preserves link
    field t mode

theorem preserves_findMember (hcall : Upholds I call) (link field : NodeId) (t : Tally)
    (mode : SearchMode) : Preserves I (findMember call link field t params mode) :=
  modular_findMember modular_preserves hcall.answeredAll hcall.typed.linkType link field t mode

/-- A field is linked to what was found for it. -/
theorem preserves_findField (hcall : Upholds I call) (link field : NodeId) (funcs : Nat)
    (mode : SearchMode) : Preserves I (findField call link field funcs params mode) :=
  modular_findField modular_preserves hcall.answeredAll.findMember hcall.typed.linkField link field
    funcs mode

/-- What an object has under a name, functions included. -/
theorem preserves_resolveField (hcall : Upholds I call) (object field : NodeId)
    (mode : SearchMode) : Preserves I (resolveField call object field params mode) :=
  modular_resolveField (preserves_selectBestFunction hcall params)
    (fun link field mode => preserves_findField hcall link field 0 mode) modular_preserves
    hcall.typed.linkType object field mode

/-! ## Modules and packages -/

/-- To build a module is a sequence of deeds on the arena, and each of them is allowed. -/
theorem preserves_buildModule (filename : String) (o : Outline) :
    Preserves I (buildModule filename o) := by
  refine .of_state fun c hc => ?_
  have hbuild := Outline.keeps_of_deeds (I := fun b => I { c with arena := b })
    (fun a b hdeed ha => Stable.deed { c with arena := a } b ha hdeed) o (Position.ofFile filename)
  exact hbuild.state (s := { arena := c.arena }) hc

/-- What a source leaves behind is built, whether the module is used or refused. -/
theorem preserves_findModule (filename : String) : Preserves I (findModule filename) :=
  modular_findModule modular_preserves preserves_buildModule filename

theorem preserves_findLabels (owner n : NodeId) : Preserves I (findLabels owner n) :=
  modular_findLabels modular_preserves owner n

/-- A package that is referred to is marked and recorded once. -/
theorem preserves_markReferenced (p : NodeId) : Preserves I (markReferenced p) := by
  refine .bind (.ask _) fun b => ?_
  split
  · exact .pure
  · exact .bind (.setFlag p _) fun _ => .modify fun _ => ⟨rfl, rfl⟩

theorem preserves_findExternalPackage (import_ : NodeId) (name : String) :
    Preserves I (findExternalPackage import_ name) :=
  modular_findExternalPackage modular_preserves preserves_findModule import_ name

theorem preserves_importPackage (import_ : NodeId) : Preserves I (importPackage import_) :=
  modular_importPackage modular_preserves preserves_findModule preserves_markReferenced import_

/-- What is imported under a name may be a function, so the choice among functions comes in. -/
theorem preserves_importMember (hcall : Upholds I call) (import_ package : NodeId) (name : String)
    (mode : SearchMode) : Preserves I (importMember call import_ package name params mode) :=
  modular_importMember (preserves_selectBestFunction hcall params)
    (fun link field mode => preserves_findField hcall link field 0 mode) modular_preserves
    hcall.answered preserves_markReferenced import_ package name mode

theorem preserves_findPackageItem (hcall : Upholds I call) (program import_ : NodeId)
    (name : String) (mode : SearchMode) :
    Preserves I (findPackageItem call program import_ name params mode) :=
  modular_findPackageItem (preserves_importMember hcall) modular_preserves program import_ name mode

/-- An import is followed into the module that it leads to. -/
theorem preserves_checkImport (hcall : Upholds I call) (import_ : NodeId) (name : String)
    (mode : SearchMode) : Preserves I (checkImport call import_ name params mode) :=
  modular_checkImport (preserves_importMember hcall) modular_preserves preserves_findModule import_
    name mode

/-! ## Names -/

/-- A class that is found is linked to itself. -/
theorem preserves_candidate (hcall : Upholds I call) (n id : NodeId) (mode : SearchMode) :
    Preserves I (candidate call n id params mode) :=
  modular_candidate modular_preserves hcall.answered hcall.typed .setLink
    (preserves_checkImport hcall) n id mode

/-- Every child of a scope that is tried. -/
theorem preserves_checkName (hcall : Upholds I call) (list : NodeId) (index : Nat) (id : NodeId)
    (mode : SearchMode) : Preserves I (checkName call list index id params mode) :=
  scanning_checkName (preserves_candidate hcall)
    (fun f => preserves_checkFunctionWithParams hcall f params) scanning_preserves hcall.answered
    list index id mode

/-- The children of a list are tried by place. -/
theorem preserves_findInList (hcall : Upholds I call) (list field : NodeId) (t : Tally)
    (mode : SearchMode) : Preserves I (findInList call list field t params mode) :=
  scanning_findInList (preserves_candidate hcall)
    (fun f => preserves_checkFunctionWithParams hcall f params) scanning_preserves hcall.answeredAll
    list field t mode

/-- One scope on the way out, members of super classes included. -/
theorem preserves_inScope (hcall : Upholds I call) {q : Query} (list : NodeId) (offset : Nat)
    (t : Tally) : Preserves I (inScope call q list offset t) :=
  have hchild : ∀ list id mode i t, Preserves I (tryChild call list id q.params mode i t) :=
    scanning_tryChild (preserves_candidate hcall)
      (fun f => preserves_checkFunctionWithParams hcall f q.params) scanning_preserves
      hcall.answered
  scanning_inScope hchild scanning_preserves (preserves_resolveField hcall)
    (preserves_findInExtends hcall) list offset t

/-- **A name is resolved under a stable property**, arguments or not. -/
theorem preserves_resolveName (hcall : Upholds I call) (list id : NodeId) (mode : SearchMode) :
    Preserves I (resolveName call list id params mode) :=
  modular_resolveName (preserves_selectBestFunction hcall params)
    (fun link field mode => preserves_findField hcall link field 0 mode) hcall.typed.linkType
    modular_preserves hcall.answered fun fuel n =>
      scanning_walkScopes (q := ⟨id, params, mode⟩) (preserves_selectBestFunction hcall params)
        scanning_preserves (preserves_inScope hcall) fuel n {}

/-! ## All searches -/

/-- A stable property survives each request when it survives those that it leads to, and the
requests for the attributes of a node. -/
theorem upholds_step (hcall : Upholds I call)
    (hattributes : ∀ n, Preserves I (effectiveAttributes call n)) : Upholds I (step call) := by
  intro r
  cases r with
  | resolveName list id params mode => exact preserves_resolveName hcall list id mode
  | effectiveAttributes n => exact hattributes n
  | addListed n entry s => exact modular_addListed modular_preserves hcall.answered n entry s
  | isDerivedFrom derived base => exact preserves_isDerivedFrom hcall derived base
  | classDepth c type depth => exact preserves_classDepth hcall c type depth
  | findMember link field t params mode => exact preserves_findMember hcall link field t mode
  | findInList list field t params mode => exact preserves_findInList hcall list field t mode

/-- **A stable property survives every request**, however many calls inside each other are allowed,
if it survives the requests for the attributes of a node. -/
theorem upholds_answer (hattributes : ∀ fuel, Upholds I (answer fuel) →
    ∀ n, Preserves I (effectiveAttributes (answer fuel) n)) (fuel : Nat) :
    Upholds I (answer fuel) := by
  induction fuel with
  | zero => exact fun _ => .throw
  | succ fuel ih => exact upholds_step ih (hattributes fuel ih)

end SymbolTree.Search
