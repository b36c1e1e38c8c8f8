import SymbolTree.Proofs.Search.Referenced
import SymbolTree.Proofs.Search.Stable.Requests

/-!
# Stable properties survive whatever a compiler is asked for

A property that survives every request survives every search that is run on its own, and also what a
compiler does besides: the native declarations are loaded, packages are recorded in the database, and
the database is saved.

## Main statement

* `Search.preserves_task` — everything that a compiler may be asked for.
-/

set_option autoImplicit false
namespace SymbolTree.Search

variable {I : Context → Prop} [Stable I] {call : Call}

/-! ## Recording packages -/

/-- The configuration is read beside the arena and what is remembered. -/
theorem preserves_options : Preserves I options := by
  refine .get_bind fun c => ?_
  split
  · exact .pure
  · split
    · exact .bind (.modify fun _ => ⟨rfl, rfl⟩) fun _ => .pure
    · exact .fail

theorem preserves_loadModule (module_ file : String) : Preserves I (loadModule module_ file) :=
  .bind preserves_options fun _ => preserves_findModule _

/-- A declaration is recorded in the database; only its attributes are asked for on the way. -/
theorem preserves_addEntry (hcall : Upholds I call) (e : Arena.Entry) :
    Preserves I (addEntry call e) := by
  refine .bind (preserves_hasAttribute hcall e.node _) fun b => ?_
  split
  · exact .pure
  refine .bind (preserves_hasAttribute hcall e.node _) fun b => ?_
  split
  · exact .pure
  refine .bind (preserves_hasAttribute hcall e.node _) fun b => ?_
  split
  · exact .pure
  refine .get_bind fun c => ?_
  dsimp only
  split
  · exact .modify fun _ => ⟨rfl, rfl⟩
  · exact .fail

theorem preserves_indexPackages (hcall : Upholds I call) (program : NodeId) :
    Preserves I (indexPackages call program) :=
  .arena_bind fun _ => .forM (preserves_addEntry hcall)

/-- The scripts of a directory are loaded and recorded one by one, whatever fails among them. -/
theorem preserves_loadInternalPackages (hcall : Upholds I call) (module_ : String) :
    Preserves I (loadInternalPackages call module_) := by
  refine .bind preserves_options fun o => .get_bind fun c => ?_
  split
  · exact .bind (.fatalAt ..) fun _ => .fail
  · exact .forM fun name => .bind (preserves_loadModule module_ name) fun p =>
      preserves_indexPackages hcall p

theorem preserves_saveDatabase : Preserves I saveDatabase := by
  refine .get_bind fun c => ?_
  split
  · exact .modify fun _ => ⟨rfl, rfl⟩
  · exact .fail

/-- The native declarations and the database are loaded, and recorded the first time. -/
theorem preserves_internalImports (hcall : Upholds I call) :
    Preserves I (internalImports call) := by
  refine .get_bind fun c => ?_
  extract_lets finish load
  have hfinish : ∀ u, Preserves I (finish u) := fun _ => .modify fun _ => ⟨rfl, rfl⟩
  have hload : ∀ u, Preserves I (load u) := by
    intro u
    refine .bind preserves_options fun o => .get_bind fun c => ?_
    dsimp only
    refine .bind (.modify fun _ => ⟨rfl, rfl⟩) fun _ => ?_
    split
    · refine .get_bind fun d => ?_
      split
      · exact .bind (preserves_loadInternalPackages hcall _) fun _ =>
          .bind preserves_saveDatabase hfinish
      · exact hfinish ()
    · exact .fatalAt ..
  split
  · exact .bind (preserves_loadModule _ _) fun native =>
      .bind (.modify fun _ => ⟨rfl, rfl⟩) hload
  · exact hload ()

/-! ## Tasks -/

section

variable (hanswer : ∀ fuel, Upholds I (answer fuel))

include hanswer

omit [Stable I] in
/-- A search that is run on its own is one whose requests are answered with the allowance. -/
theorem preserves_run {α : Type} {s : Call → Search α}
    (h : ∀ call, Upholds I call → Preserves I (s call)) : Preserves I (run s) :=
  .get_bind fun c => h _ (hanswer (fuel c))

/-- The operations on a program that are run one at a time. -/
theorem preserves_operation (op : Operation) : Preserves I op.run := by
  cases op with
  | resolveName list id params mode =>
    exact .bind (preserves_run hanswer fun _ h => preserves_resolveName h list id mode) fun _ => .pure
  | resolveField object field params mode =>
    exact .bind (preserves_run hanswer fun _ h => preserves_resolveField h object field mode)
      fun _ => .pure
  | findField link field funcs params mode =>
    exact .bind (preserves_run hanswer fun _ h => preserves_findField h link field funcs mode)
      fun _ => .pure
  | checkImport import_ name params mode =>
    exact .bind (preserves_run hanswer fun _ h => preserves_checkImport h import_ name mode)
      fun _ => .pure
  | importPackage import_ => exact preserves_importPackage import_
  | linkType ty => exact preserves_run hanswer fun _ h => preserves_linkType h ty
  | matchType arg target =>
    exact .bind (preserves_run hanswer fun _ h => preserves_matchType h arg target) fun _ => .pure
  | hasAttribute n t =>
    exact .bind (preserves_run hanswer fun _ h => preserves_hasAttribute h n t) fun _ => .pure
  | checkFunctionWithParams f params =>
    exact .bind (preserves_run hanswer fun _ h => preserves_checkFunctionWithParams h f params)
      fun _ => .pure

/-- Those that are asked for on their own. -/
theorem preserves_inquiry (q : Inquiry) : Preserves I q.run := by
  cases q with
  | operation op => exact preserves_operation hanswer op
  | checkName list index id params mode =>
    exact .bind (preserves_run hanswer fun _ h => preserves_checkName h list index id mode)
      fun _ => .pure
  | findInExtends link field t params mode =>
    exact .bind (preserves_run hanswer fun _ h => preserves_findInExtends h link field t mode)
      fun _ => .pure
  | classDepth c type depth =>
    exact .bind (preserves_run hanswer fun _ h => preserves_classDepth h c type depth)
      fun _ => .pure
  | findLabels owner n => exact preserves_findLabels owner n
  | resolveInternalType n name =>
    exact .bind (preserves_run hanswer fun _ h => preserves_resolveInternalType h n name)
      fun _ => .pure

/-- **A stable property survives whatever a compiler is asked for**, be it that it succeeds or that
it fails. -/
theorem preserves_task (t : Task) : Preserves I t.run := by
  have hsearch : ∀ {α : Type} {s : Call → Search α},
      (∀ call, Upholds I call → Preserves I (s call)) →
      Preserves I (do let _ ← run s : Search Unit) := fun h =>
    .bind (preserves_run hanswer h) fun _ => .pure
  cases t with
  | inquiry q => exact preserves_inquiry hanswer q
  | isConstructor f => exact hsearch fun _ h => preserves_isConstructor h f
  | defineFunctionType f => exact hsearch fun _ h => preserves_defineFunctionType h f
  | checkFunction f name params mode =>
    exact hsearch fun _ h => preserves_checkFunction h f name params mode
  | selectBestFunction params => exact hsearch fun _ h => preserves_selectBestFunction h params
  | findMember link field t params mode =>
    exact hsearch fun _ h => preserves_findMember h link field t mode
  | isDerivedFrom derived base => exact hsearch fun _ h => preserves_isDerivedFrom h derived base
  | isMemberDerivedFrom derived member =>
    exact hsearch fun _ h => preserves_isMemberDerivedFrom h derived member
  | effectiveAttributes n =>
    exact .bind (.get_bind fun c => hanswer (fuel c + 1) (.effectiveAttributes n)) fun _ => .pure
  | findModule filename => exact .bind (preserves_findModule filename) fun _ => .pure
  | loadModule module_ file => exact .bind (preserves_loadModule module_ file) fun _ => .pure
  | findExternalPackage import_ name =>
    exact .bind (preserves_findExternalPackage import_ name) fun _ => .pure
  | findPackageItem program import_ name params mode =>
    exact hsearch fun _ h => preserves_findPackageItem h program import_ name mode
  | indexPackages program =>
    exact preserves_run hanswer fun _ h => preserves_indexPackages h program
  | loadInternalPackages module_ =>
    exact preserves_run hanswer fun _ h => preserves_loadInternalPackages h module_
  | internalImports => exact preserves_run hanswer fun _ h => preserves_internalImports h
  | reportRejections n => exact modular_preserves.reportRejections n

end

end SymbolTree.Search
