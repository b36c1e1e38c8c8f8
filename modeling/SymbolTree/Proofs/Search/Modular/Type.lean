import SymbolTree.Proofs.Search.Modular.Rules

/-!
# Modular properties of searches on attributes and types

One lemma for each search on attributes, classes, the types of functions and arguments, and
overloaded functions, in the order in which the searches are defined.

Some of them set a link that they found empty.  A property that allows for every link holds of
them (`Search.modular_typed`).  For others this is shown by hand, and `Search.Typed` says that it
was.
-/

set_option autoImplicit false
namespace SymbolTree.Search

variable {H : (α : Type) → Search α → Prop} {call : Call}

/-! ## Attributes -/

/-- An attribute that stands beside a rival is reported and left out. -/
theorem modular_addAttribute (L : Modular H) (n : NodeId) (s : AttributeSet) (t : Attribute) :
    H _ (addAttribute n s t) := by
  refine L.bind (L.checkAttribute n t) fun _ => ?_
  split
  · exact L.bind (L.error ..) fun _ => L.pure
  · exact L.pure

theorem modular_addVariablePart (L : Modular H) (hcall : Answered H call) (n : NodeId)
    (s : AttributeSet) (part : NodeId) : H _ (addVariablePart call n s part) := by
  refine L.arena_bind fun a => ?_
  dsimp only
  split
  · exact L.bind (L.error ..) fun _ => L.pure
  · split
    · exact hcall.addListed ..
    · exact L.bind (L.error ..) fun _ => L.pure

/-- A variable in a list of attributes stands for the attributes in its value, which are gathered
while the variable counts as being expanded. -/
theorem modular_addVariable (L : Modular H) (hcall : Answered H call) (n : NodeId) (name : String)
    (v : NodeId) (s : AttributeSet) : H _ (addVariable call n name v s) := by
  refine L.arena_bind fun a => ?_
  split
  · exact L.bind (L.error ..) fun _ => L.pure
  · refine L.get_bind fun c => ?_
    split
    · exact L.bind (L.error ..) fun _ => L.pure
    · exact L.whileExpanding (L.withLock (L.foldlM (modular_addVariablePart L hcall n)))

/-- A name in a list of attributes is an attribute itself, or it is resolved to a variable. -/
theorem modular_addNamed (L : Modular H) (hcall : Answered H call) (n entry : NodeId)
    (s : AttributeSet) : H _ (addNamed call n entry s) := by
  refine L.bind (L.nameOf entry) fun name => ?_
  split
  · exact modular_addAttribute L n s _
  · refine L.arena_bind fun a => ?_
    extract_lets add
    have hadd : ∀ found, H _ (add found) := by
      intro found
      cases found with
      | none => exact L.bind (L.error ..) fun _ => L.pure
      | some v => exact modular_addVariable L hcall n name v s
    split
    · exact L.bind (hcall.resolveName ..) hadd
    · exact L.bind L.pure hadd

theorem modular_addListed (L : Modular H) (hcall : Answered H call) (n entry : NodeId)
    (s : AttributeSet) : H _ (addListed call n entry s) := by
  refine L.arena_bind fun a => ?_
  dsimp only
  split
  · exact modular_addNamed L hcall n entry s
  · split
    · exact modular_addAttribute L n s _
    · exact L.bind (L.error ..) fun _ => L.pure

/-- The entries are requests of their own, made while the list is locked. -/
theorem modular_addAllListed (L : Modular H) (hcall : Answered H call) (n : NodeId)
    (s : AttributeSet) : H _ (addAllListed call n s) := by
  refine L.arena_bind fun a => ?_
  split
  · exact L.pure
  · exact L.withLock (L.foldlM fun s entry => hcall.addListed n entry s)

/-- What a node inherits is the answer to a request on its parent. -/
theorem modular_addInherited (L : Modular H) (hcall : Answered H call) (n : NodeId)
    (s : AttributeSet) : H _ (addInherited call n s) := by
  refine L.arena_bind fun a => ?_
  split
  · exact L.pure
  · split
    · exact L.pure
    · exact L.bind (hcall.effectiveAttributes _) fun _ => L.pure

/-- A function with a body is not native, and this is reported only if it was written so. -/
theorem modular_dropNative (L : Modular H) (n : NodeId) (written : Bool) (s : AttributeSet) :
    H _ (dropNative n written s) := by
  refine L.arena_bind fun a => ?_
  split
  · dsimp only
    split
    · exact L.bind (L.error ..) fun _ => L.pure
    · exact L.pure
  · exact L.pure

/-- The attributes are remembered twice: those of the node alone before its list is read, so that a
node which leads back to itself ends, and all of them after it.  What remembering needs is up to the
property. -/
theorem modular_effectiveAttributes (L : Modular H) (hcall : Answered H call) {n : NodeId}
    (hremember : ∀ s, H _ (remember n s)) : H _ (effectiveAttributes call n) := by
  refine L.get_bind fun c => ?_
  split
  · exact L.pure
  · refine L.bind (hremember _) fun _ => ?_
    split
    · exact L.pure
    · refine L.bind (modular_addAllListed L hcall n _) fun listed => ?_
      refine L.bind (modular_addInherited L hcall n listed) fun s => ?_
      refine L.bind (modular_dropNative L n _ s) fun s => ?_
      exact L.bind (hremember s) fun _ => L.pure

theorem modular_hasAttribute (L : Modular H) (hcall : Answered H call) (n : NodeId)
    (t : Attribute) : H _ (hasAttribute call n t) :=
  L.bind (hcall.effectiveAttributes n) fun _ => L.pure

/-! ## Classes -/

/-- A constructor has the name of its class or the attribute for it, which outside of a class is an
error. -/
theorem modular_isConstructor (L : Modular H) (hcall : Answered H call) (f : NodeId) :
    H _ (isConstructor call f) := by
  refine L.arena_bind fun a => ?_
  extract_lets around none_ class_
  have hclass : ∀ u, H _ (class_ u) := by
    intro u
    dsimp only [class_, none_]
    clear_value around
    cases around with
    | none =>
      refine L.bind (modular_hasAttribute L hcall f _) fun b => ?_
      split
      · exact L.bind (L.error ..) fun _ => L.pure
      · exact L.pure
    | some c =>
      dsimp only
      split
      · exact L.pure
      · refine L.bind (modular_hasAttribute L hcall f _) fun b => ?_
        split <;> exact L.pure
  split
  · exact L.bind (L.internal rfl) hclass
  · exact hclass ()

/-- The name of a type is tried once, and linked if it stands for a class.  Whether that link may be
set is up to the property. -/
theorem modular_linkType (L : Modular H) (hcall : Answered H call)
    (hlink : ∀ n l t, H _ (write fun a => a.setLink n l t)) (ty : NodeId) :
    H _ (linkType call ty) := by
  refine L.arena_bind fun a => ?_
  dsimp only
  split
  · exact L.pure
  · refine L.bind (L.flag ty _) fun b => ?_
    split
    · exact L.pure
    · refine L.bind (L.setFlag ty rfl) fun _ => L.bind (hcall.resolveName ..) fun o => ?_
      cases o with
      | none => exact L.error ..
      | some object =>
        refine L.arena_bind fun a => ?_
        split
        · exact hlink ..
        · exact L.error ..

section

variable (htype : ∀ ty, H _ (linkType call ty))

include htype

theorem modular_linkedClass (L : Modular H) (ty : NodeId) : H _ (linkedClass call ty) :=
  L.bind (htype ty) fun _ => L.arena_bind fun _ => L.pure

/-- The super classes are tried until one derives from the base. -/
theorem modular_anyDerivedFrom (L : Modular H) (hcall : Answered H call) (base : NodeId)
    (names : List NodeId) : H _ (anyDerivedFrom call base names) := by
  induction names with
  | nil => exact L.pure
  | cons name names ih =>
    refine L.bind (modular_linkedClass htype L name) fun o => ?_
    cases o with
    | none => exact ih
    | some c =>
      refine L.bind (hcall.isDerivedFrom c base) fun b => ?_
      cases b
      · exact ih
      · exact L.pure

/-- Derivation asks for itself at each super class, so it is among the requests. -/
theorem modular_isDerivedFrom (L : Modular H) (hcall : Answered H call) (derived base : NodeId) :
    H _ (isDerivedFrom call derived base) := by
  rw [isDerivedFrom]
  split
  · exact L.pure
  · exact L.arena_bind fun a => modular_anyDerivedFrom htype L hcall base _

/-- The super classes are linked up to the first that is the class looked for. -/
theorem modular_linkedUpTo (L : Modular H) (c type : NodeId) (names : List NodeId) :
    H _ (linkedUpTo call c type names) := by
  induction names with
  | nil => exact L.pure
  | cons name names ih =>
    refine L.bind (modular_linkedClass htype L name) fun o => ?_
    cases o with
    | none => exact L.bind (L.error ..) fun _ => ih
    | some s =>
      dsimp only
      split
      · exact L.pure
      · exact L.bind ih fun _ => L.pure

/-- The depth is the greatest among the super classes, each asked one step further up. -/
theorem modular_classDepth (L : Modular H)
    (hdepth : ∀ c type depth, H _ (call (.classDepth c type depth))) (c type : NodeId)
    (depth : Int32) : H _ (classDepth call c type depth) := by
  refine L.withLock (L.arena_bind fun a => L.bind (modular_linkedUpTo htype L c type _) fun r => ?_)
  obtain ⟨met, supers⟩ := r
  dsimp only
  split
  · exact L.pure
  · exact L.foldlM fun best s => L.bind (hdepth s type (depth + 1)) fun _ => L.pure

end

theorem modular_isMemberDerivedFrom (L : Modular H) (hcall : Answered H call)
    (derived member : NodeId) : H _ (isMemberDerivedFrom call derived member) := by
  refine L.arena_bind fun a => ?_
  dsimp only
  split
  · exact L.bind (hcall.isDerivedFrom _ _) fun _ => L.pure
  · exact L.pure

/-! ## Types of functions and arguments -/

/-- A type of the language is resolved under a name created for the purpose, and must be found. -/
theorem modular_resolveInternalType (L : Modular H) (hcall : Answered H call) (n : NodeId)
    (name : String) : H _ (resolveInternalType call n name) := by
  refine L.createName fun id => L.bind (L.withLock (hcall.resolveName n id {})) fun o => ?_
  cases o with
  | none => exact L.bind (L.fatal ..) fun _ => L.fail rfl
  | some found => exact L.pure

theorem modular_resolveDeclaredType (L : Modular H) (hcall : Answered H call) (e : NodeId) :
    H _ (resolveDeclaredType call e) := by
  refine L.bind (L.markType e) fun _ => L.arena_bind fun a => ?_
  dsimp only
  split
  · exact hcall.resolveName ..
  · exact L.pure

/-- What sets links on types and members has the property. -/
structure Typed (H : (α : Type) → Search α → Prop) (call : Call) : Prop where
  /-- Classes that types name. -/
  linkType : ∀ ty, H _ (linkType call ty)
  /-- Types of functions. -/
  defineFunctionType : ∀ f, H _ (defineFunctionType call f)
  /-- Types of expressions. -/
  typeExpression : ∀ e, H _ (typeExpression call e)
  /-- Types of parameters. -/
  expectedOf : ∀ arg param, H _ (expectedOf call arg param)
  /-- Members that names stand for. -/
  linkField : ∀ field found, H _ (linkField field found)

section

variable (hlink : ∀ n l t, H _ (write fun a => a.setLink n l t))

include hlink

/-- The type of a function is set once: what was declared, else nothing for a constructor and an
object for any other function. -/
theorem modular_defineFunctionType (L : Modular H) (hcall : Answered H call) {f : NodeId}
    (hvoid : H _ (createReplacement f .void)) : H _ (defineFunctionType call f) := by
  have hset : ∀ ty, H Bool (do
      write fun a => a.setLink f .typeNode (some ty)
      return true) := fun ty => L.bind (hlink ..) fun _ => L.pure
  refine L.arena_bind fun a => ?_
  dsimp only
  split
  · exact L.pure
  · split
    · exact L.flag f _
    · refine L.withLock (L.arena_bind fun a => ?_)
      split
      · refine L.bind (modular_isConstructor L hcall f) fun o => ?_
        split
        · exact L.bind hvoid hset
        · exact L.bind (modular_resolveInternalType L hcall f _) hset
      · refine L.bind (modular_resolveDeclaredType L hcall _) fun o => ?_
        cases o with
        | none => exact L.pure
        | some ty => exact hset ty

/-- The type of a variable is the class that its declaration names. -/
theorem modular_typeVariable (L : Modular H) (hcall : Answered H call) (e : NodeId) :
    H _ (typeVariable call e) := by
  refine L.arena_bind fun a => ?_
  dsimp only
  split
  · exact L.pure
  · refine L.bind (modular_linkedClass (modular_linkType L hcall hlink) L _) fun o => ?_
    cases o with
    | none => exact L.bind (L.nameOf _) fun name => L.bind (L.fatal ..) fun _ => L.fail rfl
    | some ty => exact hlink ..

theorem modular_typeExpression (L : Modular H) (hcall : Answered H call) (e : NodeId) :
    H _ (typeExpression call e) := by
  refine L.arena_bind fun a => ?_
  split
  · exact L.pure
  · split
    · exact L.bind (modular_resolveInternalType L hcall e _) fun ty => hlink ..
    · exact modular_typeVariable hlink L hcall e

/-- What a parameter asks of its argument; the name of its type is resolved on the way. -/
theorem modular_expectedOf (L : Modular H) (hcall : Answered H call) (arg param : NodeId) :
    H _ (expectedOf call arg param) := by
  refine L.bind (L.flag param _) fun out => ?_
  extract_lets typed
  have htyped : ∀ u, H _ (typed u) := by
    refine fun u => L.arena_bind fun a => ?_
    split
    · exact L.pure
    · next ty _ =>
      split
      · exact L.pure
      · split
        · exact L.pure
        · extract_lets set
          have hset : ∀ found, H _ (set found) := by
            intro found
            cases found with
            | none => exact L.pure
            | some resolved => exact L.bind (hlink ..) fun _ => L.pure
          split
          · exact L.bind (hcall.resolveName ..) hset
          · exact L.bind L.pure hset
  split
  · refine L.arena_bind fun a => ?_
    split
    · exact L.bind (L.warning ..) fun _ => L.pure
    · exact htyped ()
  · exact htyped ()

/-- A name is linked to the only declaration that it can stand for; to meet another one is a fault
of the tree. -/
theorem modular_linkField (L : Modular H) (field found : NodeId) : H _ (linkField field found) := by
  refine L.arena_bind fun a => ?_
  split
  · exact hlink ..
  · split
    · exact L.internal rfl
    · exact L.pure

/-- A property that allows for every link allows for those on types and members. -/
theorem modular_typed (L : Modular H) (hcall : Answered H call)
    (hvoid : ∀ f, H _ (createReplacement f .void)) : Typed H call where
  linkType := modular_linkType L hcall hlink
  defineFunctionType f := modular_defineFunctionType hlink L hcall (hvoid f)
  typeExpression := modular_typeExpression hlink L hcall
  expectedOf := modular_expectedOf hlink L hcall
  linkField := modular_linkField hlink L

end

/-- Equal types and the type of all objects are settled at once; only two classes lead to a request
for a depth. -/
theorem modular_matchTypes (L : Modular H) (hcall : Answered H call) (htyped : Typed H call)
    (hdepth : ∀ c type depth, H _ (call (.classDepth c type depth))) (arg ty : NodeId) :
    H _ (matchTypes call arg ty) := by
  refine L.bind (htyped.typeExpression arg) fun _ => L.arena_bind fun a => ?_
  split
  · split
    · exact L.pure
    · refine L.bind (modular_resolveInternalType L hcall arg _) fun object => ?_
      split
      · exact L.pure
      · split
        · exact L.pure
        · refine L.arena_bind fun a => ?_
          split
          · exact L.pure
          · exact hdepth _ _ 2
  · exact L.pure

theorem modular_matchType (L : Modular H) (hcall : Answered H call) (htyped : Typed H call)
    (hdepth : ∀ c type depth, H _ (call (.classDepth c type depth))) (arg target : NodeId) :
    H _ (matchType call arg target) := by
  refine L.arena_bind fun a => ?_
  split
  · refine L.bind (htyped.expectedOf arg target) fun x => ?_
    cases x with
    | depth d => exact L.pure
    | typeOf ty => exact modular_matchTypes L hcall htyped hdepth arg ty
  · exact modular_matchTypes L hcall htyped hdepth arg target

/-- A function that a name stands for.  Its type is made sure of where the name is used without
arguments. -/
theorem modular_checkFunction (L : Modular H) (hcall : Answered H call) (htyped : Typed H call)
    (f : NodeId) (name : String) (args : Option NodeId) (mode : SearchMode) :
    H _ (checkFunction call f name args mode) := by
  refine L.bind (modular_hasAttribute L hcall f _) fun unused => ?_
  split
  · exact L.pure
  · refine L.bind (L.flag f _) fun getter => L.bind (L.flag f _) fun setter => ?_
    extract_lets expected
    refine L.arena_bind fun a => ?_
    clear_value expected
    split
    · exact L.pure
    · split
      · split
        · refine L.bind (modular_isConstructor L hcall f) fun o => ?_
          split
          · exact L.bind (L.nameOf f) fun name => L.bind (L.error ..) fun _ => L.pure
          · exact L.bind (htyped.defineFunctionType f) fun _ => L.pure
        · exact L.bind (htyped.defineFunctionType f) fun _ => L.pure
      · exact L.pure

/-! ## Matches -/

/-- A named argument belongs to the parameter of that name. -/
theorem modular_namedParameter (L : Modular H) (arg : NodeId) (declared : List NodeId) :
    H _ (namedParameter arg declared) := by
  refine L.arena_bind fun a => ?_
  split
  · split
    · exact L.bind (L.error ..) fun _ => L.pure
    · dsimp only
      split
      · exact L.bind (L.error ..) fun _ => L.pure
      · exact L.pure
  · exact L.bind (L.error ..) fun _ => L.pure

theorem modular_placeNamed (L : Modular H) (arg : NodeId) (declared : List NodeId)
    (s : Assignment) : H _ (placeNamed arg declared s) := by
  refine L.bind (modular_namedParameter L arg declared) fun o => ?_
  cases o with
  | none => exact L.pure
  | some j =>
    dsimp only
    split
    · exact L.pure
    · refine L.arena_bind fun a => ?_
      split
      · exact L.pure
      · exact L.bind (L.error ..) fun _ => L.pure

section

variable (hdepth : ∀ m j depth, H _ (change fun a => a.setParamDepth m j depth))
  (hindex : ∀ m i j, H _ (change fun a => a.setParamIndex m i j))

include hindex

/-- The parameters that no argument was given for get the places after the arguments, up to the
first that needs one. -/
theorem modular_assignMissing (L : Modular H) (m : NodeId) (size i : Nat)
    (ps : List (NodeId × Nat)) : H _ (assignMissing m size i ps) := by
  induction ps generalizing i with
  | nil => exact L.pure
  | cons p ps ih =>
    obtain ⟨p, j⟩ := p
    rw [assignMissing]
    dsimp only
    split
    · refine L.bind (hindex m i j) fun _ => L.arena_bind fun a => ?_
      split
      · exact ih _
      · exact L.pure
    · refine L.arena_bind fun a => ?_
      split
      · exact ih _
      · exact L.pure

include hdepth

/-- The arguments go to the parameters from the first to the last, by name or by place, and the
depth of each goes into the tables of the match. -/
theorem modular_assign (L : Modular H) (hmatch : ∀ arg target, H _ (matchType call arg target))
    (m : NodeId) (declared : List NodeId) (last : NodeId) (size i : Nat) (args : List NodeId)
    (s : Assignment) : H _ (assign call m declared last size i args s) := by
  induction args generalizing i s with
  | nil => exact L.pure
  | cons arg args ih =>
    refine L.arena_bind fun a => ?_
    extract_lets go
    have hgo : ∀ placed, H _ (go placed) := by
      intro placed
      cases placed with
      | none => exact L.pure
      | some r =>
        obtain ⟨j, s⟩ := r
        refine L.bind (hmatch arg _) fun depth => ?_
        split
        · exact L.pure
        · dsimp only
          split
          · exact L.bind (hdepth m j depth) fun _ => L.bind (hindex m i j) fun _ => ih _ _
          · exact ih _ _
    split
    · exact L.bind (modular_placeNamed L arg declared s) hgo
    · exact L.arena_bind fun a => L.bind L.pure hgo

end

/-! ## Selection -/

/-- Of two matches of one depth the one of the derived class is the better; else the call is
ambiguous. -/
theorem modular_betterByClass (L : Modular H) (hcall : Answered H call)
    (best candidate : NodeId) : H _ (betterByClass call best candidate) := by
  refine L.arena_bind fun a => ?_
  extract_lets bestFunc candidateFunc classes at_ ambiguous
  have hambiguous : ∀ u, H _ (ambiguous u) := fun u =>
    L.bind (L.nameOf _) fun _ => L.bind (L.error ..) fun _ => L.pure
  clear_value classes ambiguous
  split
  · exact L.pure
  · split
    · refine L.bind (hcall.isDerivedFrom _ _) fun b => ?_
      split
      · exact L.pure
      · refine L.bind (hcall.isDerivedFrom _ _) fun b => ?_
        split
        · exact L.pure
        · exact hambiguous ()
    · exact hambiguous ()

/-- Two matches are compared parameter by parameter, and by their classes if this does not
decide. -/
theorem modular_betterMatch (L : Modular H) (hcall : Answered H call) (best candidate : NodeId) :
    H _ (betterMatch call best candidate) := by
  refine L.arena_bind fun a => ?_
  dsimp only
  split
  · exact modular_betterByClass L hcall best candidate
  · split
    · exact L.pure
    · split
      · exact L.pure
      · split
        · exact modular_betterByClass L hcall best candidate
        · exact L.pure

/-- The loop through the matches, by induction on the steps that are left.  The worse of two matches
is dropped, which is left to the property. -/
theorem modular_selectFrom (L : Modular H) (hcall : Answered H call)
    (hdrop : ∀ params index m, H _ (dropMatch params index m))
    (hoffset : ∀ m, H _ (ask fun a => a.offset m)) (params : NodeId) (fuel index : Nat)
    (best : Option NodeId) (ambiguous : Bool) :
    H _ (selectFrom call params fuel index best ambiguous) := by
  induction fuel generalizing index best ambiguous with
  | zero => exact L.pure
  | succ fuel ih =>
    refine L.arena_bind fun a => ?_
    split
    · exact L.pure
    · split
      · exact ih _ _ _
      · cases best with
        | none => exact ih _ _ _
        | some current =>
          refine L.bind (modular_betterMatch L hcall current _) fun winner => ?_
          cases winner with
          | none => exact ih _ _ _
          | some winner =>
            dsimp only
            split
            · refine L.bind (hoffset current) fun previous => ?_
              exact L.bind (hdrop params previous current) fun _ => ih _ _ _
            · exact L.bind (hdrop params index _) fun _ => ih _ _ _

/-- The choice is the loop from the first match on; a list without matches is an error in the
tree. -/
theorem modular_selectBestFunction (L : Modular H) {params : Option NodeId}
    (hfrom : ∀ p ∈ params, ∀ fuel, H _ (selectFrom call p fuel 0 none false)) :
    H _ (selectBestFunction call params) := by
  cases params with
  | none => exact L.internal rfl
  | some p =>
    refine L.arena_bind fun a => L.bind (hfrom p rfl _) fun r => ?_
    obtain ⟨best, ambiguous⟩ := r
    cases best with
    | none => exact L.internal rfl
    | some m =>
      dsimp only
      split
      · exact L.pure
      · exact L.arena_bind fun _ => L.pure

end SymbolTree.Search
