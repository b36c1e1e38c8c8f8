import SymbolTree.Search.Package

/-!
# Declarations and who may see them

`Search.checkName` asks whether one node among others declares a name, and whether the place where
the name is used may see that declaration.  A declaration that it may not see is recorded as
rejected and is not an error.
-/

set_option autoImplicit false
namespace SymbolTree.Search

/-! ## Visibility -/

/-- Why a private declaration is rejected, if it is: a member of a class is seen within that class,
and a member of a package within that package. -/
def privateRejection (a : Arena) (id declaration : NodeId) : Option Rejection :=
  match a.memberOwner declaration with
  | none => some .private_
  | some owner =>
      if a.kind owner = .package then
        if a.findAncestor id [.package] = some owner then none else some .privatePackage
      else if (a.kind owner).isClass then
        if a.classOfMember id = some owner then none else some .private_
      else some .wrongPrivate

/-- Why a protected declaration is rejected, if it is: a member of a class is seen within the
classes that inherit from it. -/
def protectedRejection (call : Call) (id declaration : NodeId) : Search (Option Rejection) := do
  let (derived, owner) ← isMemberDerivedFrom call id declaration
  if derived then return none
  let a ← arena
  if owner.any fun o => (a.kind o).isClass then return some .protected_
  return some .wrongProtected

/-- Why a declaration is rejected, if it is.  An internal declaration is seen within packages. -/
def rejection (call : Call) (id declaration : NodeId) : Search (Option Rejection) := do
  if ← hasAttribute call declaration .private_ then
    if let some r := privateRejection (← arena) id declaration then
      return some r
  if ← hasAttribute call declaration .protected_ then
    if let some r ← protectedRejection call id declaration then
      return some r
  if ← hasAttribute call declaration .internal then
    if ((← arena).findAncestor id [.package]).isNone then
      return some .internal
  return none

/-! ## Declarations of a name -/

/-- The variable of a name among the children of a node. -/
def findVariable (a : Arena) (n : NodeId) (name : String) : Option NodeId :=
  (a.children n).find? fun v => a.kind v = .variable_ && a.textIs v name

/-- What a node declares under a name. -/
inductive Candidate where
  /-- Nothing. -/
  | none
  /-- A declaration that every place sees. -/
  | open_ (n : NodeId)
  /-- A declaration that only some places see. -/
  | guarded (n : NodeId)
  deriving DecidableEq, Repr

/-- A candidate that only some places see, if there is one. -/
def Candidate.ofOption : Option NodeId → Candidate
  | some n => .guarded n
  | .none => .none

/-- What an enumeration declares under a name: itself or one of its values.  What is found is
marked as used. -/
def checkEnum (n : NodeId) (name : String) : Search Candidate := do
  let a ← arena
  if a.textIs n name then
    change fun a => a.setFlag n .enumInuse true
    return .open_ n
  match findVariable a n name with
  | some v =>
      change fun a => a.setFlag v .variableInuse true
      return .open_ v
  | .none => return .none

/-- What a node declares under the name of `id`. -/
def candidate (call : Call) (n id : NodeId) (params : Option NodeId) (mode : SearchMode) :
    Search Candidate := do
  let a ← arena
  let name := a.name id
  match a.kind n with
  | .var => return .ofOption (findVariable a n name)
  | .param =>
      if a.textIs n name then
        change fun a => a.setFlag n .paramReferenced true
        return .open_ n
      else return .none
  | .function =>
      match ← isConstructor call n with
      | some c => return if (← arena).textIs c name then .guarded c else .none
      | none => return .ofOption (← checkFunction call n name params mode)
  | .class_ | .interface =>
      if a.textIs n name then
        if (a.typeNode n).isNone then
          write fun a => a.setLink n .typeNode (some n)
        change fun a => a.setFlag id .identifierTyped true
        return .guarded n
      else return .none
  | .enum => checkEnum n name
  | .package => return if a.textIs n name then .open_ n else .none
  | .import_ =>
      match ← checkImport call n name params mode with
      | some m => return .open_ m
      | none => return .none
  | _ => return .none

/-- The declaration of the name of `id` at a place among the children of a list, if there is one
that `id` may see.  A function also has to take the arguments, if there are any. -/
def checkName (call : Call) (list : NodeId) (index : Nat) (id : NodeId) (params : Option NodeId)
    (mode : SearchMode) : Search (Option NodeId) := do
  match ((← arena).children list)[index]? with
  | none => internal .indexTooLarge
  | some n =>
      match ← candidate call n id params mode with
      | .none => return none
      | .open_ m => return some m
      | .guarded m =>
          if let some r ← rejection call id m then
            reject r
            return none
          if (← arena).kind n = .function && params.isSome then
            if !(← checkFunctionWithParams call n params) then
              reject .prototype
              return none
          return some m

/-- Asks one child of a list, and says whether the search is over. -/
def tryChild (call : Call) (list : NodeId) (id : NodeId) (params : Option NodeId)
    (mode : SearchMode) (index : Nat) (t : Tally) : Search (Bool × Tally) := do
  match ← checkName call list index id params mode with
  | some n => return { t with found := some n }.settle (← arena) params true
  | none => return (false, t)

/-! ## Lists of directives -/

/-- Asks one child of a body.  A list of directives inside it belongs to the body. -/
def tryBodyChild (call : Call) (list : NodeId) (field : NodeId) (params : Option NodeId)
    (mode : SearchMode) (index : Nat) (t : Tally) : Search (Bool × Tally) := do
  let c ← ask fun a => a.child list index
  match (← arena).kind c with
  | .directiveList =>
      let (found, t) ← call (.findInList c field t params mode)
      if found then return t.settle (← arena) params false else return (false, t)
  | .empty => return (false, t)
  | _ => tryChild call list field params mode index t

/-- Looks for a declaration in a list of directives, from the first to the last. -/
def findInList (call : Call) (list field : NodeId) (t : Tally) (params : Option NodeId)
    (mode : SearchMode) : Search (Bool × Tally) :=
  withLock list do
    scan (tryBodyChild call list field params mode)
      (List.range ((← arena).children list).length) t

end SymbolTree.Search
