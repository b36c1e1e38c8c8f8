import SymbolTree.Search.Attributes

/-!
# Classes and what they inherit from

The names after `extends` and `implements` are linked to the classes they stand for on first use.
From these links follow the classes that a class inherits from and how far away they are.
-/

set_option autoImplicit false
namespace SymbolTree

namespace Kind

/-- Kinds that can serve as a name in an expression. -/
def isName (k : Kind) : Bool := k = .identifier || k = .videntifier || k = .string

/-- Kinds that declare a type. -/
def isClass (k : Kind) : Bool := k = .class_ || k = .interface

end Kind

namespace Arena

/-- The names in the `extends` and `implements` clauses of a class. -/
def superNames (a : Arena) (c : NodeId) : List NodeId :=
  (a.children c).flatMap fun clause =>
    if a.kind clause = .extends_ || a.kind clause = .implements then
      match a.children clause with
      | [name] => if a.kind name = .list then a.children name else [name]
      | _ => []
    else []

/-- The class or interface around a node, which may be the node itself. -/
def classOfMember (a : Arena) (n : NodeId) : Option NodeId :=
  match (n :: a.ancestors n).find? fun m =>
      [Kind.class_, .interface, .package, .program, .root].contains (a.kind m) with
  | some m => if (a.kind m).isClass then some m else none
  | none => none

/-- The class, interface or package that owns a declaration. -/
def memberOwner (a : Arena) (n : NodeId) : Option NodeId :=
  match a.findAncestor n [.class_, .interface, .package, .program, .root] with
  | some m => if (a.kind m).isClass || a.kind m = .package then some m else none
  | none => none

end Arena

namespace Search

/-- The class that a function constructs.  It is the class around it, when the function has its
name or the attribute `constructor`. -/
def isConstructor (call : Call) (f : NodeId) : Search (Option NodeId) := do
  let a ← arena
  if a.kind f ≠ .function then
    internal .notAFunction
  let around := (a.findAncestor f [.package, .program, .function, .interface, .class_]).filter
    fun c => a.kind c = .class_
  match around with
  | some c =>
      if a.textIs f (a.node c).text then return some c
      else if ← hasAttribute call f .constructor then return some c
      else return none
  | none =>
      if ← hasAttribute call f .constructor then
        error .invalidAttributes f
          ("'constructor " ++ a.name f ++ "()' cannot be used outside of a class declaration.")
      return none

/-- Links the name of a type to the class it stands for.  Each name is tried once. -/
def linkType (call : Call) (ty : NodeId) : Search Unit := do
  let a ← arena
  if (a.inst ty).isSome || (a.kind ty ≠ .identifier && a.kind ty ≠ .string) then return
  if ← ask fun a => a.flag ty .identifierTyped then return
  change fun a => a.setFlag ty .identifierTyped true
  let name := a.name ty
  match ← call (.resolveName ty ty none {}) with
  | none =>
      error .invalidExpression ty ("cannot find a class definition for type '" ++ name ++ "'.")
  | some object =>
      if ((← arena).kind object).isClass then write fun a => a.setLink ty .inst (some object)
      else
        error .invalidExpression ty
          ("the name '" ++ name ++ "' is not referencing a class nor an interface.")

/-- The class that a name of a type was linked to, after trying to link it. -/
def linkedClass (call : Call) (ty : NodeId) : Search (Option NodeId) := do
  linkType call ty
  return (← arena).inst ty

/-! ## Derivation -/

/-- One of the names is linked to a class that is another class or inherits from it. -/
def anyDerivedFrom (call : Call) (base : NodeId) : List NodeId → Search Bool
  | [] => return false
  | name :: names => do
      match ← linkedClass call name with
      | some c =>
          if ← call (.isDerivedFrom c base) then return true
          else anyDerivedFrom call base names
      | none => anyDerivedFrom call base names

/-- One class is another or inherits from it. -/
def isDerivedFrom (call : Call) (derived base : NodeId) : Search Bool := do
  if derived = base then return true
  anyDerivedFrom call base ((← arena).superNames derived)

/-- The classes that the names stand for, up to the one looked for.  The first part of the answer
says whether it was met. -/
def linkedUpTo (call : Call) (c type : NodeId) : List NodeId → Search (Bool × List NodeId)
  | [] => return (false, [])
  | name :: names => do
      match ← linkedClass call name with
      | none =>
          error .invalidExpression c
            "cannot find the type named in an 'extends' or 'implements' list."
          linkedUpTo call c type names
      | some s =>
          if s = type then return (true, [])
          let (met, more) ← linkedUpTo call c type names
          return (met, s :: more)

/-- The depth of a type among the classes from which `c` inherits: `depth` if `c` names it, more
if it is further up.  Where several ways lead up, the longest counts. -/
def classDepth (call : Call) (c type : NodeId) (depth : Int32) : Search Int32 :=
  withLock c do
    let (met, supers) ← linkedUpTo call c type ((← arena).superNames c)
    if met then return depth
    supers.foldlM (fun best s => return max best (← call (.classDepth s type (depth + 1))))
      matchNotFound

/-- The class around `derived` inherits from the one that declares `member`; and who owns
`member`. -/
def isMemberDerivedFrom (call : Call) (derived member : NodeId) :
    Search (Bool × Option NodeId) := do
  let a ← arena
  let owner := a.memberOwner member
  match owner.filter (fun o => (a.kind o).isClass), a.classOfMember derived with
  | some base, some c => return (← call (.isDerivedFrom c base), owner)
  | _, _ => return (false, owner)

end Search

end SymbolTree
