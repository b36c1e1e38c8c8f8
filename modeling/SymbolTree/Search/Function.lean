import SymbolTree.Search.Inheritance

/-!
# Types of functions and arguments

The type that a function returns, the type of an argument, and how well an argument meets a
parameter.
-/

set_option autoImplicit false
namespace SymbolTree.Search

/-! ## Types that every program needs -/

/-- Resolves a type that every program needs, such as `Object`, as seen from a node.  Without it
the installation is broken. -/
def resolveInternalType (call : Call) (n : NodeId) (name : String) : Search NodeId := do
  let id ← createReplacement n .identifier
  change fun a => a.setText id name
  match ← withLock n (call (.resolveName n id none {})) with
  | some found => return found
  | none =>
      fatal .internalError n ("cannot find internal type \"" ++ name ++ "\".")
      fail (.missingType name)

/-! ## Types of functions -/

/-- The expression after the colon of a function, if its type is declared. -/
def declaredType (a : Arena) (f : NodeId) : Option NodeId :=
  (a.children f).findSome? fun c =>
    if a.kind c = .type then
      match a.children c with
      | [e] => some e
      | _ => none
    else none

/-- The type that a declared type stands for.  Names in it are marked as naming types, so that no
parameter is taken for one. -/
def resolveDeclaredType (call : Call) (e : NodeId) : Search (Option NodeId) := do
  let _ ← edit (Edit.setAttributeTree e .type true)
  let k := (← arena).kind e
  if k.isName || k = .member then call (.resolveName e e none {}) else return none

/-- Makes sure that the type of a function is known; the answer is `false` when it cannot be found.
Without a declared type a constructor returns nothing and any other function an object. -/
def defineFunctionType (call : Call) (f : NodeId) : Search Bool := do
  let a ← arena
  if (a.typeNode f).isSome then return true
  if (a.children f).isEmpty then return ← ask fun a => a.flag f .functionVoid
  withLock f do
    match declaredType (← arena) f with
    | none =>
        let ty ← if (← isConstructor call f).isSome then createReplacement f .void
          else resolveInternalType call f "Object"
        write fun a => a.setLink f .typeNode (some ty)
        return true
    | some e =>
        match ← resolveDeclaredType call e with
        | some ty =>
            write fun a => a.setLink f .typeNode (some ty)
            return true
        | none => return false

/-! ## Types of expressions -/

/-- The class of a literal. -/
def literalClass : Kind → Option String
  | .string => some "String"
  | .int64 => some "Integer"
  | .float64 => some "Double"
  | .true_ | .false_ => some "Boolean"
  | .objectLiteral => some "Object"
  | .arrayLiteral => some "Array"
  | _ => none

/-- Gives a reference to a typed variable the class of that variable. -/
def typeVariable (call : Call) (e : NodeId) : Search Unit := do
  let a ← arena
  let declared := do
    let v ← (a.inst e).filter fun v => a.kind v = .variable_
    let ty ← (a.children v).head?
    if a.kind ty = .set then none else some ty
  match declared with
  | none => return
  | some ty =>
      match ← linkedClass call ty with
      | some c => write fun a => a.setLink e .typeNode (some c)
      | none =>
          let name ← nameOf ty
          fatal .internalError e "type is missing when it should not."
          fail (.missingType name)

/-- Makes sure that the type of an expression is known, if it can be told. -/
def typeExpression (call : Call) (e : NodeId) : Search Unit := do
  let a ← arena
  if (a.typeNode e).isSome then return
  match literalClass (a.kind e) with
  | some name =>
      let ty ← resolveInternalType call e name
      write fun a => a.setLink e .typeNode (some ty)
  | none => typeVariable call e

/-! ## Arguments and parameters -/

/-- What the declaration of a parameter says about its arguments. -/
inductive Expected where
  /-- A depth that does not depend on the argument. -/
  | depth (d : Int32)
  /-- The argument is measured against the type of a node. -/
  | typeOf (n : NodeId)
  deriving DecidableEq, Repr

/-- What a parameter expects of an argument.  A parameter without a type takes anything, and one
through which a value is returned takes only a name. -/
def expectedOf (call : Call) (arg param : NodeId) : Search Expected := do
  if ← ask fun a => a.flag param .paramOut then
    if (← arena).kind arg ≠ .identifier then
      warning .misssingVariableName arg
        ("a variable name is expected for a function parameter flagged as an OUT parameter.")
      return .depth matchNotFound
  let a ← arena
  match (a.children param).head? with
  | none => return .depth matchLowestDepth
  | some ty =>
      if a.kind ty = .set then return .depth matchLowestDepth
      if (a.typeNode ty).isSome then return .typeOf ty
      let found ← if (a.kind ty).isName then call (.resolveName ty ty none {}) else pure none
      match found with
      | none => return .depth matchNotFound
      | some resolved =>
          write fun a => a.setLink ty .typeNode (some resolved)
          return .typeOf ty

/-- How well an argument meets the type of a node. -/
def matchTypes (call : Call) (arg ty : NodeId) : Search Int32 := do
  typeExpression call arg
  let a ← arena
  match a.typeNode arg, a.typeNode ty with
  | some tp1, some tp2 =>
      if tp1 = tp2 then return matchHighestDepth
      let object ← resolveInternalType call arg "Object"
      if tp1 = object then return matchHighestDepth
      if tp2 = object then return matchLowestDepth
      if (← arena).kind tp1 ≠ .class_ then return matchNotFound
      call (.classDepth tp1 tp2 2)
  | _, _ => return matchHighestDepth

/-- How well an argument meets a parameter, or a node that has a type. -/
def matchType (call : Call) (arg target : NodeId) : Search Int32 := do
  if (← arena).kind target = .param then
    match ← expectedOf call arg target with
    | .depth d => return d
    | .typeOf ty => matchTypes call arg ty
  else matchTypes call arg target

/-! ## Functions by name -/

/-- The function, if it is the one that a name stands for.  An unused function never is, and
without arguments neither is a getter or a setter unless it is asked for. -/
def checkFunction (call : Call) (f : NodeId) (name : String) (params : Option NodeId)
    (mode : SearchMode) : Search (Option NodeId) := do
  if ← hasAttribute call f .unused then return none
  let getter ← ask fun a => a.flag f .functionGetter
  let setter ← ask fun a => a.flag f .functionSetter
  let expected :=
    if getter && mode.getters then "->" ++ name
    else if setter && mode.setters then "<-" ++ name
    else name
  if !(← arena).textIs f expected then return none
  if params.isNone then
    if getter || setter then
      if (← isConstructor call f).isNone then
        error .mismatchFuncVar f
          ("a variable name was expected, we found the function '" ++ (← nameOf f)
            ++ "' instead.")
        return none
    let _ ← defineFunctionType call f
  return some f

end SymbolTree.Search
