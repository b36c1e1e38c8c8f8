import SymbolTree.Search.Declaration

/-!
# Scopes

A name is looked for from the inside out: in the scopes around the place where it is used, up to the
program, and then in the global, the system and the native declarations.

* In a list of directives the closest declaration before the place comes first, then the others
  before it, then those after it.
* A function shows its parameters, except to the name of a type; a default value sees the
  parameters before its own.
* A class shows what it inherits, an enumeration itself and its values, a `with` the members of its
  object, a loop and a `catch` what they declare.
-/

set_option autoImplicit false
namespace SymbolTree

namespace Kind

/-- Kinds that open a scope. -/
def isScope (k : Kind) : Bool :=
  [Kind.directiveList, .for_, .with_, .program, .function, .parameters, .enum, .catch_, .class_,
   .interface].contains k

end Kind

namespace Search

/-! ## Climbing -/

/-- The parent of a node on the way to a scope. -/
def parentInWalk (a : Arena) (n : NodeId) : Except CompileError NodeId :=
  match a.parent n with
  | some p => .ok p
  | none => .error (.node (.noParent .resolveName))

/-- The nearest scope above a node and the place in it from which the way came, for at most `fuel`
steps.  The names after `extends` and `implements` stand outside the class. -/
def climb (a : Arena) : Nat → NodeId → Except CompileError (NodeId × Nat)
  | 0, _ => .error (.node (.noParent .resolveName))
  | fuel + 1, n => do
      let offset ← (a.offset n).mapError .node
      let p ← parentInWalk a n
      match a.kind p with
      | .root => .error (.internal .rootReached)
      | .extends_ | .implements => climb a fuel (← parentInWalk a p)
      | k => if k.isScope then .ok (p, offset) else climb a fuel p

/-- The nearest scope around a node and the place in it from which the way came.  The function
around parameters is skipped, since its parameters were searched already. -/
def enclosingScope (a : Arena) (n : NodeId) : Except CompileError (NodeId × Nat) := do
  if a.kind n = .parameters then climb a (a.size + 1) (← parentInWalk a n)
  else climb a (a.size + 1) n

/-! ## One scope -/

/-- What is looked for: a name, with the arguments of a call if it is called. -/
structure Query where
  /-- The node that holds the name. -/
  id : NodeId
  /-- The arguments. -/
  params : Option NodeId
  /-- What is accepted. -/
  mode : SearchMode

/-- How the search in a scope ends. -/
inductive Step where
  /-- The search is over. -/
  | ended (answer : Option NodeId)
  /-- The search goes on in the next scope. -/
  | next (t : Tally)

/-- The step after a number of children were asked. -/
def Step.ofScan : Bool × Tally → Step
  | (true, t) => .ended t.found
  | (false, t) => .next t

/-- Asks children of a node one after the other. -/
def askChildren (call : Call) (q : Query) (list : NodeId) (places : List Nat) (t : Tally) :
    Search Step := do
  return .ofScan (← scan (tryChild call list q.id q.params q.mode) places t)

/-- Asks the children of a list of directives: those before a place from the last to the first, and
then the others. -/
def inDirectives (call : Call) (q : Query) (list : NodeId) (offset : Nat) (t : Tally) :
    Search Step := do
  let size := ((← arena).children list).length
  if 0 < size && size ≤ offset then
    internal .offsetOutOfRange
  let later := (List.range (size - offset)).map (offset + ·)
  askChildren call q list ((List.range offset).reverse ++ later) t

/-- Asks the members of the object of a `with`. -/
def inWith (call : Call) (q : Query) (list : NodeId) (t : Tally) : Search Step := do
  let a ← arena
  match a.children list with
  | [object, _] =>
      match a.inst object with
      | none => return .next t
      | some o =>
          match ← resolveField call o q.id q.params q.mode with
          | none => return .next t
          | some found =>
              change fun a => a.setFlag q.id .identifierWith true
              if t.funcs ≠ 0 then
                internal .functionsUnderWith
              return .ended (some found)
  | _ => return .next t

/-- Asks the parameters of a function. -/
def inFunction (call : Call) (q : Query) (list : NodeId) (t : Tally) : Search Step := do
  if ← ask fun a => a.hasAttribute q.id .type then return .next t
  match (← arena).findFirstChild list .parameters with
  | none => return .next t
  | some parameters => withLock parameters do
      let size := ((← arena).children parameters).length
      askChildren call q parameters (List.range size) t

/-- Asks the parameter of a `catch`. -/
def inCatch (call : Call) (q : Query) (list : NodeId) (t : Tally) : Search Step := do
  let a ← arena
  match (a.children list).head? with
  | none => return .next t
  | some parameters =>
      if (a.children parameters).isEmpty then return .next t
      askChildren call q parameters [0] t

/-- Asks the values of an enumeration, and marks the one found as used. -/
def inEnum (list : NodeId) (name : String) (t : Tally) : Search Step := do
  match findVariable (← arena) list name with
  | none => return .next t
  | some v =>
      change fun a => a.setFlag v .variableInuse true
      return .ended (some v)

/-- Asks the classes from which a class inherits. -/
def inClass (call : Call) (q : Query) (list : NodeId) (t : Tally) : Search Step := do
  let (found, t) ← findInExtends call list q.id t q.params q.mode
  if found then return .ofScan (t.settle (← arena) q.params false) else return .next t

/-- Looks for a name in one scope, which is locked meanwhile. -/
def inScope (call : Call) (q : Query) (list : NodeId) (offset : Nat) (t : Tally) :
    Search Step := do
  let a ← arena
  let name := a.name q.id
  if a.kind list = .enum && a.textIs list name then
    change fun a => a.setFlag list .enumInuse true
    return .ended (some list)
  withLock list do
    match a.kind list with
    | .directiveList => inDirectives call q list offset t
    | .for_ => askChildren call q list (List.range (min 1 (a.children list).length)) t
    | .with_ => inWith call q list t
    | .function => inFunction call q list t
    | .parameters => askChildren call q list (List.range offset).reverse t
    | .catch_ => inCatch call q list t
    | .enum => inEnum list name t
    | .class_ | .interface => inClass call q list t
    | k => internal (.unhandledScope k)

/-! ## All scopes -/

/-- Nothing ended the search: the best of the functions found, or nothing, in which case the
rejected candidates are reported. -/
def conclude (call : Call) (q : Query) (t : Tally) : Search (Option NodeId) := do
  let best ← if t.funcs ≠ 0 then selectBestFunction call q.params else pure none
  if best.isNone then
    reportRejections q.id
  return best

/-- Looks for a name in the first list of each module that declares things for all programs. -/
def walkImports (call : Call) (q : Query) :
    List (Context → Option NodeId) → Tally → Search (Option NodeId)
  | [], t => conclude call q t
  | import_ :: imports, t => do
      let c ← get
      match (import_ c).bind fun program => (c.arena.children program).head? with
      | none => walkImports call q imports t
      | some list =>
          match ← inScope call q list 0 t with
          | .ended answer => return answer
          | .next t => walkImports call q imports t

/-- Looks for a name in the scopes around a node, for at most `fuel` scopes, and then in the modules
that declare things for all programs. -/
def walkScopes (call : Call) (q : Query) : Nat → NodeId → Tally → Search (Option NodeId)
  | 0, _, _ => throw .exhausted
  | fuel + 1, n, t => do
      let a ← arena
      match enclosingScope a n with
      | .error e => fail e
      | .ok (list, offset) =>
          if a.kind list = .program then
            walkImports call q [(·.globalImport), (·.systemImport), (·.nativeImport)] t
          else
            match ← inScope call q list offset t with
            | .ended answer => return answer
            | .next t => walkScopes call q fuel list t

/-! ## Names and members -/

/-- Looks for the member that a member expression names: first for its object, then in what that
stands for. -/
def resolveMember (call : Call) (list member : NodeId) (params : Option NodeId)
    (mode : SearchMode) : Search (Option NodeId) := do
  match (← arena).children member with
  | [object, field] =>
      match ← call (.resolveName list object none mode) with
      | none => return none
      | some scope =>
          let a ← arena
          match a.kind scope with
          | .package => selectMember call (← findField call scope field 0 params mode) params
          | .enum =>
              match findVariable a scope (a.name field) with
              | none => return none
              | some v =>
                  change fun a => a.setFlag v .variableInuse true
                  return some v
          | _ => resolveField call scope field params mode
  | _ => internal .malformedMember

/-- The declaration to which a name or a member expression refers, seen from `list`.  With
arguments, every function that takes them is a candidate and the best one is taken; without, the
first declaration is. -/
def resolveName (call : Call) (list id : NodeId) (params : Option NodeId) (mode : SearchMode) :
    Search (Option NodeId) :=
  withFreshRejections do
    let a ← arena
    if a.kind id = .member then resolveMember call list id params mode
    else if !(a.kind id).isName then internal .notAName
    else match a.typeNode id with
      | some resolved => return some resolved
      | none =>
          -- the object of a `with` is looked for outside of it
          let start := match a.parent list with
            | some p => if a.kind p = .with_ then p else list
            | none => list
          walkScopes call ⟨id, params, mode⟩ (a.size + 1) start {}

end Search

end SymbolTree
