import SymbolTree.Search.Overload

/-!
# Members of classes

A member is looked for in the body of a class first and then in the classes it inherits from.  A
name that several of these declare is ambiguous, unless it is the name of functions.
-/

set_option autoImplicit false
namespace SymbolTree.Search

/-- Tries the items of a list one after the other until the search is over. -/
def scan {α : Type} (step : α → Tally → Search (Bool × Tally)) :
    List α → Tally → Search (Bool × Tally)
  | [], t => return (false, t)
  | x :: xs, t => do
      let (ended, t) ← step x t
      if ended then return (true, t) else scan step xs t

/-- Looks for a member in the classes that the names of a class stand for, and counts those that
have it. -/
def findInSupers (call : Call) (link field : NodeId) (params : Option NodeId) (mode : SearchMode) :
    List NodeId → Nat → Tally → Search (Nat × Tally)
  | [], count, t => return (count, t)
  | name :: names, count, t => do
      match ← linkedClass call name with
      | some c =>
          let (found, t) ← call (.findMember c field t params mode)
          findInSupers call link field params mode names (if found then count + 1 else count) t
      | none =>
          warning .typeNotLinked link "type not linked, cannot lookup member."
          findInSupers call link field params mode names count t

/-- Looks for a member in the classes that a class inherits from. -/
def findInExtends (call : Call) (link field : NodeId) (t : Tally) (params : Option NodeId)
    (mode : SearchMode) : Search (Bool × Tally) :=
  withLock link do
    let (count, t) ← findInSupers call link field params mode ((← arena).superNames link) 0 t
    if count = 1 || t.funcs ≠ 0 then return (true, t)
    if 1 < count then
      error .duplicates field ("found more than one match for '" ++ (← nameOf field) ++ "'.")
    return (false, t)

/-- Looks for a member in the body of a class. -/
def findInBody (call : Call) (link field : NodeId) (t : Tally) (params : Option NodeId)
    (mode : SearchMode) : Search (Bool × Tally) :=
  withLock link do
    let a ← arena
    let lists := (a.children link).filter fun c => a.kind c = .directiveList
    scan (fun list t => call (.findInList list field t params mode)) lists t

/-- Looks for a member in a class and in those it inherits from.  Functions found in the class hide
those of the others. -/
def findMember (call : Call) (link field : NodeId) (t : Tally) (params : Option NodeId)
    (mode : SearchMode) : Search (Bool × Tally) := do
  let (found, t) ← findInBody call link field t params mode
  if found || t.funcs ≠ 0 then return (true, t)
  findInExtends call link field t params mode

/-- Links a name to the only declaration it can stand for; another link would be a contradiction. -/
def linkField (field found : NodeId) : Search Unit := do
  match (← arena).inst field with
  | none => write fun a => a.setLink field .inst (some found)
  | some other =>
      if other ≠ found then
        internal .relinked

/-- Looks for a member and reports the candidates that were rejected if there is none.  The second
part of the answer is the number of plain functions. -/
def findField (call : Call) (link field : NodeId) (funcs : Nat) (params : Option NodeId)
    (mode : SearchMode) : Search (Option NodeId × Nat) :=
  withFreshRejections do
    let (found, t) ← call (.findMember link field { funcs } params mode)
    if !found then
      reportRejections field
      return (none, t.funcs)
    if t.funcs = 0 then
      if let some n := t.found then
        linkField field n
    return (t.found, t.funcs)

/-- The member that was found or, if overloaded functions were, the best of them. -/
def selectMember (call : Call) (found : Option NodeId × Nat) (params : Option NodeId) :
    Search (Option NodeId) := do
  if found.1.isNone || found.2 = 0 || params.isNone then return found.1
  selectBestFunction call params

/-- The class in which the members of an object are declared: the object itself, or the class of a
typed variable or parameter. -/
def classOfObject (call : Call) (object : NodeId) : Search (Option NodeId) := do
  let a ← arena
  match a.kind object with
  | .variable_ | .param =>
      match (a.children object).find? fun c => a.kind c ≠ .set && a.kind c ≠ .varAttributes with
      | some ty => linkedClass call ty
      | none =>
          warning .incompatible object
            "variables and parameters without a type should not be used with members."
          return none
  | .class_ | .interface => return some object
  | k =>
      error .invalidType object
        ("object of type '" ++ k.name ++ "' is not known to have members.")
      return none

/-- Looks for a member of an object.  What is no name is looked for when the program runs. -/
def resolveField (call : Call) (object field : NodeId) (params : Option NodeId)
    (mode : SearchMode) : Search (Option NodeId) := do
  match ← classOfObject call object with
  | none => return none
  | some link =>
      if ((← arena).kind field).isName then
        selectMember call (← findField call link field 0 params mode) params
      else return none

end SymbolTree.Search
