import SymbolTree.Search.Function

/-!
# Overloaded functions

Every function that takes the arguments of a call leaves a match among the arguments: a node with
two tables, how well each parameter is met and to which parameter each argument goes.  When all
candidates are known the best match is kept.
-/

set_option autoImplicit false
namespace SymbolTree.Search

/-! ## Assigning arguments to parameters -/

/-- A flag of a parameter; what is no parameter has no such flag. -/
def paramFlag (a : Arena) (p : NodeId) (f : Flag) : Bool :=
  a.kind p = .param && (a.node p).flags.contains f

/-- A match that says nothing about the parameters. -/
def acceptUnprototyped (params candidate : NodeId) : Search Bool := do
  change fun a => a.setFlag candidate .paramMatchUnprototyped true
  change fun a => a.appendChild params candidate
  return true

/-- A match of a function that takes no arguments. -/
def acceptEmpty (params candidate : NodeId) (args : List NodeId) : Search Bool := do
  if args.isEmpty then
    change fun a => a.appendChild params candidate
    return true
  else return false

/-- Which parameters have an argument, from where on the next free one is looked for, and the next
place after the parameters. -/
structure Assignment where
  /-- Whether each parameter has an argument. -/
  used : List Bool
  /-- No parameter before this one is free. -/
  free : Nat := 0
  /-- The next place for an argument of the rest parameter. -/
  rest : Nat
  deriving DecidableEq, Repr

/-- The place of the parameter that a named argument asks for. -/
def namedParameter (arg : NodeId) (declared : List NodeId) : Search (Option Nat) := do
  let a ← arena
  match a.children arg with
  | [nameNode] =>
      if a.kind nameNode ≠ .identifier then
        error .internalError nameNode "the name of a parameter needs to be an identifier."
        return none
      let name := a.name nameNode
      let found := declared.findIdx? (fun p => a.textIs p name)
      if found.isNone then
        error .invalidFieldName nameNode
          ("no parameter named '" ++ name ++ "' was found in this function declaration.")
      return found
  | _ =>
      error .internalError arg "found a NODE_NAME without children."
      return none

/-- The place of a named argument: its parameter, or the next one of the rest if that parameter
has an argument and takes more. -/
def placeNamed (arg : NodeId) (declared : List NodeId) (s : Assignment) :
    Search (Option (Nat × Assignment)) := do
  match ← namedParameter arg declared with
  | none => return none
  | some j =>
      if !s.used.getD j false then return some (j, s)
      let a ← arena
      let p := declared.getD j arg
      if paramFlag a p .paramRest then return some (s.rest, { s with rest := s.rest + 1 })
      error .invalidFieldName arg
        ("function parameter name '" ++ a.name p
          ++ "' already used & not a 'rest' (...).")
      return none

/-- The place of an argument without a name: the next free parameter, or the next one of the
rest. -/
def placeNext (a : Arena) (last : NodeId) (s : Assignment) : Option (Nat × Assignment) :=
  let free := s.free + ((s.used.drop s.free).takeWhile id).length
  if free < s.used.length then some (free, { s with free })
  else if paramFlag a last .paramRest then some (s.rest, { s with free, rest := s.rest + 1 })
  else none

/-- Assigns the arguments from number `i` on, and records in the tables how well they fit.  The
answer is `none` when one of them does not. -/
def assign (call : Call) (candidate : NodeId) (declared : List NodeId) (last : NodeId)
    (size : Nat) : Nat → List NodeId → Assignment → Search (Option Assignment)
  | _, [], s => return some s
  | i, arg :: args, s => do
      let placed ← if (← arena).kind arg = .name_ then placeNamed arg declared s
        else pure (placeNext (← arena) last s)
      match placed with
      | none => return none
      | some (j, s) =>
          let depth ← matchType call arg (declared.getD j last)
          if depth = matchNotFound then return none
          if j < size then
            change fun a => a.setParamDepth candidate j depth
            change fun a => a.setParamIndex candidate i j
          assign call candidate declared last size (i + 1) args
            { s with used := s.used.set j true }

/-- Gives the parameters without an argument the places after the arguments.  The answer is `false`
when one of them needs an argument. -/
def assignMissing (candidate : NodeId) (size : Nat) : Nat → List (NodeId × Nat) → Search Bool
  | _, [] => return true
  | i, (p, j) :: ps => do
      if i < size then
        change fun a => a.setParamIndex candidate i j
      let a ← arena
      if paramFlag a p .paramUnchecked || paramFlag a p .paramRest
          || (a.children p).any (fun c => a.kind c = .set) then
        assignMissing candidate size (i + 1) ps
      else return false

/-- Matches arguments with the parameters of a function, of which there is at least one. -/
def matchParameters (call : Call) (params candidate : NodeId) (declared args : List NodeId)
    (last : NodeId) : Search Bool := do
  let size := max declared.length args.length
  change fun a => a.setParamSize candidate size
  let start : Assignment :=
    { used := declared.map fun _ => false, rest := declared.length }
  match ← assign call candidate declared last size 0 args start with
  | none => return false
  | some s =>
      let missing := declared.zipIdx.filter fun p => !s.used.getD p.2 false
      if ← assignMissing candidate size args.length missing then
        change fun a => a.appendChild params candidate
        return true
      else return false

/-- The function takes the arguments of a call.  If it does, a match is left among them.  Arguments
go to parameters by place or by name; further arguments need a rest parameter at the end, and a
parameter without an argument needs a default. -/
def checkFunctionWithParams (call : Call) (f : NodeId) (params : Option NodeId) :
    Search Bool := do
  match params with
  | none => return true
  | some params =>
      let candidate ← createReplacement f .paramMatch
      write fun a => a.setLink candidate .inst (some f)
      if !(← defineFunctionType call f) then return false
      let a ← arena
      let args := (a.children params).filter fun c => a.kind c ≠ .paramMatch
      match a.children f with
      | [] =>
          if ← ask fun a => a.flag f .functionNoparams then acceptEmpty params candidate args
          else acceptUnprototyped params candidate
      | parameters :: _ => withLock f do
          if a.kind parameters ≠ .parameters then acceptUnprototyped params candidate
          else withLock parameters do
            let declared := a.children parameters
            match declared.head?, declared.getLast? with
            | some first, some last =>
                if paramFlag a first .paramUnprototyped then acceptUnprototyped params candidate
                else matchParameters call params candidate declared args last
            | _, _ => acceptEmpty params candidate args

/-! ## Selection -/

/-- Decides between two matches that are equally good: the method of a derived class comes before
the one it overrides.  Otherwise the choice is ambiguous, which is reported. -/
def betterByClass (call : Call) (best candidate : NodeId) : Search (Option NodeId) := do
  let a ← arena
  let bestFunc := a.inst best
  let candidateFunc := a.inst candidate
  if bestFunc = candidateFunc then return some best
  let classes := do
    let b ← a.classOfMember (← bestFunc)
    let c ← a.classOfMember (← candidateFunc)
    if b = c then none else some (b, c)
  if let some (b, c) := classes then
    if ← call (.isDerivedFrom c b) then return some candidate
    if ← call (.isDerivedFrom b c) then return some best
  let at_ := bestFunc.getD best
  error .duplicates at_
    ("found two functions named '" ++ (← nameOf at_) ++ "' and both have the same prototype. "
      ++ "Cannot determine which one to use.")
  return none

/-- The better of two matches: the one with a smaller depth somewhere and a greater one nowhere.  A
match without tables loses against one with them. -/
def betterMatch (call : Call) (best candidate : NodeId) : Search (Option NodeId) := do
  let a ← arena
  let ds := (a.node best).paramDepth
  let es := (a.node candidate).paramDepth
  if ds.isEmpty && es.isEmpty then betterByClass call best candidate
  else if ds.isEmpty then return some candidate
  else if es.isEmpty then return some best
  else
    let better := (ds.zip es).any fun (d, e) => d < e
    let worse := (ds.zip es).any fun (d, e) => e < d
    if better = worse then betterByClass call best candidate
    else return some (if worse then candidate else best)

/-- Takes a match off the arguments and discards it. -/
def dropMatch (params : NodeId) (index : Nat) (m : NodeId) : Search Unit := do
  let _ ← edit (Edit.checked fun a => a.deleteChild params index)
  change fun a => a.discard m

/-- Goes through the arguments from `index` on with the best match so far, for at most `fuel`
steps.  The second part of the answer says whether a choice was ambiguous. -/
def selectFrom (call : Call) (params : NodeId) :
    Nat → Nat → Option NodeId → Bool → Search (Option NodeId × Bool)
  | 0, _, best, ambiguous => return (best, ambiguous)
  | fuel + 1, index, best, ambiguous => do
      let a ← arena
      match (a.children params)[index]? with
      | none => return (best, ambiguous)
      | some candidate =>
          if a.kind candidate ≠ .paramMatch then
            selectFrom call params fuel (index + 1) best ambiguous
          else match best with
            | none => selectFrom call params fuel (index + 1) (some candidate) ambiguous
            | some current =>
                match ← betterMatch call current candidate with
                | none => selectFrom call params fuel (index + 1) best true
                | some winner =>
                    if winner = candidate then
                      let previous ← ask fun a => a.offset current
                      dropMatch params previous current
                      selectFrom call params fuel index (some candidate) ambiguous
                    else
                      dropMatch params index candidate
                      selectFrom call params fuel index best ambiguous

/-- Keeps the best match among the arguments, discards the others, and answers with its function.
There is none when two matches are equally good. -/
def selectBestFunction (call : Call) (params : Option NodeId) : Search (Option NodeId) := do
  match params with
  | none => internal .noArguments
  | some params =>
      let (best, ambiguous) ←
        selectFrom call params (((← arena).children params).length + 1) 0 none false
      match best with
      | none => internal .noCandidate
      | some m => if ambiguous then return none else return (← arena).inst m

end SymbolTree.Search
