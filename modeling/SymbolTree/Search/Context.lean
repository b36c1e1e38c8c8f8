import SymbolTree.Arena.Reference
import SymbolTree.Outline
import SymbolTree.Search.Error
import SymbolTree.Search.Rejection

/-!
# The state of a search

All searches of one session share a `Context`: the arena with every tree that was loaded, the
modules by file, the package database, the messages so far.  A search is a program in `Search`: it
keeps the context it reached when it is stopped.

Searches call each other without a fixed order: resolving a name may need the attributes of a
declaration, which may name a variable that has to be resolved first.  The calls that can lead back
to where they started are collected in `Request`; the searches are written against a function
`Call` that answers such requests, and `Search.run` ties the knot.
-/

set_option autoImplicit false
namespace SymbolTree

/-! ## Context -/

/-- What a parser makes of the source of a module. -/
inductive ParsedModule where
  /-- The parser failed for a reason.  What it built before stays. -/
  | failed (reason : String) (built : Option Outline := none)
  /-- The source was rejected.  What was built before stays. -/
  | rejected (built : Option Outline := none)
  /-- The tree of the module. -/
  | accepted (outline : Outline)

/-- What a parser builds from a source, be it the tree of a module or left over. -/
def ParsedModule.outline : ParsedModule → Option Outline
  | .failed _ built => built
  | .rejected built => built
  | .accepted outline => some outline

/-- The state that all searches of a session share. -/
structure Context where
  /-- The nodes. -/
  arena : Arena := {}
  /-- The messages. -/
  diagnostics : Diagnostics := {}
  /-- The configuration, once it is known. -/
  options : Option Config := none
  /-- The package database. -/
  database : Database := {}
  /-- The files. -/
  files : Files := {}
  /-- Where resource files may be. -/
  surroundings : Surroundings := {}
  /-- Sources that are looked up before the files, if there are any. -/
  sources : Option (Dictionary String) := none
  /-- The parser of modules: from a source to its tree. -/
  parser : String → ParsedModule
  /-- The modules that were loaded, by file. -/
  modules : List (String × NodeId) := []
  /-- The program being compiled. -/
  program : Option NodeId := none
  /-- The module of global declarations. -/
  globalImport : Option NodeId := none
  /-- The module of system declarations. -/
  systemImport : Option NodeId := none
  /-- The module of native declarations. -/
  nativeImport : Option NodeId := none
  /-- The native scripts were indexed. -/
  packagesIndexed : Bool := false
  /-- The candidates rejected by the running search. -/
  rejections : Rejections := Rejections.none
  /-- The candidates rejected by the last search that found nothing. -/
  lastRejections : Rejections := Rejections.none
  /-- Effective attributes that were worked out, the latest first. -/
  attributeCache : List (NodeId × AttributeSet) := []
  /-- The variables whose attributes are being worked out. -/
  expanding : List NodeId := []
  /-- The packages to be compiled, in the order of their first use. -/
  compiledPackages : List NodeId := []
  /-- How many calls inside each other are allowed beyond those that the trees at hand need. -/
  spareCalls : Nat := 0

/-- What a search accepts besides plain declarations. -/
structure SearchMode where
  /-- A getter counts under the name of its member. -/
  getters : Bool := false
  /-- A setter counts under the name of its member. -/
  setters : Bool := false
  /-- The package of an import has to exist. -/
  packageMustExist : Bool := false
  deriving DecidableEq, Repr

/-- The mode with a given number. -/
def SearchMode.ofNat (n : Nat) : SearchMode :=
  { getters := n.testBit 1, setters := n.testBit 2, packageMustExist := n.testBit 3 }

/-- A search.  The context is kept when the search stops early. -/
abbrev Search (α : Type) := ExceptT Stop (StateM Context) α

namespace Search

/-- Runs a search: its answer or why it stopped, and the context it leaves. -/
def exec {α : Type} (s : Search α) (c : Context) : Except Stop α × Context :=
  StateT.run (ExceptT.run s) c

/-- Ends the compilation. -/
def fail {α : Type} (e : CompileError) : Search α := throw (.failed e)

/-- Ends the compilation because the tree is not as it has to be. -/
def internal {α : Type} (fault : TreeFault) : Search α := fail (.internal fault)

/-! ## The arena -/

/-- The arena as it is now. -/
def arena : Search Arena := return (← get).arena

/-- The answer of a request that reads the arena. -/
def ask {α : Type} (f : Arena → Except NodeError α) : Search α := do
  match f (← arena) with
  | .ok x => return x
  | .error e => fail (.node e)

/-- Changes the arena. -/
def write (f : Arena → Arena) : Search Unit := modify fun c => { c with arena := f c.arena }

/-- Runs a program of requests on the arena. -/
def edit {α : Type} (p : Edit α) : Search α := do
  let (r, a) := p.exec (← arena)
  write fun _ => a
  match r with
  | .ok x => return x
  | .error e => fail (.node e)

/-- A checked request on the arena. -/
def change (f : Arena → Except NodeError Arena) : Search Unit := edit (Edit.change f)

/-- Creates a node at the position of another. -/
def createReplacement (n : NodeId) (k : Kind) : Search NodeId :=
  edit (Edit.checked fun a => .ok (a.createReplacement n k))

/-- Runs a search while a node is locked.  The lock is taken off however the search ends. -/
def withLock {α : Type} (n : NodeId) (s : Search α) : Search α :=
  ExceptT.mk fun c =>
    let (r, d) := s.exec { c with arena := c.arena.lock n }
    (r, { d with arena := Guard.drop ⟨some n⟩ d.arena })

/-- Runs a search that collects its own rejections, and puts those of the caller back however it
ends. -/
def withFreshRejections {α : Type} (s : Search α) : Search α :=
  ExceptT.mk fun c =>
    let (r, d) := s.exec { c with rejections := Rejections.none }
    (r, { d with rejections := c.rejections })

/-- Records that a candidate was rejected. -/
def reject (r : Rejection) : Search Unit :=
  modify fun c => { c with rejections := c.rejections.add r }

/-! ## Messages -/

/-- Reports a message about a node. -/
def report (level : Level) (code : Code) (n : NodeId) (text : String) : Search Unit :=
  modify fun c =>
    { c with diagnostics := c.diagnostics.emit level code (c.arena.position n) text }

/-- Reports an error about a node. -/
def error (code : Code) (n : NodeId) (text : String) : Search Unit := report .error code n text

/-- Reports a warning about a node. -/
def warning (code : Code) (n : NodeId) (text : String) : Search Unit := report .warning code n text

/-- Reports a fatal error about a node. -/
def fatal (code : Code) (n : NodeId) (text : String) : Search Unit := report .fatal code n text

end Search

/-- The name of a node, and nothing for a kind without one. -/
def Arena.name (a : Arena) (n : NodeId) : String :=
  if (a.kind n).hasText then (a.node n).text else ""

namespace Search

/-- The name of a node. -/
def nameOf (n : NodeId) : Search String := return (← arena).name n

/-- Reports why a name was not resolved, if candidates were rejected. -/
def reportRejections (n : NodeId) : Search Unit := do
  let rejected := (← get).rejections
  modify fun c => { c with lastRejections := rejected }
  unless rejected.toList.isEmpty do
    let reasons := rejected.toList.map fun r => "   " ++ r.reason
    error .cannotMatch n
      ("the name '" ++ (← nameOf n) ++ "' could not be resolved because:\n" ++ String.join reasons)

end Search

/-! ## Searches that call each other -/

/-- What a search has found so far: the number of plain functions, and the latest declaration. -/
structure Tally where
  /-- The number of plain functions. -/
  funcs : Nat := 0
  /-- The latest declaration. -/
  found : Option NodeId := none
  deriving DecidableEq, Repr

/-- The search is over with the latest declaration.  A plain function can be overloaded, so with
arguments at hand it is only counted and the search goes on; anything else ends the search unless
functions were found before.  Without arguments the first declaration is taken. -/
def Tally.settle (t : Tally) (a : Arena) (params : Option NodeId) (count : Bool) : Bool × Tally :=
  match params, t.found with
  | none, _ => (true, t)
  | some _, none => (true, t)
  | some _, some n =>
      let d := a.node n
      if d.kind ≠ .function || d.flags.contains .functionGetter
          || d.flags.contains .functionSetter then (t.funcs = 0, t)
      else (false, if count then { t with funcs := t.funcs + 1 } else t)

/-- The searches through which a search can lead back to itself. -/
inductive Request where
  /-- The declaration to which a name refers, seen from a node. -/
  | resolveName (list id : NodeId) (params : Option NodeId) (mode : SearchMode)
  /-- The attributes of a declaration, with those it inherits. -/
  | effectiveAttributes (n : NodeId)
  /-- The attributes of a declaration with those that one entry of its list adds. -/
  | addListed (n entry : NodeId) (attrs : AttributeSet)
  /-- One class is another or inherits from it. -/
  | isDerivedFrom (derived base : NodeId)
  /-- The depth of a class among those from which another inherits. -/
  | classDepth (class_ type : NodeId) (depth : Int32)
  /-- A member of a class or of those it inherits from. -/
  | findMember (link field : NodeId) (tally : Tally) (params : Option NodeId) (mode : SearchMode)
  /-- A member declared in a list of directives. -/
  | findInList (list field : NodeId) (tally : Tally) (params : Option NodeId) (mode : SearchMode)

/-- The type of the answer to a request. -/
abbrev Request.Answer : Request → Type
  | .resolveName .. => Option NodeId
  | .effectiveAttributes _ => AttributeSet
  | .addListed .. => AttributeSet
  | .isDerivedFrom .. => Bool
  | .classDepth .. => Int32
  | .findMember .. => Bool × Tally
  | .findInList .. => Bool × Tally

/-- Something that answers requests. -/
abbrev Call := (r : Request) → Search r.Answer

end SymbolTree
