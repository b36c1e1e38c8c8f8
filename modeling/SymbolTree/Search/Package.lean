import SymbolTree.Search.Member

/-!
# Modules, packages and imports

A module is loaded once and remembered by its file.  The package database tells which module
declares an element of a package, so that an import loads only that one.
-/

set_option autoImplicit false
namespace SymbolTree

namespace Arena

/-- The first package of a name in a list, lists of directives inside it included, down to `fuel`
levels. -/
def findPackageFrom (a : Arena) (name : String) : Nat → NodeId → Option NodeId
  | 0, _ => none
  | fuel + 1, list => (a.children list).findSome? fun c =>
      match a.kind c with
      | .directiveList => a.findPackageFrom name fuel c
      | .package => if a.textIs c name then some c else none
      | _ => none

/-- The first package of a name in a list, lists of directives inside it included. -/
def findPackage (a : Arena) (list : NodeId) (name : String) : Option NodeId :=
  a.findPackageFrom name (a.size + 1) list

/-- A declaration to be recorded in the database. -/
structure Entry where
  /-- The package that declares it. -/
  package : String
  /-- The declaration. -/
  node : NodeId
  /-- What it declares. -/
  type : String
  deriving DecidableEq, Repr

/-- What a function is recorded as. -/
def functionType (a : Arena) (f : NodeId) : String :=
  let flags := (a.node f).flags
  if flags.contains .functionGetter then "getter"
  else if flags.contains .functionSetter then "setter"
  else "function"

/-- The declarations of a package in a list, down to `fuel` levels.  A package inside another has
the names of both, with a dot between them. -/
def packageEntries (a : Arena) : Nat → String → NodeId → List Entry
  | 0, _, _ => []
  | fuel + 1, package, list => (a.children list).flatMap fun c =>
      match a.kind c with
      | .directiveList => a.packageEntries fuel package c
      | .class_ => [⟨package, c, "class"⟩]
      | .function => [⟨package, c, a.functionType c⟩]
      | .var => (a.children c).map fun v => ⟨package, v, "variable"⟩
      | .package => match (a.children c).head? with
          | some body => a.packageEntries fuel (package ++ "." ++ (a.node c).text) body
          | none => []
      | _ => []

/-- The declarations of the packages in a list, lists of directives inside it included, down to
`fuel` levels. -/
def entriesFrom (a : Arena) : Nat → NodeId → List Entry
  | 0, _ => []
  | fuel + 1, list => (a.children list).flatMap fun c =>
      match a.kind c with
      | .directiveList => a.entriesFrom fuel c
      | .package => match (a.children c).head? with
          | some body => a.packageEntries (a.size + 1) (a.node c).text body
          | none => []
      | _ => []

/-- The declarations of the packages of a program. -/
def entries (a : Arena) (program : NodeId) : List Entry :=
  if a.kind program = .program then a.entriesFrom (a.size + 1) program else []

end Arena

namespace Kind

/-- Kinds that are not searched for labels: declarations, and expressions that do something. -/
def hidesLabels (k : Kind) : Bool :=
  [Kind.function, .class_, .interface, .var, .package, .program, .assignment, .assignmentAdd,
   .assignmentBitwiseAnd, .assignmentBitwiseOr, .assignmentBitwiseXor, .assignmentDivide,
   .assignmentLogicalAnd, .assignmentLogicalOr, .assignmentLogicalXor, .assignmentMaximum,
   .assignmentMinimum, .assignmentModulo, .assignmentMultiply, .assignmentPower,
   .assignmentRotateLeft, .assignmentRotateRight, .assignmentShiftLeft, .assignmentShiftRight,
   .assignmentShiftRightUnsigned, .assignmentSubtract, .call, .decrement, .delete, .increment,
   .member, .new, .postDecrement, .postIncrement].contains k

end Kind

namespace Search

/-! ## Modules -/

/-- Reports a fatal error about a file. -/
def fatalAt (code : Code) (filename text : String) : Search Unit :=
  modify fun c =>
    { c with diagnostics := c.diagnostics.fatal code (Position.ofFile filename) text }

/-- The configuration, read from a resource file on first use.  Where sources are given, a
resource file may be missing. -/
def options : Search Config := do
  let c ← get
  match c.options with
  | some o => return o
  | none =>
      match Config.load c.files c.surroundings c.sources.isSome with
      | .ok o =>
          modify fun c => { c with options := some o }
          return o
      | .error e => fail (.config e)

/-- The source of a module: one that was given, or else the text of the file. -/
def readSource (filename : String) : Search String := do
  let c ← get
  match c.sources.bind fun d => Dictionary.find? d filename with
  | some source => return source
  | none =>
      match c.files.read filename with
      | .ok source => return source
      | .error cause =>
          fatalAt .notFound filename ("cannot open module file \"" ++ filename ++ "\".")
          fail (.moduleLoadFailed filename cause)

/-- Builds the tree of a module.  What was built stays even when a part of it is refused. -/
def buildModule (filename : String) (o : Outline) : Search (Except BuildError NodeId) := do
  let (r, d) := StateT.run (ExceptT.run (o.build (Position.ofFile filename)))
    { arena := ← arena }
  write fun _ => d.arena
  return r

/-- Builds what is left over of a module that is not used. -/
def leaveOver (filename : String) (built : Option Outline) : Search Unit :=
  built.forM fun o => do
    let _ ← buildModule filename o

/-- Reports that a module cannot be compiled, and ends the compilation. -/
def rejectModule {α : Type} (filename : String) (reason : Option String) : Search α := do
  fatalAt .cannotCompile filename ("could not compile module file \"" ++ filename ++ "\".")
  fail (.moduleParseFailed filename reason)

/-- The program of a module, which is loaded on first request. -/
def findModule (filename : String) : Search NodeId := do
  match (← get).modules.lookup filename with
  | some program => return program
  | none =>
      let source ← readSource filename
      match (← get).parser source with
      | .failed reason built =>
          leaveOver filename built
          rejectModule filename (some reason)
      | .rejected built =>
          leaveOver filename built
          rejectModule filename none
      | .accepted o =>
          match ← buildModule filename o with
          | .error e => rejectModule filename (some e.message)
          | .ok program =>
              modify fun c => { c with modules := (filename, program) :: c.modules }
              return program

/-- The program of a script. -/
def loadModule (module_ file : String) : Search NodeId := do
  findModule ((← options).scripts ++ "/" ++ module_ ++ "/" ++ file)

/-! ## Indexing -/

/-- Records a declaration in the database, unless it is private, internal or excluded from the
compilation. -/
def addEntry (call : Call) (e : Arena.Entry) : Search Unit := do
  if ← hasAttribute call e.node .private_ then return
  if ← hasAttribute call e.node .false_ then return
  if ← hasAttribute call e.node .internal then return
  let c ← get
  let p := c.arena.position e.node
  let set (_ : Element) : Element :=
    { type := e.type, filename := p.filename, line := p.line.toInt64 }
  match c.database.changeElement e.package (c.arena.name e.node) set with
  | .ok (_, db) => modify fun c => { c with database := db }
  | .error e => fail (.database e)

/-- Records what the packages of a program declare. -/
def indexPackages (call : Call) (program : NodeId) : Search Unit := do
  ((← arena).entries program).forM (addEntry call)

/-- The name of a script that is searched for packages. -/
def isPackageScript (name : String) : Bool :=
  name.endsWith ".js" && name ≠ ".js" && name ≠ "as2js_init.js"

/-- Loads every script of a directory, in the order of the names, and records what its packages
declare. -/
def loadInternalPackages (call : Call) (module_ : String) : Search Unit := do
  let path := (← options).scripts ++ "/" ++ module_
  match (← get).files.list path with
  | .error cause =>
      fatalAt .installation path ("cannot read directory \"" ++ path ++ "\".")
      fail (.unreadableDirectory path cause)
  | .ok names =>
      (names.filter isPackageScript).forM fun name => do
        indexPackages call (← loadModule module_ name)

/-- Writes the database. -/
def saveDatabase : Search Unit := do
  let c ← get
  match c.database.save c.files with
  | .ok fs => modify fun c => { c with files := fs }
  | .error e => fail (.database e)

/-- Loads the native declarations and the database.  The first time, the native scripts are
recorded in it.  A database that is not valid is reported and left alone. -/
def internalImports (call : Call) : Search Unit := do
  if (← get).nativeImport.isNone then
    let native ← loadModule "native" "as_init.js"
    modify fun c => { c with nativeImport := some native }
  let path := (← options).db
  let c ← get
  let (valid, db, d) := c.database.load c.files path c.diagnostics
  modify fun c => { c with database := db, diagnostics := d }
  if valid then
    if !(← get).packagesIndexed then
      loadInternalPackages call "native"
      saveDatabase
    modify fun c => { c with packagesIndexed := true }
  else
    fatalAt .unexpectedDatabase path
      ("Failed reading the compiler database. You may need to delete it and try again or fix the "
        ++ "resource file to point to the right file.")

/-! ## Labels -/

/-- Registers the labels at and below a node with a function, a package or a program, down to
`fuel` levels. -/
def findLabelsFrom (owner : NodeId) : Nat → NodeId → Search Unit
  | 0, _ => throw .exhausted
  | fuel + 1, n => do
      let a ← arena
      if a.kind n = .label then
        let name := a.name n
        if (a.findLabel owner name).isSome then
          error .duplicates owner
            ("label '" ++ name ++ "' defined twice in the same program, package or function.")
        else change fun a => a.addLabel owner n
      else if (a.kind n).hidesLabels then return
      else withLock n ((a.children n).forM (findLabelsFrom owner fuel))

/-- Registers the labels at and below a node with a function, a package or a program. -/
def findLabels (owner n : NodeId) : Search Unit := do
  findLabelsFrom owner ((← arena).size + 1) n

/-! ## Imports -/

/-- Marks a package as used.  The first time, it is put on the list of packages to compile. -/
def markReferenced (p : NodeId) : Search Unit := do
  if ← ask fun a => a.flag p .packageReferenced then return
  change fun a => a.setFlag p .packageReferenced true
  modify fun c => { c with compiledPackages := c.compiledPackages ++ [p] }

/-- Loads the module that the database names for an element of the imported package. -/
def findExternalPackage (import_ : NodeId) (name : String) : Search (Option NodeId) := do
  let package ← nameOf import_
  match (← get).database.findElement package name none with
  | none => return none
  | some e => some <$> findModule e.2.filename

/-- The package that an import names, in the program being compiled or else in the module that the
database names. -/
def importedPackage (import_ : NodeId) : Search (Option NodeId) := do
  let name ← nameOf import_
  let c ← get
  match c.program.bind fun p => c.arena.findPackage p name with
  | some p => return some p
  | none =>
      match ← findExternalPackage import_ "*" with
      | some program => return (← arena).findPackage program name
      | none => return none

/-- An import that implements: the package has to exist and is used from now on. -/
def importPackage (import_ : NodeId) : Search Unit := do
  if ← ask fun a => a.flag import_ .importImplements then
    match ← importedPackage import_ with
    | some p => markReferenced p
    | none =>
        error .notFound import_ ("cannot find package '" ++ (← nameOf import_) ++ "'.")

/-- The member of a package that an import may see.  A private one it never sees, and an internal
one only from another package. -/
def importMember (call : Call) (import_ package : NodeId) (name : String)
    (params : Option NodeId) (mode : SearchMode) : Search (Option NodeId) := do
  let id ← createReplacement import_ .identifier
  change fun a => a.setText id name
  let found ← findField call package id 0 params mode
  match ← selectMember call found params with
  | none => return none
  | some member =>
      if ← hasAttribute call member .private_ then return none
      if ← hasAttribute call member .internal then
        if ((← arena).findAncestor import_ [.package]).isNone then return none
      markReferenced package
      return some member

/-- Makes sure that the labels of a package are registered. -/
def registerLabels (package body : NodeId) : Search Unit := do
  unless ← ask fun a => a.flag package .packageFoundLabels do
    change fun a => a.setFlag package .packageFoundLabels true
    findLabels package body

/-- The member of the imported package that a program declares under a name. -/
def findPackageItem (call : Call) (program import_ : NodeId) (name : String)
    (params : Option NodeId) (mode : SearchMode) : Search (Option NodeId) := do
  let packageName ← nameOf import_
  let a ← arena
  match a.findPackage program packageName with
  | none =>
      if mode.packageMustExist then
        error .internalError import_
          ("cannot find package '" ++ packageName
            ++ "' in any of the previously registered packages.")
        fail (.packageMustExist packageName)
      return none
  | some package =>
      match (a.children package).head? with
      | none => return none
      | some body =>
          registerLabels package body
          importMember call import_ package name params mode

/-- The member of the imported package under a name: in the program being compiled, and else in the
module that the database names. -/
def checkImport (call : Call) (import_ : NodeId) (name : String) (params : Option NodeId)
    (mode : SearchMode) : Search (Option NodeId) := do
  if !(← ask fun a => a.flag import_ .importImplements) then return none
  let own ← match (← get).program with
    | some program => findPackageItem call program import_ name params mode
    | none => pure none
  match own with
  | some found => return some found
  | none =>
      match ← findExternalPackage import_ name with
      | none => return none
      | some program =>
          findPackageItem call program import_ name params { mode with packageMustExist := true }

end Search

end SymbolTree
