import SymbolTree.Database.Pattern
import SymbolTree.Files
import SymbolTree.Json.Printer
import SymbolTree.Json.Reader
import SymbolTree.Message

/-!
# The package database

The database remembers which package declares which element, and in which file, so that an import
can load the one module it needs.  It is kept in a file: a JSON object of packages, each an object
of elements.

`Database.load` reads that file and reports what is wrong with it; `Database.save` writes it back.
Both are about the document: `Database.ofDocument` and `Database.document` do not touch files.
-/

set_option autoImplicit false
namespace SymbolTree

/-- Why the database cannot be used. -/
inductive DatabaseError where
  /-- A package was to be added before the database was loaded. -/
  | notLoaded
  /-- The file cannot be written. -/
  | unwritable (path : String) (cause : FileError)
  deriving DecidableEq, Repr

/-- The wording of a failure. -/
def DatabaseError.message : DatabaseError → String
  | .notLoaded => "attempting to add a package to the database before the database was loaded"
  | .unwritable path cause => "cannot access database file \"" ++ path ++ "\": " ++ cause.message

/-- A declaration of a package: what it is and where it stands. -/
structure Element where
  /-- What is declared: a class, a function, a getter, a setter or a variable. -/
  type : String := ""
  /-- The file that declares it. -/
  filename : String := ""
  /-- The line of the declaration. -/
  line : Int64 := 1
  deriving DecidableEq, Repr, Inhabited

/-- The elements of a package, by name. -/
abbrev Package := Dictionary Element

/-- The packages, and the file they were loaded from together with whether it was sound. -/
structure Database where
  /-- The file, once the database was loaded, and whether it had a valid content. -/
  loaded : Option (String × Bool) := none
  /-- The packages, by name. -/
  packages : Dictionary Package := []
  deriving Repr

/-! ## Reading a document -/

namespace Element

/-- A field of the wrong type, as it is reported. -/
def fieldFault (field : String) : Option String :=
  if field = "type" then some "The type of an element in the database has to be a string."
  else if field = "filename" then
    some "The filename of an element in the database has to be a string."
  else if field = "line" then some "The line of an element in the database has to be an integer."
  else none

/-- Takes over one field of the document; `none` when its value has the wrong type. -/
def setField (e : Element) (field : String) (value : Json) : Option Element :=
  if field = "type" then value.text?.map fun s => { e with type := s }
  else if field = "filename" then value.text?.map fun s => { e with filename := s }
  else if field = "line" then value.integer?.map fun l => { e with line := l }
  else some e

/-- The element that a document describes.  A field of the wrong type keeps its default and is
reported. -/
def ofMembers (ms : List (String × Json)) : Element × List String :=
  ms.foldl (fun (e, faults) (field, value) =>
    match e.setField field value with
    | some e => (e, faults)
    | none => (e, faults ++ (fieldFault field).toList)) ({}, [])

/-- The document of an element. -/
def document (e : Element) : Json :=
  .object [("type", .string e.type), ("filename", .string e.filename), ("line", .integer e.line)]

end Element

namespace Package

/-- What is said of a package with a member that is no object. -/
def elementFault : String :=
  "A database is expected to be an object of object packages composed of object elements."

/-- The package that a document describes.  A member that is no object is left out and reported. -/
def ofMembers (ms : List (String × Json)) : Package × List String :=
  ms.foldl (fun (p, faults) (name, value) =>
    match value.members? with
    | some fields =>
        let (e, more) := Element.ofMembers fields
        (Dictionary.insert p name e, faults ++ more)
    | none => (p, faults ++ [elementFault])) ([], [])

/-- The elements whose name fits a pattern, in order. -/
def findElements (p : Package) (pattern : String) : List (String × Element) :=
  p.filter fun e => nameFits e.1 pattern

end Package

namespace Database

/-- What is said of a database with a member that is no object. -/
def packageFault : String :=
  "A database is expected to be an object of object packages composed of elements."

/-- What is said of a document that is neither an object nor `null`. -/
def rootFault : String := "A database must be defined as a JSON object, or set to 'null'."

/-- The packages that the members of a document describe, what is to be reported, and whether all
members are objects.  The first that is not ends the reading. -/
def packagesOfMembers :
    List (String × Json) → Dictionary Package → Dictionary Package × List String × Bool
  | [], packages => (packages, [], true)
  | (name, value) :: ms, packages =>
      match value.members? with
      | none => (packages, [packageFault], false)
      | some elements =>
          let (p, faults) := Package.ofMembers elements
          let (packages, more, valid) := packagesOfMembers ms (Dictionary.insert packages name p)
          (packages, faults ++ more, valid)

/-- The packages that a document describes, what is to be reported, and whether it is valid. -/
def ofDocument : Json → Dictionary Package × List String × Bool
  | .null => ([], [], true)
  | .object ms => packagesOfMembers ms []
  | _ => ([], [rootFault], false)

/-- The document of the packages. -/
def document (packages : Dictionary Package) : Json :=
  .object (packages.map fun (name, p) =>
    (name, .object (p.map fun (name, e) => (name, e.document))))

/-! ## The file -/

/-- The comment at the head of a database file. -/
def header : String :=
  "// Database used by the AS2JS Compiler (as2js)\n//\n"
    ++ "// DO NOT EDIT UNLESS YOU KNOW WHAT YOU ARE DOING\n"
    ++ "// If you have a problem because of the database, just delete the file\n"
    ++ "// and the compiler will re-generate it.\n//\n"
    ++ "// Copyright (c) 2005-2017 by Made to Order Software Corp.\n"
    ++ "// This file is written in UTF-8\n"
    ++ "// You can safely modify it with an editor supporting UTF-8\n"
    ++ "// The format is JSON:\n//\n"
    ++ "// \x7b\n"
    ++ "//   \"package_name\": \x7b\n"
    ++ "//     \"element_name\": \x7b\n"
    ++ "//       \"filename\": \"<full path filename>\",\n"
    ++ "//       \"line\": <line number>,\n"
    ++ "//       \"type\": \"<type name>\"\n"
    ++ "//     \x7d,\n"
    ++ "//     <...other elements...>\n"
    ++ "//   \x7d,\n"
    ++ "//   <...other packages...>\n"
    ++ "// \x7d\n//"

/-- The text of a database file. -/
def fileText (packages : Dictionary Package) : String :=
  header ++ "\n" ++ (document packages).render ++ "\n"

/-- Reports each fault of a document. -/
def report (position : Position) (faults : List String) (d : Diagnostics) : Diagnostics :=
  faults.foldl (fun d text => d.error .unexpectedDatabase position text) d

/-- The packages in the text of a file, the diagnostics after its faults were reported, and whether
it is valid. -/
def ofText (position : Position) (text : String) (d : Diagnostics) :
    Dictionary Package × Diagnostics × Bool :=
  match Json.parseWithComments text with
  | .error line =>
      ([], d.error .unexpectedDatabase position
        ("the database is not valid JSON: line " ++ toString line), false)
  | .ok v =>
      let (packages, faults, valid) := ofDocument v
      (packages, report position faults d, valid)

/-- Loads the database from a file.  A file that does not exist is an empty database.  The answer
tells whether the content was valid; what could be read of it is kept in any case.  Once loaded, the
database is not read again and the first answer is repeated. -/
def load (db : Database) (fs : Files) (path : String) (d : Diagnostics) :
    Bool × Database × Diagnostics :=
  match db.loaded with
  | some (_, valid) => (valid, db, d)
  | none =>
      let position := Position.ofFile path
      let (packages, d, valid) := match fs.read path with
        | .ok text => ofText position text d
        | .error .notFound => ([], d, true)
        | .error cause =>
            ([], d.error .ioError position
              ("cannot read database file: " ++ cause.message), false)
      (valid, { loaded := some (path, valid), packages }, d)

/-- Writes the database to the file it was loaded from, if it was loaded. -/
def save (db : Database) (fs : Files) : Except DatabaseError Files :=
  match db.loaded with
  | none => .ok fs
  | some (path, _) =>
      match fs.write path (fileText db.packages) with
      | .ok fs => .ok fs
      | .error cause => .error (.unwritable path cause)

/-! ## Looking up and adding -/

/-- The database was loaded. -/
def isLoaded (db : Database) : Bool := db.loaded.isSome

/-- The packages whose name fits a pattern, in order. -/
def findPackages (db : Database) (pattern : String) : List (String × Package) :=
  db.packages.filter fun p => nameFits p.1 pattern

/-- The package of a name. -/
def getPackage (db : Database) (name : String) : Option Package :=
  Dictionary.find? db.packages name

/-- Makes sure that there is a package of a name; the database must have been loaded. -/
def addPackage (db : Database) (name : String) : Except DatabaseError (Package × Database) :=
  if db.isLoaded then
    match db.getPackage name with
    | some p => .ok (p, db)
    | none => .ok ([], { db with packages := Dictionary.insert db.packages name [] })
  else .error .notLoaded

/-- Changes an element of a package, both of which are made first if they do not exist. -/
def changeElement (db : Database) (package name : String) (f : Element → Element) :
    Except DatabaseError (Element × Database) := do
  let (p, db) ← db.addPackage package
  let e := f ((Dictionary.find? p name).getD {})
  return (e, { db with
    packages := Dictionary.insert db.packages package (Dictionary.insert p name e) })

/-- The first element, by package and then by name, that fits the patterns and has the given type
if one is given. -/
def findElement (db : Database) (package element : String) (type : Option String) :
    Option (String × Element) :=
  ((db.findPackages package).flatMap fun p => Package.findElements p.2 element).find? fun e =>
    type.all (· = e.2.type)

end Database

end SymbolTree
