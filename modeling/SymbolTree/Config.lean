import SymbolTree.Files
import SymbolTree.Json.Reader

/-!
# The resource file

A resource file tells where the scripts and the package database are.  It is a JSON object of
strings, or `null` to keep every default, and may hold comments.  `Config.find` takes the first one
in a list of directories.
-/

set_option autoImplicit false
namespace SymbolTree

/-- Why there is no configuration. -/
inductive ConfigError where
  /-- No directory has a resource file. -/
  | notFound
  /-- The document has the wrong shape. -/
  | notAnObject (path : String)
  /-- A member of the object is not a string. -/
  | notAString (path : String)
  /-- The file cannot be read. -/
  | unreadable (path : String) (cause : FileError)
  /-- The file is not JSON from a certain line on. -/
  | invalid (path : String) (line : Nat)
  deriving DecidableEq, Repr

/-- The wording of a failure. -/
def ConfigError.message : ConfigError → String
  | .notFound =>
      "cannot find the as2js.rc file; the system default is usually put in /etc/as2js/as2js.rc"
  | .notAnObject path =>
      path ++ ": A resource file (.rc) must be defined as a JSON object, or set to 'null'."
  | .notAString path =>
      path ++ ": A resource file is expected to be an object of string elements."
  | .unreadable path cause =>
      "cannot read resource file \"" ++ path ++ "\": " ++ cause.message
  | .invalid path line =>
      "invalid JSON in resource file \"" ++ path ++ "\": line " ++ toString line

/-- Where the scripts and the package database are, and the name of temporary variables. -/
structure Config where
  /-- The directory of the native, global and system scripts. -/
  scripts : String := "as2js/scripts"
  /-- The file of the package database. -/
  db : String := "/tmp/as2js_packages.db"
  /-- The name given to temporary variables. -/
  temporaryVariableName : String := "@temp"
  deriving DecidableEq, Repr

/-- The variables of the surroundings that tell where resource files may be. -/
structure Surroundings where
  /-- A directory searched first. -/
  resourceDirectory : Option String := none
  /-- The directory of the user. -/
  home : Option String := none
  deriving DecidableEq, Repr

namespace Config

/-- The name of every resource file. -/
def filename : String := "as2js.rc"

/-- The directories searched for a resource file, in order.  A variable that is not set, or set to
nothing, is left out. -/
def directories (s : Surroundings) : List String :=
  (s.resourceDirectory.filter (!·.isEmpty)).toList ++ ["as2js"]
    ++ ((s.home.filter (!·.isEmpty)).map (FilePath.join · ".config/as2js")).toList
    ++ ["/etc/as2js"]

/-- The configuration that the members of a resource file give; other members are ignored. -/
def ofMembers (ms : List (String × Json)) : Config :=
  let member (name default : String) : String :=
    ((Dictionary.find? ms name).bind Json.text?).getD default
  let standard : Config := {}
  { scripts := member "scripts" standard.scripts
    db := member "db" standard.db
    temporaryVariableName := member "temporary_variable_name" standard.temporaryVariableName }

/-- Reads the text of the resource file at `path`. -/
def parse (path content : String) : Except ConfigError Config :=
  match Json.parseWithComments content with
  | .error line => .error (.invalid path line)
  | .ok .null => .ok {}
  | .ok (.object ms) =>
      if ms.all (fun m => m.2.text?.isSome) then .ok (ofMembers ms) else .error (.notAString path)
  | .ok _ => .error (.notAnObject path)

/-- Reads the resource file at `path`. -/
def ofFile (fs : Files) (path : String) : Except ConfigError Config :=
  match fs.read path with
  | .ok content => parse path content
  | .error cause => .error (.unreadable path cause)

/-- Reads the first resource file in a list of directories.  Without any, the defaults are taken
if that is accepted. -/
def find (fs : Files) (accept : Bool) : List String → Except ConfigError Config
  | [] => if accept then .ok {} else .error .notFound
  | d :: ds =>
      let path := FilePath.join d filename
      match fs.read path with
      | .ok content => parse path content
      | .error .notFound => find fs accept ds
      | .error cause => .error (.unreadable path cause)

/-- Reads the first resource file in the usual directories. -/
def load (fs : Files) (s : Surroundings) (accept : Bool) : Except ConfigError Config :=
  find fs accept (directories s)

end Config

end SymbolTree
