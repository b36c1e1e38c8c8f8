import SymbolTree.Config
import SymbolTree.Database

/-!
# Failures of a search

A search that finds nothing answers so; what ends the whole compilation is a `CompileError`.  The
causes that lie in the tree itself are told apart in `TreeFault`.  `CompileError.message` is the
only place where they are put into words.
-/

set_option autoImplicit false
namespace SymbolTree

/-- How a tree, or a call that searches it, is not as it has to be. -/
inductive TreeFault where
  /-- The class that a node constructs was asked for, and the node is no function. -/
  | notAFunction
  /-- A function was to be selected without arguments. -/
  | noArguments
  /-- A function was to be selected among none. -/
  | noCandidate
  /-- A name that was linked to one member was found to be another. -/
  | relinked
  /-- A declaration was asked for past the end of a list. -/
  | indexTooLarge
  /-- The way to a scope came from past its end. -/
  | offsetOutOfRange
  /-- The way to a scope led out of the program. -/
  | rootReached
  /-- The first child of an import opens no scope. -/
  | unhandledScope (kind : Kind)
  /-- The object of a `with` was searched after functions were found. -/
  | functionsUnderWith
  /-- A member expression needs an object and a field. -/
  | malformedMember
  /-- What was to be resolved is no name. -/
  | notAName
  deriving DecidableEq, Repr

/-- The wording of a fault. -/
def TreeFault.message : TreeFault → String
  | .notAFunction =>
      "Compiler::is_constructor() was called with a node which is not a NODE_FUNCTION."
  | .noArguments => "select_best_func() was called without a list of parameters."
  | .noCandidate =>
      "did not find at least one best function, even though we cannot have an empty list of "
        ++ "choices when called."
  | .relinked => "found an instance twice, but it was different each time."
  | .indexTooLarge => "Compiler::check_name() index too large."
  | .offsetOutOfRange => "somehow an offset is out of range."
  | .rootReached =>
      "Compiler::resolve_name() found the NODE_ROOT while searching for a parent."
  | .unhandledScope k => "unhandled type " ++ k.name ++ " in Compiler::resolve_name()."
  | .functionsUnderWith => "at this time we do not support functions here (under a with)."
  | .malformedMember =>
      "resolve_name() called with a MEMBER which does not have exactly two children."
  | .notAName =>
      "resolve_name() was called with an 'identifier node' which is not a NODE_[V]IDENTIFIER or "
        ++ "NODE_STRING."

/-- What ends a compilation. -/
inductive CompileError where
  /-- The source of a module cannot be read. -/
  | moduleLoadFailed (filename : String) (cause : FileError)
  /-- The source of a module was rejected, or the parser failed for a reason. -/
  | moduleParseFailed (filename : String) (reason : Option String)
  /-- The database names a module for a package that the module does not declare. -/
  | packageMustExist (package : String)
  /-- A directory of scripts cannot be read. -/
  | unreadableDirectory (path : String) (cause : FileError)
  /-- A type that every program needs cannot be found. -/
  | missingType (name : String)
  /-- The tree is not as it has to be. -/
  | internal (fault : TreeFault)
  /-- The tree refused a request. -/
  | node (e : NodeError)
  /-- The database failed. -/
  | database (e : DatabaseError)
  /-- The configuration failed. -/
  | config (e : ConfigError)
  deriving DecidableEq, Repr

namespace CompileError

/-- The wording of a failure. -/
def message : CompileError → String
  | .moduleLoadFailed filename cause =>
      "cannot open module file \"" ++ filename ++ "\": " ++ cause.message
  | .moduleParseFailed filename reason =>
      "could not compile module file \"" ++ filename ++ "\""
        ++ (match reason with
          | some r => ": " ++ r
          | none => "")
  | .packageMustExist package =>
      "cannot find package '" ++ package ++ "' in any of the previously registered packages"
  | .unreadableDirectory path cause =>
      "installation problem: cannot read directory \"" ++ path ++ "\": " ++ cause.message
  | .missingType name => "cannot find internal type \"" ++ name ++ "\""
  | .internal fault => "internal error: " ++ fault.message
  | .node e => e.message
  | .database e => e.message
  | .config e => e.message

/-- The exit code of a program that ends with this failure: 2 when the tree is at fault, and 1 when
something around it is. -/
def exitCode : CompileError → Nat
  | .internal _ | .node _ => 2
  | _ => 1

end CompileError

/-- Why a search stopped early. -/
inductive Stop where
  /-- The compilation failed. -/
  | failed (e : CompileError)
  /-- The searches were nested deeper than allowed. -/
  | exhausted
  deriving DecidableEq, Repr

end SymbolTree
