import SymbolTree.Position

/-!
# Messages about the program under study

A `Message` has a level, a code, a position and a text.  `Diagnostics` drops the messages that are
too detailed or say nothing, counts errors and warnings, and hands the rest on: either to a log
that keeps them or to nobody.

## Main statement

* `Diagnostics.foldl_error_of_log` — what a row of errors leaves.
-/

set_option autoImplicit false
namespace SymbolTree

/-- How serious a message is.  `off` is no level of a message: as a limit it admits none. -/
inductive Level where
  | off | fatal | error | warning | info | debug | trace
  deriving DecidableEq, Repr

namespace Level

/-- The name of a level. -/
def name : Level → String
  | .off => "off"
  | .fatal => "fatal"
  | .error => "error"
  | .warning => "warning"
  | .info => "info"
  | .debug => "debug"
  | .trace => "trace"

/-- Every level, the gravest first. -/
def all : List Level := [.off, .fatal, .error, .warning, .info, .debug, .trace]

/-- The level with a given name, if there is one. -/
def ofName? (s : String) : Option Level := all.find? (fun l => l.name = s)

/-- The detail of a level: the higher, the less grave. -/
def detail (l : Level) : Nat := l.ctorIdx

/-- Fatal messages are counted as errors. -/
def isError (l : Level) : Bool := l = .fatal || l = .error

end Level

/-- What a message is about. -/
inductive Code where
  | none | abstract | badNumericType | badPragma | cannotCompile | cannotMatch | cannotOverload
  | cannotOverwriteConst | caseLabel | colonExpected | commaExpected | curvlyBracketsExpected
  | defaultLabel | divideByZero | duplicates | dynamic | expressionExpected | final
  | improperStatement | inaccessibleStatement | incompatible | incompatiblePragmaArgument
  | installation | instanceExpected | internalError | native | invalidArrayFunction
  | invalidAttributes | invalidCatch | invalidClass | invalidConditional | invalidDefinition
  | invalidDo | invalidEnum | invalidExpression | invalidField | invalidFieldName | invalidFrame
  | invalidFunction | invalidGoto | invalidImport | invalidInputStream | invalidKeyword
  | invalidLabel | invalidNamespace | invalidNode | invalidNumber | invalidOperator
  | invalidPackageName | invalidParameters | invalidRest | invalidReturnType | invalidScope
  | invalidTry | invalidType | invalidUnicodeEscapeSequence | invalidVariable | ioError
  | labelNotFound | loopingReference | mismatchFuncVar | misssingVariableName | needConst
  | notAllowed | notAllowedInStrictMode | notFound | notSupported | objectMemberDefinedTwice
  | parenthesisExpected | pragmaFailed | semicolonExpected | squareBracketsExpected
  | stringExpected | static | typeNotLinked | unknownEscapeSequence | unknownOperator
  | unterminatedString | unexpectedEof | unexpectedPunctuation | unexpectedToken
  | unexpectedDatabase | unexpectedRc
  deriving DecidableEq, Repr

/-- The upper-case name of a code. -/
def Code.name : Code → String
  | .none => "NONE"
  | .abstract => "ABSTRACT"
  | .badNumericType => "BAD_NUMERIC_TYPE"
  | .badPragma => "BAD_PRAGMA"
  | .cannotCompile => "CANNOT_COMPILE"
  | .cannotMatch => "CANNOT_MATCH"
  | .cannotOverload => "CANNOT_OVERLOAD"
  | .cannotOverwriteConst => "CANNOT_OVERWRITE_CONST"
  | .caseLabel => "CASE_LABEL"
  | .colonExpected => "COLON_EXPECTED"
  | .commaExpected => "COMMA_EXPECTED"
  | .curvlyBracketsExpected => "CURVLY_BRACKETS_EXPECTED"
  | .defaultLabel => "DEFAULT_LABEL"
  | .divideByZero => "DIVIDE_BY_ZERO"
  | .duplicates => "DUPLICATES"
  | .dynamic => "DYNAMIC"
  | .expressionExpected => "EXPRESSION_EXPECTED"
  | .final => "FINAL"
  | .improperStatement => "IMPROPER_STATEMENT"
  | .inaccessibleStatement => "INACCESSIBLE_STATEMENT"
  | .incompatible => "INCOMPATIBLE"
  | .incompatiblePragmaArgument => "INCOMPATIBLE_PRAGMA_ARGUMENT"
  | .installation => "INSTALLATION"
  | .instanceExpected => "INSTANCE_EXPECTED"
  | .internalError => "INTERNAL_ERROR"
  | .native => "NATIVE"
  | .invalidArrayFunction => "INVALID_ARRAY_FUNCTION"
  | .invalidAttributes => "INVALID_ATTRIBUTES"
  | .invalidCatch => "INVALID_CATCH"
  | .invalidClass => "INVALID_CLASS"
  | .invalidConditional => "INVALID_CONDITIONAL"
  | .invalidDefinition => "INVALID_DEFINITION"
  | .invalidDo => "INVALID_DO"
  | .invalidEnum => "INVALID_ENUM"
  | .invalidExpression => "INVALID_EXPRESSION"
  | .invalidField => "INVALID_FIELD"
  | .invalidFieldName => "INVALID_FIELD_NAME"
  | .invalidFrame => "INVALID_FRAME"
  | .invalidFunction => "INVALID_FUNCTION"
  | .invalidGoto => "INVALID_GOTO"
  | .invalidImport => "INVALID_IMPORT"
  | .invalidInputStream => "INVALID_INPUT_STREAM"
  | .invalidKeyword => "INVALID_KEYWORD"
  | .invalidLabel => "INVALID_LABEL"
  | .invalidNamespace => "INVALID_NAMESPACE"
  | .invalidNode => "INVALID_NODE"
  | .invalidNumber => "INVALID_NUMBER"
  | .invalidOperator => "INVALID_OPERATOR"
  | .invalidPackageName => "INVALID_PACKAGE_NAME"
  | .invalidParameters => "INVALID_PARAMETERS"
  | .invalidRest => "INVALID_REST"
  | .invalidReturnType => "INVALID_RETURN_TYPE"
  | .invalidScope => "INVALID_SCOPE"
  | .invalidTry => "INVALID_TRY"
  | .invalidType => "INVALID_TYPE"
  | .invalidUnicodeEscapeSequence => "INVALID_UNICODE_ESCAPE_SEQUENCE"
  | .invalidVariable => "INVALID_VARIABLE"
  | .ioError => "IO_ERROR"
  | .labelNotFound => "LABEL_NOT_FOUND"
  | .loopingReference => "LOOPING_REFERENCE"
  | .mismatchFuncVar => "MISMATCH_FUNC_VAR"
  | .misssingVariableName => "MISSSING_VARIABLE_NAME"
  | .needConst => "NEED_CONST"
  | .notAllowed => "NOT_ALLOWED"
  | .notAllowedInStrictMode => "NOT_ALLOWED_IN_STRICT_MODE"
  | .notFound => "NOT_FOUND"
  | .notSupported => "NOT_SUPPORTED"
  | .objectMemberDefinedTwice => "OBJECT_MEMBER_DEFINED_TWICE"
  | .parenthesisExpected => "PARENTHESIS_EXPECTED"
  | .pragmaFailed => "PRAGMA_FAILED"
  | .semicolonExpected => "SEMICOLON_EXPECTED"
  | .squareBracketsExpected => "SQUARE_BRACKETS_EXPECTED"
  | .stringExpected => "STRING_EXPECTED"
  | .static => "STATIC"
  | .typeNotLinked => "TYPE_NOT_LINKED"
  | .unknownEscapeSequence => "UNKNOWN_ESCAPE_SEQUENCE"
  | .unknownOperator => "UNKNOWN_OPERATOR"
  | .unterminatedString => "UNTERMINATED_STRING"
  | .unexpectedEof => "UNEXPECTED_EOF"
  | .unexpectedPunctuation => "UNEXPECTED_PUNCTUATION"
  | .unexpectedToken => "UNEXPECTED_TOKEN"
  | .unexpectedDatabase => "UNEXPECTED_DATABASE"
  | .unexpectedRc => "UNEXPECTED_RC"

/-- Every code; the position in this list is the number of the code. -/
def Code.all : List Code :=
  [.none, .abstract, .badNumericType, .badPragma, .cannotCompile, .cannotMatch, .cannotOverload,
   .cannotOverwriteConst, .caseLabel, .colonExpected, .commaExpected, .curvlyBracketsExpected,
   .defaultLabel, .divideByZero, .duplicates, .dynamic, .expressionExpected, .final,
   .improperStatement, .inaccessibleStatement, .incompatible, .incompatiblePragmaArgument,
   .installation, .instanceExpected, .internalError, .native, .invalidArrayFunction,
   .invalidAttributes, .invalidCatch, .invalidClass, .invalidConditional, .invalidDefinition,
   .invalidDo, .invalidEnum, .invalidExpression, .invalidField, .invalidFieldName, .invalidFrame,
   .invalidFunction, .invalidGoto, .invalidImport, .invalidInputStream, .invalidKeyword,
   .invalidLabel, .invalidNamespace, .invalidNode, .invalidNumber, .invalidOperator,
   .invalidPackageName, .invalidParameters, .invalidRest, .invalidReturnType, .invalidScope,
   .invalidTry, .invalidType, .invalidUnicodeEscapeSequence, .invalidVariable, .ioError,
   .labelNotFound, .loopingReference, .mismatchFuncVar, .misssingVariableName, .needConst,
   .notAllowed, .notAllowedInStrictMode, .notFound, .notSupported, .objectMemberDefinedTwice,
   .parenthesisExpected, .pragmaFailed, .semicolonExpected, .squareBracketsExpected,
   .stringExpected, .static, .typeNotLinked, .unknownEscapeSequence, .unknownOperator,
   .unterminatedString, .unexpectedEof, .unexpectedPunctuation, .unexpectedToken,
   .unexpectedDatabase, .unexpectedRc]

/-- A remark on the program under study. -/
structure Message where
  /-- How serious it is. -/
  level : Level
  /-- What it is about. -/
  code : Code
  /-- Where it applies. -/
  position : Position
  /-- What it says. -/
  text : String
  deriving DecidableEq, Repr

/-- How a message is shown on a line of its own. -/
def Message.display (m : Message) : String :=
  m.level.name ++ ":" ++ m.position.display ++ " " ++ m.text

/-- Where admitted messages go. -/
inductive Sink where
  /-- A log that keeps them in order. -/
  | log (messages : Array Message)
  /-- They are not kept. -/
  | none
  deriving Repr

namespace Sink

/-- Takes one message. -/
def push : Sink → Message → Sink
  | .log ms, m => .log (ms.push m)
  | .none, _ => .none

/-- The messages kept. -/
def messages : Sink → Array Message
  | .log ms => ms
  | .none => #[]

/-- Forgets the messages kept. -/
def clear : Sink → Sink
  | .log _ => .log #[]
  | .none => .none

/-- The number of errors kept. -/
def errorCount (s : Sink) : Nat := s.messages.toList.countP (·.level.isError)

/-- The number of warnings kept. -/
def warningCount (s : Sink) : Nat := s.messages.toList.countP (·.level = .warning)

/-- A message with this code was kept. -/
def hasCode (s : Sink) (c : Code) : Bool := s.messages.toList.any (·.code = c)

end Sink

/-- The state of reporting: a limit on detail, two counters and the place where messages go. -/
structure Diagnostics where
  /-- The most detailed level that is let through. -/
  maximumLevel : Level := .info
  /-- Errors and fatal errors let through so far. -/
  errorCount : Nat := 0
  /-- Warnings let through so far. -/
  warningCount : Nat := 0
  /-- Where messages go. -/
  sink : Sink := .log #[]
  deriving Repr

namespace Diagnostics

/-- A message is let through when it has a level within the limit and says something. -/
def admits (d : Diagnostics) (level : Level) (text : String) : Bool :=
  level ≠ .off && level.detail ≤ d.maximumLevel.detail && !text.isEmpty

/-- A message always names a file and a function. -/
def locate (p : Position) : Position :=
  { p with
    filename := if p.filename.isEmpty then "unknown-file" else p.filename
    function := if p.function.isEmpty then "unknown-func" else p.function }

/-- Reports a message: counts it and passes it on, or drops it when it is not admitted. -/
def emit (d : Diagnostics) (level : Level) (code : Code) (position : Position)
    (text : String) : Diagnostics :=
  if d.admits level text then
    { d with
      errorCount := d.errorCount + (if level.isError then 1 else 0)
      warningCount := d.warningCount + (if level = .warning then 1 else 0)
      sink := d.sink.push ⟨level, code, locate position, text⟩ }
  else d

/-- Reports a fatal error. -/
def fatal (d : Diagnostics) := d.emit .fatal

/-- Reports an error. -/
def error (d : Diagnostics) := d.emit .error

/-- Reports a warning. -/
def warning (d : Diagnostics) := d.emit .warning

/-- Where errors are let through, each of them is counted and goes to the log. -/
theorem foldl_error_of_log {α : Type} {d : Diagnostics} {log : Array Message} {code : Code}
    {position : Position} {text : α → String} {l : List α}
    (hlevel : Level.error.detail ≤ d.maximumLevel.detail) (hlog : d.sink = .log log)
    (h : ∀ x ∈ l, (text x).isEmpty = false) :
    l.foldl (fun d x => d.error code position (text x)) d = { d with
      errorCount := d.errorCount + l.length
      sink := .log (log ++ (l.map fun x =>
        (⟨.error, code, locate position, text x⟩ : Message)).toArray) } := by
  induction l generalizing d log with
  | nil => simp [← hlog]
  | cons x l ih =>
    obtain ⟨hx, hmore⟩ := List.forall_mem_cons.1 h
    have hemit : d.error code position (text x) = { d with
        errorCount := d.errorCount + 1,
        sink := .log (log.push ⟨.error, code, locate position, text x⟩) } := by
      simp [error, emit, admits, hlevel, hx, hlog, Level.isError, Sink.push]
    rw [List.foldl_cons, hemit, ih (d := { d with
      errorCount := d.errorCount + 1,
      sink := .log (log.push ⟨.error, code, locate position, text x⟩) }) hlevel rfl hmore]
    simp [Nat.add_assoc, Nat.add_comm 1]

end Diagnostics

end SymbolTree
