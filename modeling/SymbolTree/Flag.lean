import SymbolTree.Kind

/-!
# Flags

A flag is a yes-or-no fact about a node of a particular kind, such as a function being a getter.
`Flag.accepts` says on which kinds a flag makes sense.  A `FlagSet` holds one bit per flag, so that
equality of sets is equality of masks.

## Main statements

* `FlagSet.contains_set` — setting a flag decides that flag and keeps the others.
* `FlagSet.contains_retainLegal` — what is left for a kind is what was there and is accepted.
-/

set_option autoImplicit false
namespace SymbolTree

/-- A fact recorded on nodes of certain kinds; its name starts with the kind that carries it. -/
inductive Flag where
  | catchTyped | directiveListNewVariables | enumClass | enumInuse | forConst | forForeach | forIn
  | functionGetter | functionSetter | functionOut | functionVoid | functionNever
  | functionNoparams | functionOperator | identifierWith | identifierTyped | importImplements
  | packageFoundLabels | packageReferenced | paramConst | paramIn | paramOut | paramNamed
  | paramRest | paramUnchecked | paramUnprototyped | paramReferenced | paramParamref | paramCatch
  | paramMatchUnprototyped | switchDefault | typeModulo | variableConst | variableFinal
  | variableLocal | variableMember | variableAttributes | variableEnum | variableCompiled
  | variableInuse | variableAttrs | variableDefined | variableDefining | variableToadd
  deriving DecidableEq, Repr

namespace Flag

/-- The full name of a flag. -/
def name : Flag → String
  | .catchTyped => "NODE_CATCH_FLAG_TYPED"
  | .directiveListNewVariables => "NODE_DIRECTIVE_LIST_FLAG_NEW_VARIABLES"
  | .enumClass => "NODE_ENUM_FLAG_CLASS"
  | .enumInuse => "NODE_ENUM_FLAG_INUSE"
  | .forConst => "NODE_FOR_FLAG_CONST"
  | .forForeach => "NODE_FOR_FLAG_FOREACH"
  | .forIn => "NODE_FOR_FLAG_IN"
  | .functionGetter => "NODE_FUNCTION_FLAG_GETTER"
  | .functionSetter => "NODE_FUNCTION_FLAG_SETTER"
  | .functionOut => "NODE_FUNCTION_FLAG_OUT"
  | .functionVoid => "NODE_FUNCTION_FLAG_VOID"
  | .functionNever => "NODE_FUNCTION_FLAG_NEVER"
  | .functionNoparams => "NODE_FUNCTION_FLAG_NOPARAMS"
  | .functionOperator => "NODE_FUNCTION_FLAG_OPERATOR"
  | .identifierWith => "NODE_IDENTIFIER_FLAG_WITH"
  | .identifierTyped => "NODE_IDENTIFIER_FLAG_TYPED"
  | .importImplements => "NODE_IMPORT_FLAG_IMPLEMENTS"
  | .packageFoundLabels => "NODE_PACKAGE_FLAG_FOUND_LABELS"
  | .packageReferenced => "NODE_PACKAGE_FLAG_REFERENCED"
  | .paramConst => "NODE_PARAM_FLAG_CONST"
  | .paramIn => "NODE_PARAM_FLAG_IN"
  | .paramOut => "NODE_PARAM_FLAG_OUT"
  | .paramNamed => "NODE_PARAM_FLAG_NAMED"
  | .paramRest => "NODE_PARAM_FLAG_REST"
  | .paramUnchecked => "NODE_PARAM_FLAG_UNCHECKED"
  | .paramUnprototyped => "NODE_PARAM_FLAG_UNPROTOTYPED"
  | .paramReferenced => "NODE_PARAM_FLAG_REFERENCED"
  | .paramParamref => "NODE_PARAM_FLAG_PARAMREF"
  | .paramCatch => "NODE_PARAM_FLAG_CATCH"
  | .paramMatchUnprototyped => "NODE_PARAM_MATCH_FLAG_UNPROTOTYPED"
  | .switchDefault => "NODE_SWITCH_FLAG_DEFAULT"
  | .typeModulo => "NODE_TYPE_FLAG_MODULO"
  | .variableConst => "NODE_VARIABLE_FLAG_CONST"
  | .variableFinal => "NODE_VARIABLE_FLAG_FINAL"
  | .variableLocal => "NODE_VARIABLE_FLAG_LOCAL"
  | .variableMember => "NODE_VARIABLE_FLAG_MEMBER"
  | .variableAttributes => "NODE_VARIABLE_FLAG_ATTRIBUTES"
  | .variableEnum => "NODE_VARIABLE_FLAG_ENUM"
  | .variableCompiled => "NODE_VARIABLE_FLAG_COMPILED"
  | .variableInuse => "NODE_VARIABLE_FLAG_INUSE"
  | .variableAttrs => "NODE_VARIABLE_FLAG_ATTRS"
  | .variableDefined => "NODE_VARIABLE_FLAG_DEFINED"
  | .variableDefining => "NODE_VARIABLE_FLAG_DEFINING"
  | .variableToadd => "NODE_VARIABLE_FLAG_TOADD"

/-- The short name of a flag, used where the kind of its node is already shown. -/
def label : Flag → String
  | .catchTyped => "TYPED"
  | .directiveListNewVariables => "NEW-VARIABLES"
  | .enumClass => "CLASS"
  | .enumInuse => "INUSE"
  | .forConst => "CONST"
  | .forForeach => "FOREACH"
  | .forIn => "IN"
  | .functionGetter => "GETTER"
  | .functionSetter => "SETTER"
  | .functionOut => "OUT"
  | .functionVoid => "VOID"
  | .functionNever => "NEVER"
  | .functionNoparams => "NOPARAMS"
  | .functionOperator => "OPERATOR"
  | .identifierWith => "WITH"
  | .identifierTyped => "TYPED"
  | .importImplements => "IMPLEMENTS"
  | .packageFoundLabels => "FOUND-LABELS"
  | .packageReferenced => "REFERENCED"
  | .paramConst => "CONST"
  | .paramIn => "IN"
  | .paramOut => "OUT"
  | .paramNamed => "NAMED"
  | .paramRest => "REST"
  | .paramUnchecked => "UNCHECKED"
  | .paramUnprototyped => "UNPROTOTYPED"
  | .paramReferenced => "REFERENCED"
  | .paramParamref => "PARAMREF"
  | .paramCatch => "CATCH"
  | .paramMatchUnprototyped => "UNPROTOTYPED"
  | .switchDefault => "DEFAULT"
  | .typeModulo => "MODULO"
  | .variableConst => "CONST"
  | .variableFinal => "FINAL"
  | .variableLocal => "LOCAL"
  | .variableMember => "MEMBER"
  | .variableAttributes => "ATTRIBUTES"
  | .variableEnum => "ENUM"
  | .variableCompiled => "COMPILED"
  | .variableInuse => "INUSE"
  | .variableAttrs => "ATTRS"
  | .variableDefined => "DEFINED"
  | .variableDefining => "DEFINING"
  | .variableToadd => "TOADD"

/-- Every flag, in the order in which sets list them. -/
def all : List Flag :=
  [.catchTyped, .directiveListNewVariables, .enumClass, .enumInuse, .forConst, .forForeach,
   .forIn, .functionGetter, .functionSetter, .functionOut, .functionVoid, .functionNever,
   .functionNoparams, .functionOperator, .identifierWith, .identifierTyped, .importImplements,
   .packageFoundLabels, .packageReferenced, .paramConst, .paramIn, .paramOut, .paramNamed,
   .paramRest, .paramUnchecked, .paramUnprototyped, .paramReferenced, .paramParamref, .paramCatch,
   .paramMatchUnprototyped, .switchDefault, .typeModulo, .variableConst, .variableFinal,
   .variableLocal, .variableMember, .variableAttributes, .variableEnum, .variableCompiled,
   .variableInuse, .variableAttrs, .variableDefined, .variableDefining, .variableToadd]

theorem all_getElem_ctorIdx (f : Flag) : all[f.ctorIdx]? = some f := by
  cases f <;> rfl

theorem mem_all (f : Flag) : f ∈ all :=
  List.mem_of_getElem? (all_getElem_ctorIdx f)

/-- The flag with a given full name, if there is one. -/
def ofName? (s : String) : Option Flag :=
  all.find? (fun f => f.name = s)

/-- The kinds whose nodes may carry a flag. -/
def kinds : Flag → List Kind
  | .catchTyped => [.catch_]
  | .directiveListNewVariables => [.directiveList]
  | .enumClass | .enumInuse => [.enum]
  | .forConst | .forForeach | .forIn => [.for_]
  | .functionGetter | .functionSetter | .functionOut | .functionVoid | .functionNever
  | .functionNoparams | .functionOperator => [.function]
  | .identifierWith | .identifierTyped =>
      [.class_, .interface, .identifier, .videntifier, .string]
  | .importImplements => [.import_]
  | .packageFoundLabels | .packageReferenced => [.package]
  | .paramConst | .paramIn | .paramOut | .paramNamed | .paramRest | .paramUnchecked
  | .paramUnprototyped | .paramReferenced | .paramParamref | .paramCatch => [.param]
  | .paramMatchUnprototyped => [.paramMatch]
  | .switchDefault => [.switch]
  | .typeModulo => [.type]
  | .variableConst | .variableFinal | .variableLocal | .variableMember | .variableAttributes
  | .variableEnum | .variableCompiled | .variableInuse | .variableAttrs | .variableDefined
  | .variableDefining | .variableToadd => [.variable_, .varAttributes]

/-- A node of kind `k` may carry the flag. -/
def accepts (f : Flag) (k : Kind) : Bool := f.kinds.contains k

/-- The position of a flag in a mask. -/
def bit (f : Flag) : Nat := f.ctorIdx

theorem bit_lt (f : Flag) : f.bit < 44 := by
  cases f <;> decide

theorem bit_inj {f g : Flag} (h : f.bit = g.bit) : f = g := by
  have hf := all_getElem_ctorIdx f
  rw [show f.ctorIdx = g.ctorIdx from h, all_getElem_ctorIdx g] at hf
  exact (Option.some.inj hf).symm

end Flag

/-- A set of flags: one bit for each. -/
structure FlagSet where
  /-- Bit `f.bit` tells whether `f` is a member. -/
  mask : BitVec 44 := 0
  deriving DecidableEq, Repr, Inhabited

namespace FlagSet

/-- The set without members. -/
def empty : FlagSet := { mask := 0 }

/-- Membership. -/
def contains (s : FlagSet) (f : Flag) : Bool := s.mask.getLsbD f.bit

/-- Adds a flag when `value` holds and removes it otherwise. -/
def set (s : FlagSet) (f : Flag) (value : Bool) : FlagSet :=
  if value then ⟨s.mask ||| BitVec.twoPow 44 f.bit⟩ else ⟨s.mask &&& ~~~ BitVec.twoPow 44 f.bit⟩

@[simp] theorem contains_set (s : FlagSet) (f g : Flag) (value : Bool) :
    (s.set f value).contains g = if g = f then value else s.contains g := by
  have hg := g.bit_lt
  by_cases h : g = f
  · subst h
    cases value <;> simp [set, contains, hg]
  · have hb : ¬ g.bit = f.bit := fun e => h (Flag.bit_inj e)
    cases value <;> simp [set, contains, hg, h, hb]

@[simp] theorem contains_empty (f : Flag) : empty.contains f = false := by
  simp [empty, contains]

/-- No flag is a member. -/
def isEmpty (s : FlagSet) : Bool := s.mask == 0

/-- The members, in declaration order. -/
def toList (s : FlagSet) : List Flag := Flag.all.filter s.contains

theorem mem_toList {s : FlagSet} {f : Flag} : f ∈ s.toList ↔ s.contains f = true := by
  simp [toList, Flag.mem_all]

/-- The set with the given members. -/
def ofList (fs : List Flag) : FlagSet := fs.foldl (fun s f => s.set f true) empty

@[simp] theorem contains_foldl_set (fs : List Flag) (s : FlagSet) (f : Flag) :
    (fs.foldl (fun s f => s.set f true) s).contains f = (s.contains f || fs.contains f) := by
  induction fs generalizing s with
  | nil => simp
  | cons g fs ih =>
    rw [List.foldl_cons, ih, contains_set]
    by_cases h : f = g <;> simp [h]

@[simp] theorem contains_ofList (fs : List Flag) (f : Flag) :
    (ofList fs).contains f = fs.contains f := by
  simp [ofList, contains_foldl_set, contains_empty]

/-- The members that a node of kind `k` may carry. -/
def retainLegal (s : FlagSet) (k : Kind) : FlagSet :=
  ofList (s.toList.filter (·.accepts k))

theorem contains_retainLegal (s : FlagSet) (k : Kind) (f : Flag) :
    (s.retainLegal k).contains f = (s.contains f && f.accepts k) := by
  rw [retainLegal, contains_ofList, Bool.eq_iff_iff]
  simp [mem_toList]

end FlagSet

end SymbolTree
