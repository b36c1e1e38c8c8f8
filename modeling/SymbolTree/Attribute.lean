import SymbolTree.Kind

/-!
# Attributes

Attributes are the modifiers of a declaration: `public`, `static`, `native` and so on.  Nearly
every node may carry them.  Some exclude each other; `Attribute.rivals` lists, for an attribute,
those it cannot stand beside, and `AttributeSet.conflict?` names the group a new attribute would
clash with.

## Main statements

* `AttributeSet.contains_set` — setting an attribute decides it and keeps the others.
* `Attribute.rivals_symm` — rivalry goes both ways.
* `AttributeSet.conflict?_isSome` — a conflict is reported exactly when a rival is present.
-/

set_option autoImplicit false
namespace SymbolTree

/-- A modifier of a declaration.  A trailing underscore only keeps a name apart from a reserved
word. -/
inductive Attribute where
  | public_ | private_ | protected_ | internal | transient | volatile | static | abstract
  | virtual | array | inline | requireElse | ensureThen | native | deprecated | unsafe_
  | constructor | final | enumerable | true_ | false_ | unused | dynamic | foreach | nobreak
  | autobreak | type | defined
  deriving DecidableEq, Repr

/-- A family of attributes of which a declaration takes at most some. -/
inductive ExclusiveGroup where
  | memberVisibility | functionType | functionContract | switchType | conditionalCompilation
  deriving DecidableEq, Repr

/-- The members of a group, as a message lists them. -/
def ExclusiveGroup.members : ExclusiveGroup → String
  | .memberVisibility => "public, private, and protected"
  | .functionType => "abstract, constructor, inline, native, static, and virtual"
  | .functionContract => "require else and ensure then"
  | .switchType => "foreach, nobreak, and autobreak"
  | .conditionalCompilation => "true and false"

/-- What is said about a declaration that takes two rivals of one group. -/
def ExclusiveGroup.message (g : ExclusiveGroup) : String :=
  "Attributes " ++ g.members ++ " are mutually exclusive. Only one of them can be used."

namespace Attribute

/-- The upper-case name of an attribute. -/
def name : Attribute → String
  | .public_ => "PUBLIC"
  | .private_ => "PRIVATE"
  | .protected_ => "PROTECTED"
  | .internal => "INTERNAL"
  | .transient => "TRANSIENT"
  | .volatile => "VOLATILE"
  | .static => "STATIC"
  | .abstract => "ABSTRACT"
  | .virtual => "VIRTUAL"
  | .array => "ARRAY"
  | .inline => "INLINE"
  | .requireElse => "REQUIRE_ELSE"
  | .ensureThen => "ENSURE_THEN"
  | .native => "NATIVE"
  | .deprecated => "DEPRECATED"
  | .unsafe_ => "UNSAFE"
  | .constructor => "CONSTRUCTOR"
  | .final => "FINAL"
  | .enumerable => "ENUMERABLE"
  | .true_ => "TRUE"
  | .false_ => "FALSE"
  | .unused => "UNUSED"
  | .dynamic => "DYNAMIC"
  | .foreach => "FOREACH"
  | .nobreak => "NOBREAK"
  | .autobreak => "AUTOBREAK"
  | .type => "TYPE"
  | .defined => "DEFINED"

/-- Every attribute, in the order in which sets list them. -/
def all : List Attribute :=
  [.public_, .private_, .protected_, .internal, .transient, .volatile, .static, .abstract,
   .virtual, .array, .inline, .requireElse, .ensureThen, .native, .deprecated, .unsafe_,
   .constructor, .final, .enumerable, .true_, .false_, .unused, .dynamic, .foreach, .nobreak,
   .autobreak, .type, .defined]

theorem all_getElem_ctorIdx (a : Attribute) : all[a.ctorIdx]? = some a := by
  cases a <;> rfl

theorem mem_all (a : Attribute) : a ∈ all :=
  List.mem_of_getElem? (all_getElem_ctorIdx a)

/-- The attribute with a given name, if there is one. -/
def ofName? (s : String) : Option Attribute :=
  all.find? (fun a => a.name = s)

/-- Kinds that stand for an expression, and so may be marked as naming a type. -/
def expressionKinds : List Kind :=
  [.add, .array, .arrayLiteral, .as, .assignment, .assignmentAdd, .assignmentBitwiseAnd,
   .assignmentBitwiseOr, .assignmentBitwiseXor, .assignmentDivide, .assignmentLogicalAnd,
   .assignmentLogicalOr, .assignmentLogicalXor, .assignmentMaximum, .assignmentMinimum,
   .assignmentModulo, .assignmentMultiply, .assignmentPower, .assignmentRotateLeft,
   .assignmentRotateRight, .assignmentShiftLeft, .assignmentShiftRight,
   .assignmentShiftRightUnsigned, .assignmentSubtract, .bitwiseAnd, .bitwiseNot, .bitwiseOr,
   .bitwiseXor, .call, .conditional, .decrement, .delete, .divide, .equal, .false_, .float64,
   .function, .greater, .greaterEqual, .identifier, .in_, .increment, .instanceof, .int64, .is,
   .less, .lessEqual, .list, .logicalAnd, .logicalNot, .logicalOr, .logicalXor, .match_, .maximum,
   .member, .minimum, .modulo, .multiply, .name_, .new, .notEqual, .null, .objectLiteral,
   .postDecrement, .postIncrement, .power, .private_, .public_, .range, .rotateLeft, .rotateRight,
   .scope, .shiftLeft, .shiftRight, .shiftRightUnsigned, .strictlyEqual, .strictlyNotEqual,
   .string, .subtract, .super, .this_, .true_, .typeof, .undefined, .videntifier, .void]

/-- A node of kind `k` may carry the attribute.  A program carries nothing but `defined`, and only
expressions carry `type`. -/
def accepts (a : Attribute) (k : Kind) : Bool :=
  match a with
  | .defined => true
  | .type => expressionKinds.contains k
  | _ => k ≠ .program

/-- The attributes that cannot stand beside `a`. -/
def rivals : Attribute → List Attribute
  | .requireElse => [.ensureThen]
  | .ensureThen => [.requireElse]
  | .public_ => [.private_, .protected_]
  | .private_ => [.public_, .protected_]
  | .protected_ => [.public_, .private_]
  | .abstract => [.static, .constructor, .virtual, .native, .inline]
  | .constructor => [.static, .virtual, .inline, .abstract]
  | .inline => [.abstract, .constructor, .native, .virtual]
  | .native => [.abstract, .inline]
  | .static => [.abstract, .constructor, .virtual]
  | .virtual => [.static, .constructor, .abstract, .inline]
  | .foreach => [.nobreak, .autobreak]
  | .nobreak => [.foreach, .autobreak]
  | .autobreak => [.foreach, .nobreak]
  | .true_ => [.false_]
  | .false_ => [.true_]
  | _ => []

theorem rivals_symm {a b : Attribute} (h : b ∈ a.rivals) : a ∈ b.rivals := by
  cases a <;> revert h <;> cases b <;> decide

theorem not_mem_rivals_self (a : Attribute) : a ∉ a.rivals := by
  cases a <;> decide

/-- The group to which an attribute belongs. -/
def group : Attribute → Option ExclusiveGroup
  | .requireElse | .ensureThen => some .functionContract
  | .public_ | .private_ | .protected_ => some .memberVisibility
  | .abstract | .constructor | .inline | .native | .static | .virtual => some .functionType
  | .foreach | .nobreak | .autobreak => some .switchType
  | .true_ | .false_ => some .conditionalCompilation
  | _ => none

/-- The position of an attribute in a mask. -/
def bit (a : Attribute) : Nat := a.ctorIdx

theorem bit_lt (a : Attribute) : a.bit < 28 := by
  cases a <;> decide

theorem bit_inj {a b : Attribute} (h : a.bit = b.bit) : a = b := by
  have ha := all_getElem_ctorIdx a
  rw [show a.ctorIdx = b.ctorIdx from h, all_getElem_ctorIdx b] at ha
  exact (Option.some.inj ha).symm

end Attribute

/-- A set of attributes: one bit for each. -/
structure AttributeSet where
  /-- Bit `a.bit` tells whether `a` is a member. -/
  mask : BitVec 28 := 0
  deriving DecidableEq, Repr, Inhabited

namespace AttributeSet

/-- The set without members. -/
def empty : AttributeSet := { mask := 0 }

/-- Membership. -/
def contains (s : AttributeSet) (a : Attribute) : Bool := s.mask.getLsbD a.bit

/-- Adds an attribute when `value` holds and removes it otherwise. -/
def set (s : AttributeSet) (a : Attribute) (value : Bool) : AttributeSet :=
  if value then ⟨s.mask ||| BitVec.twoPow 28 a.bit⟩ else ⟨s.mask &&& ~~~ BitVec.twoPow 28 a.bit⟩

@[simp] theorem contains_set (s : AttributeSet) (a b : Attribute) (value : Bool) :
    (s.set a value).contains b = if b = a then value else s.contains b := by
  have hb := b.bit_lt
  by_cases h : b = a
  · subst h
    cases value <;> simp [set, contains, hb]
  · have hab : ¬ b.bit = a.bit := fun e => h (Attribute.bit_inj e)
    cases value <;> simp [set, contains, hb, h, hab]

@[simp] theorem contains_empty (a : Attribute) : empty.contains a = false := by
  simp [empty, contains]

/-- Two sets with the same members are equal. -/
theorem ext_contains {s t : AttributeSet} (h : ∀ a, s.contains a = t.contains a) : s = t := by
  cases s with | mk x => cases t with | mk y =>
  congr 1
  refine BitVec.eq_of_getLsbD_eq fun i hi => ?_
  have hlen : i < Attribute.all.length := by simpa [Attribute.all] using hi
  have key : (Attribute.all[i]).bit = i := by
    have := (by decide : ∀ j : Fin 28, ∀ a, Attribute.all[j.1]? = some a → a.bit = j.1)
    exact this ⟨i, hi⟩ _ (List.getElem?_eq_getElem hlen)
  simpa [contains, key] using h Attribute.all[i]

/-- No attribute is a member. -/
def isEmpty (s : AttributeSet) : Bool := s.mask == 0

/-- One of the given attributes is a member. -/
def any (s : AttributeSet) (as : List Attribute) : Bool := as.any s.contains

/-- The members, in declaration order. -/
def toList (s : AttributeSet) : List Attribute := Attribute.all.filter s.contains

theorem mem_toList {s : AttributeSet} {a : Attribute} :
    a ∈ s.toList ↔ s.contains a = true := by
  simp [toList, Attribute.mem_all]

/-- The set with the given members. -/
def ofList (as : List Attribute) : AttributeSet := as.foldl (fun s a => s.set a true) empty

@[simp] theorem contains_foldl_set (as : List Attribute) (s : AttributeSet) (a : Attribute) :
    (as.foldl (fun s a => s.set a true) s).contains a = (s.contains a || as.contains a) := by
  induction as generalizing s with
  | nil => simp
  | cons b as ih =>
    rw [List.foldl_cons, ih, contains_set]
    by_cases h : a = b <;> simp [h]

@[simp] theorem contains_ofList (as : List Attribute) (a : Attribute) :
    (ofList as).contains a = as.contains a := by
  simp [ofList, contains_foldl_set, contains_empty]

/-- The members that a node of kind `k` may carry. -/
def retainLegal (s : AttributeSet) (k : Kind) : AttributeSet :=
  ofList (s.toList.filter (·.accepts k))

theorem contains_retainLegal (s : AttributeSet) (k : Kind) (a : Attribute) :
    (s.retainLegal k).contains a = (s.contains a && a.accepts k) := by
  rw [retainLegal, contains_ofList, Bool.eq_iff_iff]
  simp [mem_toList]

/-- The group in which `a` would clash with a member of `s`, if it would. -/
def conflict? (s : AttributeSet) (a : Attribute) : Option ExclusiveGroup :=
  if s.any a.rivals then a.group else none

theorem conflict?_isSome (s : AttributeSet) (a : Attribute) :
    (s.conflict? a).isSome = s.any a.rivals := by
  cases a <;> simp [conflict?, Attribute.group, Attribute.rivals, any] <;> split <;> simp_all

end AttributeSet

end SymbolTree
