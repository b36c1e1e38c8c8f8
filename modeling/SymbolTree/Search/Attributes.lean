import SymbolTree.Search.Context

/-!
# Effective attributes

A declaration has the attributes written on it, those that its attribute list names, and some of
those of the node around it.  An entry of an attribute list is a keyword, the name of an attribute,
or the name of a variable whose value is again such an entry.

What was worked out for a node is remembered, so that it is worked out, and its faults are reported,
once.
-/

set_option autoImplicit false
namespace SymbolTree

namespace Attribute

/-- The attribute that a name stands for in an attribute list. -/
def ofListName? : String → Option Attribute
  | "abstract" => some .abstract
  | "array" => some .array
  | "autobreak" => some .autobreak
  | "constructor" => some .constructor
  | "deprecated" => some .deprecated
  | "dynamic" => some .dynamic
  | "enumerable" => some .enumerable
  | "final" => some .final
  | "foreach" => some .foreach
  | "internal" => some .internal
  | "native" => some .native
  | "nobreak" => some .nobreak
  | "protected" => some .protected_
  | "static" => some .static
  | "unsafe" => some .unsafe_
  | "unused" => some .unused
  | "virtual" => some .virtual
  | _ => none

/-- The attribute that a keyword stands for. -/
def ofKeyword? : Kind → Option Attribute
  | .abstract => some .abstract
  | .false_ => some .false_
  | .final => some .final
  | .inline => some .inline
  | .native => some .native
  | .private_ => some .private_
  | .protected_ => some .protected_
  | .public_ => some .public_
  | .static => some .static
  | .transient => some .transient
  | .true_ => some .true_
  | .volatile => some .volatile
  | _ => none

/-- The attributes that tell who sees a member.  They are inherited together. -/
def visibility : List Attribute := [.public_, .private_, .protected_]

/-- The attributes that tell what sort of member a declaration is.  They are inherited together. -/
def memberSort : List Attribute := [.static, .abstract, .virtual]

end Attribute

namespace AttributeSet

/-- Takes over all of a family from another set, unless a member of it is there already. -/
def inheritFamily (s from_ : AttributeSet) (family : List Attribute) : AttributeSet :=
  if s.any family then s else family.foldl (fun s t => s.set t (from_.contains t)) s

/-- Takes over those of a list that another set has. -/
def inheritEach (s from_ : AttributeSet) (ts : List Attribute) : AttributeSet :=
  ts.foldl (fun s t => if from_.contains t then s.set t true else s) s

/-- Takes over what excludes a declaration from the compilation. -/
def inheritFalse (s from_ : AttributeSet) : AttributeSet :=
  if from_.contains .false_ then (s.set .false_ true).set .true_ false else s

/-- The attributes of a node with those it inherits from its parent, which is of kind `k`. -/
def inherit (s from_ : AttributeSet) (k : Kind) : AttributeSet :=
  let s := s.inheritFamily from_ Attribute.visibility
  let s := s.inheritFamily from_ Attribute.memberSort
  let s := s.inheritEach from_ [.native, .enumerable]
  let s := s.inheritFalse from_
  if k = .class_ then s else s.inheritEach from_ [.dynamic, .final]

end AttributeSet

namespace Search

/-- Remembers the attributes of a node. -/
def remember (n : NodeId) (s : AttributeSet) : Search Unit :=
  modify fun c => { c with attributeCache := (n, s) :: c.attributeCache }

/-- Adds an attribute to those of a node, or reports that it stands beside a rival. -/
def addAttribute (n : NodeId) (s : AttributeSet) (t : Attribute) : Search AttributeSet := do
  ask fun a => a.checkAttribute n t
  match s.conflict? t with
  | some g =>
      error .invalidAttributes n g.message
      return s
  | none => return s.set t true

/-- Runs a search while the attributes of a variable are being worked out. -/
def whileExpanding {α : Type} (v : NodeId) (s : Search α) : Search α :=
  ExceptT.mk fun c =>
    let (r, d) := s.exec { c with expanding := v :: c.expanding }
    (r, { d with expanding := d.expanding.erase v })

/-- Adds the attribute that a part of a variable stands for: the value it was set to. -/
def addVariablePart (call : Call) (n : NodeId) (s : AttributeSet) (part : NodeId) :
    Search AttributeSet := do
  let a ← arena
  let value := if a.kind part = .set then (a.children part).head? else none
  match value with
  | none =>
      error .invalidVariable n "an attribute variable has to be given a value."
      return s
  | some v =>
      if a.kind v = .identifier || (Attribute.ofKeyword? (a.kind v)).isSome then
        call (.addListed n v s)
      else
        error .invalidExpression n
          ("an attribute which is an expression needs to result in a boolean value "
            ++ "(true or false).")
        return s

/-- Adds the attributes that a variable holds. -/
def addVariable (call : Call) (n : NodeId) (name : String) (v : NodeId) (s : AttributeSet) :
    Search AttributeSet := do
  let a ← arena
  if a.kind v ≠ .variable_ && a.kind v ≠ .varAttributes then
    error .dynamic n
      ("a dynamic attribute name can only reference a variable and '" ++ name ++ "' is not one.")
    return s
  else if (← get).expanding.contains v then
    error .loopingReference n
      ("the dynamic attribute variable '" ++ name ++ "' is used circularly (it loops).")
    return s
  else
    whileExpanding v (withLock v ((a.children v).foldlM (addVariablePart call n) s))

/-- Adds the attribute that a name stands for, or those of the variable it names. -/
def addNamed (call : Call) (n entry : NodeId) (s : AttributeSet) : Search AttributeSet := do
  let name ← nameOf entry
  match Attribute.ofListName? name with
  | some t => addAttribute n s t
  | none =>
      let found ← if ((← arena).parent n).isSome then call (.resolveName n entry none {})
        else pure none
      match found with
      | some v => addVariable call n name v s
      | none =>
          error .notFound n ("cannot find a variable named '" ++ name ++ "'.")
          return s

/-- Adds the attributes that one entry of an attribute list stands for. -/
def addListed (call : Call) (n entry : NodeId) (s : AttributeSet) : Search AttributeSet := do
  let k := (← arena).kind entry
  if k = .identifier then addNamed call n entry s
  else match Attribute.ofKeyword? k with
    | some t => addAttribute n s t
    | none =>
        error .notSupported n
          ("unsupported attribute data type, dynamic expressions for attributes need to be "
            ++ "resolved as constants.")
        return s

/-- The attributes of a node with those that its attribute list adds. -/
def addAllListed (call : Call) (n : NodeId) (s : AttributeSet) : Search AttributeSet := do
  let a ← arena
  match a.attributeNode n with
  | none => return s
  | some list =>
      withLock list ((a.children list).foldlM (fun s entry => call (.addListed n entry s)) s)

/-- The attributes of a node with those that it inherits.  A package inherits none. -/
def addInherited (call : Call) (n : NodeId) (s : AttributeSet) : Search AttributeSet := do
  let a ← arena
  match a.parent n with
  | none => return s
  | some p =>
      if a.kind n = .package then return s
      else
        let inherited ← call (.effectiveAttributes p)
        return s.inherit inherited (a.kind p)

/-- A function with a body is not native.  That it was written so is reported; that it was
inherited is not. -/
def dropNative (n : NodeId) (written : Bool) (s : AttributeSet) : Search AttributeSet := do
  let a ← arena
  if s.contains .native && a.kind n = .function
      && (a.children n).any (fun c => a.kind c = .directiveList) then
    if written then
      error .native n "'native' is not permitted on a function with a body."
    return s.set .native false
  else return s

/-- The attributes of a node with those that its list adds and those that it inherits. -/
def effectiveAttributes (call : Call) (n : NodeId) : Search AttributeSet := do
  let c ← get
  match c.attributeCache.lookup n with
  | some s => return s
  | none =>
      let own := (c.arena.node n).attributes
      remember n own
      if c.arena.kind n = .program then return own
      let listed ← addAllListed call n own
      let s ← addInherited call n listed
      let s ← dropNative n (listed.contains .native) s
      remember n s
      return s

/-- A node has an attribute, be it inherited. -/
def hasAttribute (call : Call) (n : NodeId) (t : Attribute) : Search Bool := do
  return (← call (.effectiveAttributes n)).contains t

end Search

end SymbolTree
