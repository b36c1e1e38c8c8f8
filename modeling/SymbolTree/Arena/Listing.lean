import SymbolTree.Arena.Structure
import SymbolTree.Decimal

/-!
# Listing a tree

One line per node, the children below their parent and indented by one more column.  Children are
marked by `-`, variables by `=` and labels by `:`.
-/

set_option autoImplicit false
namespace SymbolTree

namespace Listing

/-- A number filled up with zeros on the left; the sign counts towards the width. -/
def zeroPadded (width : Nat) (i : Int) : String :=
  let ds := Nat.toDigits 10 i.natAbs
  if i < 0 then "-" ++ String.ofList (List.replicate (width - 1 - ds.length) '0' ++ ds)
  else String.ofList (List.replicate (width - ds.length) '0' ++ ds)

/-- The hexadecimal digits of a number, filled up with zeros on the left. -/
def hexPadded (width n : Nat) : String :=
  let ds := Nat.toDigits 16 n
  String.ofList (List.replicate (width - ds.length) '0' ++ ds)

/-- How a character of a text is shown: control characters by a caret, other characters past the
visible ASCII ones by their code. -/
def escapeChar (c : Char) : String :=
  let n := c.toNat
  if n < 0x20 then "^" ++ String.singleton (Char.ofNat (64 + n))
  else if n < 0x7F then (if c = '\'' then "\\'" else String.singleton c)
  else if n < 0x100 then "\\x" ++ hexPadded 0 n
  else if n < 0x10000 then "\\u" ++ hexPadded 4 n
  else "\\U" ++ hexPadded 8 n

/-- A text between quotes. -/
def quoted (s : String) : String :=
  ": '" ++ String.join (s.toList.map escapeChar) ++ "'"

/-- The labels of the flags, each after a blank. -/
def flagLabels (d : Node) : String :=
  String.join ((d.flags.toList.filter (·.accepts d.kind)).map fun f => " " ++ f.label)

/-- What the listing shows of the value and the flags of a node, depending on its kind. -/
def details (d : Node) : String :=
  match d.kind with
  | .break_ | .continue_ | .goto | .interface | .label | .namespace_ | .regularExpression =>
      quoted d.text
  | .catch_ | .directiveList | .for_ | .paramMatch | .switch | .type => ":" ++ flagLabels d
  | .enum | .class_ | .identifier | .string | .videntifier | .import_ | .package | .function
  | .variable_ | .varAttributes => quoted d.text ++ flagLabels d
  | .param => quoted d.text ++ ":" ++ flagLabels d
  | .int64 => ": " ++ toString d.int.toInt ++ ", 0x" ++ hexPadded 16 d.int.toUInt64.toNat
  | .float64 => ": " ++ Decimal.display d.float
  | _ => ""

/-- The number and the name of a kind, and the character it stands for. -/
def kindLabel (k : Kind) : String :=
  zeroPadded 4 k.value ++ ": " ++ k.name
    ++ (match k.punctuation with
      | some c => " = '" ++ String.singleton c ++ "'"
      | none => "")

/-- A link of a node, if it leads anywhere. -/
def linkLabel (title : String) : Option NodeId → String
  | some n => " " ++ title ++ ": " ++ n.display
  | none => ""

end Listing

namespace Arena

open Listing in
/-- The line of one node. -/
def listingLine (a : Arena) (n : NodeId) (indent : Nat) (mark : Char) : String :=
  let d := a.node n
  n.display ++ ": " ++ zeroPadded 2 indent ++ String.singleton mark
    ++ String.ofList (List.replicate indent ' ') ++ kindLabel d.kind ++ details d
    ++ linkLabel "Instance" (a.inst n) ++ linkLabel "Type Node" (a.typeNode n)
    ++ linkLabel "Attribute Node" (a.attributeNode n)
    ++ linkLabel "Goto Exit" (a.link n .gotoExit) ++ linkLabel "Goto Enter" (a.link n .gotoEnter)
    ++ (if d.attributes.isEmpty then ""
        else " attrs:" ++ String.join (d.attributes.toList.map fun t => " " ++ t.name))
    ++ " (" ++ d.position.display ++ ")"
    ++ (if a.isLocked n then " Locked: " ++ toString (a.lockCount n) else "")

/-- The labels of a node that still exist, by name. -/
def sortedLabels (a : Arena) (n : NodeId) : List NodeId :=
  (((a.node n).labels.filter (fun l => a.isAlive l.2)).mergeSort (fun x y => x.1 ≤ y.1)).map (·.2)

/-- The lines of a node and of what hangs below it, down to `fuel` levels. -/
def listingFrom (a : Arena) : Nat → NodeId → Nat → Char → List String
  | 0, _, _, _ => []
  | fuel + 1, n, indent, mark =>
      a.listingLine n indent mark ::
        ((a.children n).flatMap (a.listingFrom fuel · (indent + 1) '-')
          ++ ((a.node n).variableNodes.filter a.isAlive).flatMap
              (a.listingFrom fuel · (indent + 1) '=')
          ++ (a.sortedLabels n).flatMap (a.listingFrom fuel · (indent + 1) ':'))

/-- The lines of a node and of all that hangs below it. -/
def listing (a : Arena) (n : NodeId) : List String := a.listingFrom (a.size + 1) n 2 '.'

end Arena

end SymbolTree
