import SymbolTree.Json

/-!
# Writing JSON

Each member of an object and each element of an array stands on a line of its own, indented by two
more blanks than what is around it.  An empty object is written without a line break.
-/

set_option autoImplicit false
namespace SymbolTree.Json

/-- A hexadecimal digit. -/
def hexDigit (n : Nat) : Char := if n < 10 then Char.ofNat (48 + n) else Char.ofNat (87 + n)

/-- How a character is written inside a string. -/
def escapeChar (c : Char) : List Char :=
  if c = '"' then ['\\', '"']
  else if c = '\\' then ['\\', '\\']
  else if c = '\x08' then ['\\', 'b']
  else if c = '\x0c' then ['\\', 'f']
  else if c = '\n' then ['\\', 'n']
  else if c = '\r' then ['\\', 'r']
  else if c = '\t' then ['\\', 't']
  else if c.toNat < 0x20 then
    ['\\', 'u', '0', '0', hexDigit (c.toNat / 16), hexDigit (c.toNat % 16)]
  else [c]

/-- A string between quotes. -/
def writeString (s : String) : List Char := '"' :: (s.toList.flatMap escapeChar ++ ['"'])

/-- A line break and the indentation after it. -/
def newLine (indent : Nat) : List Char := '\n' :: List.replicate (2 * indent) ' '

mutual

/-- A document inside `indent` arrays and objects. -/
def write (indent : Nat) : Json → List Char
  | .null => "null".toList
  | .bool b => (if b then "true" else "false").toList
  | .integer i => (toString i.toInt).toList
  | .number x =>
      ((if x.negative then "-" else "") ++ toString x.mantissa ++ "e" ++ toString x.exponent).toList
  | .string s => writeString s
  | .array [] => ['[', ']']
  | .array (x :: xs) =>
      '[' :: (newLine (indent + 1) ++ write (indent + 1) x ++ writeElements indent xs)
  | .object [] => ['\x7b', '\x7d']
  | .object ((k, v) :: ms) =>
      '\x7b' :: (newLine (indent + 1) ++ writeString k ++ [':', ' '] ++ write (indent + 1) v
        ++ writeMembers indent ms)

/-- The elements of an array after the first, and its end. -/
def writeElements (indent : Nat) : List Json → List Char
  | [] => newLine indent ++ [']']
  | x :: xs => ',' :: (newLine (indent + 1) ++ write (indent + 1) x ++ writeElements indent xs)

/-- The members of an object after the first, and its end. -/
def writeMembers (indent : Nat) : List (String × Json) → List Char
  | [] => newLine indent ++ ['\x7d']
  | (k, v) :: ms =>
      ',' :: (newLine (indent + 1) ++ writeString k ++ [':', ' '] ++ write (indent + 1) v
        ++ writeMembers indent ms)

end

/-- The text of a document. -/
def render (v : Json) : String := String.ofList (write 0 v)

end SymbolTree.Json
