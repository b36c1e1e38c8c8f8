import SymbolTree.Json.Comment
import SymbolTree.Json.Number

/-!
# Reading JSON

A reader takes a value off the front of a text.  When it fails it answers with the text behind the
fault, from which the line of the fault follows (`Json.faultLine`): it is the line on which the
reader stood when it gave up, so a line break that was itself at fault counts as passed.

Nesting is limited, and a number past every finite float is refused (`Json.overflows`).
-/

set_option autoImplicit false
namespace SymbolTree.Json

/-- Reads a value off the front of a text, or fails with the text behind the fault. -/
abbrev Reader (α : Type) := List Char → Except (List Char) (α × List Char)

/-! ## Blanks and words -/

/-- The blanks of JSON. -/
def isSpace (c : Char) : Bool := c = ' ' || c = '\n' || c = '\t' || c = '\r'

/-- Drops the blanks at the front. -/
def skipSpaces (cs : List Char) : List Char := cs.dropWhile isSpace

/-- Reads the rest of a word and answers with a value for it. -/
def readWord {α : Type} (value : α) : List Char → Reader α
  | [], cs => .ok (value, cs)
  | _ :: _, [] => .error []
  | e :: es, c :: cs => if c = e then readWord value es cs else .error cs

/-! ## Numbers -/

/-- The digits of an exponent, after its mark. -/
def readExponent (cs : List Char) : Except (List Char) (Int × List Char) :=
  let (negative, ds) := Numeral.splitSign cs
  match ds with
  | [] => .error []
  | d :: r =>
      if Numeral.isDigit d then
        .ok (Numeral.signed negative (Numeral.ofDigits 10 (ds.takeWhile Numeral.isDigit)),
          ds.dropWhile Numeral.isDigit)
      else .error r

/-- What may follow the whole part of a number: a fraction and an exponent.  A number that is too
large is refused behind its last character. -/
def readFraction (negative : Bool) (whole : List Char) : Reader Json := fun cs => do
  let (fraction, rest) ← match cs with
    | '.' :: r =>
        let ds := r.takeWhile Numeral.isDigit
        if ds.isEmpty then .error (r.drop 1) else pure (some ds, r.dropWhile Numeral.isDigit)
    | r => pure (none, r)
  let (exponent, rest) ← match rest with
    | 'e' :: r | 'E' :: r => do
        let (e, r) ← readExponent r
        pure (some e, r)
    | r => pure (none, r)
  match ofNumeral? negative whole fraction exponent with
  | some v => .ok (v, rest)
  | none => .error rest

/-- A number, after its sign.  No digit follows a leading zero. -/
def readNumber (negative : Bool) : Reader Json
  | [] => .error []
  | '0' :: cs => match cs with
      | c :: r => if Numeral.isDigit c then .error r else readFraction negative ['0'] (c :: r)
      | [] => readFraction negative ['0'] []
  | c :: cs =>
      if Numeral.isDigit c then
        readFraction negative (c :: cs.takeWhile Numeral.isDigit) (cs.dropWhile Numeral.isDigit)
      else .error cs

/-! ## Strings -/

/-- Drops the characters that start within the next `n` bytes. -/
def dropBytes : Nat → List Char → List Char
  | 0, cs => cs
  | _, [] => []
  | n + 1, c :: cs => dropBytes (n + 1 - c.utf8Size) cs

/-- Four hexadecimal digits.  When they are not there, four bytes are passed over. -/
def readHex4 (cs : List Char) : Except (List Char) (Nat × List Char) :=
  match cs with
  | a :: b :: c :: d :: r =>
      if [a, b, c, d].all Numeral.isHexDigit then .ok (Numeral.ofDigits 16 [a, b, c, d], r)
      else .error (dropBytes 4 cs)
  | _ => .error (dropBytes 4 cs)

/-- A character given by its code.  A code from 0xD800 to 0xDBFF needs a second one from 0xDC00 to
0xDFFF after it, and the two together give the character. -/
def readCode : Reader Char := fun cs => do
  let (high, r) ← readHex4 cs
  if 0xDC00 ≤ high && high ≤ 0xDFFF then .error r
  else if high < 0xD800 || 0xDBFF < high then .ok (Char.ofNat high, r)
  else match r with
    | [] => .error []
    | '\\' :: [] => .error []
    | '\\' :: 'u' :: r => do
        let (low, r) ← readHex4 r
        if low < 0xDC00 || 0xDFFF < low then .error r
        else .ok (Char.ofNat ((high - 0xD800) * 0x400 + (low - 0xDC00) + 0x10000), r)
    | '\\' :: _ :: r => .error r
    | _ :: r => .error r

/-- What a backslash stands before. -/
def readEscape : Reader Char
  | [] => .error []
  | '"' :: cs => .ok ('"', cs)
  | '\\' :: cs => .ok ('\\', cs)
  | '/' :: cs => .ok ('/', cs)
  | 'b' :: cs => .ok ('\x08', cs)
  | 'f' :: cs => .ok ('\x0c', cs)
  | 'n' :: cs => .ok ('\n', cs)
  | 'r' :: cs => .ok ('\r', cs)
  | 't' :: cs => .ok ('\t', cs)
  | 'u' :: cs => readCode cs
  | _ :: cs => .error cs

/-- The characters of a string up to the closing quote, at most `fuel` of them. -/
def readCharsFrom : Nat → Reader (List Char)
  | 0, cs => .error cs
  | _, [] => .error []
  | _, '"' :: cs => .ok ([], cs)
  | fuel + 1, '\\' :: cs => do
      let (c, r) ← readEscape cs
      let (s, r) ← readCharsFrom fuel r
      return (c :: s, r)
  | fuel + 1, c :: cs =>
      if c.toNat < 0x20 then .error cs
      else do
        let (s, r) ← readCharsFrom fuel cs
        return (c :: s, r)

/-- A string, after its opening quote. -/
def readString : Reader String := fun cs => do
  let (s, r) ← readCharsFrom (cs.length + 1) cs
  return (String.ofList s, r)

/-! ## Arrays and objects -/

/-- Items up to a closing character, with commas between them, at most `fuel` of them. -/
def readItemsFrom {α : Type} (close : Char) (item : Reader α) : Nat → Bool → Reader (List α)
  | 0, _, cs => .error cs
  | fuel + 1, first, cs =>
      match skipSpaces cs with
      | [] => .error []
      | c :: r =>
          if c = close then .ok ([], r)
          else if first then do
            let (x, r) ← item (c :: r)
            let (xs, r) ← readItemsFrom close item fuel false r
            return (x :: xs, r)
          else if c = ',' then
            match skipSpaces r with
            | [] => .error []
            | d :: r =>
                if d = close then .error r
                else do
                  let (x, r) ← item (d :: r)
                  let (xs, r) ← readItemsFrom close item fuel false r
                  return (x :: xs, r)
          else .error r

/-- Items after an opening character. -/
def readItems {α : Type} (close : Char) (item : Reader α) : Reader (List α) := fun cs =>
  readItemsFrom close item (cs.length + 1) true cs

/-- A member of an object: a string, a colon and a value. -/
def readMember {α : Type} (value : Reader α) : Reader (String × α) := fun cs =>
  match cs with
  | '"' :: cs => do
      let (name, r) ← readString cs
      match skipSpaces r with
      | ':' :: r => do
          let (v, r) ← value r
          return ((name, v), r)
      | [] => .error []
      | _ :: r => .error r
  | [] => .error []
  | _ :: r => .error r

/-! ## Documents -/

/-- A value with at most `depth` arrays and objects around each other. -/
def readValue : Nat → Reader Json
  | depth, cs => match skipSpaces cs with
    | [] => .error []
    | 'n' :: r => readWord .null ['u', 'l', 'l'] r
    | 't' :: r => readWord (.bool true) ['r', 'u', 'e'] r
    | 'f' :: r => readWord (.bool false) ['a', 'l', 's', 'e'] r
    | '"' :: r => do
        let (s, r) ← readString r
        return (.string s, r)
    | '-' :: r => readNumber true r
    | '[' :: r => match depth with
        | 0 => .error r
        | depth + 1 => do
            let (xs, r) ← readItems ']' (readValue depth) r
            return (.array xs, r)
    | '\x7b' :: r => match depth with
        | 0 => .error r
        | depth + 1 => do
            let (ms, r) ← readItems '\x7d' (readMember (readValue depth)) r
            return (.object (Dictionary.ofList ms), r)
    | c :: r => if Numeral.isDigit c then readNumber false (c :: r) else .error r

/-- How many arrays and objects may stand around each other. -/
def maximumDepth : Nat := 127

/-- A whole text as a document. -/
def readDocument (cs : List Char) : Except (List Char) Json := do
  let (v, r) ← readValue maximumDepth cs
  match skipSpaces r with
  | [] => .ok v
  | _ :: r => .error r

/-- The line of a fault, from 1 on, given the text behind it. -/
def faultLine (text behind : List Char) : Nat := 1 + text.count '\n' - behind.count '\n'

/-- Reads a document; the error is the line of the fault. -/
def parse (s : String) : Except Nat Json :=
  match readDocument s.toList with
  | .ok v => .ok v
  | .error behind => .error (faultLine s.toList behind)

/-- Reads a document that may hold comments. -/
def parseWithComments (s : String) : Except Nat Json := parse (Comment.strip s)

end SymbolTree.Json
