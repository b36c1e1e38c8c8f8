/-!
# Comments in documents

The documents read here may hold comments: from `//` to the end of the line, and from `/*` to `*/`.
`Comment.strip` takes them out before the document is read.  A comment of the second kind leaves as
many blanks as it had characters, and every line break stays, so that what remains is still on its
line.
-/

set_option autoImplicit false
namespace SymbolTree.Comment

/-- What the text so far has led into. -/
inductive Mode where
  /-- Outside strings and comments. -/
  | plain
  /-- Inside a string. -/
  | quoted
  /-- Inside a comment that ends with the line. -/
  | line
  /-- Inside a comment that ends with `*/`; the last character is kept. -/
  | block (previous : Char)
  deriving DecidableEq, Repr

/-- A text without its comments.  Inside a string nothing is a comment, and a backslash takes the
next character along. -/
def stripFrom : Mode → List Char → List Char
  | _, [] => []
  | .plain, '/' :: '/' :: cs => stripFrom .line cs
  | .plain, '/' :: '*' :: cs => ' ' :: ' ' :: stripFrom (.block '\x00') cs
  | .plain, c :: cs => c :: stripFrom (if c = '"' then .quoted else .plain) cs
  | .quoted, '\\' :: e :: cs => '\\' :: e :: stripFrom .quoted cs
  | .quoted, c :: cs => c :: stripFrom (if c = '"' then .plain else .quoted) cs
  | .line, c :: cs => if c = '\n' then '\n' :: stripFrom .plain cs else stripFrom .line cs
  | .block p, c :: cs =>
      (if c = '\n' then '\n' else ' ')
        :: stripFrom (if p = '*' && c = '/' then .plain else .block c) cs

/-- A document without its comments. -/
def strip (s : String) : String := String.ofList (stripFrom .plain s.toList)

end SymbolTree.Comment
