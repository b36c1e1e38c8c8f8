import SymbolTree.Node.Error

/-!
# Positions in a source text

A position names the file and the function being read and counts pages, lines within the page,
paragraphs and lines within the file, all from 1.
-/

set_option autoImplicit false
namespace SymbolTree

/-- Where something stands in a source text. -/
structure Position where
  /-- The file, or nothing when it is not known. -/
  filename : String := ""
  /-- The function around the position, or nothing when it is not known. -/
  function : String := ""
  /-- The page within the file. -/
  page : Int32 := 1
  /-- The line within the page. -/
  pageLine : Int32 := 1
  /-- The paragraph within the page. -/
  paragraph : Int32 := 1
  /-- The line within the file. -/
  line : Int32 := 1
  deriving DecidableEq, Repr, Inhabited

namespace Position

/-- The start of a file. -/
def ofFile (filename : String) : Position := { filename }

/-- Starts the counters again at a line of the file, which must be at least 1. -/
def resetCounters (p : Position) (line : Int32) : Except NodeError Position :=
  if line < 1 then .error (.invalidLine line)
  else .ok { p with page := 1, pageLine := 1, paragraph := 1, line }

/-- A new page starts its own count of lines and paragraphs; the line within the file goes on. -/
def newPage (p : Position) : Position :=
  { p with page := p.page + 1, pageLine := 1, paragraph := 1 }

/-- A new paragraph. -/
def newParagraph (p : Position) : Position :=
  { p with paragraph := p.paragraph + 1 }

/-- A new line. -/
def newLine (p : Position) : Position :=
  { p with pageLine := p.pageLine + 1, line := p.line + 1 }

/-- How a position is shown: the file and the line, or the line alone when no file is known. -/
def display (p : Position) : String :=
  if p.filename.isEmpty then "line " ++ toString p.line.toInt ++ ":"
  else p.filename ++ ":" ++ toString p.line.toInt ++ ":"

end Position

end SymbolTree
