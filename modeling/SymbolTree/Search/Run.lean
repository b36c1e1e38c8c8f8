import SymbolTree.Search.Scope

/-!
# Running searches

Searches that call each other are answered by `Search.answer`, which allows a number of calls inside
each other.  `Search.run` allows more of them than the trees at hand need, and as many more as the
context spares.
-/

set_option autoImplicit false
namespace SymbolTree.Search

/-- Answers a request, given something that answers those it leads to. -/
def step (call : Call) : (r : Request) → Search r.Answer
  | .resolveName list id params mode => resolveName call list id params mode
  | .effectiveAttributes n => effectiveAttributes call n
  | .addListed n entry attrs => addListed call n entry attrs
  | .isDerivedFrom derived base => isDerivedFrom call derived base
  | .classDepth c type depth => classDepth call c type depth
  | .findMember link field t params mode => findMember call link field t params mode
  | .findInList list field t params mode => findInList call list field t params mode

/-- Answers a request with at most `fuel` calls inside each other. -/
def answer : Nat → Call
  | 0, _ => throw .exhausted
  | fuel + 1, r => step (answer fuel) r

/-- How many calls inside each other are allowed: a multiple of the number of nodes, and those that
are spared for what is loaded on the way. -/
def fuel (c : Context) : Nat := 4096 + 64 * c.arena.size + c.spareCalls

/-- Runs a search that needs others. -/
def run {α : Type} (s : Call → Search α) : Search α := do
  s (answer (fuel (← get)))

end SymbolTree.Search
