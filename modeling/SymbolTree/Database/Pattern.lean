/-!
# Patterns

In a pattern an asterisk stands for any text, the empty one included, and every other character for
itself.

## Main statements

* `Pattern.onSuffix_eq_true` — what an asterisk tries: the rest of the pattern on each end of the
  name.
* `Pattern.fits_star` — an asterisk that follows another changes nothing, so every asterisk may be
  read on its own.
-/

set_option autoImplicit false
namespace SymbolTree

namespace Pattern

/-- Some end of a text, the whole text and the empty one included, has a property. -/
def onSuffix (p : List Char → Bool) : List Char → Bool
  | [] => p []
  | c :: cs => p (c :: cs) || onSuffix p cs

theorem onSuffix_eq_true {p : List Char → Bool} {cs : List Char} :
    onSuffix p cs = true ↔ ∃ front back, cs = front ++ back ∧ p back = true := by
  induction cs with
  | nil =>
    refine ⟨fun h => ⟨[], [], rfl, h⟩, ?_⟩
    rintro ⟨front, back, hcs, h⟩
    obtain ⟨-, rfl⟩ := List.append_eq_nil_iff.mp hcs.symm
    exact h
  | cons c cs ih =>
    rw [onSuffix, Bool.or_eq_true, ih]
    constructor
    · rintro (h | ⟨front, back, rfl, h⟩)
      · exact ⟨[], c :: cs, rfl, h⟩
      · exact ⟨c :: front, back, rfl, h⟩
    · rintro ⟨_ | ⟨d, front⟩, back, hcs, h⟩
      · exact .inl (by simpa using hcs ▸ h)
      · obtain ⟨rfl, rfl⟩ := List.cons.inj hcs
        exact .inr ⟨front, back, rfl, h⟩

/-- A text fits a pattern.  Asterisks that follow each other count as one, so that only one of them
has to try every end of the text. -/
def fits : List Char → List Char → Bool
  | [], name => name.isEmpty
  | '*' :: pattern, name =>
      if pattern.head? = some '*' then fits pattern name else onSuffix (fits pattern) name
  | _ :: _, [] => false
  | p :: pattern, c :: name => p = c && fits pattern name

/-- What was found on some end of an end was found on some end. -/
theorem onSuffix_onSuffix (p : List Char → Bool) (cs : List Char) :
    onSuffix (onSuffix p) cs = onSuffix p cs := by
  rw [Bool.eq_iff_iff]
  simp only [onSuffix_eq_true]
  constructor
  · rintro ⟨front, _, rfl, middle, back, rfl, h⟩
    exact ⟨front ++ middle, back, by simp, h⟩
  · rintro ⟨front, back, rfl, h⟩
    exact ⟨[], _, rfl, front, back, rfl, h⟩

theorem fits_star (pattern : List Char) (name : List Char) :
    fits ('*' :: pattern) name = onSuffix (fits pattern) name := by
  induction pattern generalizing name with
  | nil => rw [fits]; simp
  | cons p pattern ih =>
    rw [fits]
    by_cases hp : p = '*'
    · subst hp
      have hfun : fits ('*' :: pattern) = onSuffix (fits pattern) := funext ih
      simp [hfun, onSuffix_onSuffix]
    · simp [hp]

end Pattern

/-- A name fits a pattern. -/
def nameFits (name pattern : String) : Bool := Pattern.fits pattern.toList name.toList

end SymbolTree
