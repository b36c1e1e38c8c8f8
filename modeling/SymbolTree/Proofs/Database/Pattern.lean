import SymbolTree.Database.Pattern

/-!
# What a pattern stands for

A pattern stands for every name that comes about when each of its asterisks gives way to a text and
all other characters stay (`Pattern.fillIn`).  The texts need not be the same, and an asterisk in a
name is a character like any other.

A name that fits a pattern was taken apart from its front on: the first asterisk took what lies
before some end of the name, and the rest of the pattern fits that end.  What is put in the place of
an asterisk is therefore found one asterisk at a time (`Pattern.fillIn_cons`).

## Main statements

* `Pattern.fits_iff_fillIn` — a text fits a pattern if and only if the pattern stands for it.
* `nameFits_iff_fillIn` — the same for names.
-/

set_option autoImplicit false
namespace SymbolTree

namespace Pattern

/-- The pattern with the text `fill i` in the place of the asterisk at place `i`. -/
def fillIn (fill : Nat → List Char) (pattern : List Char) : List Char :=
  (pattern.mapIdx fun i p => if p = '*' then fill i else [p]).flatten

variable {pattern name : List Char}

theorem fillIn_cons (fill : Nat → List Char) (p : Char) (pattern : List Char) :
    fillIn fill (p :: pattern)
      = (if p = '*' then fill 0 else [p]) ++ fillIn (fun i => fill (i + 1)) pattern := by
  rw [fillIn, List.mapIdx_cons, List.flatten_cons, fillIn]

/-- A character that is no asterisk stands for itself. -/
theorem fits_cons {p : Char} (hp : p ≠ '*') :
    fits (p :: pattern) name = true ↔ ∃ rest, name = p :: rest ∧ fits pattern rest = true := by
  cases name with
  | nil =>
    rw [fits]
    · simp
    · exact fun h => hp h
  | cons c name =>
    rw [fits, Bool.and_eq_true, decide_eq_true_eq]
    · constructor
      · rintro ⟨rfl, h⟩
        exact ⟨name, rfl, h⟩
      · rintro ⟨rest, hname, h⟩
        obtain ⟨rfl, rfl⟩ := List.cons.inj hname
        exact ⟨rfl, h⟩
    · exact fun h => hp h

/-- A text fits a pattern if and only if the pattern stands for it. -/
theorem fits_iff_fillIn : fits pattern name = true ↔ ∃ fill, name = fillIn fill pattern := by
  induction pattern generalizing name with
  | nil =>
    rw [fits, List.isEmpty_iff]
    constructor
    · exact fun h => ⟨fun _ => [], h⟩
    · rintro ⟨fill, h⟩
      exact h
  | cons p pattern ih =>
    by_cases hp : p = '*'
    · subst hp
      rw [fits_star, onSuffix_eq_true]
      constructor
      · rintro ⟨front, back, rfl, h⟩
        obtain ⟨fill, rfl⟩ := ih.1 h
        -- the places of the other asterisks move on by one
        refine ⟨fun i => if i = 0 then front else fill (i - 1), ?_⟩
        rw [fillIn_cons, if_pos rfl, if_pos rfl]
        rfl
      · rintro ⟨fill, rfl⟩
        exact ⟨fill 0, _, by rw [fillIn_cons, if_pos rfl], ih.2 ⟨_, rfl⟩⟩
    · rw [fits_cons hp]
      constructor
      · rintro ⟨rest, rfl, h⟩
        obtain ⟨fill, rfl⟩ := ih.1 h
        refine ⟨fun i => fill (i - 1), ?_⟩
        rw [fillIn_cons, if_neg hp]
        rfl
      · rintro ⟨fill, rfl⟩
        exact ⟨_, by rw [fillIn_cons, if_neg hp]; rfl, ih.2 ⟨_, rfl⟩⟩

end Pattern

/-- The pattern with the text `fill i` in the place of the asterisk at place `i`. -/
def filledPattern (fill : Nat → String) (pattern : String) : String :=
  String.ofList (Pattern.fillIn (fun i => (fill i).toList) pattern.toList)

/-- **A name fits a pattern if and only if the pattern stands for it**: with some text in the place
of each asterisk, and every other character as it is, the pattern is the name. -/
theorem nameFits_iff_fillIn (name pattern : String) :
    nameFits name pattern = true ↔ ∃ fill : Nat → String, name = filledPattern fill pattern := by
  rw [nameFits, Pattern.fits_iff_fillIn]
  constructor
  · rintro ⟨fill, h⟩
    refine ⟨fun i => String.ofList (fill i), ?_⟩
    rw [filledPattern]
    simp only [String.toList_ofList]
    rw [← h, String.ofList_toList]
  · rintro ⟨fill, rfl⟩
    exact ⟨fun i => (fill i).toList, by rw [filledPattern, String.toList_ofList]⟩

/-- An asterisk may stand for an asterisk, and asterisks in a row for different texts. -/
example : nameFits "a*b" "**a**b*" = true := by decide +kernel

end SymbolTree
