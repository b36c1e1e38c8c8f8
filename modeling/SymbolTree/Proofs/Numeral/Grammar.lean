import Mathlib.Computability.RegularExpressions
import SymbolTree.Proofs.Numeral.Digits

/-!
# The grammar of numerals

A text is recognized as a number by looking through its characters from the front.  The texts that
pass are those of two regular expressions, over the text without the blanks at its ends
(`Trimmed`): `integerNumeral` and `decimalNumeral`.  The empty text passes in addition.

The reader of a sign takes one off whenever it sees one, so it answers for the expression with an
optional sign in front as long as the rest of a numeral never begins with another (`mem_sign_mul`).
The reader of digits takes as many as it can; that loses nothing, since what may follow in a numeral,
a point or the mark of an exponent, is no digit.

## Main statements

* `trimmed_iff` — there is one way to take the blanks off a text.
* `isSome_magnitude?_iff`, `isSome_unsigned?_iff` — the parts of a numeral behind its sign.
* `recognized_iff` — what is recognized as an integer, as a decimal number and as a number.
-/

set_option autoImplicit false
namespace SymbolTree.Numeral

open RegularExpression

/-! ## Regular expressions -/

/-- One of the given characters. -/
def anyOf (cs : List Char) : RegularExpression Char := cs.foldr (fun c r => char c + r) 0

/-- A part that may be left out. -/
def optional (r : RegularExpression Char) : RegularExpression Char := 1 + r

/-- A part once or several times. -/
def oneOrMore (r : RegularExpression Char) : RegularExpression Char := r * star r

section
variable {r : RegularExpression Char} {cs w : List Char}

theorem mem_anyOf : w ∈ (anyOf cs).matches' ↔ ∃ c ∈ cs, w = [c] := by
  induction cs with
  | nil => simp [anyOf, matches'_zero, Language.notMem_zero]
  | cons c cs ih =>
    rw [anyOf, List.foldr_cons, matches'_add, Language.mem_add, matches'_char, ← anyOf, ih]
    simp only [List.mem_cons, exists_eq_or_imp]
    rfl

theorem mem_optional : w ∈ (optional r).matches' ↔ w = [] ∨ w ∈ r.matches' := by
  rw [optional, matches'_add, Language.mem_add, matches'_epsilon, Language.mem_one]

theorem mem_anyOf_mul :
    w ∈ (anyOf cs * r).matches' ↔ ∃ c ∈ cs, ∃ v ∈ r.matches', w = c :: v := by
  rw [matches'_mul, Language.mem_mul]
  constructor
  · rintro ⟨u, hu, v, hv, rfl⟩
    obtain ⟨c, hc, rfl⟩ := mem_anyOf.1 hu
    exact ⟨c, hc, v, hv, rfl⟩
  · rintro ⟨c, hc, v, hv, rfl⟩
    exact ⟨[c], mem_anyOf.2 ⟨c, hc, rfl⟩, v, hv, rfl⟩

theorem mem_char_mul {c : Char} : w ∈ (char c * r).matches' ↔ ∃ v ∈ r.matches', w = c :: v := by
  rw [matches'_mul, Language.mem_mul]
  constructor
  · rintro ⟨u, hu, v, hv, rfl⟩
    obtain rfl : u = [c] := hu
    exact ⟨v, hv, rfl⟩
  · rintro ⟨v, hv, rfl⟩
    exact ⟨[c], rfl, v, hv, rfl⟩

/-- Characters of a class in any number are the texts that hold no others. -/
theorem mem_star_anyOf : w ∈ (star (anyOf cs)).matches' ↔ ∀ c ∈ w, c ∈ cs := by
  rw [matches'_star, Language.mem_kstar]
  constructor
  · rintro ⟨words, rfl, hwords⟩ c hc
    obtain ⟨word, hword, hc⟩ := List.mem_flatten.1 hc
    obtain ⟨d, hd, rfl⟩ := mem_anyOf.1 (hwords word hword)
    obtain rfl := List.mem_singleton.1 hc
    exact hd
  · intro hw
    refine ⟨w.map fun c => [c], ?_, ?_⟩
    · rw [← List.flatMap_def, List.flatMap_singleton']
    · intro word hword
      obtain ⟨c, hc, rfl⟩ := List.mem_map.1 hword
      exact mem_anyOf.2 ⟨c, hw c hc, rfl⟩

theorem mem_oneOrMore_anyOf :
    w ∈ (oneOrMore (anyOf cs)).matches' ↔ w ≠ [] ∧ ∀ c ∈ w, c ∈ cs := by
  rw [oneOrMore, mem_anyOf_mul]
  constructor
  · rintro ⟨c, hc, v, hv, rfl⟩
    exact ⟨List.cons_ne_nil _ _, List.forall_mem_cons.2 ⟨hc, mem_star_anyOf.1 hv⟩⟩
  · rintro ⟨hne, hw⟩
    cases w with
    | nil => exact absurd rfl hne
    | cons c v =>
      obtain ⟨hc, hv⟩ := List.forall_mem_cons.1 hw
      exact ⟨c, hc, v, mem_star_anyOf.2 hv, rfl⟩

end

/-! ## The two kinds of numerals -/

/-- A plus or a minus, or nothing. -/
def sign : RegularExpression Char := optional (anyOf ['+', '-'])

/-- Decimal digits, at least one. -/
def digits : RegularExpression Char := oneOrMore (anyOf decimalDigits)

/-- `0x` and hexadecimal digits, at least one. -/
def hexMagnitude : RegularExpression Char :=
  char '0' * (anyOf ['x', 'X'] * oneOrMore (anyOf hexDigits))

/-- Digits with a point among them, behind them or in front of them. -/
def significand : RegularExpression Char :=
  digits * optional (char '.' * star (anyOf decimalDigits)) + char '.' * digits

/-- The mark of an exponent, a sign and digits. -/
def exponentPart : RegularExpression Char := anyOf ['e', 'E'] * (sign * digits)

/-- `[+-]?(0[xX][0-9a-fA-F]+|[0-9]+)` -/
def integerNumeral : RegularExpression Char := sign * (hexMagnitude + digits)

/-- `[+-]?([0-9]+(\.[0-9]*)?|\.[0-9]+)([eE][+-]?[0-9]+)?` -/
def decimalNumeral : RegularExpression Char := sign * (significand * optional exponentPart)

section
variable {r : RegularExpression Char} {w : List Char}

theorem mem_digits : w ∈ digits.matches' ↔ w ≠ [] ∧ ∀ c ∈ w, isDigit c = true := by
  rw [digits, mem_oneOrMore_anyOf]
  simp only [isDigit_iff]

theorem mem_digits_iff : w ∈ digits.matches' ↔ (!w.isEmpty && w.all isDigit) = true := by
  rw [mem_digits, Bool.and_eq_true, List.all_eq_true, Bool.not_eq_true', List.isEmpty_eq_false_iff]

theorem mem_hexMagnitude :
    w ∈ hexMagnitude.matches' ↔
      ∃ x ∈ ['x', 'X'], ∃ ds, w = '0' :: x :: ds ∧ (!ds.isEmpty && ds.all isHexDigit) = true := by
  rw [hexMagnitude, mem_char_mul]
  simp only [mem_anyOf_mul, mem_oneOrMore_anyOf, Bool.and_eq_true, List.all_eq_true,
    Bool.not_eq_true', List.isEmpty_eq_false_iff, isHexDigit_iff]
  constructor
  · rintro ⟨_, ⟨x, hx, ds, hds, rfl⟩, rfl⟩
    exact ⟨x, hx, ds, rfl, hds⟩
  · rintro ⟨x, hx, ds, rfl, hds⟩
    exact ⟨_, ⟨x, hx, ds, hds, rfl⟩, rfl⟩

/-- The mark of a hexadecimal numeral is no part of a significand. -/
theorem not_isDigit_of_mark {x : Char} (hx : x ∈ ['x', 'X']) : isDigit x = false ∧ x ≠ '.' := by
  have hx : x = 'x' ∨ x = 'X' := by simpa using hx
  rcases hx with rfl | rfl <;> decide

/-- A text with `0x` in front is no run of decimal digits. -/
theorem prefixed_notMem_digits {x : Char} (hx : x ∈ ['x', 'X']) (hex : List Char) :
    '0' :: x :: hex ∉ digits.matches' := fun h =>
  Bool.noConfusion ((not_isDigit_of_mark hx).1.symm.trans ((mem_digits.1 h).2 x (by simp)))

theorem ne_sign_of_isDigit {c : Char} (hc : isDigit c = true) : c ≠ '+' ∧ c ≠ '-' := by
  constructor <;> rintro rfl <;> exact absurd hc (by decide)

theorem ne_sign_of_mem_digits (hw : w ∈ digits.matches') : ∀ c ∈ w.head?, c ≠ '+' ∧ c ≠ '-' :=
  fun c hc => ne_sign_of_isDigit ((mem_digits.1 hw).2 c (List.mem_of_head? hc))

theorem splitSign_of_ne_sign (hw : ∀ c ∈ w.head?, c ≠ '+' ∧ c ≠ '-') : splitSign w = (false, w) := by
  unfold splitSign
  split
  · exact absurd rfl (hw '+' rfl).1
  · exact absurd rfl (hw '-' rfl).2
  · rfl

/-- The reader of a sign finds what an optional sign stands in front of, provided that this does not
begin with a sign itself. -/
theorem mem_sign_mul (hr : ∀ v ∈ r.matches', ∀ c ∈ v.head?, c ≠ '+' ∧ c ≠ '-') :
    w ∈ (sign * r).matches' ↔ (splitSign w).2 ∈ r.matches' := by
  rw [matches'_mul, Language.mem_mul]
  constructor
  · rintro ⟨u, hu, v, hv, rfl⟩
    rcases mem_optional.1 hu with rfl | hu
    · rw [List.nil_append, splitSign_of_ne_sign (hr v hv)]
      exact hv
    · obtain ⟨c, hc, rfl⟩ := mem_anyOf.1 hu
      have hc : c = '+' ∨ c = '-' := by simpa using hc
      rcases hc with rfl | rfl <;> exact hv
  · intro hv
    unfold splitSign at hv
    split at hv
    · exact ⟨['+'], mem_optional.2 (.inr (mem_anyOf.2 ⟨_, by simp, rfl⟩)), _, hv, rfl⟩
    · exact ⟨['-'], mem_optional.2 (.inr (mem_anyOf.2 ⟨_, by simp, rfl⟩)), _, hv, rfl⟩
    · exact ⟨[], mem_optional.2 (.inl rfl), _, hv, rfl⟩

end

/-! ## The readers -/

section
variable {cs : List Char}

theorem magnitude?_prefixed {x : Char} (hx : x ∈ ['x', 'X']) (hex : List Char) :
    magnitude? ('0' :: x :: hex) =
      if !hex.isEmpty && hex.all isHexDigit then some (ofDigits 16 hex) else none := by
  have hx : x = 'x' ∨ x = 'X' := by simpa using hx
  rcases hx with rfl | rfl <;> rfl

theorem magnitude?_plain (hcs : ∀ x ∈ ['x', 'X'], ∀ hex, cs ≠ '0' :: x :: hex) :
    magnitude? cs = if !cs.isEmpty && cs.all isDigit then some (ofDigits 10 cs) else none := by
  unfold magnitude?
  split
  · exact absurd rfl (hcs 'x' (by simp) _)
  · exact absurd rfl (hcs 'X' (by simp) _)
  · rfl

/-- What the reader of integers accepts behind the sign. -/
theorem isSome_magnitude?_iff :
    (magnitude? cs).isSome = true ↔ cs ∈ (hexMagnitude + digits).matches' := by
  rw [matches'_add, Language.mem_add, mem_hexMagnitude]
  by_cases hcs : ∃ x ∈ ['x', 'X'], ∃ hex, cs = '0' :: x :: hex
  · obtain ⟨x, hx, hex, rfl⟩ := hcs
    rw [magnitude?_prefixed hx, Option.isSome_ite, or_iff_left (prefixed_notMem_digits hx hex)]
    constructor
    · exact fun h => ⟨x, hx, hex, rfl, h⟩
    · rintro ⟨_, -, _, ⟨⟩, hhex⟩
      exact hhex
  · have hplain : ∀ x ∈ ['x', 'X'], ∀ hex, cs ≠ '0' :: x :: hex :=
      fun x hx hex h => hcs ⟨x, hx, hex, h⟩
    rw [magnitude?_plain hplain, Option.isSome_ite, ← mem_digits_iff, or_iff_right]
    rintro ⟨x, hx, hex, h, -⟩
    exact hplain x hx hex h

/-- What the reader of exponents accepts. -/
theorem isSome_exponent?_iff :
    (exponent? cs).isSome = true ↔ cs ∈ (optional exponentPart).matches' := by
  rw [mem_optional, exponentPart, mem_anyOf_mul]
  cases cs with
  | nil => simp [exponent?]
  | cons c cs =>
    rw [exponent?, or_iff_right (List.cons_ne_nil c cs)]
    by_cases hc : c ∈ ['e', 'E']
    · have hmark : (decide (c = 'e') || decide (c = 'E')) = true := by simpa using hc
      rw [if_pos hmark, Option.isSome_ite, ← mem_digits_iff,
        ← mem_sign_mul fun v hv => ne_sign_of_mem_digits hv]
      constructor
      · exact fun h => ⟨c, hc, cs, h, rfl⟩
      · rintro ⟨_, -, _, h, ⟨⟩⟩
        exact h
    · have hmark : ¬ (decide (c = 'e') || decide (c = 'E')) = true := by simpa using hc
      rw [if_neg hmark]
      constructor
      · exact fun h => Bool.noConfusion h
      · rintro ⟨_, hc', _, -, ⟨⟩⟩
        exact absurd hc' hc

/-- Digits, a point and digits, as the reader of decimal numbers takes them. -/
theorem unsigned?_point {negative : Bool} {whole fraction tail : List Char}
    (hwhole : ∀ c ∈ whole, isDigit c = true) (hfraction : ∀ c ∈ fraction, isDigit c = true)
    (htail : ∀ c ∈ tail.head?, isDigit c = false) :
    (unsigned? negative (whole ++ '.' :: (fraction ++ tail))).isSome = true ↔
      whole ++ fraction ≠ [] ∧ (exponent? tail).isSome = true := by
  have hpoint : ∀ c ∈ ('.' :: (fraction ++ tail)).head?, isDigit c = false := by
    rintro _ ⟨⟩
    decide
  obtain ⟨htake, hdrop⟩ := span_digits hwhole hpoint
  obtain ⟨htake', hdrop'⟩ := span_digits hfraction htail
  rw [unsigned?]
  simp only [htake, hdrop, htake', hdrop', List.isEmpty_iff]
  split <;> simp_all

/-- Digits without a point, as the reader of decimal numbers takes them. -/
theorem unsigned?_whole {negative : Bool} {whole tail : List Char}
    (hwhole : ∀ c ∈ whole, isDigit c = true)
    (htail : ∀ c ∈ tail.head?, isDigit c = false ∧ c ≠ '.') :
    (unsigned? negative (whole ++ tail)).isSome = true ↔
      whole ≠ [] ∧ (exponent? tail).isSome = true := by
  obtain ⟨htake, hdrop⟩ := span_digits hwhole fun c hc => (htail c hc).1
  rw [unsigned?]
  simp only [htake, hdrop]
  split
  · exact absurd rfl (htail '.' rfl).2
  · simp only [List.append_nil, List.isEmpty_iff]
    split <;> simp_all

/-- What may follow a significand is no digit and no point. -/
theorem head_exponentPart {v : List Char} (hv : v ∈ (optional exponentPart).matches') :
    ∀ c ∈ v.head?, isDigit c = false ∧ c ≠ '.' := by
  rcases mem_optional.1 hv with rfl | hv
  · exact fun c hc => nomatch hc
  · obtain ⟨c, hc, v, -, rfl⟩ := mem_anyOf_mul.1 hv
    have hc : c = 'e' ∨ c = 'E' := by simpa using hc
    rintro _ ⟨⟩
    rcases hc with rfl | rfl <;> decide

theorem mem_significand {u : List Char} :
    u ∈ significand.matches' ↔ u ∈ digits.matches' ∨
      ∃ whole fraction, u = whole ++ '.' :: fraction ∧ (∀ c ∈ whole, isDigit c = true) ∧
        (∀ c ∈ fraction, isDigit c = true) ∧ whole ++ fraction ≠ [] := by
  have hstar : ∀ w, w ∈ (star (anyOf decimalDigits)).matches' ↔ ∀ c ∈ w, isDigit c = true := by
    intro w
    rw [mem_star_anyOf]
    simp only [isDigit_iff]
  rw [significand, matches'_add, Language.mem_add, mem_char_mul, matches'_mul, Language.mem_mul]
  constructor
  · rintro (⟨whole, hwhole, point, hpoint, rfl⟩ | ⟨fraction, hfraction, rfl⟩)
    · rcases mem_optional.1 hpoint with rfl | hpoint
      · rw [List.append_nil]
        exact .inl hwhole
      · obtain ⟨fraction, hfraction, rfl⟩ := mem_char_mul.1 hpoint
        obtain ⟨hne, hwhole⟩ := mem_digits.1 hwhole
        exact .inr ⟨whole, fraction, rfl, hwhole, (hstar _).1 hfraction,
          List.append_ne_nil_of_left_ne_nil hne _⟩
    · obtain ⟨hne, hfraction⟩ := mem_digits.1 hfraction
      exact .inr ⟨[], fraction, rfl, List.forall_mem_nil _, hfraction, hne⟩
  · rintro (hu | ⟨whole, fraction, rfl, hwhole, hfraction, hne⟩)
    · exact .inl ⟨u, hu, [], mem_optional.2 (.inl rfl), List.append_nil u⟩
    · by_cases hempty : whole = []
      · subst hempty
        exact .inr ⟨fraction, mem_digits.2 ⟨hne, hfraction⟩, rfl⟩
      · exact .inl ⟨whole, mem_digits.2 ⟨hempty, hwhole⟩, '.' :: fraction,
          mem_optional.2 (.inr (mem_char_mul.2 ⟨fraction, (hstar _).2 hfraction, rfl⟩)), rfl⟩

/-- What the reader of decimal numbers accepts behind the sign. -/
theorem isSome_unsigned?_iff {negative : Bool} :
    (unsigned? negative cs).isSome = true ↔ cs ∈ (significand * optional exponentPart).matches' := by
  rw [matches'_mul, Language.mem_mul]
  constructor
  · intro h
    obtain ⟨whole, rest, rfl, hwhole, hrest⟩ := exists_span cs
    by_cases hpoint : '.' ∈ rest.head?
    · obtain ⟨rest, rfl⟩ := List.head?_eq_some_iff.1 hpoint
      obtain ⟨fraction, tail, rfl, hfraction, htail⟩ := exists_span rest
      obtain ⟨hne, hexponent⟩ := (unsigned?_point hwhole hfraction htail).1 h
      exact ⟨whole ++ '.' :: fraction,
        mem_significand.2 (.inr ⟨whole, fraction, rfl, hwhole, hfraction, hne⟩), tail,
        isSome_exponent?_iff.1 hexponent, by rw [List.append_assoc, List.cons_append]⟩
    · have htail : ∀ c ∈ rest.head?, isDigit c = false ∧ c ≠ '.' :=
        fun c hc => ⟨hrest c hc, fun e => hpoint (e ▸ hc)⟩
      obtain ⟨hne, hexponent⟩ := (unsigned?_whole hwhole htail).1 h
      exact ⟨whole, mem_significand.2 (.inl (mem_digits.2 ⟨hne, hwhole⟩)), rest,
        isSome_exponent?_iff.1 hexponent, rfl⟩
  · rintro ⟨u, hu, v, hv, rfl⟩
    have htail := head_exponentPart hv
    rw [← isSome_exponent?_iff] at hv
    rcases mem_significand.1 hu with hu | ⟨whole, fraction, rfl, hwhole, hfraction, hne⟩
    · obtain ⟨hne, hu⟩ := mem_digits.1 hu
      exact (unsigned?_whole hu htail).2 ⟨hne, hv⟩
    · rw [List.append_assoc, List.cons_append]
      exact (unsigned?_point hwhole hfraction fun c hc => (htail c hc).1).2 ⟨hne, hv⟩

end

/-! ## Blanks -/

/-- `t` is the text `s` without the blanks at its two ends. -/
structure Trimmed (s t : List Char) : Prop where
  /-- Only blanks were taken off, at the front and at the back. -/
  within : ∃ front back, s = front ++ t ++ back ∧ (∀ c ∈ front, isBlank c = true) ∧
    ∀ c ∈ back, isBlank c = true
  /-- No blank is left in front. -/
  first : ∀ c ∈ t.head?, isBlank c = false
  /-- No blank is left behind. -/
  last : ∀ c ∈ t.getLast?, isBlank c = false

section
variable {s t : List Char}

theorem dropWhile_of_head? {p : Char → Bool} {cs : List Char} (h : ∀ c ∈ cs.head?, p c = false) :
    cs.dropWhile p = cs := by
  cases cs with
  | nil => rfl
  | cons c cs => exact List.dropWhile_cons_of_neg (by rw [h c rfl]; decide)

/-- There is one way to take the blanks off a text. -/
theorem trimmed_iff : Trimmed s t ↔ t = trim s := by
  constructor
  · rintro ⟨⟨front, back, rfl, hfront, hback⟩, hfirst, hlast⟩
    rw [trim, List.append_assoc, List.dropWhile_append_of_pos hfront]
    by_cases hempty : t = []
    · have hgone : back.dropWhile isBlank = [] := by
        have h : (back ++ []).dropWhile isBlank = [] := List.dropWhile_append_of_pos hback
        rwa [List.append_nil] at h
      rw [hempty, List.nil_append, hgone]
      rfl
    · have hhead : ∀ c ∈ (t ++ back).head?, isBlank c = false := by
        rwa [List.head?_append_of_ne_nil _ hempty]
      have hend : ∀ c ∈ t.reverse.head?, isBlank c = false := by
        rwa [List.head?_reverse]
      rw [dropWhile_of_head? hhead, List.reverse_append,
        List.dropWhile_append_of_pos fun c hc => hback c (List.mem_reverse.1 hc),
        dropWhile_of_head? hend, List.reverse_reverse]
  · rintro rfl
    obtain ⟨back, hback, hblank⟩ : ∃ back, s.dropWhile isBlank = trim s ++ back ∧
        ∀ c ∈ back, isBlank c = true := by
      refine ⟨((s.dropWhile isBlank).reverse.takeWhile isBlank).reverse, ?_, fun c hc => ?_⟩
      · rw [trim, ← List.reverse_append, List.takeWhile_append_dropWhile, List.reverse_reverse]
      · exact List.all_eq_true.1 List.all_takeWhile c (List.mem_reverse.1 hc)
    have hfirst : ∀ c ∈ (s.dropWhile isBlank).head?, isBlank c = false := head?_dropWhile
    refine ⟨⟨s.takeWhile isBlank, back, ?_, List.all_eq_true.1 List.all_takeWhile, hblank⟩,
      fun c hc => ?_, fun c hc => ?_⟩
    · rw [List.append_assoc, ← hback, List.takeWhile_append_dropWhile]
    · refine hfirst c ?_
      rw [hback, List.head?_append, Option.mem_def.1 hc]
      rfl
    · rw [trim, List.getLast?_reverse] at hc
      exact head?_dropWhile c hc

end

/-! ## What is recognized -/

section
variable {s : String} {t : List Char}

theorem ne_sign_of_mem_integer {v : List Char} (hv : v ∈ (hexMagnitude + digits).matches') :
    ∀ c ∈ v.head?, c ≠ '+' ∧ c ≠ '-' := by
  rw [matches'_add, Language.mem_add] at hv
  rcases hv with hv | hv
  · obtain ⟨x, -, ds, rfl, -⟩ := mem_hexMagnitude.1 hv
    rintro _ ⟨⟩
    decide
  · exact ne_sign_of_mem_digits hv

theorem ne_sign_of_mem_decimal {v : List Char}
    (hv : v ∈ (significand * optional exponentPart).matches') :
    ∀ c ∈ v.head?, c ≠ '+' ∧ c ≠ '-' := by
  rw [matches'_mul, Language.mem_mul] at hv
  obtain ⟨u, hu, e, -, rfl⟩ := hv
  rcases mem_significand.1 hu with hu | ⟨whole, fraction, rfl, hwhole, -, -⟩
  · rw [List.head?_append_of_ne_nil _ (mem_digits.1 hu).1]
    exact ne_sign_of_mem_digits hu
  · cases whole with
    | nil =>
      rintro _ ⟨⟩
      decide
    | cons c whole =>
      rintro _ ⟨⟩
      exact ne_sign_of_isDigit (hwhole c List.mem_cons_self)

/-- What the reader of integers accepts. -/
theorem isInteger_iff (ht : Trimmed s.toList t) :
    isInteger s = true ↔ t = [] ∨ t ∈ integerNumeral.matches' := by
  rw [isInteger, integer?, ← trimmed_iff.1 ht]
  split
  · next h => simp
  · next h =>
    rw [Option.isSome_map, isSome_magnitude?_iff, integerNumeral,
      mem_sign_mul fun v hv => ne_sign_of_mem_integer hv, or_iff_right (h ·)]

/-- What the reader of decimal numbers accepts. -/
theorem isDecimal_iff (ht : Trimmed s.toList t) :
    isDecimal s = true ↔ t = [] ∨ t ∈ decimalNumeral.matches' := by
  rw [isDecimal, decimal?, ← trimmed_iff.1 ht]
  split
  · next h => simp
  · next h =>
    rw [isSome_unsigned?_iff, decimalNumeral,
      mem_sign_mul fun v hv => ne_sign_of_mem_decimal hv, or_iff_right (h ·)]

/-- Decimal digits are a significand on their own. -/
theorem decimal_of_digits (ht : t ∈ (sign * digits).matches') : t ∈ decimalNumeral.matches' := by
  rw [mem_sign_mul fun v hv => ne_sign_of_mem_digits hv] at ht
  rw [decimalNumeral, mem_sign_mul fun v hv => ne_sign_of_mem_decimal hv, matches'_mul,
    Language.mem_mul]
  exact ⟨_, mem_significand.2 (.inl ht), [], mem_optional.2 (.inl rfl), List.append_nil _⟩

theorem mem_integerNumeral :
    t ∈ integerNumeral.matches' ↔
      t ∈ (sign * hexMagnitude).matches' ∨ t ∈ (sign * digits).matches' := by
  rw [integerNumeral, matches'_mul, matches'_add, mul_add, Language.mem_add, ← matches'_mul,
    ← matches'_mul]

/-- The reader of decimal numbers stops at the `x`. -/
theorem isDecimal_of_hex (h : Trimmed s.toList t) (ht : t ∈ (sign * hexMagnitude).matches') :
    isDecimal s = false := by
  rw [mem_sign_mul fun v hv => ne_sign_of_mem_integer (.inl hv)] at ht
  obtain ⟨x, hx, ds, ht, -⟩ := mem_hexMagnitude.1 ht
  have hnone : exponent? (x :: ds) = none := by
    have hx : x = 'x' ∨ x = 'X' := by simpa using hx
    rcases hx with rfl | rfl <;> rfl
  rw [← Bool.not_eq_true, isDecimal_iff h]
  rintro (rfl | hdecimal)
  · cases ht
  · rw [decimalNumeral, mem_sign_mul fun v hv => ne_sign_of_mem_decimal hv, ht] at hdecimal
    have hread : (unsigned? false (['0'] ++ x :: ds)).isSome = true :=
      isSome_unsigned?_iff.2 hdecimal
    have hend : ∀ c ∈ (x :: ds).head?, isDigit c = false ∧ c ≠ '.' := by
      rintro _ ⟨⟩
      exact not_isDigit_of_mark hx
    have hzero : ∀ c ∈ ['0'], isDigit c = true := List.forall_mem_singleton.2 rfl
    have hrest := ((unsigned?_whole hzero hend).1 hread).2
    rw [hnone] at hrest
    exact Bool.noConfusion hrest

/-- **What is recognized as a number is exactly what the grammar says.**  Every decimal integer is
a decimal number as well, so that only the hexadecimal integers are numbers that are not decimal. -/
theorem recognized_iff (h : Trimmed s.toList t) :
    (isInteger s = true ↔ t = [] ∨ t ∈ integerNumeral.matches') ∧
      (isDecimal s = true ↔ t = [] ∨ t ∈ decimalNumeral.matches') ∧
      (t ∈ (sign * digits).matches' → isDecimal s = true) ∧
      (isNumber s = true ∧ isDecimal s = false ↔ t ∈ (sign * hexMagnitude).matches') := by
  have hdigits : t ∈ (sign * digits).matches' → isDecimal s = true := fun ht =>
    (isDecimal_iff h).2 (.inr (decimal_of_digits ht))
  refine ⟨isInteger_iff h, isDecimal_iff h, hdigits, ?_⟩
  rw [isNumber, Bool.or_eq_true]
  constructor
  · rintro ⟨hinteger | hdecimal, hnot⟩
    · rcases (isInteger_iff h).1 hinteger with hempty | ht
      · rw [(isDecimal_iff h).2 (.inl hempty)] at hnot
        exact Bool.noConfusion hnot
      · rcases mem_integerNumeral.1 ht with ht | ht
        · exact ht
        · rw [hdigits ht] at hnot
          exact Bool.noConfusion hnot
    · rw [hdecimal] at hnot
      exact Bool.noConfusion hnot
  · intro ht
    exact ⟨.inl ((isInteger_iff h).2 (.inr (mem_integerNumeral.2 (.inl ht)))),
      isDecimal_of_hex h ht⟩

/-- Behind a blank that is no ASCII character, and in front of a line break. -/
theorem recognized_iff_hex :
    Trimmed "\u00a0-0x1F\n".toList ['-', '0', 'x', '1', 'F'] ∧
      ['-', '0', 'x', '1', 'F'] ∈ (sign * hexMagnitude).matches' := by
  have h : Trimmed "\u00a0-0x1F\n".toList ['-', '0', 'x', '1', 'F'] :=
    trimmed_iff.2 (by decide +kernel)
  exact ⟨h, (recognized_iff h).2.2.2.1 ⟨by decide +kernel, by decide +kernel⟩⟩

end

end SymbolTree.Numeral
