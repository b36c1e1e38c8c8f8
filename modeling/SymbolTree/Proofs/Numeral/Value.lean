import Mathlib.Data.Nat.Digits.Defs
import SymbolTree.Proofs.Numeral.Grammar

/-!
# The integer that a numeral denotes

What an integer numeral denotes is said here without the reader: a digit character stands for a digit
of its base (`StandsFor`), a run of them for the number with these digits (`Spells`), and a sign in
front for that number or its negative (`Denotes`).

The reader finds this integer, whatever its size.  A machine word is then made of the absolute value
first, and the sign comes last.  So the least word, whose absolute value is no word, cannot be read.

## Main statements

* `integer?_eq_some_iff` — the reader finds the integer that a text denotes.
* `toInt64_of_denotes` — which of these integers become machine words.
* `toInt64_toString` — a machine word that was written is read back unless it is the least.
-/

set_option autoImplicit false
namespace SymbolTree.Numeral

/-! ## Denotation -/

/-- The character stands for the digit `d` of a base. -/
def StandsFor (base : Nat) (c : Char) (d : Nat) : Prop :=
  d < base ∧ (c = Nat.digitChar d ∨ c = (Nat.digitChar d).toUpper)

instance (base : Nat) (c : Char) (d : Nat) : Decidable (StandsFor base c d) :=
  inferInstanceAs (Decidable (_ ∧ _))

/-- The characters are digits of a base, at least one, and those of the number `n`. -/
def Spells (base : Nat) (cs : List Char) (n : Nat) : Prop :=
  cs ≠ [] ∧ ∃ ds, List.Forall₂ (StandsFor base) cs ds ∧ Nat.ofDigits base ds.reverse = n

/-- What a text without a sign denotes. -/
inductive Magnitude : List Char → Nat → Prop
  | decimal {cs : List Char} {n : Nat} : Spells 10 cs n → Magnitude cs n
  | hexadecimal {x : Char} {cs : List Char} {n : Nat} :
      x ∈ ['x', 'X'] → Spells 16 cs n → Magnitude ('0' :: x :: cs) n

/-- The integer that a text without blanks at its ends denotes. -/
inductive Denotes : List Char → Int → Prop
  | empty : Denotes [] 0
  | unsigned {cs : List Char} {n : Nat} : Magnitude cs n → Denotes cs n
  | plus {cs : List Char} {n : Nat} : Magnitude cs n → Denotes ('+' :: cs) n
  | minus {cs : List Char} {n : Nat} : Magnitude cs n → Denotes ('-' :: cs) (-n)

/-! ## Digits -/

theorem standsFor_ten_iff (c : Char) (d : Nat) :
    StandsFor 10 c d ↔ isDigit c = true ∧ digitValue c = d := by
  constructor
  · rintro ⟨hd, hc⟩
    have hall : ∀ d < 10, (isDigit (Nat.digitChar d) = true ∧ digitValue (Nat.digitChar d) = d) ∧
        isDigit (Nat.digitChar d).toUpper = true ∧ digitValue (Nat.digitChar d).toUpper = d := by
      decide
    rcases hc with rfl | rfl
    · exact (hall d hd).1
    · exact (hall d hd).2
  · rintro ⟨hc, rfl⟩
    have hall : (decimalDigits.all fun c => decide (StandsFor 10 c (digitValue c))) = true := by
      decide
    exact of_decide_eq_true (List.all_eq_true.1 hall c (isDigit_iff.1 hc))

theorem standsFor_sixteen_iff (c : Char) (d : Nat) :
    StandsFor 16 c d ↔ isHexDigit c = true ∧ digitValue c = d := by
  constructor
  · rintro ⟨hd, hc⟩
    have hall : ∀ d < 16, (isHexDigit (Nat.digitChar d) = true ∧
        digitValue (Nat.digitChar d) = d) ∧ isHexDigit (Nat.digitChar d).toUpper = true ∧
          digitValue (Nat.digitChar d).toUpper = d := by
      decide
    rcases hc with rfl | rfl
    · exact (hall d hd).1
    · exact (hall d hd).2
  · rintro ⟨hc, rfl⟩
    have hall : (hexDigits.all fun c => decide (StandsFor 16 c (digitValue c))) = true := by
      decide
    exact of_decide_eq_true (List.all_eq_true.1 hall c (isHexDigit_iff.1 hc))

section
variable {base n : Nat} {cs : List Char} {digit : Char → Bool}

theorem ofDigits_eq : ofDigits base cs = Nat.ofDigits base (cs.map digitValue).reverse := by
  induction cs using List.reverseRecOn with
  | nil => rfl
  | append_singleton cs c ih =>
    rw [ofDigits, List.foldl_append, List.map_append, List.reverse_append, ← ofDigits, ih]
    simp only [List.foldl_cons, List.foldl_nil, List.map_cons, List.map_nil, List.reverse_singleton,
      List.singleton_append, Nat.ofDigits_cons]
    rw [Nat.add_comm, Nat.mul_comm]

/-- The reader of digits finds the number that is spelled. -/
theorem spells_iff (hdigit : ∀ c d, StandsFor base c d ↔ digit c = true ∧ digitValue c = d) :
    Spells base cs n ↔ (!cs.isEmpty && cs.all digit) = true ∧ ofDigits base cs = n := by
  have hforall : ∀ ds, List.Forall₂ (StandsFor base) cs ds ↔
      (∀ c ∈ cs, digit c = true) ∧ cs.map digitValue = ds := by
    intro ds
    have hrel : StandsFor base = fun c d => digit c = true ∧ digitValue c = d := by
      funext c d
      exact propext (hdigit c d)
    rw [hrel, List.forall₂_and_left, ← List.forall₂_eq_eq_eq, List.forall₂_map_left_iff]
  rw [Spells, ofDigits_eq, Bool.and_eq_true, List.all_eq_true, Bool.not_eq_true',
    List.isEmpty_eq_false_iff, and_assoc]
  simp only [hforall, and_assoc, exists_and_left, exists_eq_left']

/-! ## The readers -/

/-- The reader finds what the digits denote, in either base. -/
theorem magnitude?_eq_some_iff : magnitude? cs = some n ↔ Magnitude cs n := by
  by_cases hcs : ∃ x ∈ ['x', 'X'], ∃ hex, cs = '0' :: x :: hex
  · obtain ⟨x, hx, hex, rfl⟩ := hcs
    rw [magnitude?_prefixed hx, Option.ite_none_right_eq_some, Option.some_inj,
      ← spells_iff standsFor_sixteen_iff]
    constructor
    · exact fun h => .hexadecimal hx h
    · intro h
      cases h with
      | decimal h =>
        have hdigits := ((spells_iff standsFor_ten_iff).1 h).1
        exact absurd (mem_digits_iff.2 hdigits) (prefixed_notMem_digits hx hex)
      | hexadecimal _ h => exact h
  · have hplain : ∀ x ∈ ['x', 'X'], ∀ hex, cs ≠ '0' :: x :: hex :=
      fun x hx hex h => hcs ⟨x, hx, hex, h⟩
    rw [magnitude?_plain hplain, Option.ite_none_right_eq_some, Option.some_inj,
      ← spells_iff standsFor_ten_iff]
    constructor
    · exact .decimal
    · intro h
      cases h with
      | decimal h => exact h
      | hexadecimal hx h => exact absurd rfl (hplain _ hx _)

theorem ne_sign_of_magnitude (h : Magnitude cs n) : ∀ c ∈ cs.head?, c ≠ '+' ∧ c ≠ '-' :=
  ne_sign_of_mem_integer (isSome_magnitude?_iff.1 (by rw [magnitude?_eq_some_iff.2 h]; rfl))

end

section
variable {s : String} {t : List Char} {v : Int}

/-- **The reader finds the integer that a text denotes.** -/
theorem integer?_eq_some_iff (h : Trimmed s.toList t) : integer? s = some v ↔ Denotes t v := by
  rw [integer?, ← trimmed_iff.1 h]
  split
  · rw [Option.some_inj]
    constructor
    · rintro rfl
      exact .empty
    · intro hv
      cases hv with
      | empty => rfl
      | unsigned hv =>
        cases hv with
        | decimal hv => exact absurd rfl hv.1
  · next hne =>
    simp only [Option.map_eq_some_iff, magnitude?_eq_some_iff]
    constructor
    · rintro ⟨n, hn, rfl⟩
      unfold splitSign at hn ⊢
      split at hn
      · exact .plus hn
      · exact .minus hn
      · exact .unsigned hn
    · intro hv
      cases hv with
      | empty => exact absurd rfl (hne ·)
      | unsigned hv =>
        rw [splitSign_of_ne_sign (ne_sign_of_magnitude hv)]
        exact ⟨_, hv, rfl⟩
      | plus hv => exact ⟨_, hv, rfl⟩
      | minus hv => exact ⟨_, hv, rfl⟩

/-- The texts that count as integers are those that denote one. -/
theorem isInteger_iff_denotes (h : Trimmed s.toList t) : isInteger s = true ↔ ∃ v, Denotes t v := by
  rw [isInteger, Option.isSome_iff_exists]
  exact exists_congr fun v => integer?_eq_some_iff h

/-- The absolute value has to be a machine word before the sign is applied. -/
theorem toInt64_of_denotes (h : Trimmed s.toList t) (hv : Denotes t v) :
    (toInt64 s).toInt = if v.natAbs < 2 ^ 63 then v else 0 := by
  rw [toInt64_eq, (integer?_eq_some_iff h).2 hv]
  rfl

/-- Every integer but the least has the value that it denotes. -/
theorem toInt64_exact_iff (h : Trimmed s.toList t) (hv : Denotes t v) :
    (toInt64 s).toInt = (if -2 ^ 63 ≤ v ∧ v < 2 ^ 63 then v else 0) ↔ v ≠ -2 ^ 63 := by
  rw [toInt64_of_denotes h hv]
  split <;> split <;> omega

end

/-! ## What was written -/

theorem trimmed_self {t : List Char} (ht : ∀ c ∈ t, isBlank c = false) : Trimmed t t where
  within := ⟨[], [], by simp, List.forall_mem_nil _, List.forall_mem_nil _⟩
  first c hc := ht c (List.mem_of_head? hc)
  last c hc := ht c (List.mem_of_getLast? hc)

theorem not_isBlank_of_isDigit {c : Char} (hc : isDigit c = true) : isBlank c = false := by
  have hall : (decimalDigits.all fun c => isBlank c == false) = true := by decide
  exact eq_of_beq (List.all_eq_true.1 hall c (isDigit_iff.1 hc))

theorem magnitude_toDigits (n : Nat) : Magnitude (Nat.toDigits 10 n) n := by
  refine .decimal ((spells_iff standsFor_ten_iff).2 ⟨mem_digits_iff.1 (mem_digits.2 ?_), ?_⟩)
  · exact ⟨Nat.toDigits_ne_nil, fun c hc => isDigit_of_mem_toDigits hc⟩
  · exact ofDigits_toDigits n

/-- An integer is written as a text that denotes it. -/
theorem denotes_toString (v : Int) : Denotes (toString v).toList v := by
  cases v with
  | ofNat n =>
    rw [show (toString (Int.ofNat n)).toList = Nat.toDigits 10 n from toList_toString_nat n]
    exact .unsigned (magnitude_toDigits n)
  | negSucc n =>
    rw [toList_toString_negSucc]
    exact .minus (magnitude_toDigits (n + 1))

theorem trimmed_toString (v : Int) : Trimmed (toString v).toList (toString v).toList := by
  refine trimmed_self ?_
  cases v with
  | ofNat n =>
    rw [show (toString (Int.ofNat n)).toList = Nat.toDigits 10 n from toList_toString_nat n]
    exact fun c hc => not_isBlank_of_isDigit (isDigit_of_mem_toDigits hc)
  | negSucc n =>
    rw [toList_toString_negSucc, List.forall_mem_cons]
    exact ⟨by decide, fun c hc => not_isBlank_of_isDigit (isDigit_of_mem_toDigits hc)⟩

/-- A machine word that was written is read back unless it is the least. -/
theorem toInt64_toString (v : Int64) :
    toInt64 (toString v.toInt) = if v = Int64.minValue then 0 else v := by
  have hlow : -2 ^ 63 ≤ v.toInt := v.le_toInt
  have hhigh : v.toInt < 2 ^ 63 := v.toInt_lt
  have hleast : v = Int64.minValue ↔ v.toInt = -2 ^ 63 := by
    rw [← Int64.toInt_inj]
    rfl
  rw [← Int64.toInt_inj, toInt64_of_denotes (trimmed_toString _) (denotes_toString _)]
  by_cases hv : v = Int64.minValue
  · rw [if_pos hv, hleast.1 hv]
    rfl
  · have hne : v.toInt ≠ -2 ^ 63 := fun h => hv (hleast.2 h)
    rw [if_neg hv, if_pos (by omega)]

end SymbolTree.Numeral
