import SymbolTree.Numeral

/-!
# Digits

The characters that count as digits, where a run of decimal digits ends, and the digits by which a
number is written.

## Main statements

* `isDigit_iff`, `isHexDigit_iff` — the digits, one by one.
* `span_digits` — a run of digits ends where something else follows.
* `ofDigits_toDigits` — the digits of a number denote it.
-/

set_option autoImplicit false
namespace SymbolTree.Numeral

/-! ## The characters -/

/-- The decimal digits. -/
def decimalDigits : List Char := ['0', '1', '2', '3', '4', '5', '6', '7', '8', '9']

/-- The hexadecimal digits of both cases. -/
def hexDigits : List Char :=
  decimalDigits ++ ['a', 'b', 'c', 'd', 'e', 'f', 'A', 'B', 'C', 'D', 'E', 'F']

theorem isDigit_iff {c : Char} : isDigit c = true ↔ c ∈ decimalDigits := by
  constructor
  · intro h
    rw [isDigit, Bool.and_eq_true, decide_eq_true_eq, decide_eq_true_eq] at h
    have hlow : 48 ≤ c.toNat := h.1
    have hhigh : c.toNat ≤ 57 := h.2
    have hall : ∀ n < 58, 48 ≤ n → Char.ofNat n ∈ decimalDigits := by decide
    rw [← Char.ofNat_toNat c]
    exact hall _ (by omega) hlow
  · have hall : decimalDigits.all isDigit = true := by decide
    exact List.all_eq_true.1 hall c

theorem isHexDigit_iff {c : Char} : isHexDigit c = true ↔ c ∈ hexDigits := by
  constructor
  · intro h
    have hrange : c.toNat < 103 := by
      simp only [isHexDigit, isDigit, Bool.or_eq_true, Bool.and_eq_true, decide_eq_true_eq] at h
      rcases h with (⟨-, h⟩ | ⟨-, h⟩) | ⟨-, h⟩
      · exact Nat.lt_of_le_of_lt (show c.toNat ≤ 57 from h) (by decide)
      · exact Nat.lt_of_le_of_lt (show c.toNat ≤ 102 from h) (by decide)
      · exact Nat.lt_of_le_of_lt (show c.toNat ≤ 70 from h) (by decide)
    have hall : ∀ n < 103, isHexDigit (Char.ofNat n) = true → Char.ofNat n ∈ hexDigits := by
      decide
    rw [← Char.ofNat_toNat c] at h ⊢
    exact hall _ hrange h
  · have hall : hexDigits.all isHexDigit = true := by decide
    exact List.all_eq_true.1 hall c

/-- A run of digits ends where something else follows. -/
theorem span_digits {ds rest : List Char} (hds : ∀ c ∈ ds, isDigit c = true)
    (hrest : ∀ c ∈ rest.head?, isDigit c = false) :
    (ds ++ rest).takeWhile isDigit = ds ∧ (ds ++ rest).dropWhile isDigit = rest := by
  rw [List.takeWhile_append_of_pos hds, List.dropWhile_append_of_pos hds]
  cases rest with
  | nil => exact ⟨List.append_nil ds, rfl⟩
  | cons c cs => simp [hrest c rfl]

theorem head?_dropWhile {p : Char → Bool} {cs : List Char} :
    ∀ c ∈ (cs.dropWhile p).head?, p c = false := by
  intro c hc
  have h := List.head?_dropWhile_not p cs
  rw [Option.mem_def.1 hc] at h
  exact h

/-- Every text is a run of digits with something else behind it. -/
theorem exists_span (cs : List Char) :
    ∃ ds rest, cs = ds ++ rest ∧ (∀ c ∈ ds, isDigit c = true) ∧
      ∀ c ∈ rest.head?, isDigit c = false :=
  ⟨cs.takeWhile isDigit, cs.dropWhile isDigit, List.takeWhile_append_dropWhile.symm,
    List.all_eq_true.1 List.all_takeWhile, head?_dropWhile⟩

/-! ## The digits of a number -/

theorem isDigit_of_mem_toDigits {n : Nat} {c : Char} (hc : c ∈ Nat.toDigits 10 n) :
    isDigit c = true := by
  have h := Nat.isDigit_of_mem_toDigits (by decide) (by decide) hc
  rw [Char.isDigit, Bool.and_eq_true, decide_eq_true_eq, decide_eq_true_eq] at h
  rw [isDigit, Bool.and_eq_true, decide_eq_true_eq, decide_eq_true_eq]
  exact h

/-- The digits of a number denote it. -/
theorem ofDigits_toDigits (n : Nat) : ofDigits 10 (Nat.toDigits 10 n) = n := by
  have hfold : ∀ (cs : List Char) (m : Nat), (∀ c ∈ cs, isDigit c = true) →
      cs.foldl (fun n c => n * 10 + digitValue c) m = Nat.ofDigitChars 10 cs m := by
    intro cs
    induction cs with
    | nil => exact fun m _ => Nat.ofDigitChars_nil.symm
    | cons c cs ih =>
      intro m hcs
      obtain ⟨hc, hcs⟩ := List.forall_mem_cons.1 hcs
      rw [List.foldl_cons, Nat.ofDigitChars_cons, ih _ hcs, digitValue, if_pos hc, Nat.mul_comm]
  rw [ofDigits, hfold _ 0 fun c hc => isDigit_of_mem_toDigits hc, Nat.ofDigitChars_ten_toDigits]

theorem toList_toString_nat (n : Nat) : (toString n).toList = Nat.toDigits 10 n := by
  rw [Nat.toString_eq_ofList_toDigits, String.toList_ofList]

theorem toList_toString_negSucc (n : Nat) :
    (toString (Int.negSucc n)).toList = '-' :: Nat.toDigits 10 (n + 1) := by
  rw [show toString (Int.negSucc n) = "-" ++ toString (n + 1) from rfl, String.toList_append,
    toList_toString_nat]
  rfl

end SymbolTree.Numeral
