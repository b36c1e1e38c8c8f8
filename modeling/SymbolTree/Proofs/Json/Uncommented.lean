import SymbolTree.Proofs.Json.Written

/-!
# A document that was written holds no comment

What the writer writes is left alone when comments are taken out (`Comment.bare_write`): a quote
inside a string is escaped, so a string is over for the one who looks for comments where it is over
for the writer, and outside strings there is no slash.  Lines that are comments leave their line
breaks (`Comment.stripFrom_remarks`).

## Main statements

* `Comment.bare_writeString` — strings, whatever they hold.
* `Comment.bare_write` — documents.
* `Comment.stripFrom_remarks` — lines that are comments.
-/

set_option autoImplicit false
namespace SymbolTree.Comment

open Json (escapeChar writeString newLine write writeElements writeMembers)

/-- The text is left alone outside strings and comments, and neither a string nor a comment is left
open at its end. -/
def Bare (text : List Char) : Prop :=
  ∀ rest, stripFrom .plain (text ++ rest) = text ++ stripFrom .plain rest

theorem Bare.append {text more : List Char} (h : Bare text) (hmore : Bare more) :
    Bare (text ++ more) := fun rest => by
  rw [List.append_assoc, h, hmore, List.append_assoc]

/-- A character that begins neither a string nor a comment. -/
theorem stripFrom_plain {c : Char} (hc : c ≠ '"' ∧ c ≠ '/') (rest : List Char) :
    stripFrom .plain (c :: rest) = c :: stripFrom .plain rest := by
  rw [stripFrom, if_neg hc.1]
  · exact fun _ h _ => hc.2 h
  · exact fun _ h _ => hc.2 h

theorem Bare.cons {c : Char} {text : List Char} (hc : c ≠ '"' ∧ c ≠ '/') (h : Bare text) :
    Bare (c :: text) := fun rest => by
  rw [List.cons_append, stripFrom_plain hc, h, List.cons_append]

theorem bare_of_forall {text : List Char} (h : ∀ c ∈ text, c ≠ '"' ∧ c ≠ '/') : Bare text := by
  induction text with
  | nil => exact fun _ => rfl
  | cons c text ih =>
    exact (ih fun d hd => h d (List.mem_cons_of_mem c hd)).cons (h c List.mem_cons_self)

theorem bare_of_all {text : List Char} (h : text.all (fun c => c ≠ '"' && c ≠ '/') = true) :
    Bare text := bare_of_forall fun c hc => by
  have := List.all_eq_true.1 h c hc
  rwa [Bool.and_eq_true, decide_eq_true_eq, decide_eq_true_eq] at this

/-! ## Strings -/

/-- A character inside a string that neither ends it nor takes the next one along. -/
theorem stripFrom_quoted {c : Char} (hc : c ≠ '"' ∧ c ≠ '\\') (rest : List Char) :
    stripFrom .quoted (c :: rest) = c :: stripFrom .quoted rest := by
  rw [stripFrom, if_neg hc.1]
  exact fun _ _ h _ => hc.2 h

/-- What stands for a character of a string does not end the string. -/
theorem stripFrom_escapeChar (c : Char) (rest : List Char) :
    stripFrom .quoted (escapeChar c ++ rest) = escapeChar c ++ stripFrom .quoted rest := by
  have hdigit : ∀ n < 16, Json.hexDigit n ≠ '"' ∧ Json.hexDigit n ≠ '\\' := by decide
  rw [escapeChar]
  split
  · rfl
  · next hquote =>
    split
    · rfl
    · next hslash =>
      repeat' split
      · rfl
      · rfl
      · rfl
      · rfl
      · rfl
      · next hlt =>
        have hhigh := hdigit (c.toNat / 16) (by omega)
        have hlow := hdigit (c.toNat % 16) (by omega)
        simp only [List.cons_append, List.nil_append]
        rw [stripFrom, stripFrom_quoted (by decide), stripFrom_quoted (by decide),
          stripFrom_quoted hhigh, stripFrom_quoted hlow]
      · exact stripFrom_quoted ⟨hquote, hslash⟩ rest

theorem bare_writeString (s : String) : Bare (writeString s) := fun rest => by
  have hquoted : ∀ cs : List Char,
      stripFrom .quoted (cs.flatMap escapeChar ++ '"' :: rest)
        = cs.flatMap escapeChar ++ '"' :: stripFrom .plain rest := by
    intro cs
    induction cs with
    | nil => rfl
    | cons c cs ih =>
      rw [List.flatMap_cons, List.append_assoc, stripFrom_escapeChar, ih, List.append_assoc]
  rw [writeString, List.cons_append, List.append_assoc, List.singleton_append, stripFrom,
    if_pos rfl, hquoted]
  · simp only [List.cons_append, List.append_assoc, List.nil_append]
  · rintro _ ⟨⟩
  · rintro _ ⟨⟩

/-! ## Documents -/

theorem bare_newLine (indent : Nat) : Bare (newLine indent) :=
  bare_of_forall fun c hc => by
    rcases List.mem_cons.1 hc with rfl | hc
    · decide
    · rw [(List.mem_replicate.1 hc).2]
      decide

theorem bare_toDigits (n : Nat) : Bare (Nat.toDigits 10 n) :=
  bare_of_forall fun c hc => by
    have hdigit := Numeral.isDigit_of_mem_toDigits hc
    constructor <;> (rintro rfl; cases hdigit)

theorem bare_int (i : Int) : Bare (toString i).toList := by
  cases i with
  | ofNat n => exact (Numeral.toList_toString_nat n).symm ▸ bare_toDigits n
  | negSucc n =>
    rw [Numeral.toList_toString_negSucc]
    exact (bare_toDigits _).cons (by decide)

mutual

/-- **A document that was written holds no comment.** -/
theorem bare_write : ∀ (v : Json) (indent : Nat), Bare (write indent v)
  | .null, _ => by rw [write]; exact bare_of_all (by decide)
  | .bool true, _ => by rw [write]; exact bare_of_all (by decide)
  | .bool false, _ => by rw [write]; exact bare_of_all (by decide)
  | .integer i, _ => by rw [write]; exact bare_int i.toInt
  | .number x, _ => by
    have hsign : Bare (if x.negative then "-" else "").toList := by
      split <;> exact bare_of_all (by decide)
    rw [write, String.toList_append, String.toList_append, String.toList_append]
    exact ((hsign.append (bare_int x.mantissa)).append (bare_of_all (by decide))).append
      (bare_int x.exponent)
  | .string s, _ => by rw [write]; exact bare_writeString s
  | .array [], _ => by rw [write]; exact bare_of_all (by decide)
  | .array (x :: xs), indent => by
    rw [write]
    exact (((bare_newLine _).append (bare_write x _)).append (bare_writeElements xs _)).cons
      (by decide)
  | .object [], _ => by rw [write]; exact bare_of_all (by decide)
  | .object ((k, v) :: ms), indent => by
    rw [write]
    exact (((((bare_newLine _).append (bare_writeString k)).append
      (bare_of_all (by decide))).append (bare_write v _)).append (bare_writeMembers ms _)).cons
      (by decide)

theorem bare_writeElements : ∀ (xs : List Json) (indent : Nat), Bare (writeElements indent xs)
  | [], _ => by
    rw [writeElements]
    exact (bare_newLine _).append (bare_of_all (by decide))
  | x :: xs, indent => by
    rw [writeElements]
    exact (((bare_newLine _).append (bare_write x _)).append (bare_writeElements xs _)).cons
      (by decide)

theorem bare_writeMembers :
    ∀ (ms : List (String × Json)) (indent : Nat), Bare (writeMembers indent ms)
  | [], _ => by
    rw [writeMembers]
    exact (bare_newLine _).append (bare_of_all (by decide))
  | (k, v) :: ms, indent => by
    rw [writeMembers]
    exact (((((bare_newLine _).append (bare_writeString k)).append
      (bare_of_all (by decide))).append (bare_write v _)).append (bare_writeMembers ms _)).cons
      (by decide)

end

/-! ## Lines that are comments -/

/-- Every line of the text begins with two slashes; a text that continues a line that did has
`within`. -/
def isRemarks : Bool → List Char → Bool
  | within, [] => within
  | true, c :: cs => isRemarks (c ≠ '\n') cs
  | false, '/' :: '/' :: cs => isRemarks true cs
  | false, _ => false

/-- Of lines that are comments the line breaks stay. -/
theorem stripFrom_remarks {within : Bool} {text : List Char} (h : isRemarks within text = true)
    (rest : List Char) :
    stripFrom (if within then .line else .plain) (text ++ '\n' :: rest)
      = List.replicate (text.count '\n' + 1) '\n' ++ stripFrom .plain rest := by
  induction within, text using isRemarks.induct with
  | case1 within =>
    rw [isRemarks] at h
    subst h
    rfl
  | case2 c cs ih =>
    rw [isRemarks] at h
    rw [List.cons_append, if_pos rfl, stripFrom]
    by_cases hc : c = '\n'
    · subst hc
      rw [if_pos rfl, List.count_cons_self, List.replicate_succ, List.cons_append]
      exact congrArg _ (ih h)
    · rw [decide_eq_true hc] at ih h
      rw [if_neg hc, List.count_cons_of_ne hc]
      exact ih h
  | case3 cs ih =>
    rw [isRemarks] at h
    rw [List.cons_append, List.cons_append, if_neg Bool.false_ne_true, stripFrom,
      List.count_cons_of_ne (by decide), List.count_cons_of_ne (by decide)]
    exact ih h
  | case4 cs hne hcs =>
    rw [isRemarks] at h
    · cases h
    · assumption
    · assumption

end SymbolTree.Comment
