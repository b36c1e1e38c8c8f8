import Mathlib.Data.List.Forall2
import SymbolTree.Json.Printer
import SymbolTree.Json.Reader
import SymbolTree.Proofs.Numeral.Digits

/-!
# What was written is what is read

The reader takes back what the writer wrote (`Json.readValue_write`): a document is the same again,
with the members of every object in the order of their names (`Json.sorted`).  This holds for
documents that are not nested deeper than the reader goes and that hold no number other than
integers of 64 bits (`Json.Readable`); any other number is written by its digits and a power of ten,
and read back as the digits that fit.

The writer puts a comma or a line break behind each value inside another (`Json.Ends`), so a reader
of numbers knows where to stop.

## Main statements

* `Json.readNumber_digits` — the digits of a number.
* `Json.readCharsFrom_escaped` — the characters of a string, each escaped where it has to be.
* `Json.readItems_written` — the items of an array or an object.
* `Json.readValue_write` — documents.
* `Json.readDocument_write` — texts that hold a document and blanks around it.
-/

set_option autoImplicit false
namespace SymbolTree.Json

open Numeral (isDigit_of_mem_toDigits ofDigits_toDigits span_digits toList_toString_nat
  toList_toString_negSucc)

/-- A text that may follow a value: nothing, or something behind a comma or a line break. -/
def Ends (rest : List Char) : Prop := ∀ c ∈ rest.head?, c = ',' ∨ c = '\n'

theorem ends_cons {c : Char} (hc : c = ',' ∨ c = '\n') (cs : List Char) : Ends (c :: cs) := by
  intro d hd
  obtain rfl : c = d := Option.some.inj hd
  exact hc

/-! ## Numbers -/

/-- Only the number zero is written with a zero in front. -/
theorem head_toDigits {n : Nat} (hn : n ≠ 0) : (Nat.toDigits 10 n).head? ≠ some '0' := by
  induction n using Nat.strongRecOn with
  | ind n ih =>
    by_cases hlt : n < 10
    · rw [Nat.toDigits_of_lt_base hlt, List.head?_cons]
      exact fun h => hn (Nat.digitChar_eq_zero.1 (Option.some.inj h))
    · have hdiv : n / 10 ≠ 0 := by omega
      rw [Nat.toDigits_of_base_le (by decide) (Nat.le_of_not_lt hlt),
        List.head?_append_of_ne_nil _ Nat.toDigits_ne_nil]
      exact ih (n / 10) (by omega) hdiv

/-- A digit is no mark of a fraction or an exponent, nor is what follows a number. -/
theorem readFraction_ends {negative : Bool} {whole rest : List Char} (hrest : Ends rest) :
    readFraction negative whole rest = match ofNumeral? negative whole none none with
      | some v => .ok (v, rest)
      | none => .error rest := by
  cases rest with
  | nil => rfl
  | cons c cs =>
    rcases hrest c rfl with rfl | rfl <;> rfl

theorem not_isDigit_of_ends {rest : List Char} (hrest : Ends rest) :
    ∀ c ∈ rest.head?, Numeral.isDigit c = false := by
  intro c hc
  rcases hrest c hc with rfl | rfl <;> decide

/-- Digits without a fraction or an exponent are an integer. -/
theorem readFraction_digits {negative : Bool} {n : Nat} (hn : n < wordBound) {rest : List Char}
    (hrest : Ends rest) :
    readFraction negative (Nat.toDigits 10 n) rest = .ok (ofInteger negative n, rest) := by
  have hnumeral : ofNumeral? negative (Nat.toDigits 10 n) none none
      = some (ofInteger negative n) := by
    simp only [ofNumeral?, ofDigits_toDigits, Option.isNone_none, Bool.and_self, Bool.true_and,
      decide_eq_true_eq, hn, if_true]
  rw [readFraction_ends hrest, hnumeral]

/-- The digits of a number are read back. -/
theorem readNumber_digits {negative : Bool} {n : Nat} (hn : n < wordBound) {rest : List Char}
    (hrest : Ends rest) :
    readNumber negative (Nat.toDigits 10 n ++ rest) = .ok (ofInteger negative n, rest) := by
  have hfraction : readFraction negative (Nat.toDigits 10 n) rest
      = .ok (ofInteger negative n, rest) := readFraction_digits hn hrest
  by_cases hzero : n = 0
  · subst hzero
    rw [Nat.toDigits_zero] at hfraction ⊢
    cases rest with
    | nil => exact hfraction
    | cons c cs =>
      rw [List.singleton_append, readNumber, not_isDigit_of_ends hrest c rfl]
      exact hfraction
  · cases hdigits : Nat.toDigits 10 n with
    | nil => exact absurd hdigits Nat.toDigits_ne_nil
    | cons d ds =>
      obtain ⟨hd, hds⟩ : Numeral.isDigit d = true ∧ ∀ c ∈ ds, Numeral.isDigit c = true :=
        List.forall_mem_cons.1 fun c hc => isDigit_of_mem_toDigits (hdigits ▸ hc)
      have hhead : d ≠ '0' := fun e => head_toDigits hzero (by rw [hdigits, e]; rfl)
      obtain ⟨htake, hdrop⟩ := span_digits hds (not_isDigit_of_ends hrest)
      rw [List.cons_append, readNumber.eq_def]
      split
      · next h => cases h
      · next h => exact absurd (List.cons.inj h).1 hhead
      · next h =>
        obtain ⟨rfl, rfl⟩ := List.cons.inj h
        rw [if_pos hd, htake, hdrop, ← hdigits]
        exact hfraction

/-! ## Values -/

/-- The reader takes the value off the text, whatever may follow, and the text starts with neither a
blank nor the end of an array or an object. -/
structure Reads {α : Type} (item : Reader α) (text : List Char) (x : α) : Prop where
  /-- The first character. -/
  head : ∃ c cs, text = c :: cs ∧ isSpace c = false ∧ c ≠ ']' ∧ c ≠ '\x7d'
  /-- The value. -/
  read : ∀ rest, Ends rest → item (text ++ rest) = .ok (x, rest)

theorem skipSpaces_cons {c : Char} (hc : isSpace c = false) (cs : List Char) :
    skipSpaces (c :: cs) = c :: cs := by
  rw [skipSpaces, List.dropWhile_cons_of_neg (by rw [hc]; exact Bool.false_ne_true)]

theorem skipSpaces_append {blanks : List Char} (h : ∀ c ∈ blanks, isSpace c = true)
    (cs : List Char) : skipSpaces (blanks ++ cs) = skipSpaces cs :=
  List.dropWhile_append_of_pos h

theorem skipSpaces_newLine (indent : Nat) (cs : List Char) :
    skipSpaces (newLine indent ++ cs) = skipSpaces cs := by
  refine skipSpaces_append (fun c hc => ?_) cs
  rcases List.mem_cons.1 hc with rfl | hc
  · rfl
  · rw [(List.mem_replicate.1 hc).2]
    rfl

theorem readValue_append {blanks : List Char} (h : ∀ c ∈ blanks, isSpace c = true) (depth : Nat)
    (cs : List Char) : readValue depth (blanks ++ cs) = readValue depth cs := by
  rw [readValue.eq_def, readValue.eq_def]
  dsimp only
  rw [skipSpaces_append h]

theorem readValue_blank (depth : Nat) (cs : List Char) :
    readValue depth (' ' :: cs) = readValue depth cs :=
  @readValue_append [ ' '] (fun _ hc => List.mem_singleton.1 hc ▸ rfl) depth cs

/-! ### Integers -/

theorem ne_of_isDigit {c d : Char} (hc : Numeral.isDigit c = true)
    (hd : Numeral.isDigit d = false) : c ≠ d := by
  rintro rfl
  exact Bool.false_ne_true (hd.symm.trans hc)

theorem isSpace_of_isDigit {c : Char} (hc : Numeral.isDigit c = true) : isSpace c = false := by
  have hne : ∀ d, Numeral.isDigit d = false → c ≠ d := fun d hd => ne_of_isDigit hc hd
  simp [isSpace, hne ' ' rfl, hne '\n' rfl, hne '\t' rfl, hne '\r' rfl]

theorem readValue_digit {depth : Nat} {c : Char} (hc : Numeral.isDigit c = true)
    (cs : List Char) : readValue depth (c :: cs) = readNumber false (c :: cs) := by
  have hne : ∀ d, Numeral.isDigit d = false → c ≠ d := fun d hd => ne_of_isDigit hc hd
  rw [readValue.eq_def]
  dsimp only
  rw [skipSpaces_cons (isSpace_of_isDigit hc)]
  split
  · next h => cases h
  · next h => exact absurd (List.cons.inj h).1 (hne _ rfl)
  · next h => exact absurd (List.cons.inj h).1 (hne _ rfl)
  · next h => exact absurd (List.cons.inj h).1 (hne _ rfl)
  · next h => exact absurd (List.cons.inj h).1 (hne _ rfl)
  · next h => exact absurd (List.cons.inj h).1 (hne _ rfl)
  · next h => exact absurd (List.cons.inj h).1 (hne _ rfl)
  · next h => exact absurd (List.cons.inj h).1 (hne _ rfl)
  · next h =>
    obtain ⟨rfl, rfl⟩ := List.cons.inj h
    rw [if_pos hc]

/-- The integers of 64 bits are among those whose digits are taken exactly. -/
theorem ofInteger_int64 {negative : Bool} {n : Nat} {i : Int64}
    (hi : i.toInt = Numeral.signed negative n) (hzero : negative = true → n ≠ 0) :
    ofInteger negative n = .integer i := by
  have hlow : -(Nat.pow 2 63 : Nat) ≤ i.toInt := i.le_toInt
  have hhigh : i.toInt < (Nat.pow 2 63 : Nat) := i.toInt_lt
  have hsign : (negative && n = 0) = false := by
    cases negative with
    | false => rfl
    | true => simpa using hzero rfl
  rw [ofInteger, ← hi, hsign]
  simp only [hlow, hhigh, decide_true, Bool.not_false, Bool.and_self, if_true, Int64.ofInt_toInt]

theorem reads_toDigits (depth : Nat) {n : Nat} (hn : n < wordBound) :
    Reads (readValue depth) (Nat.toDigits 10 n) (ofInteger false n) := by
  cases hdigits : Nat.toDigits 10 n with
  | nil => exact absurd hdigits Nat.toDigits_ne_nil
  | cons d ds =>
    have hd : Numeral.isDigit d = true := isDigit_of_mem_toDigits (hdigits ▸ List.mem_cons_self)
    refine ⟨⟨d, ds, rfl, isSpace_of_isDigit hd, ne_of_isDigit hd rfl, ne_of_isDigit hd rfl⟩,
      fun rest hrest => ?_⟩
    rw [List.cons_append, readValue_digit hd, ← List.cons_append, ← hdigits,
      readNumber_digits hn hrest]

theorem reads_negative (depth : Nat) {n : Nat} (hn : n < wordBound) :
    Reads (readValue depth) ('-' :: Nat.toDigits 10 n) (ofInteger true n) := by
  refine ⟨⟨'-', _, rfl, rfl, by decide, by decide⟩, fun rest hrest => ?_⟩
  rw [List.cons_append, readValue.eq_def]
  dsimp only
  rw [skipSpaces_cons rfl]
  exact readNumber_digits hn hrest

theorem reads_integer (depth : Nat) (i : Int64) :
    Reads (readValue depth) (toString i.toInt).toList (.integer i) := by
  have hlow : -(Nat.pow 2 63 : Nat) ≤ i.toInt := i.le_toInt
  have hhigh : i.toInt < (Nat.pow 2 63 : Nat) := i.toInt_lt
  have hbound : Nat.pow 2 63 < wordBound := by decide
  cases hi : i.toInt with
  | ofNat n =>
    have hvalue : i.toInt = Numeral.signed false n := hi
    have htext : (toString (Int.ofNat n)).toList = Nat.toDigits 10 n := toList_toString_nat n
    have hn : n < wordBound := by
      rw [hi] at hhigh
      exact Nat.lt_trans (Int.ofNat_lt.1 hhigh) hbound
    rw [htext, ← ofInteger_int64 hvalue fun h => nomatch h]
    exact reads_toDigits depth hn
  | negSucc n =>
    have hvalue : i.toInt = Numeral.signed true (n + 1) := hi
    have hn : n + 1 < wordBound := by
      rw [hi] at hlow
      omega
    rw [toList_toString_negSucc, ← ofInteger_int64 hvalue fun _ => Nat.succ_ne_zero n]
    exact reads_negative depth hn

/-! ### Strings -/

/-- A control character is written by its code. -/
theorem readCode_control {n : Nat} (hn : n < 32) (cs : List Char) :
    readCode ('0' :: '0' :: hexDigit (n / 16) :: hexDigit (n % 16) :: cs)
      = .ok (Char.ofNat n, cs) := by
  have hcode : ∀ n < 32,
      [ '0', '0', hexDigit (n / 16), hexDigit (n % 16)].all Numeral.isHexDigit = true ∧
        Numeral.ofDigits 16 ['0', '0', hexDigit (n / 16), hexDigit (n % 16)] = n := by decide
  obtain ⟨hhex, hvalue⟩ := hcode n hn
  have hread : readHex4 ('0' :: '0' :: hexDigit (n / 16) :: hexDigit (n % 16) :: cs)
      = .ok (n, cs) := by
    rw [readHex4, if_pos hhex, hvalue]
  have hlow : ¬ 0xDC00 ≤ n := by omega
  have hhigh : n < 0xD800 := by omega
  simp only [readCode, hread, bind, Except.bind, hlow, hhigh, decide_false, decide_true,
    Bool.false_and, Bool.true_or, if_true, Bool.false_eq_true, if_false]

/-- A character is read back from the way it is written. -/
theorem readCharsFrom_escapeChar (fuel : Nat) (c : Char) (cs : List Char) :
    readCharsFrom (fuel + 1) (escapeChar c ++ cs) = do
      let (s, r) ← readCharsFrom fuel cs
      return (c :: s, r) := by
  rw [escapeChar]
  split
  · next h => rw [h]; rfl
  split
  · next h => rw [h]; rfl
  split
  · next h => rw [h]; rfl
  split
  · next h => rw [h]; rfl
  split
  · next h => rw [h]; rfl
  split
  · next h => rw [h]; rfl
  split
  · next h => rw [h]; rfl
  split
  · next hlt =>
    have hcode := readCode_control hlt cs
    rw [Char.ofNat_toNat] at hcode
    simp only [List.cons_append, List.nil_append, readCharsFrom, readEscape, hcode, bind,
      Except.bind]
  · next hge =>
    simp only [List.singleton_append, readCharsFrom, hge, if_false]

/-- The characters of a string are read back up to the quote. -/
theorem readCharsFrom_escaped {fuel : Nat} {s : List Char} (hfuel : s.length < fuel)
    (rest : List Char) :
    readCharsFrom fuel (s.flatMap escapeChar ++ '"' :: rest) = .ok (s, rest) := by
  induction s generalizing fuel with
  | nil =>
    cases fuel with
    | zero => cases hfuel
    | succ fuel => rfl
  | cons c s ih =>
    cases fuel with
    | zero => cases hfuel
    | succ fuel =>
      rw [List.flatMap_cons, List.append_assoc, readCharsFrom_escapeChar,
        ih (Nat.lt_of_succ_lt_succ hfuel)]
      rfl

theorem length_le_escaped (s : List Char) : s.length ≤ (s.flatMap escapeChar).length := by
  have hone : ∀ c, 1 ≤ (escapeChar c).length := by
    intro c
    unfold escapeChar
    repeat' split
    all_goals exact Nat.succ_le_of_lt (Nat.succ_pos _)
  induction s with
  | nil => exact Nat.le_refl _
  | cons c s ih =>
    rw [List.flatMap_cons, List.length_append, List.length_cons]
    have := hone c
    omega

theorem readString_written (s : String) (rest : List Char) :
    readString (s.toList.flatMap escapeChar ++ '"' :: rest) = .ok (s, rest) := by
  have hlength := length_le_escaped s.toList
  rw [readString, readCharsFrom_escaped (by rw [List.length_append]; omega)]
  exact congrArg (fun t => Except.ok (t, rest)) s.ofList_toList

theorem reads_string (depth : Nat) (s : String) :
    Reads (readValue depth) (writeString s) (.string s) := by
  refine ⟨⟨'"', _, rfl, rfl, by decide, by decide⟩, fun rest _ => ?_⟩
  rw [writeString, List.cons_append, List.append_assoc, List.singleton_append, readValue.eq_def]
  dsimp only
  rw [skipSpaces_cons rfl]
  simp only [readString_written, bind, Except.bind, pure, Except.pure]

/-! ### Arrays and objects -/

/-- The items after the first, each behind a comma and a line break, and the end. -/
def writeItems (indent : Nat) (close : Char) : List (List Char) → List Char
  | [] => newLine indent ++ [close]
  | t :: ts => ',' :: (newLine (indent + 1) ++ t ++ writeItems indent close ts)

/-- The text of a member. -/
def writeMember (indent : Nat) (m : String × Json) : List Char :=
  writeString m.1 ++ [':', ' '] ++ write indent m.2

theorem writeElements_eq (indent : Nat) (xs : List Json) :
    writeElements indent xs = writeItems indent ']' (xs.map (write (indent + 1))) := by
  induction xs with
  | nil => rw [writeElements, List.map_nil, writeItems]
  | cons x xs ih => rw [writeElements, ih, List.map_cons, writeItems]

theorem writeMembers_eq (indent : Nat) (ms : List (String × Json)) :
    writeMembers indent ms = writeItems indent '\x7d' (ms.map (writeMember (indent + 1))) := by
  induction ms with
  | nil => rw [writeMembers, List.map_nil, writeItems]
  | cons m ms ih =>
    rw [writeMembers, ih, List.map_cons, writeItems, writeMember]
    simp only [List.append_assoc]

section Items

variable {α : Type} {item : Reader α} (indent : Nat) {close : Char} {ts : List (List Char)}
  {xs : List α}

theorem ends_writeItems (close : Char) (ts : List (List Char)) (rest : List Char) :
    Ends (writeItems indent close ts ++ rest) := by
  cases ts with
  | nil => exact ends_cons (.inr rfl) _
  | cons t ts => exact ends_cons (.inl rfl) _

theorem length_lt_writeItems (close : Char) (ts : List (List Char)) :
    ts.length < (writeItems indent close ts).length := by
  induction ts with
  | nil =>
    rw [writeItems, List.length_append, List.length_nil, List.length_singleton]
    omega
  | cons t ts ih =>
    rw [writeItems, List.length_cons, List.length_cons, List.length_append]
    omega

variable (hclose : close = ']' ∨ close = '\x7d')

include hclose

/-- The items after the first are read up to the end. -/
theorem readItemsFrom_written (h : List.Forall₂ (Reads item) ts xs) {fuel : Nat}
    (hfuel : ts.length < fuel) (rest : List Char) :
    readItemsFrom close item fuel false (writeItems indent close ts ++ rest) = .ok (xs, rest) := by
  have hspace : isSpace close = false := by rcases hclose with rfl | rfl <;> rfl
  have hcomma : ',' ≠ close := by rcases hclose with rfl | rfl <;> decide
  induction h generalizing fuel with
  | nil =>
    obtain ⟨fuel, rfl⟩ : ∃ k, fuel = k + 1 := Nat.exists_eq_succ_of_ne_zero (by omega)
    rw [writeItems, List.append_assoc, readItemsFrom, skipSpaces_newLine, List.singleton_append,
      skipSpaces_cons hspace]
    dsimp only
    rw [if_pos rfl]
  | @cons t x ts xs ht _ ih =>
    rw [List.length_cons] at hfuel
    obtain ⟨fuel, rfl⟩ : ∃ k, fuel = k + 1 := Nat.exists_eq_succ_of_ne_zero (by omega)
    obtain ⟨c, cs, hcs, hc, hbracket, hbrace⟩ := ht.head
    have hne : c ≠ close := by rcases hclose with rfl | rfl <;> assumption
    have hread := ht.read _ (ends_writeItems indent close ts rest)
    have hrest := ih (Nat.lt_of_succ_lt_succ hfuel)
    rw [writeItems, List.cons_append, readItemsFrom, skipSpaces_cons rfl]
    dsimp only
    rw [if_neg hcomma, if_neg Bool.false_ne_true, if_pos rfl, List.append_assoc, List.append_assoc,
      skipSpaces_newLine, hcs, List.cons_append, skipSpaces_cons hc]
    dsimp only
    rw [if_neg hne, ← List.cons_append, ← hcs, hread]
    simp only [bind, Except.bind, hrest, pure, Except.pure]

/-- All items are read. -/
theorem readItems_written {t : List Char} {x : α} (ht : Reads item t x)
    (h : List.Forall₂ (Reads item) ts xs) (rest : List Char) :
    readItems close item (newLine (indent + 1) ++ t ++ writeItems indent close ts ++ rest)
      = .ok (x :: xs, rest) := by
  obtain ⟨c, cs, hcs, hc, hbracket, hbrace⟩ := ht.head
  have hne : c ≠ close := by rcases hclose with rfl | rfl <;> assumption
  have hread := ht.read _ (ends_writeItems indent close ts rest)
  have hfuel : ts.length
      < (newLine (indent + 1) ++ t ++ writeItems indent close ts ++ rest).length := by
    have := length_lt_writeItems indent close ts
    simp only [List.length_append]
    omega
  have hrest := readItemsFrom_written indent hclose h hfuel rest
  rw [readItems, readItemsFrom, List.append_assoc, List.append_assoc, skipSpaces_newLine, hcs,
    List.cons_append, skipSpaces_cons hc]
  dsimp only
  rw [if_neg hne, if_pos rfl, ← List.cons_append, ← hcs, hread]
  simp only [List.append_assoc] at hrest ⊢
  simp only [bind, Except.bind, hrest, pure, Except.pure]

end Items

/-- A member is read when its value is. -/
theorem reads_member {depth indent : Nat} {k : String} {v v' : Json}
    (hv : Reads (readValue depth) (write indent v) v') :
    Reads (readMember (readValue depth)) (writeMember indent (k, v)) (k, v') := by
  refine ⟨⟨'"', _, rfl, rfl, by decide, by decide⟩, fun rest hrest => ?_⟩
  have htext : writeMember indent (k, v) ++ rest
      = '"' :: (k.toList.flatMap escapeChar ++ '"' :: ':' :: ' ' :: (write indent v ++ rest)) := by
    simp only [writeMember, writeString, List.cons_append, List.append_assoc, List.nil_append]
  rw [htext, readMember]
  simp only [readString_written, bind, Except.bind]
  rw [skipSpaces_cons rfl]
  simp only [readValue_blank, hv.read rest hrest, pure, Except.pure]

/-! ## Documents -/

mutual

/-- A document with the members of every object in the order of their names. -/
def sorted : Json → Json
  | .array xs => .array (sortedElements xs)
  | .object ms => .object (Dictionary.ofList (sortedMembers ms))
  | .null => .null
  | .bool b => .bool b
  | .integer i => .integer i
  | .number x => .number x
  | .string s => .string s

/-- The elements of an array, each sorted. -/
def sortedElements : List Json → List Json
  | [] => []
  | x :: xs => x.sorted :: sortedElements xs

/-- The members of an object, the value of each sorted. -/
def sortedMembers : List (String × Json) → List (String × Json)
  | [] => []
  | (k, v) :: ms => (k, v.sorted) :: sortedMembers ms

end

theorem sortedElements_eq (xs : List Json) : sortedElements xs = xs.map sorted := by
  induction xs with
  | nil => rw [sortedElements, List.map_nil]
  | cons x xs ih => rw [sortedElements, ih, List.map_cons]

theorem sortedMembers_eq (ms : List (String × Json)) :
    sortedMembers ms = ms.map fun m => (m.1, m.2.sorted) := by
  induction ms with
  | nil => rw [sortedMembers, List.map_nil]
  | cons m ms ih => rw [sortedMembers, ih, List.map_cons]

/-- A document with at most `depth` arrays and objects around each other and without numbers other
than integers of 64 bits. -/
inductive Readable : Nat → Json → Prop
  /-- The document `null`. -/
  | null {depth : Nat} : Readable depth .null
  /-- A boolean. -/
  | bool {depth : Nat} (b : Bool) : Readable depth (.bool b)
  /-- An integer. -/
  | integer {depth : Nat} (i : Int64) : Readable depth (.integer i)
  /-- A string. -/
  | string {depth : Nat} (s : String) : Readable depth (.string s)
  /-- An array, one deeper than its elements. -/
  | array {depth : Nat} {xs : List Json} (h : ∀ x ∈ xs, Readable depth x) :
      Readable (depth + 1) (.array xs)
  /-- An object, one deeper than the values of its members. -/
  | object {depth : Nat} {ms : List (String × Json)} (h : ∀ m ∈ ms, Readable depth m.2) :
      Readable (depth + 1) (.object ms)

/-- What is written for items that are read one by one. -/
theorem forall₂_reads {α β : Type} {item : Reader β} {text : α → List Char} {value : α → β}
    {xs : List α} (h : ∀ x ∈ xs, Reads item (text x) (value x)) :
    List.Forall₂ (Reads item) (xs.map text) (xs.map value) :=
  List.forall₂_map_left_iff.2 (List.forall₂_map_right_iff.2 (List.forall₂_same.2 h))

theorem reads_array {depth indent : Nat} {xs : List Json}
    (h : ∀ x ∈ xs, Reads (readValue depth) (write (indent + 1) x) x.sorted) :
    Reads (readValue (depth + 1)) (write indent (.array xs)) (sorted (.array xs)) := by
  cases xs with
  | nil =>
    refine ⟨⟨'[', [']'], by rw [write], rfl, by decide, by decide⟩, fun rest _ => ?_⟩
    rw [write, sorted, sortedElements, readValue.eq_def]
    rfl
  | cons x xs =>
    refine ⟨⟨'[', _, by rw [write], rfl, by decide, by decide⟩, fun rest _ => ?_⟩
    have hitems := readItems_written indent (.inl rfl) (h x List.mem_cons_self)
      (forall₂_reads fun y hy => h y (List.mem_cons_of_mem _ hy)) rest
    rw [write, writeElements_eq, List.cons_append, readValue.eq_def]
    dsimp only
    rw [skipSpaces_cons rfl, sorted, sortedElements_eq, List.map_cons]
    simp only [hitems, bind, Except.bind, pure, Except.pure]

theorem reads_object {depth indent : Nat} {ms : List (String × Json)}
    (h : ∀ m ∈ ms, Reads (readValue depth) (write (indent + 1) m.2) m.2.sorted) :
    Reads (readValue (depth + 1)) (write indent (.object ms)) (sorted (.object ms)) := by
  cases ms with
  | nil =>
    refine ⟨⟨'\x7b', ['\x7d'], by rw [write], rfl, by decide, by decide⟩, fun rest _ => ?_⟩
    rw [write, sorted, sortedMembers, readValue.eq_def]
    rfl
  | cons m ms =>
    obtain ⟨k, v⟩ := m
    refine ⟨⟨'\x7b', _, by rw [write], rfl, by decide, by decide⟩, fun rest _ => ?_⟩
    have hmember : ∀ m ∈ (k, v) :: ms, Reads (readMember (readValue depth))
        (writeMember (indent + 1) m) (m.1, m.2.sorted) := fun m hm => reads_member (h m hm)
    have hitems := readItems_written indent (.inr rfl)
      (hmember (k, v) List.mem_cons_self)
      (forall₂_reads fun m hm => hmember m (List.mem_cons_of_mem _ hm)) rest
    have htext : write indent (.object ((k, v) :: ms)) ++ rest
        = '\x7b' :: (newLine (indent + 1) ++ writeMember (indent + 1) (k, v)
          ++ writeItems indent '\x7d' (ms.map (writeMember (indent + 1))) ++ rest) := by
      rw [write, writeMembers_eq, writeMember]
      simp only [List.append_assoc, List.cons_append]
    rw [htext, readValue.eq_def]
    dsimp only
    rw [skipSpaces_cons rfl, sorted, sortedMembers_eq, List.map_cons]
    simp only [hitems, bind, Except.bind, pure, Except.pure]

/-- **What was written is what is read**, with the members of every object in the order of their
names. -/
theorem readValue_write {depth : Nat} {v : Json} (h : Readable depth v) (indent : Nat) :
    Reads (readValue depth) (write indent v) v.sorted := by
  induction h generalizing indent with
  | null =>
    rw [write, sorted]
    exact ⟨⟨'n', _, rfl, rfl, by decide, by decide⟩, fun rest _ => by rw [readValue.eq_def]; rfl⟩
  | bool b =>
    rw [write, sorted]
    cases b with
    | true =>
      exact ⟨⟨'t', _, rfl, rfl, by decide, by decide⟩, fun rest _ => by rw [readValue.eq_def]; rfl⟩
    | false =>
      exact ⟨⟨'f', _, rfl, rfl, by decide, by decide⟩, fun rest _ => by rw [readValue.eq_def]; rfl⟩
  | integer i =>
    rw [write, sorted]
    exact reads_integer _ i
  | string s =>
    rw [write, sorted]
    exact reads_string _ s
  | array _ ih => exact reads_array fun x hx => ih x hx _
  | object _ ih => exact reads_object fun m hm => ih m hm _

/-- Blanks around a document do not matter, as long as a line break is the first behind it. -/
theorem readDocument_write {v : Json} (h : Readable maximumDepth v) {before behind : List Char}
    (hbefore : ∀ c ∈ before, isSpace c = true) (hbehind : ∀ c ∈ behind, isSpace c = true) :
    readDocument (before ++ write 0 v ++ '\n' :: behind) = .ok v.sorted := by
  have hread := (readValue_write h 0).read _ (ends_cons (.inr rfl) behind)
  have hspaces : skipSpaces ('\n' :: behind) = [] := by
    rw [← List.append_nil ('\n' :: behind)]
    exact skipSpaces_append (List.forall_mem_cons.2 ⟨rfl, hbehind⟩) []
  rw [readDocument, List.append_assoc, readValue_append hbefore, hread]
  simp only [bind, Except.bind, hspaces]

end SymbolTree.Json
