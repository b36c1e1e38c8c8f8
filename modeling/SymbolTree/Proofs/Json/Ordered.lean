import Mathlib.Data.List.Induction
import SymbolTree.Json.Reader

/-!
# The order of the members in a document that was read

Whatever the order in a text, and however often a name occurs, the members of every object that is
read stand in the order of their names, with one member for each name (`Json.Ordered`).

A reader is followed by what holds of each value it gives (`Json.Gives`), whatever stood in the text
and whatever is left of it.

## Main statements

* `Json.gives_readItems` — the items of an array or an object.
* `Json.gives_readValue` — values.
* `Json.ordered_parseWithComments` — texts with comments.
-/

set_option autoImplicit false
namespace SymbolTree

open Dictionary (Sorted)

theorem Dictionary.sorted_ofList {α : Type} (entries : List (String × α)) :
    Sorted (ofList entries) := by
  induction entries using List.reverseRecOn with
  | nil => exact List.Pairwise.nil
  | append_singleton entries e ih =>
    rw [ofList, List.foldl_append]
    exact sorted_insert ih e.1 e.2

theorem Dictionary.mem_ofList {α : Type} {entries : List (String × α)} {e : String × α}
    (h : e ∈ ofList entries) : e ∈ entries := by
  induction entries using List.reverseRecOn with
  | nil => cases h
  | append_singleton entries f ih =>
    rw [ofList, List.foldl_append] at h
    rcases mem_insert h with rfl | h
    · exact List.mem_append_right _ List.mem_cons_self
    · exact List.mem_append_left _ (ih h)

namespace Json

/-- The members of each object in a document stand in the order of their names, which differ. -/
inductive Ordered : Json → Prop
  /-- The document `null`. -/
  | null : Ordered .null
  /-- A boolean. -/
  | bool (b : Bool) : Ordered (.bool b)
  /-- An integer. -/
  | integer (i : Int64) : Ordered (.integer i)
  /-- Any other number. -/
  | number (x : Numeral.Scientific) : Ordered (.number x)
  /-- A string. -/
  | string (s : String) : Ordered (.string s)
  /-- An array of such documents. -/
  | array {xs : List Json} (h : ∀ x ∈ xs, Ordered x) : Ordered (.array xs)
  /-- An object with such documents as the values of its members. -/
  | object {ms : List (String × Json)} (hsorted : Sorted ms) (h : ∀ m ∈ ms, Ordered m.2) :
      Ordered (.object ms)

theorem Ordered.sorted {ms : List (String × Json)} (h : Ordered (.object ms)) : Sorted ms := by
  cases h with
  | object hsorted _ => exact hsorted

theorem Ordered.member {ms : List (String × Json)} (h : Ordered (.object ms))
    {m : String × Json} (hm : m ∈ ms) : Ordered m.2 := by
  cases h with
  | object _ h => exact h m hm

/-! ## What a reader gives -/

variable {α β : Type} {P : α → Prop} {Q : β → Prop}

/-- Each answer of a reader is such a value. -/
def GivesFrom (P : α → Prop) (answer : Except (List Char) (α × List Char)) : Prop :=
  ∀ x rest, answer = .ok (x, rest) → P x

/-- Each value that a reader takes off a text is such a value. -/
def Gives (P : α → Prop) (reader : Reader α) : Prop := ∀ cs, GivesFrom P (reader cs)

theorem GivesFrom.error (behind : List Char) : GivesFrom P (.error behind) :=
  fun _ _ h => nomatch h

theorem GivesFrom.ok {x : α} (h : P x) (rest : List Char) : GivesFrom P (.ok (x, rest)) := by
  intro y rest' heq
  obtain ⟨rfl, rfl⟩ := Prod.mk.inj (Except.ok.inj heq)
  exact h

/-- What comes of a value that was read. -/
theorem GivesFrom.bind {answer : Except (List Char) (α × List Char)}
    {next : α × List Char → Except (List Char) (β × List Char)} (h : GivesFrom P answer)
    (hnext : ∀ x rest, P x → GivesFrom Q (next (x, rest))) : GivesFrom Q (answer >>= next) := by
  cases answer with
  | error behind => exact GivesFrom.error behind
  | ok a => exact hnext a.1 a.2 (h a.1 a.2 rfl)

theorem GivesFrom.any (answer : Except (List Char) (α × List Char)) :
    GivesFrom (fun _ => True) answer := fun _ _ _ => trivial

/-! ## Words, numbers, items and members -/

theorem gives_readWord {value : α} (h : P value) (word : List Char) :
    Gives P (readWord value word) := by
  induction word with
  | nil => exact fun cs => GivesFrom.ok h cs
  | cons e es ih =>
    intro cs
    cases cs with
    | nil => exact GivesFrom.error []
    | cons c cs =>
      rw [readWord]
      split
      · exact ih cs
      · exact GivesFrom.error cs

theorem ordered_ofNumeral? {negative : Bool} {whole : List Char} {fraction : Option (List Char)}
    {exponent : Option Int} {v : Json} (h : ofNumeral? negative whole fraction exponent = some v) :
    Ordered v := by
  rw [ofNumeral?] at h
  dsimp only at h
  split at h
  · obtain rfl := Option.some.inj h
    rw [ofInteger]
    split
    · exact .integer _
    · exact .number _
  · split at h
    · cases h
    · obtain rfl := Option.some.inj h
      exact .number _

section

variable (negative : Bool) (whole : List Char)

/-- Whatever the fraction and the exponent of a number are, they are put together last. -/
theorem givesFrom_ofNumeral? (fraction : Option (List Char)) (exponent : Option Int)
    (rest : List Char) :
    GivesFrom Ordered (match ofNumeral? negative whole fraction exponent with
      | some v => .ok (v, rest)
      | none => .error rest) := by
  split
  · next hv => exact GivesFrom.ok (ordered_ofNumeral? hv) _
  · exact GivesFrom.error _

/-- Before that an exponent is read, if there is one. -/
theorem givesFrom_readExponent (fraction : Option (List Char)) (rest : List Char) :
    GivesFrom Ordered (do
      let (exponent, rest) ← match rest with
        | 'e' :: r | 'E' :: r => do
            let (e, r) ← readExponent r
            pure (some e, r)
        | r => pure (none, r)
      match ofNumeral? negative whole fraction exponent with
      | some v => .ok (v, rest)
      | none => .error rest) := by
  dsimp only
  split
  · exact (GivesFrom.any _).bind fun e r _ =>
      givesFrom_ofNumeral? negative whole fraction (some e) r
  · exact (GivesFrom.any _).bind fun e r _ =>
      givesFrom_ofNumeral? negative whole fraction (some e) r
  · exact givesFrom_ofNumeral? negative whole fraction none _

theorem gives_readFraction : Gives Ordered (readFraction negative whole) := by
  intro cs
  unfold readFraction
  dsimp only
  split
  · split
    · exact GivesFrom.error _
    · exact givesFrom_readExponent negative whole _ _
  · exact givesFrom_readExponent negative whole none _

end

theorem gives_readNumber (negative : Bool) : Gives Ordered (readNumber negative) := by
  intro cs
  rw [readNumber.eq_def]
  split
  · exact GivesFrom.error []
  · split
    · split
      · exact GivesFrom.error _
      · exact gives_readFraction _ _ _
    · exact gives_readFraction _ _ _
  · split
    · exact gives_readFraction _ _ _
    · exact GivesFrom.error _

theorem givesFrom_items {item : Reader α} {items : Reader (List α)} (h : Gives P item)
    (hitems : Gives (fun xs => ∀ x ∈ xs, P x) items) (cs : List Char) :
    GivesFrom (fun xs => ∀ x ∈ xs, P x) (do
      let (x, r) ← item cs
      let (xs, r) ← items r
      return (x :: xs, r)) :=
  (h cs).bind fun _ r hx => (hitems r).bind fun _ r' hxs =>
    GivesFrom.ok (List.forall_mem_cons.2 ⟨hx, hxs⟩) r'

/-- What each item is, all items are. -/
theorem gives_readItemsFrom {item : Reader α} (h : Gives P item) (close : Char) (fuel : Nat)
    (first : Bool) : Gives (fun xs => ∀ x ∈ xs, P x) (readItemsFrom close item fuel first) := by
  induction fuel generalizing first with
  | zero => exact fun cs => GivesFrom.error cs
  | succ fuel ih =>
    intro cs
    rw [readItemsFrom]
    split
    · exact GivesFrom.error []
    · split
      · exact GivesFrom.ok (List.forall_mem_nil P) _
      · split
        · exact givesFrom_items h (ih false) _
        · split
          · split
            · exact GivesFrom.error []
            · split
              · exact GivesFrom.error _
              · exact givesFrom_items h (ih false) _
          · exact GivesFrom.error _

theorem gives_readItems {item : Reader α} (h : Gives P item) (close : Char) :
    Gives (fun xs => ∀ x ∈ xs, P x) (readItems close item) :=
  fun cs => gives_readItemsFrom h close _ true cs

theorem gives_readMember {value : Reader α} (h : Gives P value) :
    Gives (fun m => P m.2) (readMember value) := by
  intro cs
  rw [readMember.eq_def]
  split
  · refine (GivesFrom.any _).bind fun name r _ => ?_
    dsimp only
    split
    · exact (h _).bind fun v r' hv => GivesFrom.ok (P := fun m : String × α => P m.2) hv r'
    · exact GivesFrom.error []
    · exact GivesFrom.error _
  · exact GivesFrom.error []
  · exact GivesFrom.error _

/-! ## Documents -/

/-- An object is put in order from whatever members were read. -/
theorem ordered_ofList {ms : List (String × Json)} (h : ∀ m ∈ ms, Ordered m.2) :
    Ordered (.object (Dictionary.ofList ms)) :=
  .object (Dictionary.sorted_ofList ms) fun m hm => h m (Dictionary.mem_ofList hm)

/-- **Whatever is read is in order.** -/
theorem gives_readValue (depth : Nat) : Gives Ordered (readValue depth) := by
  induction depth with
  | zero =>
    intro cs
    rw [readValue.eq_def]
    dsimp only
    split
    · exact GivesFrom.error []
    · exact gives_readWord .null _ _
    · exact gives_readWord (.bool true) _ _
    · exact gives_readWord (.bool false) _ _
    · exact (GivesFrom.any _).bind fun s r _ => GivesFrom.ok (.string s) r
    · exact gives_readNumber true _
    · exact GivesFrom.error _
    · exact GivesFrom.error _
    · split
      · exact gives_readNumber false _
      · exact GivesFrom.error _
  | succ depth ih =>
    intro cs
    rw [readValue.eq_def]
    dsimp only
    split
    · exact GivesFrom.error []
    · exact gives_readWord .null _ _
    · exact gives_readWord (.bool true) _ _
    · exact gives_readWord (.bool false) _ _
    · exact (GivesFrom.any _).bind fun s r _ => GivesFrom.ok (.string s) r
    · exact gives_readNumber true _
    · exact (gives_readItems ih ']' _).bind fun xs r hxs => GivesFrom.ok (.array hxs) r
    · exact (gives_readItems (gives_readMember ih) '\x7d' _).bind fun ms r hms =>
        GivesFrom.ok (ordered_ofList hms) r
    · split
      · exact gives_readNumber false _
      · exact GivesFrom.error _

theorem ordered_readDocument {cs : List Char} {v : Json} (h : readDocument cs = .ok v) :
    Ordered v := by
  rw [readDocument] at h
  cases hread : readValue maximumDepth cs with
  | error behind => rw [hread] at h; cases h
  | ok answer =>
    rw [hread] at h
    simp only [bind, Except.bind] at h
    split at h
    · obtain rfl := Except.ok.inj h
      exact gives_readValue _ _ _ _ hread
    · cases h

/-- The document in a text, with or without comments, is in order. -/
theorem ordered_parseWithComments {s : String} {v : Json} (h : parseWithComments s = .ok v) :
    Ordered v := by
  rw [parseWithComments, parse] at h
  split at h
  · next w hw =>
    obtain rfl := Except.ok.inj h
    exact ordered_readDocument hw
  · cases h

end Json

end SymbolTree
