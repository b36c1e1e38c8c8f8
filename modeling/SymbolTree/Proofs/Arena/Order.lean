import Mathlib.Data.String.Basic
import Mathlib.Order.Comparable
import SymbolTree.Proofs.Arena.Literal

/-!
# The order of literals

A strict comparison looks at the kind and the payload of a literal, its `Value`.  The values are
partially ordered: `false` before `true`, integers by size, and texts by the bytes of their UTF-8
encoding; no two values of different sorts stand in an order.  Floats are left out, since one that
is no number is not even equal to itself.

The comparison of texts goes character by character.  That it gives the order of the bytes is the
design of UTF-8: the encodings of two characters differ at a place that both of them have, and there
the greater character has the greater byte (`utf8EncodeChar_append_lt`).

## Main statements

* `text_lt_iff` — texts are ordered by their bytes.
* `Arena.compare_verdict` — a strict comparison answers with the order of the values.
* `Arena.compare_strict_order` — the laws of a partial order, for the comparison itself.
-/

set_option autoImplicit false
namespace SymbolTree

open String (utf8EncodeChar)

/-! ## The bytes of a text -/

/-- The order of two numbers is that of the digits into which UTF-8 divides them: six bits each, but
for the first. -/
theorem digits_lt {n m : Nat} (h : n < m) :
    n / 262144 < m / 262144 ∨ n / 262144 = m / 262144 ∧
      (n / 4096 % 64 < m / 4096 % 64 ∨ n / 4096 % 64 = m / 4096 % 64 ∧
        (n / 64 % 64 < m / 64 % 64 ∨ n / 64 % 64 = m / 64 % 64 ∧ n % 64 < m % 64)) := by
  omega

theorem toNat_val_lt (c : Char) : c.val.toNat < 1114112 := by
  rcases c.valid with h | h
  · exact h.trans (by decide)
  · exact h.2

/-- The encodings of two characters are ordered as these, whatever follows them. -/
theorem utf8EncodeChar_append_lt {c d : Char} (h : c < d) (xs ys : List UInt8) :
    utf8EncodeChar c ++ xs < utf8EncodeChar d ++ ys := by
  have hlt : c.val.toNat < d.val.toNat := h
  have hdigits := digits_lt hlt
  have hmax := toNat_val_lt d
  unfold utf8EncodeChar
  simp only
  -- one case for each pair of lengths
  split_ifs <;>
    simp (disch := omega) only [List.cons_append, List.nil_append, List.cons_lt_cons_iff,
      UInt8.lt_iff_toNat_lt, ← UInt8.toNat_inj, UInt8.toNat_ofNat', Nat.mod_eq_of_lt] <;>
    omega

theorem flatMap_utf8EncodeChar_lt {cs ds : List Char} (h : cs < ds) :
    cs.flatMap utf8EncodeChar < ds.flatMap utf8EncodeChar := by
  induction h with
  | nil =>
    obtain ⟨b, bs, hb⟩ := List.exists_cons_of_ne_nil (@String.utf8EncodeChar_ne_nil _)
    rw [List.flatMap_nil, List.flatMap_cons, hb]
    exact List.nil_lt_cons _ _
  | rel h => exact utf8EncodeChar_append_lt h _ _
  | cons _ ih => exact List.append_left_lt ih

/-- The bytes of a text. -/
def bytes (s : String) : List UInt8 := s.toUTF8.data.toList

theorem bytes_eq (s : String) : bytes s = s.toList.flatMap utf8EncodeChar := by
  conv_lhs => rw [← s.ofList_toList]
  rw [bytes, String.toUTF8, String.toByteArray_ofList, List.utf8Encode]
  simp

/-- Texts are ordered by their bytes. -/
theorem text_lt_iff {s t : String} : s < t ↔ bytes s < bytes t := by
  have hmono : ∀ {s t : String}, s < t → bytes s < bytes t := by
    intro s t h
    rw [bytes_eq, bytes_eq]
    exact flatMap_utf8EncodeChar_lt h
  refine ⟨hmono, fun h => ?_⟩
  rcases lt_trichotomy s t with hst | rfl | hts
  · exact hst
  · exact absurd h (List.lt_irrefl _)
  · exact absurd h (List.lt_asymm (hmono hts))

/-! ## Values -/

/-- What a literal other than a float stands for. -/
inductive Value where
  | boolean (b : Bool)
  | int64 (v : Int64)
  | text (s : String)
  | null
  | undefined

namespace Value

/-- One value comes before another. -/
inductive Precedes : Value → Value → Prop
  | boolean : Precedes (.boolean false) (.boolean true)
  | int64 {v w : Int64} : v.toInt < w.toInt → Precedes (.int64 v) (.int64 w)
  | text {s t : String} : bytes s < bytes t → Precedes (.text s) (.text t)

instance : IsStrictOrder Value Precedes where
  irrefl v h := by
    cases h with
    | int64 h => exact lt_irrefl _ h
    | text h => exact List.lt_irrefl _ h
  trans u v w huv hvw := by
    cases huv with
    | boolean => cases hvw
    | int64 huv => cases hvw with | int64 hvw => exact .int64 (huv.trans hvw)
    | text huv => cases hvw with | text hvw => exact .text (List.lt_trans huv hvw)

instance : PartialOrder Value := partialOrderOfSO Precedes

/-- The values are of one sort, in which the two booleans are together. -/
inductive SameSort : Value → Value → Prop
  | boolean (b c : Bool) : SameSort (.boolean b) (.boolean c)
  | int64 (v w : Int64) : SameSort (.int64 v) (.int64 w)
  | text (s t : String) : SameSort (.text s) (.text t)
  | null : SameSort .null .null
  | undefined : SameSort .undefined .undefined

/-- Only values of one sort stand in an order. -/
theorem SameSort.of_le {v w : Value} (h : v ≤ w) : v.SameSort w := by
  rcases h with rfl | h
  · cases v <;> constructor
  · cases h <;> constructor

theorem SameSort.symm {v w : Value} (h : v.SameSort w) : w.SameSort v := by
  cases h <;> constructor

/-- The kind of the literals with a value. -/
def kind : Value → Kind
  | .boolean b => Node.truth b
  | .int64 _ => .int64
  | .text _ => .string
  | .null => .null
  | .undefined => .undefined

/-- A sort is a kind, or the two boolean kinds. -/
theorem sameSort_iff_kind {v w : Value} : v.SameSort w ↔
    v.kind = w.kind ∨ v.kind.isBoolean = true ∧ w.kind.isBoolean = true := by
  have hboolean : ∀ b, (kind (.boolean b)).isBoolean = true := by decide
  constructor
  · rintro (⟨b, c⟩ | _ | _ | _ | _)
    · exact .inr ⟨hboolean b, hboolean c⟩
    all_goals exact .inl rfl
  · intro h
    rcases v with (_ | _) | v | s | _ | _ <;> rcases w with (_ | _) | w | t | _ | _ <;>
      first
      | constructor
      | simp [kind, Node.truth, Kind.isBoolean] at h

end Value

/-- The value of a literal other than a float. -/
inductive Node.Holds (d : Node) : Value → Prop
  | true_ : d.kind = .true_ → Holds d (.boolean true)
  | false_ : d.kind = .false_ → Holds d (.boolean false)
  | int64 : d.kind = .int64 → Holds d (.int64 d.int)
  | text : d.kind = .string → Holds d (.text d.text)
  | null : d.kind = .null → Holds d .null
  | undefined : d.kind = .undefined → Holds d .undefined

namespace Node

variable {d e : Node} {v w : Value}

theorem Holds.kind_eq (h : d.Holds v) : d.kind = v.kind := by
  cases h <;> assumption

theorem Holds.eq_int64 (h : d.Holds v) (hk : d.kind = .int64) : v = .int64 d.int := by
  cases h <;> simp_all

theorem Holds.eq_text (h : d.Holds v) (hk : d.kind = .string) : v = .text d.text := by
  cases h <;> simp_all

theorem Holds.isLiteral (h : d.Holds v) : d.kind.isLiteral = true := by
  cases h with | _ h => rw [h]; rfl

end Node

/-! ## Comparisons -/

namespace Comparison

variable {v w : Value}

/-- The outcome that the order of the values gives. -/
inductive Verdict (v w : Value) : Comparison → Prop
  | less : v < w → Verdict v w .less
  | equal : v = w → Verdict v w .equal
  | greater : w < v → Verdict v w .greater
  | unordered : ¬ v.SameSort w → Verdict v w .unordered

theorem ofInt64_verdict (v w : Int64) : Verdict (.int64 v) (.int64 w) (ofInt64 v w) := by
  unfold ofInt64 compareOfLessAndEq
  split_ifs with hlt heq
  · exact .less (.int64 hlt)
  · exact .equal (congrArg _ (Int64.toInt_inj.1 heq))
  · exact .greater (.int64 (lt_of_le_of_ne (not_lt.1 hlt) (Ne.symm heq)))

theorem ofString_verdict (s t : String) : Verdict (.text s) (.text t) (ofString s t) := by
  unfold ofString
  split_ifs with hlt heq
  · exact .less (.text (text_lt_iff.1 hlt))
  · exact .equal (congrArg _ heq)
  · exact .greater (.text (text_lt_iff.1 (lt_of_le_of_ne (not_lt.1 hlt) (Ne.symm heq))))

/-- The outcome tells how the values stand to each other. -/
theorem Verdict.iff {c : Comparison} (h : Verdict v w c) :
    (c = .less ↔ v < w) ∧ (c = .equal ↔ v = w) ∧ (c = .greater ↔ w < v) ∧
      (c = .unordered ↔ ¬ v.SameSort w) ∧ (c.isOrdered = true ↔ v.SameSort w) := by
  cases h with
  | less h => simp [h, h.ne, h.not_gt, Value.SameSort.of_le h.le, isOrdered]
  | equal h => simp [h, Value.SameSort.of_le le_rfl, isOrdered]
  | greater h => simp [h, h.ne', h.not_gt, (Value.SameSort.of_le h.le).symm, isOrdered]
  | unordered h =>
    have hless : ¬ v < w := fun hlt => h (.of_le hlt.le)
    have hgreater : ¬ w < v := fun hlt => h (Value.SameSort.of_le hlt.le).symm
    have hequal : v ≠ w := fun heq => h (.of_le heq.le)
    simp [h, hless, hgreater, hequal, isOrdered]

end Comparison

namespace Arena

variable {a : Arena} {m n : NodeId} {v w : Value}

/-- A strict comparison by cases: no literals, two booleans, one kind, and two kinds. -/
theorem compare_strict_eq (a : Arena) (m n : NodeId) :
    a.compare m n .strict =
      if ¬ ((a.node m).kind.isLiteral = true ∧ (a.node n).kind.isLiteral = true) then .error
      else if (a.node m).kind = .false_ ∧ (a.node n).kind = .true_ then .less
      else if (a.node m).kind = .true_ ∧ (a.node n).kind = .false_ then .greater
      else if (a.node m).kind = (a.node n).kind then compareAlike (a.node m) (a.node n) .strict
      else .unordered := by
  unfold compare
  simp only [Bool.or_eq_true, Bool.not_eq_true', ← Bool.not_eq_true, ← not_and_or]
  refine if_congr Iff.rfl rfl ?_
  split
  · next hm hn => exact (if_pos ⟨hm, hn⟩).symm
  · next hm hn => rw [hm, hn]; rfl
  · next hless hgreater =>
    have hless : ¬ ((a.node m).kind = .false_ ∧ (a.node n).kind = .true_) :=
      fun h => hless h.1 h.2
    have hgreater : ¬ ((a.node m).kind = .true_ ∧ (a.node n).kind = .false_) :=
      fun h => hgreater h.1 h.2
    simp only [if_neg hless, if_neg hgreater, if_true]

theorem compareAlike_ne_error (d e : Node) (mode : CompareMode) :
    compareAlike d e mode ≠ .error := by
  unfold compareAlike compareFloats Comparison.ofFloat Comparison.ofInt64 compareOfLessAndEq
    Comparison.ofString
  split <;> (try split_ifs) <;> simp [Comparison.ofOrdering]

theorem compare_eq_error_iff : a.compare m n .strict = .error ↔
    ¬ ((a.kind m).isLiteral = true ∧ (a.kind n).isLiteral = true) := by
  rw [compare_strict_eq, kind, kind]
  split_ifs with h <;> simp [h, compareAlike_ne_error]

/-- A strict comparison answers with the order of the values. -/
theorem compare_verdict (hv : (a.node m).Holds v) (hw : (a.node n).Holds w) :
    (a.compare m n .strict).Verdict v w := by
  rw [compare_strict_eq]
  -- within a sort the payloads decide, between two sorts the kinds do
  by_cases hsort : v.SameSort w
  · cases hsort with
    | boolean b c =>
      cases hv with
      | true_ hm =>
        cases hw with
        | true_ hn => simpa [hm, hn, Kind.isLiteral, compareAlike] using .equal rfl
        | false_ hn => simpa [hm, hn, Kind.isLiteral] using .greater .boolean
      | false_ hm =>
        cases hw with
        | true_ hn => simpa [hm, hn, Kind.isLiteral] using .less .boolean
        | false_ hn => simpa [hm, hn, Kind.isLiteral, compareAlike] using .equal rfl
    | int64 v w =>
      cases hv with | int64 hm =>
      cases hw with | int64 hn =>
      simpa [hm, hn, Kind.isLiteral, compareAlike] using Comparison.ofInt64_verdict _ _
    | text s t =>
      cases hv with | text hm =>
      cases hw with | text hn =>
      simpa [hm, hn, Kind.isLiteral, compareAlike] using Comparison.ofString_verdict _ _
    | null =>
      cases hv with | null hm =>
      cases hw with | null hn =>
      simpa [hm, hn, Kind.isLiteral, compareAlike] using .equal rfl
    | undefined =>
      cases hv with | undefined hm =>
      cases hw with | undefined hn =>
      simpa [hm, hn, Kind.isLiteral, compareAlike] using .equal rfl
  · have hkind := hsort
    rw [Value.sameSort_iff_kind, ← hv.kind_eq, ← hw.kind_eq, not_or, not_and] at hkind
    have hless : ¬ ((a.node m).kind = .false_ ∧ (a.node n).kind = .true_) :=
      fun h => hkind.2 (by rw [h.1]; rfl) (by rw [h.2]; rfl)
    have hgreater : ¬ ((a.node m).kind = .true_ ∧ (a.node n).kind = .false_) :=
      fun h => hkind.2 (by rw [h.1]; rfl) (by rw [h.2]; rfl)
    rw [if_neg (not_not.2 ⟨hv.isLiteral, hw.isLiteral⟩), if_neg hless, if_neg hgreater,
      if_neg hkind.1]
    exact .unordered hsort

/-- The node is a literal other than a float. -/
def IsExact (a : Arena) (n : NodeId) : Prop :=
  a.kind n ∈ [Kind.int64, .string, .true_, .false_, .null, .undefined]

instance (a : Arena) (n : NodeId) : Decidable (a.IsExact n) :=
  inferInstanceAs (Decidable (_ ∈ _))

theorem IsExact.exists_holds (h : a.IsExact n) : ∃ v, (a.node n).Holds v := by
  simp only [IsExact, List.mem_cons, List.not_mem_nil, or_false] at h
  rcases h with h | h | h | h | h | h
  · exact ⟨_, .int64 h⟩
  · exact ⟨_, .text h⟩
  · exact ⟨_, .true_ h⟩
  · exact ⟨_, .false_ h⟩
  · exact ⟨_, .null h⟩
  · exact ⟨_, .undefined h⟩

/-- Two literals have one value when they agree in kind and payload. -/
theorem eq_iff_of_holds (hv : (a.node m).Holds v) (hw : (a.node n).Holds w) :
    v = w ↔ a.kind m = a.kind n ∧
      (a.kind m = .int64 → (a.node m).int = (a.node n).int) ∧
      (a.kind m = .string → (a.node m).text = (a.node n).text) := by
  constructor
  · rintro rfl
    have hk : a.kind m = a.kind n := hv.kind_eq.trans hw.kind_eq.symm
    refine ⟨hk, fun h => ?_, fun h => ?_⟩
    · exact Value.int64.inj ((hv.eq_int64 h).symm.trans (hw.eq_int64 (hk.symm.trans h)))
    · exact Value.text.inj ((hv.eq_text h).symm.trans (hw.eq_text (hk.symm.trans h)))
  · rintro ⟨hk, hint, htext⟩
    have hsort : v.kind = w.kind := hv.kind_eq.symm.trans (hk.trans hw.kind_eq)
    cases Value.sameSort_iff_kind.2 (.inl hsort) with
    | boolean b c => cases b <;> cases c <;> first | rfl | cases hsort
    | int64 v w =>
      cases hv with | int64 hm =>
      cases hw with | int64 hn =>
      rw [hint hm]
    | text s t =>
      cases hv with | text hm =>
      cases hw with | text hn =>
      rw [htext hm]
    | null => rfl
    | undefined => rfl

/-- **A strict comparison orders the literals other than floats partially.**  It is turned around
with its arguments, only a literal of the same kind and payload is equal, and what comes before
stays before.  Those of one kind and the booleans stand in an order, and no others do.  A comparison
fails when one of the two is no literal, and only then. -/
theorem compare_strict_order (a : Arena) :
    (∀ m n, a.IsExact m → a.IsExact n →
      (a.compare m n .strict = .less ↔ a.compare n m .strict = .greater) ∧
      (a.compare m n .strict = .equal ↔ a.kind m = a.kind n ∧
        (a.kind m = .int64 → (a.node m).int = (a.node n).int) ∧
        (a.kind m = .string → (a.node m).text = (a.node n).text)) ∧
      ((a.compare m n .strict).isOrdered = true ↔
        a.kind m = a.kind n ∨ (a.kind m).isBoolean = true ∧ (a.kind n).isBoolean = true) ∧
      (a.compare m n .strict = .unordered ↔
        ¬ (a.kind m = a.kind n ∨ (a.kind m).isBoolean = true ∧ (a.kind n).isBoolean = true))) ∧
    (∀ l m n, a.IsExact l → a.IsExact m → a.IsExact n →
      (a.compare l m .strict = .less → a.compare m n .strict = .less →
        a.compare l n .strict = .less) ∧
      (a.compare l m .strict = .less → a.compare m n .strict = .equal →
        a.compare l n .strict = .less) ∧
      (a.compare l m .strict = .equal → a.compare m n .strict = .less →
        a.compare l n .strict = .less)) ∧
    (∀ m n, a.compare m n .strict = .error ↔
      ¬ ((a.kind m).isLiteral = true ∧ (a.kind n).isLiteral = true)) := by
  refine ⟨fun m n hm hn => ?_, fun l m n hl hm hn => ?_, fun m n => compare_eq_error_iff⟩
  · obtain ⟨v, hv⟩ := hm.exists_holds
    obtain ⟨w, hw⟩ := hn.exists_holds
    obtain ⟨hless, hequal, -, hunordered, hordered⟩ := (compare_verdict hv hw).iff
    obtain ⟨-, -, hgreater, -, -⟩ := (compare_verdict hw hv).iff
    have hsort := Value.sameSort_iff_kind (v := v) (w := w)
    rw [← hv.kind_eq, ← hw.kind_eq] at hsort
    exact ⟨hless.trans hgreater.symm, hequal.trans (eq_iff_of_holds hv hw), hordered.trans hsort,
      hunordered.trans (not_congr hsort)⟩
  · obtain ⟨u, hu⟩ := hl.exists_holds
    obtain ⟨v, hv⟩ := hm.exists_holds
    obtain ⟨w, hw⟩ := hn.exists_holds
    have huv := (compare_verdict hu hv).iff
    have hvw := (compare_verdict hv hw).iff
    have huw := (compare_verdict hu hw).iff
    rw [huv.1, huv.2.1, hvw.1, hvw.2.1, huw.1]
    exact ⟨lt_trans, fun h h' => h.trans_eq h', fun h h' => h.trans_lt h'⟩

/-- Three texts, the last two of which UTF-16 would put the other way round. -/
theorem compare_strict_order_texts :
    let a := after [.create .string {}, .setText ⟨0⟩ "aé", .create .string {},
      .setText ⟨1⟩ "a\uffff", .create .string {}, .setText ⟨2⟩ "a😀"]
    a.compare ⟨0⟩ ⟨2⟩ .strict = .less := by
  intro a
  refine (a.compare_strict_order.2.1 ⟨0⟩ ⟨1⟩ ⟨2⟩ ?_ ?_ ?_).1 ?_ ?_ <;> decide +kernel

end Arena

end SymbolTree
