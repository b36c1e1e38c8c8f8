import SymbolTree.Proofs.Arena.Command
import SymbolTree.Proofs.Numeral.Nan
import SymbolTree.Proofs.Numeral.Value

/-!
# Literals as numbers

What becomes of the value of a literal that is converted in place: an integer written as a text and
read again, and any literal turned into a float.

## Main statements

* `numeral_value_iff` — an integer numeral is read as the word that it denotes unless that is the
  least word, and so is an integer that was converted to a text and back.
* `isNan_predicts_iff` — `Arena.isNan` foretells what a conversion to a float leaves, unless the
  literal already is a float that is no number.
-/

set_option autoImplicit false
namespace SymbolTree

open Numeral (Trimmed Denotes isInteger toInt64)

/-! ## Conversions that apply -/

namespace Arena

variable {a : Arena} {n : NodeId} {d : Node} {f : Node → Option Node}

/-- A conversion that applies to a node that may be modified is carried out. -/
theorem exists_convert (hm : a.modifying n = .ok ()) (hd : f (a.node n) = some d) :
    ∃ b, a.convert n f = .ok (true, b) ∧ b.node n = d ∧ b.lockCount n = a.lockCount n := by
  refine ⟨a.update n fun _ => d, ?_, ?_, lockCount_update _ _ _ _⟩
  · rw [convert, hm, hd]
    rfl
  · rw [node_update, if_pos ⟨rfl, lt_size_of_modifying hm⟩]

/-- A request for the payload of one kind is granted to the nodes of that kind. -/
theorem expecting_eq_ok_iff {α : Type} {k : Kind} {r : NodeRequest} {x y : α} :
    (do a.expectKind n k r; return x : Except NodeError α) = .ok y ↔
      (a.node n).kind = k ∧ x = y := by
  rw [bind_eq_ok_iff, expectKind, kind]
  constructor
  · rintro ⟨⟨⟩, hk, ⟨⟩⟩
    split at hk
    · next h => exact ⟨h, rfl⟩
    · cases hk
  · rintro ⟨hk, rfl⟩
    exact ⟨(), if_pos hk, rfl⟩

theorem int64_eq_ok_iff {v : Int64} :
    a.int64 n = .ok v ↔ (a.node n).kind = .int64 ∧ (a.node n).int = v :=
  expecting_eq_ok_iff

theorem float64_eq_ok_iff {x : Float} :
    a.float64 n = .ok x ↔ (a.node n).kind = .float64 ∧ (a.node n).float = x :=
  expecting_eq_ok_iff

end Arena

/-! ## Integers -/

namespace Node

variable {d : Node}

theorem toText?_of_int64 (hk : d.kind = .int64) :
    ∃ e, d.toText? = some e ∧ e.kind = .string ∧ e.text = toString d.int.toInt ∧
      e.alive = d.alive := by
  refine ⟨{ d with text := toString d.int.toInt }.recast .string, ?_, rfl, rfl, rfl⟩
  rw [toText?, textValue?, hk]
  rfl

theorem toInt64?_of_text (hk : d.kind = .string) (hd : isInteger d.text = true) :
    ∃ e, d.toInt64? = some e ∧ e.kind = .int64 ∧ e.int = toInt64 d.text := by
  refine ⟨{ d with int := toInt64 d.text }.recast .int64, ?_, rfl, rfl⟩
  rw [toInt64?, integerValue?, hk, hd]
  rfl

end Node

/-- An integer that was converted to a text and back is what it was, unless it is the least. -/
theorem convert_text_int64 {a : Arena} {n : NodeId} {v : Int64} (hv : a.int64 n = .ok v)
    (hm : a.modifying n = .ok ()) :
    ∃ b c, a.convert n Node.toText? = .ok (true, b) ∧ b.text n = .ok (toString v.toInt) ∧
      b.convert n Node.toInt64? = .ok (true, c) ∧
      c.int64 n = .ok (if v = Int64.minValue then 0 else v) := by
  obtain ⟨hk, rfl⟩ := Arena.int64_eq_ok_iff.1 hv
  obtain ⟨halive, hlock⟩ := Arena.modifying_eq_ok_iff.1 hm
  obtain ⟨d, hd, hdk, hdt, hda⟩ := Node.toText?_of_int64 hk
  obtain ⟨b, hb, rfl, hbl⟩ := Arena.exists_convert hm hd
  have hint : isInteger (b.node n).text = true := by
    rw [hdt]
    exact (Numeral.isInteger_iff_denotes (Numeral.trimmed_toString _)).2
      ⟨_, Numeral.denotes_toString _⟩
  have hmb : b.modifying n = .ok () :=
    Arena.modifying_eq_ok_iff.2 ⟨hda.trans halive, hbl.trans hlock⟩
  obtain ⟨e, he, hek, hei⟩ := Node.toInt64?_of_text hdk hint
  obtain ⟨c, hc, rfl, -⟩ := Arena.exists_convert hmb he
  refine ⟨b, c, hb, ?_, hc, Arena.int64_eq_ok_iff.2 ⟨hek, ?_⟩⟩
  · rw [Arena.text, Arena.kind, hdk, ← hdt]
    rfl
  · rw [hei, hdt, Numeral.toInt64_toString]

/-- **Every integer but the least is read as what it is written as.**  A numeral, with whatever
blanks around it, has the value that it denotes if that is a machine word and 0 otherwise, but for
the least word, which is taken for too large.  So an integer survives the way to a text and back. -/
theorem numeral_value_iff (s : String) (a : Arena) (n : NodeId) :
    (∀ t v, Trimmed s.toList t → Denotes t v → isInteger s = true ∧
      ((toInt64 s).toInt = (if -2 ^ 63 ≤ v ∧ v < 2 ^ 63 then v else 0) ↔ v ≠ -2 ^ 63)) ∧
    (isInteger s = true → ∃ t v, Trimmed s.toList t ∧ Denotes t v) ∧
    (∀ v, a.int64 n = .ok v → a.isAlive n = true → a.lockCount n = 0 →
      ∃ b c, a.convert n Node.toText? = .ok (true, b) ∧ b.text n = .ok (toString v.toInt) ∧
        b.convert n Node.toInt64? = .ok (true, c) ∧
        c.int64 n = .ok (if v = Int64.minValue then 0 else v)) := by
  refine ⟨fun t v ht hv => ?_, fun hs => ?_, fun v hv halive hlock => ?_⟩
  · exact ⟨(Numeral.isInteger_iff_denotes ht).2 ⟨v, hv⟩, Numeral.toInt64_exact_iff ht hv⟩
  · have ht : Trimmed s.toList (Numeral.trim s.toList) := Numeral.trimmed_iff.2 rfl
    obtain ⟨v, hv⟩ := (Numeral.isInteger_iff_denotes ht).1 hs
    exact ⟨_, v, ht, hv⟩
  · exact convert_text_int64 hv (Arena.modifying_eq_ok_iff.2 ⟨halive, hlock⟩)

/-- The greatest word, in hexadecimal digits between blanks, and in a node. -/
theorem numeral_value_greatest :
    (toInt64 " +0X7fffffffffffffff\t").toInt = 2 ^ 63 - 1 ∧
      ∃ b c, (after [.create .int64 {}, .setInt64 ⟨0⟩ Int64.maxValue]).convert ⟨0⟩ Node.toText? =
          .ok (true, b) ∧ b.text ⟨0⟩ = .ok "9223372036854775807" ∧
        b.convert ⟨0⟩ Node.toInt64? = .ok (true, c) ∧ c.int64 ⟨0⟩ = .ok Int64.maxValue := by
  have ht : Trimmed " +0X7fffffffffffffff\t".toList "+0X7fffffffffffffff".toList :=
    Numeral.trimmed_iff.2 (by decide +kernel)
  have hv : Denotes "+0X7fffffffffffffff".toList (2 ^ 63 - 1) :=
    .plus (.hexadecimal (by decide)
      ((Numeral.spells_iff Numeral.standsFor_sixteen_iff).2 (by decide +kernel)))
  obtain ⟨hread, -, hconvert⟩ := numeral_value_iff " +0X7fffffffffffffff\t"
    (after [.create .int64 {}, .setInt64 ⟨0⟩ Int64.maxValue]) ⟨0⟩
  exact ⟨(hread _ _ ht hv).2.2 (by decide), hconvert Int64.maxValue rfl rfl rfl⟩

/-- The least word is written in digits of either base, and read as 0. -/
theorem numeral_value_least :
    (∀ s ∈ ["-9223372036854775808", "-0x8000000000000000"], Trimmed s.toList s.toList ∧
      Denotes s.toList (-2 ^ 63) ∧ isInteger s = true ∧ toInt64 s = 0) ∧
    (after [.create .int64 {}, .setInt64 ⟨0⟩ Int64.minValue, .convert ⟨0⟩ .text,
      .convert ⟨0⟩ .int64]).int64 ⟨0⟩ = .ok 0 := by
  refine ⟨?_, by decide +kernel⟩
  rw [List.forall_mem_cons, List.forall_mem_singleton]
  constructor
  · refine ⟨Numeral.trimmed_iff.2 (by decide +kernel), ?_, by decide +kernel, by decide +kernel⟩
    exact .minus (.decimal
      ((Numeral.spells_iff Numeral.standsFor_ten_iff).2 (by decide +kernel)))
  · refine ⟨Numeral.trimmed_iff.2 (by decide +kernel), ?_, by decide +kernel, by decide +kernel⟩
    exact .minus (.hexadecimal (by decide)
      ((Numeral.spells_iff Numeral.standsFor_sixteen_iff).2 (by decide +kernel)))

/-! ## Floats -/

theorem Kind.isLiteral_iff {k : Kind} : k.isLiteral = true ↔
    k = .false_ ∨ k = .float64 ∨ k = .int64 ∨ k = .null ∨ k = .string ∨ k = .true_ ∨
      k = .undefined := by
  unfold Kind.isLiteral
  split <;> simp_all

namespace Node

variable {d : Node}

theorem toFloat64?_of_literal (hk : d.kind.isLiteral = true) :
    ∃ e, d.toFloat64? = some e ∧ e.kind = .float64 ∧ e.float = d.asFloat := by
  by_cases hfloat : d.kind = .float64
  · exact ⟨d, by simp only [toFloat64?, hfloat], hfloat, by simp only [asFloat, hfloat]⟩
  · refine ⟨{ d with float := d.asFloat }.recast .float64, ?_, rfl, rfl⟩
    rcases Kind.isLiteral_iff.1 hk with h | h | h | h | h | h | h
    case inr.inl => exact absurd h hfloat
    all_goals simp only [toFloat64?, h]

/-- The kind and the text of a literal tell whether it becomes no number, unless it is a float. -/
theorem isNaN_asFloat (hk : d.kind.isLiteral = true) (hfloat : d.kind ≠ .float64) :
    d.asFloat.isNaN = d.kind.isNan d.text := by
  have hzero : (0.0 : Float).isNaN = false := by decide +kernel
  have hone : (1.0 : Float).isNaN = false := by decide +kernel
  have hnone : (0.0 / 0.0 : Float).isNaN = true := by decide +kernel
  rcases Kind.isLiteral_iff.1 hk with h | h | h | h | h | h | h
  case inr.inl => exact absurd h hfloat
  all_goals
    simp only [asFloat, Kind.isNan, h, hzero, hone, hnone, Numeral.isNaN_ofInt,
      Numeral.isNaN_toFloat]

end Node

/-- **What a literal says about its conversion to a float comes true**, unless it is a float
already: of such a one the kind alone is looked at, and it is said to be a number. -/
theorem isNan_predicts_iff {a : Arena} {n : NodeId} (hk : (a.kind n).isLiteral = true)
    (halive : a.isAlive n = true) (hlock : a.lockCount n = 0) :
    ∃ b x, a.convert n Node.toFloat64? = .ok (true, b) ∧ b.float64 n = .ok x ∧
      ((a.isNan n = true ↔ x.isNaN = true) ↔ ∀ y, a.float64 n = .ok y → y.isNaN = false) := by
  obtain ⟨d, hd, hdk, hdx⟩ := Node.toFloat64?_of_literal hk
  obtain ⟨b, hb, rfl, -⟩ := Arena.exists_convert (Arena.modifying_eq_ok_iff.2 ⟨halive, hlock⟩) hd
  refine ⟨b, (a.node n).asFloat, hb, Arena.float64_eq_ok_iff.2 ⟨hdk, hdx⟩, ?_⟩
  simp only [Arena.float64_eq_ok_iff, and_imp]
  by_cases hfloat : (a.node n).kind = .float64
  · have hsaid : a.isNan n = false := by
      rw [Arena.isNan, Arena.kind, hfloat]
      rfl
    have hmade : (a.node n).asFloat = (a.node n).float := by
      rw [Node.asFloat, hfloat]
    simp [hsaid, hmade, hfloat]
  · have hsaid : a.isNan n = (a.node n).asFloat.isNaN := (Node.isNaN_asFloat hk hfloat).symm
    rw [hsaid]
    exact ⟨fun _ _ h => absurd h hfloat, fun _ => Iff.rfl⟩

/-- A prefix without a digit is a numeral of neither sort. -/
theorem isNan_predicts_prefix :
    ∃ b x, (after [.create .string {}, .setText ⟨0⟩ "0x"]).convert ⟨0⟩ Node.toFloat64? =
        .ok (true, b) ∧ b.float64 ⟨0⟩ = .ok x ∧ x.isNaN = true := by
  have hsaid : (after [.create .string {}, .setText ⟨0⟩ "0x"]).isNan ⟨0⟩ = true := by decide +kernel
  obtain ⟨b, x, hb, hx, h⟩ := isNan_predicts_iff
    (a := after [.create .string {}, .setText ⟨0⟩ "0x"]) (n := ⟨0⟩) rfl rfl rfl
  exact ⟨b, x, hb, hx, (h.2 fun _ hy => nomatch hy).1 hsaid⟩

/-- A float that is no number stays what it is, though it is said to become a number. -/
theorem isNan_misses_float :
    (after [.create .float64 {}, .setFloat64 ⟨0⟩ (0.0 / 0.0)]).isNan ⟨0⟩ = false ∧
      ∃ x, (after [.create .float64 {}, .setFloat64 ⟨0⟩ (0.0 / 0.0),
        .convert ⟨0⟩ .float64]).float64 ⟨0⟩ = .ok x ∧ x.isNaN = true :=
  ⟨by decide +kernel, 0.0 / 0.0, rfl, by decide +kernel⟩

end SymbolTree
