import SymbolTree.Numeral

/-!
# Numerals and the float that is no number

No numeral is read as the float that is no number, however long it is and whatever its exponent.
The float of a numeral is a product or a quotient by a power of ten, and such an operation can only
fail to give a number if it starts from something that is none (`isNaN_mul`, `isNaN_div`): a power of
ten is neither zero nor an infinity.  What is rounded is a number again, or an infinity when it is
packed into too few bits (`isNaN_pack`).

So a text is read as no number exactly when it is not recognized as one.

## Main statements

* `isNaN_pack` — packing a float into its bits keeps whether it is a number.
* `isNaN_ofScientific`, `isNaN_ofInt` — powers of ten and integers.
* `isNaN_toFloat` — texts.
-/

set_option autoImplicit false
namespace SymbolTree.Numeral

open Float.Model (UnpackedFloat Format)
open Float.Model.UnpackedFloat (unpackExponent unpackMantissa)

/-! ## Bits -/

/-- A float is no number if its exponent is all ones and its mantissa is not zero. -/
theorem isNaN_unpack {spec : Format} (b : BitVec spec.numBits) :
    (UnpackedFloat.unpack spec b).isNaN = true ↔
      unpackExponent b = -1#_ ∧ unpackMantissa b ≠ 0#_ := by
  unfold UnpackedFloat.unpack
  by_cases hexponent : unpackExponent b = -1#_
  · rw [if_pos hexponent]
    by_cases hmantissa : unpackMantissa b = 0#_
    · rw [if_pos hmantissa]
      exact iff_of_false Bool.false_ne_true fun h => h.2 hmantissa
    · rw [if_neg hmantissa]
      exact iff_of_true rfl ⟨hexponent, hmantissa⟩
  · rw [if_neg hexponent]
    have hneither : ¬ (unpackExponent b = -1#_ ∧ unpackMantissa b ≠ 0#_) := fun h => hexponent h.1
    by_cases hsmall : unpackExponent b = 0#_
    · rw [if_pos hsmall]
      by_cases hmantissa : unpackMantissa b = 0#_
      · rw [dif_pos hmantissa]
        exact iff_of_false Bool.false_ne_true hneither
      · rw [dif_neg hmantissa]
        exact iff_of_false Bool.false_ne_true hneither
    · rw [if_neg hsmall]
      exact iff_of_false Bool.false_ne_true hneither

/-- Packing a float into its bits keeps whether it is a number. -/
theorem isNaN_pack (u : UnpackedFloat) : (Float.Model.pack u).isNaN = u.isNaN := by
  change (UnpackedFloat.unpack .binary64 (UnpackedFloat.pack .binary64 u)).isNaN = u.isNaN
  rw [Bool.eq_iff_iff, isNaN_unpack]
  fun_cases UnpackedFloat.pack with
  | case1 => decide
  | case2 s => cases s <;> decide
  | case3 s => cases s <;> decide
  | case4 s m e hm biased hlarge =>
    change _ ↔ false = true
    cases s <;> decide
  | case5 s m e hm bits biased hsmall hnormal =>
    -- the largest exponent is left to the infinities and to what is no number
    have hexponent : BitVec.ofNat 11 biased ≠ 2047#11 := by
      intro h
      have htoNat := congrArg BitVec.toNat h
      have hbound : biased + 1 < 2 ^ 11 := Nat.lt_of_not_le hsmall
      rw [BitVec.toNat_ofNat, BitVec.toNat_ofNat] at htoNat
      omega
    change _ ↔ false = true
    simp [hexponent]
  | case6 s m e hm bits biased hsmall hnormal =>
    change _ ↔ false = true
    simp

/-! ## Operations -/

/-- A number other than zero, and no infinity. -/
def isOrdinary : UnpackedFloat → Bool
  | .finite .. => true
  | _ => false

section
variable {spec : Format} {u v : UnpackedFloat}

theorem isNaN_roundWithAccuracy (s : UnpackedFloat.Sign) (m : Nat) (e : Int)
    (accuracy : UnpackedFloat.Accuracy) :
    (UnpackedFloat.roundWithAccuracy spec s m e accuracy).isNaN = false := by
  fun_cases UnpackedFloat.roundWithAccuracy spec s m e accuracy <;> rfl

/-- To round leads to a number or an infinity. -/
theorem isNaN_normalize (m e : Int) (s : UnpackedFloat.Sign) :
    (UnpackedFloat.normalize spec m e s).isNaN = false := by
  unfold UnpackedFloat.normalize
  split
  · exact isNaN_roundWithAccuracy _ _ _ _
  · rfl
  · exact isNaN_roundWithAccuracy _ _ _ _

/-- A product by an ordinary float is a number if the other factor is. -/
theorem isNaN_mul (hv : isOrdinary v = true) : (UnpackedFloat.mul spec u v).isNaN = u.isNaN := by
  cases v with
  | finite s m e hm =>
    cases u with
    | finite => exact isNaN_roundWithAccuracy _ _ _ _
    | _ => rfl
  | _ => cases hv

/-- And so is a quotient. -/
theorem isNaN_div (hv : isOrdinary v = true) : (UnpackedFloat.div spec u v).isNaN = u.isNaN := by
  cases v with
  | finite s m e hm =>
    cases u with
    | finite => exact isNaN_roundWithAccuracy _ _ _ _
    | _ => rfl
  | _ => cases hv

theorem isNaN_unpacked_ofScientific (m : Nat) (e : Int) :
    (UnpackedFloat.ofScientific spec m e).isNaN = false := by
  fun_cases UnpackedFloat.ofScientific spec m e with
  | case1 => rfl
  | case2 => rfl
  | case3 => rfl
  | case4 => exact isNaN_mul rfl
  | case5 => exact isNaN_div rfl

end

/-! ## Numbers -/

/-- The powers of ten in the table are ordinary. -/
theorem isOrdinary_powerOfTen (e : Nat) (he : e < Float.exactlyRepresentablePowersOfTen.size) :
    isOrdinary Float.exactlyRepresentablePowersOfTen[e].toModel.unpack = true := by
  have hall : Float.exactlyRepresentablePowersOfTen.all
      (fun x => isOrdinary x.toModel.unpack) = true := by decide +kernel
  exact Array.all_eq_true.1 hall e he

theorem isNaN_ofScientific (m : Nat) (s : Bool) (e : Nat) :
    (Float.ofScientific m s e).isNaN = false := by
  have hword : m.toUInt64.toFloat.toModel.unpack.isNaN = false :=
    (isNaN_pack _).trans (isNaN_normalize _ _ _)
  unfold Float.ofScientific
  split
  · dsimp only
    split
    · exact (isNaN_pack _).trans ((isNaN_div (isOrdinary_powerOfTen e _)).trans hword)
    · exact (isNaN_pack _).trans ((isNaN_mul (isOrdinary_powerOfTen e _)).trans hword)
  · exact (isNaN_pack _).trans (isNaN_unpacked_ofScientific _ _)

theorem isNaN_neg (x : Float) : (-x).isNaN = x.isNaN := by
  change (Float.Model.pack _).isNaN = x.toModel.unpack.isNaN
  rw [isNaN_pack]
  cases x.toModel.unpack <;> rfl

/-- An integer is a number, however many digits are lost. -/
theorem isNaN_ofInt (v : Int) : (Float.ofInt v).isNaN = false := by
  cases v with
  | ofNat n => exact isNaN_ofScientific n false 0
  | negSucc n => exact (isNaN_neg _).trans (isNaN_ofScientific (n + 1) false 0)

/-- No decimal number is read as no number. -/
theorem isNaN_scientific (x : Scientific) : x.toFloat.isNaN = false := by
  have hsign : ∀ y : Float, y.isNaN = false → (if x.negative then -y else y).isNaN = false := by
    intro y hy
    split
    · exact (isNaN_neg y).trans hy
    · exact hy
  unfold Scientific.toFloat
  dsimp only
  refine hsign _ ?_
  split
  · decide
  split
  · decide
  split
  · exact isNaN_ofScientific _ _ _
  · exact isNaN_ofScientific _ _ _

/-- A text is read as no number exactly when it is not recognized as one. -/
theorem isNaN_toFloat (s : String) : (toFloat s).isNaN = !isNumber s := by
  rw [toFloat, isNumber, isDecimal]
  cases decimal? s with
  | some x => rw [isNaN_scientific, Option.isSome_some, Bool.or_true, Bool.not_true]
  | none =>
    rw [Option.isSome_none, Bool.or_false]
    cases isInteger s with
    | true => exact isNaN_ofInt _
    | false => exact (by decide : (0.0 / 0.0 : Float).isNaN = true)

end SymbolTree.Numeral
