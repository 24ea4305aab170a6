import Mathlib
import Elementwise.Element.Float

/-!
# Positions of machine numbers

A machine number is a whole multiple of the least positive one, which is read
off its pattern: an exponent stands above a fraction, and a leading bit is
added to the fraction unless the exponent is zero.  The greatest exponent with
fraction zero stands for infinity, beyond all finite numbers.

The position of a number on the number line only counts patterns.  It is
ordered like the multiples all the same, and coincides just for the two zeros.
-/

namespace Elementwise

/-- The multiple of the least positive number for which a pattern without sign stands. -/
def scaledMagnitude (fractionBits pattern : Nat) : Nat :=
  let exponent := pattern / 2 ^ fractionBits
  let fraction := pattern % 2 ^ fractionBits
  if exponent = 0 then fraction else (2 ^ fractionBits + fraction) * 2 ^ (exponent - 1)

/-- The multiple of the least positive number for which a pattern stands. -/
def scaledValue (fractionBits signBit pattern : Nat) : Int :=
  if pattern < signBit then scaledMagnitude fractionBits pattern
  else -(scaledMagnitude fractionBits (pattern - signBit) : Int)

variable {fractionBits signBit first second : Nat}

theorem scaledMagnitude_of_lt
    {exponent fraction : Nat}
    (inside : fraction < 2 ^ fractionBits) :
    scaledMagnitude fractionBits (exponent * 2 ^ fractionBits + fraction) =
      if exponent = 0 then fraction else (2 ^ fractionBits + fraction) * 2 ^ (exponent - 1) := by
  have positive : 0 < 2 ^ fractionBits := Nat.two_pow_pos fractionBits
  have leading : (exponent * 2 ^ fractionBits + fraction) / 2 ^ fractionBits = exponent := by
    rw [Nat.mul_comm, Nat.mul_add_div positive, Nat.div_eq_of_lt inside, Nat.add_zero]
  have trailing : (exponent * 2 ^ fractionBits + fraction) % 2 ^ fractionBits = fraction := by
    rw [Nat.mul_comm, Nat.mul_add_mod, Nat.mod_eq_of_lt inside]
  simp only [scaledMagnitude, leading, trailing]

theorem strictMono_scaledMagnitude (fractionBits : Nat) :
    StrictMono (scaledMagnitude fractionBits) := by
  refine strictMono_nat_of_lt_succ fun pattern => ?_
  have positive : 0 < 2 ^ fractionBits := Nat.two_pow_pos fractionBits
  obtain ⟨exponent, fraction, inside, rfl⟩ : ∃ exponent fraction,
      fraction < 2 ^ fractionBits ∧ pattern = exponent * 2 ^ fractionBits + fraction :=
    ⟨_, _, Nat.mod_lt pattern positive, (Nat.div_add_mod' pattern _).symm⟩
  rw [scaledMagnitude_of_lt inside, Nat.add_assoc]
  rcases Nat.lt_or_eq_of_le (Nat.succ_le_of_lt inside) with below | last
  · rw [scaledMagnitude_of_lt below]
    split
    · exact Nat.lt_succ_self fraction
    · exact Nat.mul_lt_mul_of_pos_right (Nat.lt_succ_self _) (Nat.two_pow_pos _)
  · -- the fraction is full, so the next pattern starts the next exponent
    have next : exponent * 2 ^ fractionBits + (fraction + 1) =
        (exponent + 1) * 2 ^ fractionBits + 0 := by
      rw [← Nat.succ_eq_add_one fraction, last, Nat.succ_mul, Nat.add_zero]
    rw [next, scaledMagnitude_of_lt positive, if_neg (Nat.succ_ne_zero exponent), Nat.add_zero,
      Nat.add_sub_cancel]
    cases exponent with
    | zero => simpa using inside
    | succ exponent =>
      calc (2 ^ fractionBits + fraction) * 2 ^ exponent
          < (2 ^ fractionBits + 2 ^ fractionBits) * 2 ^ exponent :=
            Nat.mul_lt_mul_of_pos_right (Nat.add_lt_add_left inside _) (Nat.two_pow_pos _)
        _ = 2 ^ fractionBits * 2 ^ (exponent + 1) := by
            rw [← Nat.mul_two, Nat.mul_assoc, Nat.pow_succ']

theorem scaledMagnitude_zero (fractionBits : Nat) : scaledMagnitude fractionBits 0 = 0 := by
  simp [scaledMagnitude]

/-- Numbers have positions in the order of their values. -/
theorem scaledValue_le_iff :
    scaledValue fractionBits signBit first ≤ scaledValue fractionBits signBit second ↔
      signedMagnitude signBit first ≤ signedMagnitude signBit second := by
  have ordered : ∀ left right, scaledMagnitude fractionBits left ≤
      scaledMagnitude fractionBits right ↔ left ≤ right :=
    fun _ _ => (strictMono_scaledMagnitude fractionBits).le_iff_le
  have zero := scaledMagnitude_zero fractionBits
  unfold scaledValue signedMagnitude
  split <;> split
  · exact Int.ofNat_le.trans ((ordered _ _).trans Int.ofNat_le.symm)
  · have lower := ordered first 0
    have upper := ordered (second - signBit) 0
    omega
  · omega
  · rw [Int.neg_le_neg_iff, Int.neg_le_neg_iff]
    exact Int.ofNat_le.trans ((ordered _ _).trans Int.ofNat_le.symm)

/-- Numbers of different patterns have one position only if they are the two zeros. -/
theorem signedMagnitude_eq_iff :
    signedMagnitude signBit first = signedMagnitude signBit second ↔
      first = second ∨ first = 0 ∧ second = signBit ∨ first = signBit ∧ second = 0 := by
  unfold signedMagnitude
  split <;> split <;> omega

end Elementwise
