import Elementwise.Operation.Calculus
import Mathlib.Analysis.SpecialFunctions.Pow.Deriv
import Mathlib.Analysis.SpecialFunctions.Sigmoid
import Mathlib.Analysis.SpecialFunctions.Trigonometric.DerivHyp

/-!
# The local derivatives over the real numbers

Over the real numbers the rules of `OpCode.partials` are the derivatives of
`OpCode.eval`, in either operand while the other one is held fixed.  The
exceptions are the points at which an operation is not a differentiable
function of its operands: the zeros of a divisor, the corner of `relu`, and
the operands of a logarithm and the bases of a power that are not positive.

The rules for the logistic function and the hyperbolic tangent are written in
the value of the operation, and each of them rests on the differential
equation that the function satisfies.
-/

noncomputable section

namespace Elementwise

instance : RealFunctions ℝ where
  zero := 0
  one := 1
  add := (· + ·)
  sub := (· - ·)
  mul := (· * ·)
  div := (· / ·)
  pow := (· ^ ·)
  neg := (-·)
  log := Real.log
  exp := Real.exp
  tanh := Real.tanh
  isPositive value := decide (0 < value)

namespace OpCode

/-- The operands at which an operation has a derivative. -/
def IsSmoothAt (opcode : OpCode) (left right : ℝ) : Prop :=
  match opcode with
  | .div => right ≠ 0
  | .pow | .log => 0 < left
  | .relu => left ≠ 0
  | _ => True

/-- The quotient rule in the divisor, with one inverse formed and used twice. -/
theorem hasDerivAt_div
    (left : ℝ)
    {right : ℝ}
    (nonzero : right ≠ 0) :
    HasDerivAt (fun divisor => left / divisor)
      (-left * (1 / right) * (1 / right)) right := by
  have quotient := (hasDerivAt_inv nonzero).const_mul left
  refine quotient.congr_deriv ?_
  field_simp

/--
The logistic function satisfies `f' = f * (1 - f)`, so its value is all that
its derivative needs.
-/
theorem hasDerivAt_sigmoid (left : ℝ) :
    HasDerivAt (fun operand => 1 / (1 + Real.exp (-operand)))
      (1 / (1 + Real.exp (-left)) *
        (1 - 1 / (1 + Real.exp (-left)))) left := by
  have reciprocal :
      (fun operand => 1 / (1 + Real.exp (-operand))) = Real.sigmoid :=
    funext fun operand => (one_div _).trans (Real.sigmoid_def operand).symm
  rw [reciprocal, congrFun reciprocal left]
  exact Real.hasDerivAt_sigmoid left

/--
The hyperbolic tangent satisfies `f' = 1 - f * f`: the quotient rule for
`sinh / cosh` has the numerator `cosh * cosh - sinh * sinh`.
-/
theorem hasDerivAt_tanh (left : ℝ) :
    HasDerivAt Real.tanh (1 - Real.tanh left * Real.tanh left) left := by
  have nonzero : Real.cosh left ≠ 0 := (Real.cosh_pos left).ne'
  have quotient :=
    (Real.hasDerivAt_sinh left).div (Real.hasDerivAt_cosh left) nonzero
  have ratio :
      Real.tanh = fun operand => Real.sinh operand / Real.cosh operand :=
    funext Real.tanh_eq_sinh_div_cosh
  rw [ratio]
  refine quotient.congr_deriv ?_
  field_simp

/--
Away from its corner `relu` is the identity or zero on a whole neighbourhood
of the operand.
-/
theorem hasDerivAt_relu
    {left : ℝ}
    (nonzero : left ≠ 0) :
    HasDerivAt (fun operand : ℝ => if 0 < operand then operand else 0)
      (if 0 < left then 1 else 0) left := by
  rcases lt_or_gt_of_ne nonzero with negative | positive
  · rw [if_neg negative.not_gt]
    refine (hasDerivAt_const left (0 : ℝ)).congr_of_eventuallyEq ?_
    filter_upwards [gt_mem_nhds negative] with operand near
    exact if_neg near.not_gt
  · rw [if_pos positive]
    refine (hasDerivAt_id' left).congr_of_eventuallyEq ?_
    filter_upwards [lt_mem_nhds positive] with operand near
    exact if_pos near

/--
The partials of an operation, at its operands and its value there, are the
derivatives of the operation in its left and in its right operand.
-/
theorem hasDerivAt_partials
    (opcode : OpCode)
    (left right : ℝ)
    (smooth : opcode.IsSmoothAt left right) :
    HasDerivAt (fun operand => opcode.eval operand right)
        (opcode.partials left right (opcode.eval left right)).1 left ∧
      HasDerivAt (fun operand => opcode.eval left operand)
        (opcode.partials left right (opcode.eval left right)).2 right := by
  -- A unary operation does not read its right operand.
  have ignored : ∀ value : ℝ,
      HasDerivAt (fun _ : ℝ => value) 0 right :=
    hasDerivAt_const right
  cases opcode with
  | copy => exact ⟨hasDerivAt_id' left, ignored left⟩
  | add =>
      exact ⟨(hasDerivAt_id' left).add_const right,
        (hasDerivAt_id' right).const_add left⟩
  | sub =>
      exact ⟨(hasDerivAt_id' left).sub_const right,
        (hasDerivAt_id' right).const_sub left⟩
  | mul =>
      refine ⟨hasDerivAt_mul_const right, ?_⟩
      have product := (hasDerivAt_id' right).const_mul left
      exact product.congr_deriv (mul_one left)
  | div =>
      exact ⟨(hasDerivAt_id' left).div_const right,
        hasDerivAt_div left smooth⟩
  | pow =>
      exact ⟨Real.hasDerivAt_rpow_const (.inl smooth.ne'),
        (Real.hasStrictDerivAt_const_rpow smooth right).hasDerivAt⟩
  | neg => exact ⟨(hasDerivAt_id' left).neg, ignored _⟩
  | log =>
      refine ⟨?_, ignored _⟩
      have logarithm := Real.hasDerivAt_log smooth.ne'
      exact logarithm.congr_deriv (one_div left).symm
  | exp => exact ⟨Real.hasDerivAt_exp left, ignored _⟩
  | relu =>
      refine ⟨?_, ignored _⟩
      have corner := hasDerivAt_relu smooth
      simpa only [eval, partials, RealFunctions.isPositive, RealFunctions.zero,
        RealFunctions.one, decide_eq_true_eq] using corner
  | sigmoid => exact ⟨hasDerivAt_sigmoid left, ignored _⟩
  | tanh => exact ⟨hasDerivAt_tanh left, ignored _⟩

/-- At the base two and the exponent three the partials are 12 and `8 log 2`. -/
theorem hasDerivAt_cube_of_two :
    HasDerivAt (fun base : ℝ => OpCode.pow.eval base 3) 12 2 ∧
      HasDerivAt (fun exponent : ℝ => OpCode.pow.eval 2 exponent)
        (8 * Real.log 2) 3 := by
  have ⟨base, exponent⟩ := hasDerivAt_partials .pow 2 3 two_pos
  have square : (2 : ℝ) ^ ((3 : ℝ) - 1) = 4 := by norm_num
  have cube : (2 : ℝ) ^ (3 : ℝ) = 8 := by norm_num
  refine ⟨base.congr_deriv ?_, exponent.congr_deriv ?_⟩
  · change (3 : ℝ) * 2 ^ ((3 : ℝ) - 1) = 12
    rw [square]
    norm_num
  · change (2 : ℝ) ^ (3 : ℝ) * Real.log 2 = 8 * Real.log 2
    rw [cube]

end OpCode

end Elementwise

end
