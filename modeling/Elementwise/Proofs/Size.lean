import Mathlib.Algebra.Order.BigOperators.Group.List
import Elementwise.Error
import Elementwise.Proofs.Action

/-!
# Products of sizes

A product of sizes is computed if every product of its first factors is a
size.  The factors behind an empty one do not matter then, which is why the
last product alone decides only where no factor is zero, and why the factors
behind an empty one may have a product of their own that is not computed.
-/

namespace Elementwise.Size

theorem lift_eq_ok
    {β : Type}
    {result : Except Fault β}
    {value : β}
    (lifted : lift result = .ok value) :
    result = .ok value := by
  cases result with
  | ok answer =>
    cases lifted
    rfl
  | error reason => cases lifted

variable {factors : List Nat} {first size : Nat}

theorem foldlM_mul_eq_ok_iff
    (sized : first < limit) :
    factors.foldlM mul first = .ok size ↔
      size = first * factors.prod ∧ ∀ count, first * (factors.take count).prod < limit := by
  induction factors generalizing first with
  | nil => simp [pure, Except.pure, sized, eq_comm]
  | cons factor factors step =>
    rw [List.foldlM_cons, bind_eq_ok_iff]
    constructor
    · rintro ⟨next, multiplied, rest⟩
      obtain ⟨fits, rfl⟩ := check_eq_ok_iff.1 multiplied
      obtain ⟨rfl, bounded⟩ := (step fits).1 rest
      refine ⟨by rw [List.prod_cons, Nat.mul_assoc], fun count => ?_⟩
      cases count with
      | zero => simpa using sized
      | succ count => simpa [Nat.mul_assoc] using bounded count
    · rintro ⟨rfl, bounded⟩
      have fits : first * factor < limit := by simpa using bounded 1
      refine ⟨_, check_eq_ok_iff.2 ⟨fits, rfl⟩, (step fits).2 ⟨?_, fun count => ?_⟩⟩
      · rw [List.prod_cons, Nat.mul_assoc]
      · simpa [Nat.mul_assoc] using bounded (count + 1)

/-- A product is computed if no product of its first factors leaves the range. -/
theorem product_eq_ok_iff :
    product factors = .ok size ↔
      size = factors.prod ∧ ∀ count, (factors.take count).prod < limit := by
  rw [product, foldlM_mul_eq_ok_iff (by decide)]
  simp only [Nat.one_mul]

/-- A product that stays in range is the product. -/
theorem product_eq_ok
    (counted : product factors = .ok size) :
    size = factors.prod :=
  (product_eq_ok_iff.1 counted).1

/-- A product of positive factors is computed if it is a size. -/
theorem product_of_pos
    (positive : ∀ factor ∈ factors, 0 < factor)
    (fits : factors.prod < limit) :
    product factors = .ok factors.prod := by
  refine product_eq_ok_iff.2 ⟨rfl, fun count => Nat.lt_of_le_of_lt ?_ fits⟩
  have rest : 1 ≤ (factors.drop count).prod :=
    List.prod_pos_iff_forall_pos_nat.2 fun factor member =>
      positive factor (List.mem_of_mem_drop member)
  calc (factors.take count).prod
      ≤ (factors.take count).prod * (factors.drop count).prod := Nat.le_mul_of_pos_right _ rest
    _ = factors.prod := List.prod_take_mul_prod_drop factors count

theorem check_eq_error_iff
    {value : Nat}
    {reason : Fault} :
    check value = .error reason ↔ limit ≤ value ∧ reason = .overflow := by
  by_cases fits : value < limit
  · simp [check, fits]
  · simp [check, fits, Nat.le_of_not_lt fits, eq_comm]

theorem eq_overflow_of_foldlM_mul
    {reason : Fault}
    (failed : factors.foldlM mul first = .error reason) :
    reason = .overflow := by
  induction factors generalizing first with
  | nil => cases failed
  | cons factor factors step =>
    rw [List.foldlM_cons, bind_eq_error_iff] at failed
    rcases failed with here | ⟨next, -, later⟩
    · exact (check_eq_error_iff.1 here).2
    · exact step later

/-- A product fails just if a product of its first factors leaves the range. -/
theorem product_eq_error_iff
    {reason : Fault} :
    product factors = .error reason ↔
      reason = .overflow ∧ ∃ count, limit ≤ (factors.take count).prod := by
  constructor
  · intro failed
    refine ⟨eq_overflow_of_foldlM_mul failed, ?_⟩
    by_contra none
    have bounded : ∀ count, (factors.take count).prod < limit := fun count =>
      Nat.lt_of_not_le fun exceeds => none ⟨count, exceeds⟩
    rw [product_eq_ok_iff.2 ⟨rfl, bounded⟩] at failed
    cases failed
  · rintro ⟨rfl, count, exceeds⟩
    cases counted : product factors with
    | error other => rw [eq_overflow_of_foldlM_mul counted]
    | ok size => exact absurd ((product_eq_ok_iff.1 counted).2 count) (Nat.not_lt_of_le exceeds)

/-- There is no other reason for a product not to be computed. -/
theorem product_eq_ok_of_ne
    (fits : product factors ≠ .error .overflow) :
    product factors = .ok factors.prod := by
  cases counted : product factors with
  | ok size => rw [product_eq_ok counted]
  | error reason =>
    obtain ⟨rfl, -⟩ := product_eq_error_iff.1 counted
    exact absurd counted fits

/-- The product of the first factors is computed before that of all. -/
theorem product_take
    (counted : product factors = .ok size)
    (count : Nat) :
    product (factors.take count) = .ok (factors.take count).prod := by
  refine product_eq_ok_iff.2 ⟨rfl, fun fewer => ?_⟩
  rw [List.take_take]
  exact (product_eq_ok_iff.1 counted).2 _

/-- Without first factors that are not zero, a product is computed if it is with them. -/
theorem product_drop
    (counted : product factors = .ok size)
    {count : Nat}
    (positive : 0 < (factors.take count).prod) :
    product (factors.drop count) = .ok (factors.drop count).prod := by
  refine product_eq_ok_iff.2 ⟨rfl, fun further => ?_⟩
  calc ((factors.drop count).take further).prod
      ≤ (factors.take count).prod * ((factors.drop count).take further).prod :=
        Nat.le_mul_of_pos_left _ positive
    _ = (factors.take (count + further)).prod := by rw [List.take_add, List.prod_append]
    _ < limit := (product_eq_ok_iff.1 counted).2 _

theorem prod_set_one_le
    {index : Nat}
    (positive : ∀ factor, factors[index]? = some factor → 0 < factor) :
    (factors.set index 1).prod ≤ factors.prod := by
  induction factors generalizing index with
  | nil => exact Nat.le_refl _
  | cons factor factors step =>
    cases index with
    | zero =>
      rw [List.set_cons_zero, List.prod_cons, List.prod_cons]
      exact Nat.mul_le_mul_right _ (positive factor rfl)
    | succ index =>
      rw [List.set_cons_succ, List.prod_cons, List.prod_cons]
      exact Nat.mul_le_mul_left _ (step positive)

/-- A factor that is not zero may be replaced by one. -/
theorem product_set_one
    (counted : product factors = .ok size)
    {index : Nat}
    (positive : ∀ factor, factors[index]? = some factor → 0 < factor) :
    product (factors.set index 1) = .ok (factors.set index 1).prod := by
  refine product_eq_ok_iff.2 ⟨rfl, fun count => ?_⟩
  rw [List.take_set]
  refine Nat.lt_of_le_of_lt (prod_set_one_le fun factor found => positive factor ?_)
    ((product_eq_ok_iff.1 counted).2 count)
  rw [List.getElem?_take] at found
  split at found
  · exact found
  · cases found

end Elementwise.Size
