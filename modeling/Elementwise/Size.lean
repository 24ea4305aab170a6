/-!
# Machine sizes

Element counts, dimensions and offsets are natural numbers below `2 ^ 64`.
The operations here compute the mathematical result and report an overflow
when it does not fit, so that no size is ever silently reduced.

The product of a list is taken from the left, starting with one.  The order
matters: a zero in front absorbs the factors behind it, while a zero at the
end comes too late for a product that has already left the range.
-/

namespace Elementwise

/-- Why a computation stops without an answer. -/
inductive Fault where
  /-- A size left the range of machine sizes. -/
  | overflow
  /-- An element was read at an index that does not exist. -/
  | outOfBounds
deriving DecidableEq, Repr

namespace Size

/-- Every size lies below this bound. -/
def limit : Nat := 0x10000000000000000

/-- A number as a size, if it is one. -/
def check (value : Nat) : Except Fault Nat :=
  if value < limit then .ok value else .error .overflow

/-- The sum of two sizes. -/
def add (left right : Nat) : Except Fault Nat :=
  check (left + right)

/-- The product of two sizes. -/
def mul (left right : Nat) : Except Fault Nat :=
  check (left * right)

/-- The product of a list of sizes, taken from the left. -/
def product (factors : List Nat) : Except Fault Nat :=
  factors.foldlM mul 1

/-- The number of runs of `length` entries that cover `total` entries. -/
def runs (total length : Nat) : Nat :=
  (total + length - 1) / length

theorem check_eq_ok_iff
    {value result : Nat} :
    check value = .ok result ↔ value < limit ∧ result = value := by
  by_cases fits : value < limit <;> simp [check, fits, eq_comm]

@[simp]
theorem product_nil : product [] = .ok 1 := rfl

/-- Runs of at least two entries are fewer than the entries they cover. -/
theorem runs_lt
    {total length : Nat}
    (many : 1 < total)
    (long : 2 ≤ length) :
    runs total length < total := by
  unfold runs
  rw [Nat.div_lt_iff_lt_mul (by omega)]
  calc total + length - 1 < total + length := by omega
    _ ≤ total * length := by
      obtain ⟨a, rfl⟩ := Nat.exists_eq_add_of_le many
      obtain ⟨b, rfl⟩ := Nat.exists_eq_add_of_le long
      simp only [Nat.add_mul, Nat.mul_add]
      have := Nat.zero_le (a * b)
      omega

end Size

end Elementwise
