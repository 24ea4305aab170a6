import Elementwise.Size

/-!
# Checked access to arrays

Reading or writing an element at an index that does not exist is a fault.
-/

namespace Elementwise

/-- The element at an index, which has to exist. -/
def elementAt {α : Type} (values : Array α) (index : Nat) : Except Fault α :=
  match values[index]? with
  | some value => .ok value
  | none => .error .outOfBounds

/-- The array with the element at an index replaced, which has to exist. -/
def setElement
    {α : Type}
    (values : Array α)
    (index : Nat)
    (value : α) : Except Fault (Array α) :=
  if index < values.size then
    .ok (values.setIfInBounds index value)
  else
    .error .outOfBounds

theorem elementAt_eq_ok_iff
    {α : Type}
    {values : Array α}
    {index : Nat}
    {value : α} :
    elementAt values index = .ok value ↔ values[index]? = some value := by
  unfold elementAt
  split <;> simp_all

theorem setElement_eq_ok_iff
    {α : Type}
    {values result : Array α}
    {index : Nat}
    {value : α} :
    setElement values index value = .ok result ↔
      index < values.size ∧ result = values.setIfInBounds index value := by
  unfold setElement
  split
  next inside => simp [inside, eq_comm]
  next outside => simp [outside]

end Elementwise
