import Mathlib
import Elementwise.Shape.Index
import Elementwise.Proofs.Size

/-!
# Coordinates and their numbers

The numbers below the element count of a shape and the coordinates inside the
shape correspond to each other.  The number of a coordinate counts each
component as often as there are elements behind its axis, so numbers are
ordered like coordinates.  All this needs that the elements can be counted:
dimensions are multiplied from the first, and an empty one behind a product
that has left the range comes too late.

Both directions are compared with this sum, `place`, axis by axis from the
slowest: the number is extended from the left while the digits come from the
right, and the sum is what the two have in common.
-/

namespace Elementwise.Shape

/-- A coordinate of a shape has one component for each axis, below its dimension. -/
def Contains (shape : Shape) (index : List Nat) : Prop :=
  List.Forall₂ (· < ·) index shape.dims

/-- Each component counts as often as there are elements behind its axis. -/
def place : List Nat → List Nat → Nat
  | component :: components, _ :: dims => component * dims.prod + place components dims
  | _, _ => 0

section

variable {index components dims : List Nat} {done flat component dim : Nat} {refusal : Error}

theorem place_lt
    (inside : List.Forall₂ (· < ·) index dims) :
    place index dims < dims.prod := by
  induction inside with
  | nil => exact Nat.zero_lt_one
  | @cons component dim components dims below _ step =>
    calc component * dims.prod + place components dims
        < component * dims.prod + dims.prod := Nat.add_lt_add_left step _
      _ = (component + 1) * dims.prod := (Nat.succ_mul ..).symm
      _ ≤ dim * dims.prod := Nat.mul_le_mul_right _ below
      _ = (dim :: dims).prod := List.prod_cons.symm

/-- Coordinates are ordered like their places. -/
theorem place_lt_place
    {left right : List Nat}
    (insideLeft : List.Forall₂ (· < ·) left dims)
    (insideRight : List.Forall₂ (· < ·) right dims)
    (smaller : left < right) :
    place left dims < place right dims := by
  induction insideLeft generalizing right with
  | nil =>
    cases insideRight
    exact absurd smaller (List.not_lt_nil _)
  | @cons component _ components dims _ insideLeft step =>
    cases insideRight with
    | @cons other _ others _ _ insideRight =>
      rcases List.cons_lt_cons_iff.1 smaller with first | ⟨rfl, later⟩
      · calc component * dims.prod + place components dims
            < component * dims.prod + dims.prod := Nat.add_lt_add_left (place_lt insideLeft) _
          _ = (component + 1) * dims.prod := (Nat.succ_mul ..).symm
          _ ≤ other * dims.prod := Nat.mul_le_mul_right _ first
          _ ≤ other * dims.prod + place others dims := Nat.le_add_right ..
      · exact Nat.add_lt_add_left (step insideRight later) _

/-! ## From coordinates to numbers -/

/-- A component below its dimension extends the number, which stays below the elements so far. -/
theorem flattenFrom_cons
    (refusal : Error)
    (components dims : List Nat)
    (fits : done * dim < Size.limit)
    (below : flat < done)
    (inside : component < dim) :
    flattenFrom refusal flat (component :: components) (dim :: dims) =
        flattenFrom refusal (flat * dim + component) components dims ∧
      flat * dim + component < done * dim := by
  have extended : flat * dim + component < done * dim := calc
    flat * dim + component < flat * dim + dim := Nat.add_lt_add_left inside _
    _ = (flat + 1) * dim := (Nat.succ_mul ..).symm
    _ ≤ done * dim := Nat.mul_le_mul_right _ below
  refine ⟨?_, extended⟩
  have multiplied : Size.mul flat dim = .ok (flat * dim) :=
    Size.check_eq_ok_iff.2 ⟨by omega, rfl⟩
  have added : Size.add (flat * dim) component = .ok (flat * dim + component) :=
    Size.check_eq_ok_iff.2 ⟨by omega, rfl⟩
  rw [flattenFrom, if_neg (Nat.not_le_of_lt inside), multiplied]
  show (Size.lift (Size.add (flat * dim) component) >>= _) = _
  rw [added]
  rfl

theorem flattenFrom_of_inside
    (bounded : ∀ count, done * (dims.take count).prod < Size.limit)
    (below : flat < done)
    (inside : List.Forall₂ (· < ·) index dims) :
    flattenFrom refusal flat index dims = .ok (flat * dims.prod + place index dims) := by
  induction inside generalizing flat done with
  | nil => simp [flattenFrom, place, pure, Except.pure]
  | @cons component dim components dims first _ step =>
    have fits : done * dim < Size.limit := by simpa using bounded 1
    obtain ⟨continued, extended⟩ := flattenFrom_cons refusal components dims fits below first
    have later : ∀ count, done * dim * (dims.take count).prod < Size.limit := fun count => by
      simpa [Nat.mul_assoc] using bounded (count + 1)
    rw [continued, step later extended, place, List.prod_cons, Nat.add_mul, Nat.mul_assoc,
      Nat.add_assoc]

theorem flattenFrom_of_outside
    (bounded : ∀ count, done * (dims.take count).prod < Size.limit)
    (below : flat < done)
    (sameLength : index.length = dims.length)
    (outside : ¬ List.Forall₂ (· < ·) index dims) :
    flattenFrom refusal flat index dims = .error refusal := by
  induction dims generalizing index flat done with
  | nil =>
    obtain rfl := List.length_eq_zero_iff.1 sameLength
    exact absurd .nil outside
  | cons dim dims step =>
    cases index with
    | nil => cases sameLength
    | cons component components =>
      by_cases first : component < dim
      · have fits : done * dim < Size.limit := by simpa using bounded 1
        obtain ⟨continued, extended⟩ := flattenFrom_cons refusal components dims fits below first
        have later : ∀ count, done * dim * (dims.take count).prod < Size.limit := fun count => by
          simpa [Nat.mul_assoc] using bounded (count + 1)
        rw [continued]
        exact step later extended (Nat.succ.inj sameLength) fun rest => outside (.cons first rest)
      · rw [flattenFrom, if_pos (Nat.le_of_not_lt first)]
        rfl

/-! ## From numbers to coordinates -/

theorem digits_append (number : Nat) (first second : List Nat) :
    digits number (first ++ second) =
      digits number first ++ digits (number / first.prod) second := by
  induction first generalizing number with
  | nil => simp [digits]
  | cons radix first step =>
    rw [List.cons_append, digits, step, digits, List.cons_append, Nat.div_div_eq_div_mul,
      List.prod_cons]

/-- The digits only depend on the remainder by the product of the radices. -/
theorem digits_mod (number : Nat) (radices : List Nat) :
    digits (number % radices.prod) radices = digits number radices := by
  induction radices generalizing number with
  | nil => rfl
  | cons radix radices step =>
    rw [List.prod_cons, digits, digits, Nat.mod_mul_right_mod, Nat.mod_mul_right_div_self, step]

theorem reverse_digits_cons (number dim : Nat) (dims : List Nat) :
    (digits number (dim :: dims).reverse).reverse =
      number / dims.prod % dim :: (digits (number % dims.prod) dims.reverse).reverse := by
  have sameProduct : dims.reverse.prod = dims.prod := (List.reverse_perm dims).prod_eq
  rw [List.reverse_cons, digits_append, sameProduct, digits, digits, List.reverse_append,
    ← digits_mod number dims.reverse, sameProduct]
  rfl

/-- The digits of a number form a coordinate, whose place is the number. -/
theorem place_digits
    {number : Nat}
    (below : number < dims.prod) :
    List.Forall₂ (· < ·) (digits number dims.reverse).reverse dims ∧
      place (digits number dims.reverse).reverse dims = number := by
  induction dims generalizing number with
  | nil => exact ⟨.nil, (Nat.lt_one_iff.1 below).symm⟩
  | cons dim dims step =>
    rw [List.prod_cons] at below
    have positive : 0 < dims.prod := Nat.pos_of_mul_pos_left (Nat.zero_lt_of_lt below)
    have leading : number / dims.prod < dim := (Nat.div_lt_iff_lt_mul positive).2 below
    obtain ⟨inside, same⟩ := step (Nat.mod_lt number positive)
    rw [reverse_digits_cons, Nat.mod_eq_of_lt leading]
    refine ⟨.cons leading inside, ?_⟩
    rw [place, same]
    exact Nat.div_add_mod' number dims.prod

/-- The digits of the place of a coordinate are its components. -/
theorem digits_place
    (inside : List.Forall₂ (· < ·) index dims) :
    (digits (place index dims) dims.reverse).reverse = index := by
  induction inside with
  | nil => rfl
  | @cons component dim components dims below inside step =>
    have rest := place_lt inside
    have leading : (component * dims.prod + place components dims) / dims.prod = component := by
      rw [Nat.mul_comm, Nat.mul_add_div (Nat.zero_lt_of_lt rest), Nat.div_eq_of_lt rest,
        Nat.add_zero]
    have trailing : (component * dims.prod + place components dims) % dims.prod =
        place components dims := by
      rw [Nat.mul_comm, Nat.mul_add_mod, Nat.mod_eq_of_lt rest]
    rw [place, reverse_digits_cons, leading, trailing, step, Nat.mod_eq_of_lt below]

/-- The place of a coordinate is the sum of its components, each times the stride of its axis. -/
theorem place_eq_sum
    (sameLength : index.length = dims.length) :
    place index dims =
      (List.zipWith (· * ·) index
        ((List.range dims.length).map fun axis => (dims.drop (axis + 1)).prod)).sum := by
  induction dims generalizing index with
  | nil =>
    obtain rfl := List.length_eq_zero_iff.1 sameLength
    rfl
  | cons dim dims step =>
    cases index with
    | nil => cases sameLength
    | cons component components =>
      rw [place, step (Nat.succ.inj sameLength), List.length_cons, List.range_succ_eq_map,
        List.map_cons, List.map_map, List.zipWith_cons_cons, List.sum_cons]
      rfl

end

/-! ## Shapes whose elements can be counted -/

variable {shape : Shape} {size flat : Nat} {index : List Nat}

theorem length_of_contains
    (inside : shape.Contains index) :
    index.length = shape.rank :=
  inside.length_eq

/-- A shape with a coordinate has no empty dimension. -/
theorem pos_of_contains
    (inside : shape.Contains index) :
    ∀ dim ∈ shape.dims, 0 < dim := by
  intro dim member
  obtain ⟨component, -, below⟩ := exists_of_forall₂ inside.flip dim member
  exact Nat.zero_lt_of_lt below

theorem flatten_of_contains
    (counted : shape.size = .ok size)
    (inside : shape.Contains index) :
    shape.flatten index = .ok (place index shape.dims) := by
  obtain ⟨-, bounded⟩ := Size.product_eq_ok_iff.1 counted
  have run : flattenFrom (.indexOutOfRange index shape) 0 index shape.dims =
      .ok (0 * shape.dims.prod + place index shape.dims) :=
    flattenFrom_of_inside (by simpa using bounded) Nat.zero_lt_one inside
  rw [flatten, if_pos (length_of_contains inside), run, Nat.zero_mul, Nat.zero_add]

theorem flatten_of_not_contains
    (counted : shape.size = .ok size)
    (outside : ¬ shape.Contains index) :
    shape.flatten index = .error (.indexOutOfRange index shape) := by
  obtain ⟨-, bounded⟩ := Size.product_eq_ok_iff.1 counted
  unfold flatten
  split
  next sameLength =>
    exact flattenFrom_of_outside (by simpa using bounded) Nat.zero_lt_one sameLength outside
  · rfl

theorem unflatten_eq
    (counted : shape.size = .ok size)
    (flat : Nat) :
    shape.unflatten flat =
      if flat < size then .ok (digits flat shape.dims.reverse).reverse
      else .error (.indexOutOfRange [flat] shape) := by
  rw [unflatten, counted]
  show (if flat < size then _ else _) = _
  split <;> rfl

/-- Without an empty dimension no stride leaves the range. -/
theorem stride_of_pos
    (counted : shape.size = .ok size)
    (positive : ∀ dim ∈ shape.dims, 0 < dim)
    {axis : Nat}
    (inside : axis < shape.rank) :
    shape.stride axis = .ok (shape.dims.drop (axis + 1)).prod := by
  have front : 0 < (shape.dims.take (axis + 1)).prod :=
    List.prod_pos_iff_forall_pos_nat.2 fun dim member => positive dim (List.mem_of_mem_take member)
  rw [stride, checkAxis, if_pos inside, Size.product_drop counted front]
  rfl

/--
The elements of a shape, as many as given, are numbered in row-major order:
the numbers below the count and the coordinates inside the shape correspond
to each other, and whatever is not one of them is refused.
-/
structure RowMajor (shape : Shape) (size : Nat) : Prop where
  count : size = shape.dims.prod
  /-- A coordinate inside has a number, which gives the coordinate back. -/
  inside : ∀ index, shape.Contains index →
    ∃ flat < size, shape.flatten index = .ok flat ∧ shape.unflatten flat = .ok index
  outside : ∀ index, ¬ shape.Contains index →
    shape.flatten index = .error (.indexOutOfRange index shape)
  /--
  A number below the count has a coordinate, which gives the number back.  It is
  divided by dimensions that are not zero.
  -/
  below : ∀ flat < size, (∀ dim ∈ shape.dims, 0 < dim) ∧
    ∃ index, shape.Contains index ∧ shape.unflatten flat = .ok index ∧
      shape.flatten index = .ok flat
  beyond : ∀ flat, size ≤ flat → shape.unflatten flat = .error (.indexOutOfRange [flat] shape)
  /-- Each component counts as often as the stride of its axis says. -/
  strides : ∀ index, shape.Contains index →
    ∃ strides, (List.range shape.rank).mapM shape.stride = .ok strides ∧
      shape.flatten index = .ok (List.zipWith (· * ·) index strides).sum
  /-- Numbers are ordered like coordinates, of which the first component decides. -/
  ordered : ∀ left right, shape.Contains left → shape.Contains right → left < right →
    ∃ first second, shape.flatten left = .ok first ∧ shape.flatten right = .ok second ∧
      first < second

/-- A number that is refused, and not for an overflow, was compared with the count. -/
theorem exists_size_of_unflatten
    (refused : shape.unflatten flat = .error (.indexOutOfRange index shape)) :
    ∃ size, shape.size = .ok size := by
  cases counted : shape.size with
  | ok size => exact ⟨size, rfl⟩
  | error reason =>
    rw [unflatten, counted] at refused
    cases refused

/-- Elements are numbered in row-major order if they can be counted at all. -/
theorem rowMajor_iff_size :
    shape.RowMajor size ↔ shape.size = .ok size := by
  constructor
  · intro numbered
    obtain ⟨counted, computed⟩ := exists_size_of_unflatten (numbered.beyond size (Nat.le_refl _))
    rw [computed, numbered.count, Size.product_eq_ok computed]
  intro counted
  obtain rfl := Size.product_eq_ok counted
  refine ⟨rfl, fun index inside => ?_, fun index outside => flatten_of_not_contains counted outside,
    fun flat below => ?_, fun flat beyond => ?_, fun index inside => ?_, ?_⟩
  · have below := place_lt inside
    refine ⟨_, below, flatten_of_contains counted inside, ?_⟩
    rw [unflatten_eq counted, if_pos below, digits_place inside]
  · obtain ⟨inside, same⟩ := place_digits below
    refine ⟨pos_of_contains inside, _, inside, ?_, ?_⟩
    · rw [unflatten_eq counted, if_pos below]
    · rw [flatten_of_contains counted inside, same]
  · rw [unflatten_eq counted, if_neg (Nat.not_lt_of_le beyond)]
  · refine ⟨(List.range shape.rank).map fun axis => (shape.dims.drop (axis + 1)).prod,
      mapM_eq_ok_iff.2 ?_, ?_⟩
    · rw [List.forall₂_map_right_iff, List.forall₂_same]
      exact fun axis member =>
        stride_of_pos counted (pos_of_contains inside) (List.mem_range.1 member)
    · rw [flatten_of_contains counted inside, place_eq_sum (length_of_contains inside)]
      rfl
  · intro left right insideLeft insideRight smaller
    exact ⟨_, _, flatten_of_contains counted insideLeft, flatten_of_contains counted insideRight,
      place_lt_place insideLeft insideRight smaller⟩

/--
The shapes whose elements are numbered in row-major order are exactly those for which no product
of first dimensions leaves the range of machine sizes.  Without an empty dimension it is enough
that the product of all dimensions does not; an empty dimension comes too late if the product of
the dimensions in front of it does.
-/
theorem rowMajor_iff :
    (shape.RowMajor size ↔
      size = shape.dims.prod ∧ ∀ count, (shape.dims.take count).prod < Size.limit) ∧
    ((∀ dim ∈ shape.dims, 0 < dim) → shape.dims.prod < Size.limit →
      shape.RowMajor shape.dims.prod) :=
  ⟨rowMajor_iff_size.trans Size.product_eq_ok_iff, fun positive fits =>
    rowMajor_iff_size.2 (Size.product_of_pos positive fits)⟩

/-- The last element of a box has the last number. -/
theorem rowMajor_iff_box :
    (⟨[2, 3, 4]⟩ : Shape).RowMajor 24 ∧
      (⟨[2, 3, 4]⟩ : Shape).flatten [1, 2, 3] = .ok 23 ∧
      (⟨[2, 3, 4]⟩ : Shape).unflatten 23 = .ok [1, 2, 3] := by
  have numbered : (⟨[2, 3, 4]⟩ : Shape).RowMajor 24 :=
    (@rowMajor_iff ⟨[2, 3, 4]⟩ 24).2 (by decide) (by decide)
  have inside : (⟨[2, 3, 4]⟩ : Shape).Contains [1, 2, 3] :=
    .cons (by decide) (.cons (by decide) (.cons (by decide) .nil))
  obtain ⟨flat, -, flattened, back⟩ := numbered.inside _ inside
  cases flattened
  exact ⟨numbered, rfl, back⟩

/--
A shape without elements whose empty dimension comes last: its first number and a coordinate are
not refused but overflow, unlike those of the shape with the empty dimension in front.
-/
theorem overflow_before_empty_dimension :
    (⟨[0x100000000, 0x100000000, 2, 0]⟩ : Shape).dims.prod = 0 ∧
      (⟨[0x100000000, 0x100000000, 2, 0]⟩ : Shape).unflatten 0 = .error (.fault .overflow) ∧
      (⟨[0x100000000, 0x100000000, 2, 0]⟩ : Shape).flatten [0xFFFFFFFF, 0, 0, 0] =
        .error (.fault .overflow) ∧
      (⟨[0, 0x100000000, 0x100000000, 2]⟩ : Shape).RowMajor 0 :=
  ⟨by decide, rfl, rfl, rowMajor_iff_size.2 rfl⟩

/-- The only coordinate of a shape without axes is the empty one. -/
example : (⟨[]⟩ : Shape).unflatten 0 = .ok [] ∧ (⟨[]⟩ : Shape).flatten [] = .ok 0 :=
  ⟨rfl, rfl⟩

end Elementwise.Shape
