import Mathlib.Order.Bounds.Basic
import Elementwise.Reduction.Basic
import Elementwise.Proofs.Element.Position
import Elementwise.Proofs.Reduction.Fold
import Elementwise.Proofs.Reduction.Room

/-!
# The least and the greatest element

Reductions to the least and to the greatest element do not depend on how many
entries are folded at once, nor on the order of the entries, as far as their
positions on the number line go; those of machine numbers are ordered like
their values and tell all numbers but the two zeros apart.  Elements that are
not numbers are skipped as long as there is any other; they are not ordered,
so neither reduction is a minimum or a maximum of a linear order.

On positions combining is associative and commutative, with the missing
position as its neutral element.  A pass that folds runs from the left
therefore keeps the best position of the whole list.
-/

namespace Elementwise

open Element (position)

/-- The reductions that select an element, with what they pick of two positions and of many. -/
inductive Reduction.Selects : Reduction → (Int → Int → Int) → (Set Int → Int → Prop) → Prop where
  | least : Selects .min Min.min IsLeast
  | greatest : Selects .max Max.max IsGreatest

/--
The best of some positions, which is missing if all of them are, and otherwise the best of those
that are there.
-/
structure BestOf
    (best : Set Int → Int → Prop)
    (positions : List (Option Int))
    (total : Option Int) : Prop where
  none_iff : total = none ↔ ∀ place ∈ positions, place = none
  best : ∀ place, total = some place → best {other | some other ∈ positions} place

namespace Reduction.Selects

variable
    {reduction : Reduction}
    {pick : Int → Int → Int}
    {best : Set Int → Int → Prop}

theorem position_combine
    {α : Type}
    [Element α]
    (selects : reduction.Selects pick best)
    (left right : α) :
    position (reduction.combine left right) =
      Option.merge pick (position left) (position right) := by
  cases selects with
  | least => exact Element.position_least left right
  | greatest => exact Element.position_greatest left right

theorem associative (selects : reduction.Selects pick best) : Std.Associative pick := by
  cases selects <;> infer_instance

/-- No set has two best elements. -/
theorem unique
    (selects : reduction.Selects pick best)
    {places : Set Int}
    {place other : Int}
    (first : best places place)
    (second : best places other) :
    place = other := by
  cases selects with
  | least => exact IsLeast.unique first second
  | greatest => exact IsGreatest.unique first second

/-- The best of the pick of two positions and some others is the best of all of them. -/
theorem best_insert
    (selects : reduction.Selects pick best)
    {places : Set Int}
    {left right place : Int}
    (found : best (insert (pick left right) places) place) :
    best (insert left (insert right places)) place := by
  cases selects with
  | least =>
    obtain ⟨member, lower⟩ := found
    have below := lower (Set.mem_insert (Min.min left right) places)
    refine ⟨?_, ?_⟩
    · rcases member with rfl | member
      · rcases min_choice left right with same | same
        · exact .inl same
        · exact .inr (.inl same)
      · exact .inr (.inr member)
    · rintro other (rfl | rfl | member)
      · exact le_trans below (min_le_left _ _)
      · exact le_trans below (min_le_right _ _)
      · exact lower (Set.mem_insert_of_mem _ member)
  | greatest =>
    obtain ⟨member, upper⟩ := found
    have above := upper (Set.mem_insert (Max.max left right) places)
    refine ⟨?_, ?_⟩
    · rcases member with rfl | member
      · rcases max_choice left right with same | same
        · exact .inl same
        · exact .inr (.inl same)
      · exact .inr (.inr member)
    · rintro other (rfl | rfl | member)
      · exact le_trans (le_max_left _ _) above
      · exact le_trans (le_max_right _ _) above
      · exact upper (Set.mem_insert_of_mem _ member)

theorem best_singleton
    (selects : reduction.Selects pick best)
    (place : Int) :
    best {place} place := by
  cases selects with
  | least => exact isLeast_singleton
  | greatest => exact isGreatest_singleton

end Reduction.Selects

namespace BestOf

variable
    {reduction : Reduction}
    {pick : Int → Int → Int}
    {best : Set Int → Int → Prop}
    {positions : List (Option Int)}
    {total : Option Int}

theorem singleton
    (selects : reduction.Selects pick best)
    (place : Option Int) :
    BestOf best [place] place where
  none_iff := by simp
  best found same := by
    subst same
    have only : {other | some other ∈ [some found]} = {found} := by
      ext other
      simp
    exact only ▸ selects.best_singleton found

/-- Two positions may be replaced by their pick. -/
theorem of_merge
    (selects : reduction.Selects pick best)
    {left right : Option Int}
    (bestOf : BestOf best (Option.merge pick left right :: positions) total) :
    BestOf best (left :: right :: positions) total where
  none_iff := by
    rw [bestOf.none_iff, List.forall_mem_cons, List.forall_mem_cons, List.forall_mem_cons,
      Option.merge_eq_none_iff, and_assoc]
  best place same := by
    have found := bestOf.best place same
    cases left with
    | none => simpa using found
    | some left =>
      cases right with
      | none => simpa using found
      | some right =>
        have split : {other | some other ∈ some left :: some right :: positions} =
            insert left (insert right {other | some other ∈ positions}) := by
          ext other
          simp
        have merged : {other | some other ∈ some (pick left right) :: positions} =
            insert (pick left right) {other | some other ∈ positions} := by
          ext other
          simp
        rw [split]
        rw [Option.merge_some_some, merged] at found
        exact selects.best_insert found

theorem foldl
    (selects : reduction.Selects pick best)
    (start : Option Int)
    (positions : List (Option Int)) :
    BestOf best (start :: positions) (positions.foldl (Option.merge pick) start) := by
  induction positions generalizing start with
  | nil => exact .singleton selects start
  | cons place positions step => exact (step _).of_merge selects

/-- The best of positions does not depend on their order. -/
theorem unique_of_perm
    (selects : reduction.Selects pick best)
    {others : List (Option Int)}
    {other : Option Int}
    (bestOf : BestOf best positions total)
    (bestOfOthers : BestOf best others other)
    (reordered : others.Perm positions) :
    other = total := by
  have members : ∀ place, place ∈ others ↔ place ∈ positions := fun _ => reordered.mem_iff
  cases total with
  | none =>
    refine bestOfOthers.none_iff.2 fun place member => ?_
    exact bestOf.none_iff.1 rfl place ((members place).1 member)
  | some place =>
    cases other with
    | none =>
      refine absurd (bestOf.none_iff.2 fun place member => ?_) nofun
      exact bestOfOthers.none_iff.1 rfl place ((members place).2 member)
    | some otherPlace =>
      have same : {place | some place ∈ others} = {place | some place ∈ positions} :=
        Set.ext fun place => members (some place)
      have found := bestOfOthers.best otherPlace rfl
      rw [same] at found
      exact congrArg some (selects.unique found (bestOf.best place rfl))

end BestOf

section

variable
    {α : Type}
    [Element α]
    {reduction : Reduction}
    {pick : Int → Int → Int}
    {best : Set Int → Int → Prop}
    {length : Nat}
    {values : List α}
    {total : α}

/-- Folding in passes selects the best of all positions. -/
theorem FoldsTo.bestOf
    (selects : reduction.Selects pick best)
    (positive : 0 < length)
    (folds : FoldsTo reduction.combine length values total) :
    BestOf best (values.map position) (position total) := by
  have associative := selects.associative
  have onPositions := (folds.map selects.position_combine).foldRun?_eq positive
  cases values with
  | nil => cases onPositions
  | cons first rest =>
    rw [List.map_cons] at onPositions ⊢
    rw [← Option.some.inj onPositions]
    exact .foldl selects _ _

/-- A list that is not empty folds in passes to its best element, whatever the order. -/
theorem exists_bestOf_treeFold
    (selects : reduction.Selects pick best)
    (long : 2 ≤ length)
    (filled : values ≠ []) :
    ∃ total, treeFold reduction.combine length values = [total] ∧
      BestOf best (values.map position) (position total) := by
  obtain ⟨total, folded⟩ := exists_treeFold reduction.combine long (List.length_pos_iff.2 filled)
  exact ⟨total, folded,
    (foldsTo_of_treeFold long folded).bestOf selects (Nat.lt_of_lt_of_le Nat.zero_lt_two long)⟩

end

/-! ## Reductions of layouts -/

namespace AxisLayout

open Store

/--
A list that is not empty folds in passes to a single element, whose position is the best of all
positions: none if no element is a number, and otherwise the least or the greatest of those that
are.  It is the same for every number of entries folded at once and for every order of the list.
A reduction of a layout that answers has computed such folds, one for each place besides the axis;
it does answer if its sizes are machine sizes and there is room for the results of the first pass
twice, on an accelerator that does not fail.
-/
theorem treeReduce_selects
    {α : Type}
    [Element α]
    {reduction : Reduction}
    {pick : Int → Int → Int}
    {best : Set Int → Int → Prop}
    (selects : reduction.Selects pick best) :
    (∀ (values : List α) (fanIn : Nat), values ≠ [] →
      ∃ total, treeFold reduction.combine (max fanIn 2) values = [total] ∧
        BestOf best (values.map position) (position total) ∧
        ∀ (others : List α) (width : Nat), others.Perm values →
          ∃ other, treeFold reduction.combine (max width 2) others = [other] ∧
            position other = position total) ∧
    ∀ {ω : Type} (layout : AxisLayout) (fanIn : Nat) (initial : ω) (source : Source α ω)
      (keeps : ω → Prop) (get : Nat → α) (sources : List BufferId) (inputs : List Block)
      (store : Store α),
      store.Valid → keeps initial → List.Forall₂ store.Pins sources inputs →
      (∀ views,
        List.Forall₂ (fun buffer values => store.reading? buffer = some values) sources views →
        source.Yields views.toArray keeps layout.count get) →
      1 ≤ layout.length →
      (∀ result after,
        layout.treeReduce fanIn reduction.combine inputs initial source store = .ok result after →
        ∃ values, after.reading? result = some values ∧
          ∀ before < layout.outer, ∀ behind < layout.inner, ∃ total,
            values[before * layout.inner + behind]? = some total ∧
            treeFold reduction.combine (max fanIn 2) (layout.entries get before behind) =
              [total]) ∧
      ∀ (make : Make) (held : List (BufferId × Nat)),
        make.Steady → store.Within make (quotaOf held) →
        layout.Addressable → fanIn < Size.limit →
        (∀ views,
          List.Forall₂ (fun buffer values => store.reading? buffer = some values) sources views →
          source.Gives views.toArray keeps layout.count) →
        loadOf held + 2 * (layout.shortened (max fanIn Config.minFanIn)).count ≤ make.capacity →
        ∃ result after,
          layout.treeReduce fanIn reduction.combine inputs initial source store =
            .ok result after := by
  constructor
  · intro values fanIn filled
    obtain ⟨total, folded, bestOf⟩ :=
      exists_bestOf_treeFold selects (Nat.le_max_right fanIn 2) filled
    refine ⟨total, folded, bestOf, fun others width reordered => ?_⟩
    have filledToo : others ≠ [] := by
      rintro rfl
      exact filled reordered.symm.eq_nil
    obtain ⟨other, foldedOther, bestOfOther⟩ :=
      exists_bestOf_treeFold selects (Nat.le_max_right width 2) filledToo
    exact ⟨other, foldedOther, bestOf.unique_of_perm selects bestOfOther (reordered.map position)⟩
  · intro ω layout fanIn initial source keeps get sources inputs store valid kept pins yields
      nonempty
    constructor
    · intro result after done
      have made : Ends
          (layout.treeReduce fanIn reduction.combine inputs initial source) store _ _ :=
        ends_treeReduce keeps valid kept pins yields
      obtain ⟨-, -, -, values, reads, holds⟩ := made.of_ok done
      obtain ⟨-, totals⟩ := holds.total nonempty
      refine ⟨values, reads, fun before outside behind last => ?_⟩
      obtain ⟨total, folded, held⟩ := totals before outside behind last
      exact ⟨total, held, folded⟩
    · intro make held steady within addressable sized gives room
      have answers : Ends (layout.treeReduce fanIn reduction.combine inputs initial source) store
          (fun _ _ => True) fun _ _ => False :=
        ends_treeReduce_of_room keeps steady addressable sized within kept pins yields gives room
      cases ran : layout.treeReduce fanIn reduction.combine inputs initial source store with
      | ok result after => exact ⟨result, after, rfl⟩
      | error reason after => exact (answers.of_error ran).elim

/-- Integers and an element that is not a number, which spreads to all that is computed from it. -/
instance : Element (Option Int) where
  zero := some Arithmetic.zero
  one := some Arithmetic.one
  add := Option.map₂ Arithmetic.add
  mul := Option.map₂ Arithmetic.mul
  isZero value := value.any Arithmetic.isZero
  eval opcode := Option.map₂ (Arithmetic.eval opcode)
  partials opcode left right value :=
    match left, right, value with
    | some left, some right, some value =>
        let (toLeft, toRight) := Arithmetic.partials opcode left right value
        (some toLeft, some toRight)
    | _, _, _ => (none, none)
  sub := Option.map₂ Element.sub
  infinity := some Element.infinity
  negInfinity := some Element.negInfinity
  position := id
  bits value := value.elim 0x7FF8000000000000 Element.bits
  byteSize := 8

/-- A buffer of five elements, two of which are not numbers, that is leased on an accelerator. -/
def gappyLeased : Store.Session (Option Int) :=
  (Session.start 12 ⟨0⟩ [] fun _ _ => none).run
    [.allocateFrom #[none, some 4, none, some (-2), some 7], .lease 0 .accelerator]

theorem sound_gappyLeased : gappyLeased.Sound ⟨⟨0⟩, 12, [], fun _ _ => none⟩ :=
  Session.sound_of_run rfl

theorem within_gappyLeased :
    gappyLeased.store.Within ⟨⟨0⟩, 12, [], fun _ _ => none⟩ (quotaOf [(⟨0⟩, 5)]) := by
  have unreserved : gappyLeased.others = ∅ := by
    have none : gappyLeased.reserved = #[] := rfl
    refine Set.eq_empty_of_forall_notMem fun entry ⟨block, reserved, _⟩ => ?_
    exact Array.not_mem_empty block (none ▸ reserved)
  refine ⟨unreserved ▸ sound_gappyLeased.accounted, fun buffer claim claimed => ?_⟩
  by_cases same : buffer = ⟨0⟩
  · subst same
    have leased : gappyLeased.store.claim? ⟨0⟩ = some ⟨5, 2, 1⟩ := by decide +kernel
    cases leased.symm.trans claimed
    decide
  · obtain ⟨absent, -⟩ | ⟨length, counted⟩ := sound_gappyLeased.claims buffer
    · cases absent.symm.trans claimed
    · cases counted.symm.trans claimed
      have none : standing gappyLeased.leases buffer = 0 := by
        have leases : gappyLeased.leases = #[some ⟨0⟩] := by decide +kernel
        rw [leases]
        exact Array.count_eq_zero.2 fun member => same (by simpa using member)
      exact (Nat.le_of_eq none).trans (Nat.zero_le _)

/-- The least of the five elements comes out of pairs, and of one run in another order. -/
theorem treeReduce_selects_gappyLeased :
    BestOf IsLeast [none, some 4, none, some (-2), some 7] (some (-2)) ∧
    treeFold Reduction.min.combine 5 [some 7, none, some (-2), some 4, none] =
      [(some (-2) : Option Int)] ∧
    ∃ result after values,
      (flat 5).treeReduce 1 Reduction.min.combine [⟨0, 5, ⟨0⟩⟩] ()
        (firstInput : Source (Option Int) Unit) gappyLeased.store = .ok result after ∧
      after.reading? result = some values ∧
      values[0]? = some (some (-2)) := by
  have pins : List.Forall₂ gappyLeased.store.Pins [⟨0⟩] [⟨0, 5, ⟨0⟩⟩] :=
    .cons ⟨by rfl, ⟨5, 2, 1⟩, by decide +kernel, by decide⟩ .nil
  have reads : gappyLeased.store.reading? ⟨0⟩ =
      some #[none, some 4, none, some (-2), some 7] := by decide +kernel
  have only : ∀ views, List.Forall₂
      (fun buffer values => gappyLeased.store.reading? buffer = some values) [⟨0⟩] views →
      views = [#[none, some 4, none, some (-2), some 7]] := by
    intro views viewed
    cases viewed with
    | cons first rest =>
      cases rest
      rw [reads] at first
      cases first
      rfl
  have folded : treeFold Reduction.min.combine 2 [none, some 4, none, some (-2), some 7] =
      [(some (-2) : Option Int)] := by decide +kernel
  obtain ⟨selected, reduced⟩ :=
    @treeReduce_selects (Option Int) _ _ _ _ Reduction.Selects.least
  obtain ⟨total, computed, bestOf, alike⟩ :=
    selected [none, some 4, none, some (-2), some 7] 2 (List.cons_ne_nil _ _)
  obtain rfl : some (-2) = total := List.singleton_inj.1 (folded.symm.trans computed)
  obtain ⟨other, computedOther, same⟩ :=
    alike [some 7, none, some (-2), some 4, none] 5 (by decide)
  obtain rfl : other = some (-2) := same
  obtain ⟨holds, answers⟩ := reduced (flat 5) 1 () firstInput (fun _ => True)
    (#[none, some 4, none, some (-2), some 7].getD · Arithmetic.zero) [⟨0⟩] [⟨0, 5, ⟨0⟩⟩]
    gappyLeased.store sound_gappyLeased.accounted.valid trivial pins
    (fun views viewed => only views viewed ▸ yields_firstInput _ _) (by decide)
  obtain ⟨result, after, done⟩ := answers _ [(⟨0⟩, 5)] (fun _ _ => rfl) within_gappyLeased
    (addressable_flat (by decide)) (by decide)
    (fun views viewed => only views viewed ▸ gives_firstInput _) (by decide +kernel)
  obtain ⟨values, found, totals⟩ := holds result after done
  obtain ⟨total, held, foldedToo⟩ := totals 0 Nat.zero_lt_one 0 Nat.zero_lt_one
  obtain rfl : some (-2) = total := List.singleton_inj.1 (folded.symm.trans foldedToo)
  exact ⟨bestOf, computedOther, result, after, values, done, found, held⟩

end AxisLayout

end Elementwise
