import Mathlib.Data.List.Basic
import Elementwise.Proofs.Buffer.Session
import Elementwise.Proofs.Element.Integers
import Elementwise.Proofs.Reduction.Tree

/-!
# The fold that a reduction computes

A list is folded in passes until one element is left, with at least one pass
made.  Which elements are combined with which depends on the length of the
list alone: there is one bracketing of its positions, with each position once
and in order, by which every list of the length is combined.  If combining is
associative, the bracketing does not matter and the result is the fold from
the left.

Both facts follow from one: folding in passes commutes with every map that
respects combining.  The bracketing is what comes out for bracketings of
single positions, joined instead of combined.
-/

namespace Elementwise

/-! ## Folding until one element is left -/

/-- Runs of a given length are folded until one element is left, with at least one pass made. -/
inductive FoldsTo
    {α : Type}
    (combine : α → α → α)
    (length : Nat) : List α → α → Prop
  /-- A pass that leaves one element is the last. -/
  | last
      {values : List α}
      {total : α}
      (single : foldPass combine length values = [total]) :
      FoldsTo combine length values total
  /-- A pass that leaves more is followed by another. -/
  | pass
      {values : List α}
      {total : α}
      (many : 1 < (foldPass combine length values).length)
      (rest : FoldsTo combine length (foldPass combine length values) total) :
      FoldsTo combine length values total

section

variable {α β : Type} {combine : α → α → α} {length : Nat}

/-- As many passes as it takes fold a list until one element is left. -/
theorem foldsTo_of_foldPasses
    (long : 2 ≤ length)
    {values : List α}
    {total : α}
    {passes : Nat}
    (enough : (foldPass combine length values).length ≤ passes)
    (folded : foldPasses combine length passes (foldPass combine length values) = [total]) :
    FoldsTo combine length values total := by
  induction passes generalizing values with
  | zero =>
    exact .last folded
  | succ passes step =>
    by_cases few : (foldPass combine length values).length ≤ 1
    · rw [foldPasses_of_le few] at folded
      exact .last folded
    · have many : 1 < (foldPass combine length values).length := Nat.lt_of_not_le few
      have fewer := Size.runs_lt many long
      have count : (foldPass combine length (foldPass combine length values)).length = _ :=
        length_foldPass (Nat.lt_of_lt_of_le Nat.zero_lt_two long) _
      rw [foldPasses, if_neg few] at folded
      exact .pass many (step (by omega) folded)

/-- The fold in passes is what a list folds to. -/
theorem foldsTo_of_treeFold
    (long : 2 ≤ length)
    {values : List α}
    {total : α}
    (folded : treeFold combine length values = [total]) :
    FoldsTo combine length values total := by
  refine foldsTo_of_foldPasses long ?_ folded
  rw [length_foldPass (by omega)]
  exact runs_le long _

theorem exists_foldsTo
    (combine : α → α → α)
    (long : 2 ≤ length)
    {values : List α}
    (filled : 0 < values.length) :
    ∃ total, FoldsTo combine length values total := by
  obtain ⟨total, folded⟩ := exists_treeFold combine long filled
  exact ⟨total, foldsTo_of_treeFold long folded⟩

/-- A list folds to one element only. -/
theorem FoldsTo.unique
    {values : List α}
    {total other : α}
    (folds : FoldsTo combine length values total)
    (otherwise : FoldsTo combine length values other) :
    total = other := by
  induction folds with
  | last single =>
    cases otherwise with
    | last again =>
      rw [single] at again
      exact List.head_eq_of_cons_eq again
    | pass many _ => simp [single] at many
  | pass many _ step =>
    cases otherwise with
    | last single => simp [single] at many
    | pass _ rest => exact step rest

/-! ## Maps that respect combining -/

variable
    {combineImages : β → β → β}
    {image : α → β}

theorem runsOf_map (image : α → β) (length : Nat) (values : List α) :
    runsOf length (values.map image) = (runsOf length values).map (List.map image) := by
  induction size : values.length using Nat.strong_induction_on generalizing values with
  | _ total step =>
    unfold runsOf
    rw [List.length_map, List.isEmpty_map]
    split
    · split <;> rfl
    next more =>
      have fewer : (values.drop length).length < total := by
        rw [List.length_drop]
        omega
      rw [← List.map_take, ← List.map_drop, step _ fewer _ rfl]
      rfl

theorem foldRun?_map
    (respects : ∀ left right, image (combine left right) =
      combineImages (image left) (image right))
    (values : List α) :
    foldRun? combineImages (values.map image) = (foldRun? combine values).map image := by
  cases values with
  | nil => rfl
  | cons first rest =>
    rw [List.map_cons, foldRun?, foldRun?, Option.map_some, List.foldl_map]
    exact congrArg some (List.foldl_hom image fun left right => (respects left right).symm)

/-- A pass over images leaves the images of what a pass over the elements leaves. -/
theorem foldPass_map
    (respects : ∀ left right, image (combine left right) =
      combineImages (image left) (image right))
    (length : Nat)
    (values : List α) :
    foldPass combineImages length (values.map image) =
      (foldPass combine length values).map image := by
  rw [foldPass, foldPass, runsOf_map, List.filterMap_map, List.map_filterMap]
  refine congrArg (List.filterMap · _) (funext fun run => ?_)
  exact foldRun?_map respects run

theorem FoldsTo.map
    {values : List α}
    {total : α}
    (folds : FoldsTo combine length values total)
    (respects : ∀ left right, image (combine left right) =
      combineImages (image left) (image right)) :
    FoldsTo combineImages length (values.map image) (image total) := by
  induction folds with
  | last single =>
    refine .last ?_
    rw [foldPass_map respects, single]
    rfl
  | pass many _ step =>
    rw [← foldPass_map respects] at step
    refine .pass ?_ step
    rwa [foldPass_map respects, List.length_map]

/-! ## Combining associatively -/

/-- Lists with the same fold from the left have it from every start. -/
theorem foldl_eq_of_foldRun?_eq
    [Std.Associative combine]
    {values others : List α}
    (same : foldRun? combine values = foldRun? combine others)
    (start : α) :
    values.foldl combine start = others.foldl combine start := by
  cases values with
  | nil =>
    cases others with
    | nil => rfl
    | cons head tail => cases same
  | cons first rest =>
    cases others with
    | nil => cases same
    | cons head tail =>
      have folded : rest.foldl combine first = tail.foldl combine head := Option.some.inj same
      rw [List.foldl_cons, List.foldl_cons, List.foldl_assoc, List.foldl_assoc, folded]

/-- A pass does not change the fold from the left. -/
theorem foldRun?_foldPass
    [Std.Associative combine]
    (positive : 0 < length)
    (values : List α) :
    foldRun? combine (foldPass combine length values) = foldRun? combine values := by
  induction size : values.length using Nat.strong_induction_on generalizing values with
  | _ total step =>
    by_cases filled : values = []
    · rw [filled, foldPass_nil]
    obtain ⟨first, folded, split⟩ := foldPass_eq_cons combine positive filled
    have nonempty := List.length_pos_iff.2 filled
    have later := step (values.drop length).length (by rw [List.length_drop]; omega) _ rfl
    cases run : values.take length with
    | nil =>
      rw [run] at folded
      cases folded
    | cons head tail =>
      rw [run] at folded
      cases folded
      calc foldRun? combine (foldPass combine length values)
          = some ((foldPass combine length (values.drop length)).foldl combine
              (tail.foldl combine head)) := by rw [split, foldRun?]
        _ = some ((values.drop length).foldl combine (tail.foldl combine head)) := by
            rw [foldl_eq_of_foldRun?_eq later]
        _ = foldRun? combine (head :: tail ++ values.drop length) := by
            rw [List.cons_append, foldRun?, List.foldl_append]
        _ = foldRun? combine values := by rw [← run, List.take_append_drop]

/-- If combining is associative, a list folds to its fold from the left. -/
theorem FoldsTo.foldRun?_eq
    [Std.Associative combine]
    (positive : 0 < length)
    {values : List α}
    {total : α}
    (folds : FoldsTo combine length values total) :
    foldRun? combine values = some total := by
  induction folds with
  | last single =>
    rw [← foldRun?_foldPass positive, single]
    rfl
  | pass _ _ step => rwa [foldRun?_foldPass positive] at step

end

/-! ## Bracketings -/

/-- A way to combine elements at positions. -/
inductive Bracketing where
  /-- The element at a position. -/
  | position (index : Nat)
  /-- What two parts give, combined. -/
  | join (left right : Bracketing)
deriving DecidableEq, Repr

namespace Bracketing

/-- The positions that are combined, from the left. -/
def positions : Bracketing → List Nat
  | position index => [index]
  | join left right => left.positions ++ right.positions

/-- What comes out for given elements. -/
def eval {α : Type} (combine : α → α → α) (get : Nat → α) : Bracketing → α
  | position index => get index
  | join left right => combine (left.eval combine get) (right.eval combine get)

end Bracketing

theorem foldl_append_eq {α : Type} (first : List α) (rest : List (List α)) :
    rest.foldl (· ++ ·) first = first ++ rest.flatten := by
  induction rest generalizing first with
  | nil => simp
  | cons next rest step => simp [step]

theorem foldRun?_singletons {α : Type} {values : List α} (filled : values ≠ []) :
    foldRun? (· ++ ·) (values.map fun value => [value]) = some values := by
  cases values with
  | nil => exact absurd rfl filled
  | cons first rest =>
    rw [List.map_cons, foldRun?, foldl_append_eq, ← List.flatMap_def, List.flatMap_singleton']
    rfl

/--
All lists of one length are folded by the same bracketing, which has each
position once and in order.
-/
theorem exists_bracketing
    {length count : Nat}
    (long : 2 ≤ length)
    (filled : 0 < count) :
    ∃ tree : Bracketing, tree.positions = List.range count ∧
      ∀ {α : Type} (combine : α → α → α) (get : Nat → α),
        FoldsTo combine length ((List.range count).map get) (tree.eval combine get) := by
  have some : 0 < ((List.range count).map Bracketing.position).length := by
    rwa [List.length_map, List.length_range]
  obtain ⟨tree, folds⟩ := exists_foldsTo Bracketing.join long some
  refine ⟨tree, ?_, fun combine get => ?_⟩
  · have listed : FoldsTo (· ++ ·) length _ tree.positions := folds.map fun _ _ => rfl
    have joined := listed.foldRun?_eq (by omega)
    have nonempty : List.range count ≠ [] := by
      rw [Ne, List.range_eq_nil]
      exact Nat.ne_of_gt filled
    rw [List.map_map] at joined
    exact Option.some.inj (joined.symm.trans (foldRun?_singletons nonempty))
  · have evaluated : FoldsTo combine length _ (tree.eval combine get) := folds.map fun _ _ => rfl
    rwa [List.map_map] at evaluated

/-! ## Reductions of layouts -/

namespace AxisLayout

open Store

variable
    {α ω : Type}
    [Arithmetic α]
    {layout : AxisLayout}
    {fanIn : Nat}
    {combine : α → α → α}
    {initial : ω}
    {source : Source α ω}
    {get : Nat → α}
    {store after : Store α}
    {result : BufferId}

/-- The only entry at a place of a layout that is reduced. -/
theorem Holds.total
    {lists : Nat → Nat → List α}
    {values : Array α}
    (holds : layout.reduced.Holds lists values)
    (nonempty : 1 ≤ layout.length) :
    values.size = layout.outer * layout.inner ∧
      ∀ before < layout.outer, ∀ behind < layout.inner,
        ∃ total, lists before behind = [total] ∧
          values[before * layout.inner + behind]? = some total := by
  have single : layout.reduced = { layout with length := 1 } := by
    rw [reduced, Nat.min_eq_right nonempty]
  rw [single] at holds
  have size : values.size = layout.outer * layout.inner := by
    rw [holds.size, Nat.mul_one]
  refine ⟨size, fun before outside behind last => ?_⟩
  have place : before * layout.inner + behind < values.size := by
    rw [size]
    exact place_lt_of_single outside last
  refine ⟨values[before * layout.inner + behind], ?_, Array.getElem?_eq_getElem place⟩
  rw [← holds.entries before behind outside last]
  simp [AxisLayout.entries, entry, Array.getD_eq_getD_getElem?, Array.getElem?_eq_getElem place]

/--
A reduction that answers has made one new buffer and changed no other.  It has one
element for each place besides the axis, to which the entries along the axis fold in
passes.  All of them are combined by the same bracketing, with each place along the axis
once and in order; if combining is associative, that is their fold from the left.
-/
theorem treeReduce_folds
    (keeps : ω → Prop)
    (valid : store.Valid)
    (kept : keeps initial)
    {sources : List BufferId}
    {inputs : List Block}
    (pins : List.Forall₂ store.Pins sources inputs)
    (yields : ∀ views,
      List.Forall₂ (fun buffer values => store.reading? buffer = some values) sources views →
      source.Yields views.toArray keeps layout.count get)
    (nonempty : 1 ≤ layout.length)
    (done : layout.treeReduce fanIn combine inputs initial source store = .ok result after) :
    store.claim? result = none ∧ Frame {result} ∅ store after ∧
    ∃ (values : Array α) (tree : Bracketing),
      after.reading? result = some values ∧
      values.size = layout.outer * layout.inner ∧
      tree.positions = List.range layout.length ∧
      ∀ before < layout.outer, ∀ behind < layout.inner, ∃ total,
        values[before * layout.inner + behind]? = some total ∧
        FoldsTo combine (max fanIn 2) (layout.entries get before behind) total ∧
        total = tree.eval combine (layout.entry get before behind) ∧
        (Std.Associative combine →
          foldRun? combine (layout.entries get before behind) = some total) := by
  have long : 2 ≤ max fanIn 2 := Nat.le_max_right ..
  have made : Ends (layout.treeReduce fanIn combine inputs initial source) store _ _ :=
    ends_treeReduce keeps valid kept pins yields
  rw [Ends, done] at made
  obtain ⟨absent, frame, -, values, reads, holds⟩ := made
  obtain ⟨size, totals⟩ := holds.total nonempty
  obtain ⟨tree, inOrder, evaluates⟩ := exists_bracketing long nonempty
  refine ⟨absent, frame, values, tree, reads, size, inOrder, fun before outside behind last => ?_⟩
  obtain ⟨total, folded, held⟩ := totals before outside behind last
  have folds := foldsTo_of_treeFold long folded
  refine ⟨total, held, folds, folds.unique (evaluates combine _), fun associative => ?_⟩
  exact folds.foldRun?_eq (Nat.lt_of_lt_of_le Nat.zero_lt_two long)

/-- A buffer of five elements that is leased on an accelerator. -/
def fiveLeased : Store.Session Int :=
  (Session.start 12 ⟨0⟩ [] fun _ _ => none).run
    [.allocateFrom #[9, 4, 1, 7, 2], .lease 0 .accelerator]

/-- Five elements are subtracted in pairs, not from the left. -/
theorem treeReduce_folds_fiveLeased :
    ∃ result after,
      (flat 5).treeReduce 1 (fun left right : Int => left - right) [⟨0, 5, ⟨0⟩⟩] () firstInput
        fiveLeased.store = .ok result after ∧
      after.reading? result = some #[9] := by
  have reached : (Session.start 12 ⟨0⟩ [] fun _ _ => none).run
    [.allocateFrom #[9, 4, 1, 7, 2], .lease 0 .accelerator] = fiveLeased := rfl
  have sound := Session.sound_of_run reached
  have pins : List.Forall₂ fiveLeased.store.Pins [⟨0⟩] [⟨0, 5, ⟨0⟩⟩] :=
    .cons ⟨by rfl, ⟨5, 2, 1⟩, by decide +kernel, by decide⟩ .nil
  have reads : fiveLeased.store.reading? ⟨0⟩ = some #[9, 4, 1, 7, 2] := by decide +kernel
  have yields : ∀ views, List.Forall₂
      (fun buffer values => fiveLeased.store.reading? buffer = some values) [⟨0⟩] views →
      Source.Yields firstInput views.toArray (fun _ => True) (flat 5).count
        (#[9, 4, 1, 7, 2].getD · 0) := by
    intro views viewed
    cases viewed with
    | cons first rest =>
      cases rest
      rw [reads] at first
      cases first
      exact yields_firstInput _ _
  obtain ⟨result, after, done⟩ : ∃ result after, (flat 5).treeReduce 1
      (fun left right : Int => left - right) [⟨0, 5, ⟨0⟩⟩] () firstInput fiveLeased.store =
        .ok result after := ⟨_, _, by cbv⟩
  obtain ⟨-, -, values, tree, found, size, -, totals⟩ :=
    treeReduce_folds (fun _ => True) sound.accounted.valid trivial pins yields (by decide) done
  obtain ⟨total, held, folds, -, -⟩ := totals 0 Nat.zero_lt_one 0 Nat.zero_lt_one
  have nine : FoldsTo (fun left right : Int => left - right) 2 [9, 4, 1, 7, 2] 9 :=
    foldsTo_of_treeFold (Nat.le_refl 2) (by decide +kernel)
  obtain rfl := nine.unique folds
  have only : values = #[9] := Array.ext_getElem? fun index => by
    cases index with
    | zero => exact held
    | succ index =>
      rw [Array.getElem?_eq_none (by rw [size]; exact Nat.succ_le_succ (Nat.zero_le _))]
      rfl
  exact ⟨result, after, done, found.trans (congrArg some only)⟩

end AxisLayout

end Elementwise
