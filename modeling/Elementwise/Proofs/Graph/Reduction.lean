import Mathlib.Algebra.BigOperators.Group.List.Basic
import Elementwise.Proofs.Graph.Session
import Elementwise.Proofs.Reduction.Fold

/-!
# Reductions and values

A reduction runs the script of its node inside the first pass and stores no
value.  It answers what folding the value of the node along the axis gives,
element for element, and leaves every node and every buffer as it was.
-/

namespace Elementwise

namespace AxisLayout

variable {α : Type} {layout : AxisLayout} {shape : Shape} {along : Nat}

/-- The sizes of a shape before, along and behind one of its axes. -/
def around (shape : Shape) (along : Nat) : AxisLayout where
  outer := (shape.dims.take along).prod
  length := shape.dims.getD along 0
  inner := (shape.dims.drop (along + 1)).prod

theorem lt_rank_of_checkAxis
    (checked : shape.checkAxis along = .ok ()) :
    along < shape.rank := by
  by_contra outside
  rw [Shape.checkAxis, if_neg outside] at checked
  cases checked

theorem ofShape_eq_ok
    (laidOut : ofShape shape along = .ok layout) :
    along < shape.rank ∧ layout = around shape along := by
  obtain ⟨_, checked, laidOut⟩ := bind_eq_ok_iff.1 laidOut
  obtain ⟨outer, before, laidOut⟩ := bind_eq_ok_iff.1 laidOut
  obtain ⟨inner, behind, laidOut⟩ := bind_eq_ok_iff.1 laidOut
  cases laidOut
  obtain rfl := Size.product_eq_ok (Size.lift_eq_ok before)
  obtain rfl := Size.product_eq_ok (Size.lift_eq_ok behind)
  exact ⟨lt_rank_of_checkAxis checked, rfl⟩

theorem withDim_eq_ok
    {size : Nat}
    {resized : Shape}
    (done : shape.withDim along size = .ok resized) :
    resized.dims = shape.dims.set along size := by
  obtain ⟨_, -, done⟩ := bind_eq_ok_iff.1 done
  cases done
  rfl

/-- With one entry along the axis, a shape has an element for each place besides it. -/
theorem size_of_set_one
    {reduced : Shape}
    {size : Nat}
    (dims : reduced.dims = shape.dims.set along 1)
    (counted : reduced.size = .ok size) :
    size = (around shape along).outer * (around shape along).inner := by
  obtain rfl := Size.product_eq_ok counted
  rw [dims, List.prod_set, ite_self, Nat.mul_one]
  rfl

/--
What reducing values along the axis of a layout gives: at every place besides the axis
the fold in passes of the entries there, or the identity if there are none.
-/
structure Totals
    [Element α]
    (layout : AxisLayout)
    (fanIn : Nat)
    (reduction : Reduction)
    (values totals : Array α) : Prop where
  size : totals.size = layout.outer * layout.inner
  folded : 1 ≤ layout.length → ∀ before < layout.outer, ∀ behind < layout.inner,
    ∃ total, totals[before * layout.inner + behind]? = some total ∧
      FoldsTo reduction.combine (max fanIn 2)
        (layout.entries (values.getD · Arithmetic.zero) before behind) total
  identity : layout.length = 0 → ∀ place < layout.outer * layout.inner,
    totals[place]? = some reduction.identity

section

variable [Element α] {fanIn : Nat} {reduction : Reduction} {values totals : Array α}

omit [Element α] in
theorem entries_congr
    {get other : Nat → α}
    {before behind : Nat}
    (outside : before < layout.outer)
    (last : behind < layout.inner)
    (same : ∀ index < layout.count, get index = other index) :
    layout.entries get before behind = layout.entries other before behind := by
  refine List.map_congr_left fun along member => ?_
  exact same _ (place_lt outside (List.mem_range.1 member) last)

/-- Folds of the entries at all places besides the axis are the totals. -/
theorem totals_of_holds
    (some : 1 ≤ layout.length)
    (holds : layout.reduced.Holds (fun before behind =>
      treeFold reduction.combine (max fanIn 2)
        (layout.entries (values.getD · Arithmetic.zero) before behind)) totals) :
    layout.Totals fanIn reduction values totals := by
  obtain ⟨size, each⟩ := holds.total some
  refine ⟨size, fun _ before outside behind last => ?_, fun none => ?_⟩
  · obtain ⟨total, folded, held⟩ := each before outside behind last
    exact ⟨total, held, foldsTo_of_treeFold (Nat.le_max_right ..) folded⟩
  · omega

/-- Where there is nothing to read, the totals are the identity. -/
theorem totals_replicate
    (nothing : layout.length = 0 ∨ layout.outer * layout.inner = 0) :
    layout.Totals fanIn reduction values
      (Array.replicate (layout.outer * layout.inner) reduction.identity) := by
  refine ⟨Array.size_replicate, fun some before outside behind last => ?_, fun _ place inside => ?_⟩
  · have positive : 0 < layout.outer * layout.inner :=
      Nat.mul_pos (Nat.zero_lt_of_lt outside) (Nat.zero_lt_of_lt last)
    omega
  · rw [Array.getElem?_replicate, if_pos inside]

/--
If combining is associative and the identity is neutral, the total at a place is the fold of the
entries there, be there any or none: how they are cut into runs makes no difference.
-/
theorem Totals.getElem?_eq_fold
    [Std.Associative (reduction.combine (α := α))]
    (neutral : ∀ value : α, reduction.combine reduction.identity value = value)
    (total : layout.Totals fanIn reduction values totals)
    {before behind : Nat}
    (outside : before < layout.outer)
    (last : behind < layout.inner) :
    totals[before * layout.inner + behind]? =
      some (reduction.fold
        (layout.entries (values.getD · Arithmetic.zero) before behind)) := by
  unfold Reduction.fold
  rcases Nat.eq_zero_or_pos layout.length with none | some
  · have nothing : layout.entries (values.getD · Arithmetic.zero) before behind = [] := by
      rw [entries, none, List.range_zero, List.map_nil]
    rw [nothing]
    exact total.identity none _ (place_lt_of_single outside last)
  · obtain ⟨result, held, folds⟩ := total.folded some before outside behind last
    have folded := folds.foldRun?_eq (Nat.lt_of_lt_of_le Nat.zero_lt_two (Nat.le_max_right ..))
    rw [held]
    cases entered : layout.entries (values.getD · Arithmetic.zero) before behind with
    | nil =>
      rw [entered] at folded
      cases folded
    | cons first rest =>
      rw [entered] at folded
      rw [List.foldl_cons, neutral]
      exact folded.symm

end

end AxisLayout

namespace Graph

variable {α : Type} [Element α]

theorem reducesNothing_eq_ok
    {layout : AxisLayout}
    {nothing : Bool}
    (decided : reducesNothing layout = .ok nothing) :
    nothing = true ↔ layout.length = 0 ∨ layout.outer * layout.inner = 0 := by
  unfold reducesNothing at decided
  split at decided
  next none =>
    cases decided
    simp [none]
  next some =>
    obtain ⟨size, counted, decided⟩ := bind_eq_ok_iff.1 decided
    obtain ⟨-, rfl⟩ := Size.check_eq_ok_iff.1 counted
    cases decided
    simp [some]

/-- The axis of a reduction is the one that is given, or else the last. -/
theorem reducedAxis_eq_ok
    {shape : Shape}
    {axis : Option Nat}
    {along : Nat}
    (onAxis : reducedAxis shape axis = .ok along) :
    along = axis.getD (shape.rank - 1) := by
  cases axis with
  | some axis =>
    cases onAxis
    rfl
  | none =>
    simp only [reducedAxis] at onAxis
    split at onAxis
    · cases onAxis
    · cases onAxis
      rfl

/-- A reduction answers with the totals of the value of its node. -/
theorem Reduces.totals_meaning
    {graph : Graph α}
    {output : NodeId}
    {axis : Option Nat}
    {reduction : Reduction}
    {along size : Nat}
    {layout : AxisLayout}
    {shape reduced : Shape}
    {totals : Array α}
    (reduces : graph.Reduces output axis reduction along layout reduced totals)
    (copies : graph.arena.operation? output = some .leaf →
      ∀ left right : α, Arithmetic.eval .copy left right = left)
    (shaped : graph.arena.shape? output = some shape)
    (sized : shape.size = .ok size) :
    along < shape.rank ∧ along = axis.getD (shape.rank - 1) ∧
      reduced.dims = shape.dims.set along 1 ∧
      (AxisLayout.around shape along).Totals graph.config.fanIn reduction
        (graph.meaning output size) totals := by
  obtain ⟨⟨_, again, onAxis, laidOut, resized⟩, answers⟩ := reduces
  rw [shaped] at again
  cases again
  have count := AxisLayout.count_ofShape laidOut sized
  obtain ⟨inside, rfl⟩ := AxisLayout.ofShape_eq_ok laidOut
  have dims := AxisLayout.withDim_eq_ok resized
  refine ⟨inside, reducedAxis_eq_ok onAxis, dims, ?_⟩
  rcases answers with ⟨decided, length, counted, rfl⟩ | ⟨decided, holds⟩
  · obtain rfl := AxisLayout.size_of_set_one dims counted
    exact AxisLayout.totals_replicate ((reducesNothing_eq_ok decided).1 rfl)
  · have some := mt (reducesNothing_eq_ok decided).2 Bool.false_ne_true
    rw [not_or] at some
    refine AxisLayout.totals_of_holds (Nat.one_le_iff_ne_zero.2 some.1) (holds.congr ?_)
    intro before behind outside last
    refine congrArg _ (AxisLayout.entries_congr outside last fun index below => ?_)
    rw [count] at below
    rw [Script.outputElement_eq_elementOf copies, meaning, Array.getD_eq_getD_getElem?,
      Array.getElem?_eq_getElem (by simpa using below), Array.getElem_ofFn, Option.getD_some,
      elementOf]

namespace Session

section

variable
    {session : Session α}
    {capacity : Nat}
    {device : DeviceId}
    {unsupported : List OpCode}
    {faults : Method → Nat → Option DeviceError}
    {config : Config}
    {commands : List (Command α)}

/--
In every session that a run of requests leads to, a reduction changes no node and no
buffer.  If no contents were given up before, and the reduction and the value of its node
are both answered, then the reduction answers with the shape of the node shortened to one
along the axis, and with the totals of the value that is answered: the folds in passes of
its entries along the axis, or the identity at every place if there are none.  On a leaf
this takes that copying passes values on.
-/
theorem reduce_folds_value
    (reached : (start capacity device unsupported faults config).run commands = session)
    (node : NodeId)
    (axis : Option Nat)
    (reduction : Reduction) :
    (session.step (.reduce node axis reduction)).2.graph.arena = session.graph.arena ∧
    (∀ buffer,
      (session.step (.reduce node axis reduction)).2.graph.store.claim? buffer =
          session.graph.store.claim? buffer ∧
        (session.step (.reduce node axis reduction)).2.graph.store.reading? buffer =
          session.graph.store.reading? buffer) ∧
    ((∀ command ∈ commands, command.givesUp = false) →
      (session.graph.arena.operation? node ≠ some .leaf ∨
        ∀ left right : α, Arithmetic.eval .copy left right = left) →
      ∀ values reduced totals,
        (session.step (.value node)).1 = .ok (.values values) →
        (session.step (.reduce node axis reduction)).1 = .ok (.reduced reduced totals) →
        ∃ shape along, session.graph.arena.shape? node = some shape ∧
          values.size = shape.dims.prod ∧
          along < shape.rank ∧ along = axis.getD (shape.rank - 1) ∧
          reduced.dims = shape.dims.set along 1 ∧
          (AxisLayout.around shape along).Totals session.graph.config.fanIn reduction
            values totals) := by
  have valid : session.Valid := by
    rw [← reached]
    exact run_valid ..
  have reduces : Ends (perform (.reduce node axis reduction)) session
      (fun answer after => Untouched (leases session.pins) session.graph after.graph ∧
        ∀ reduced totals, answer = .reduced reduced totals → ∃ along layout,
          session.graph.Reduces node axis reduction along layout reduced totals)
      (fun _ after => Untouched (leases session.pins) session.graph after.graph) := by
    rw [perform, ends_map_iff, ends_onGraph_iff]
    refine (ends_reduce_folds valid node axis reduction).mono ?_ fun _ _ failed => failed
    rintro ⟨reduced, totals⟩ after ⟨untouched, answers⟩
    refine ⟨untouched, ?_⟩
    rintro _ _ ⟨⟩
    exact answers
  have untouched := step_of_ends (reduces.mono (fun _ _ done => done.1) fun _ _ failed => failed)
  refine ⟨untouched.arena, fun buffer => ⟨?_, ?_⟩, ?_⟩
  · exact untouched.frame.claims buffer (Set.notMem_empty _)
  · exact untouched.frame.readings buffer (Set.notMem_empty _) (Set.notMem_empty _)
  · intro kept copies values reduced totals answered reducedTo
    have coherent : session.graph.Coherent := by
      rw [← reached]
      exact run_coherent _ _ _ _ _ commands kept
    obtain ⟨shape, size, shaped, sized, rfl⟩ := value_answered valid coherent answered
    obtain ⟨-, answers⟩ := step_of_ok reduces reducedTo
    obtain ⟨along, layout, reduces⟩ := answers reduced totals rfl
    obtain ⟨inside, axis, dims, totals⟩ := reduces.totals_meaning
      (fun isLeaf => copies.resolve_left (not_not_intro isLeaf)) shaped sized
    refine ⟨shape, along, shaped, ?_, inside, axis, dims, totals⟩
    rw [size_meaning]
    exact Size.product_eq_ok sized

/-- The sum of the product is that of the value that is answered for it. -/
theorem reduce_folds_value_scaling :
    ((onIntegers scaling).step (.value ⟨2⟩)).1 = .ok (.values #[21, 35]) ∧
    ((onIntegers scaling).step (.reduce ⟨2⟩ none .sum)).1 = .ok (.reduced ⟨[1]⟩ #[56]) ∧
    FoldsTo (Reduction.combine .sum) 2 [(21 : Int), 35] 56 := by
  have answered : ((onIntegers scaling).step (.value ⟨2⟩)).1 = .ok (.values #[21, 35]) := by
    cbv
  have reduced :
      ((onIntegers scaling).step (.reduce ⟨2⟩ none .sum)).1 = .ok (.reduced ⟨[1]⟩ #[56]) := by
    cbv
  obtain ⟨-, -, agrees⟩ :=
    reduce_folds_value (run_eq_onIntegers scaling) ⟨2⟩ none .sum
  obtain ⟨shape, along, shaped, -, -, onAxis, -, totals⟩ :=
    agrees (by decide) (.inr fun _ _ => rfl) _ _ _ answered reduced
  obtain rfl : shape = ⟨[2]⟩ := by
    have known : (onIntegers scaling).graph.arena.shape? ⟨2⟩ = some ⟨[2]⟩ := by decide +kernel
    rw [known] at shaped
    exact (Option.some.inj shaped).symm
  subst onAxis
  obtain ⟨total, held, folds⟩ := totals.folded (by decide) 0 (by decide) 0 (by decide)
  cases held
  exact ⟨answered, reduced, folds⟩

end

end Session

end Graph

end Elementwise
