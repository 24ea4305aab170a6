import Elementwise.Proofs.Gradient.Reporting
import Elementwise.Proofs.Graph.Overflow
import Elementwise.Proofs.Graph.Representation
import Elementwise.Proofs.Graph.Room
import Elementwise.Proofs.Shape.Broadcast
import Elementwise.Proofs.Shape.Index

/-!
# Operations that end without a fault

The one product that is checked when a leaf is made bounds nearly all sizes that are
computed later, because each node has the shape of a leaf: whatever an operation
reads is there, and whatever it counts is a machine size.  Reductions are the
exception, which multiply the dimensions behind their axis on their own.
-/

namespace Elementwise

variable
    {α β : Type}

/-! ## Scripts -/

namespace Script

open Store

variable
    {before : Store α}
    {script : Script}

theorem ends_checkSupported_reports :
    Ends (script.checkSupported : Store.Action α Unit) before
      (fun _ after => after = before ∧ True) (fun reason _ => reason.IsReport) := by
  unfold checkSupported
  rw [ends_bind_iff, ends_get_iff]
  dsimp only
  split
  · exact nofun
  · exact ⟨rfl, trivial⟩

variable
    [Arithmetic α]
    {data : List BufferId}
    {output : BufferId}

/-- A script that computes something, on data that have all it asks for. -/
theorem reports_forward
    (valid : before.Valid)
    (faultless : before.Faultless)
    (computed : script.passedSlot? = none)
    (computes : ∀ views,
      List.Forall₂ (fun buffer values => before.reading? buffer = some values) data views →
      ∃ rows, script.kernel.rows views.toArray (before.lengthOf output) = .ok rows) :
    Reports Faultless (script.forward data output) before := by
  refine .bind_still ends_checkSupported_reports fun _ _ => ?_
  refine reports_withLeases valid faultless fun inside leased faultless => ?_
  refine .bind_still (ends_mapM_blockOf leased fun _ member => member) fun inputs pins => ?_
  refine reports_withLease leased.valid faultless fun middle frame onTier faultless => ?_
  have blocks := pins.imp fun _ _ pins =>
    ((pins.frame frame (Set.notMem_empty _)).pin output).contents
  have readings : (middle.pin output).reading? = before.reading? := by
    rw [reading?_pin, ← leased.readings]
    funext buffer
    exact frame.readings buffer (Set.notMem_empty _) (Set.notMem_empty _)
  refine .bind_still (ends_blockOf (onAccelerator_pin onTier)) fun target _ => ?_
  have looked : Ends (find output) (middle.pin output)
      (fun found after => after = middle.pin output ∧ found.length = before.lengthOf output)
      (fun reason _ => reason.IsReport) := by
    refine ends_find (fun found claimed _ => ⟨rfl, ?_⟩) fun _ => nofun
    rw [← leased.lengthOf, ← lengthOf_frame frame (Set.notMem_empty _), ← lengthOf_pin,
      Store.lengthOf, claimed]
    rfl
  refine .bind_still looked fun found length => ?_
  unfold runBlocks
  rw [computed, length]
  refine reports_launch faultless blocks fun views viewed => ?_
  rw [readings] at viewed
  exact computes views viewed

end Script

/-! ## The parts of operations -/

namespace Graph

open Store (Faultless)

variable
    {graph : Graph α}
    {pins : BufferId → Nat}
    {node output : NodeId}

theorem reports_onStore
    {action : Store.Action α β}
    (reports : Reports Faultless action graph.store) :
    Reports (OnStore Faultless) (onStore action) graph := by
  unfold Reports
  rw [ends_onStore_iff]
  exact reports

theorem ends_check_reports
    {result : Except Error β}
    (reports : ∀ reason, result = .error reason → reason.IsReport) :
    Ends (check result) graph (fun answer after => after = graph ∧ result = .ok answer)
      (fun reason _ => reason.IsReport) := by
  cases result with
  | ok answer => exact ⟨rfl, rfl⟩
  | error reason => exact reports reason rfl

theorem ends_node_reports :
    Ends (Graph.node node) graph
      (fun found after => after = graph ∧ graph.arena.node? node = some found)
      (fun reason _ => reason.IsReport) :=
  ends_node (fun _ present => ⟨rfl, present⟩) fun _ => nofun

theorem exists_size_of_present
    (valid : graph.Valid pins)
    {found : Node}
    (present : graph.arena.node? node = some found) :
    ∃ size, found.shape.size = .ok size := by
  refine valid.arena.sized node found.shape ?_
  rw [Arena.shape?, present, Option.map_some]

theorem ends_content_reports :
    Ends (content node) graph
      (fun buffer after => after = graph ∧ graph.arena.bufferOf? node .content = some buffer)
      (fun reason _ => reason.IsReport) := by
  unfold content
  rw [ends_bind_iff]
  refine ends_node (fun found present => ?_) fun _ => nofun
  cases stored : found.content? with
  | some buffer =>
    refine ⟨rfl, ?_⟩
    rw [Arena.bufferOf?, present, Option.bind_some, stored]
  | none => exact Error.isReport_inconsistency _

theorem ends_checkSupported_reports
    {script : Script} :
    Ends (onStore script.checkSupported) graph (fun _ after => after = graph ∧ True)
      (fun reason _ => reason.IsReport) := by
  rw [ends_onStore_iff]
  refine Script.ends_checkSupported_reports.mono ?_ fun _ _ reported => reported
  rintro _ _ ⟨rfl, -⟩
  exact ⟨rfl, trivial⟩

/-! ## Building graphs -/

section

variable
    (valid : graph.Valid pins)
    (faultless : graph.store.Faultless)

include valid faultless

theorem reports_create
    (opcode : OpCode)
    (operands : List NodeId) :
    Reports (OnStore Faultless) (create opcode operands) graph := by
  have interns : ∀ operation shape needsGradient,
      Reports (OnStore Faultless) (intern operation shape needsGradient) graph := by
    intro operation shape needsGradient
    exact ends_intern_of_lookup (fun _ _ => faultless) fun _ => faultless
  unfold create
  dsimp only
  split
  · exact nofun
  · split
    · exact nofun
    · split
      · exact .bind_still ends_node_reports fun found _ => interns _ _ _
      next left right =>
        refine .bind_still ends_node_reports fun foundLeft presentLeft => ?_
        refine .bind_still ends_node_reports fun foundRight presentRight => ?_
        obtain ⟨_, sizedLeft⟩ := exists_size_of_present valid presentLeft
        obtain ⟨_, sizedRight⟩ := exists_size_of_present valid presentRight
        refine .bind_still (ends_check_reports ?_) fun shape _ => interns _ _ _
        rw [Shape.broadcast_of_sized sizedLeft sizedRight]
        intro reason refused
        split at refused
        · cases refused
        · split at refused
          · cases refused
          · cases refused
            exact nofun
      · exact nofun

theorem reports_markOutput : Reports (OnStore Faultless) (markOutput output) graph := by
  unfold markOutput
  refine .bind_still ends_node_reports fun found present => ?_
  obtain ⟨size, sized⟩ := exists_size_of_present valid present
  have marks : Reports (OnStore Faultless)
      (modifyNode output ({ · with isOutput := true })) graph := faultless
  refine marks.bind fun _ marked faultless => ?_
  split
  · refine .bind_still (ends_check_reports ?_) fun size _ => ?_
    · rw [sized]
      exact nofun
    · have allocates : Reports Faultless (Store.allocate size) marked.store := faultless
      refine .bind (reports_onStore allocates) fun content _ faultless => ?_
      cases found.needsGradient with
      | true => exact faultless
      | false => exact faultless
  · exact faultless

variable [Element α]

/-! ## Values -/

/-- A node that is there has a script. -/
theorem reports_script
    (inside : output.index < graph.arena.size) :
    Reports (OnStore Faultless) (script output) graph := by
  refine ((ends_script valid output).and (ends_script_of_inside valid inside)).mono ?_
    fun _ _ reported => reported.2
  rintro compiled after ⟨⟨-, -, sameStore, -⟩, -⟩
  show after.store.Faultless
  rw [sameStore]
  exact faultless

/-- Bringing a node up to date. -/
theorem reports_materialize : Reports (OnStore Faultless) (materialize output) graph := by
  unfold materialize
  refine .bind_ends (reports_markOutput valid faultless) (ends_markOutput valid output) ?_
  rintro _ marked faultless ⟨first, alike, flags, -, -⟩
  refine .bind_still ends_content_reports fun target owned => ?_
  refine .bind_still ends_node_reports fun found present => ?_
  split
  · exact faultless
  next notUpToDate =>
    have outdated : ¬ marked.arena.IsCurrent output :=
      fun current => notUpToDate ((Arena.isCurrent_iff present).1 current)
    have insideMarked := index_lt_of_bufferOf? owned
    refine .bind_ends (reports_script first.valid faultless insideMarked)
      (ends_script first.valid output) ?_
    rintro compiled middle faultless ⟨kept, sameArena, -, inside, -, properly⟩
    have valid := kept.valid
    obtain ⟨shape, size, shaped, sized⟩ := valid.exists_size (sameArena ▸ inside)
    rw [← sameArena] at owned outdated properly
    have computed : middle.arena.operation? output ≠ some .leaf :=
      fun isLeaf => outdated (valid.leaves output isLeaf)
    have length : middle.store.lengthOf target = size := by
      rw [lengthOf_of_bufferOf? valid owned, Arena.lengthOf_eq shaped sized]
    refine .bind_still (ends_dataBuffers_of_compiled valid properly) fun data ownedData => ?_
    refine .bind (reports_onStore ?_) fun _ _ faultless => faultless
    exact Script.reports_forward valid.store faultless
      (properly.passedSlot?_eq_none valid.arena.proper computed)
      fun views viewed => length ▸ rows_isOk valid properly shaped sized ownedData viewed

theorem reports_value : Reports (OnStore Faultless) (value output) graph := by
  refine .bind_ends (reports_materialize valid faultless) (ends_materialize valid output) ?_
  rintro target after faultless ⟨marked, -, computes⟩
  exact reports_onStore (Store.reports_read computes.keeps.valid.store faultless)

theorem reports_valueAt
    (index : List Nat) :
    Reports (OnStore Faultless) (valueAt output index) graph := by
  refine .bind_still ends_node_reports fun found present => ?_
  obtain ⟨size, sized⟩ := exists_size_of_present valid present
  refine .bind_still (ends_check_reports fun reason refused => ?_) fun flat _ => ?_
  · by_cases inside : found.shape.Contains index
    · rw [Shape.flatten_of_contains sized inside] at refused
      cases refused
    · rw [Shape.flatten_of_not_contains sized inside] at refused
      cases refused
      exact nofun
  · refine .bind_ends (reports_materialize valid faultless) (ends_materialize valid output) ?_
    rintro target after faultless ⟨marked, -, computes⟩
    refine .bind (reports_onStore (Store.reports_read computes.keeps.valid.store faultless)) ?_
    intro values last faultless
    split
    · exact faultless
    · exact nofun

/-! ## Backward passes -/

section

variable
    (half : 2 * graph.arena.lengthOf output ≤ Size.limit)
    (width : graph.config.fanIn < Size.limit)

include half width

/-- A pass whose output has at most half as many elements as there are machine sizes. -/
theorem reports_backward : Reports (fun _ => True) (backward output) graph := by
  rw [backward_eq]
  refine .bind_ends (reports_materialize valid faultless) (ends_materialize valid output) ?_
  rintro target computed faultless ⟨marked, outcome, computes⟩
  obtain ⟨first, alike, -⟩ := (ends_markOutput valid output).of_ok outcome
  have inside : output.index < computed.arena.size :=
    index_lt_of_bufferOf? ((computes.buffers output .content).trans computes.owned)
  refine .bind_ends (reports_script computes.keeps.valid faultless inside)
    (ends_script computes.keeps.valid output) ?_
  rintro compiled middle faultless ⟨kept, sameArena, -, -, -, properly⟩
  have valid := kept.valid
  rw [← sameArena] at inside properly
  have length : middle.arena.lengthOf output = graph.arena.lengthOf output := by
    rw [sameArena, computes.alike.lengthOf, alike.lengthOf]
  have widthMiddle : middle.config.fanIn < Size.limit := by
    rw [kept.config, computes.keeps.config, first.config]
    exact width
  refine ends_addGradients valid inside properly
    (ends_checkSupported_reports.mono (fun _ _ same => same.1) fun _ _ reported => reported)
    fun plan shape domain planned shaped sized => ?_
  split
  · trivial
  obtain ⟨other, again, ordered, -, enough⟩ :=
    Plan.ofScript_eq_ok (properly.validate valid.arena.proper)
  rw [planned] at again
  cases again
  unfold addToTargets
  rw [ends_bind_iff]
  refine (ends_dataBuffers_of_compiled valid properly).mono ?_ fun _ _ never => never
  rintro data middle ⟨rfl, owned⟩
  rw [ends_bind_iff, ends_get_iff, ends_onStore_iff]
  have counted := Arena.lengthOf_eq shaped sized
  refine Gradient.ends_addAdjoints_reports (by rw [← counted, length]; exact half) widthMiddle
    valid.store faultless ordered (owned.length_eq.symm.trans enough.symm)
    (fun target member => before_of_mem_targets (properly.validate valid.arena.proper) planned
      member) (nodup_targets valid properly)
    (fun buffer => claim_ne_none_of_mem_pass owned valid properly)
    fun views viewed coordinate below => readable_of_viewed valid properly shaped sized owned viewed
      enough below

end

end

/-! ## Reductions -/

variable [Element α]

/-- A reduction of a script that has all elements of the layout. -/
theorem reports_reduceScript
    {store : Store α}
    {compiled : Script}
    {data : List BufferId}
    {layout : AxisLayout}
    {fanIn : Nat}
    {reduction : Reduction}
    {get : Nat → α}
    (addressable : layout.Addressable)
    (width : fanIn < Size.limit)
    (valid : store.Valid)
    (faultless : store.Faultless)
    (yields : ∀ views,
      List.Forall₂ (fun buffer values => store.reading? buffer = some values) data views →
      Source.Yields
        (fun index inputs workspace => Script.evalAt compiled.records inputs index workspace)
        views.toArray (·.size = compiled.cacheSize) layout.count get)
    (gives : ∀ views,
      List.Forall₂ (fun buffer values => store.reading? buffer = some values) data views →
      Source.Gives
        (fun index inputs workspace => Script.evalAt compiled.records inputs index workspace)
        views.toArray (·.size = compiled.cacheSize) layout.count) :
    Reports Faultless (reduceScript compiled data layout fanIn reduction) store := by
  refine .bind_ends ?_ (ends_reduceLeased valid get yields) fun result middle faultless made =>
    Store.reports_take made.frame.valid faultless
  refine Store.reports_withLeases valid faultless fun inside leased faultless => ?_
  refine .bind_still (Store.ends_mapM_blockOf leased fun _ member => member) fun blocks pins => ?_
  rw [← leased.readings] at yields gives
  exact AxisLayout.reports_treeReduce (·.size = compiled.cacheSize) addressable width leased.valid
    faultless Array.size_replicate pins yields gives

omit [Element α] in
theorem reducedAxis_reports
    {shape : Shape}
    {axis : Option Nat}
    (reason : Error)
    (refused : reducedAxis shape axis = .error reason) :
    reason.IsReport := by
  cases axis with
  | some axis => cases refused
  | none =>
    simp only [reducedAxis] at refused
    split at refused
    · cases refused
      exact Error.isReport_axisOutOfRange _ _
    · cases refused

/-- The sizes of a reduction leave the range. -/
def Overflows (graph : Graph α) (output : NodeId) (axis : Option Nat) : Prop :=
  ∃ shape along, graph.arena.shape? output = some shape ∧ reducedAxis shape axis = .ok along ∧
    along < shape.rank ∧ shape.OverflowsAlong along

/-- A reduction whose sizes leave the range fails before anything is computed. -/
theorem ends_reduce_of_overflows
    (valid : graph.Valid pins)
    {axis : Option Nat}
    {reduction : Reduction}
    (overflows : graph.Overflows output axis) :
    Ends (reduce output axis reduction) graph (fun _ _ => False)
      (fun reason _ => reason = .fault .overflow) := by
  obtain ⟨shape, along, shaped, onAxis, inside, overflows⟩ := overflows
  obtain ⟨size, sized⟩ := valid.arena.sized output shape shaped
  obtain ⟨found, present, rfl⟩ := Option.map_eq_some_iff.1 shaped
  unfold reduce
  rw [ends_bind_iff]
  refine ends_node_of_present present ?_
  dsimp only
  rw [onAxis]
  by_cases behind : Size.product (found.shape.dims.drop (along + 1)) = .error .overflow
  · show Ends (check (AxisLayout.ofShape found.shape along) >>= _) graph _ _
    rw [AxisLayout.ofShape_of_overflow sized inside behind]
    exact rfl
  · obtain ⟨empty, result⟩ := (Shape.overflowsAlong_iff.1 overflows).resolve_left behind
    show Ends (check (AxisLayout.ofShape found.shape along) >>= _) graph _ _
    rw [AxisLayout.ofShape_of_ne sized inside behind]
    show Ends (check (found.shape.withDim along 1) >>= _) graph _ _
    rw [Shape.withDim_of_lt inside]
    show Ends (check (Size.lift (reducesNothing (AxisLayout.around found.shape along))) >>= _)
      graph _ _
    rw [AxisLayout.reducesNothing_of_empty empty]
    show Ends (check (Size.lift (Size.product (found.shape.dims.set along 1))) >>= _) graph _ _
    rw [result]
    exact rfl

/-- A reduction that has something to read, once its sizes are computed. -/
theorem reports_reduceOutput
    {shape reduced : Shape}
    {along : Nat}
    {layout : AxisLayout}
    {reduction : Reduction}
    (valid : graph.Valid pins)
    (faultless : graph.store.Faultless)
    (shaped : graph.arena.shape? output = some shape)
    (laidOut : AxisLayout.ofShape shape along = .ok layout)
    (addressable : layout.Addressable)
    (width : graph.config.fanIn < Size.limit) :
    Reports (OnStore Faultless)
      (do
        let compiled ← script output
        onStore compiled.checkSupported
        let data ← dataBuffers compiled
        let fanIn := (← get).config.fanIn
        let values ← onStore (reduceScript compiled data layout fanIn reduction)
        return (reduced, values))
      graph := by
  have inside : output.index < graph.arena.size := by
    obtain ⟨found, present, -⟩ := Option.map_eq_some_iff.1 shaped
    rw [← Arena.node?_isSome_iff, present]
    rfl
  refine .bind_ends (reports_script valid faultless inside) (ends_script valid output) ?_
  rintro compiled middle faultless ⟨kept, sameArena, -, -, -, properly⟩
  have valid := kept.valid
  rw [← sameArena] at properly shaped
  refine .bind_still ends_checkSupported_reports fun _ _ => ?_
  refine .bind_still (ends_dataBuffers_of_compiled valid properly) fun data owned => ?_
  unfold Reports
  rw [ends_bind_iff, ends_get_iff]
  refine Reports.bind (reports_onStore ?_) fun _ _ faultless => faultless
  refine reports_reduceScript addressable (kept.config ▸ width) valid.store faultless
    (yields_evalAt valid properly owned shaped laidOut) fun views viewed => ?_
  obtain ⟨size, sized⟩ := valid.arena.sized output shape shaped
  rw [views_eq_readings owned viewed]
  exact gives_evalAt valid properly shaped sized laidOut

/-- A reduction whose sizes stay in the range. -/
theorem reports_reduce
    {axis : Option Nat}
    {reduction : Reduction}
    (valid : graph.Valid pins)
    (faultless : graph.store.Faultless)
    (half : 2 * graph.arena.lengthOf output ≤ Size.limit)
    (width : graph.config.fanIn < Size.limit)
    (fits : ¬ graph.Overflows output axis) :
    Reports (OnStore Faultless) (reduce output axis reduction) graph := by
  refine .bind_still ends_node_reports fun found present => ?_
  obtain ⟨size, sized⟩ := exists_size_of_present valid present
  have shaped : graph.arena.shape? output = some found.shape := by
    rw [Arena.shape?, present, Option.map_some]
  refine .bind_still (ends_check_reports reducedAxis_reports) fun along onAxis => ?_
  by_cases inside : along < found.shape.rank
  case neg =>
    refine .bind_still (ends_check_reports ?_) fun layout laidOut => ?_
    · rw [AxisLayout.ofShape, Shape.checkAxis, if_neg inside]
      rintro _ ⟨⟩
      exact Error.isReport_axisOutOfRange _ _
    · exact absurd (AxisLayout.ofShape_eq_ok laidOut).1 inside
  have fits : ¬ found.shape.OverflowsAlong along := fun overflows =>
    fits ⟨found.shape, along, shaped, onAxis, inside, overflows⟩
  have laidOut := AxisLayout.ofShape_of_ne sized inside fun behind =>
    fits (Shape.overflowsAlong_iff.2 (.inl behind))
  have count := AxisLayout.count_ofShape laidOut sized
  rw [Arena.lengthOf_eq shaped sized, ← count] at half
  have counted : (AxisLayout.around found.shape along).count < Size.limit := by
    have positive : 0 < Size.limit := by decide
    omega
  obtain ⟨nothing, decided⟩ := AxisLayout.reducesNothing_isOk counted
  rw [laidOut]
  show Reports _ (check (found.shape.withDim along 1) >>= _) graph
  rw [Shape.withDim_of_lt inside]
  show Reports _ (check (Size.lift (reducesNothing _)) >>= _) graph
  rw [decided]
  show Reports _ (if nothing = true then _ else _) graph
  split
  · show Reports _ (check (Size.lift (Size.product (found.shape.dims.set along 1))) >>= _) graph
    rw [Shape.product_set_of_fits sized fits]
    exact faultless
  next some =>
    rw [Bool.eq_false_of_not_eq_true some] at decided
    exact reports_reduceOutput valid faultless shaped laidOut
      (AxisLayout.addressable_of_reducesNothing half decided) width

/-- A reduction answers with as many values as its shape has elements. -/
theorem Reduces.size_eq
    (valid : graph.Valid pins)
    {axis : Option Nat}
    {reduction : Reduction}
    {along : Nat}
    {layout : AxisLayout}
    {reduced : Shape}
    {totals : Array α}
    (reduces : graph.Reduces output axis reduction along layout reduced totals) :
    reduced.size = .ok totals.size := by
  obtain ⟨⟨shape, shaped, -, laidOut, resized⟩, answers⟩ := reduces
  obtain ⟨size, sized⟩ := valid.arena.sized output shape shaped
  obtain ⟨-, rfl⟩ := AxisLayout.ofShape_eq_ok laidOut
  have dims := AxisLayout.withDim_eq_ok resized
  rcases answers with ⟨-, size, counted, rfl⟩ | ⟨decided, holds⟩
  · rw [counted, Array.size_replicate]
  · have some := mt (reducesNothing_eq_ok decided).2 Bool.false_ne_true
    rw [not_or] at some
    have counted : reduced.size = .ok reduced.dims.prod := by
      rw [Shape.size, dims]
      refine Size.product_set_one sized fun dim found => Nat.pos_of_ne_zero ?_
      rintro rfl
      refine some.1 ?_
      rw [AxisLayout.around, List.getD_eq_getElem?_getD, found, Option.getD_some]
    rw [counted, AxisLayout.size_of_set_one dims counted,
      (holds.total (Nat.one_le_iff_ne_zero.2 some.1)).1]

/-! ## Sessions -/

namespace Session

variable
    {session : Session α}
    {capacity : Nat}
    {device : DeviceId}
    {unsupported : List OpCode}
    {faults : Method → Nat → Option DeviceError}
    {config : Config}
    {commands : List (Command α)}

/-- A request is not stopped by a fault. -/
def Survives (session : Session α) (command : Command α) : Prop :=
  ∀ cause, (session.step command).1 ≠ .error (.fault cause)

/-- A request to the graph that ends without a fault there. -/
theorem survives_of_reports
    {command : Command α}
    {action : Graph.Action α β}
    {answer : β → Answer α}
    {holds : Graph α → Prop}
    (carriedOut : perform command = answer <$> onGraph action)
    (reports : Reports holds action session.graph) :
    session.Survives command := by
  have ends : Ends (perform command) session (fun _ _ => True) fun reason _ => reason.IsReport := by
    rw [carriedOut, ends_map_iff, ends_onGraph_iff]
    exact reports.mono (fun _ _ _ => trivial) fun _ _ reported => reported
  exact fun cause failed => step_of_error ends failed cause rfl

/-- A reduction is stopped by a fault just if its sizes leave the range. -/
theorem reduce_eq_fault_iff
    (valid : session.Valid)
    (faultless : session.graph.store.Faultless)
    (width : session.graph.config.fanIn < Size.limit)
    {node : NodeId}
    (half : 2 * session.graph.arena.lengthOf node ≤ Size.limit)
    {axis : Option Nat}
    {reduction : Reduction}
    {cause : Fault} :
    (session.step (.reduce node axis reduction)).1 = .error (.fault cause) ↔
      cause = .overflow ∧ session.graph.Overflows node axis := by
  by_cases overflows : session.graph.Overflows node axis
  · have ends : Ends (perform (.reduce node axis reduction)) session (fun _ _ => False)
        (fun reason _ => reason = .fault .overflow) := by
      rw [perform, ends_map_iff, ends_onGraph_iff]
      exact ends_reduce_of_overflows valid overflows
    have failed : (session.step (.reduce node axis reduction)).1 = .error (.fault .overflow) := by
      cases outcome : (session.step (.reduce node axis reduction)).1 with
      | ok answer => exact (step_of_ok ends outcome).elim
      | error reason => rw [step_of_error ends outcome]
    constructor
    · intro again
      rw [failed] at again
      cases again
      exact ⟨rfl, overflows⟩
    · rintro ⟨rfl, -⟩
      exact failed
  · have survives : session.Survives (.reduce node axis reduction) :=
      survives_of_reports rfl (reports_reduce valid faultless half width overflows)
    exact ⟨fun failed => absurd failed (survives cause), fun both => absurd both.2 overflows⟩

/-- What a reduction answers has as many values as the shape that it answers has elements. -/
theorem size_of_reduced
    (valid : session.Valid)
    {node : NodeId}
    {axis : Option Nat}
    {reduction : Reduction}
    {reduced : Shape}
    {totals : Array α}
    (answered : (session.step (.reduce node axis reduction)).1 = .ok (.reduced reduced totals)) :
    reduced.size = .ok totals.size := by
  have ends : Ends (perform (.reduce node axis reduction)) session
      (fun answer _ => ∀ reduced totals, answer = .reduced reduced totals →
        reduced.size = .ok totals.size) (fun _ _ => True) := by
    rw [perform, ends_map_iff, ends_onGraph_iff]
    refine (ends_reduce_folds valid node axis reduction).mono ?_ fun _ _ _ => trivial
    rintro ⟨_, _⟩ after ⟨-, along, layout, reduces⟩ _ _ ⟨⟩
    exact Reduces.size_eq valid reduces
  exact step_of_ok ends answered reduced totals rfl

/-- A fault that is not scheduled at the start is never scheduled. -/
theorem run_faultless
    (reached : (start capacity device unsupported faults config).run commands = session)
    (faultless : ∀ method call cause, faults method call ≠ some (.fault cause)) :
    session.graph.store.Faultless := by
  have booked := booked_run (booked_start capacity device unsupported faults config) commands
  rw [reached] at booked
  have same : session.graph.store.accelerator.faults = faults :=
    congrArg Make.faults booked.accounted.made
  unfold Store.Faultless
  rw [same]
  exact faultless

/--
In every session that a run of requests leads to, on an accelerator that is not made to end in a
fault, no operation is created, no output marked and no value answered with a fault, nor does a
backward pass end in one whose output has at most half as many elements as there are machine
sizes.

A reduction of such a node ends in a fault just if the product of the dimensions behind the axis
or, if the axis is empty, that of the dimensions of the result, leaves the range of machine sizes
on the way.  This takes a dimension of zero up to the axis, so that there is nothing to reduce.
Each reduction that is answered has as many values as the shape that it answers has elements,
and no result of a pass is computed by a division by zero.
-/
theorem overflow_exactly
    (reached : (start capacity device unsupported faults config).run commands = session)
    (faultless : ∀ method call cause, faults method call ≠ some (.fault cause))
    (width : session.graph.config.fanIn < Size.limit) :
    (∀ opcode operands, session.Survives (.create opcode operands)) ∧
    (∀ node, session.Survives (.markOutput node) ∧ session.Survives (.value node) ∧
      ∀ index, session.Survives (.valueAt node index)) ∧
    (∀ node, 2 * session.graph.arena.lengthOf node ≤ Size.limit →
      session.Survives (.backward node) ∧
      ∀ axis reduction cause,
        (session.step (.reduce node axis reduction)).1 = .error (.fault cause) ↔
          cause = .overflow ∧ session.graph.Overflows node axis) ∧
    (∀ node shape along, session.graph.arena.shape? node = some shape →
      shape.OverflowsAlong along → 0 ∈ shape.dims.take (along + 1)) ∧
    (∀ node axis reduction reduced totals,
      (session.step (.reduce node axis reduction)).1 = .ok (.reduced reduced totals) →
      reduced.size = .ok totals.size) ∧
    ∀ (layout : AxisLayout) (length index : Nat),
      layout.sizeAlong
        (Size.runs layout.length (max session.graph.config.fanIn Config.minFanIn)) = .ok length →
      index < length →
      0 < max session.graph.config.fanIn Config.minFanIn ∧ 0 < layout.inner ∧
        0 < Size.runs layout.length (max session.graph.config.fanIn Config.minFanIn) := by
  have valid : session.Valid := by
    rw [← reached]
    exact run_valid ..
  have quiet := run_faultless reached faultless
  refine ⟨?_, ?_, ?_, ?_, ?_, ?_⟩
  · exact fun opcode operands =>
      survives_of_reports rfl (reports_create valid quiet opcode operands)
  · intro node
    refine ⟨?_, ?_, fun index => ?_⟩
    · exact survives_of_reports rfl (reports_markOutput valid quiet)
    · exact survives_of_reports rfl (reports_value valid quiet)
    · exact survives_of_reports rfl (reports_valueAt valid quiet index)
  · intro node half
    refine ⟨?_, fun axis reduction cause => ?_⟩
    · exact survives_of_reports rfl (reports_backward valid quiet half width)
    · exact reduce_eq_fault_iff valid quiet width half
  · intro node shape along shaped overflows
    obtain ⟨size, sized⟩ := valid.arena.sized node shape shaped
    exact overflows.mem_take sized
  · exact fun node axis reduction reduced totals answered => size_of_reduced valid answered
  · intro layout length index counted below
    rw [AxisLayout.sizeAlong_eq_ok counted] at below
    exact ⟨Nat.lt_of_lt_of_le (by decide) (Nat.le_max_right _ _),
      AxisLayout.pos_of_lt_count below⟩

/-- A leaf without elements, two of whose dimensions have a product that is no machine size. -/
def vacant : List (Command Int) :=
  [.leaf ⟨[0, 2, 0x100000000, 0x100000000]⟩ #[] false]

/-- Along the second axis of the leaf a reduction overflows, along the third it does not. -/
theorem overflow_exactly_vacant :
    (onIntegers vacant).Survives (.value ⟨0⟩) ∧ (onIntegers vacant).Survives (.backward ⟨0⟩) ∧
      ((onIntegers vacant).step (.reduce ⟨0⟩ (some 1) .sum)).1 = .error (.fault .overflow) ∧
      (onIntegers vacant).Survives (.reduce ⟨0⟩ (some 2) .sum) ∧
      0 ∈ (⟨[0, 2, 0x100000000, 0x100000000]⟩ : Shape).dims.take 2 := by
  have shaped : (onIntegers vacant).graph.arena.shape? ⟨0⟩ =
      some ⟨[0, 2, 0x100000000, 0x100000000]⟩ := by
    decide +kernel
  have overflows : (⟨[0, 2, 0x100000000, 0x100000000]⟩ : Shape).OverflowsAlong 1 :=
    .inl ⟨2, by decide⟩
  have fits : ¬ (⟨[0, 2, 0x100000000, 0x100000000]⟩ : Shape).OverflowsAlong 2 := by
    rw [Shape.overflowsAlong_iff]
    decide
  obtain ⟨-, answers, passes, empty, -⟩ :=
    overflow_exactly (run_eq_onIntegers vacant) (fun _ _ _ => nofun) (by decide +kernel)
  obtain ⟨backward, reduces⟩ := passes ⟨0⟩ (by decide +kernel)
  refine ⟨(answers ⟨0⟩).2.1, backward, ?_, ?_, empty ⟨0⟩ _ 1 shaped overflows⟩
  · exact (reduces (some 1) .sum .overflow).2 ⟨rfl, _, 1, shaped, rfl, by decide, overflows⟩
  · intro cause failed
    obtain ⟨-, shape, along, again, onAxis, -, overflows⟩ := (reduces (some 2) .sum cause).1 failed
    rw [shaped] at again
    cases again
    cases onAxis
    exact fits overflows

/--
The leaf is accepted and nothing of it is read, but the dimensions behind its second axis are
multiplied without the empty one in front.  Along the third axis the reduction is answered with
as many values as its result has elements, which is none, as it would have along the second.
-/
theorem overflow_behind_empty_axis :
    ((onIntegers []).step (.leaf ⟨[0, 2, 0x100000000, 0x100000000]⟩ #[] false)).1 =
        .ok (.node ⟨0⟩) ∧
      ((onIntegers vacant).step (.reduce ⟨0⟩ (some 1) .sum)).1 = .error (.fault .overflow) ∧
      (⟨[0, 1, 0x100000000, 0x100000000]⟩ : Shape).size = .ok 0 ∧
      ((onIntegers vacant).step (.reduce ⟨0⟩ (some 2) .sum)).1 =
        .ok (.reduced ⟨[0, 2, 1, 0x100000000]⟩ #[]) := by
  refine ⟨?_, ?_, rfl, ?_⟩
  · cbv
  · cbv
  · cbv

end Session

end Graph

end Elementwise
