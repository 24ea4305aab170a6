import Elementwise.Proofs.Buffer.Simulation
import Elementwise.Proofs.Gradient.Accumulation
import Elementwise.Proofs.Script.Forward

/-!
# Launches over buffers in step

Scripts, reductions in passes and sweeps over gradients all lease buffers, look
up the blocks behind them and launch a kernel.  On two stores that simulate each
other their runs are in step, since they do so on the same buffers under other
names.
-/

namespace Elementwise

open Store

/-! ## Scripts -/

namespace Script

variable
    {α : Type}
    [Arithmetic α]
    {simulation : Simulation α}
    {left right : Store α}

theorem simulates_checkSupported (script : Script) :
    simulation.Simulates id script.checkSupported script.checkSupported := by
  intro left right same
  rcases simulation.unsupported same with mayPart | unsupported
  · refine inStep_of_bothEnd (bothEnd_of_ends ends_checkSupported ends_checkSupported ?_) mayPart
    rintro _ _ _ _ rfl rfl
    exact ⟨rfl, same⟩
  · refine InStep.bind (inStep_of_ok rfl rfl ?_)
    have supports : right.accelerator.pool.supports = left.accelerator.pool.supports := by
      unfold Pool.supports
      rw [unsupported]
    dsimp only
    rw [supports]
    split
    · exact Simulation.throw (fun _ => rfl) left right same
    · exact inStep_pure ⟨rfl, same⟩

theorem agrees_runBlocks
    (script : Script)
    {data : List BufferId}
    {output : BufferId}
    {inputs inputsOther : List Block}
    {target targetOther : Block}
    (length : Nat)
    (same : simulation.related left right)
    (read : left.Behind data inputs)
    (readOther : right.Behind (data.map simulation.name) inputsOther)
    (written : left.contents? output = some (.device target))
    (writtenOther : right.contents? (simulation.name output) = some (.device targetOther)) :
    simulation.Agrees id (script.runBlocks inputs target length)
      (script.runBlocks inputsOther targetOther length) left right := by
  have launched : simulation.Agrees id
      (perform (Accelerator.launch length inputs [target] script.kernel))
      (perform (Accelerator.launch length inputsOther [targetOther] script.kernel)) left right :=
    simulation.launch same read readOther (.cons written .nil) (.cons writtenOther .nil)
  unfold runBlocks
  dsimp only
  cases script.passedSlot? with
  | none => exact launched
  | some slot =>
    dsimp only
    by_cases inInputs : slot < inputs.length
    · have inData : slot < data.length := read.length_eq ▸ inInputs
      have inNames : slot < (data.map simulation.name).length := by rwa [List.length_map]
      have inOther : slot < inputsOther.length := readOther.length_eq ▸ inNames
      have stored : left.contents? data[slot] = some (.device inputs[slot]) :=
        read.get inData inInputs
      have storedOther : right.contents? (simulation.name data[slot]) =
          some (.device inputsOther[slot]) := by
        have stored := readOther.get inNames inOther
        simpa using stored
      rw [List.getElem?_eq_getElem inInputs, List.getElem?_eq_getElem inOther]
      dsimp only
      rw [← Simulation.block_length_eq same stored storedOther]
      split
      · exact simulation.copy same stored storedOther written writtenOther
      · exact launched
    · have outside : inputs.length = inputsOther.length := by
        rw [← read.length_eq, ← readOther.length_eq, List.length_map]
      rw [List.getElem?_eq_none (Nat.le_of_not_lt inInputs),
        List.getElem?_eq_none (outside ▸ Nat.le_of_not_lt inInputs)]
      exact Simulation.throw (fun _ => rfl) left right same

theorem simulates_forward
    (script : Script)
    (data : List BufferId)
    (output : BufferId) :
    simulation.Simulates id (script.forward data output)
      (script.forward (data.map simulation.name) (simulation.name output)) := by
  refine .bind (simulates_checkSupported script) fun _ left right same =>
    Simulation.withLeases same fun inside insideOther same leased leasedOther => ?_
  refine InStep.bind
    ((Simulation.mapM_blockOf leased leasedOther fun _ member => member).mono_done ?_)
  rintro inputs inputsOther _ _ ⟨rfl, rfl, pins, pinsOther⟩
  refine Simulation.withLease same fun inside insideOther same leasedOutput leasedOutputOther => ?_
  refine InStep.bind ((Simulation.blockOf leasedOutput leasedOutputOther
    (List.mem_singleton.2 rfl)).mono_done ?_)
  rintro target targetOther _ _ ⟨rfl, rfl, written, writtenOther⟩
  refine InStep.bind ((Simulation.find same).mono_done ?_)
  rintro found other _ _ ⟨rfl, rfl, length⟩
  rw [length]
  exact agrees_runBlocks script _ same
    (Simulation.behind_of_pins (pins.imp fun _ _ pins => pins.of_leased leasedOutput))
    (Simulation.behind_of_pins (pinsOther.imp fun _ _ pins => pins.of_leased leasedOutputOther))
    written.contents writtenOther.contents

end Script

/-! ## Reductions in passes -/

namespace AxisLayout

variable
    {α ω : Type}
    [Arithmetic α]
    {simulation : Simulation α}
    {layout : AxisLayout}
    {fanIn : Nat}
    {combine : α → α → α}
    {left right : Store α}

theorem agrees_launchPass
    {initial : ω}
    {source : Source α ω}
    {sources : List BufferId}
    {output : BufferId}
    {inputs inputsOther : List Block}
    {target targetOther : Block}
    (same : simulation.related left right)
    (read : List.Forall₂ left.Pins sources inputs)
    (readOther : List.Forall₂ right.Pins (sources.map simulation.name) inputsOther)
    (written : left.Pins output target)
    (writtenOther : right.Pins (simulation.name output) targetOther) :
    simulation.Agrees id (layout.launchPass fanIn combine initial source inputs target)
      (layout.launchPass fanIn combine initial source inputsOther targetOther) left right := by
  unfold launchPass
  have nameless := nameless_lift (layout.sizeAlong (Size.runs layout.length fanIn))
  cases lifted : Size.lift (layout.sizeAlong (Size.runs layout.length fanIn)) with
  | error reason =>
    exact inStep_of_error rfl rfl (Simulation.failed_of_nameless (nameless reason lifted) same)
  | ok length =>
    exact simulation.launch same (Simulation.behind_of_pins read)
      (Simulation.behind_of_pins readOther) (.cons written.contents .nil)
      (.cons writtenOther.contents .nil)

theorem simulates_allocateRuns :
    simulation.Simulates simulation.name (layout.allocateRuns fanIn)
      (layout.allocateRuns fanIn) :=
  .bind (Simulation.check (nameless_lift _)) simulation.allocate

/-- A pinned buffer stays where it is when another one is made. -/
theorem pins_of_made'
    {holds : Array α → Prop}
    {buffers : List BufferId}
    {blocks : List Block}
    {made : BufferId}
    (pins : List.Forall₂ left.Pins buffers blocks)
    (new : Made holds left right made) :
    List.Forall₂ right.Pins buffers blocks := by
  refine pins.imp fun buffer block pins => pins.frame new.frame ?_
  rintro rfl
  obtain ⟨claim, claimed, -⟩ := pins.leased
  rw [new.absent] at claimed
  cases claimed

theorem agrees_firstPass
    {initial : ω}
    {source : Source α ω}
    {sources : List BufferId}
    {inputs inputsOther : List Block}
    (same : simulation.related left right)
    (pins : List.Forall₂ left.Pins sources inputs)
    (pinsOther : List.Forall₂ right.Pins (sources.map simulation.name) inputsOther) :
    simulation.Agrees simulation.name (layout.firstPass fanIn combine inputs initial source)
      (layout.firstPass fanIn combine inputsOther initial source) left right := by
  refine InStep.bind (((simulates_allocateRuns left right same).and_ends
    (ends_allocateRuns (simulation.valid same))
    (ends_allocateRuns (simulation.validOther same))).mono ?_ fun _ _ _ _ failed => failed.1)
  rintro output _ middle middleOther ⟨⟨rfl, same⟩, ⟨made, -⟩, ⟨madeOther, -⟩⟩
  refine Coupling.Agrees.bind_id (Simulation.droppedUnlessDone (Simulation.withLease same
    fun inside insideOther same leased leasedOther => ?_) output) fun _ => .pure rfl
  refine InStep.bind
    ((Simulation.blockOf leased leasedOther (List.mem_singleton.2 rfl)).mono_done ?_)
  rintro target targetOther _ _ ⟨rfl, rfl, written, writtenOther⟩
  exact agrees_launchPass same
    ((pins_of_made' pins made).imp fun _ _ pins => pins.of_leased leased)
    ((pins_of_made' pinsOther madeOther).imp fun _ _ pins => pins.of_leased leasedOther)
    written writtenOther

theorem simulates_nextPass (current : BufferId) :
    simulation.Simulates simulation.name (layout.nextPass fanIn combine current)
      (layout.nextPass fanIn combine (simulation.name current)) := by
  refine .bind simulates_allocateRuns fun output left right same => ?_
  refine Coupling.Agrees.bind_id (Simulation.droppedUnlessDone (Coupling.Agrees.bind_id
    (Simulation.withLeasePair same fun inside insideOther same leased leasedOther => ?_)
      fun _ => simulation.release current) output) fun _ => .pure rfl
  refine InStep.bind ((Simulation.blockOf leased leasedOther List.mem_cons_self).mono_done ?_)
  rintro input inputOther _ _ ⟨rfl, rfl, read, readOther⟩
  refine InStep.bind ((Simulation.blockOf leased leasedOther
    (List.mem_cons_of_mem _ List.mem_cons_self)).mono_done ?_)
  rintro target targetOther _ _ ⟨rfl, rfl, written, writtenOther⟩
  exact agrees_launchPass same (.cons read .nil) (.cons readOther .nil)
    written writtenOther

theorem simulates_laterPasses
    (long : 2 ≤ fanIn)
    (current : BufferId) :
    simulation.Simulates simulation.name (layout.laterPasses fanIn long combine current)
      (layout.laterPasses fanIn long combine (simulation.name current)) := by
  induction size : layout.length using Nat.strong_induction_on generalizing layout current with
  | _ length step =>
    unfold laterPasses
    split
    next many =>
      refine .bind (fun left right same => Simulation.droppedUnlessDone
        (simulates_nextPass current left right same) current) fun next => ?_
      exact .bind (.modify fun _ _ same => simulation.drop same current) fun _ =>
        step _ (size ▸ Size.runs_lt many long) next rfl
    next => exact .pure rfl

theorem agrees_treeReduce
    {initial : ω}
    {source : Source α ω}
    {sources : List BufferId}
    {inputs inputsOther : List Block}
    (same : simulation.related left right)
    (pins : List.Forall₂ left.Pins sources inputs)
    (pinsOther : List.Forall₂ right.Pins (sources.map simulation.name) inputsOther) :
    simulation.Agrees simulation.name (layout.treeReduce fanIn combine inputs initial source)
      (layout.treeReduce fanIn combine inputsOther initial source) left right :=
  (agrees_firstPass same pins pinsOther).bind fun first => simulates_laterPasses _ first

end AxisLayout

namespace Store

variable
    {α : Type}
    [Arithmetic α]
    {simulation : Simulation α}

theorem simulates_take (buffer : BufferId) :
    simulation.Simulates id (take buffer) (take (simulation.name buffer)) := by
  intro left right same
  refine Simulation.dropped (Coupling.Agrees.bind_id (simulation.read buffer left right same)
    fun values => ?_) buffer
  exact .bind (simulation.release buffer) fun _ => .pure rfl

end Store

/-! ## Gradients -/

namespace Gradient

/-- A target whose gradient has another name. -/
def Target.rename (name : BufferId → BufferId) (target : Target) : Target :=
  { target with buffer := name target.buffer }

/-- An assignment whose buffers have other names. -/
def renameAssignment (name : BufferId → BufferId) (assignment : Assignment) : Assignment :=
  (assignment.1.rename name, assignment.2.map name)

section

variable
    {name : BufferId → BufferId}
    {domain : Nat}

theorem direct_rename (assignments : List Assignment) :
    direct (assignments.map (renameAssignment name)) = (direct assignments).map name := by
  unfold direct
  rw [List.filterMap_map, List.map_filterMap]
  refine List.filterMap_congr fun assignment _ => ?_
  obtain ⟨target, _ | spare⟩ := assignment <;> rfl

theorem spares_rename (assignments : List Assignment) :
    (assignments.map (renameAssignment name)).filterMap (·.2) =
      (assignments.filterMap (·.2)).map name := by
  rw [List.filterMap_map, List.map_filterMap]
  rfl

theorem columns_rename
    (next : Nat)
    (assignments : List Assignment) :
    columns next (assignments.map (renameAssignment name)) = columns next assignments := by
  induction assignments generalizing next with
  | nil => rfl
  | cons assignment assignments step =>
    obtain ⟨target, _ | spare⟩ := assignment
    · exact congrArg ((target.source, some next) :: ·) (step _)
    · exact congrArg ((target.source, none) :: ·) (step _)

theorem assign_rename
    (sized : List (Target × Nat))
    (spare : List BufferId) :
    assign domain (sized.map fun entry => (entry.1.rename name, entry.2)) (spare.map name) =
      (assign domain sized spare).map (renameAssignment name) := by
  induction sized generalizing spare with
  | nil => rfl
  | cons entry sized step =>
    obtain ⟨target, length⟩ := entry
    rw [List.map_cons, assign, assign]
    split
    · rw [step, List.map_cons]
      rfl
    · rw [← List.map_tail, step, List.head?_map, List.map_cons]
      rfl

theorem output_rename (assignment : Assignment) :
    output (renameAssignment name assignment) = name (output assignment) := by
  obtain ⟨target, _ | spare⟩ := assignment <;> rfl

end

variable
    {α : Type}
    [Element α]
    {simulation : Simulation α}
    {domain fanIn : Nat}

theorem simulates_launchSweep
    (plan : Plan)
    (data : List BufferId)
    (assignments : List Assignment) :
    simulation.Simulates id (launchSweep plan data domain assignments)
      (launchSweep plan (data.map simulation.name) domain
        (assignments.map (renameAssignment simulation.name))) := by
  intro left right same
  unfold launchSweep
  dsimp only
  rw [direct_rename, spares_rename, columns_rename, ← List.map_append, ← List.map_append]
  refine Simulation.withLeases same fun inside insideOther same leased leasedOther => ?_
  refine InStep.bind ((Simulation.mapM_blockOf leased leasedOther
    fun _ member => List.mem_append_left _ member).mono_done ?_)
  rintro inputs inputsOther _ _ ⟨rfl, rfl, read, readOther⟩
  have targetsOther : (assignments.map (renameAssignment simulation.name)).map output =
      (assignments.map output).map simulation.name := by
    rw [List.map_map, List.map_map]
    exact List.map_congr_left fun assignment _ => output_rename assignment
  rw [List.map_append, List.map_append, ← direct_rename, ← spares_rename] at leasedOther
  refine InStep.bind (inStep_of_ends (ends_outputBlocks leased) (ends_outputBlocks leasedOther) ?_)
  rintro outputs outputsOther _ _ ⟨rfl, written⟩ ⟨rfl, writtenOther⟩
  rw [targetsOther] at writtenOther
  exact simulation.launch same (Simulation.behind_of_pins read)
    (Simulation.behind_of_pins readOther) written writtenOther

theorem simulates_sumUp (buffer : BufferId) :
    simulation.Simulates id (sumUp buffer domain fanIn)
      (sumUp (simulation.name buffer) domain fanIn) := by
  intro left right same
  refine Coupling.Agrees.bind (Simulation.withLease same
    fun inside insideOther same leased leasedOther => ?_) simulates_take
  refine InStep.bind
    ((Simulation.blockOf leased leasedOther (List.mem_singleton.2 rfl)).mono_done ?_)
  rintro block blockOther _ _ ⟨rfl, rfl, pins, pinsOther⟩
  exact AxisLayout.agrees_treeReduce same (.cons pins .nil) (.cons pinsOther .nil)

theorem simulates_settle (assignment : Assignment) :
    simulation.Simulates id (settle domain fanIn assignment)
      (settle domain fanIn (renameAssignment simulation.name assignment)) := by
  obtain ⟨target, spare⟩ := assignment
  cases spare with
  | none => exact .pure rfl
  | some spare =>
    exact .bind (simulates_sumUp spare) fun total => .bind (simulation.release spare) fun _ =>
      .bind (simulation.update target.buffer _) fun _ => .pure rfl

theorem simulates_addAdjoints
    (plan : Plan)
    (data : List BufferId)
    (targets : List Target) :
    simulation.Simulates id (addAdjoints plan data targets domain fanIn)
      (addAdjoints plan (data.map simulation.name) (targets.map (Target.rename simulation.name))
        domain fanIn) := by
  have sizes : simulation.Simulates
      (List.map fun entry => (entry.1.rename simulation.name, entry.2))
      (targets.mapM fun target => do return (target, (← Store.find target.buffer).length))
      ((targets.map (Target.rename simulation.name)).mapM fun target => do
        return (target, (← Store.find target.buffer).length)) := by
    refine .mapM targets fun target left right same => ?_
    refine InStep.bind ((Simulation.find same).mono_done ?_)
    rintro found other _ _ ⟨rfl, rfl, length⟩
    exact inStep_pure ⟨by rw [length], same⟩
  refine .bind sizes fun sized => ?_
  have lengths : ((sized.map fun entry => (entry.1.rename simulation.name, entry.2)).filter
      (·.2 ≠ domain)).map (fun _ => domain) =
      (sized.filter (·.2 ≠ domain)).map fun _ => domain := by
    rw [List.filter_map, List.map_map]
    rfl
  dsimp only
  rw [lengths]
  refine Simulation.withBuffers _ fun spare => ?_
  rw [assign_rename]
  exact .bind (simulates_launchSweep plan data _) fun _ => .forM _ simulates_settle

end Gradient

end Elementwise
