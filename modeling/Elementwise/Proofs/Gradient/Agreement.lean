import Elementwise.Proofs.Buffer.Agreement
import Elementwise.Proofs.Gradient.Accumulation
import Elementwise.Proofs.Script.Forward

/-!
# Launches over buffers in two stores

Scripts, reductions in passes and sweeps over gradients all lease buffers, look
up the blocks behind them and launch a kernel.  In twins they read the same and
write the same, whatever was moved to make room for them.
-/

namespace Elementwise

open Store

/-! ## Scripts -/

namespace Script

variable
    {α : Type}
    [Arithmetic α]
    {left right : Store α}

theorem respects_checkSupported (script : Script) :
    Respects Twin (script.checkSupported : Store.Action α Unit) := by
  intro left right twin
  refine bothEnd_of_ends ends_checkSupported ends_checkSupported ?_
  rintro _ _ _ _ rfl rfl
  exact ⟨rfl, twin⟩

theorem matches_runBlocks
    (script : Script)
    {data : List BufferId}
    {output : BufferId}
    {inputs inputsOther : List Block}
    {target targetOther : Block}
    (length : Nat)
    (twin : Twin left right)
    (read : List.Forall₂ (fun buffer block => left.contents? buffer = some (.device block))
      data inputs)
    (readOther : List.Forall₂ (fun buffer block => right.contents? buffer = some (.device block))
      data inputsOther)
    (written : left.contents? output = some (.device target))
    (writtenOther : right.contents? output = some (.device targetOther)) :
    Matches Twin (script.runBlocks inputs target length)
      (script.runBlocks inputsOther targetOther length) left right := by
  have launched : Matches Twin
      (perform (Accelerator.launch length inputs [target] script.kernel))
      (perform (Accelerator.launch length inputsOther [targetOther] script.kernel)) left right :=
    matches_launch twin read readOther (.cons written .nil) (.cons writtenOther .nil)
  unfold runBlocks
  dsimp only
  cases script.passedSlot? with
  | none => exact launched
  | some slot =>
    dsimp only
    cases found : inputs[slot]? with
    | none => exact bothEnd_throw
    | some source =>
      obtain ⟨inInputs, rfl⟩ := List.getElem?_eq_some_iff.1 found
      have inData : slot < data.length := read.length_eq ▸ inInputs
      have inOther : slot < inputsOther.length := readOther.length_eq ▸ inData
      have stored : left.contents? data[slot] = some (.device inputs[slot]) :=
        read.get inData inInputs
      have storedOther : right.contents? data[slot] = some (.device inputsOther[slot]) :=
        readOther.get inData inOther
      rw [List.getElem?_eq_getElem inOther]
      dsimp only
      rw [← twin.block_length_eq stored storedOther]
      split
      · exact matches_copy twin stored storedOther written writtenOther
      · exact launched

theorem respects_forward
    (script : Script)
    (data : List BufferId)
    (output : BufferId) :
    Respects Twin (script.forward data output : Store.Action α Unit) := by
  refine .bind (respects_checkSupported script) fun _ left right twin =>
    bothEnd_withLeases twin fun inside insideOther twin leased leasedOther => ?_
  refine bothEnd_bind ((bothEnd_mapM_blockOf leased leasedOther fun _ member => member).mono ?_)
  rintro inputs inputsOther _ _ ⟨rfl, rfl, pins, pinsOther⟩
  refine bothEnd_withLease twin fun inside insideOther twin leasedOutput leasedOutputOther => ?_
  refine bothEnd_bind ((bothEnd_blockOf leasedOutput leasedOutputOther
    (List.mem_singleton.2 rfl)).mono ?_)
  rintro target targetOther _ _ ⟨rfl, rfl, written, writtenOther⟩
  refine bothEnd_bind ((bothEnd_find twin).mono ?_)
  rintro found other _ _ ⟨rfl, rfl, same⟩
  rw [same]
  exact matches_runBlocks script _ twin
    (pins.imp fun _ _ pins => (pins.of_leased leasedOutput).contents)
    (pinsOther.imp fun _ _ pins => (pins.of_leased leasedOutputOther).contents)
    written.contents writtenOther.contents

end Script

/-! ## Reductions in passes -/

namespace AxisLayout

variable
    {α ω : Type}
    [Arithmetic α]
    {layout : AxisLayout}
    {fanIn : Nat}
    {combine : α → α → α}
    {left right : Store α}

theorem matches_launchPass
    {initial : ω}
    {source : Source α ω}
    {sources : List BufferId}
    {output : BufferId}
    {inputs inputsOther : List Block}
    {target targetOther : Block}
    (twin : Twin left right)
    (read : List.Forall₂ left.Pins sources inputs)
    (readOther : List.Forall₂ right.Pins sources inputsOther)
    (written : left.Pins output target)
    (writtenOther : right.Pins output targetOther) :
    Matches Twin (layout.launchPass fanIn combine initial source inputs target)
      (layout.launchPass fanIn combine initial source inputsOther targetOther) left right := by
  unfold launchPass
  cases Size.lift (layout.sizeAlong (Size.runs layout.length fanIn)) with
  | error reason => exact bothEnd_throw
  | ok length =>
    exact matches_launch twin (read.imp fun _ _ pins => pins.contents)
      (readOther.imp fun _ _ pins => pins.contents) (.cons written.contents .nil)
      (.cons writtenOther.contents .nil)

theorem respects_allocateRuns :
    Respects Twin (layout.allocateRuns fanIn : Store.Action α BufferId) :=
  .bind (respects_check _) fun length => respects_allocate length

/-- A pinned buffer stays where it is when another one is made. -/
theorem pins_of_made
    {holds : Array α → Prop}
    {buffers : List BufferId}
    {blocks : List Block}
    {made : BufferId}
    (pins : List.Forall₂ left.Pins buffers blocks)
    (new : Made holds left right made) :
    List.Forall₂ right.Pins buffers blocks := by
  refine pins.imp fun buffer block pins => pins.frame new.frame ?_
  rintro rfl
  obtain ⟨claim, claimed, -⟩ := pins.leased
  rw [new.absent] at claimed
  cases claimed

theorem matches_firstPass
    {initial : ω}
    {source : Source α ω}
    {sources : List BufferId}
    {inputs inputsOther : List Block}
    (twin : Twin left right)
    (pins : List.Forall₂ left.Pins sources inputs)
    (pinsOther : List.Forall₂ right.Pins sources inputsOther) :
    Matches Twin (layout.firstPass fanIn combine inputs initial source)
      (layout.firstPass fanIn combine inputsOther initial source) left right := by
  refine bothEnd_bind (((respects_allocateRuns left right twin).and_ends
    (ends_allocateRuns twin.valid) (ends_allocateRuns twin.validOther)).mono ?_)
  rintro _ output middle middleOther ⟨⟨rfl, twin⟩, ⟨made, -⟩, ⟨madeOther, -⟩⟩
  refine Matches.bind (bothEnd_unlessDone (bothEnd_withLease twin
    fun inside insideOther twin leased leasedOther => ?_)) fun _ => .pure output
  refine bothEnd_bind ((bothEnd_blockOf leased leasedOther (List.mem_singleton.2 rfl)).mono ?_)
  rintro target targetOther _ _ ⟨rfl, rfl, written, writtenOther⟩
  exact matches_launchPass twin
    ((pins_of_made pins made).imp fun _ _ pins => pins.of_leased leased)
    ((pins_of_made pinsOther madeOther).imp fun _ _ pins => pins.of_leased leasedOther)
    written writtenOther

theorem respects_nextPass (current : BufferId) :
    Respects Twin (layout.nextPass fanIn combine current : Store.Action α BufferId) := by
  refine .bind respects_allocateRuns fun output left right twin =>
    Matches.bind (bothEnd_unlessDone (Matches.bind (bothEnd_withLeasePair twin
      fun inside insideOther twin leased leasedOther => ?_) fun _ => respects_release))
      fun _ => .pure output
  refine bothEnd_bind ((bothEnd_blockOf leased leasedOther List.mem_cons_self).mono ?_)
  rintro input inputOther _ _ ⟨rfl, rfl, read, readOther⟩
  refine bothEnd_bind ((bothEnd_blockOf leased leasedOther
    (List.mem_cons_of_mem _ List.mem_cons_self)).mono ?_)
  rintro target targetOther _ _ ⟨rfl, rfl, written, writtenOther⟩
  exact matches_launchPass twin (.cons read .nil) (.cons readOther .nil) written writtenOther

theorem respects_laterPasses
    (long : 2 ≤ fanIn)
    (current : BufferId) :
    Respects Twin (layout.laterPasses fanIn long combine current : Store.Action α BufferId) := by
  induction size : layout.length using Nat.strong_induction_on generalizing layout current with
  | _ length step =>
    unfold laterPasses
    split
    next many =>
      refine .bind (fun left right twin =>
        bothEnd_unlessDone (respects_nextPass current left right twin)) fun next => ?_
      exact .bind (.modify fun _ _ twin => twin.drop) fun _ =>
        step _ (size ▸ Size.runs_lt many long) next rfl
    next => exact .pure current

theorem matches_treeReduce
    {initial : ω}
    {source : Source α ω}
    {sources : List BufferId}
    {inputs inputsOther : List Block}
    (twin : Twin left right)
    (pins : List.Forall₂ left.Pins sources inputs)
    (pinsOther : List.Forall₂ right.Pins sources inputsOther) :
    Matches Twin (layout.treeReduce fanIn combine inputs initial source)
      (layout.treeReduce fanIn combine inputsOther initial source) left right :=
  (matches_firstPass twin pins pinsOther).bind fun first => respects_laterPasses _ first

end AxisLayout

theorem Store.respects_take
    {α : Type}
    [Arithmetic α]
    (buffer : BufferId) :
    Respects Twin (take buffer : Store.Action α (Array α)) := by
  intro left right twin
  refine bothEnd_followedBy (BothEnd.mono ((Respects.bind respects_read fun values =>
    respects_release.bind fun _ => .pure values) left right twin) ?_)
  rintro values _ after afterwards ⟨rfl, twin⟩
  exact ⟨rfl, twin.drop⟩

/-! ## Gradients -/

namespace Gradient

variable
    {α : Type}
    [Element α]
    {domain fanIn : Nat}

theorem respects_launchSweep
    (plan : Plan)
    (data : List BufferId)
    (assignments : List Assignment) :
    Respects Twin (launchSweep plan data domain assignments : Store.Action α Unit) := by
  intro left right twin
  refine bothEnd_withLeases twin fun inside insideOther twin leased leasedOther => ?_
  refine bothEnd_bind ((bothEnd_mapM_blockOf leased leasedOther
    fun _ member => List.mem_append_left _ member).mono ?_)
  rintro inputs inputsOther _ _ ⟨rfl, rfl, read, readOther⟩
  refine bothEnd_bind (bothEnd_of_ends (ends_outputBlocks leased : Ends _ _ _ fun _ _ => True)
    (ends_outputBlocks leasedOther : Ends _ _ _ fun _ _ => True) ?_)
  rintro outputs outputsOther _ _ ⟨rfl, written⟩ ⟨rfl, writtenOther⟩
  exact matches_launch twin (read.imp fun _ _ pins => pins.contents)
    (readOther.imp fun _ _ pins => pins.contents) written writtenOther

theorem respects_sumUp (buffer : BufferId) :
    Respects Twin (sumUp buffer domain fanIn : Store.Action α (Array α)) := by
  intro left right twin
  refine Matches.bind (bothEnd_withLease twin fun inside insideOther twin leased leasedOther => ?_)
    respects_take
  refine bothEnd_bind ((bothEnd_blockOf leased leasedOther (List.mem_singleton.2 rfl)).mono ?_)
  rintro block blockOther _ _ ⟨rfl, rfl, pins, pinsOther⟩
  exact AxisLayout.matches_treeReduce twin (.cons pins .nil) (.cons pinsOther .nil)

theorem respects_settle (assignment : Assignment) :
    Respects Twin (settle domain fanIn assignment : Store.Action α Unit) := by
  obtain ⟨target, spare⟩ := assignment
  cases spare with
  | none => exact .pure _
  | some spare =>
    exact .bind (respects_sumUp spare) fun total => .bind respects_release fun _ =>
      .bind (respects_update _) fun _ => .pure _

theorem respects_addAdjoints
    (plan : Plan)
    (data : List BufferId)
    (targets : List Target) :
    Respects Twin (addAdjoints plan data targets domain fanIn : Store.Action α Unit) := by
  refine .bind (.mapM targets fun target left right twin => ?_) fun sized =>
    respects_withBuffers _ fun spare =>
      .bind (respects_launchSweep plan data _) fun _ => .forM _ respects_settle
  refine bothEnd_bind ((bothEnd_find twin).mono ?_)
  rintro found other _ _ ⟨rfl, rfl, same⟩
  rw [same]
  exact Respects.pure _ _ _ twin

end Gradient

end Elementwise
