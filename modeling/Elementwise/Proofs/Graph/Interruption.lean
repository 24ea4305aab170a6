import Mathlib
import Elementwise.Proofs.Graph.Backpropagation

/-!
# What a backward pass that fails leaves behind

One launch adds to all gradients that are as long as the output.  The others
are settled one after the other, and each step of that may fail.  A pass that
fails therefore leaves all gradients as they were, unless one of them is not as
long as the output and another one is there as well: then some may have grown
while others have not.  Each of them either is as it was or has got what the
pass had to add, so that another pass adds to some of them twice.
-/

namespace Elementwise.Graph

variable
    {α : Type}
    [Element α]
    {graph marked after : Graph α}
    {pins : BufferId → Nat}
    {output node : NodeId}

/-- Every gradient reads as before, and a new one as zeros. -/
def KeepsGradients (before after : Graph α) : Prop :=
  (∀ node old, before.gradientReading? node = some old →
    after.gradientReading? node = some old) ∧
  ∀ node new, before.gradientReading? node = none → after.gradientReading? node = some new →
    ∃ size, new = zeros α size

/-- The output depends on two nodes with gradients, one of which is not as long as the output. -/
def Exposed (graph : Graph α) (output : NodeId) : Prop :=
  ∃ shape size left other old values, graph.arena.shape? output = some shape ∧
    shape.size = .ok size ∧ left ≠ other ∧ graph.arena.DependsOn output left ∧
    graph.arena.DependsOn output other ∧ graph.gradientReading? left = some old ∧
    old.size ≠ size ∧ graph.gradientReading? other = some values

/-- A gradient that cannot be read has no buffer. -/
theorem bufferOf?_of_gradientReading?_eq_none
    (valid : graph.Valid pins)
    (none : graph.gradientReading? node = none) :
    graph.arena.bufferOf? node .gradient = .none := by
  cases owned : graph.arena.bufferOf? node .gradient with
  | none => rfl
  | some buffer =>
    obtain ⟨shape, size, shaped, sized⟩ := valid.exists_size (index_lt_of_bufferOf? owned)
    obtain ⟨values, reads, -⟩ := valid.exists_reading owned shaped sized
    rw [gradientReading?_eq, owned, Option.bind_some, reads] at none
    cases none

/-- Gradients are kept where none of their buffers is written. -/
theorem Keeps.keepsGradients
    {written : Set BufferId}
    (keeps : Keeps pins written graph after)
    (valid : graph.Valid pins)
    (unwritten : ∀ node buffer, after.arena.bufferOf? node .gradient = some buffer →
      buffer ∉ written) :
    graph.KeepsGradients after := by
  refine ⟨fun node old reads => ?_, fun node new none reads => ?_⟩
  · obtain ⟨buffer, owned, reads⟩ := gradientReading?_eq_some_iff.1 reads
    have ownedAfter := keeps.grows.buffer node .gradient buffer owned
    refine gradientReading?_eq_some_iff.2 ⟨buffer, ownedAfter, ?_⟩
    rw [keeps.readings node .gradient buffer owned (unwritten node buffer ownedAfter), reads]
  · obtain ⟨buffer, owned, reads⟩ := gradientReading?_eq_some_iff.1 reads
    obtain ⟨size, zero⟩ := keeps.fresh node buffer
      (bufferOf?_of_gradientReading?_eq_none valid none) owned (unwritten node buffer owned)
    rw [reads] at zero
    exact ⟨size, Option.some.inj zero⟩

/-- What gradients are kept is read off their readings. -/
theorem KeepsGradients.congr
    (kept : graph.KeepsGradients marked)
    (same : ∀ node, after.gradientReading? node = marked.gradientReading? node) :
    graph.KeepsGradients after := by
  simpa only [KeepsGradients, same] using kept

/-- A pass that stopped changed a gradient and left another one out, or it changed none. -/
theorem Stops.exposed
    (stops : Stops pins marked after output)
    (valid : marked.Valid pins) :
    (∀ node, after.gradientReading? node = marked.gradientReading? node) ∨
      marked.Exposed output := by
  obtain ⟨script, plan, shape, size, compiles, -, shaped, sized, -, node, source, buffer, old,
    isSource, owned, reads, different, left⟩ := stops.interrupted
  have properly := (compiled_of_eq_ok valid compiles).2.2
  by_cases still : ∀ other, marked.arena.DependsOn output other →
      after.gradientReading? other = marked.gradientReading? other
  · refine .inl fun other => ?_
    by_cases depends : marked.arena.DependsOn output other
    · exact still other depends
    · exact gradientReading?_of_not_dependsOn stops.keeps stops.buffers valid depends
  · obtain ⟨other, changed⟩ := not_forall.1 still
    obtain ⟨depends, changed⟩ := Classical.not_imp.1 changed
    have readsLeft : marked.gradientReading? node = some old :=
      gradientReading?_eq_some_iff.2 ⟨buffer, owned, reads⟩
    have leftOut : after.gradientReading? node = some old :=
      gradientReading?_eq_some_iff.2 ⟨buffer, (stops.buffers node .gradient).trans owned, left⟩
    have apart : node ≠ other := by
      rintro rfl
      exact changed (leftOut.trans readsLeft.symm)
    cases readsOther : marked.gradientReading? other with
    | none =>
      have absent := bufferOf?_of_gradientReading?_eq_none valid readsOther
      rw [gradientReading?_eq, stops.buffers, absent, readsOther] at changed
      exact absurd rfl changed
    | some values =>
      have dependsLeft :=
        properly.dependsOn_of_isSource valid.arena.ordered valid.arena.proper isSource
      exact .inr ⟨shape, size, node, other, old, values, shaped, sized, apart, dependsLeft,
        depends, readsLeft, different, readsOther⟩

namespace Session

variable
    {session marked after : Session α}
    {capacity : Nat}
    {device : DeviceId}
    {unsupported : List OpCode}
    {faults : Method → Nat → Option DeviceError}
    {config : Config}
    {commands : List (Command α)}
    {reason : Error}

/--
In every session that a run of requests leads to, a backward pass that fails leaves all
gradients as they were, a new one being zero, unless the output depends on two nodes with
gradients of which one is not as long as the output.  Even then, each gradient of a node
that the output depends on either has got once what a pass adds to it or is not as long as
the output and was left out, and all other gradients are as they were.
-/
theorem backward_interrupted
    (reached : (start capacity device unsupported faults config).run commands = session)
    (marks : (session.step (.markOutput output)).2 = marked)
    (failed : session.step (.backward output) = (.error reason, after)) :
    (¬ marked.graph.Exposed output → session.graph.KeepsGradients after.graph) ∧
    (session.graph.KeepsGradients after.graph ∨
      ∃ script plan shape size,
        Script.compile session.graph.arena output = .ok script ∧
        Plan.ofScript script = .ok plan ∧
        session.graph.arena.shape? output = some shape ∧ shape.size = .ok size ∧
        (∀ node old, session.graph.arena.DependsOn output node →
          marked.graph.gradientReading? node = some old →
          ∃ source adjoints new,
            (∀ other, script.IsSource session.graph.arena node other ↔ other = source) ∧
            Gradient.Adjoints plan (script.data.map session.graph.reading).toArray source size
              adjoints ∧
            after.graph.gradientReading? node = some new ∧
            (Gradient.Increases session.graph.config.fanIn old adjoints new ∨
              old.size ≠ size ∧ new = old)) ∧
        ∀ node, ¬ session.graph.arena.DependsOn output node →
          after.graph.gradientReading? node = session.graph.gradientReading? node) := by
  have valid : session.Valid := by
    rw [← reached]
    exact run_valid ..
  have fails : Ends (perform (.backward output)) session (fun _ _ => True)
      (fun _ after => Fails (leases session.pins) session.graph after.graph output) := by
    show Ends ((fun _ => (Answer.done : Answer α)) <$> onGraph (backward output)) session _ _
    rw [ends_map_iff, ends_onGraph_iff]
    exact (ends_backward valid output).mono (fun _ _ _ => trivial) fun _ _ fails => fails
  have fails := step_of_error fails (congrArg Prod.fst failed)
  rw [congrArg Prod.snd failed] at fails
  rcases fails with ⟨written, keeps, unwritten⟩ | ⟨middle, outcome, stops⟩
  · have kept := keeps.keepsGradients valid unwritten
    exact ⟨fun _ => kept, .inl kept⟩
  obtain rfl : middle = marked.graph := by
    rw [← marks]
    simp only [step, perform, onGraph, Functor.map, EStateM.map, outcome]
  obtain ⟨first, alike, -, buffers, -⟩ := (ends_markOutput valid output).of_ok outcome
  rcases stops.exposed first.valid with same | exposed
  · have kept := (first.keepsGradients valid fun _ _ _ => Set.notMem_empty _).congr same
    exact ⟨fun _ => kept, .inl kept⟩
  refine ⟨fun safe => absurd exposed safe, .inr ?_⟩
  obtain ⟨script, plan, shape, size, compiles, planned, shaped, sized, changes, -⟩ :=
    stops.interrupted
  have properly := (compiled_of_eq_ok first.valid compiles).2.2
  obtain ⟨compilesBefore, sameSource, leaves⟩ := compile_markOutput valid outcome compiles
  refine ⟨script, plan, shape, size, compilesBefore, planned, alike.shape? ▸ shaped, sized, ?_, ?_⟩
  · intro node old dependsOn reads
    rw [← alike.dependsOn] at dependsOn
    obtain ⟨source, adjoints, new, only, given, becomes, grownOrLeft, fits⟩ :=
      changes.of_node first.valid properly stops.buffers shaped sized dependsOn reads
    simp only [sameSource, leaves, first.config] at only given grownOrLeft
    refine ⟨source, adjoints, new, only, given, becomes, grownOrLeft.imp_left ?_⟩
    rintro rfl
    exact Gradient.increases_grown fits
  · intro node unrelated
    have different : node ≠ output := by
      rintro rfl
      exact unrelated .refl
    rw [← alike.dependsOn] at unrelated
    rw [gradientReading?_of_not_dependsOn stops.keeps stops.buffers first.valid unrelated,
      gradientReading?_markOutput first buffers (.inl different)]

/-- A session on integers whose third launch fails. -/
def interruptible (commands : List (Command Int)) : Session Int :=
  (start 16 ⟨0⟩ []
      (fun method index => if method = .launch ∧ index = 2 then some (.invalidBlock 0) else none)
      { fanIn := 2 }).run commands

/-- A leaf of two elements is multiplied by a leaf of one, and both have gradients. -/
def stretching : List (Command Int) :=
  [.leaf ⟨[2]⟩ #[1, 2] true, .leaf ⟨[1]⟩ #[3] true, .create .mul [⟨0⟩, ⟨1⟩]]

/-- The pass is refused when the sum for the shorter leaf is launched. -/
theorem backward_refused_stretching :
    ((interruptible stretching).step (.backward ⟨2⟩)).1 =
      .error (.inconsistency (.device (.invalidBlock 0))) := by
  cbv

/-- The gradient of the longer leaf has then grown by three at both elements. -/
theorem gradientReading?_stretching :
    (interruptible stretching).graph.gradientReading? ⟨0⟩ = some #[0, 0] ∧
      ((interruptible stretching).step (.backward ⟨2⟩)).2.graph.gradientReading? ⟨0⟩ =
        some #[3, 3] :=
  ⟨by cbv, by cbv⟩

/-- What is left of the pass are the adjoints of the longer leaf, which were added to its
gradient. -/
theorem backward_interrupted_stretching :
    ∃ script plan size source adjoints,
      Script.compile (interruptible stretching).graph.arena ⟨2⟩ = .ok script ∧
      Plan.ofScript script = .ok plan ∧
      (∀ other, script.IsSource (interruptible stretching).graph.arena ⟨0⟩ other ↔
        other = source) ∧
      Gradient.Adjoints plan (script.data.map (interruptible stretching).graph.reading).toArray
        source size adjoints ∧
      ((interruptible stretching).step (.backward ⟨2⟩)).2.graph.gradientReading? ⟨0⟩ =
        some #[3, 3] ∧
      Gradient.Increases 2 #[0, 0] adjoints #[3, 3] := by
  have reached : (start 16 ⟨0⟩ [] (fun method index =>
      if method = .launch ∧ index = 2 then some (DeviceError.invalidBlock 0) else none)
      { fanIn := 2 }).run stretching = interruptible stretching := rfl
  obtain ⟨before, later⟩ := gradientReading?_stretching
  have marks : ((interruptible stretching).step (.markOutput ⟨2⟩)).2.graph.gradientReading? ⟨0⟩ =
      some #[0, 0] := by
    cbv
  have depends : (interruptible stretching).graph.arena.DependsOn ⟨2⟩ ⟨0⟩ :=
    .single (by decide +kernel)
  rcases (backward_interrupted reached rfl (Prod.ext backward_refused_stretching rfl)).2 with
    kept | ⟨script, plan, shape, size, compiles, planned, -, -, changes, -⟩
  · have same := kept.1 ⟨0⟩ #[0, 0] before
    rw [later] at same
    exact absurd same (by decide)
  obtain ⟨source, adjoints, new, only, given, reads, increases | ⟨-, rfl⟩⟩ :=
    changes ⟨0⟩ #[0, 0] depends marks
  · rw [later] at reads
    cases reads
    exact ⟨script, plan, size, source, adjoints, compiles, planned, only, given, later, increases⟩
  · rw [later] at reads
    exact absurd reads (by decide)

/-- The pass is refused and yet changes a gradient, which another pass then adds to twice. -/
theorem grown_of_error :
    ∃ reason after,
      (interruptible stretching).step (.backward ⟨2⟩) = (.error reason, after) ∧
      ¬ (interruptible stretching).graph.KeepsGradients after.graph ∧
      (after.step (.backward ⟨2⟩)).1 = .ok .done ∧
      (after.step (.backward ⟨2⟩)).2.graph.gradientReading? ⟨0⟩ = some #[6, 6] := by
  refine ⟨_, _, Prod.ext backward_refused_stretching rfl, fun kept => ?_, by cbv, by cbv⟩
  obtain ⟨before, later⟩ := gradientReading?_stretching
  have same := kept.1 ⟨0⟩ #[0, 0] before
  rw [later] at same
  exact absurd same (by decide)

end Session

end Elementwise.Graph
