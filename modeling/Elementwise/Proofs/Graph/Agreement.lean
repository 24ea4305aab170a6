import Elementwise.Proofs.Gradient.Agreement
import Elementwise.Proofs.Graph.Session

/-!
# Results do not depend on where buffers are

Two graphs are twins if they have the same nodes, tables and reduction width and
their stores are twins.  Every operation that succeeds in both of them answers
the same and leaves twins behind, and moving buffers of one of them between the
host and the accelerator leaves them twins as well, whether it succeeds or not.

So two runs of the same operations have the same answers, however much memory
their accelerators have and whatever is moved in between.
-/

namespace Elementwise.Graph

variable {α β : Type}

section

variable [Arithmetic α]

/-- Graphs that only differ in where their buffers are. -/
structure Twins (left right : Graph α) : Prop where
  arena : right.arena = left.arena
  interned : right.interned = left.interned
  constants : right.constants = left.constants
  scripts : right.scripts = left.scripts
  fanIn : right.config.fanIn = left.config.fanIn
  store : left.store.Twin right.store

theorem Twins.symm
    {left right : Graph α}
    (twins : Twins left right) :
    Twins right left :=
  ⟨twins.arena.symm, twins.interned.symm, twins.constants.symm, twins.scripts.symm,
    twins.fanIn.symm, twins.store.symm⟩

/-! ## The parts of operations -/

theorem respects_onStore
    {action : Store.Action α β}
    (respects : Respects Store.Twin action) :
    Respects Twins (onStore action) := by
  intro left right twins answer other after afterwards ran ranOther
  unfold onStore at ran ranOther
  split at ran
  next outcome =>
    cases ran
    split at ranOther
    next outcomeOther =>
      cases ranOther
      obtain ⟨same, store⟩ := respects _ _ twins.store _ _ _ _ outcome outcomeOther
      exact ⟨same, { twins with store := store }⟩
    · cases ranOther
  · cases ran

theorem respects_check (result : Except Error β) : Respects Twins (check result : Action α β) := by
  cases result with
  | ok answer => exact .pure answer
  | error reason => exact .throw reason

theorem respects_node (node : NodeId) : Respects Twins (Graph.node node : Action α Node) := by
  refine .get_bind fun left right twins => ?_
  rw [twins.arena]
  split
  · exact Respects.pure _ _ _ twins
  · exact Respects.throw _ _ _ twins

theorem respects_modifyNode
    (node : NodeId)
    (change : Node → Node) :
    Respects Twins (modifyNode node change : Action α Unit) :=
  .modify fun _ _ twins => { twins with arena := congrArg (·.modify node change) twins.arena }

theorem respects_content (node : NodeId) :
    Respects Twins (content node : Action α BufferId) := by
  refine .bind (respects_node node) fun found => ?_
  split
  · exact .pure _
  · exact .throw _

theorem respects_gradientBuffer (node : NodeId) :
    Respects Twins (gradientBuffer node : Action α BufferId) := by
  refine .bind (respects_node node) fun found => ?_
  split
  · exact .pure _
  · exact .throw _

theorem respects_compile (output : NodeId) :
    Respects Twins (compile output : Action α Script) := by
  refine .get_bind fun left right twins => ?_
  rw [twins.arena]
  refine (respects_check _ left right twins).bind fun script => .bind (.modify ?_) fun _ => .pure _
  exact fun _ _ twins => { twins with scripts := congrArg (·.insert output script) twins.scripts }

theorem respects_script (output : NodeId) :
    Respects Twins (script output : Action α Script) := by
  refine .get_bind fun left right twins => ?_
  rw [twins.scripts]
  split
  · exact Respects.pure _ _ _ twins
  · exact respects_compile output left right twins

theorem respects_dataBuffers (script : Script) :
    Respects Twins (dataBuffers script : Action α (List BufferId)) :=
  .mapM _ respects_content

theorem respects_dataTargets (script : Script) :
    Respects Twins (dataTargets script : Action α (List Gradient.Target)) :=
  .bind (.mapM _ fun _ => .bind (respects_node _) fun _ => .pure _) fun _ => .pure _

theorem respects_recordTargets (script : Script) :
    Respects Twins (recordTargets script : Action α (List Gradient.Target)) := by
  refine .bind (.mapM _ fun _ => .bind (respects_node _) fun computed => ?_) fun _ => .pure _
  split
  · exact .pure _
  · exact .pure _

/-- A gradient buffer is allocated where it is needed. -/
theorem respects_gradientIfNeeded
    {size : Nat}
    {next : Option BufferId → Action α β}
    (needed : Bool)
    (each : ∀ gradient, Respects Twins (next gradient)) :
    Respects Twins
      (if needed then do
        let gradient ← some <$> onStore (Store.allocate size)
        next gradient
      else do
        let gradient ← pure none
        next gradient) := by
  cases needed with
  | true => exact .bind (.map (respects_onStore (Store.respects_allocate size))) each
  | false => exact .bind (.pure none) each

theorem respects_push
    (operation : Operation)
    (shape : Shape)
    (needsGradient : Bool) :
    Respects Twins (push operation shape needsGradient : Action α NodeId) := by
  refine .modifyGet fun left right twins => ?_
  dsimp only
  rw [twins.arena]
  exact ⟨rfl, { twins with arena := rfl }⟩

end

/-! ## Operations -/

variable [Element α]

theorem respects_leaf
    (shape : Shape)
    (values : Array α)
    (trainable : Bool) :
    Respects Twins (leaf shape values trainable) := by
  refine .bind (respects_check _) fun size => ?_
  dsimp only
  split
  · exact .throw_bind _
  · exact .bind (respects_push _ _ _) fun node =>
      .bind (respects_onStore (Store.respects_allocateFrom values)) fun content =>
        respects_gradientIfNeeded trainable fun gradient =>
          .bind (respects_modifyNode _ _) fun _ => .pure _

theorem respects_scalar (value : α) : Respects Twins (scalar value) := by
  refine .get_bind fun left right twins => ?_
  rw [twins.interned]
  split
  · exact Respects.pure _ _ _ twins
  · refine (respects_push _ _ _ left right twins).bind fun node =>
      .bind (respects_onStore (Store.respects_allocateFrom _)) fun content =>
        .bind (respects_modifyNode _ _) fun _ =>
          .bind (.modify fun _ _ twins => ?_) fun _ => .pure _
    exact { twins with
      interned := congrArg (·.insert (.constant (Element.bits value)) node) twins.interned
      constants := congrArg (·.insert node (.constant (Element.bits value))) twins.constants }

theorem respects_intern
    (operation : Operation)
    (shape : Shape)
    (needsGradient : Bool) :
    Respects Twins (intern operation shape needsGradient : Action α NodeId) := by
  refine .get_bind fun left right twins => ?_
  rw [twins.interned]
  split
  · exact Respects.pure _ _ _ twins
  · refine (respects_push _ _ _ left right twins).bind fun node =>
      .bind (.modify fun _ _ twins => ?_) fun _ => .pure _
    exact { twins with
      interned := congrArg (·.insert (.ofOperation operation) node) twins.interned }

theorem respects_create
    (opcode : OpCode)
    (operands : List NodeId) :
    Respects Twins (create opcode operands : Action α NodeId) := by
  unfold create
  dsimp only
  split
  · exact .throw_bind _
  · split
    · exact .throw_bind _
    · split
      · exact .bind (respects_node _) fun _ => respects_intern _ _ _
      · exact .bind (respects_node _) fun _ => .bind (respects_node _) fun _ =>
          .bind (respects_check _) fun _ => respects_intern _ _ _
      · exact .throw _

theorem respects_chain
    (opcode : OpCode)
    (count : Nat)
    (node : NodeId) :
    Respects Twins (chain opcode count node : Action α NodeId) := by
  induction count generalizing node with
  | zero => exact .pure _
  | succ count step => exact .bind (respects_create opcode _) fun next => step next

variable (output : NodeId)

theorem respects_markOutput : Respects Twins (markOutput output : Action α Unit) := by
  refine .bind (respects_node output) fun found => .bind (respects_modifyNode _ _) fun _ => ?_
  dsimp only
  split
  · exact .bind (respects_check _) fun size =>
      .bind (respects_onStore (Store.respects_allocate size)) fun content =>
        respects_gradientIfNeeded found.needsGradient fun gradient => respects_modifyNode _ _
  · exact .pure _

theorem respects_materialize : Respects Twins (materialize output : Action α BufferId) := by
  refine .bind (respects_markOutput output) fun _ => .bind (respects_content output) fun target =>
    .bind (respects_node output) fun found => ?_
  split
  · exact .pure _
  · exact .bind (respects_script output) fun compiled => .bind (respects_dataBuffers _) fun data =>
      .bind (respects_onStore (compiled.respects_forward data target)) fun _ =>
        .bind (respects_modifyNode _ _) fun _ => .pure _

theorem respects_value : Respects Twins (value output : Action α (Array α)) :=
  .bind (respects_materialize output) fun _ => respects_onStore Store.respects_read

theorem respects_valueAt
    (index : List Nat) :
    Respects Twins (valueAt output index : Action α α) := by
  refine .bind (respects_node output) fun found => .bind (respects_check _) fun flat =>
    .bind (respects_materialize output) fun target =>
      .bind (respects_onStore Store.respects_read) fun values => ?_
  split
  · exact .pure _
  · exact .throw _

theorem respects_setValue (values : Array α) : Respects Twins (setValue output values) := by
  refine .bind (respects_node output) fun found => ?_
  dsimp only
  split
  · exact .throw_bind _
  refine .bind (respects_content output) fun buffer =>
    .bind (respects_onStore (Store.respects_write values)) fun _ => .get_bind ?_
  intro left right twins
  have invalidates : Respects Twins (modify fun graph =>
      { graph with arena := graph.arena.invalidate output } : Action α Unit) :=
    .modify fun _ _ twins => { twins with arena := congrArg (·.invalidate output) twins.arena }
  rw [twins.constants]
  split
  next key _ =>
    refine Respects.bind (.modify fun _ _ twins => ?_) (fun _ => invalidates) left right twins
    exact { twins with
      interned := congrArg (·.erase key) twins.interned
      constants := congrArg (·.erase output) twins.constants }
  · exact invalidates left right twins

theorem respects_reduceScript
    (script : Script)
    (data : List BufferId)
    (layout : AxisLayout)
    (fanIn : Nat)
    (reduction : Reduction) :
    Respects Store.Twin
      (reduceScript script data layout fanIn reduction : Store.Action α (Array α)) := by
  intro left right twin
  refine Matches.bind (Store.bothEnd_withLeases twin
    fun inside insideOther twin leased leasedOther => ?_) Store.respects_take
  refine bothEnd_bind ((Store.bothEnd_mapM_blockOf leased leasedOther
    fun _ member => member).mono ?_)
  rintro blocks blocksOther _ _ ⟨rfl, rfl, pins, pinsOther⟩
  exact AxisLayout.matches_treeReduce twin pins pinsOther

theorem respects_reduce
    (axis : Option Nat)
    (reduction : Reduction) :
    Respects Twins (reduce output axis reduction : Action α (Shape × Array α)) := by
  refine .bind (respects_node output) fun found => .bind (respects_check _) fun axis =>
    .bind (respects_check _) fun layout => .bind (respects_check _) fun reduced =>
      .bind (respects_check _) fun nothing => ?_
  split
  · exact .bind (respects_check _) fun _ => .pure _
  refine .bind (respects_script output) fun compiled =>
    .bind (respects_onStore (Script.respects_checkSupported compiled)) fun _ =>
      .bind (respects_dataBuffers compiled) fun data => .get_bind fun left right twins => ?_
  rw [twins.fanIn]
  exact (respects_onStore (respects_reduceScript compiled data layout _ reduction) left right
    twins).bind fun _ => .pure _

theorem respects_backward : Respects Twins (backward output : Action α Unit) := by
  refine .bind (respects_materialize output) fun _ => .bind (respects_script output) fun compiled =>
    .bind (respects_onStore (Script.respects_checkSupported compiled)) fun _ =>
      .bind (respects_check _) fun plan =>
        .bind (.bind (respects_node output) fun _ => respects_check _) fun domain =>
          .bind (respects_dataTargets compiled) fun dataTargets =>
            .bind (respects_recordTargets compiled) fun recordTargets => ?_
  dsimp only
  split
  · exact .pure _
  refine .bind (respects_dataBuffers compiled) fun data => .get_bind fun left right twins => ?_
  rw [twins.fanIn]
  exact respects_onStore (Gradient.respects_addAdjoints plan data _) left right twins

theorem respects_gradient : Respects Twins (gradient output : Action α (Array α)) :=
  .bind (respects_gradientBuffer output) fun _ => respects_onStore Store.respects_read

theorem respects_zeroGradient : Respects Twins (zeroGradient output : Action α Unit) :=
  .bind (respects_gradientBuffer output) fun _ => respects_onStore (Store.respects_fill _)

theorem respects_descend
    (content gradient : BufferId)
    (rate : α) :
    Respects Store.Twin (descend content gradient rate) := by
  intro left right twin
  refine Store.bothEnd_withLeasePair twin fun inside insideOther twin leased leasedOther => ?_
  refine bothEnd_bind ((Store.bothEnd_blockOf leased leasedOther List.mem_cons_self).mono ?_)
  rintro values valuesOther _ _ ⟨rfl, rfl, read, readOther⟩
  refine bothEnd_bind ((Store.bothEnd_blockOf leased leasedOther
    (List.mem_cons_of_mem _ List.mem_cons_self)).mono ?_)
  rintro slopes slopesOther _ _ ⟨rfl, rfl, readSlopes, readSlopesOther⟩
  refine bothEnd_bind ((Store.bothEnd_find twin).mono ?_)
  rintro found other _ _ ⟨rfl, rfl, same⟩
  dsimp only
  rw [same]
  exact Store.matches_launch twin (.cons read.contents (.cons readSlopes.contents .nil))
    (.cons readOther.contents (.cons readSlopesOther.contents .nil)) (.cons read.contents .nil)
    (.cons readOther.contents .nil)

theorem respects_applyGradient (rate : α) : Respects Twins (applyGradient output rate) := by
  refine .bind (respects_node output) fun found => ?_
  dsimp only
  split
  · exact .throw_bind _
  · exact .bind (respects_gradientBuffer output) fun gradient =>
      .bind (respects_content output) fun content =>
        .bind (respects_onStore (respects_descend content gradient rate)) fun _ =>
          .modify fun _ _ twins =>
            { twins with arena := congrArg (·.invalidate output) twins.arena }

theorem Twins.clear
    {left right : Graph α}
    (twins : Twins left right) :
    Twins left.clear right.clear where
  arena := rfl
  interned := rfl
  constants := rfl
  scripts := rfl
  fanIn := twins.fanIn
  store := by
    have dropped : ∀ (node : Node) {first second : Store α}, first.Twin second →
        (dropStorage first node).Twin (dropStorage second node) := by
      intro node first second twin
      unfold dropStorage
      split
      · exact twin
      next storage _ =>
        cases storage.gradient with
        | none => exact twin.drop
        | some gradient => exact twin.drop.drop
    have all : ∀ (nodes : List Node) {first second : Store α}, first.Twin second →
        (nodes.foldl dropStorage first).Twin (nodes.foldl dropStorage second) := by
      intro nodes
      induction nodes with
      | nil => exact fun twin => twin
      | cons node nodes step => exact fun twin => step (dropped node twin)
    show Store.Twin (left.arena.nodes.foldl dropStorage left.store)
      (right.arena.nodes.foldl dropStorage right.store)
    rw [twins.arena, ← Array.foldl_toList, ← Array.foldl_toList]
    exact all _ twins.store

/-! ## Runs of requests -/

namespace Session

variable
    {session other : Session α}
    {commands others : List (Command α)}

/-- Sessions on graphs that only differ in where their buffers are. -/
abbrev Twins (session other : Session α) : Prop :=
  Graph.Twins session.graph other.graph

/-- Whether a request only moves buffers between the host and the accelerator. -/
def Command.moves : Command α → Bool
  | .offload .. => true
  | .ensure _ _ tier => tier != .empty
  | _ => false

/-- The answers of a run to all requests that do more than move buffers. -/
def answers (session : Session α) : List (Command α) → List (Except Error (Answer α))
  | [] => []
  | command :: commands =>
      if command.moves then
        answers (session.step command).2 commands
      else
        (session.step command).1 :: answers (session.step command).2 commands

theorem respects_onGraph
    {action : Graph.Action α β}
    (respects : Respects Graph.Twins action) :
    Respects Twins (onGraph action) := by
  intro left right twins answer other after afterwards ran ranOther
  unfold onGraph at ran ranOther
  split at ran
  next outcome =>
    cases ran
    split at ranOther
    next outcomeOther =>
      cases ranOther
      exact respects _ _ twins _ _ _ _ outcome outcomeOther
    · cases ranOther
  · cases ran

/-- Twins answer the same, as long as they answer. -/
theorem respects_perform
    {command : Command α}
    (asks : command.isOperation = true ∨ command = .clear) :
    Respects Twins (perform command) := by
  cases command with
  | leaf shape values trainable => exact .map (respects_onGraph (respects_leaf _ _ _))
  | scalar value => exact .map (respects_onGraph (respects_scalar value))
  | create opcode operands => exact .map (respects_onGraph (respects_create _ _))
  | chain opcode count node => exact .map (respects_onGraph (respects_chain _ _ _))
  | markOutput node => exact .map (respects_onGraph (respects_markOutput node))
  | script node => exact .map (respects_onGraph (respects_script node))
  | compile node => exact .map (respects_onGraph (respects_compile node))
  | value node => exact .map (respects_onGraph (respects_value node))
  | valueAt node index => exact .map (respects_onGraph (respects_valueAt node index))
  | gradient node => exact .map (respects_onGraph (respects_gradient node))
  | backward node => exact .map (respects_onGraph (respects_backward node))
  | applyGradient node rate => exact .map (respects_onGraph (respects_applyGradient node rate))
  | zeroGradient node => exact .map (respects_onGraph (respects_zeroGradient node))
  | setValue node values => exact .map (respects_onGraph (respects_setValue node values))
  | reduce node axis reduction =>
    exact .map (respects_onGraph (respects_reduce node axis reduction))
  | clear =>
    refine .bind (.modify fun _ _ twins => Graph.Twins.clear twins) fun _ => .get_bind ?_
    intro left right twins
    rw [twins.arena]
    exact Respects.pure _ _ _ twins
  | offload => cases asks <;> contradiction
  | ensure => cases asks <;> contradiction
  | release => cases asks <;> contradiction
  | pin => cases asks <;> contradiction
  | unpin => cases asks <;> contradiction

theorem step_of_twins
    {command : Command α}
    (asks : command.isOperation = true ∨ command = .clear)
    (twins : session.Twins other)
    (answered : (session.step command).1.isOk = true)
    (answeredOther : (other.step command).1.isOk = true) :
    (other.step command).1 = (session.step command).1 ∧
      (session.step command).2.Twins (other.step command).2 := by
  unfold step at answered answeredOther ⊢
  cases outcome : perform command session with
  | error reason after =>
    rw [outcome] at answered
    cases answered
  | ok answer after =>
    cases outcomeOther : perform command other with
    | error reason after =>
      rw [outcomeOther] at answeredOther
      cases answeredOther
    | ok answerOther afterwards =>
      obtain ⟨rfl, twins⟩ := respects_perform asks _ _ twins _ _ _ _ outcome outcomeOther
      exact ⟨rfl, twins⟩

/-- Moves in one of two twins are not noticed, whether they succeed or not. -/
theorem twins_perform
    {command : Command α}
    (moves : command.moves = true)
    (other : Session α) :
    Preserves (fun session => Twins session other) (perform command) := by
  have request : ∀ {γ : Type} {action : Store.Action α γ},
      Preserves (fun store => store.Twin other.graph.store) action →
        Preserves (fun session => Twins session other) (onGraph (onStore action)) := by
    intro γ action preserves session twins
    rw [ends_onGraph_iff, ends_onStore_iff]
    exact (preserves session.graph.store twins.store).mono
      (fun _ _ store => { twins with store := store })
      fun _ _ store => { twins with store := store }
  cases command with
  | offload target device => exact .map (request (Store.twin_offload _ target device))
  | ensure node part tier =>
    refine .bind (preserves_bufferOf node part) fun found => ?_
    split
    · refine .bind (request (Store.twin_ensure _ ?_)) fun _ => .pure _
      exact bne_iff_ne.1 moves
    · exact .pure _
  | _ => cases moves

theorem twins_run
    (moves : ∀ command ∈ commands, command.moves = true)
    (twins : session.Twins other) :
    (session.run commands).Twins other :=
  run_of_preserves (fun command member => twins_perform (moves command member) other) twins

theorem answers_append
    (moves : ∀ command ∈ commands, command.moves = true)
    (rest : List (Command α)) :
    session.answers (commands ++ rest) = (session.run commands).answers rest := by
  induction commands generalizing session with
  | nil => rfl
  | cons command commands step =>
    rw [List.cons_append, answers, if_pos (moves command List.mem_cons_self)]
    exact step fun later member => moves later (List.mem_cons_of_mem _ member)

/-- The same requests have the same answers, whatever is moved in between. -/
theorem answers_eq_of_twins
    (twins : session.Twins other)
    (asks : ∀ command ∈ commands,
      command.moves = true ∨ command.isOperation = true ∨ command = .clear)
    (same : commands.filter (!·.moves) = others.filter (!·.moves))
    (succeeds : ∀ answer ∈ session.answers commands, answer.isOk = true)
    (succeedsOther : ∀ answer ∈ other.answers others, answer.isOk = true) :
    session.answers commands = other.answers others := by
  induction commands generalizing session other others with
  | nil =>
    have moves : ∀ command ∈ others, command.moves = true := by
      intro command member
      simpa using List.filter_eq_nil_iff.1 same.symm command member
    rw [← List.append_nil others, answers_append moves]
    rfl
  | cons command commands step =>
    have later : ∀ command ∈ commands,
        command.moves = true ∨ command.isOperation = true ∨ command = .clear :=
      fun other member => asks other (List.mem_cons_of_mem _ member)
    by_cases moves : command.moves = true
    · rw [answers, if_pos moves] at succeeds ⊢
      rw [List.filter_cons_of_neg (by simp [moves])] at same
      have still : (session.run [command]).Twins other :=
        twins_run (fun _ member => List.mem_singleton.1 member ▸ moves) twins
      exact step still later same succeeds succeedsOther
    · rw [List.filter_cons_of_pos (by simp [moves])] at same
      obtain ⟨front, rest, rfl, moved, -, same⟩ := List.filter_eq_cons_iff.1 same.symm
      have allMove : ∀ command ∈ front, command.moves = true :=
        fun other member => by simpa using moved other member
      have still : session.Twins (other.run front) := (twins_run allMove twins.symm).symm
      rw [answers_append allMove, answers, if_neg moves] at succeedsOther ⊢
      rw [answers, if_neg moves] at succeeds ⊢
      obtain ⟨equal, twins⟩ := step_of_twins
        ((asks command List.mem_cons_self).resolve_left moves) still
        (succeeds _ List.mem_cons_self) (succeedsOther _ List.mem_cons_self)
      rw [equal, step twins later same.symm
        (fun answer member => succeeds answer (List.mem_cons_of_mem _ member))
        (fun answer member => succeedsOther answer (List.mem_cons_of_mem _ member))]

/--
Two runs of the same requests have the same answers if all of these succeed, whatever
accelerators they are on and whatever is moved between the host and the accelerator in one of
them and not in the other.
-/
theorem pressure_invisible
    {capacity capacityOther : Nat}
    {device deviceOther : DeviceId}
    {unsupported unsupportedOther : List OpCode}
    {faults faultsOther : Method → Nat → Option DeviceError}
    {config configOther : Config}
    (fanIn : configOther.fanIn = config.fanIn)
    (starts : start capacity device unsupported faults config = session)
    (startsOther : start capacityOther deviceOther unsupportedOther faultsOther configOther = other)
    (asks : ∀ command ∈ commands,
      command.moves = true ∨ command.isOperation = true ∨ command = .clear)
    (same : commands.filter (!·.moves) = others.filter (!·.moves))
    (succeeds : ∀ answer ∈ session.answers commands, answer.isOk = true)
    (succeedsOther : ∀ answer ∈ other.answers others, answer.isOk = true) :
    session.answers commands = other.answers others := by
  subst starts startsOther
  refine answers_eq_of_twins ⟨rfl, rfl, rfl, rfl, fanIn, ?_⟩ asks same succeeds succeedsOther
  exact ⟨Store.valid_create (Pool.named_create _ _ _), Store.valid_create (Pool.named_create _ _ _),
    rfl, rfl, rfl⟩

/-- A product is evaluated, differentiated and summed. -/
def differentiated : List (Command Int) :=
  scaling ++ [.value ⟨2⟩, .backward ⟨2⟩, .gradient ⟨0⟩, .reduce ⟨2⟩ none .sum]

/-- The same on a smaller accelerator, where buffers are moved in between. -/
def interspersed : List (Command Int) :=
  scaling ++ [.ensure ⟨0⟩ .content .accelerator, .value ⟨2⟩, .offload 0 none, .backward ⟨2⟩,
    .ensure ⟨1⟩ .content .host, .gradient ⟨0⟩, .reduce ⟨2⟩ none .sum]

/-- Seven elements are just enough for the backward pass, and the results are those of eight. -/
theorem pressure_invisible_interspersed :
    (start 8 ⟨0⟩ [] (fun _ _ => none) { fanIn := 2 }).answers differentiated =
        (start 7 ⟨0⟩ [] (fun _ _ => none) { fanIn := 2 }).answers interspersed ∧
      (start 8 ⟨0⟩ [] (fun _ _ => none) { fanIn := 2 }).answers differentiated =
        [.ok (.node ⟨0⟩), .ok (.node ⟨1⟩), .ok (.node ⟨2⟩), .ok (.values #[21, 35]), .ok .done,
          .ok (.values #[7, 7]), .ok (.reduced ⟨[1]⟩ #[56])] := by
  refine ⟨pressure_invisible rfl rfl rfl ?_ rfl (List.all_eq_true.1 ?_) (List.all_eq_true.1 ?_), ?_⟩
  · intro command member
    fin_cases member <;> exact .inr (.inl rfl)
  · cbv
  · cbv
  · cbv

end Session

end Elementwise.Graph
