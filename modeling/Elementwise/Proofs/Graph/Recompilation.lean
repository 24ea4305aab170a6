import Elementwise.Proofs.Graph.Lasting

/-!
# Kept scripts

A script is kept when it has been compiled, and what a request for it answers
later is the kept one.  Neither is ever out of date: a script is compiled from
the operations below its node alone, and these stay what they are as long as
the graph is not cleared, whatever happens to users, flags, buffers and values
meanwhile and however many nodes are added.
-/

namespace Elementwise.Graph

variable
    {α : Type}
    [Element α]
    {graph : Graph α}
    {pins : BufferId → Nat}
    {output : NodeId}
    {compiled : Script}

omit [Element α] in
/-- What is compiled anew is the script of the node, and it is kept. -/
theorem ends_compile_of_eq_ok
    (compiles : Script.compile graph.arena output = .ok compiled) :
    Ends (compile output) graph
      (fun script after => script = compiled ∧ after.scripts.get? output = some compiled)
      fun _ _ => False := by
  unfold compile
  rw [ends_bind_iff, ends_get_iff, ends_bind_iff, compiles]
  refine ⟨rfl, ?_⟩
  show (graph.scripts.insert output compiled).get? output = some compiled
  rw [Table.get?_insert, if_pos rfl]

omit [Element α] in
/-- What is answered as a script is the script of the node, and it is kept from then on. -/
theorem ends_script_of_eq_ok
    (valid : graph.Valid pins)
    (compiles : Script.compile graph.arena output = .ok compiled) :
    Ends (script output) graph
      (fun script after => script = compiled ∧ after.scripts.get? output = some compiled)
      fun _ _ => False := by
  unfold script
  rw [ends_bind_iff, ends_get_iff]
  split
  next kept found =>
    obtain ⟨-, again⟩ := valid.scripts output kept found
    obtain rfl : kept = compiled := Except.ok.inj (again.symm.trans compiles)
    exact ⟨rfl, found⟩
  · exact ends_compile_of_eq_ok compiles

namespace Session

variable {session : Session α}

/-- A node compiles to the same script as long as the graph is not cleared. -/
theorem compile_run
    (valid : session.Valid)
    (inside : output.index < session.graph.arena.size)
    {further : List (Command α)}
    (kept : ∀ command ∈ further, command ≠ .clear) :
    Script.compile (session.run further).graph.arena output =
      Script.compile session.graph.arena output := by
  have validLater : (session.run further).Valid := (run_evolves valid further).valid
  have retains := retains_run valid.arena kept
  refine Script.compile_extends valid.arena.ordered validLater.arena.ordered ?_ inside
  intro node insideNode
  obtain ⟨found, present⟩ :=
    Option.isSome_iff_exists.1 ((Arena.node?_isSome_iff node).2 insideNode)
  have computes : session.graph.arena.operation? node = some found.operation := by
    rw [Arena.operation?, present, Option.map_some]
  rw [computes, retains.operation node found.operation computes]

/-- A request for a script, kept or not, is answered with the script of the node. -/
theorem step_script
    (valid : session.Valid)
    (compiles : Script.compile session.graph.arena output = .ok compiled) :
    (session.step (.script output)).1 = .ok (.script compiled) ∧
      (session.step (.script output)).2.graph.scripts.get? output = some compiled := by
  have ends : Ends (perform (.script output)) session
      (fun answer after => answer = .script compiled ∧
        after.graph.scripts.get? output = some compiled)
      (fun _ _ => False) := by
    show Ends (Answer.script <$> onGraph (Graph.script output)) session _ _
    rw [ends_map_iff, ends_onGraph_iff]
    refine (ends_script_of_eq_ok valid compiles).mono ?_ fun _ _ never => never
    rintro script after ⟨rfl, keeps⟩
    exact ⟨rfl, keeps⟩
  obtain ⟨_, answered, rfl, keeps⟩ := step_eq_ok ends
  exact ⟨answered, keeps⟩

/-- A request to compile a node anew is answered with the script of the node. -/
theorem step_compile_of_eq_ok
    (compiles : Script.compile session.graph.arena output = .ok compiled) :
    (session.step (.compile output)).1 = .ok (.script compiled) := by
  have ends : Ends (perform (.compile output)) session
      (fun answer _ => answer = .script compiled) (fun _ _ => False) := by
    show Ends (Answer.script <$> onGraph (Graph.compile output)) session _ _
    rw [ends_map_iff, ends_onGraph_iff]
    refine (ends_compile_of_eq_ok compiles).mono ?_ fun _ _ never => never
    rintro script _ ⟨rfl, -⟩
    rfl
  obtain ⟨_, answered, rfl⟩ := step_eq_ok ends
  exact answered

section

variable
    {capacity : Nat}
    {device : DeviceId}
    {unsupported : List OpCode}
    {faults : Method → Nat → Option DeviceError}
    {config : Config}
    {commands : List (Command α)}

/--
In every session that a run of requests leads to, and for every node in it, there is one
script that the node compiles to now and after any further requests that do not clear the
graph.  It is what is answered then, now and later, by the request that compiles anew and by
the one for a script that may have been kept, and no other script of the node is ever kept.
-/
theorem script_never_outdated
    (reached : (start capacity device unsupported faults config).run commands = session)
    {output : NodeId}
    (inside : output.index < session.graph.arena.size) :
    ∃ compiled, ∀ further : List (Command α), (∀ command ∈ further, command ≠ .clear) →
      Script.compile (session.run further).graph.arena output = .ok compiled ∧
      (∀ kept, (session.run further).graph.scripts.get? output = some kept → kept = compiled) ∧
      ((session.run further).step (.compile output)).1 = .ok (.script compiled) ∧
      ((session.run further).step (.script output)).1 = .ok (.script compiled) ∧
      ((session.run further).step (.script output)).2.graph.scripts.get? output =
        some compiled := by
  have valid : session.Valid := by
    rw [← reached]
    exact run_valid ..
  obtain ⟨compiled, compiles, -⟩ :=
    Script.compile_eq_ok valid.arena.ordered valid.arena.proper inside
  refine ⟨compiled, fun further notCleared => ?_⟩
  have validLater : (session.run further).Valid := (run_evolves valid further).valid
  have compilesLater : Script.compile (session.run further).graph.arena output = .ok compiled :=
    (compile_run valid inside notCleared).trans compiles
  refine ⟨compilesLater, fun kept found => ?_, step_compile_of_eq_ok compilesLater,
    step_script validLater compilesLater⟩
  obtain ⟨-, again⟩ := validLater.scripts output kept found
  exact Except.ok.inj (again.symm.trans compilesLater)

/-- The script of a product of two leaves. -/
def scaled : Script where
  output := ⟨2⟩
  records := [⟨.mul, .output, .data 0, some (.data 1)⟩]
  nodes := [⟨2⟩]
  data := [⟨0⟩, ⟨1⟩]
  cacheSize := 0
  statistics := ⟨1, 2, 0, 0, 2⟩

/--
The product gets users, buffers, a value and gradients, and both of its operands are
overwritten, after its script was kept.
-/
def unsettling : List (Command Int) :=
  [.script ⟨2⟩, .leaf ⟨[2]⟩ #[1, 1] false, .create .add [⟨2⟩, ⟨3⟩], .create .mul [⟨2⟩, ⟨2⟩],
    .markOutput ⟨2⟩, .backward ⟨2⟩, .applyGradient ⟨0⟩ 1, .setValue ⟨1⟩ #[4], .value ⟨2⟩]

theorem unsettling_kept : ∀ command ∈ unsettling, command ≠ .clear := by
  intro command member
  simp only [unsettling, List.mem_cons, List.not_mem_nil, or_false] at member
  rcases member with rfl | rfl | rfl | rfl | rfl | rfl | rfl | rfl | rfl <;> nofun

/-- The script of the product is the same before and after. -/
theorem script_never_outdated_unsettling :
    ((onIntegers scaling).step (.compile ⟨2⟩)).1 = .ok (.script scaled) ∧
      (((onIntegers scaling).run unsettling).step (.script ⟨2⟩)).1 = .ok (.script scaled) ∧
      (((onIntegers scaling).run unsettling).step (.compile ⟨2⟩)).1 = .ok (.script scaled) := by
  have first : ((onIntegers scaling).step (.compile ⟨2⟩)).1 = .ok (.script scaled) := by cbv
  have inside : (⟨2⟩ : NodeId).index < (onIntegers scaling).graph.arena.size := by
    decide +kernel
  obtain ⟨compiled, always⟩ := script_never_outdated (run_eq_onIntegers scaling) inside
  obtain ⟨-, -, now, -⟩ := always [] fun _ member => absurd member List.not_mem_nil
  obtain ⟨-, -, later, laterKept, -⟩ := always unsettling unsettling_kept
  have same : .ok (.script compiled) = (.ok (.script scaled) : Except Error (Answer Int)) :=
    now.symm.trans first
  cases same
  exact ⟨first, laterKept, later⟩

end

end Session

end Elementwise.Graph
