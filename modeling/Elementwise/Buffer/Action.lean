import Elementwise.Buffer.Store

/-!
# Actions on the buffer store

An action answers or fails, and in both cases leaves a state behind; a
failure undoes nothing by itself.  Two combinators tidy up: `followedBy`
changes the state however the action ended, and `unlessDone` changes it only
after a failure.  Everything that is held for the length of an action is held
through them.
-/

namespace Elementwise.Store

variable {α : Type} [Arithmetic α]

/-- What an action on the store does: an answer or an error, and the state after it. -/
abbrev Action (α β : Type) := EStateM Error (Store α) β

namespace Action

variable {β : Type}

/-- An action, and a change of the state after it, whether it succeeds or fails. -/
def followedBy (action : Action α β) (change : Store α → Store α) : Action α β :=
  fun store =>
    match action store with
    | .ok answer after => .ok answer (change after)
    | .error error after => .error error (change after)

/-- An action, and a change of the state after it if it fails. -/
def unlessDone (action : Action α β) (change : Store α → Store α) : Action α β :=
  fun store =>
    match action store with
    | .ok answer after => .ok answer after
    | .error error after => .error error (change after)

end Action

/-- A call of the accelerator, whose failure is part of the answer. -/
def attempt
    {β : Type}
    (call : Accelerator.Action α β) : Action α (Except DeviceError β) :=
  fun store =>
    match call store.accelerator with
    | .ok answer after => .ok (.ok answer) { store with accelerator := after }
    | .error error after => .ok (.error error) { store with accelerator := after }

/-- A call of the accelerator, whose failure is the failure of the action. -/
def perform {β : Type} (call : Accelerator.Action α β) : Action α β := do
  match ← attempt call with
  | .ok answer => pure answer
  | .error error => throw (Error.ofDevice error)

/-- The answer of a computation without effect. -/
def check {β : Type} (result : Except Error β) : Action α β :=
  match result with
  | .ok answer => pure answer
  | .error error => throw error

/-- A live buffer. -/
def find (buffer : BufferId) : Action α (Buffer α) := do
  match (← get).buffers.get? buffer with
  | some found => pure found
  | none => throw (.inconsistency (.missingBuffer buffer))

/-- A new empty buffer. -/
def allocate (length : Nat) : Action α BufferId :=
  modifyGet (·.register length .empty)

/-- A new buffer on the host that holds given values. -/
def allocateFrom (values : Array α) : Action α BufferId :=
  modifyGet (·.register values.size (.host values))

/-- Runs an action with a new empty buffer, which is dropped afterwards. -/
def withBuffer
    {β : Type}
    (length : Nat)
    (body : BufferId → Action α β) : Action α β := do
  let buffer ← allocate length
  (body buffer).followedBy (·.drop buffer)

/-- Runs an action with new empty buffers of given lengths, dropped afterwards. -/
def withBuffers
    {β : Type} :
    List Nat → (List BufferId → Action α β) → Action α β
  | [], body => body []
  | length :: lengths, body =>
      withBuffer length fun buffer =>
        withBuffers lengths fun buffers => body (buffer :: buffers)

end Elementwise.Store
