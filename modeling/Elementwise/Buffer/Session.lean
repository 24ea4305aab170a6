import Elementwise.Buffer.Access

/-!
# Sessions on a buffer store

A session is a store together with the names by which its user refers to
buffers, leases and reserved blocks.  Names are numbers given out in order; a
name that was given up stands for nothing afterwards.  A lease keeps a hold of
its own on its buffer.  Reserved blocks are taken from the accelerator
directly, past the store, as another user of the same accelerator would.

Every request is a `Command`, so that a run of a session is a list of
commands.
-/

namespace Elementwise

namespace Store

/-- A store and the names in use for it. -/
structure Session (α : Type) where
  store : Store α
  /-- The buffers that the user holds. -/
  buffers : Array (Option BufferId)
  /-- The buffers that the user leases. -/
  leases : Array (Option BufferId)
  /-- The blocks taken directly from the accelerator. -/
  reserved : Array Block

namespace Session

/-- A request to a session; buffers, leases and reserved blocks go by name. -/
inductive Command (α : Type) where
  | allocate (length : Nat)
  | allocateFrom (values : Array α)
  /-- Allocates and drops a buffer several times over. -/
  | churn (count length : Nat)
  /-- Another name for a buffer. -/
  | share (buffer : Nat)
  | drop (buffer : Nat)
  | ensure (buffer : Nat) (tier : Tier)
  | release (buffer : Nat)
  | offload (target : Nat) (device : Option DeviceId)
  | read (buffer : Nat)
  | write (buffer : Nat) (values : Array α)
  | fill (buffer : Nat) (value : α)
  | clear (buffer : Nat)
  /-- Changes the elements of a buffer and leaves their number alone. -/
  | update (buffer : Nat) (change : (size : Nat) → Vector α size → Vector α size)
  | lease (buffer : Nat) (tier : Tier)
  | unlease (lease : Nat)
  | reserve (length : Nat)
  | unreserve (block : Nat)

/-- The answer to a request that succeeds. -/
inductive Answer (α : Type) where
  | done
  /-- The name of what was created. -/
  | named (index : Nat)
  | number (value : Nat)
  | flag (value : Bool)
  | values (values : Array α)
  /-- The accelerator refused to reserve a block. -/
  | refused (error : DeviceError)

variable {α : Type} [Arithmetic α]

/-- What a request does to a session. -/
abbrev Action (α β : Type) := EStateM Error (Session α) β

/-- A session on a new store. -/
def create (accelerator : Accelerator α) : Session α where
  store := Store.create accelerator
  buffers := #[]
  leases := #[]
  reserved := #[]

/-- An action on the store of a session. -/
def onStore {β : Type} (action : Store.Action α β) : Action α β :=
  fun session =>
    match action session.store with
    | .ok answer store => .ok answer { session with store := store }
    | .error error store => .error error { session with store := store }

/-- The buffer with a name. -/
def named (name : Nat) : Action α BufferId := do
  match (← get).buffers[name]? with
  | some (some buffer) => pure buffer
  | _ => throw (.inconsistency (.missingName name))

/-- Gives a buffer the next name. -/
def name (buffer : BufferId) : Action α (Answer α) :=
  modifyGet fun session =>
    (.named session.buffers.size,
      { session with buffers := session.buffers.push (some buffer) })

/-- Takes the next name of a lease, which stands for nothing yet. -/
def reserveLease : Action α Nat :=
  modifyGet fun session =>
    (session.leases.size, { session with leases := session.leases.push none })

/--
Leases a buffer under the next name.  A request that does not lead to a lease
uses up its name all the same.
-/
def leaseNext (buffer : Nat) (tier : Tier) : Action α Nat := do
  let index ← reserveLease
  let buffer ← named buffer
  onStore (Store.lease buffer tier)
  modify fun session =>
    { session with
      store := session.store.hold buffer
      leases := session.leases.setIfInBounds index (some buffer) }
  return index

/-- Ends a lease, unless it has ended before. -/
def endLease (lease : Nat) (session : Session α) : Session α :=
  match session.leases[lease]? with
  | some (some buffer) =>
      { session with
        store := (session.store.unpin buffer).drop buffer
        leases := session.leases.setIfInBounds lease none }
  | _ => session

/-- The store after buffers were allocated and dropped, as many as given. -/
def churned (length : Nat) : Nat → Store α → Store α
  | 0, store => store
  | count + 1, store =>
      let (buffer, store) := store.register length .empty
      churned length count (store.drop buffer)

/-- Carries out a request. -/
def perform (command : Command α) : Action α (Answer α) :=
  match command with
  | .allocate length => do name (← onStore (Store.allocate length))
  | .allocateFrom values => do name (← onStore (Store.allocateFrom values))
  | .churn count length => do
      modify fun session =>
        { session with store := churned length count session.store }
      return .flag ((← get).store.count == 0)
  | .share buffer => do
      let buffer ← named buffer
      modify fun session => { session with store := session.store.hold buffer }
      name buffer
  | .drop index => do
      let buffer ← named index
      modify fun session =>
        { session with
          store := session.store.drop buffer
          buffers := session.buffers.setIfInBounds index none }
      return .done
  | .ensure buffer tier => do
      onStore (Store.ensure (← named buffer) tier)
      return .done
  | .release buffer => do
      onStore (Store.release (← named buffer))
      return .done
  | .offload target device => do
      return .number (← onStore (Store.offload target device))
  | .read buffer => do
      return .values (← onStore (Store.read (← named buffer)))
  | .write buffer values => do
      onStore (Store.write (← named buffer) values)
      return .done
  | .fill buffer value => do
      onStore (Store.fill (← named buffer) value)
      return .done
  | .clear buffer => do
      onStore (Store.clear (← named buffer))
      return .done
  | .update buffer change => do
      return .number (← onStore (Store.update (← named buffer) change))
  | .lease buffer tier => do
      return .named (← leaseNext buffer tier)
  | .unlease lease => do
      modify (endLease lease)
      return .done
  | .reserve length => do
      let session ← get
      match session.store.accelerator.pool.allocate length with
      | .ok (block, pool) =>
          set { session with
            store.accelerator.pool := pool
            reserved := session.reserved.push block }
          return .named session.reserved.size
      | .error error => return .refused error
  | .unreserve index => do
      let session ← get
      match session.reserved[index]? with
      | some block =>
          set { session with store := Store.freeBlock block session.store }
          return .done
      | none => throw (.inconsistency (.missingName index))

/-- The answer to a request, and the session after it. -/
def step
    (session : Session α)
    (command : Command α) : Except Error (Answer α) × Session α :=
  match perform command session with
  | .ok answer after => (.ok answer, after)
  | .error error after => (.error error, after)

/-- The session after a run of requests. -/
def run (session : Session α) (commands : List (Command α)) : Session α :=
  commands.foldl (fun session command => (session.step command).2) session

/-- The buffer behind a name. -/
def buffer? (session : Session α) (name : Nat) : Option (BufferId × Buffer α) := do
  let buffer ← (← session.buffers[name]?)
  let found ← session.store.buffers.get? buffer
  return (buffer, found)

/-- The buffer behind a lease that stands. -/
def leased? (session : Session α) (lease : Nat) : Option (BufferId × Buffer α) := do
  let buffer ← (← session.leases[lease]?)
  let found ← session.store.buffers.get? buffer
  return (buffer, found)

end Session

end Store

/-- A buffer as diagnostics describe it. -/
def Buffer.description {α : Type} (buffer : Buffer α) (id : BufferId) : String :=
  "Buffer \x7b id: BufferId(" ++ toString id.index ++ "), len: " ++
    toString buffer.length ++ ", location: " ++ buffer.location.title ++ " \x7d"

end Elementwise
