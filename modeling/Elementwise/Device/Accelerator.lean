import Elementwise.Device.Pool

/-!
# An accelerator whose calls may fail

An accelerator is a pool together with a schedule of failures.  The calls of
each method are numbered from zero, and the schedule may name an error for
any of them.  A call that is scheduled to fail is counted and does nothing
else; any other call is counted and passed to the pool.  Taking back a block
never fails and is not counted here.
-/

namespace Elementwise

/-- The calls of an accelerator that may fail. -/
inductive Method where
  | allocate
  | upload
  | download
  | fill
  | copy
  | launch
deriving DecidableEq, Repr

/-- How often each method was called. -/
structure CallCounts where
  allocate : Nat := 0
  upload : Nat := 0
  download : Nat := 0
  fill : Nat := 0
  copy : Nat := 0
  launch : Nat := 0
deriving DecidableEq, Repr, Inhabited

namespace CallCounts

/-- The number of calls of a method. -/
def get (counts : CallCounts) : Method → Nat
  | .allocate => counts.allocate
  | .upload => counts.upload
  | .download => counts.download
  | .fill => counts.fill
  | .copy => counts.copy
  | .launch => counts.launch

/-- One more call of a method. -/
def bump (counts : CallCounts) : Method → CallCounts
  | .allocate => { counts with allocate := counts.allocate + 1 }
  | .upload => { counts with upload := counts.upload + 1 }
  | .download => { counts with download := counts.download + 1 }
  | .fill => { counts with fill := counts.fill + 1 }
  | .copy => { counts with copy := counts.copy + 1 }
  | .launch => { counts with launch := counts.launch + 1 }

@[simp]
theorem get_bump (counts : CallCounts) (method other : Method) :
    (counts.bump method).get other =
      if method = other then counts.get other + 1 else counts.get other := by
  cases method <;> cases other <;> rfl

end CallCounts

/-- A pool whose calls fail as a schedule says. -/
structure Accelerator (α : Type) where
  pool : Pool α
  /-- The error, if any, of each call of each method, by its number. -/
  faults : Method → Nat → Option DeviceError
  calls : CallCounts

namespace Accelerator

variable {α : Type} [Arithmetic α]

/-- An accelerator that nobody has called yet. -/
def create
    (pool : Pool α)
    (faults : Method → Nat → Option DeviceError) : Accelerator α where
  pool := pool
  faults := faults
  calls := {}

/-- What a call of an accelerator does: an answer or an error, and the state after it. -/
abbrev Action (α β : Type) := EStateM DeviceError (Accelerator α) β

/-- A call of a method, which either fails as scheduled or acts on the pool. -/
def call
    {β : Type}
    (method : Method)
    (act : Pool α → Except DeviceError (β × Pool α)) : Action α β :=
  fun accelerator =>
    let counted :=
      { accelerator with calls := accelerator.calls.bump method }
    match accelerator.faults method (accelerator.calls.get method) with
    | some error => .error error counted
    | none =>
        match act accelerator.pool with
        | .ok (answer, pool) => .ok answer { counted with pool := pool }
        | .error error => .error error counted

def allocate (length : Nat) : Action α Block :=
  call .allocate (·.allocate length)

def upload (block : Block) (values : Array α) : Action α Unit :=
  call .upload fun pool => (((), ·)) <$> pool.upload block values

def download (block : Block) (length : Nat) : Action α (Array α) :=
  call .download (·.download block length)

def fill (block : Block) (value : α) : Action α Unit :=
  call .fill fun pool => (((), ·)) <$> pool.fill block value

def copy (source target : Block) : Action α Unit :=
  call .copy fun pool => (((), ·)) <$> pool.copy source target

def launch
    {ω : Type}
    (length : Nat)
    (inputs outputs : List Block)
    (kernel : Kernel α ω) : Action α Unit :=
  call .launch fun pool =>
    (((), ·)) <$> pool.launch length inputs outputs kernel

/-- Takes back a block. -/
def free (accelerator : Accelerator α) (block : Block) : Accelerator α :=
  { accelerator with pool := accelerator.pool.free block }

end Accelerator

end Elementwise
