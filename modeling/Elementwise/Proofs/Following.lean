import Elementwise.Error
import Elementwise.Proofs.Simulation

/-!
# Runs that end as another one does

An action may be run in a state that is as good for the purpose as another one.
`Follows` says that the two runs are in step: the second one answers if the first one
does, and something holds of both then; and it is refused if the first one is, for the
same cause.  How much an attempt to make room set free before it was given up is not
part of the cause, since it depends on what happened to be on the accelerator.
-/

namespace Elementwise

/-- A cause of failure, up to how much was set free in vain. -/
def Error.withoutFreed : Error → Error
  | .resourceExhausted requested _ => .resourceExhausted requested 0
  | reason => reason

variable {σ α β γ δ : Type}

/-- What holds anyway holds after an action. -/
theorem ends_of_holds
    {ε : Type}
    {action : EStateM ε σ α}
    {before : σ}
    {done failed : Prop}
    (ofDone : done)
    (ofFailed : failed) :
    Ends action before (fun _ _ => done) fun _ _ => failed := by
  unfold Ends
  split
  · exact ofDone
  · exact ofFailed

/-- The second run answers if the first one does; if not, it is refused for the same cause. -/
def Follows
    (first : EStateM Error σ α)
    (second : EStateM Error σ β)
    (left right : σ)
    (done : α → β → σ → σ → Prop) : Prop :=
  InStep first second left right done
    (fun reason again _ _ => again.withoutFreed = reason.withoutFreed) False

variable
    {first : EStateM Error σ α}
    {second : EStateM Error σ β}
    {left right : σ}
    {done : α → β → σ → σ → Prop}

theorem Follows.mono
    {otherDone : α → β → σ → σ → Prop}
    (follows : Follows first second left right done)
    (implies : ∀ answer other after afterwards, done answer other after afterwards →
      otherDone answer other after afterwards) :
    Follows first second left right otherDone :=
  follows.mono_done implies

/-- What holds after each run by itself may be added. -/
theorem Follows.and_ends
    {doneFirst : α → σ → Prop}
    {doneSecond : β → σ → Prop}
    {failed failedOther : Error → σ → Prop}
    (follows : Follows first second left right done)
    (ends : Ends first left doneFirst failed)
    (endsOther : Ends second right doneSecond failedOther) :
    Follows first second left right fun answer other after afterwards =>
      done answer other after afterwards ∧ doneFirst answer after ∧ doneSecond other afterwards :=
  (InStep.and_ends follows ends endsOther).mono (fun _ _ _ _ both => both)
    fun _ _ _ _ both => both.1

/-- How the first run ends may be enough to know how the second one does. -/
theorem follows_of_ends
    {doneFirst : α → σ → Prop}
    {failed : Error → σ → Prop}
    (ends : Ends first left doneFirst failed)
    (answers : ∀ answer after, doneFirst answer after →
      Ends second right (fun other afterwards => done answer other after afterwards)
        fun _ _ => False)
    (refuses : ∀ reason after, failed reason after →
      Ends second right (fun _ _ => False)
        fun again _ => again.withoutFreed = reason.withoutFreed) :
    Follows first second left right done := by
  refine inStep_of_meet ?_
  cases ran : first left with
  | ok answer after =>
    have endsOther := answers answer after (ends.of_ok ran)
    cases ranOther : second right with
    | ok other afterwards => exact endsOther.of_ok ranOther
    | error again afterwards => exact (endsOther.of_error ranOther).elim
  | error reason after =>
    have endsOther := refuses reason after (ends.of_error ran)
    cases ranOther : second right with
    | ok other afterwards => exact (endsOther.of_ok ranOther).elim
    | error again afterwards => exact endsOther.of_error ranOther

/-- Runs that are never refused. -/
theorem follows_of_answers
    {doneFirst : α → σ → Prop}
    {doneSecond : β → σ → Prop}
    (ends : Ends first left doneFirst fun _ _ => False)
    (endsOther : Ends second right doneSecond fun _ _ => False)
    (implies : ∀ answer other after afterwards, doneFirst answer after →
      doneSecond other afterwards → done answer other after afterwards) :
    Follows first second left right done :=
  inStep_of_ends ends endsOther implies

/-- Runs that are always refused for one cause. -/
theorem follows_of_refusals
    {reason : Error}
    (ends : Ends first left (fun _ _ => False) fun found _ => found = reason)
    (endsOther : Ends second right (fun _ _ => False) fun found _ => found = reason) :
    Follows first second left right done :=
  follows_of_ends ends (fun _ _ never => never.elim) fun _ _ isReason =>
    endsOther.mono (fun _ _ never => never) fun _ _ isReasonOther => by rw [isReason, isReasonOther]

theorem follows_bind
    {next : α → EStateM Error σ γ}
    {nextOther : β → EStateM Error σ δ}
    {done : γ → δ → σ → σ → Prop}
    (follows : Follows first second left right fun answer other middle middleOther =>
      Follows (next answer) (nextOther other) middle middleOther done) :
    Follows (first >>= next) (second >>= nextOther) left right done :=
  InStep.bind follows

theorem follows_pure
    {answer : α}
    {other : β}
    (holds : done answer other left right) :
    Follows (pure answer) (pure other) left right done :=
  inStep_pure holds

theorem follows_map
    {change : α → γ}
    {changeOther : β → δ}
    {done : γ → δ → σ → σ → Prop}
    (follows : Follows first second left right fun answer other after afterwards =>
      done (change answer) (changeOther other) after afterwards) :
    Follows (change <$> first) (changeOther <$> second) left right done := by
  rw [map_eq_pure_bind, map_eq_pure_bind]
  exact follows_bind (follows.mono fun _ _ _ _ holds => follows_pure holds)

theorem follows_get
    {done : σ → σ → σ → σ → Prop}
    (holds : done left right left right) :
    Follows get get left right done :=
  inStep_of_ok rfl rfl holds

theorem follows_modify
    {change changeOther : σ → σ}
    {done : PUnit → PUnit → σ → σ → Prop}
    (holds : done ⟨⟩ ⟨⟩ (change left) (changeOther right)) :
    Follows (modify change) (modify changeOther) left right done :=
  inStep_modifyGet holds

theorem follows_throw
    {reason : Error} :
    Follows (throw reason) (throw reason) left right done :=
  inStep_throw rfl

theorem follows_throw_bind
    {reason : Error}
    {next : γ → EStateM Error σ α}
    {nextOther : δ → EStateM Error σ β} :
    Follows (throw reason >>= next) (throw reason >>= nextOther) left right done :=
  inStep_of_error rfl rfl rfl

end Elementwise
