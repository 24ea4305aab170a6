import Elementwise.Proofs.Action

/-!
# Two runs of an action

Two runs are followed side by side, each in a state of its own.  `BothEnd` says
what holds of both answers and of both states after them, provided that neither
run fails, and comes with one rule for each way of building actions.

An action respects a relation between states if any two of its runs from related
states give the same answer and end in related states.  Most actions are built
from others that do, and need no more than the rules for that.
-/

namespace Elementwise

section

variable
    {ε σ α β γ δ : Type}

/-- What holds of two runs that both succeed. -/
def BothEnd
    (first : EStateM ε σ α)
    (second : EStateM ε σ β)
    (left right : σ)
    (done : α → β → σ → σ → Prop) : Prop :=
  ∀ answer other after afterwards, first left = .ok answer after →
    second right = .ok other afterwards → done answer other after afterwards

variable
    {first : EStateM ε σ α}
    {second : EStateM ε σ β}
    {left right : σ}
    {done : α → β → σ → σ → Prop}

theorem BothEnd.mono
    {otherDone : α → β → σ → σ → Prop}
    (both : BothEnd first second left right done)
    (implies : ∀ answer other after afterwards, done answer other after afterwards →
      otherDone answer other after afterwards) :
    BothEnd first second left right otherDone :=
  fun answer other after afterwards ran ranOther =>
    implies answer other after afterwards (both answer other after afterwards ran ranOther)

/-- What holds after each run by itself holds of both. -/
theorem bothEnd_of_ends
    {doneFirst : α → σ → Prop}
    {doneSecond : β → σ → Prop}
    {failed failedOther : ε → σ → Prop}
    (ends : Ends first left doneFirst failed)
    (endsOther : Ends second right doneSecond failedOther)
    (implies : ∀ answer other after afterwards, doneFirst answer after →
      doneSecond other afterwards → done answer other after afterwards) :
    BothEnd first second left right done :=
  fun answer other after afterwards ran ranOther =>
    implies answer other after afterwards (ends.of_ok ran) (endsOther.of_ok ranOther)

/-- What holds after each run by itself may be added. -/
theorem BothEnd.and_ends
    {doneFirst : α → σ → Prop}
    {doneSecond : β → σ → Prop}
    {failed failedOther : ε → σ → Prop}
    (both : BothEnd first second left right done)
    (ends : Ends first left doneFirst failed)
    (endsOther : Ends second right doneSecond failedOther) :
    BothEnd first second left right fun answer other after afterwards =>
      done answer other after afterwards ∧ doneFirst answer after ∧
        doneSecond other afterwards :=
  fun answer other after afterwards ran ranOther =>
    ⟨both answer other after afterwards ran ranOther, ends.of_ok ran, endsOther.of_ok ranOther⟩

/-- A sequence succeeds if its parts do, the second one in the state after the first. -/
theorem bind_apply_eq_ok
    {action : EStateM ε σ α}
    {next : α → EStateM ε σ γ}
    {state after : σ}
    {answer : γ}
    (ran : (action >>= next) state = .ok answer after) :
    ∃ inner middle, action state = .ok inner middle ∧ next inner middle = .ok answer after := by
  simp only [bind, EStateM.bind] at ran
  cases outcome : action state with
  | ok inner middle =>
    rw [outcome] at ran
    exact ⟨inner, middle, rfl, ran⟩
  | error reason middle =>
    rw [outcome] at ran
    cases ran

/-- A sequence fails in its first part, or in the second one after an answer of the first. -/
theorem bind_apply_eq_error
    {action : EStateM ε σ α}
    {next : α → EStateM ε σ γ}
    {state after : σ}
    {reason : ε}
    (ran : (action >>= next) state = .error reason after) :
    action state = .error reason after ∨
      ∃ inner middle, action state = .ok inner middle ∧
        next inner middle = .error reason after := by
  simp only [bind, EStateM.bind] at ran
  cases outcome : action state with
  | ok inner middle =>
    rw [outcome] at ran
    exact .inr ⟨inner, middle, rfl, ran⟩
  | error failure middle =>
    rw [outcome] at ran
    cases ran
    exact .inl rfl

theorem bothEnd_bind
    {next : α → EStateM ε σ γ}
    {nextOther : β → EStateM ε σ δ}
    {done : γ → δ → σ → σ → Prop}
    (both : BothEnd first second left right fun answer other middle middleOther =>
      BothEnd (next answer) (nextOther other) middle middleOther done) :
    BothEnd (first >>= next) (second >>= nextOther) left right done := by
  intro answer other after afterwards ran ranOther
  obtain ⟨inner, middle, here, there⟩ := bind_apply_eq_ok ran
  obtain ⟨innerOther, middleOther, hereOther, thereOther⟩ := bind_apply_eq_ok ranOther
  exact both inner innerOther middle middleOther here hereOther answer other after afterwards
    there thereOther

theorem bothEnd_pure
    {answer : α}
    {other : β}
    (holds : done answer other left right) :
    BothEnd (pure answer : EStateM ε σ α) (pure other : EStateM ε σ β) left right done := by
  rintro _ _ _ _ ⟨⟩ ⟨⟩
  exact holds

theorem bothEnd_throw
    {reason : ε} :
    BothEnd (throw reason) second left right done := by
  rintro _ _ _ _ ⟨⟩

theorem bothEnd_get
    {done : σ → σ → σ → σ → Prop}
    (holds : done left right left right) :
    BothEnd (get : EStateM ε σ σ) get left right done := by
  rintro _ _ _ _ ⟨⟩ ⟨⟩
  exact holds

theorem bothEnd_modifyGet
    {change : σ → α × σ}
    {changeOther : σ → β × σ}
    (holds : done (change left).1 (changeOther right).1 (change left).2 (changeOther right).2) :
    BothEnd (modifyGet change : EStateM ε σ α) (modifyGet changeOther) left right done := by
  rintro _ _ _ _ ⟨⟩ ⟨⟩
  exact holds

end

/-! ## Actions that respect a relation -/

section

variable
    {ε σ α β : Type}
    {related : σ → σ → Prop}

/-- Two runs give the same answer and end in related states, if both succeed. -/
def Matches
    (related : σ → σ → Prop)
    (first second : EStateM ε σ α)
    (left right : σ) : Prop :=
  BothEnd first second left right fun answer other after afterwards =>
    other = answer ∧ related after afterwards

/-- Two runs of an action from related states give the same answer and end in related states. -/
def Respects (related : σ → σ → Prop) (action : EStateM ε σ α) : Prop :=
  ∀ left right, related left right → Matches related action action left right

theorem Matches.bind
    {first second : EStateM ε σ α}
    {next : α → EStateM ε σ β}
    {left right : σ}
    (here : Matches related first second left right)
    (there : ∀ answer, Respects related (next answer)) :
    Matches related (first >>= next) (second >>= next) left right := by
  refine bothEnd_bind (here.mono ?_)
  rintro _ answer after afterwards ⟨rfl, same⟩
  exact there answer after afterwards same

namespace Respects

theorem pure (answer : α) : Respects related (Pure.pure answer : EStateM ε σ α) :=
  fun _ _ same => bothEnd_pure ⟨rfl, same⟩

theorem throw (reason : ε) : Respects related (MonadExcept.throw reason : EStateM ε σ α) :=
  fun _ _ _ => bothEnd_throw

theorem throw_bind
    {next : α → EStateM ε σ β}
    (reason : ε) :
    Respects related (MonadExcept.throw reason >>= next) :=
  fun _ _ _ => bothEnd_throw

theorem bind
    {first : EStateM ε σ α}
    {next : α → EStateM ε σ β}
    (here : Respects related first)
    (there : ∀ answer, Respects related (next answer)) :
    Respects related (first >>= next) :=
  fun left right same => (here left right same).bind there

/-- What is read of the state may differ, as long as the same follows from it. -/
theorem get_bind
    {next : σ → EStateM ε σ α}
    (both : ∀ left right, related left right →
      Matches related (next left) (next right) left right) :
    Respects related (MonadState.get >>= next) :=
  fun left right same => bothEnd_bind (bothEnd_get (both left right same))

theorem map
    {action : EStateM ε σ α}
    {change : α → β}
    (respects : Respects related action) :
    Respects related (change <$> action) := by
  rw [map_eq_pure_bind]
  exact respects.bind fun answer => pure (change answer)

theorem mapM
    {action : α → EStateM ε σ β}
    (list : List α)
    (each : ∀ element, Respects related (action element)) :
    Respects related (list.mapM action) := by
  induction list with
  | nil => exact pure []
  | cons head tail step =>
    rw [List.mapM_cons]
    exact (each head).bind fun _ => step.bind fun _ => pure _

theorem forM
    {action : α → EStateM ε σ PUnit}
    (list : List α)
    (each : ∀ element, Respects related (action element)) :
    Respects related (list.forM action) := by
  induction list with
  | nil => exact pure PUnit.unit
  | cons head tail step => exact (each head).bind fun _ => step

theorem modifyGet
    {change : σ → α × σ}
    (same : ∀ left right, related left right →
      (change right).1 = (change left).1 ∧ related (change left).2 (change right).2) :
    Respects related (MonadStateOf.modifyGet change : EStateM ε σ α) :=
  fun left right holds => bothEnd_modifyGet (same left right holds)

theorem modify
    {change : σ → σ}
    (same : ∀ left right, related left right → related (change left) (change right)) :
    Respects related (MonadStateOf.modifyGet fun state => (PUnit.unit, change state) :
      EStateM ε σ PUnit) :=
  fun left right holds => bothEnd_modifyGet ⟨rfl, same left right holds⟩

end Respects

end

end Elementwise
