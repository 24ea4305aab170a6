import Elementwise.Proofs.Agreement

/-!
# Two runs in step

Two runs are in step if both answer or both fail.  `InStep` says what holds of
both answers or of both reasons, and of both states after them, and comes with
one rule for each way of building actions.

A coupling says which states and which failures of two runs belong together.
The first action simulates the second one under a coupling if the two are in
step from all states that belong together, and leave such states behind.

A coupling also says whether runs may part.  This is false where runs never do,
and true where they are only compared as long as both of them answer.
-/

namespace Elementwise

variable
    {ε σ α β γ δ : Type}

/--
What holds of two runs that both answer, or that both fail; nothing is said of runs that have
parted.
-/
structure InStep
    (first : EStateM ε σ α)
    (second : EStateM ε σ β)
    (left right : σ)
    (done : α → β → σ → σ → Prop)
    (failed : ε → ε → σ → σ → Prop)
    (parts : Prop) : Prop where
  answers : BothEnd first second left right done
  reasons : ∀ reason other after afterwards, first left = .error reason after →
    second right = .error other afterwards → parts ∨ failed reason other after afterwards
  ahead : ∀ answer other after afterwards, first left = .ok answer after →
    second right = .error other afterwards → parts
  behind : ∀ reason other after afterwards, first left = .error reason after →
    second right = .ok other afterwards → parts

section

variable
    {first : EStateM ε σ α}
    {second : EStateM ε σ β}
    {left right : σ}
    {done : α → β → σ → σ → Prop}
    {failed : ε → ε → σ → σ → Prop}
    {parts : Prop}

/-- Runs that may part are in step as soon as their answers belong together. -/
theorem inStep_of_bothEnd
    (both : BothEnd first second left right done)
    (mayPart : parts) :
    InStep first second left right done failed parts where
  answers := both
  reasons _ _ _ _ _ _ := .inl mayPart
  ahead _ _ _ _ _ _ := mayPart
  behind _ _ _ _ _ _ := mayPart

/-- Runs whose ends are known are in step if these belong together. -/
theorem inStep_of_ok
    {answer : α}
    {other : β}
    {after afterwards : σ}
    (ran : first left = .ok answer after)
    (ranOther : second right = .ok other afterwards)
    (holds : done answer other after afterwards) :
    InStep first second left right done failed parts where
  answers := by
    intro _ _ _ _ again againOther
    cases ran.symm.trans again
    cases ranOther.symm.trans againOther
    exact holds
  reasons _ _ _ _ again _ := by cases ran.symm.trans again
  ahead _ _ _ _ _ again := by cases ranOther.symm.trans again
  behind _ _ _ _ again _ := by cases ran.symm.trans again

theorem inStep_of_error
    {reason other : ε}
    {after afterwards : σ}
    (ran : first left = .error reason after)
    (ranOther : second right = .error other afterwards)
    (holds : failed reason other after afterwards) :
    InStep first second left right done failed parts where
  answers _ _ _ _ again _ := by cases ran.symm.trans again
  reasons := by
    intro _ _ _ _ again againOther
    cases ran.symm.trans again
    cases ranOther.symm.trans againOther
    exact .inr holds
  ahead _ _ _ _ again _ := by cases ran.symm.trans again
  behind _ _ _ _ _ again := by cases ranOther.symm.trans again

/-- What holds of the ends of two runs, both of which answer or both of which fail. -/
def Meet
    (done : α → β → σ → σ → Prop)
    (failed : ε → ε → σ → σ → Prop) :
    EStateM.Result ε σ α → EStateM.Result ε σ β → Prop
  | .ok answer after, .ok other afterwards => done answer other after afterwards
  | .error reason after, .error other afterwards => failed reason other after afterwards
  | _, _ => False

theorem inStep_of_meet
    (meet : Meet done failed (first left) (second right)) :
    InStep first second left right done failed parts := by
  cases ran : first left with
  | ok answer after =>
    cases ranOther : second right with
    | ok other afterwards =>
      rw [ran, ranOther] at meet
      exact inStep_of_ok ran ranOther meet
    | error other afterwards => rw [ran, ranOther] at meet; exact meet.elim
  | error reason after =>
    cases ranOther : second right with
    | ok other afterwards => rw [ran, ranOther] at meet; exact meet.elim
    | error other afterwards =>
      rw [ran, ranOther] at meet
      exact inStep_of_error ran ranOther meet

theorem InStep.meet (inStep : InStep first second left right done failed False) :
    Meet done failed (first left) (second right) := by
  cases ran : first left with
  | ok answer after =>
    cases ranOther : second right with
    | ok other afterwards => exact inStep.answers _ _ _ _ ran ranOther
    | error other afterwards => exact inStep.ahead _ _ _ _ ran ranOther
  | error reason after =>
    cases ranOther : second right with
    | ok other afterwards => exact inStep.behind _ _ _ _ ran ranOther
    | error other afterwards => exact (inStep.reasons _ _ _ _ ran ranOther).resolve_left id

/-- Runs that never fail are in step. -/
theorem inStep_of_ends
    {doneFirst : α → σ → Prop}
    {doneSecond : β → σ → Prop}
    (ends : Ends first left doneFirst fun _ _ => False)
    (endsOther : Ends second right doneSecond fun _ _ => False)
    (implies : ∀ answer other after afterwards, doneFirst answer after →
      doneSecond other afterwards → done answer other after afterwards) :
    InStep first second left right done failed parts where
  answers := bothEnd_of_ends ends endsOther implies
  reasons _ _ _ _ ran _ := (ends.of_error ran).elim
  ahead _ _ _ _ _ ranOther := (endsOther.of_error ranOther).elim
  behind _ _ _ _ ran _ := (ends.of_error ran).elim

namespace InStep

theorem mono
    {otherDone : α → β → σ → σ → Prop}
    {otherFailed : ε → ε → σ → σ → Prop}
    (inStep : InStep first second left right done failed parts)
    (ofDone : ∀ answer other after afterwards, done answer other after afterwards →
      otherDone answer other after afterwards)
    (ofFailed : ∀ reason other after afterwards, failed reason other after afterwards →
      otherFailed reason other after afterwards) :
    InStep first second left right otherDone otherFailed parts where
  answers := inStep.answers.mono ofDone
  reasons _ _ _ _ ran ranOther :=
    (inStep.reasons _ _ _ _ ran ranOther).imp_right (ofFailed _ _ _ _)
  ahead := inStep.ahead
  behind := inStep.behind

theorem mono_done
    {otherDone : α → β → σ → σ → Prop}
    (inStep : InStep first second left right done failed parts)
    (ofDone : ∀ answer other after afterwards, done answer other after afterwards →
      otherDone answer other after afterwards) :
    InStep first second left right otherDone failed parts :=
  inStep.mono ofDone fun _ _ _ _ same => same

/-- What holds after each run by itself may be added. -/
theorem and_ends
    {doneFirst : α → σ → Prop}
    {doneSecond : β → σ → Prop}
    {failedFirst failedSecond : ε → σ → Prop}
    (inStep : InStep first second left right done failed parts)
    (ends : Ends first left doneFirst failedFirst)
    (endsOther : Ends second right doneSecond failedSecond) :
    InStep first second left right
      (fun answer other after afterwards =>
        done answer other after afterwards ∧ doneFirst answer after ∧ doneSecond other afterwards)
      (fun reason other after afterwards =>
        failed reason other after afterwards ∧ failedFirst reason after ∧
          failedSecond other afterwards)
      parts where
  answers := inStep.answers.and_ends ends endsOther
  reasons _ _ _ _ ran ranOther :=
    (inStep.reasons _ _ _ _ ran ranOther).imp_right fun failed =>
      ⟨failed, ends.of_error ran, endsOther.of_error ranOther⟩
  ahead := inStep.ahead
  behind := inStep.behind

theorem bind
    {next : α → EStateM ε σ γ}
    {nextOther : β → EStateM ε σ δ}
    {done : γ → δ → σ → σ → Prop}
    (inStep : InStep first second left right
      (fun answer other middle middleOther =>
        InStep (next answer) (nextOther other) middle middleOther done failed parts)
      failed parts) :
    InStep (first >>= next) (second >>= nextOther) left right done failed parts where
  answers := bothEnd_bind (inStep.answers.mono fun _ _ _ _ later => later.answers)
  reasons reason other after afterwards ran ranOther := by
    rcases bind_apply_eq_error ran with here | ⟨answer, middle, here, there⟩
    · rcases bind_apply_eq_error ranOther with hereOther | ⟨_, _, hereOther, -⟩
      · exact inStep.reasons _ _ _ _ here hereOther
      · exact .inl (inStep.behind _ _ _ _ here hereOther)
    · rcases bind_apply_eq_error ranOther with hereOther | ⟨_, _, hereOther, thereOther⟩
      · exact .inl (inStep.ahead _ _ _ _ here hereOther)
      · exact (inStep.answers _ _ _ _ here hereOther).reasons _ _ _ _ there thereOther
  ahead answer other after afterwards ran ranOther := by
    obtain ⟨_, _, here, there⟩ := bind_apply_eq_ok ran
    rcases bind_apply_eq_error ranOther with hereOther | ⟨_, _, hereOther, thereOther⟩
    · exact inStep.ahead _ _ _ _ here hereOther
    · exact (inStep.answers _ _ _ _ here hereOther).ahead _ _ _ _ there thereOther
  behind reason other after afterwards ran ranOther := by
    obtain ⟨_, _, hereOther, thereOther⟩ := bind_apply_eq_ok ranOther
    rcases bind_apply_eq_error ran with here | ⟨_, _, here, there⟩
    · exact inStep.behind _ _ _ _ here hereOther
    · exact (inStep.answers _ _ _ _ here hereOther).behind _ _ _ _ there thereOther

end InStep

theorem inStep_pure
    {answer : α}
    {other : β}
    (holds : done answer other left right) :
    InStep (pure answer : EStateM ε σ α) (pure other : EStateM ε σ β)
      left right done failed parts :=
  inStep_of_ok rfl rfl holds

theorem inStep_throw
    {reason other : ε}
    (holds : failed reason other left right) :
    InStep (throw reason : EStateM ε σ α) (throw other : EStateM ε σ β) left right done failed
      parts :=
  inStep_of_error rfl rfl holds

theorem inStep_modifyGet
    {change : σ → α × σ}
    {changeOther : σ → β × σ}
    (holds : done (change left).1 (changeOther right).1 (change left).2 (changeOther right).2) :
    InStep (modifyGet change : EStateM ε σ α) (modifyGet changeOther) left right done failed
      parts :=
  inStep_of_ok rfl rfl holds

end

/-! ## Couplings -/

/-- Which states and which failures of two runs belong together, and whether runs may part. -/
structure Coupling (ε σ : Type) where
  related : σ → σ → Prop
  failed : ε → ε → σ → σ → Prop
  parts : Prop

namespace Coupling

variable
    {coupling : Coupling ε σ}
    {change : α → β}
    {changeOther : γ → δ}

/-- Two runs are in step, and their answers and the states after them belong together. -/
def Agrees
    (coupling : Coupling ε σ)
    (change : α → β)
    (first : EStateM ε σ α)
    (second : EStateM ε σ β)
    (left right : σ) : Prop :=
  InStep first second left right
    (fun answer other after afterwards =>
      other = change answer ∧ coupling.related after afterwards)
    coupling.failed coupling.parts

/-- Two actions agree wherever they start from related states. -/
def Simulates
    (coupling : Coupling ε σ)
    (change : α → β)
    (first : EStateM ε σ α)
    (second : EStateM ε σ β) : Prop :=
  ∀ left right, coupling.related left right → coupling.Agrees change first second left right

theorem Agrees.bind
    {first : EStateM ε σ α}
    {second : EStateM ε σ β}
    {next : α → EStateM ε σ γ}
    {nextOther : β → EStateM ε σ δ}
    {left right : σ}
    (here : coupling.Agrees change first second left right)
    (there : ∀ answer, coupling.Simulates changeOther (next answer) (nextOther (change answer))) :
    coupling.Agrees changeOther (first >>= next) (second >>= nextOther) left right := by
  refine InStep.bind (here.mono_done ?_)
  rintro answer _ after afterwards ⟨rfl, same⟩
  exact there answer after afterwards same

/-- Runs that give the same answer may go on in the same way. -/
theorem Agrees.bind_id
    {first second : EStateM ε σ α}
    {next : α → EStateM ε σ γ}
    {nextOther : α → EStateM ε σ δ}
    {left right : σ}
    (here : coupling.Agrees id first second left right)
    (there : ∀ answer, coupling.Simulates changeOther (next answer) (nextOther answer)) :
    coupling.Agrees changeOther (first >>= next) (second >>= nextOther) left right :=
  here.bind there

namespace Simulates

theorem pure
    {answer : α}
    {other : β}
    (same : other = change answer) :
    coupling.Simulates change (Pure.pure answer) (Pure.pure other) :=
  fun _ _ related => inStep_pure ⟨same, related⟩

theorem throw
    {reason other : ε}
    (failed : ∀ left right, coupling.related left right →
      coupling.failed reason other left right) :
    coupling.Simulates change (MonadExcept.throw reason) (MonadExcept.throw other) :=
  fun left right related => inStep_throw (failed left right related)

theorem throw_bind
    {next : α → EStateM ε σ γ}
    {nextOther : β → EStateM ε σ δ}
    {reason other : ε}
    (failed : ∀ left right, coupling.related left right →
      coupling.failed reason other left right) :
    coupling.Simulates changeOther (MonadExcept.throw reason >>= next)
      (MonadExcept.throw other >>= nextOther) :=
  fun left right related => inStep_of_error rfl rfl (failed left right related)

theorem bind
    {first : EStateM ε σ α}
    {second : EStateM ε σ β}
    {next : α → EStateM ε σ γ}
    {nextOther : β → EStateM ε σ δ}
    (here : coupling.Simulates change first second)
    (there : ∀ answer, coupling.Simulates changeOther (next answer) (nextOther (change answer))) :
    coupling.Simulates changeOther (first >>= next) (second >>= nextOther) :=
  fun left right related => (here left right related).bind there

/-- What is read of the state may differ, as long as it leads to the same. -/
theorem get_bind
    {next : σ → EStateM ε σ α}
    {nextOther : σ → EStateM ε σ β}
    (both : ∀ left right, coupling.related left right →
      coupling.Agrees change (next left) (nextOther right) left right) :
    coupling.Simulates change (MonadState.get >>= next) (MonadState.get >>= nextOther) :=
  fun left right related => InStep.bind (inStep_of_ok rfl rfl (both left right related))

theorem map
    {first : EStateM ε σ α}
    {second : EStateM ε σ β}
    {further : α → γ}
    {furtherOther : β → δ}
    (simulates : coupling.Simulates change first second)
    (same : ∀ answer, furtherOther (change answer) = changeOther (further answer)) :
    coupling.Simulates changeOther (further <$> first) (furtherOther <$> second) := by
  rw [map_eq_pure_bind, map_eq_pure_bind]
  exact simulates.bind fun answer => pure (same answer)

theorem mapM
    {first : α → EStateM ε σ γ}
    {second : β → EStateM ε σ δ}
    (elements : List α)
    (each : ∀ element, coupling.Simulates changeOther (first element) (second (change element))) :
    coupling.Simulates (List.map changeOther) (elements.mapM first)
      ((elements.map change).mapM second) := by
  induction elements with
  | nil => exact pure rfl
  | cons head tail step =>
    rw [List.map_cons, List.mapM_cons, List.mapM_cons]
    exact (each head).bind fun _ => step.bind fun _ => pure rfl

theorem forM
    {first : α → EStateM ε σ PUnit}
    {second : β → EStateM ε σ PUnit}
    (elements : List α)
    (each : ∀ element, coupling.Simulates id (first element) (second (change element))) :
    coupling.Simulates id (elements.forM first) ((elements.map change).forM second) := by
  induction elements with
  | nil => exact pure rfl
  | cons head tail step => exact (each head).bind fun _ => step

theorem modifyGet
    {update : σ → α × σ}
    {updateOther : σ → β × σ}
    (same : ∀ left right, coupling.related left right →
      (updateOther right).1 = change (update left).1 ∧
        coupling.related (update left).2 (updateOther right).2) :
    coupling.Simulates change (MonadStateOf.modifyGet update)
      (MonadStateOf.modifyGet updateOther) :=
  fun left right related => inStep_modifyGet (same left right related)

theorem modify
    {update updateOther : σ → σ}
    (same : ∀ left right, coupling.related left right →
      coupling.related (update left) (updateOther right)) :
    coupling.Simulates id
      (MonadStateOf.modifyGet fun state => (PUnit.unit, update state) : EStateM ε σ PUnit)
      (MonadStateOf.modifyGet fun state => (PUnit.unit, updateOther state)) :=
  fun left right related => inStep_modifyGet ⟨rfl, same left right related⟩

end Simulates

end Coupling

end Elementwise
