import Mathlib.Data.List.Forall2

/-!
# How actions end

An action on a state either answers or fails, and leaves a state behind in
both cases.  `Ends` says of an action what holds after it, with one condition
for either outcome, and comes with one rule for each way of building actions.

For computations without a state, `bind_eq_ok_iff` takes a success apart.
-/

namespace Elementwise

/-- A sequence succeeds if its parts do. -/
theorem bind_eq_ok_iff
    {ε α β : Type}
    {first : Except ε α}
    {next : α → Except ε β}
    {result : β} :
    (first >>= next) = .ok result ↔ ∃ answer, first = .ok answer ∧ next answer = .ok result := by
  cases first with
  | error reason => simp [bind, Except.bind]
  | ok answer => simp [bind, Except.bind]

/-- A sequence fails in its first part or, once that has answered, in the rest. -/
theorem bind_eq_error_iff
    {ε α β : Type}
    {first : Except ε α}
    {next : α → Except ε β}
    {reason : ε} :
    (first >>= next) = .error reason ↔
      first = .error reason ∨ ∃ answer, first = .ok answer ∧ next answer = .error reason := by
  cases first with
  | error other => simp [bind, Except.bind]
  | ok answer => simp [bind, Except.bind]

/-- A mapped computation succeeds if the computation does. -/
theorem map_eq_ok_iff
    {ε α β : Type}
    {computation : Except ε α}
    {change : α → β}
    {result : β} :
    (change <$> computation) = .ok result ↔
      ∃ answer, computation = .ok answer ∧ change answer = result := by
  cases computation with
  | error reason => simp [Functor.map, Except.map]
  | ok answer => simp [Functor.map, Except.map]

theorem map_eq_error_iff
    {ε α β : Type}
    {computation : Except ε α}
    {change : α → β}
    {reason : ε} :
    (change <$> computation) = .error reason ↔ computation = .error reason := by
  cases computation with
  | error other => simp [Functor.map, Except.map]
  | ok answer => simp [Functor.map, Except.map]

/-- A computation for each element of a list succeeds if all of them do. -/
theorem mapM_eq_ok_iff
    {ε α β : Type}
    {computation : α → Except ε β}
    {list : List α}
    {answers : List β} :
    list.mapM computation = .ok answers ↔
      List.Forall₂ (fun element answer => computation element = .ok answer) list answers := by
  induction list generalizing answers with
  | nil =>
    cases answers with
    | nil => simp [pure, Except.pure]
    | cons answer answers => simp [pure, Except.pure]
  | cons head tail step =>
    rw [List.mapM_cons, bind_eq_ok_iff]
    constructor
    · rintro ⟨answer, first, rest⟩
      obtain ⟨others, later, rest⟩ := bind_eq_ok_iff.1 rest
      cases rest
      exact .cons first (step.1 later)
    · intro all
      cases all with
      | cons first rest =>
        refine ⟨_, first, ?_⟩
        rw [bind_eq_ok_iff]
        exact ⟨_, step.2 rest, rfl⟩

theorem mapM_isOk
    {ε α β : Type}
    {computation : α → Except ε β}
    {list : List α}
    (each : ∀ element ∈ list, ∃ answer, computation element = .ok answer) :
    ∃ answers, list.mapM computation = .ok answers := by
  induction list with
  | nil => exact ⟨[], rfl⟩
  | cons head tail step =>
    obtain ⟨answer, first⟩ := each head List.mem_cons_self
    obtain ⟨answers, rest⟩ := step fun element member =>
      each element (List.mem_cons_of_mem _ member)
    rw [List.mapM_cons]
    exact ⟨answer :: answers, bind_eq_ok_iff.2
      ⟨answer, first, bind_eq_ok_iff.2 ⟨answers, rest, rfl⟩⟩⟩

/-- A computation for each element that fails has failed at one of them. -/
theorem exists_of_mapM_eq_error
    {ε α β : Type}
    {computation : α → Except ε β}
    {list : List α}
    {reason : ε}
    (failed : list.mapM computation = .error reason) :
    ∃ element ∈ list, computation element = .error reason := by
  induction list with
  | nil => cases failed
  | cons head tail step =>
    rw [List.mapM_cons, bind_eq_error_iff] at failed
    rcases failed with first | ⟨answer, -, rest⟩
    · exact ⟨head, List.mem_cons_self, first⟩
    · rcases bind_eq_error_iff.1 rest with later | ⟨answers, -, last⟩
      · obtain ⟨other, member, stopped⟩ := step later
        exact ⟨other, List.mem_cons_of_mem _ member, stopped⟩
      · cases last

/-- Checks on all elements of a list succeed if each of them does. -/
theorem forM_eq_ok_iff
    {ε α : Type}
    {computation : α → Except ε Unit}
    {list : List α} :
    list.forM computation = .ok () ↔ ∀ element ∈ list, computation element = .ok () := by
  induction list with
  | nil => simp [pure, Except.pure]
  | cons head tail step =>
    rw [List.forM_eq_forM, List.forM_cons, bind_eq_ok_iff, List.forall_mem_cons]
    exact ⟨fun ⟨_, first, rest⟩ => ⟨first, step.1 rest⟩,
      fun ⟨first, rest⟩ => ⟨(), first, step.2 rest⟩⟩

/-- A check of each element that fails has failed at one of them. -/
theorem exists_of_forM_eq_error
    {ε α : Type}
    {computation : α → Except ε Unit}
    {list : List α}
    {reason : ε}
    (failed : list.forM computation = .error reason) :
    ∃ element ∈ list, computation element = .error reason := by
  induction list with
  | nil => cases failed
  | cons head tail step =>
    rw [List.forM_eq_forM, List.forM_cons, bind_eq_error_iff] at failed
    rcases failed with first | ⟨-, -, later⟩
    · exact ⟨head, List.mem_cons_self, first⟩
    · obtain ⟨other, member, stopped⟩ := step later
      exact ⟨other, List.mem_cons_of_mem _ member, stopped⟩

/-! ## Lists related one by one -/

/-- Every element on the left is related to one on the right. -/
theorem exists_of_forall₂
    {α β : Type}
    {related : α → β → Prop}
    {left : List α}
    {right : List β}
    (all : List.Forall₂ related left right) :
    ∀ element ∈ left, ∃ other ∈ right, related element other := by
  induction all with
  | nil => exact fun _ absent => absurd absent List.not_mem_nil
  | cons first _ step =>
    intro element member
    rcases List.mem_cons.1 member with rfl | member
    · exact ⟨_, List.mem_cons_self, first⟩
    · obtain ⟨other, found, holds⟩ := step element member
      exact ⟨other, List.mem_cons_of_mem _ found, holds⟩

/-- What stands at a place on the left is related to what stands there on the right. -/
theorem getElem?_of_forall₂
    {α β : Type}
    {related : α → β → Prop}
    {left : List α}
    {right : List β}
    (all : List.Forall₂ related left right)
    {index : Nat}
    {element : α}
    (found : left[index]? = some element) :
    ∃ other, right[index]? = some other ∧ related element other := by
  obtain ⟨inside, rfl⟩ := List.getElem?_eq_some_iff.1 found
  have insideRight : index < right.length := by
    rw [← all.length_eq]
    exact inside
  exact ⟨right[index], List.getElem?_eq_getElem insideRight, all.get inside insideRight⟩

/-- A relation may be replaced by one that follows from it for the elements of the list. -/
theorem forall₂_of_mem
    {α β : Type}
    {related other : α → β → Prop}
    {left : List α}
    {right : List β}
    (all : List.Forall₂ related left right)
    (implies : ∀ element ∈ left, ∀ answer, related element answer → other element answer) :
    List.Forall₂ other left right := by
  induction all with
  | nil => exact .nil
  | cons first _ step =>
    exact .cons (implies _ List.mem_cons_self _ first)
      (step fun element member => implies element (List.mem_cons_of_mem _ member))

/-! ## Actions -/

section

variable {ε σ α β : Type}

/-- What holds after an action that starts in a given state, whether it answers or fails. -/
def Ends
    (action : EStateM ε σ α)
    (before : σ)
    (done : α → σ → Prop)
    (failed : ε → σ → Prop) : Prop :=
  match action before with
  | .ok answer after => done answer after
  | .error reason after => failed reason after

namespace Ends

variable
    {before : σ}
    {done : α → σ → Prop}
    {failed : ε → σ → Prop}
    {action : EStateM ε σ α}

theorem mono
    {otherDone : α → σ → Prop}
    {otherFailed : ε → σ → Prop}
    (ends : Ends action before done failed)
    (ofDone : ∀ answer after, done answer after → otherDone answer after)
    (ofFailed : ∀ reason after, failed reason after → otherFailed reason after) :
    Ends action before otherDone otherFailed := by
  unfold Ends at ends ⊢
  split
  next answer after outcome =>
    rw [outcome] at ends
    exact ofDone answer after ends
  next reason after outcome =>
    rw [outcome] at ends
    exact ofFailed reason after ends

theorem and
    {otherDone : α → σ → Prop}
    {otherFailed : ε → σ → Prop}
    (ends : Ends action before done failed)
    (others : Ends action before otherDone otherFailed) :
    Ends action before (fun answer after => done answer after ∧ otherDone answer after)
      (fun reason after => failed reason after ∧ otherFailed reason after) := by
  unfold Ends at ends others ⊢
  split
  next answer after outcome =>
    rw [outcome] at ends others
    exact ⟨ends, others⟩
  next reason after outcome =>
    rw [outcome] at ends others
    exact ⟨ends, others⟩

/-- How the action went may be remembered. -/
theorem outcome
    (ends : Ends action before done failed) :
    Ends action before (fun answer after => action before = .ok answer after ∧ done answer after)
      failed := by
  unfold Ends at ends ⊢
  split
  next answer after outcome =>
    rw [outcome] at ends
    exact ⟨outcome, ends⟩
  next reason after outcome =>
    rw [outcome] at ends
    exact ends

/-- What holds after an action that answered. -/
theorem of_ok
    {answer : α}
    {after : σ}
    (ends : Ends action before done failed)
    (outcome : action before = .ok answer after) :
    done answer after := by
  unfold Ends at ends
  rwa [outcome] at ends

/-- What holds after an action that failed. -/
theorem of_error
    {reason : ε}
    {after : σ}
    (ends : Ends action before done failed)
    (outcome : action before = .error reason after) :
    failed reason after := by
  unfold Ends at ends
  rwa [outcome] at ends

end Ends

variable
    {before : σ}
    {done : β → σ → Prop}
    {failed : ε → σ → Prop}

@[simp]
theorem ends_pure_iff
    {answer : β} :
    Ends (pure answer) before done failed ↔ done answer before := Iff.rfl

@[simp]
theorem ends_throw_iff
    {reason : ε} :
    Ends (throw reason) before done failed ↔ failed reason before := Iff.rfl

/-- After a sequence holds what holds of the second part wherever the first one ends. -/
@[simp]
theorem ends_bind_iff
    {first : EStateM ε σ α}
    {next : α → EStateM ε σ β} :
    Ends (first >>= next) before done failed ↔
      Ends first before (fun answer middle => Ends (next answer) middle done failed) failed := by
  simp only [Ends, bind, EStateM.bind]
  cases first before <;> rfl

@[simp]
theorem ends_map_iff
    {action : EStateM ε σ α}
    {change : α → β} :
    Ends (change <$> action) before done failed ↔
      Ends action before (fun answer after => done (change answer) after) failed := by
  simp only [Ends, Functor.map, EStateM.map]
  cases action before <;> rfl

@[simp]
theorem ends_get_iff
    {done : σ → σ → Prop} :
    Ends get before done failed ↔ done before before := Iff.rfl

@[simp]
theorem ends_modify_iff
    {done : PUnit → σ → Prop}
    {change : σ → σ} :
    Ends (modify change) before done failed ↔ done ⟨⟩ (change before) := Iff.rfl

@[simp]
theorem ends_modifyGet_iff
    {change : σ → β × σ} :
    Ends (modifyGet change) before done failed ↔
      done (change before).1 (change before).2 := Iff.rfl

/-- Actions that leave the state alone, one for each element of a list, do so together. -/
theorem ends_mapM
    {action : α → EStateM ε σ β}
    {holds : α → β → Prop}
    {failed : ε → σ → Prop}
    (list : List α)
    (each : ∀ element ∈ list,
      Ends (action element) before (fun answer after => after = before ∧ holds element answer)
        failed) :
    Ends (list.mapM action) before
      (fun answers after => after = before ∧ List.Forall₂ holds list answers) failed := by
  induction list with
  | nil => exact ⟨rfl, .nil⟩
  | cons head tail step =>
    rw [List.mapM_cons, ends_bind_iff]
    refine (each head List.mem_cons_self).mono ?_ fun _ _ same => same
    rintro answer after ⟨rfl, first⟩
    rw [ends_bind_iff]
    refine (step fun element member => each element (List.mem_cons_of_mem _ member)).mono ?_
      fun _ _ same => same
    rintro answers after ⟨rfl, rest⟩
    exact ⟨rfl, .cons first rest⟩

end

/-! ## Actions that keep a condition -/

section

variable
    {ε σ α β : Type}
    {holds : σ → Prop}

/-- However an action goes, the condition holds after it if it held before. -/
def Preserves (holds : σ → Prop) (action : EStateM ε σ α) : Prop :=
  ∀ before, holds before →
    Ends action before (fun _ after => holds after) (fun _ after => holds after)

namespace Preserves

theorem pure (answer : α) : Preserves holds (Pure.pure answer : EStateM ε σ α) :=
  fun _ before => before

theorem throw (reason : ε) : Preserves holds (MonadExcept.throw reason : EStateM ε σ α) :=
  fun _ before => before

theorem throw_bind
    {next : α → EStateM ε σ β}
    (reason : ε) :
    Preserves holds (MonadExcept.throw reason >>= next) :=
  fun _ before => before

theorem get : Preserves holds (MonadState.get : EStateM ε σ σ) :=
  fun _ before => before

theorem bind
    {first : EStateM ε σ α}
    {next : α → EStateM ε σ β}
    (here : Preserves holds first)
    (there : ∀ answer, Preserves holds (next answer)) :
    Preserves holds (first >>= next) := by
  intro state before
  rw [ends_bind_iff]
  exact (here state before).mono (fun answer middle => there answer middle) fun _ _ after => after

theorem map
    {action : EStateM ε σ α}
    {change : α → β}
    (preserves : Preserves holds action) :
    Preserves holds (change <$> action) := by
  intro state before
  rw [ends_map_iff]
  exact preserves state before

theorem mapM
    {action : α → EStateM ε σ β}
    (list : List α)
    (each : ∀ element, Preserves holds (action element)) :
    Preserves holds (list.mapM action) := by
  induction list with
  | nil => exact pure []
  | cons head tail step =>
    rw [List.mapM_cons]
    exact (each head).bind fun _ => step.bind fun _ => pure _

theorem forM
    {action : α → EStateM ε σ PUnit}
    (list : List α)
    (each : ∀ element, Preserves holds (action element)) :
    Preserves holds (list.forM action) := by
  induction list with
  | nil => exact pure PUnit.unit
  | cons head tail step => exact (each head).bind fun _ => step

theorem modifyGet
    {change : σ → α × σ}
    (kept : ∀ state, holds state → holds (change state).2) :
    Preserves holds (MonadStateOf.modifyGet change : EStateM ε σ α) :=
  fun state before => kept state before

theorem modify
    {change : σ → σ}
    (kept : ∀ state, holds state → holds (change state)) :
    Preserves holds (MonadStateOf.modifyGet fun state => (PUnit.unit, change state) :
      EStateM ε σ PUnit) :=
  fun state before => kept state before

end Preserves

end

end Elementwise
