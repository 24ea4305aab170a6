import Elementwise.Proofs.Buffer.Session
import Elementwise.Proofs.Element.Integers
import Elementwise.Proofs.Gradient.Interpretation
import Elementwise.Proofs.Script.Forward

/-!
# Running a script is running its records at every coordinate

A run of a valid script on the accelerator leaves in its output what its records give at
each coordinate, whatever their workspace holds.  The way past the kernel, on which a
script that does nothing but pass an input on becomes a copy of blocks, gives the same
where copying passes a value on.
-/

namespace Elementwise.Script

open Store

variable
    {α : Type}
    [Arithmetic α]
    {script : Script}
    {inputs : Array (Array α)}
    {coordinate : Nat}

/-- The records of a valid script have one result at a coordinate, whatever the workspace holds. -/
theorem exists_element
    (valid : script.validate = .ok ())
    (readable : Readable inputs script.data.length coordinate) :
    ∃ value, ∀ workspace : Array α, script.cacheSize ≤ workspace.size →
      ∃ rest, evalAt script.records inputs coordinate workspace = .ok (value, rest) := by
  obtain ⟨plan, planned, -⟩ := Plan.ofScript_eq_ok valid
  have roomy : script.cacheSize ≤ (zeros α script.cacheSize).size :=
    Nat.le_of_eq (size_zeros ..).symm
  obtain ⟨value, _, reference, -, -, swept, -, last⟩ :=
    Plan.runs_agree valid planned readable roomy (Trace.zeros_fits plan)
  refine ⟨value, fun workspace enough => ?_⟩
  obtain ⟨other, rest, trace, evaluated, -, sweptAgain, -, lastAgain⟩ :=
    Plan.runs_agree valid planned readable enough (Trace.zeros_fits plan)
  rw [swept] at sweptAgain
  cases sweptAgain
  rw [last] at lastAgain
  cases lastAgain
  exact ⟨rest, evaluated⟩

/-- A valid script that passes an input on is a copy of it to the output. -/
theorem records_of_passedSlot?
    (valid : script.validate = .ok ())
    {slot : Nat}
    (passed : script.passedSlot? = some slot) :
    script.records = [⟨.copy, .output, .data slot, none⟩] := by
  unfold passedSlot? at passed
  split at passed
  next result place right records =>
    cases passed
    have fits := (validate_eq_ok_iff.1 valid).2.2 [] _ [] records
    have output : result = .output := fits.output rfl
    have unary : right = none := by
      have arity : false = right.isSome := fits.arity
      exact Option.isNone_iff_eq_none.1 (by rw [← Option.not_isSome, ← arity]; rfl)
    rw [records, output, unary]
  · cases passed

/-- Where copying passes a value on, a script that passes an input on gives its elements. -/
theorem evalAt_of_passedSlot?
    (valid : script.validate = .ok ())
    {slot : Nat}
    (passed : script.passedSlot? = some slot)
    (copies : ∀ left right : α, Arithmetic.eval .copy left right = left)
    {values : Array α}
    (found : inputs[slot]? = some values)
    (inside : coordinate < values.size)
    (workspace : Array α) :
    evalAt script.records inputs coordinate workspace = .ok (values[coordinate], workspace) := by
  have place : (if values.size = 1 then 0 else coordinate) = coordinate := by
    split <;> omega
  have input : elementAt inputs slot = .ok values := elementAt_eq_ok_iff.2 found
  have element : broadcastGet values coordinate = .ok values[coordinate] := by
    rw [broadcastGet, place]
    exact elementAt_eq_ok_iff.2 (Array.getElem?_eq_getElem inside)
  rw [records_of_passedSlot? valid passed]
  simp only [evalAt, List.foldlM_cons, List.foldlM_nil, Scratch.step, Scratch.read,
    Scratch.read?, Scratch.write, input, element, copies, bind, Except.bind, pure, Except.pure]

/-- What a run of a valid script leaves are the results of its records, by either way. -/
theorem Leaves.element
    {views : List (Array α)}
    {length : Nat}
    {values : Array α}
    (leaves : Leaves script views length values)
    (valid : script.validate = .ok ())
    (copies : script.passedSlot? ≠ none → ∀ left right : α, Arithmetic.eval .copy left right = left)
    (readable : Readable views.toArray script.data.length coordinate)
    (inside : coordinate < length)
    {workspace : Array α}
    (enough : script.cacheSize ≤ workspace.size) :
    ∃ value rest, evalAt script.records views.toArray coordinate workspace = .ok (value, rest) ∧
      values[coordinate]? = some value := by
  rcases leaves.elements with ⟨slot, passed, found⟩ | elements
  · have within : coordinate < values.size := leaves.size.symm ▸ inside
    refine ⟨values[coordinate], workspace, ?_, Array.getElem?_eq_getElem within⟩
    exact evalAt_of_passedSlot? valid passed (copies (by rw [passed]; rintro ⟨⟩))
      (by simpa using found) within workspace
  · obtain ⟨value, results⟩ := exists_element valid readable
    obtain ⟨initial, next, other, size, evaluated, held⟩ := elements coordinate inside
    obtain ⟨rest, again⟩ := results initial (Nat.le_of_eq size.symm)
    rw [again] at evaluated
    cases evaluated
    obtain ⟨rest, here⟩ := results workspace enough
    exact ⟨value, rest, here, held⟩

/-- Data as long as the output, or of one element, has an element for every coordinate. -/
theorem readable_of_lengths
    {store : Store α}
    (valid : store.Valid)
    {data : List BufferId}
    {views : List (Array α)}
    (viewed : List.Forall₂ (fun buffer values => store.reading? buffer = some values) data views)
    {length : Nat}
    (lengths : ∀ buffer ∈ data, ∃ held, store.claim? buffer = some held ∧
      (held.length = 1 ∨ held.length = length))
    (inside : coordinate < length) :
    Readable views.toArray data.length coordinate := by
  intro slot within
  have there : slot < views.length := viewed.length_eq ▸ within
  have reads : store.reading? data[slot] = some views[slot] := viewed.get within there
  obtain ⟨held, claimed, long⟩ := lengths _ (List.getElem_mem within)
  obtain ⟨values, readsAgain, size⟩ := exists_reading valid claimed
  rw [reads] at readsAgain
  cases readsAgain
  refine ⟨views[slot], by simp [there], ?_⟩
  rcases long with single | same
  · exact .inl (size.trans single)
  · exact .inr (by rw [size, same]; exact inside)

/--
A valid script is run over data of the output's length or of one element.  A run that
answers leaves in the output, at every coordinate, what the records give on the data, in
every workspace that is large enough; a run that is refused leaves the output as it was.
Nothing else is changed by either.
-/
theorem forward_pointwise
    {store : Store α}
    (stored : store.Valid)
    (valid : script.validate = .ok ())
    {data : List BufferId}
    (supplied : data.length = script.data.length)
    {output : BufferId}
    {held : Claim}
    (claimed : store.claim? output = some held)
    (lengths : ∀ buffer ∈ data, ∃ other, store.claim? buffer = some other ∧
      (other.length = 1 ∨ other.length = held.length))
    (apart : output ∉ data)
    (copies : script.passedSlot? ≠ none →
      ∀ left right : α, Arithmetic.eval .copy left right = left) :
    (∀ after, script.forward data output store = .ok () after →
      ∃ views values,
        List.Forall₂ (fun buffer values => store.reading? buffer = some values) data views ∧
        after.reading? output = some values ∧ values.size = held.length ∧
        (∀ coordinate < held.length, ∀ workspace : Array α, script.cacheSize ≤ workspace.size →
          ∃ value rest,
            evalAt script.records views.toArray coordinate workspace = .ok (value, rest) ∧
            values[coordinate]? = some value) ∧
        (∀ buffer ∈ data, after.reading? buffer = store.reading? buffer) ∧
        ∀ buffer, buffer ≠ output → after.reading? buffer = store.reading? buffer) ∧
    ∀ reason after, script.forward data output store = .error reason after →
      ∀ buffer, after.reading? buffer = store.reading? buffer := by
  have ends : Ends (script.forward data output) store _ _ := ends_forward stored claimed
  unfold Ends at ends
  constructor
  · intro after done
    rw [done] at ends
    obtain ⟨frame, views, values, viewed, leaves, reads⟩ := ends
    have kept : ∀ buffer, buffer ≠ output → after.reading? buffer = store.reading? buffer :=
      fun buffer different => frame.readings buffer (Set.notMem_empty _) different
    refine ⟨views, values, viewed, reads, leaves.size, ?_, fun buffer member => ?_, kept⟩
    · intro coordinate inside workspace enough
      have readable := readable_of_lengths stored viewed lengths inside
      rw [supplied] at readable
      exact leaves.element valid copies readable inside enough
    · exact kept buffer fun same => apart (same ▸ member)
  · intro reason after failed buffer
    rw [failed] at ends
    exact ends.readings buffer (Set.notMem_empty _) (Set.notMem_empty _)

/-- Two inputs, room for an output, and a buffer that has half of the accelerator. -/
def occupied : Store.Session Int :=
  (Session.start 6 ⟨0⟩ [] fun _ _ => none).run
    [.allocateFrom #[3, 1], .allocateFrom #[5], .allocate 2, .allocateFrom #[7, 8, 9],
      .ensure 3 .accelerator]

/-- The script runs though another buffer has to make room, and that one reads as before. -/
theorem forward_pointwise_occupied :
    ∃ after, Plan.recycling.forward [⟨0⟩, ⟨1⟩] ⟨2⟩ occupied.store = .ok () after ∧
      after.reading? ⟨2⟩ = some #[-126, -6] ∧ after.reading? ⟨3⟩ = some #[7, 8, 9] := by
  have reached : (Session.start 6 ⟨0⟩ [] fun _ _ => none).run
    [.allocateFrom #[3, 1], .allocateFrom #[5], .allocate 2, .allocateFrom #[7, 8, 9],
      .ensure 3 .accelerator] = occupied := rfl
  have sound := Session.sound_of_run reached
  obtain ⟨after, done⟩ : ∃ after,
      Plan.recycling.forward [⟨0⟩, ⟨1⟩] ⟨2⟩ occupied.store = .ok () after := ⟨_, by cbv⟩
  obtain ⟨answers, -⟩ := forward_pointwise sound.accounted.valid
    (show Plan.recycling.validate = .ok () from rfl) (show [⟨0⟩, ⟨1⟩].length = 2 from rfl)
    (show occupied.store.claim? ⟨2⟩ = some ⟨2, 1, 0⟩ by decide +kernel)
    (by
      intro buffer member
      rcases List.mem_cons.1 member with rfl | member
      · exact ⟨⟨2, 1, 0⟩, by decide +kernel, .inr rfl⟩
      · obtain rfl := List.mem_singleton.1 member
        exact ⟨⟨1, 1, 0⟩, by decide +kernel, .inl rfl⟩)
    (by decide) fun _ _ _ => rfl
  obtain ⟨views, values, viewed, reads, size, elements, -, others⟩ := answers after done
  obtain rfl : views = [#[3, 1], #[5]] := by
    have known : List.Forall₂ (fun buffer values => occupied.store.reading? buffer = some values)
        [⟨0⟩, ⟨1⟩] [#[3, 1], #[5]] :=
      .cons (by decide +kernel) (.cons (by decide +kernel) .nil)
    exact List.right_unique_forall₂'
      (fun _ _ _ reads again => Option.some.inj (reads.symm.trans again)) viewed known
  obtain ⟨first, _, evaluated, found⟩ := elements 0 (by decide) #[0, 0] (by decide)
  obtain ⟨second, _, evaluatedAgain, foundAgain⟩ := elements 1 (by decide) #[0, 0] (by decide)
  cases evaluated
  cases evaluatedAgain
  have both : values = #[-126, -6] := by
    refine Array.ext size fun index inside _ => Option.some.inj ?_
    rw [size] at inside
    rw [← Array.getElem?_eq_getElem, ← Array.getElem?_eq_getElem]
    interval_cases index
    · exact found
    · exact foundAgain
  refine ⟨after, done, reads.trans (congrArg some both), ?_⟩
  rw [others ⟨3⟩ (by decide)]
  decide +kernel

end Elementwise.Script
