import Elementwise.Script.Validity

/-!
# What a valid script is

The checker walks over the records with a list of the cache slots written so
far.  Here its verdict is said record by record: a script is valid exactly if
it names one node for each of its records, of which there is at least one,
and every record reads populated slots only and writes where it may, given
what the records before it have written.
-/

namespace Elementwise.Script

/-- The cache slots written by records, and those written before. -/
def writtenAfter (written : List Nat) (records : List Record) : List Nat :=
  records.foldl (fun written record => writtenBy record written) written

@[simp]
theorem writtenAfter_nil (written : List Nat) : writtenAfter written [] = written := rfl

@[simp]
theorem writtenAfter_cons
    (written : List Nat)
    (record : Record)
    (records : List Record) :
    writtenAfter written (record :: records) =
      writtenAfter (writtenBy record written) records := rfl

theorem writtenAfter_append
    (written : List Nat)
    (first second : List Record) :
    writtenAfter written (first ++ second) =
      writtenAfter (writtenAfter written first) second :=
  List.foldl_append

/-- What a record must be like in its place, given the slots written before. -/
structure Fits
    (dataSlots cacheSize : Nat)
    (written : List Nat)
    (last : Bool)
    (record : Record) : Prop where
  arity : record.opcode.isBinary = record.right.isSome
  populated : ∀ slot ∈ record.operands, isPopulated dataSlots written slot
  /-- The last record writes the output. -/
  output : last = true → record.result = .output
  /-- Any other record writes a cache slot. -/
  cache : last = false → ∃ index < cacheSize, record.result = .cache index

theorem recordDefect_eq_none_iff
    {dataSlots cacheSize : Nat}
    {written : List Nat}
    {last : Bool}
    {record : Record} :
    recordDefect dataSlots cacheSize written last record = none ↔
      Fits dataSlots cacheSize written last record := by
  unfold recordDefect
  constructor
  · intro fine
    split at fine
    · cases fine
    next arity =>
      split at fine
      · cases fine
      next populated =>
        have all : ∀ slot ∈ record.operands, isPopulated dataSlots written slot := by
          intro slot member
          simpa using List.find?_eq_none.1 populated slot member
        refine ⟨by simpa using arity, all, ?_, ?_⟩
        · rintro rfl
          split at fine
          · assumption
          · simp_all
          · cases fine
        · rintro rfl
          split at fine
          · simp_all
          next index result _ =>
            split at fine
            next inside => exact ⟨index, inside, result⟩
            · cases fine
          · cases fine
  · intro fits
    have populated : record.operands.find? (!isPopulated dataSlots written ·) = none := by
      rw [List.find?_eq_none]
      intro slot member
      simp [fits.populated slot member]
    rw [if_neg (by simp [fits.arity]), populated]
    cases last with
    | true => simp [fits.output rfl]
    | false =>
      obtain ⟨index, inside, result⟩ := fits.cache rfl
      simp [result, inside]

theorem Fits.mono
    {dataSlots cacheSize moreData moreCache : Nat}
    {written : List Nat}
    {last : Bool}
    {record : Record}
    (fits : Fits dataSlots cacheSize written last record)
    (data : dataSlots ≤ moreData)
    (cache : cacheSize ≤ moreCache) :
    Fits moreData moreCache written last record where
  arity := fits.arity
  populated slot member := by
    have old := fits.populated slot member
    cases slot with
    | data index =>
      have inside : index < dataSlots := by simpa [isPopulated] using old
      simpa [isPopulated] using Nat.lt_of_lt_of_le inside data
    | cache index => exact old
    | output => exact old
  output := fits.output
  cache notLast := by
    obtain ⟨index, inside, result⟩ := fits.cache notLast
    exact ⟨index, Nat.lt_of_lt_of_le inside cache, result⟩

/-- The checker accepts records that each fit after what precedes them. -/
theorem validateFrom_eq_ok_iff
    {dataSlots cacheSize : Nat}
    (index : Nat)
    (written : List Nat)
    (records : List Record) :
    validateFrom dataSlots cacheSize index written records = .ok () ↔
      ∀ before record after, records = before ++ record :: after →
        Fits dataSlots cacheSize (writtenAfter written before) after.isEmpty record := by
  induction records generalizing index written with
  | nil => simp [validateFrom]
  | cons first rest step =>
    rw [validateFrom]
    constructor
    · intro accepted before record after split
      split at accepted
      · cases accepted
      next fine =>
        cases before with
        | nil =>
          obtain ⟨rfl, rfl⟩ : first = record ∧ rest = after := by simpa using split
          exact recordDefect_eq_none_iff.1 fine
        | cons head before =>
          obtain ⟨rfl, rfl⟩ : first = head ∧ rest = before ++ record :: after := by
            simpa using split
          exact (step _ _).1 accepted before record after rfl
    · intro fits
      have head := recordDefect_eq_none_iff.2 (fits [] first rest rfl)
      rw [writtenAfter_nil] at head
      rw [head]
      refine (step _ _).2 fun before record after split => ?_
      exact fits (first :: before) record after (by rw [split]; rfl)

/-- A script is valid if its records fit and each of them has a node. -/
theorem validate_eq_ok_iff {script : Script} :
    script.validate = .ok () ↔
      script.records ≠ [] ∧
      script.nodes.length = script.records.length ∧
      ∀ before record after, script.records = before ++ record :: after →
        Fits script.data.length script.cacheSize (writtenAfter [] before)
          after.isEmpty record := by
  unfold validate
  rw [← validateFrom_eq_ok_iff 0 [] script.records]
  by_cases empty : script.records = []
  · simp [empty]
  · by_cases step : script.nodes.length = script.length
    · have sameLength : script.nodes.length = script.records.length := step
      simp [empty, step, ← sameLength]
    · have different : ¬ script.nodes.length = script.records.length := step
      simp [empty, step, different]

end Elementwise.Script
