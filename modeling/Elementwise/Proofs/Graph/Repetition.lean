import Elementwise.Proofs.Graph.Fitting

/-!
# Operations that are repeated after a failure

Two graphs that both resume a third one have the same values.  Their nodes have the
same buffers, except for those that each of them got since, which nobody leases.  So
what an operation leases, and what it reads, is the same in both.  A node that is up to
date in one of them only need not be computed there, but can be in the other one.

An operation that failed leaves a graph that resumes the one before.  On an
accelerator that does not fail any more, and whatever leases have ended since, the
operation then ends as it would have ended on the graph before: it answers the same, or
is refused for the same cause.  What it tries to set free before it is refused for lack
of room may differ, since the operation that failed may have moved buffers off already.
-/

namespace Elementwise.Graph

open Store (Corresponds Level)

variable
    {α β : Type}
    [Element α]
    {make : Make}
    {pins : BufferId → Nat}
    {origin graph left right : Graph α}
    {output node : NodeId}
    {part : Part}
    {buffer other : BufferId}

/-! ## Graphs that go on from the same one -/

/-- A graph resumes another one, and the books of both are right. -/
structure Continues (make : Make) (pins : BufferId → Nat) (origin graph : Graph α) : Prop where
  resumes : origin.Resumes graph
  validBefore : origin.Valid pins
  accountedBefore : origin.store.Accounted make ∅
  valid : graph.Valid pins
  accounted : graph.store.Accounted make ∅

namespace Continues

theorem refl
    (valid : graph.Valid pins)
    (accounted : graph.store.Accounted make ∅) :
    Continues make pins graph graph :=
  ⟨.refl graph, valid, accounted, valid, accounted⟩

theorem here (continues : Continues make pins origin graph) : Continues make pins origin origin :=
  .refl continues.validBefore continues.accountedBefore

/-- An operation that changes nothing that was known before. -/
theorem ends
    {action : Action α β}
    {failed : Error → Graph α → Prop}
    (continues : Continues make pins origin graph)
    (ends : Ends action graph (fun _ after => graph.Resumes after ∧ after.Valid pins) failed)
    (within : ∀ quota, Preserves (OnStore (Store.Within make quota)) action) :
    Ends action graph (fun _ after => Continues make pins origin after) failed := by
  refine (ends.and (within _ graph continues.accounted.within)).mono ?_
    fun _ _ failed => failed.1
  rintro _ after ⟨⟨resumes, valid⟩, books⟩
  exact
    { resumes := continues.resumes.trans continues.valid resumes
      validBefore := continues.validBefore
      accountedBefore := continues.accountedBefore
      valid := valid
      accounted := books.accounted }

section

variable
    (first : Continues make pins origin left)
    (second : Continues make pins origin right)

include first second

theorem alike : left.arena.Alike right.arena :=
  fun node => (second.resumes.arena node).trans (first.resumes.arena node).symm

theorem level : Level make left.store right.store where
  accounted := first.accounted
  accountedOther := second.accounted
  extent :=
    (second.resumes.store.level second.accountedBefore second.accounted).extent.trans
      (first.resumes.store.level first.accountedBefore first.accounted).extent.symm

/-- The buffers of a node stand for each other. -/
theorem corresponds
    (owned : left.arena.bufferOf? node part = some buffer)
    (ownedOther : right.arena.bufferOf? node part = some other) :
    Corresponds left.store right.store buffer other := by
  cases known : origin.arena.bufferOf? node part with
  | some found =>
    obtain rfl := first.resumes.buffer_eq known owned
    obtain rfl := second.resumes.buffer_eq known ownedOther
    obtain ⟨size, claimed⟩ := first.validBefore.exists_claim known
    exact first.resumes.store.corresponds_both second.resumes.store claimed
  | none =>
    -- a buffer that was made since is leased by nobody, and as long as the node says
    have unowned : ∀ found, origin.arena.bufferOf? node part ≠ some found := by simp [known]
    have idle := (first.resumes.fresh node part buffer owned).resolve_left (unowned buffer)
    have idleOther :=
      (second.resumes.fresh node part other ownedOther).resolve_left (unowned other)
    obtain ⟨shape, size, shaped, sized⟩ := first.valid.exists_size (index_lt_of_bufferOf? owned)
    have claimed := first.valid.claims node part buffer shape size owned shaped sized
    have claimedOther := second.valid.claims node part other shape size ownedOther
      ((congrFun (first.alike second).shape? node).trans shaped) sized
    have unpinned : pins buffer = 0 := (Store.leasesOf_of_claim claimed).symm.trans idle
    have unpinnedOther : pins other = 0 :=
      (Store.leasesOf_of_claim claimedOther).symm.trans idleOther
    rw [unpinned] at claimed
    rw [unpinnedOther] at claimedOther
    exact ⟨.held size 0, claimed, claimedOther, fun leased => absurd leased (Nat.lt_irrefl 0)⟩

/-- A node that is up to date in both reads the same. -/
theorem reading?_eq
    (current : left.arena.IsCurrent node)
    (currentOther : right.arena.IsCurrent node)
    (owned : left.arena.bufferOf? node .content = some buffer)
    (ownedOther : right.arena.bufferOf? node .content = some other) :
    right.store.reading? other = left.store.reading? buffer := by
  by_cases already : origin.arena.IsCurrent node
  · obtain ⟨found, known⟩ := first.validBefore.current node already
    obtain rfl := first.resumes.buffer_eq known owned
    obtain rfl := second.resumes.buffer_eq known ownedOther
    rw [first.resumes.readings node .content found known fun _ => already,
      second.resumes.readings node .content found known fun _ => already]
  · have inside := index_lt_of_bufferOf? owned
    obtain ⟨shape, size, shaped, sized⟩ := first.valid.exists_size inside
    rw [first.resumes.arena.size] at inside
    rw [first.resumes.computed node buffer shape size current already owned shaped sized,
      second.resumes.computed node other shape size currentOther already ownedOther
        ((congrFun (first.alike second).shape? node).trans shaped) sized,
      first.resumes.meaning first.validBefore inside,
      second.resumes.meaning first.validBefore inside]

/-- The leaves are the same in both. -/
theorem paired : Paired make pins left right where
  valid := first.valid
  validOther := second.valid
  arena := first.alike second
  config := second.resumes.config.trans first.resumes.config.symm
  level := first.level second
  leaves leaf buffer isLeaf owned := by
    have wasLeaf : origin.arena.operation? leaf = some .leaf :=
      (congrFun first.resumes.arena.operation? leaf).symm.trans isLeaf
    have current := first.validBefore.leaves leaf wasLeaf
    obtain ⟨found, known⟩ := first.validBefore.current leaf current
    obtain rfl := first.resumes.buffer_eq known owned
    have ownedOther := second.resumes.owned leaf .content found known
    exact ⟨ownedOther, first.corresponds second owned ownedOther,
      first.reading?_eq second (first.resumes.current leaf current)
        (second.resumes.current leaf current) owned ownedOther⟩

end

end Continues

/-! ## Construction -/

omit [Element α] in
/-- A leaf is refused just if it has not as many values as its shape says. -/
theorem follows_leaf
    (alike : left.arena.Alike right.arena)
    (shape : Shape)
    (values : Array α)
    (trainable : Bool) :
    Follows (leaf shape values trainable) (leaf shape values trainable) left right
      fun answer again _ _ => again = answer := by
  have size := alike.size
  unfold leaf
  refine follows_bind (follows_check fun count _ => ?_)
  dsimp only
  split
  · exact follows_throw_bind
  · cases trainable with
    | true => exact inStep_of_ok rfl rfl (congrArg NodeId.mk size)
    | false => exact inStep_of_ok rfl rfl (congrArg NodeId.mk size)

omit [Element α] in
/-- An operation is found at the same node, or gets the same new one. -/
theorem follows_intern
    {operation : Operation}
    {shape shapeOther : Shape}
    {needsGradient needsGradientOther : Bool}
    (alike : left.arena.Alike right.arena)
    (interned : right.interned = left.interned) :
    Follows (intern operation shape needsGradient) (intern operation shapeOther needsGradientOther)
      left right fun answer again _ _ => again = answer := by
  unfold intern
  refine follows_bind (follows_get ?_)
  rw [interned]
  split
  · exact follows_pure rfl
  · exact inStep_of_ok rfl rfl (congrArg NodeId.mk alike.size)

omit [Element α] in
/-- An operation is created from operands that have the same shapes. -/
theorem follows_create
    (alike : left.arena.Alike right.arena)
    (interned : right.interned = left.interned)
    (opcode : OpCode)
    (operands : List NodeId) :
    Follows (create opcode operands) (create opcode operands) left right
      fun answer again _ _ => again = answer := by
  unfold create
  dsimp only
  split
  · exact follows_throw_bind
  · split
    · exact follows_throw_bind
    · split
      · refine follows_bind (follows_node alike _ fun found other _ _ _ => ?_)
        exact follows_intern alike interned
      · refine follows_bind (follows_node alike _ fun found other _ _ core => ?_)
        refine follows_bind (follows_node alike _ fun second secondOther _ _ coreSecond => ?_)
        have shape : other.shape = found.shape := congrArg (·.2.1) core
        have shapeSecond : secondOther.shape = second.shape := congrArg (·.2.1) coreSecond
        rw [shape, shapeSecond]
        refine follows_bind (follows_check fun shape _ => ?_)
        exact follows_intern alike interned
      · exact follows_throw

/-! ## Buffers of nodes -/

omit [Element α] in
theorem follows_content
    (owned : left.arena.bufferOf? node .content = some buffer)
    (ownedOther : right.arena.bufferOf? node .content = some other) :
    Follows (content node) (content node) left right
      fun answer again after afterwards => after = left ∧ afterwards = right ∧
        answer = buffer ∧ again = other :=
  follows_of_answers
    (ends_content_of_owned owned ⟨rfl, rfl⟩ : Ends (content node) left
      (fun answer after => after = left ∧ answer = buffer) fun _ _ => False)
    (ends_content_of_owned ownedOther ⟨rfl, rfl⟩ : Ends (content node) right
      (fun again afterwards => afterwards = right ∧ again = other) fun _ _ => False)
    fun _ _ _ _ here there => ⟨here.1, there.1, here.2, there.2⟩

omit [Element α] in
/-- The same nodes have the same gradients. -/
theorem follows_gradientBuffer
    (nodes : right.arena = left.arena)
    (target : NodeId) :
    Follows (gradientBuffer target) (gradientBuffer target) left right
      fun buffer other after afterwards => after = left ∧ afterwards = right ∧ other = buffer ∧
        left.arena.bufferOf? target .gradient = some buffer := by
  unfold gradientBuffer
  refine follows_bind (follows_node (nodes ▸ .refl left.arena) target
    fun found other present presentOther _ => ?_)
  rw [nodes, present] at presentOther
  cases presentOther
  cases stored : found.gradient? with
  | some buffer =>
    refine follows_pure ⟨rfl, rfl, rfl, ?_⟩
    rw [Arena.bufferOf?, present, Option.bind_some, stored]
  | none => exact follows_throw

/-! ## Evaluation -/

namespace Continues

/-- A node that is there is marked. -/
theorem ends_markOutput
    (continues : Continues make pins origin graph)
    (inside : output.index < graph.arena.size) :
    Ends (markOutput output) graph
      (fun _ marked => Continues make pins origin marked ∧ graph.arena.Alike marked.arena ∧
        (marked.arena.IsCurrent output ↔ graph.arena.IsCurrent output) ∧
        ∃ target, marked.arena.bufferOf? output .content = some target)
      fun _ _ => False :=
  ((continues.ends (ends_markOutput_resumes continues.valid output)
    fun _ => upheld_within.markOutput output).and
      ((Graph.ends_markOutput continues.valid output).and
      (ends_markOutput_of_inside continues.valid inside))).mono
        (fun _ _ ⟨marked, ⟨_, alike, flags, _, owned⟩, _⟩ => ⟨marked, alike, flags output, owned⟩)
        fun _ _ never => never.2.2

/-- A node that is there is brought up to date if it can be computed should it be out of date. -/
theorem ends_materialize_of_compute
    (continues : Continues make pins origin graph)
    (inside : output.index < graph.arena.size)
    (computes : ∀ marked target, Continues make pins origin marked →
      (marked.arena.IsCurrent output ↔ graph.arena.IsCurrent output) →
      marked.arena.bufferOf? output .content = some target → ¬ marked.arena.IsCurrent output →
      Ends
        (do
          let compiled ← script output
          let data ← dataBuffers compiled
          onStore (compiled.forward data target)
          modifyNode output ({ · with isCurrent := true })
          return target)
        marked (fun _ _ => True) fun _ _ => False) :
    Ends (materialize output) graph (fun _ _ => True) fun _ _ => False := by
  unfold materialize
  rw [ends_bind_iff]
  refine (continues.ends_markOutput inside).mono ?_ fun _ _ never => never
  rintro _ marked ⟨continues, -, flags, target, owned⟩
  rw [ends_bind_iff]
  refine ends_content_of_owned owned ?_
  obtain ⟨found, present, -⟩ := Option.bind_eq_some_iff.1 owned
  rw [ends_bind_iff]
  refine ends_node_of_present present ?_
  split
  next => trivial
  next notUpToDate =>
    exact computes marked target continues flags owned fun current =>
      notUpToDate ((Arena.isCurrent_iff present).1 current)

section

variable
    (first : Continues make pins origin left)
    (second : Continues make pins origin right)

include first second

/-- Both graphs mark the same outputs. -/
theorem follows_markOutput (output : NodeId) :
    Follows (markOutput output) (markOutput output) left right
      fun _ _ after afterwards =>
        (Continues make pins origin after ∧ Continues make pins origin afterwards) ∧
        ((after.arena.IsCurrent output ↔ left.arena.IsCurrent output) ∧
          (afterwards.arena.IsCurrent output ↔ right.arena.IsCurrent output)) ∧
        (∃ target, after.arena.bufferOf? output .content = some target) ∧
        ∃ target, afterwards.arena.bufferOf? output .content = some target := by
  have size := (first.alike second).size
  by_cases inside : output.index < left.arena.size
  · refine follows_of_answers (first.ends_markOutput inside)
      (second.ends_markOutput (size ▸ inside)) ?_
    rintro _ _ after afterwards ⟨continues, -, flags, owned⟩ ⟨again, -, flagsOther, ownedOther⟩
    exact ⟨⟨continues, again⟩, ⟨flags, flagsOther⟩, owned, ownedOther⟩
  · have refused : ∀ {graph : Graph α}, graph.arena.size = left.arena.size →
        Ends (markOutput output) graph (fun _ _ => False)
          fun reason _ => reason = .unknownNode output := by
      intro graph same
      unfold markOutput
      rw [ends_bind_iff]
      refine ends_node (fun found present => ?_) fun _ => rfl
      have there := (Arena.node?_isSome_iff output).1 (Option.isSome_of_eq_some present)
      exact absurd (same ▸ there) inside
    exact follows_of_refusals (refused rfl) (refused size)

/-- A node that is out of date in both graphs is computed in both. -/
theorem follows_compute
    (steady : make.Steady)
    (outdated : ¬ left.arena.IsCurrent output)
    (outdatedOther : ¬ right.arena.IsCurrent output)
    (owned : left.arena.bufferOf? output .content = some buffer)
    (ownedOther : right.arena.bufferOf? output .content = some other) :
    Follows
      (do
        let compiled ← script output
        let data ← dataBuffers compiled
        onStore (compiled.forward data buffer)
        modifyNode output ({ · with isCurrent := true })
        return buffer)
      (do
        let compiled ← script output
        let data ← dataBuffers compiled
        onStore (compiled.forward data other)
        modifyNode output ({ · with isCurrent := true })
        return other)
      left right fun _ _ _ _ => True := by
  have sameOutput := first.corresponds second owned ownedOther
  have computed : left.arena.operation? output ≠ some .leaf :=
    fun isLeaf => outdated (first.valid.leaves output isLeaf)
  refine follows_bind (((first.paired second).follows_script output).mono ?_)
  rintro _ compiled before beforeOther
    ⟨rfl, paired, sameArena, sameArenaOther, sameStore, sameStoreOther, properly, properlyOther⟩
  rw [← sameArena] at outdated owned properly computed
  rw [← sameArenaOther] at outdatedOther ownedOther properlyOther
  rw [← sameStore, ← sameStoreOther] at sameOutput
  refine follows_bind ((paired.follows_dataBuffers properly properlyOther).mono ?_)
  rintro _ data before beforeOther ⟨rfl, rfl, rfl, distinct, -, shared⟩
  have apart : buffer ∉ data := by
    intro member
    obtain ⟨-, -, leaf, isLeaf, ownedLeaf, -⟩ := shared buffer member
    exact content_ne_leaf paired.valid outdated owned isLeaf ownedLeaf rfl
  have apartOther : other ∉ data := by
    intro member
    obtain ⟨-, -, leaf, isLeaf, -, ownedLeaf⟩ := shared other member
    rw [← paired.arena.operation?] at isLeaf
    exact content_ne_leaf paired.validOther outdatedOther ownedOther isLeaf ownedLeaf rfl
  refine follows_bind (follows_onStore ((Script.follows_forward steady paired.level distinct apart
    apartOther (fun buffer member => (shared buffer member).1) sameOutput
    (fun buffer member => (shared buffer member).2.1)
    (properly.passedSlot?_eq_none paired.valid.arena.proper computed)).mono ?_))
  exact fun _ _ _ _ _ => follows_bind (follows_modify (follows_pure trivial))

/-- A node that is up to date in both graphs or in none ends alike in both. -/
theorem follows_materialize_agreeing
    (steady : make.Steady)
    (agree : left.arena.IsCurrent output ↔ right.arena.IsCurrent output) :
    Follows (materialize output) (materialize output) left right fun _ _ _ _ => True := by
  unfold materialize
  refine follows_bind ((first.follows_markOutput second output).mono ?_)
  rintro _ _ left right
    ⟨⟨first, second⟩, ⟨flags, flagsOther⟩, ⟨target, owned⟩, other, ownedOther⟩
  rw [← flags, ← flagsOther] at agree
  refine follows_bind ((follows_content owned ownedOther).mono ?_)
  rintro _ _ left right ⟨rfl, rfl, rfl, rfl⟩
  refine follows_bind (follows_node (first.alike second) output
    fun found foundOther present presentOther _ => ?_)
  rw [Arena.isCurrent_iff present, Arena.isCurrent_iff presentOther] at agree
  rw [← Bool.eq_iff_iff.2 agree]
  split
  next => exact follows_pure trivial
  next notUpToDate =>
    refine first.follows_compute second steady (fun current => ?_) (fun current => ?_) owned
      ownedOther
    · exact notUpToDate ((Arena.isCurrent_iff present).1 current)
    · exact notUpToDate (agree.2 ((Arena.isCurrent_iff presentOther).1 current))

/-- A node is computed if it is ready in a graph that continues the same one. -/
theorem ends_compute_of_ready
    {compiled : Script}
    {data : List BufferId}
    (steady : make.Steady)
    (ready : right.Ready make output compiled data other)
    (outdated : ¬ left.arena.IsCurrent output)
    (owned : left.arena.bufferOf? output .content = some buffer) :
    Ends
      (do
        let compiled ← script output
        let data ← dataBuffers compiled
        onStore (compiled.forward data buffer)
        modifyNode output ({ · with isCurrent := true })
        return buffer)
      left (fun _ _ => True) fun _ _ => False := by
  have inside := index_lt_of_bufferOf? owned
  obtain ⟨shape, size, shaped, sized⟩ := first.valid.exists_size inside
  have length : left.store.lengthOf buffer = size := by
    rw [lengthOf_of_bufferOf? first.valid owned, Arena.lengthOf_eq shaped sized]
  have sameScript := ready.compiles
  rw [(first.alike second).compile] at sameScript
  rw [ends_bind_iff]
  refine ((ends_script first.valid output).and (ends_script_of_inside first.valid inside)).mono ?_
    fun _ _ never => never.2
  rintro _ middle ⟨⟨kept, sameArena, sameStore, -, compiles, properly⟩, -⟩
  cases sameScript.symm.trans compiles
  rw [ends_bind_iff]
  refine (ends_dataBuffers_of_compiled kept.valid (sameArena ▸ properly)).mono ?_
    fun _ _ never => never
  rintro found middle ⟨rfl, ownedData⟩
  rw [sameArena] at ownedData
  have same : List.Forall₂ (Corresponds left.store right.store) (found ++ [buffer])
      (data ++ [other]) := by
    refine List.rel_append (List.forall₂_iff_get.2 ⟨?_, fun index here there => ?_⟩)
      (.cons (first.corresponds second owned ready.owned) .nil)
    · rw [← ownedData.length_eq, ready.ownedData.length_eq]
    · have slot := ownedData.length_eq ▸ here
      exact first.corresponds second (ownedData.get slot here) (ready.ownedData.get slot there)
  rw [ends_bind_iff, ends_onStore_iff, sameStore]
  refine (Script.ends_forward_of_fits first.accounted
    (nodup_forward first.valid properly ownedData owned outdated)
    (exists_claim_forward first.valid ownedData owned) steady ready.supported
    (ready.fits.of_corresponds (first.level second) same)
    (properly.passedSlot?_eq_none first.valid.arena.proper
      fun isLeaf => outdated (first.valid.leaves output isLeaf)) fun views viewed => ?_).mono ?_
        fun _ _ never => never
  · rw [length]
    exact rows_isOk first.valid properly shaped sized ownedData viewed
  · rintro _ store -
    rw [ends_bind_iff, ends_modifyNode_iff]
    trivial

end

section

variable
    (steady : make.Steady)
    (continues : Continues make pins left right)
    (readies : left.Readies make right)

include steady continues readies

/-- A node reads the same once it has been brought up to date in both graphs. -/
theorem follows_materialize (output : NodeId) :
    Follows (materialize output) (materialize output) left right
      fun target other after afterwards => Level make after.store afterwards.store ∧
        Corresponds after.store afterwards.store target other ∧
        afterwards.store.reading? other = after.store.reading? target := by
  have here := continues.here
  have follows : Follows (materialize output) (materialize output) left right
      fun _ _ _ _ => True := by
    by_cases outdated : left.arena.IsCurrent output
    · exact here.follows_materialize_agreeing continues steady
        ⟨continues.resumes.current output, fun _ => outdated⟩
    by_cases current : right.arena.IsCurrent output
    · obtain ⟨compiled, data, target, ready⟩ := (readies output current).resolve_left outdated
      have inside := index_lt_of_bufferOf? ready.owned
      refine follows_of_answers
        (here.ends_materialize_of_compute (continues.resumes.arena.size ▸ inside)
          fun marked buffer first _ owned stillOutdated =>
            first.ends_compute_of_ready continues steady ready stillOutdated owned)
        (continues.ends_materialize_of_compute inside fun marked _ _ flags _ stillOutdated =>
          absurd (flags.2 current) stillOutdated) fun _ _ _ _ _ _ => trivial
    · exact here.follows_materialize_agreeing continues steady
        ⟨fun already => absurd already outdated, fun already => absurd already current⟩
  have materializes : ∀ {graph : Graph α}, Continues make pins left graph →
      Ends (materialize output) graph
        (fun target after => Continues make pins left after ∧ after.arena.IsCurrent output ∧
          after.arena.bufferOf? output .content = some target)
        (fun _ _ => True) := fun continues =>
    ((continues.ends (ends_materialize_resumes continues.valid output)
      fun _ => upheld_within.materialize).and (ends_materialize continues.valid output)).mono
        (fun _ _ ⟨continues, _, _, computes⟩ => ⟨continues, computes.current,
          (computes.buffers output .content).trans computes.owned⟩)
        fun _ _ _ => trivial
  refine (follows.and_ends (materializes here) (materializes continues)).mono ?_
  rintro target other after afterwards
    ⟨-, ⟨first, current, owned⟩, second, currentOther, ownedOther⟩
  exact ⟨first.level second, first.corresponds second owned ownedOther,
    first.reading?_eq second current currentOther owned ownedOther⟩

/-- A node is read after it was brought up to date. -/
theorem follows_readOutput (output : NodeId) :
    Follows
      (do
        let target ← materialize output
        onStore (Store.read target))
      (do
        let target ← materialize output
        onStore (Store.read target))
      left right fun values again _ _ => again = values := by
  refine follows_bind ((follows_materialize steady continues readies output).mono ?_)
  rintro target other after afterwards ⟨level, corresponds, same⟩
  refine follows_onStore (((Store.follows_read steady level corresponds).and_ends
    (Store.ends_read level.accounted.valid) (Store.ends_read level.accountedOther.valid)).mono ?_)
  rintro values again _ _ ⟨-, ⟨-, reads⟩, -, readsOther⟩
  rw [same, reads] at readsOther
  exact (Option.some.inj readsOther).symm

theorem follows_valueAt
    (output : NodeId)
    (index : List Nat) :
    Follows (valueAt output index) (valueAt output index) left right
      fun value again _ _ => again = value := by
  have read := follows_readOutput steady continues readies output
  unfold valueAt
  refine follows_bind (follows_node continues.resumes.arena output fun found other _ _ core => ?_)
  have shape : other.shape = found.shape := congrArg (·.2.1) core
  rw [shape]
  refine follows_bind (follows_check fun flat _ => ?_)
  simp only [← bind_assoc]
  refine follows_bind (read.mono ?_)
  rintro values _ _ _ rfl
  split
  · exact follows_pure rfl
  · exact follows_throw

end

end Continues

/-! ## Scripts -/

theorem Continues.follows_compile
    (continues : Continues make pins left right)
    (output : NodeId) :
    Follows (compile output) (compile output) left right
      fun compiled again _ _ => again = compiled := by
  unfold compile
  refine follows_bind (follows_get ?_)
  rw [continues.resumes.arena.compile]
  exact follows_bind (follows_check fun compiled _ =>
    follows_bind (follows_modify (follows_pure rfl)))

/-! ## Training -/

/-- Values are moved against slopes where both correspond to others and read the same. -/
theorem follows_descend
    {store storeOther : Store α}
    {content gradient : BufferId}
    (steady : make.Steady)
    (level : Level make store storeOther)
    (apart : content ≠ gradient)
    (sameContent : Corresponds store storeOther content content)
    (sameGradient : Corresponds store storeOther gradient gradient)
    (readings : storeOther.reading? content = store.reading? content)
    (readingsGradient : storeOther.reading? gradient = store.reading? gradient)
    (rate : α) :
    Follows (descend content gradient rate) (descend content gradient rate) store storeOther
      fun _ _ _ _ => True := by
  show Follows (Store.withLeasesInOrder [content, gradient] _)
    (Store.withLeasesInOrder [content, gradient] _) store storeOther _
  have distinct : [content, gradient].Nodup :=
    List.nodup_cons.2 ⟨by simpa using apart, List.nodup_singleton _⟩
  refine Store.follows_withLeasesInOrder steady level (fun _ _ => True) ?_ distinct distinct
    (.cons sameContent (.cons sameGradient .nil))
  intro inside insideOther leased leasedOther level
  have there := leased.onAccelerator
  have thereOther := leasedOther.onAccelerator
  have second : gradient ∈ [content, gradient] := List.mem_cons_of_mem _ List.mem_cons_self
  refine follows_bind ((Store.follows_blockOf (there content List.mem_cons_self)
    (thereOther content List.mem_cons_self)).mono ?_)
  rintro values valuesOther _ _ ⟨rfl, rfl, read, readOther⟩
  refine follows_bind ((Store.follows_blockOf (there gradient second)
    (thereOther gradient second)).mono ?_)
  rintro slopes slopesOther inside insideOther ⟨rfl, rfl, readGradient, readGradientOther⟩
  have length : insideOther.lengthOf content = inside.lengthOf content := by
    rw [leasedOther.lengthOf, leased.lengthOf, sameContent.lengthOf]
  refine follows_bind ((Store.follows_find length (Store.exists_claim read)
    (Store.exists_claim readOther)).mono ?_)
  rintro found foundOther inside insideOther ⟨rfl, rfl, foundLength, sameLength⟩
  rw [sameLength]
  refine Store.follows_launch steady level (.cons read (.cons readGradient .nil)) read
    (.cons readOther (.cons readGradientOther .nil)) readOther (Nat.le_of_eq foundLength) ?_
    (.cons ?_ (.cons ?_ .nil))
  · rw [foundLength, length]
  · rw [leasedOther.readings, leased.readings, readings]
  · rw [leasedOther.readings, leased.readings, readingsGradient]

namespace Continues

variable (continues : Continues make pins left right)

include continues

/-- Buffers that were there before stand for themselves. -/
theorem corresponds_self
    (owned : left.arena.bufferOf? node part = some buffer) :
    Corresponds left.store right.store buffer buffer :=
  continues.here.corresponds continues owned (continues.resumes.owned node part buffer owned)

/-- The content of a leaf is found where it was. -/
theorem follows_content_leaf (isLeaf : left.arena.operation? node = some .leaf) :
    Follows (content node) (content node) left right
      fun buffer other after afterwards => after = left ∧ afterwards = right ∧ other = buffer ∧
        left.arena.bufferOf? node .content = some buffer := by
  obtain ⟨buffer, owned⟩ :=
    continues.validBefore.current node (continues.validBefore.leaves node isLeaf)
  refine (follows_content owned (continues.resumes.owned node .content buffer owned)).mono ?_
  rintro _ _ _ _ ⟨rfl, rfl, rfl, rfl⟩
  exact ⟨rfl, rfl, rfl, owned⟩

section

variable
    (steady : make.Steady)
    (nodes : right.arena = left.arena)

include steady nodes

theorem follows_gradient (target : NodeId) :
    Follows (gradient target) (gradient target) left right
      fun values again _ _ => again = values := by
  unfold gradient
  refine follows_bind ((follows_gradientBuffer nodes target).mono ?_)
  rintro buffer _ left right ⟨rfl, rfl, rfl, owned⟩
  have level := continues.here.level continues
  have corresponds := continues.corresponds_self owned
  refine follows_onStore (((Store.follows_read steady level corresponds).and_ends
    (Store.ends_read level.accounted.valid) (Store.ends_read level.accountedOther.valid)).mono ?_)
  rintro values again _ _ ⟨-, ⟨-, reads⟩, -, readsOther⟩
  rw [continues.resumes.readings target .gradient _ owned nofun, reads] at readsOther
  exact (Option.some.inj readsOther).symm

theorem follows_zeroGradient (target : NodeId) :
    Follows (zeroGradient target) (zeroGradient target) left right fun _ _ _ _ => True := by
  unfold zeroGradient
  refine follows_bind ((follows_gradientBuffer nodes target).mono ?_)
  rintro buffer _ left right ⟨rfl, rfl, rfl, owned⟩
  exact follows_onStore ((Store.follows_fill steady (continues.here.level continues)
    (continues.corresponds_self owned) _).mono fun _ _ _ _ _ => trivial)

theorem follows_applyGradient
    (leaf : NodeId)
    (rate : α) :
    Follows (applyGradient leaf rate) (applyGradient leaf rate) left right fun _ _ _ _ => True := by
  unfold applyGradient
  refine follows_bind (follows_node continues.resumes.arena leaf
    fun found other present _ core => ?_)
  have operation : other.operation = found.operation := congrArg (·.1) core
  rw [operation]
  dsimp only
  split
  · exact follows_throw_bind
  next leafy =>
    have isLeaf := operation?_of_isLeaf present (by simpa using leafy)
    refine follows_bind ((follows_gradientBuffer nodes leaf).mono ?_)
    rintro gradient _ left right ⟨rfl, rfl, rfl, ownedGradient⟩
    refine follows_bind ((continues.follows_content_leaf isLeaf).mono ?_)
    rintro content _ left right ⟨rfl, rfl, rfl, owned⟩
    refine follows_bind (follows_onStore ((follows_descend steady (continues.here.level continues)
      (content_ne_gradient continues.validBefore owned ownedGradient)
      (continues.corresponds_self owned) (continues.corresponds_self ownedGradient)
      (continues.resumes.readings leaf .content _ owned fun _ =>
        continues.validBefore.leaves leaf isLeaf)
      (continues.resumes.readings leaf .gradient _ ownedGradient nofun) rate).mono ?_))
    exact fun _ _ _ _ _ => follows_modify trivial

end

theorem follows_setValue
    (leaf : NodeId)
    (values : Array α) :
    Follows (setValue leaf values) (setValue leaf values) left right fun _ _ _ _ => True := by
  unfold setValue
  refine follows_bind (follows_node continues.resumes.arena leaf
    fun found other present _ core => ?_)
  have operation : other.operation = found.operation := congrArg (·.1) core
  rw [operation]
  dsimp only
  split
  · exact follows_throw_bind
  next leafy =>
    have isLeaf := operation?_of_isLeaf present (by simpa using leafy)
    refine follows_bind ((continues.follows_content_leaf isLeaf).mono ?_)
    rintro content _ left right ⟨rfl, rfl, rfl, owned⟩
    refine follows_bind (follows_onStore ((Store.follows_write (continues.corresponds_self owned)
      values).mono fun _ _ store storeOther _ => ?_))
    refine follows_bind (follows_get ?_)
    rw [continues.resumes.constants]
    dsimp only
    cases left.constants.get? leaf with
    | some key => exact follows_bind (follows_modify (follows_modify trivial))
    | none => exact follows_modify trivial

end Continues

/-! ## Requests that are repeated -/

namespace Session

variable
    {session before after : Session α}
    {command : Command α}

omit [Element α] in
/-- The same session on an accelerator that does not fail any more. -/
def healed (session : Session α) : Session α :=
  { session with graph.store := session.graph.store.healed }

/--
The second session is the first one after an attempt at a request that was refused, and what
both have been asked for since.
-/
structure Continues (make : Make) (command : Command α) (before after : Session α) : Prop where
  graph : Graph.Continues make (leases before.pins) before.graph after.graph
  pins : after.pins = before.pins
  readies : before.graph.Readies make after.graph
  nodes : command.evaluates = false → after.graph.arena = before.graph.arena

namespace Continues

/-- A request that failed is over. -/
theorem of_refused
    (valid : session.Valid)
    (booked : session.Booked make)
    (repeatable : command.isRepeatable = true)
    {reason : Error}
    (refused : (session.step command).1 = .error reason) :
    Continues make command session (session.step command).2 := by
  have validAfter := (step_evolves valid command).valid
  have bookedAfter : (session.step command).2.Booked make := booked_run booked [command]
  obtain ⟨resumes, pins⟩ := step_of_error (ends_perform_resumes valid repeatable) refused
  unfold Valid at validAfter
  rw [pins] at validAfter
  exact
    { graph := ⟨resumes, valid, booked.accounted, validAfter, bookedAfter.accounted⟩
      pins := pins
      readies := step_of_error (ends_perform_readies valid repeatable booked.accounted) refused
      nodes := fun other => step_of_error (ends_perform_nodes valid repeatable other) refused }

variable (continues : Continues make command before after)

include continues

theorem valid : before.Valid ∧ after.Valid := by
  refine ⟨continues.graph.validBefore, ?_⟩
  unfold Valid
  rw [continues.pins]
  exact continues.graph.valid

/-- The accelerator recovers. -/
theorem healed :
    Continues { make with faults := fun _ _ => none } command before.healed after.healed :=
  have frame := (Store.alike_healed before.graph.store).frame continues.graph.validBefore.store
  have frameAfter := (Store.alike_healed after.graph.store).frame continues.graph.valid.store
  { graph :=
      { resumes := continues.graph.resumes.still frame frameAfter
        validBefore := (Keeps.of_frame_empty continues.graph.validBefore frame).valid
        accountedBefore := continues.graph.accountedBefore.healed
        valid := (Keeps.of_frame_empty continues.graph.valid frameAfter).valid
        accounted := continues.graph.accounted.healed }
    pins := continues.pins
    readies := continues.readies.onStores rfl fun ready =>
      ready.fits.still continues.graph.accounted continues.graph.accounted.healed rfl ready.distinct
        frameAfter
    nodes := continues.nodes }

/-- A lease ends in both sessions. -/
theorem endPin (pin : Nat) : Continues make command (endPin pin before) (endPin pin after) := by
  obtain ⟨valid, validAfter⟩ := continues.valid
  have evolved : Evolves True before (Session.endPin pin before) := evolves_endPin valid pin
  have evolvedAfter : Evolves True after (Session.endPin pin after) := evolves_endPin validAfter pin
  have readings : ∀ node part other, before.graph.arena.bufferOf? node part = some other →
      (Session.endPin pin before).graph.store.reading? other = before.graph.store.reading? other :=
    fun _ _ _ owned => reading?_endPin valid pin owned
  have readingsAfter : ∀ node part other, after.graph.arena.bufferOf? node part = some other →
      (Session.endPin pin after).graph.store.reading? other = after.graph.store.reading? other :=
    fun _ _ _ owned => reading?_endPin validAfter pin owned
  have evolved := evolved.valid
  have evolvedAfter := evolvedAfter.valid
  unfold Valid at evolved evolvedAfter
  unfold Session.endPin at evolved evolvedAfter readings readingsAfter ⊢
  rw [continues.pins] at evolvedAfter readingsAfter ⊢
  split
  next buffer stands =>
    rw [stands] at evolved evolvedAfter readings readingsAfter
    have unpins : Store.Frame {buffer} ∅ before.graph.store (before.graph.store.unpin buffer) :=
      Store.frame_reclaim_only valid.store Store.revises_unpin
    have unpinsAfter : Store.Frame {buffer} ∅ after.graph.store (after.graph.store.unpin buffer) :=
      Store.frame_reclaim_only validAfter.store Store.revises_unpin
    have includes := (continues.graph.resumes.store.unpin valid.store validAfter.store buffer).drop
      unpins.valid unpinsAfter.valid buffer
    have books : (after.graph.store.unpin buffer).Accounted make ∅ :=
      continues.graph.accounted.unpin
    refine ⟨?_, rfl, continues.readies.onStores rfl fun ready => ?_, continues.nodes⟩
    · exact
        { resumes := continues.graph.resumes.onStores includes (fun other idle =>
            Nat.eq_zero_of_le_zero (idle ▸ Nat.le_trans (Store.leasesOf_drop_le _ buffer other)
              (Store.leasesOf_unpin_le _ buffer other))) readings readingsAfter
          validBefore := evolved
          accountedBefore := continues.graph.accountedBefore.unpin.drop
          valid := evolvedAfter
          accounted := books.drop }
    · have live := exists_claim_forward evolvedAfter ready.ownedData ready.owned
      refine Store.Fits.reclaim Store.revises_drop (fun _ => Nat.le_refl _) ?_ books books.drop
        ready.distinct live
      refine Store.Fits.reclaim Store.revises_unpin (fun _ => Nat.sub_le ..) ready.fits
        continues.graph.accounted books ready.distinct fun other member => ?_
      obtain ⟨claim, claimed⟩ := live other member
      obtain ⟨old, present, -⟩ := Store.exists_claim_of_reclaim Store.revises_drop claimed
      exact ⟨old, present⟩
  · exact continues

/-- Any leases end in both sessions. -/
theorem run_unpin (ended : List Nat) :
    Continues make command (before.run (ended.map .unpin)) (after.run (ended.map .unpin)) := by
  induction ended generalizing before after with
  | nil => exact continues
  | cons pin ended step => exact step (continues.endPin pin)

end Continues

/-! ## Requests that are answered -/

section

variable
    {left right : Session α}
    {action : Graph.Action α β}
    {answer : β → Answer α}

omit [Element α] in
theorem follows_request
    (follows : Follows action action left.graph right.graph fun result again _ _ =>
      again = result) :
    Follows (answer <$> onGraph action) (answer <$> onGraph action) left right
      fun result again _ _ => again = result := by
  refine follows_map ?_
  have meet := follows.meet
  refine inStep_of_meet ?_
  unfold onGraph
  cases ran : action left.graph <;> cases ranOther : action right.graph <;>
    rw [ran, ranOther] at meet
  · exact congrArg answer meet
  · exact meet
  · exact meet
  · exact meet

omit [Element α] in
theorem follows_request_unit
    {action : Graph.Action α Unit}
    {answer : Unit → Answer α}
    (follows : Follows action action left.graph right.graph fun _ _ _ _ => True) :
    Follows (answer <$> onGraph action) (answer <$> onGraph action) left right
      fun result again _ _ => again = result :=
  follows_request (follows.mono fun _ _ _ _ _ => rfl)

end

/-- A request is answered as in a session that is continued. -/
theorem Continues.follows_perform
    (steady : make.Steady)
    (continues : Continues make command before after)
    (repeatable : command.isRepeatable = true) :
    Follows (perform command) (perform command) before after
      fun answer again _ _ => again = answer := by
  have graph := continues.graph
  have here := graph.here
  have alike := graph.resumes.arena
  cases command with
  | leaf shape values trainable => exact follows_request (follows_leaf alike shape values trainable)
  | create opcode operands =>
    exact follows_request (follows_create alike graph.resumes.interned opcode operands)
  | markOutput node =>
    exact follows_request_unit ((here.follows_markOutput graph node).mono fun _ _ _ _ _ => trivial)
  | script node =>
    exact follows_request (((here.paired graph).follows_script node).mono
      fun _ _ _ _ done => done.1)
  | compile node => exact follows_request (graph.follows_compile node)
  | value node => exact follows_request (graph.follows_readOutput steady continues.readies node)
  | valueAt node index =>
    exact follows_request (graph.follows_valueAt steady continues.readies node index)
  | gradient node =>
    exact follows_request (graph.follows_gradient steady (continues.nodes rfl) node)
  | applyGradient node rate =>
    exact follows_request_unit (graph.follows_applyGradient steady (continues.nodes rfl) node rate)
  | zeroGradient node =>
    exact follows_request_unit (graph.follows_zeroGradient steady (continues.nodes rfl) node)
  | setValue node values => exact follows_request_unit (graph.follows_setValue node values)
  | reduce node axis reduction =>
    exact follows_request (follows_reduce steady (here.paired graph) node axis reduction)
  | _ => cases repeatable

/-- A request is answered or refused as in a session that is continued. -/
theorem Continues.step_eq
    (steady : make.Steady)
    (continues : Continues make command before after)
    (repeatable : command.isRepeatable = true) :
    (after.step command).1.mapError Error.withoutFreed =
      (before.step command).1.mapError Error.withoutFreed := by
  have meet := (continues.follows_perform steady repeatable).meet
  unfold step
  cases ran : perform command before <;> cases again : perform command after <;>
    rw [ran, again] at meet
  · exact congrArg Except.ok meet
  · exact meet.elim
  · exact meet.elim
  · exact congrArg Except.error meet

/--
A request that is refused leaves the graph of any session intact, unless it is for a backward
pass.  The nodes, their users, the table of keys and that of constants are the same, and so are
the contents of all leaves and of all gradients there were.  A node that counts as up to date
reads as its value, if it did so before in case that it counted as up to date before.

If the accelerator recovers and any leases end, the request is then answered as it would have
been if it had not been made before, or refused for the same cause; where it is refused for lack
of room, what was set free in vain is not compared.
-/
theorem refused_leaves_intact
    {capacity : Nat}
    {device : DeviceId}
    {unsupported : List OpCode}
    {faults : Method → Nat → Option DeviceError}
    {config : Config}
    {commands : List (Command α)}
    {reason : Error}
    (reached : (start capacity device unsupported faults config).run commands = session)
    (repeatable : command.isRepeatable = true)
    (refused : session.step command = (.error reason, after)) :
    (session.graph.arena.Alike after.graph.arena ∧
      after.graph.interned = session.graph.interned ∧
      after.graph.constants = session.graph.constants) ∧
    (∀ leaf buffer, session.graph.arena.operation? leaf = some .leaf →
      session.graph.arena.bufferOf? leaf .content = some buffer →
        after.graph.arena.bufferOf? leaf .content = some buffer ∧
        after.graph.store.reading? buffer = session.graph.store.reading? buffer) ∧
    (∀ node buffer, session.graph.arena.bufferOf? node .gradient = some buffer →
      after.graph.arena.bufferOf? node .gradient = some buffer ∧
      after.graph.store.reading? buffer = session.graph.store.reading? buffer) ∧
    (∀ node shape size, after.graph.arena.IsCurrent node →
      after.graph.arena.shape? node = some shape → shape.size = .ok size →
      (session.graph.arena.IsCurrent node →
        session.graph.reading node = session.graph.meaning node size) →
      after.graph.reading node = after.graph.meaning node size) ∧
    ∀ ended : List Nat,
      ((after.healed.run (ended.map .unpin)).step command).1.mapError Error.withoutFreed =
        ((session.healed.run (ended.map .unpin)).step command).1.mapError Error.withoutFreed := by
  subst reached
  have valid := run_valid capacity device unsupported faults config commands
  have booked := booked_run (booked_start capacity device unsupported faults config) commands
  have continues := Continues.of_refused valid booked repeatable (congrArg Prod.fst refused)
  rw [refused] at continues
  have resumes := continues.graph.resumes
  refine ⟨⟨resumes.arena, resumes.interned, resumes.constants⟩, ?_, ?_, ?_, ?_⟩
  · intro leaf buffer isLeaf owned
    exact ⟨resumes.owned leaf .content buffer owned,
      resumes.readings leaf .content buffer owned fun _ =>
        continues.graph.validBefore.leaves leaf isLeaf⟩
  · intro node buffer owned
    exact ⟨resumes.owned node .gradient buffer owned,
      resumes.readings node .gradient buffer owned nofun⟩
  · intro node shape size current shaped sized before
    exact resumes.reads_meaning continues.graph.validBefore continues.graph.valid current shaped
      sized before
  · intro ended
    exact (continues.healed.run_unpin ended).step_eq (fun _ _ => rfl) repeatable

/-- A session on integers after a run of requests, where the first launch fails. -/
def stumbling (commands : List (Command Int)) : Session Int :=
  (start 8 ⟨0⟩ []
    (fun method index => if method = .launch ∧ index = 0 then some (.invalidBlock 0) else none)
    { fanIn := 2 }).run commands

/--
A product is refused because its launch fails, while the user leases the constant.  It is
answered when it is asked for again without the lease.
-/
theorem refused_leaves_intact_scaling :
    ((stumbling (scaling ++ [.pin ⟨1⟩ .content .accelerator])).step (.value ⟨2⟩)).1 =
        .error (.inconsistency (.device (.invalidBlock 0))) ∧
      ((((stumbling (scaling ++ [.pin ⟨1⟩ .content .accelerator])).step
        (.value ⟨2⟩)).2.healed.run [.unpin 0]).step (.value ⟨2⟩)).1 = .ok (.values #[21, 35]) := by
  have refused : ((stumbling (scaling ++ [.pin ⟨1⟩ .content .accelerator])).step (.value ⟨2⟩)).1 =
      .error (.inconsistency (.device (.invalidBlock 0))) := by
    cbv
  have answered :
      (((stumbling (scaling ++ [.pin ⟨1⟩ .content .accelerator])).healed.run [.unpin 0]).step
        (.value ⟨2⟩)).1 = .ok (.values #[21, 35]) := by
    cbv
  have reached : (start 8 ⟨0⟩ []
      (fun method index => if method = .launch ∧ index = 0 then some (.invalidBlock 0) else none)
      { fanIn := 2 }).run (scaling ++ [.pin ⟨1⟩ .content .accelerator]) =
        stumbling (scaling ++ [.pin ⟨1⟩ .content .accelerator]) := rfl
  have same : ((((stumbling (scaling ++ [.pin ⟨1⟩ .content .accelerator])).step
      (.value ⟨2⟩)).2.healed.run [.unpin 0]).step (.value ⟨2⟩)).1.mapError Error.withoutFreed =
        (((stumbling (scaling ++ [.pin ⟨1⟩ .content .accelerator])).healed.run [.unpin 0]).step
          (.value ⟨2⟩)).1.mapError Error.withoutFreed :=
    (refused_leaves_intact reached rfl (Prod.ext refused rfl)).2.2.2.2 [0]
  rw [answered] at same
  refine ⟨refused, ?_⟩
  cases repeated : ((((stumbling (scaling ++ [.pin ⟨1⟩ .content .accelerator])).step
      (.value ⟨2⟩)).2.healed.run [.unpin 0]).step (.value ⟨2⟩)).1 with
  | ok answer =>
    rw [repeated] at same
    exact same
  | error reason =>
    rw [repeated] at same
    cases same

/--
A session on integers in which the leaves of a sum and the sum do not fit on the accelerator
together.  A leaf that nothing depends on is there as well.
-/
def overfull : Session Int :=
  (start 8 ⟨0⟩ []
    (fun method index => if method = .allocate ∧ index = 4 then some (.invalidBlock 0) else none)
    { fanIn := 2 }).run
      [.leaf ⟨[3]⟩ #[1, 2, 3] false, .leaf ⟨[3]⟩ #[4, 5, 6] false, .create .add [⟨0⟩, ⟨1⟩],
        .leaf ⟨[2]⟩ #[7, 8] false, .ensure ⟨3⟩ .content .accelerator]

/--
The sum is refused because an allocation fails, after the other leaf has been moved off to make
room.  When it is asked for again it is refused for lack of room, and nothing is set free in
vain; but the other leaf would have been, if the sum had not been asked for before.
-/
theorem freed_less_when_repeated :
    (overfull.step (.value ⟨2⟩)).1 = .error (.inconsistency (.device (.invalidBlock 0))) ∧
      ((overfull.step (.value ⟨2⟩)).2.healed.step (.value ⟨2⟩)).1 =
        .error (.resourceExhausted 3 0) ∧
      (overfull.healed.step (.value ⟨2⟩)).1 = .error (.resourceExhausted 3 2) := by
  refine ⟨?_, ?_, ?_⟩
  · cbv
  · cbv
  · cbv

end Session

end Elementwise.Graph
