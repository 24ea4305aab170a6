import Elementwise.Proofs.Graph.Renaming
import Elementwise.Proofs.Graph.Resumption
import Elementwise.Proofs.Graph.Room
import Elementwise.Proofs.Reduction.Following
import Elementwise.Proofs.Script.Following

/-!
# Operations that end as others do

An operation on a graph ends as it does on a graph that this one resumes.  What a
reduction needs is that the leaves of both graphs read the same and that what is
leased takes up as much.  An evaluation needs in addition that the content of its
output stands for the content there, wherever either was made.
-/

namespace Elementwise.Graph

open Store (Corresponds Level)

variable
    {α β γ : Type}
    [Element α]
    {make : Make}
    {pins : BufferId → Nat}
    {left right : Graph α}
    {output : NodeId}

/-! ## The parts of an operation -/

omit [Element α] in
theorem follows_onStore
    {first : Store.Action α β}
    {second : Store.Action α γ}
    {done : β → γ → Graph α → Graph α → Prop}
    (follows : Follows first second left.store right.store fun answer other store storeOther =>
      done answer other { left with store := store } { right with store := storeOther }) :
    Follows (onStore first) (onStore second) left right done := by
  have meet := follows.meet
  refine inStep_of_meet ?_
  unfold onStore
  cases ran : first left.store <;> cases ranOther : second right.store <;>
    rw [ran, ranOther] at meet <;>
    exact meet

omit [Element α] in
theorem follows_check
    {result : Except Error β}
    {done : β → β → Graph α → Graph α → Prop}
    (holds : ∀ answer, result = .ok answer → done answer answer left right) :
    Follows (check result) (check result) left right done := by
  cases result with
  | ok answer => exact follows_pure (holds answer rfl)
  | error reason => exact follows_throw

omit [Element α] in
/-- Alike arenas have the same nodes, up to flags and storage. -/
theorem follows_node
    (alike : left.arena.Alike right.arena)
    (node : NodeId)
    {done : Node → Node → Graph α → Graph α → Prop}
    (holds : ∀ found other, left.arena.node? node = some found →
      right.arena.node? node = some other → other.core = found.core →
      done found other left right) :
    Follows (Graph.node node) (Graph.node node) left right done := by
  have same := alike node
  cases present : left.arena.node? node with
  | some found =>
    rw [present] at same
    obtain ⟨other, presentOther, core⟩ := Option.map_eq_some_iff.1 same
    exact follows_of_answers
      (ends_node_of_present present rfl : Ends (Graph.node node) left
        (fun answer after => (answer, after) = (found, left)) fun _ _ => False)
      (ends_node_of_present presentOther rfl : Ends (Graph.node node) right
        (fun answer after => (answer, after) = (other, right)) fun _ _ => False)
      fun _ _ _ _ here hereOther => by
        cases here
        cases hereOther
        exact holds found other present presentOther core
  | none =>
    rw [present] at same
    have absent := Option.map_eq_none_iff.1 same
    exact follows_of_refusals
      (ends_node (fun _ found => by cases present.symm.trans found) fun _ => rfl)
      (ends_node (fun _ found => by cases absent.symm.trans found) fun _ => rfl)

omit [Element α] in
theorem ends_content_of_owned
    {graph : Graph α}
    {node : NodeId}
    {buffer : BufferId}
    {done : BufferId → Graph α → Prop}
    {failed : Error → Graph α → Prop}
    (owned : graph.arena.bufferOf? node .content = some buffer)
    (holds : done buffer graph) :
    Ends (content node) graph done failed := by
  obtain ⟨found, present, stored⟩ := Option.bind_eq_some_iff.1 owned
  unfold content
  rw [ends_bind_iff]
  refine ends_node_of_present present ?_
  rw [stored]
  exact holds

omit [Element α] in
/-- A script is only asked for in vain where it cannot be compiled. -/
theorem ends_script_refused (output : NodeId) :
    Ends (script output) left (fun _ _ => True)
      fun reason _ => Script.compile left.arena output = .error reason := by
  unfold script
  rw [ends_bind_iff, ends_get_iff]
  split
  · trivial
  · unfold compile
    rw [ends_bind_iff, ends_get_iff, ends_bind_iff]
    cases Script.compile left.arena output with
    | ok compiled => trivial
    | error reason => rfl

/-! ## Graphs with the same leaves -/

/-- Graphs with the same nodes and readings of leaves, and as much room. -/
structure Paired (make : Make) (pins : BufferId → Nat) (left right : Graph α) : Prop where
  valid : left.Valid pins
  validOther : right.Valid pins
  arena : left.arena.Alike right.arena
  config : right.config = left.config
  level : Level make left.store right.store
  leaves : ∀ leaf buffer, left.arena.operation? leaf = some .leaf →
    left.arena.bufferOf? leaf .content = some buffer →
    right.arena.bufferOf? leaf .content = some buffer ∧
      Corresponds left.store right.store buffer buffer ∧
      right.store.reading? buffer = left.store.reading? buffer

namespace Paired

variable (paired : Paired make pins left right)

include paired

/-- The script of a node is the same in both. -/
theorem follows_script (output : NodeId) :
    Follows (script output) (script output) left right
      fun compiled other after afterwards => other = compiled ∧ Paired make pins after afterwards ∧
        after.arena = left.arena ∧ afterwards.arena = right.arena ∧
        after.store = left.store ∧ afterwards.store = right.store ∧
        Script.Compiled left.arena output compiled ∧
        Script.Compiled right.arena output compiled := by
  have same : Follows (script output) (script output) left right fun _ _ _ _ => True := by
    refine follows_of_ends ((ends_script paired.valid output).and
      (ends_script_refused output)) ?_ ?_
    · rintro compiled after ⟨⟨-, -, -, inside, -⟩, -⟩
      exact ends_script_of_inside paired.validOther (paired.arena.extension.lt_size inside)
    · rintro reason _ ⟨-, refused⟩
      refine ((ends_script paired.validOther output).and (ends_script_refused output)).mono ?_ ?_
      · rintro _ _ ⟨⟨-, -, -, -, compiles, -⟩, -⟩
        rw [paired.arena.compile, refused] at compiles
        cases compiles
      · rintro again _ ⟨-, refusedOther⟩
        rw [paired.arena.compile, refused] at refusedOther
        cases refusedOther
        rfl
  refine (same.and_ends (ends_script paired.valid output)
    (ends_script paired.validOther output)).mono ?_
  rintro compiled other after afterwards ⟨-, ⟨first, arena, store, -, compiles, properly⟩,
    second, arenaOther, storeOther, -, compilesOther, properlyOther⟩
  rw [paired.arena.compile, compiles] at compilesOther
  cases compilesOther
  refine ⟨rfl, ?_, arena, arenaOther, store, storeOther, properly, properlyOther⟩
  exact
    { valid := first.valid
      validOther := second.valid
      arena := by rw [arena, arenaOther]; exact paired.arena
      config := by rw [first.config, second.config, paired.config]
      level := by rw [store, storeOther]; exact paired.level
      leaves := by rw [arena, arenaOther, store, storeOther]; exact paired.leaves }

/-- The data of a script are the same in both. -/
theorem follows_dataBuffers
    {compiled : Script}
    (properly : Script.Compiled left.arena output compiled)
    (properlyOther : Script.Compiled right.arena output compiled) :
    Follows (dataBuffers compiled) (dataBuffers compiled) left right
      fun data other after afterwards => other = data ∧ after = left ∧ afterwards = right ∧
        data.Nodup ∧
        List.Forall₂ (fun leaf buffer => left.arena.bufferOf? leaf .content = some buffer)
          compiled.data data ∧
        ∀ buffer ∈ data, Corresponds left.store right.store buffer buffer ∧
          right.store.reading? buffer = left.store.reading? buffer ∧
          ∃ leaf, left.arena.operation? leaf = some .leaf ∧
            left.arena.bufferOf? leaf .content = some buffer ∧
            right.arena.bufferOf? leaf .content = some buffer := by
  have isLeaf : ∀ leaf ∈ compiled.data, left.arena.operation? leaf = some .leaf :=
    fun leaf member => (Arena.mem_leavesOf_iff.1
      ((mem_data_iff paired.valid.arena properly).1 member)).2
  refine follows_of_answers (ends_dataBuffers_of_compiled paired.valid properly)
    (ends_dataBuffers_of_compiled paired.validOther properlyOther) ?_
  rintro data other left right ⟨rfl, owned⟩ ⟨rfl, again⟩
  have ownedOther := forall₂_of_mem owned fun leaf member buffer here =>
    (paired.leaves leaf buffer (isLeaf leaf member) here).1
  have unique : Relator.RightUnique (List.Forall₂ fun leaf buffer =>
      right.arena.bufferOf? leaf .content = some buffer) :=
    Relator.RightUnique.forall₂ fun _ _ _ here there => Option.some.inj (here.symm.trans there)
  refine ⟨unique again ownedOther, rfl, rfl,
    nodup_of_bufferOf? paired.valid owned (properly.nodup_data paired.valid.arena.ordered
      paired.valid.arena.proper), owned, ?_⟩
  intro buffer member
  obtain ⟨leaf, among, here⟩ := exists_of_forall₂ owned.flip buffer member
  obtain ⟨there, corresponds, same⟩ := paired.leaves leaf buffer (isLeaf leaf among) here
  exact ⟨corresponds, same, leaf, isLeaf leaf among, here, there⟩

end Paired

/-! ## Reductions -/

section

variable (steady : make.Steady)

include steady

/-- A script is reduced to the same totals over data that read the same. -/
theorem follows_reduceScript
    {store storeOther : Store α}
    {compiled : Script}
    {data : List BufferId}
    {layout : AxisLayout}
    {fanIn : Nat}
    {reduction : Reduction}
    (level : Level make store storeOther)
    (distinct : data.Nodup)
    (same : ∀ buffer ∈ data, Corresponds store storeOther buffer buffer)
    (readings : ∀ buffer ∈ data, storeOther.reading? buffer = store.reading? buffer)
    (get : Nat → α)
    (yields : ∀ views,
      List.Forall₂ (fun buffer values => store.reading? buffer = some values) data views →
      Source.Yields
        (fun index inputs workspace => Script.evalAt compiled.records inputs index workspace)
        views.toArray (·.size = compiled.cacheSize) layout.count get) :
    Follows (reduceScript compiled data layout fanIn reduction)
      (reduceScript compiled data layout fanIn reduction) store storeOther
      fun totals other _ _ => other = totals := by
  have initial : (zeros α compiled.cacheSize).size = compiled.cacheSize := Array.size_replicate
  have yieldsOther : ∀ views,
      List.Forall₂ (fun buffer values => storeOther.reading? buffer = some values) data views →
      Source.Yields
        (fun index inputs workspace => Script.evalAt compiled.records inputs index workspace)
        views.toArray (·.size = compiled.cacheSize) layout.count get :=
    fun views viewed => yields views (forall₂_of_mem viewed fun buffer member values reads =>
      (readings buffer member).symm.trans reads)
  have answers : Follows (reduceScript compiled data layout fanIn reduction)
      (reduceScript compiled data layout fanIn reduction) store storeOther
      fun _ _ _ _ => True := by
    have free : ∀ {base after : Store α} {holds : Array α → Prop} {result : BufferId},
        Store.Made holds base after result → after.Free result := fun made =>
      have ⟨_, fresh⟩ := made.fresh
      ⟨_, fresh, rfl⟩
    unfold reduceScript
    refine follows_bind (((Store.follows_withLeases steady level (fun _ _ => True)
      distinct same ?_).and_ends
        ((ends_reduceLeased level.accounted.valid get yields).and
          (within_reduceLeased store level.accounted.within))
        ((ends_reduceLeased level.accountedOther.valid get yieldsOther).and
          (within_reduceLeased storeOther level.accountedOther.within))).mono ?_)
    · intro inside insideOther leased leasedOther level
      refine follows_bind ((Store.follows_mapM_blockOf leased leasedOther).mono ?_)
      rintro inputs inputsOther inside insideOther ⟨rfl, rfl, pinned, pinnedOther⟩
      refine AxisLayout.follows_treeReduce steady (·.size = compiled.cacheSize) get level initial
        pinned pinnedOther (fun buffer member => ?_) ?_
      · rw [leasedOther.readings, leased.readings, readings buffer member]
      · rw [leased.readings]
        exact yields
    · rintro result other after afterwards ⟨-, ⟨made, within⟩, madeOther, withinOther⟩
      exact follows_of_answers (Store.ends_take_of_free steady within (free made))
        (Store.ends_take_of_free steady withinOther (free madeOther)) fun _ _ _ _ _ _ => trivial
  refine (answers.and_ends (ends_reduceScript level.accounted.valid get yields)
    (ends_reduceScript level.accountedOther.valid get yieldsOther)).mono ?_
  rintro totals other _ _ ⟨-, ⟨-, holds⟩, -, holdsOther⟩
  exact holdsOther.unique holds

/-- A reduction needs nothing but the leaves. -/
theorem follows_reduce
    (paired : Paired make pins left right)
    (output : NodeId)
    (axis : Option Nat)
    (reduction : Reduction) :
    Follows (reduce output axis reduction) (reduce output axis reduction) left right
      fun answer other _ _ => other = answer := by
  unfold reduce
  refine follows_bind (follows_node paired.arena output fun found other present _ core => ?_)
  have shaped : left.arena.shape? output = some found.shape := by
    rw [Arena.shape?, present, Option.map_some]
  have same : other.shape = found.shape := congrArg (·.2.1) core
  dsimp only
  rw [same]
  refine follows_bind (follows_check fun along _ => ?_)
  refine follows_bind (follows_check fun layout laidOut => ?_)
  refine follows_bind (follows_check fun reduced _ => ?_)
  refine follows_bind (follows_check fun nothing _ => ?_)
  cases nothing with
  | true => exact follows_bind (follows_check fun size _ => follows_pure rfl)
  | false =>
    refine follows_bind ((paired.follows_script output).mono ?_)
    rintro compiled _ left right
      ⟨rfl, paired, sameArena, sameArenaOther, -, -, properly, properlyOther⟩
    rw [← sameArena] at shaped properly
    rw [← sameArenaOther] at properlyOther
    refine follows_bind (follows_onStore ((Script.follows_checkSupported paired.level.accounted
      paired.level.accountedOther).mono ?_))
    rintro _ _ _ _ ⟨rfl, rfl⟩
    refine follows_bind ((paired.follows_dataBuffers properly properlyOther).mono ?_)
    rintro data _ left right ⟨rfl, rfl, rfl, distinct, owned, shared⟩
    refine follows_bind (follows_get ?_)
    rw [paired.config]
    refine follows_bind (follows_onStore ((follows_reduceScript steady paired.level distinct
      (fun buffer member => (shared buffer member).1)
      (fun buffer member => (shared buffer member).2.1) _
      (yields_evalAt paired.valid properly owned shaped laidOut)).mono ?_))
    rintro totals _ _ _ rfl
    exact follows_pure rfl

end

end Elementwise.Graph
