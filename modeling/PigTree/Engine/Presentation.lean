import PigTree.Engine.Finish
import PigTree.Engine.Objects

/-!
# The finished graph in full

`Finished` says what a graph's entries, lookups and child table are. This module
adds everything else a query can read: the fields copied from the observation,
the size flags, the records behind the entries and the graph-wide values. Every
one of them is a function of the accepted entries.
-/

namespace PigTree

open Foundation ParentTree EntryObservation

namespace Snapshot

variable {s : Snapshot}

/-- Marks the entries whose size is not known. -/
def unknownMark (s : Snapshot) (entry : EntryObservation) : ℕ :=
  if s.leafKnown entry then 0 else 1

/-- Number of entries in a subtree whose size is not known, by position. -/
def unknownAt (s : Snapshot) (idx : ℕ) : ℕ :=
  ∑ node ∈ s.tree.subtree idx, s.valueAt s.unknownMark node

/-- Every size in a subtree is known. -/
def subtreeKnown (s : Snapshot) (id : UInt32) : Bool :=
  (s.subtree id).all s.leafKnown

theorem unknownAt_children {idx : ℕ} (inside : idx < s.entries.length) :
    s.unknownAt idx = ((s.tree.children idx).map s.unknownAt).sum + s.valueAt s.unknownMark idx :=
  ParentTree.sum_subtree inside _

theorem unknownAt_eq_zero_iff {idx : ℕ} {entry : EntryObservation}
    (found : s.entries[idx]? = some entry) :
    s.unknownAt idx = 0 ↔ s.subtreeKnown entry.entryId = true := by
  rw [unknownAt, ← Snapshot.sum_subtree found, List.sum_eq_zero_iff, subtreeKnown,
    List.all_eq_true]
  simp [unknownMark]

end Snapshot

namespace GraphBuilder

variable {rt : Runtime} {builder : GraphBuilder} {target : String}
  {records : List ObservationRecord} {s : Snapshot} {graph : DirectoryGraph}
  {objects : List ObjectRecord} {entries leaves final : List CompactEntry} {treeDelta : List ℤ}

/-! ### The fields a settled entry keeps -/

/-- What a settled entry shows besides its sums. -/
structure Kept (s : Snapshot) (idx : ℕ) (entry : EntryObservation) (compact : CompactEntry) :
    Prop where
  known : compact.allocatedSizeKnown = true ↔ s.unknownAt idx = 0
  plain : entry.kind ≠ .directory → compact.logicalSize = entry.compact.logicalSize ∧
    compact.allocatedSize = entry.compact.allocatedSize

theorem ChildSums.foldl_allKnown (children : List CompactEntry) (sums : ChildSums) :
    (children.foldl ChildSums.add sums).allKnown = (sums.allKnown &&
      children.all (fun child => child.allocatedSizeKnown &&
        !(child.kind = .file && child.allocatedSize.isNone))) := by
  induction children generalizing sums with
  | nil => simp
  | cons child children ih =>
      rw [List.foldl_cons, ih, List.all_cons]
      simp [ChildSums.add, Bool.and_assoc]

theorem leafSettled_plain (compact : CompactEntry) :
    (leafSettled objects compact).allocatedSizeKnown = compact.allocatedSizeKnown ∧
      (leafSettled objects compact).logicalSize = compact.logicalSize ∧
      (leafSettled objects compact).allocatedSize = compact.allocatedSize := by
  unfold leafSettled
  split
  · split <;> exact ⟨rfl, rfl, rfl⟩
  · exact ⟨rfl, rfl, rfl⟩
  · exact ⟨rfl, rfl, rfl⟩

/-- The flag of an entry without children is its own. -/
theorem unknownAt_leaf {idx : ℕ} {entry : EntryObservation} (found : s.entries[idx]? = some entry)
    (plain : entry.kind ≠ .directory) : s.unknownAt idx = s.unknownMark entry := by
  have inside := (List.getElem?_eq_some_iff.mp found).1
  simp [s.unknownAt_children inside, s.children_eq_nil found plain,
    Snapshot.valueAt_of_found found]

/-- A file's flag is set only when its allocation was observed. -/
theorem allocatedSize_isSome_of_known {entry : EntryObservation} (isFile : entry.kind = .file)
    (known : s.leafKnown entry = true) : entry.compact.allocatedSize.isSome = true := by
  cases entry with
  | directory dir => cases isFile
  | special special => cases isFile
  | file file =>
      simp only [Snapshot.leafKnown, Bool.and_eq_true] at known
      exact known.1

theorem leafKnown_directory {entry : EntryObservation} (directory : entry.kind = .directory) :
    s.leafKnown entry = true := by
  cases entry with
  | directory dir => rfl
  | special special => cases directory
  | file file => cases directory

/-- The flags pass from the leaves to their directories. -/
theorem Rolled.kept (rolled : Rolled builder s treeDelta leaves (s.tree.postorder 0) final)
    (lvs : Leaves s entries objects leaves) (positive : 0 < s.entries.length)
    (flags : ∀ (idx : ℕ) (entry : EntryObservation) (compact : CompactEntry),
      s.entries[idx]? = some entry → entries[idx]? = some compact →
        compact.allocatedSizeKnown = s.leafKnown entry)
    {idx : ℕ} {entry : EntryObservation} {compact : CompactEntry}
    (found : s.entries[idx]? = some entry) (stored : final[idx]? = some compact) :
    Kept s idx entry compact := by
  -- the observation at a position is fixed, so the property can mention it
  have all : s.tree.postorder 0 = s.tree.postorder 0 ++ [] := (List.append_nil _).symm
  have inside := (List.getElem?_eq_some_iff.mp found).1
  have mem : idx ∈ s.tree.postorder 0 :=
    (mem_postorder positive).mpr ⟨inside, s.tree.isAncestor_zero idx⟩
  have leafFound := List.getElem?_eq_getElem (lvs.length_eq.symm ▸ inside)
  have settled := rolled.induction lvs.length_eq all
    (P := fun idx compact => ∀ entry, s.entries[idx]? = some entry →
      compact.kind = entry.kind ∧ Kept s idx entry compact) ?_ ?_ leafFound (Or.inr mem)
  · rcases settled with ⟨other, otherStored, kept⟩
    rw [stored, Option.some.injEq] at otherStored
    subst otherStored
    exact (kept entry found).2
  · -- a leaf keeps what phase 1 left
    intro idx leaf leafFound plain entry found
    have kind := lvs.kind_eq found leafFound
    refine ⟨kind, ?_⟩
    rcases lvs.found found with ⟨objectIndex, known, before, after⟩
    rw [leafFound, Option.some.injEq] at after
    have fields : leaf.allocatedSizeKnown = (entry.tagged objectIndex known).allocatedSizeKnown ∧
        leaf.logicalSize = (entry.tagged objectIndex known).logicalSize ∧
          leaf.allocatedSize = (entry.tagged objectIndex known).allocatedSize := by
      rw [after]
      exact leafSettled_plain _
    have flag := flags idx entry _ found before
    exact {
      known := by
        rw [unknownAt_leaf found (kind ▸ plain), fields.1, flag, Snapshot.unknownMark]
        simp
      plain := fun _ => ⟨fields.2.1, fields.2.2⟩ }
  · -- a directory folds the flags of its children
    intro idx leaf leafFound directory _ children entry found
    have kind := lvs.kind_eq found leafFound
    refine ⟨kind, ?_⟩
    have isDirectory : entry.kind = .directory := kind ▸ directory
    have inside := (List.getElem?_eq_some_iff.mp found).1
    refine { known := ?_, plain := fun other => absurd isDirectory other }
    have own : s.valueAt s.unknownMark idx = 0 := by
      rw [Snapshot.valueAt_of_found found, Snapshot.unknownMark, leafKnown_directory isDirectory]
      rfl
    rw [s.unknownAt_children inside, own, Nat.add_zero, List.sum_eq_zero_iff]
    simp only [CompactEntry.rolledUp, sumsAt, ChildSums.of, ChildSums.foldl_allKnown,
      ChildSums.start, Bool.true_and, List.all_eq_true, List.mem_map, forall_exists_index,
      and_imp, forall_apply_eq_imp_iff₂]
    -- the flags of the children are those of their subtrees
    have childFlag : ∀ child ∈ s.tree.children idx, ∃ compact, final[child]? = some compact ∧
        ((compact.allocatedSizeKnown && !(compact.kind = .file && compact.allocatedSize.isNone)) =
          true ↔ s.unknownAt child = 0) := by
      intro child childMem
      rcases children child childMem with ⟨compact, childStored, facts⟩
      have childInside := (mem_children.mp childMem).1
      have childFound := List.getElem?_eq_getElem childInside
      rcases facts _ childFound with ⟨childKind, kept⟩
      refine ⟨compact, childStored, ?_⟩
      rw [Bool.and_eq_true, kept.known]
      constructor
      · exact And.left
      · intro zero
        refine ⟨zero, ?_⟩
        by_cases isFile : compact.kind = .file
        · have plain : (s.entries[child]).kind ≠ .directory := by
            rw [← childKind, isFile]
            decide
          rw [unknownAt_leaf childFound plain, Snapshot.unknownMark] at zero
          have flagged : s.leafKnown s.entries[child] = true := by
            by_contra unset
            simp [unset] at zero
          have observed := allocatedSize_isSome_of_known (childKind ▸ isFile) flagged
          rw [← (kept.plain plain).2] at observed
          simp [observed]
        · simp [isFile]
    constructor
    · intro flagged child childMem
      rcases childFlag child childMem with ⟨compact, childStored, iff⟩
      apply iff.mp
      exact flagged compact (List.mem_filterMap.mpr ⟨child, childMem, childStored⟩)
    · intro zeros compact compactMem
      rcases List.mem_filterMap.mp compactMem with ⟨child, childMem, childStored⟩
      rcases childFlag child childMem with ⟨other, otherStored, iff⟩
      rw [childStored, Option.some.injEq] at otherStored
      subst otherStored
      exact iff.mpr (zeros child childMem)

/-! ### Everything a graph shows -/

/-- A finished graph with all its fields. -/
structure Presented (rt : Runtime) (s : Snapshot) (graph : DirectoryGraph) : Prop where
  finished : Finished rt s graph
  kept : ∀ (idx : ℕ) (entry : EntryObservation) (compact : CompactEntry),
    s.entries[idx]? = some entry → graph.storage.entries[idx]? = some compact →
      Kept s idx entry compact
  copied : ∀ (idx : ℕ) (entry : EntryObservation) (compact : CompactEntry),
    s.entries[idx]? = some entry → graph.storage.entries[idx]? = some compact →
      compact.fixed = (entry.tagged compact.objectIndex false).fixed
  recorded : ∀ (idx : ℕ) (entry : EntryObservation) (compact : CompactEntry),
    s.entries[idx]? = some entry → graph.storage.entries[idx]? = some compact →
      recordAt graph.objects compact.objectIndex = s.objectOf entry
  unrecorded : ∀ (idx : ℕ) (entry : EntryObservation) (compact : CompactEntry),
    s.entries[idx]? = some entry → graph.storage.entries[idx]? = some compact →
      (compact.objectIndex = noObject ↔ s.objectOf entry = none)
  held : ∀ (idx other : ℕ) (entry otherEntry : EntryObservation) (left right : CompactEntry),
    s.entries[idx]? = some entry → s.entries[other]? = some otherEntry →
      graph.storage.entries[idx]? = some left → graph.storage.entries[other]? = some right →
        left.objectIndex ≠ noObject → right.objectIndex ≠ noObject →
          (left.objectIndex = right.objectIndex ↔ holderOf idx entry = holderOf other otherEntry)
  objects_le : graph.objects.length ≤ s.entries.length
  known_eq : graph.allocatedBytesKnown = s.allocationsKnown
  indeterminate_eq :
    graph.indeterminateExternalReferenceObjects = UInt64.ofNat s.indeterminateObjects

theorem Presented.empty (none : s.entries = []) (term : TerminalObservation)
    (known : builder.allocatedBytesKnown = true) :
    Presented rt s (builder.emptyGraph term) where
  finished := Finished.empty none term
  kept := by simp [none]
  copied := by simp [none]
  recorded := by simp [none]
  unrecorded := by simp [none]
  held := by simp [none]
  objects_le := by simp [emptyGraph]
  known_eq := by simp [emptyGraph, known, Snapshot.allocationsKnown, none]
  indeterminate_eq := by simp [emptyGraph, Snapshot.indeterminateObjects, none]

/-- The graph made of the aggregates. -/
structure MadeOf (graph : DirectoryGraph) (aggregates : Aggregates) : Prop where
  entries_eq : graph.storage.entries = aggregates.entries
  objects_eq : graph.objects = aggregates.objects
  objectStreams_eq : graph.objectStreams = aggregates.objectStreams
  known_eq : graph.allocatedBytesKnown = aggregates.allocatedBytesKnown
  indeterminate_eq :
    graph.indeterminateExternalReferenceObjects = aggregates.indeterminateObjects

section Executed

variable {aggregates : Aggregates} {normalized : Normalized} {slices : List (List UInt32)}
  (executed : Executed rt builder s aggregates normalized treeDelta leaves final slices)
  (made : MadeOf graph aggregates)

include executed made

/-- A stored entry, the settled entry it was laid out from and the entry phase 1 left. -/
theorem Executed.origin {idx : ℕ} {compact : CompactEntry}
    (stored : graph.storage.entries[idx]? = some compact) :
    ∃ (settled tagged : CompactEntry) (start count : UInt32),
      compact = settled.withSlice start count ∧ final[idx]? = some settled ∧
        normalized.entries[idx]? = some tagged ∧ compact.fixed = tagged.fixed := by
  rw [made.entries_eq] at stored
  rcases executed.laidOut.placed.origin stored with ⟨original, start, count, found, rfl⟩
  have inside := (List.getElem?_eq_some_iff.mp found).1
  rw [executed.settled.length_eq, ← executed.settledLeaves.table.tagged.length_eq] at inside
  have before := List.getElem?_eq_getElem inside
  rcases executed.settled.settled idx _ before with ⟨other, otherFound, fixed, _⟩
  rw [found, Option.some.injEq] at otherFound
  subst otherFound
  exact ⟨_, _, start, count, rfl, found, before, fixed⟩

/-- The object index of a stored entry is the one phase 1 gave it. -/
theorem Executed.objectIndex_eq {idx : ℕ} {compact : CompactEntry}
    (stored : graph.storage.entries[idx]? = some compact) :
    ∃ tagged : CompactEntry, normalized.entries[idx]? = some tagged ∧
      compact.objectIndex = tagged.objectIndex ∧ compact.fixed = tagged.fixed := by
  rcases executed.origin made stored with ⟨settled, tagged, start, count, rfl, _, at_, fixed⟩
  have index := congrArg CompactEntry.objectIndex fixed
  exact ⟨tagged, at_, index, fixed⟩

/-- The result of all phases, with all its fields. -/
theorem Executed.presented (core : Core builder s.entries) (tally : Tally builder s.entries)
    (positive : 0 < s.entries.length) (finished : Finished rt s graph) : Presented rt s graph := by
  have recorded := normalizeObjects_recorded rt core tally finished.short executed.normalized_ran
  exact {
    finished := finished
    kept := by
      intro idx entry compact found stored
      rcases executed.origin made stored with ⟨settled, tagged, start, count, rfl, at_, _, _⟩
      have kept := executed.rolled.kept executed.settledLeaves positive recorded.flags found at_
      exact { kept with }
    copied := by
      intro idx entry compact found stored
      rcases executed.objectIndex_eq made stored with ⟨tagged, at_, same, fixed⟩
      rcases recorded.tagged.tagged idx entry found with ⟨objectIndex, known, before⟩
      rw [at_, Option.some.injEq] at before
      rw [fixed, same, before]
      rfl
    recorded := by
      intro idx entry compact found stored
      rcases executed.objectIndex_eq made stored with ⟨tagged, at_, same, _⟩
      rw [same, made.objects_eq, executed.objects_eq]
      exact recorded.recorded idx entry tagged found at_
    unrecorded := by
      intro idx entry compact found stored
      rcases executed.objectIndex_eq made stored with ⟨tagged, at_, same, _⟩
      rw [same]
      exact recorded.unrecorded idx entry tagged found at_
    held := by
      intro idx other entry otherEntry left right found otherFound leftStored rightStored
      rcases executed.objectIndex_eq made leftStored with ⟨leftTagged, leftAt, leftSame, _⟩
      rcases executed.objectIndex_eq made rightStored with ⟨rightTagged, rightAt, rightSame, _⟩
      rw [leftSame, rightSame]
      exact recorded.held idx other entry otherEntry leftTagged rightTagged found otherFound
        leftAt rightAt
    objects_le := by
      rw [made.objects_eq, executed.objects_eq]
      exact recorded.objects_le
    known_eq := by rw [made.known_eq, executed.known_eq, recorded.known_eq]
    indeterminate_eq := by
      rw [made.indeterminate_eq, executed.indeterminate_eq, recorded.indeterminate_eq] }

end Executed

namespace Reached

variable (reached : Reached target builder records)

include reached

/-- A graph with entries is made of aggregates that went through all phases. -/
theorem executed (ran : builder.finish rt = .ok (.ok graph)) (nonempty : entriesOf records ≠ []) :
    ∃ aggregates normalized treeDelta leaves final slices,
      Executed rt builder reached.snapshot aggregates normalized treeDelta leaves final slices ∧
        MadeOf graph aggregates := by
  unfold finish at ran
  split at ran
  · cases ran
  · next term ended =>
      rw [if_neg (fun none => nonempty (reached.builder_entries_eq_nil_iff.mp none)),
        Checked.bind_eq_ok] at ran
      rcases ran with ⟨aggregates, computed, result⟩
      simp only [Checked.pure_eq_ok, Except.ok.injEq] at result
      subst result
      rcases computeAggregates_executed rt reached.represents (s := reached.snapshot) rfl
        (List.length_pos_iff.mpr nonempty) computed with
        ⟨_, _, normalized, treeDelta, leaves, final, slices, executed⟩
      refine ⟨aggregates, normalized, treeDelta, leaves, final, slices, executed, ?_, rfl, rfl, rfl,
        rfl⟩
      simp only [storageOf]
      split <;> rfl

/-- A graph without entries is the empty graph. -/
theorem eq_emptyGraph (ran : builder.finish rt = .ok (.ok graph)) (empty : entriesOf records = []) :
    ∃ term, graph = builder.emptyGraph term := by
  unfold finish at ran
  split at ran
  · cases ran
  · next term ended =>
      rw [if_pos (reached.builder_entries_eq_nil_iff.mpr empty)] at ran
      split at ran
      · cases ran
      · simp only [Except.ok.injEq] at ran
        exact ⟨term, ran.symm⟩

/-- Every graph a builder returns presents the accepted entries in full. -/
theorem presented (ran : builder.finish rt = .ok (.ok graph)) :
    Presented rt reached.snapshot graph := by
  by_cases empty : entriesOf records = []
  · rcases reached.eq_emptyGraph ran empty with ⟨term, rfl⟩
    apply Presented.empty (s := reached.snapshot) empty term
    rw [reached.represents.tally.known_eq, empty]
    rfl
  · rcases reached.executed ran empty with
      ⟨aggregates, normalized, treeDelta, leaves, final, slices, executed, made⟩
    exact executed.presented made reached.represents.core reached.represents.tally
      (List.length_pos_iff.mpr empty) (reached.finished ran).1

end Reached

end GraphBuilder

end PigTree
