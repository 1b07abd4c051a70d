import PigTree.Engine.HardLinks

/-!
# Renamed identifiers

Renaming the identifiers of a snapshot by an increasing map renames what the
snapshot says and changes nothing else: positions, and with them subtrees and
sums, stay; children keep their order because the map keeps that of the
identifiers.
-/

namespace PigTree

open Foundation ParentTree EntryObservation

/-! ### Increasing maps -/

/-- The map keeps the order of the identifiers. -/
def IncreasingOn (f : UInt32 → UInt32) (ids : List UInt32) : Prop :=
  ∀ left ∈ ids, ∀ right ∈ ids, left < right → f left < f right

/-- Decided over the list, not over all words. -/
instance (f : UInt32 → UInt32) (ids : List UInt32) : Decidable (IncreasingOn f ids) :=
  decidable_of_iff (ids.all (fun left => ids.all
    (fun right => decide (left < right → f left < f right))) = true) 
    (by simp only [IncreasingOn, List.all_eq_true, decide_eq_true_eq])

namespace IncreasingOn

variable {f : UInt32 → UInt32} {ids : List UInt32} (increasing : IncreasingOn f ids)

include increasing

theorem mono {fewer : List UInt32} (subset : fewer ⊆ ids) : IncreasingOn f fewer :=
  fun left leftMem right rightMem => increasing left (subset leftMem) right (subset rightMem)

theorem lt_iff {left right : UInt32} (leftMem : left ∈ ids) (rightMem : right ∈ ids) :
    f left < f right ↔ left < right := by
  constructor
  · intro smaller
    by_contra larger
    rcases UInt32.lt_or_eq_of_le (UInt32.not_lt.mp larger) with other | same
    · exact UInt32.lt_asymm smaller (increasing right rightMem left leftMem other)
    · rw [same] at smaller
      exact UInt32.lt_irrefl _ smaller
  · exact increasing left leftMem right rightMem

theorem inj {left right : UInt32} (leftMem : left ∈ ids) (rightMem : right ∈ ids) :
    f left = f right ↔ left = right := by
  constructor
  · intro same
    apply UInt32.le_antisymm
    · rw [← UInt32.not_lt, ← increasing.lt_iff rightMem leftMem, same]
      exact UInt32.lt_irrefl _
    · rw [← UInt32.not_lt, ← increasing.lt_iff leftMem rightMem, same]
      exact UInt32.lt_irrefl _
  · exact congrArg f

omit increasing

/-- Only the identity keeps the order of all identifiers. -/
theorem eq_id (increasing : ∀ left right, left < right → f left < f right) : f = id := by
  let onFin : Fin (2 ^ 32) → Fin (2 ^ 32) := fun word => (f (UInt32.ofFin word)).toFin
  have mono : StrictMono onFin := by
    intro left right smaller
    exact increasing (UInt32.ofFin left) (UInt32.ofFin right) smaller
  funext word
  have same : onFin word.toFin = word.toFin := le_antisymm mono.apply_le mono.le_apply
  exact UInt32.toFin_inj.mp same

/-- A map that keeps an order and reaches every identifier is the identity. -/
theorem eq_id_of_surjective (increasing : IncreasingOn f ids)
    (onto : ∀ word, ∃ id ∈ ids, f id = word) : f = id := by
  choose source sourceMem sourceImage using onto
  have back : source = id := by
    apply eq_id
    intro left right smaller
    rw [← increasing.lt_iff (sourceMem left) (sourceMem right), sourceImage, sourceImage]
    exact smaller
  funext word
  have image := sourceImage word
  rwa [back] at image

end IncreasingOn

/-! ### Renaming records -/

def EntryObservation.rename (f : UInt32 → UInt32) : EntryObservation → EntryObservation
  | .directory seen =>
      .directory { seen with entryId := f seen.entryId, parentId := f seen.parentId }
  | .file seen => .file { seen with entryId := f seen.entryId, parentId := f seen.parentId }
  | .special seen => .special { seen with entryId := f seen.entryId, parentId := f seen.parentId }

def StreamObservation.rename (f : UInt32 → UInt32) (seen : StreamObservation) :
    StreamObservation :=
  { seen with parentEntryId := f seen.parentEntryId }

def ObservationRecord.rename (f : UInt32 → UInt32) : ObservationRecord → ObservationRecord
  | .directory seen =>
      .directory { seen with entryId := f seen.entryId, parentId := f seen.parentId }
  | .file seen => .file { seen with entryId := f seen.entryId, parentId := f seen.parentId }
  | .special seen => .special { seen with entryId := f seen.entryId, parentId := f seen.parentId }
  | .contentStream seen => .contentStream (seen.rename f)
  | .coverageGap gap => .coverageGap gap
  | .terminal term => .terminal term

def GraphEntry.rename (f : UInt32 → UInt32) (entry : GraphEntry) : GraphEntry :=
  { entry with id := f entry.id, parentId := f entry.parentId, children := entry.children.map f }

namespace EntryObservation

variable (f : UInt32 → UInt32) (entry : EntryObservation)

@[simp]
theorem rename_entryId : (entry.rename f).entryId = f entry.entryId := by
  cases entry <;> rfl

@[simp]
theorem rename_parentId : (entry.rename f).parentId = f entry.parentId := by
  cases entry <;> rfl

@[simp]
theorem rename_name : (entry.rename f).name = entry.name := by
  cases entry <;> rfl

@[simp]
theorem rename_kind : (entry.rename f).kind = entry.kind := by
  cases entry <;> rfl

@[simp]
theorem rename_selfAllocated : (entry.rename f).selfAllocated = entry.selfAllocated := by
  cases entry <;> rfl

@[simp]
theorem rename_logicalBytes : (entry.rename f).logicalBytes = entry.logicalBytes := by
  cases entry <;> rfl

@[simp]
theorem rename_fileIdentity : (entry.rename f).fileIdentity = entry.fileIdentity := by
  cases entry <;> rfl

@[simp]
theorem rename_fileAllocated : (entry.rename f).fileAllocated = entry.fileAllocated := by
  cases entry <;> rfl

@[simp]
theorem rename_linkCount : (entry.rename f).linkCount = entry.linkCount := by
  cases entry <;> rfl

@[simp]
theorem rename_allocatedBytes : (entry.rename f).allocatedBytes = entry.allocatedBytes := by
  simp [allocatedBytes]

@[simp]
theorem rename_anonymousAllocated :
    (entry.rename f).anonymousAllocated = entry.anonymousAllocated := by
  simp [anonymousAllocated]

@[simp]
theorem rename_allocationMissing :
    (entry.rename f).allocationMissing = entry.allocationMissing := by
  simp [allocationMissing]

/-- A stored entry differs in its identifiers only. -/
theorem rename_compact : (entry.rename f).compact =
    { entry.compact with id := f entry.entryId, parentId := f entry.parentId } := by
  cases entry <;> rfl

@[simp]
theorem rename_isIndeterminate :
    GraphBuilder.isIndeterminate (entry.rename f) = GraphBuilder.isIndeterminate entry := by
  cases entry <;> rfl

end EntryObservation

theorem entriesOf_rename (f : UInt32 → UInt32) (records : List ObservationRecord) :
    entriesOf (records.map (ObservationRecord.rename f)) =
      (entriesOf records).map (EntryObservation.rename f) := by
  rw [entriesOf, entriesOf, List.filterMap_map, List.map_filterMap]
  apply List.filterMap_congr
  intro record _
  cases record <;> rfl

theorem streamsOf_rename (f : UInt32 → UInt32) (records : List ObservationRecord) :
    streamsOf (records.map (ObservationRecord.rename f)) =
      (streamsOf records).map (StreamObservation.rename f) := by
  rw [streamsOf, streamsOf, List.filterMap_map, List.map_filterMap]
  apply List.filterMap_congr
  intro record _
  cases record <;> rfl

theorem gapsOf_rename (f : UInt32 → UInt32) (records : List ObservationRecord) :
    gapsOf (records.map (ObservationRecord.rename f)) =
      gapsOf records := by
  rw [gapsOf, gapsOf, List.filterMap_map]
  apply List.filterMap_congr
  intro record _
  cases record <;> rfl

@[simp]
theorem ObservationRecord.rename_terminal? (f : UInt32 → UInt32) (record : ObservationRecord) :
    (record.rename f).terminal? = record.terminal? := by
  cases record <;> rfl

namespace Snapshot

variable {s t : Snapshot} {f : UInt32 → UInt32}

/-- The identifiers of a snapshot, with the one that names no parent. -/
def ids (s : Snapshot) : List UInt32 := 0 :: s.entries.map entryId

/-- `t` is `s` with its identifiers renamed in their order. -/
structure RenamedTo (f : UInt32 → UInt32) (s t : Snapshot) : Prop where
  entries_eq : t.entries = s.entries.map (EntryObservation.rename f)
  zero : f 0 = 0
  increasing : IncreasingOn f s.ids

theorem entryId_mem_ids {entry : EntryObservation} (entryMem : entry ∈ s.entries) :
    entry.entryId ∈ s.ids :=
  List.mem_cons_of_mem _ (List.mem_map_of_mem entryMem)

theorem zero_mem_ids : 0 ∈ s.ids := List.mem_cons_self

theorem parentId_mem_ids {entry : EntryObservation} (entryMem : entry ∈ s.entries) :
    entry.parentId ∈ s.ids := by
  rcases List.mem_iff_getElem?.mp entryMem with ⟨idx, found⟩
  by_cases above : entry.parentId = 0
  · rw [above]
    exact zero_mem_ids
  · have positive : 0 < idx := by
      apply Nat.pos_of_ne_zero
      exact fun first => above ((parentId_eq_zero_iff found).mpr first)
    rcases s.wellFormed.parent found positive with ⟨_, _, parent, at_, named, _⟩
    rw [← named]
    exact entryId_mem_ids (List.mem_of_getElem? at_)

namespace RenamedTo

variable (renamed : RenamedTo f s t)

include renamed

theorem lt_iff {left right : UInt32} (leftMem : left ∈ s.ids) (rightMem : right ∈ s.ids) :
    f left < f right ↔ left < right :=
  renamed.increasing.lt_iff leftMem rightMem

theorem inj {left right : UInt32} (leftMem : left ∈ s.ids) (rightMem : right ∈ s.ids) :
    f left = f right ↔ left = right :=
  renamed.increasing.inj leftMem rightMem

theorem eq_zero_iff {id : UInt32} (idMem : id ∈ s.ids) : f id = 0 ↔ id = 0 := by
  rw [← renamed.inj idMem zero_mem_ids, renamed.zero]

/-! ### Positions and subtrees -/

theorem getElem?_eq (idx : ℕ) :
    t.entries[idx]? = (s.entries[idx]?).map (EntryObservation.rename f) := by
  rw [renamed.entries_eq, List.getElem?_map]

theorem length_eq : t.entries.length = s.entries.length := by
  rw [renamed.entries_eq, List.length_map]

theorem indexOf_eq {id : UInt32} (known : id ∈ s.entries.map entryId) :
    indexOf t.entries (f id) = indexOf s.entries id := by
  rcases List.mem_map.mp known with ⟨entry, entryMem, rfl⟩
  rcases List.mem_iff_getElem?.mp entryMem with ⟨idx, found⟩
  have other : t.entries[idx]? = some (entry.rename f) := by
    rw [renamed.getElem?_eq, found]
    rfl
  rw [s.wellFormed.indexOf_eq found, ← entry.rename_entryId f, t.wellFormed.indexOf_eq other]

theorem tree_eq : t.tree.parent = s.tree.parent := by
  funext idx
  rw [tree_parent, tree_parent, parentIndex, parentIndex, renamed.getElem?_eq]
  cases found : s.entries[idx]? with
  | none => rfl
  | some entry =>
      simp only [Option.map_some, rename_parentId]
      split
      · rfl
      · next positive =>
          rcases s.wellFormed.parent found (Nat.pos_of_ne_zero positive) with
            ⟨_, _, parent, at_, named, _⟩
          apply renamed.indexOf_eq
          rw [← named]
          exact List.mem_map_of_mem (List.mem_of_getElem? at_)

theorem subtree_eq {id : UInt32} (known : id ∈ s.entries.map entryId) :
    t.subtree (f id) = (s.subtree id).map (EntryObservation.rename f) := by
  have above : ∀ top node, t.tree.IsAncestor top node ↔ s.tree.IsAncestor top node := by
    intro top node
    simp only [IsAncestor, renamed.tree_eq]
  simp only [subtree, renamed.indexOf_eq known, renamed.length_eq, above, List.map_filterMap,
    renamed.getElem?_eq]

/-! ### Sums -/

theorem logicalBytes_eq {id : UInt32} (known : id ∈ s.entries.map entryId) :
    t.logicalBytes (f id) = s.logicalBytes id := by
  simp only [Snapshot.logicalBytes, renamed.subtree_eq known, List.map_map, Function.comp_def,
    rename_logicalBytes]

theorem referencedBytes_eq {id : UInt32} (known : id ∈ s.entries.map entryId) :
    t.referencedBytes (f id) = s.referencedBytes id := by
  simp only [referencedBytes, renamed.subtree_eq known, List.map_map, Function.comp_def,
    rename_allocatedBytes]

theorem aliases_eq (identity : ObjectIdentity) :
    t.aliases identity = (s.aliases identity).map (EntryObservation.rename f) := by
  simp only [aliases, renamed.entries_eq, List.filter_map, Function.comp_def, rename_fileIdentity]

theorem knownAllocations_eq (identity : ObjectIdentity) :
    t.knownAllocations identity = s.knownAllocations identity := by
  simp only [knownAllocations, renamed.entries_eq, List.filterMap_map, Function.comp_def,
    rename_fileIdentity, rename_fileAllocated]

theorem uniqueBytes_eq {id : UInt32} (known : id ∈ s.entries.map entryId) :
    t.uniqueBytes (f id) = s.uniqueBytes id := by
  simp only [uniqueBytes, identities, weight, renamed.subtree_eq known, List.map_map,
    List.filterMap_map, Function.comp_def, rename_selfAllocated, rename_fileIdentity,
    rename_anonymousAllocated, renamed.knownAllocations_eq]

/-! ### Evidence -/

theorem linkEvidence_eq (identity : ObjectIdentity) :
    t.linkEvidence identity = s.linkEvidence identity := by
  simp only [linkEvidence, renamed.aliases_eq, List.map_map, Function.comp_def, rename_linkCount]

theorem linkStatusOf_eq (identity : ObjectIdentity) :
    t.linkStatusOf identity = s.linkStatusOf identity := by
  simp only [linkStatusOf, renamed.linkEvidence_eq, renamed.aliases_eq, List.length_map]

theorem sharedObject_eq (identity : ObjectIdentity) :
    t.sharedObject identity = s.sharedObject identity := by
  simp only [sharedObject, renamed.linkEvidence_eq, renamed.aliases_eq, List.length_map,
    renamed.linkStatusOf_eq, renamed.knownAllocations_eq]

theorem objectOf_eq (entry : EntryObservation) : t.objectOf (entry.rename f) = s.objectOf entry := by
  cases entry with
  | directory dir => rfl
  | special special => rfl
  | file file =>
      simp only [EntryObservation.rename, objectOf, renamed.sharedObject_eq]
      rfl

theorem disputed_eq (entry : EntryObservation) : t.disputed (entry.rename f) = s.disputed entry := by
  simp only [disputed, Contradicted, rename_fileIdentity, renamed.knownAllocations_eq]

theorem leafKnown_eq (entry : EntryObservation) :
    t.leafKnown (entry.rename f) = s.leafKnown entry := by
  rw [leafKnown, leafKnown, renamed.disputed_eq, rename_compact]

theorem subtreeKnown_eq {id : UInt32} (known : id ∈ s.entries.map entryId) :
    t.subtreeKnown (f id) = s.subtreeKnown id := by
  simp only [subtreeKnown, renamed.subtree_eq known, List.all_map, Function.comp_def,
    renamed.leafKnown_eq]

theorem allocationsKnown_eq : t.allocationsKnown = s.allocationsKnown := by
  simp only [allocationsKnown, renamed.entries_eq, List.any_map, Function.comp_def,
    rename_allocationMissing, renamed.disputed_eq]

theorem indeterminateObjects_eq : t.indeterminateObjects = s.indeterminateObjects := by
  simp only [indeterminateObjects, renamed.entries_eq, List.filterMap_map, List.countP_map,
    Function.comp_def, rename_fileIdentity, rename_isIndeterminate, renamed.linkStatusOf_eq]

/-! ### Answers -/

theorem childrenOf_eq {id : UInt32} (known : id ∈ s.ids) :
    t.childrenOf (f id) = (s.childrenOf id).map (EntryObservation.rename f) := by
  simp only [childrenOf, renamed.entries_eq, List.filter_map, Function.comp_def, rename_parentId]
  congr 1
  apply List.filter_congr
  intro entry entryMem
  have parentMem := parentId_mem_ids entryMem
  simp only [ne_eq, renamed.eq_zero_iff parentMem, renamed.inj parentMem known]

theorem shownLogical_eq {entry : EntryObservation} (entryMem : entry ∈ s.entries) :
    t.shownLogical (entry.rename f) = s.shownLogical entry := by
  simp only [shownLogical, rename_kind, rename_entryId, rename_compact,
    renamed.logicalBytes_eq (List.mem_map_of_mem entryMem)]

theorem shownAllocated_eq {entry : EntryObservation} (entryMem : entry ∈ s.entries) :
    t.shownAllocated (entry.rename f) = s.shownAllocated entry := by
  simp only [shownAllocated, rename_kind, rename_entryId, rename_compact,
    renamed.referencedBytes_eq (List.mem_map_of_mem entryMem)]

theorem shownEvidence_eq (entry : EntryObservation) :
    t.shownEvidence (entry.rename f) = s.shownEvidence entry := by
  simp only [shownEvidence, renamed.objectOf_eq, rename_kind]

variable {rt rt' : Runtime} (lowercase : rt.toLowercase = rt'.toLowercase)

include lowercase

/-- The keys compare as before; the identifiers decide last, and in the same order. -/
theorem sortKey_le_iff {left right : EntryObservation} (leftMem : left ∈ s.entries)
    (rightMem : right ∈ s.entries) :
    t.sortKey rt' (left.rename f) ≤ t.sortKey rt' (right.rename f) ↔
      s.sortKey rt left ≤ s.sortKey rt right := by
  have last : (f left.entryId).toNat ≤ (f right.entryId).toNat ↔
      left.entryId.toNat ≤ right.entryId.toNat := by
    rw [← UInt32.le_iff_toNat_le, ← UInt32.le_iff_toNat_le, ← UInt32.not_lt, ← UInt32.not_lt,
      renamed.lt_iff (entryId_mem_ids rightMem) (entryId_mem_ids leftMem)]
  simp only [sortKey, rename_kind, rename_name, rename_entryId, renamed.shownLogical_eq leftMem,
    renamed.shownLogical_eq rightMem, lowercase, Prod.Lex.toLex_le_toLex, last]

theorem orderedChildren_eq {id : UInt32} (known : id ∈ s.ids) :
    t.orderedChildren rt' (f id) = (s.orderedChildren rt id).map (EntryObservation.rename f) := by
  rw [orderedChildren, orderedChildren, renamed.childrenOf_eq known]
  symm
  apply List.map_insertionSort
  intro left leftMem right rightMem
  exact (renamed.sortKey_le_iff lowercase (List.mem_filter.mp leftMem).1
    (List.mem_filter.mp rightMem).1).symm

/-- The projection of a renamed entry is the renamed projection. -/
theorem present_eq {entry : EntryObservation} (entryMem : entry ∈ s.entries) :
    t.present rt' (entry.rename f) = (s.present rt entry).rename f := by
  have known := List.mem_map_of_mem entryMem (f := entryId)
  simp only [present, GraphEntry.rename, rename_entryId, rename_parentId, rename_name, rename_kind,
    rename_compact, renamed.shownLogical_eq entryMem, renamed.shownAllocated_eq entryMem,
    renamed.subtreeKnown_eq known, renamed.referencedBytes_eq known, renamed.uniqueBytes_eq known,
    renamed.shownEvidence_eq, renamed.orderedChildren_eq lowercase (entryId_mem_ids entryMem),
    List.map_map, Function.comp_def]

omit lowercase

/-! ### Paths and streams -/

theorem find_eq {id : UInt32} (known : id ∈ s.ids) :
    t.find (f id) = (s.find id).map (EntryObservation.rename f) := by
  apply Option.ext
  intro other
  simp only [find_eq_some_iff, Option.map_eq_some_iff, renamed.entries_eq, List.mem_map]
  constructor
  · rintro ⟨⟨entry, entryMem, rfl⟩, named⟩
    rw [rename_entryId, renamed.inj (entryId_mem_ids entryMem) known] at named
    exact ⟨entry, ⟨entryMem, named⟩, rfl⟩
  · rintro ⟨entry, ⟨entryMem, rfl⟩, rfl⟩
    exact ⟨⟨entry, entryMem, rfl⟩, entry.rename_entryId f⟩

theorem namesToRoot_eq (fuel : ℕ) {entry : EntryObservation} (entryMem : entry ∈ s.entries) :
    t.namesToRoot fuel (entry.rename f) = s.namesToRoot fuel entry := by
  induction fuel generalizing entry with
  | zero => rfl
  | succ fuel ih =>
      have parentMem := parentId_mem_ids entryMem
      simp only [namesToRoot, rename_parentId, rename_name, renamed.eq_zero_iff parentMem,
        renamed.find_eq parentMem]
      split
      · rfl
      · cases located : s.find entry.parentId with
        | none => rfl
        | some parent => simp only [Option.map_some, ih (find_eq_some_iff.mp located).1]

theorem path_eq {entry : EntryObservation} (entryMem : entry ∈ s.entries) :
    t.path (entry.rename f) = s.path entry := by
  rw [path, path, renamed.length_eq, renamed.namesToRoot_eq _ entryMem]

theorem reportedPaths_eq : t.reportedPaths = s.reportedPaths := by
  rw [reportedPaths, reportedPaths, renamed.entries_eq, List.filterMap_map]
  apply List.filterMap_congr
  intro entry entryMem
  simp only [Function.comp_apply, reportedAs, rename_fileIdentity, renamed.sharedObject_eq,
    rename_entryId, ne_eq, renamed.eq_zero_iff (entryId_mem_ids entryMem), renamed.path_eq entryMem]

theorem hardLinks_eq : t.hardLinks = s.hardLinks := by
  simp only [hardLinks, renamed.reportedPaths_eq]
  apply List.map_congr_left
  intro identity _
  simp only [summary, renamed.sharedObject_eq, renamed.reportedPaths_eq]

theorem sameObject_eq {left right : EntryObservation} (leftMem : left ∈ s.entries)
    (rightMem : right ∈ s.entries) :
    sameObject (left.rename f) (right.rename f) = sameObject left right := by
  simp only [sameObject, rename_entryId, rename_fileIdentity,
    renamed.inj (entryId_mem_ids leftMem) (entryId_mem_ids rightMem)]

theorem streamsFor_eq {streams : List StreamObservation} {entry : EntryObservation}
    (entryMem : entry ∈ s.entries)
    (known : ∀ stream ∈ streams, stream.parentEntryId ∈ s.ids) :
    t.streamsFor (streams.map (StreamObservation.rename f)) (entry.rename f) =
      s.streamsFor streams entry := by
  have owners : streams.filter (fun stream =>
        (t.find (stream.rename f).parentEntryId).any (sameObject (entry.rename f))) =
      streams.filter (fun stream => (s.find stream.parentEntryId).any (sameObject entry)) := by
    apply List.filter_congr
    intro stream streamMem
    rw [StreamObservation.rename, renamed.find_eq (known stream streamMem)]
    cases located : s.find stream.parentEntryId with
    | none => rfl
    | some parent => exact renamed.sameObject_eq entryMem (find_eq_some_iff.mp located).1
  simp only [streamsFor, renamed.objectOf_eq, List.filter_map, Function.comp_def, owners,
    List.map_map]
  rfl

/-- Whether every directory can afford its subtractions does not change. -/
theorem affordable_eq : GraphBuilder.Affordable t ↔ GraphBuilder.Affordable s := by
  rw [affordable_iff, affordable_iff, renamed.entries_eq]
  simp only [List.mem_map, forall_exists_index, and_imp, forall_apply_eq_imp_iff₂, rename_kind,
    rename_entryId]
  have same : ∀ dir ∈ s.entries,
      ((t.childrenOf (f dir.entryId)).map (fun child => t.uniqueBytes child.entryId / 2 ^ 64)).sum =
        ((s.childrenOf dir.entryId).map (fun child => s.uniqueBytes child.entryId / 2 ^ 64)).sum := by
    intro dir dirMem
    rw [renamed.childrenOf_eq (entryId_mem_ids dirMem), List.map_map]
    apply congrArg List.sum
    apply List.map_congr_left
    intro child childMem
    have accepted := (List.mem_filter.mp childMem).1
    rw [Function.comp_apply, rename_entryId,
      renamed.uniqueBytes_eq (List.mem_map_of_mem accepted)]
  constructor
  · intro affordable dir dirMem directory
    rw [← same dir dirMem, ← renamed.uniqueBytes_eq (List.mem_map_of_mem dirMem)]
    exact affordable dir dirMem directory
  · intro affordable dir dirMem directory
    rw [same dir dirMem, renamed.uniqueBytes_eq (List.mem_map_of_mem dirMem)]
    exact affordable dir dirMem directory

end RenamedTo

end Snapshot

end PigTree
