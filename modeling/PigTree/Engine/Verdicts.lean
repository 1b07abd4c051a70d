import PigTree.Engine.Represents

/-!
# What the builder answers

The answer to a record as a function of the records accepted before it. Dense
and sparse lookup give the same answers, except when the dense numbers have run
out: the word after the last one wraps to `0`, which counts as used.
-/

namespace PigTree

open Foundation EntryObservation

namespace GraphBuilder

/-- The answer to an entry, given the entries accepted before it. -/
def entryVerdict (entries : List EntryObservation) (entry : EntryObservation) :
    Except GraphBuildError Unit :=
  if entry.entryId = entry.parentId then .error (.selfParent entry.entryId)
  else if entries = [] then
    if entry.entryId ≠ 1 ∨ entry.parentId ≠ 0 then
      .error (.invalidRoot entry.entryId entry.parentId)
    else if entry.kind ≠ .directory then .error (.invalidRoot entry.entryId entry.parentId)
    else .ok ()
  else if entry.parentId = 0 ∨ entry.entryId = 1 then
    .error (.invalidRoot entry.entryId entry.parentId)
  else if entry.entryId ∈ entries.map entryId then .error (.duplicateEntryId entry.entryId)
  else
    match entries.find? (fun other => other.entryId = entry.parentId) with
    | none => .error (.missingParent entry.entryId entry.parentId)
    | some parent =>
        if parent.kind ≠ .directory then
          .error (.parentNotDirectory entry.entryId entry.parentId)
        else .ok ()

variable {builder : GraphBuilder} {entries : List EntryObservation}

/-- An identifier is found where it is stored. -/
theorem find?_eq_some (wellFormed : WellFormed entries) {idx : ℕ} {entry : EntryObservation}
    (found : entries[idx]? = some entry) :
    entries.find? (fun other => other.entryId = entry.entryId) = some entry := by
  cases located : entries.find? (fun other => other.entryId = entry.entryId) with
  | none =>
      have absent := List.find?_eq_none.mp located entry (List.mem_of_getElem? found)
      simp at absent
  | some other =>
      have named : other.entryId = entry.entryId := by simpa using List.find?_some located
      rw [wellFormed.eq_of_entryId (List.mem_of_find?_eq_some located)
        (List.mem_of_getElem? found) named]

theorem Core.lookupParent_none (core : Core builder entries) {parentId : UInt32}
    (absent : builder.lookupParent parentId = none) :
    entries.find? (fun other => other.entryId = parentId) = none := by
  cases located : entries.find? (fun other => other.entryId = parentId) with
  | none => rfl
  | some other =>
      have named : other.entryId = parentId := by simpa using List.find?_some located
      rcases List.mem_iff_getElem?.mp (List.mem_of_find?_eq_some located) with ⟨idx, found⟩
      have lookedUp := core.lookupParent_complete found
      rw [named, absent] at lookedUp
      cases lookedUp

theorem Core.lookupParent_some (core : Core builder entries) {parentId : UInt32} {idx : ℕ}
    (positive : parentId ≠ 0) (located : builder.lookupParent parentId = some idx) :
    ∃ parent, entries[idx]? = some parent ∧
      entries.find? (fun other => other.entryId = parentId) = some parent := by
  rcases core.lookupParent_sound positive located with ⟨parent, found, rfl⟩
  exact ⟨parent, found, find?_eq_some core.wellFormed found⟩

/-- The duplicate check is membership while there are dense numbers left. -/
theorem Core.isDuplicate_eq (core : Core builder entries) {id : UInt32}
    (aligned : builder.isDense = true → id = UInt32.ofNat (entries.length + 1))
    (room : builder.isDense = true → entries.length + 1 < 2 ^ 32) :
    builder.isDuplicate id = decide (id ∈ entries.map entryId) := by
  cases passed : builder.isDuplicate id with
  | false =>
      have fresh := (core.fresh_of_not_isDuplicate aligned passed).1
      exact (decide_eq_false fresh).symm
  | true =>
      symm
      apply decide_eq_true
      by_contra fresh
      cases dense : builder.isDense with
      | true => simp [core.not_isDuplicate_of_fresh aligned fresh (room dense)] at passed
      | false =>
          have located := core.indexed.sparse dense
          simp only [isDuplicate, dense, Bool.false_eq_true, if_false,
            Option.isSome_iff_exists] at passed
          rcases passed with ⟨idx, found⟩
          rcases (located id idx).mp found with ⟨entry, stored, named⟩
          exact fresh (List.mem_map.mpr ⟨entry, List.mem_of_getElem? stored, named⟩)

theorem isDense_switchToSparse (builder : GraphBuilder) (id : UInt32) :
    (builder.switchToSparse id).isDense =
      (builder.isDense && decide (id = UInt32.ofNat (builder.entries.length + 1))) := by
  unfold switchToSparse
  split
  · next both => rw [decide_eq_false both.2, Bool.and_false]
  · next stays =>
      cases dense : builder.isDense with
      | false => rfl
      | true =>
          by_cases next : id = UInt32.ofNat (builder.entries.length + 1)
          · simp [next]
          · exact absurd ⟨dense, next⟩ stays

/-- An insertion answers with the verdict on its entry, while numbers are left for a builder
that is still dense then. -/
theorem Core.validateAndInsertEntry_answer (core : Core builder entries) (entry : EntryObservation)
    (room : entry.entryId ≠ entry.parentId → builder.isDense = true →
      entry.entryId = UInt32.ofNat (builder.entries.length + 1) → entries.length + 1 < 2 ^ 32) :
    ∃ next, builder.validateAndInsertEntry entry.entryId entry.parentId entry.compact
      entry.selfAlloc = .ok (entryVerdict entries entry, next) := by
  have inserted := validateAndInsertEntry_spec core entry
  unfold validateAndInsertEntry at inserted ⊢
  unfold entryVerdict
  rw [core.length_entries] at inserted ⊢
  split
  · exact ⟨_, rfl⟩
  next differ =>
  have roomy : (builder.switchToSparse entry.entryId).isDense = true →
      entries.length + 1 < 2 ^ 32 := by
    intro dense
    rw [isDense_switchToSparse, Bool.and_eq_true] at dense
    exact room differ dense.1 (of_decide_eq_true dense.2)
  rw [if_neg differ] at inserted
  by_cases empty : entries = []
  · subst empty
    simp only [List.length_nil, if_true, compact_kind]
    split
    · exact ⟨_, rfl⟩
    split
    · exact ⟨_, rfl⟩
    · exact ⟨_, rfl⟩
  have someEntries : ¬entries.length = 0 := by simpa using empty
  rw [if_neg someEntries] at inserted ⊢
  rw [if_neg empty]
  by_cases misplaced : entry.parentId = 0 ∨ entry.entryId = 1
  · rw [if_pos misplaced, if_pos misplaced]
    exact ⟨_, rfl⟩
  rw [if_neg misplaced] at inserted ⊢
  rw [if_neg misplaced]
  have below : entry.parentId ≠ 0 := fun zero => misplaced (Or.inl zero)
  have switched := core.switchToSparse entry.entryId
  have aligned := core.length_entries ▸ Core.switchToSparse_aligned builder entry.entryId
  unfold insertBelowRoot at inserted ⊢
  rw [switched.isDuplicate_eq aligned roomy] at inserted ⊢
  by_cases duplicate : entry.entryId ∈ entries.map entryId
  · simp only [duplicate, decide_true, if_true]
    exact ⟨_, rfl⟩
  simp only [duplicate, decide_false, Bool.false_eq_true, if_false] at inserted ⊢
  cases located : (builder.switchToSparse entry.entryId).lookupParent entry.parentId with
  | none =>
      simp only [switched.lookupParent_none located]
      exact ⟨_, rfl⟩
  | some parentIdx =>
      rcases switched.lookupParent_some below located with ⟨parent, found, lookedUp⟩
      simp only [located, lookedUp, getAt_of_getElem? (switched.getElem?_entries found),
        Checked.ok_bind, compact_kind] at inserted ⊢
      by_cases directory : parent.kind = .directory
      · simp only [directory, ne_eq, not_true_eq_false, if_false] at inserted ⊢
        -- an insertion never aborts, so linking the child did not
        cases linked : (builder.switchToSparse entry.entryId).linkChild parentIdx with
        | ok next => exact ⟨_, rfl⟩
        | error fault =>
            rw [linked] at inserted
            cases inserted
      · simp only [directory, ne_eq, not_false_eq_true, if_true]
        exact ⟨_, rfl⟩

/-- A stream is accepted exactly below an accepted entry. -/
theorem Core.storageGetIdx_isSome (core : Core builder entries) (id : UInt32) :
    (builder.storageGetIdx id).isSome = decide (id ∈ entries.map entryId) := by
  apply Bool.eq_iff_iff.mpr
  rw [decide_eq_true_iff, Option.isSome_iff_exists]
  unfold storageGetIdx
  split
  · next dense =>
      constructor
      · rintro ⟨idx, found⟩
        split at found
        · cases found
        · next within =>
            simp only [core.length_entries, not_or, not_lt] at within
            have nonzero : id.toNat ≠ 0 := fun zero => within.1 (UInt32.toNat_inj.mp zero)
            have bound : id.toNat - 1 < entries.length := by omega
            refine List.mem_map.mpr ⟨_, List.getElem_mem bound, UInt32.toNat_inj.mp ?_⟩
            rw [core.indexed.dense dense _ _ (List.getElem?_eq_getElem bound)]
            omega
      · intro known
        rcases List.mem_map.mp known with ⟨entry, entryMem, rfl⟩
        rcases List.mem_iff_getElem?.mp entryMem with ⟨idx, found⟩
        have named := core.indexed.dense dense idx entry found
        have bound := (List.getElem?_eq_some_iff.mp found).1
        refine ⟨_, if_neg ?_⟩
        rw [core.length_entries, not_or]
        constructor
        · intro zero
          rw [zero] at named
          simp at named
        · omega
  · next sparse =>
      have located := core.indexed.sparse (by simpa using sparse)
      simp only [Option.map_eq_some_iff]
      constructor
      · rintro ⟨_, idx, found, _⟩
        rcases (located id idx).mp found with ⟨entry, stored, named⟩
        exact List.mem_map.mpr ⟨entry, List.mem_of_getElem? stored, named⟩
      · intro known
        rcases List.mem_map.mp known with ⟨entry, entryMem, rfl⟩
        rcases List.mem_iff_getElem?.mp entryMem with ⟨idx, found⟩
        exact ⟨_, _, located.lookup_eq core.wellFormed.length_le found, rfl⟩

/-- The answer to a terminal record depends on the totals only. -/
theorem terminalMismatch_congr {other : GraphBuilder} (dirs : builder.dirCount = other.dirCount)
    (files : builder.fileCount = other.fileCount)
    (logical : builder.logicalBytes = other.logicalBytes)
    (allocated : builder.allocatedBytes = other.allocatedBytes)
    (gaps : builder.gaps = other.gaps) (term : TerminalObservation) :
    builder.terminalMismatch term = other.terminalMismatch term := by
  simp only [terminalMismatch, dirs, files, logical, allocated, gaps]

end GraphBuilder

end PigTree
