import PigTree.Engine.Queries

/-!
# Hard links, paths and streams

The queries that walk the whole graph: display paths follow the parents to the
root, hard-link summaries collect the paths of each reported object, and streams
belong to the object behind their parent entry. All of them answer with what the
accepted entries say.
-/

namespace PigTree

open Foundation ParentTree EntryObservation

namespace Snapshot

/-- The entry with an identifier. -/
def find (s : Snapshot) (id : UInt32) : Option EntryObservation :=
  s.entries.find? (fun entry => entry.entryId = id)

/-- The names from an entry up to the root, in that order. -/
def namesToRoot (s : Snapshot) : ℕ → EntryObservation → List String
  | 0, _ => []
  | fuel + 1, entry =>
      if entry.parentId = 0 then [entry.name]
      else
        match s.find entry.parentId with
        | none => []
        | some parent => entry.name :: s.namesToRoot fuel parent

/-- The display path of an entry. -/
def path (s : Snapshot) (entry : EntryObservation) : Option String :=
  DirectoryGraph.joinNames (s.namesToRoot (s.entries.length + 1) entry)

/-- The identity under which an entry is reported with its path. -/
def reportedAs (s : Snapshot) (entry : EntryObservation) : Option ObjectIdentity :=
  entry.fileIdentity.filter
    (fun identity => DirectoryGraph.isReported (s.sharedObject identity) ∧ entry.entryId ≠ 0)

/-- The reported paths with their identities, in order of arrival. -/
def reportedPaths (s : Snapshot) : List (ObjectIdentity × String) :=
  s.entries.filterMap (fun entry =>
    (s.reportedAs entry).bind (fun identity => (s.path entry).map (fun path => (identity, path))))

def summary (s : Snapshot) (identity : ObjectIdentity) : HardLinkSummary where
  identity := identity
  observedAliasCount := (s.sharedObject identity).observedAliasCount
  totalLinkCount := (s.sharedObject identity).totalLinkCount
  externalReferenceStatus := (s.sharedObject identity).externalReferenceStatus
  entryPaths := (s.reportedPaths.filter (fun item => item.1 = identity)).map Prod.snd

/-- The summaries of the reported objects, in order of their first path. -/
def hardLinks (s : Snapshot) : List HardLinkSummary :=
  (firsts (s.reportedPaths.map Prod.fst)).map s.summary

/-- Two entries stand for one object. -/
def sameObject (left right : EntryObservation) : Bool :=
  left.entryId = right.entryId ||
    left.fileIdentity.isSome && left.fileIdentity = right.fileIdentity

/-- The streams of the object behind an entry, in order of arrival. -/
def streamsFor (s : Snapshot) (streams : List StreamObservation) (entry : EntryObservation) :
    List StreamBreakdown :=
  if (s.objectOf entry).isSome then
    (streams.filter (fun stream => (s.find stream.parentEntryId).any (sameObject entry))).map
      GraphBuilder.streamBreakdown
  else []

variable {s : Snapshot} {idx : ℕ} {entry : EntryObservation}

theorem find_eq_some_iff {id : UInt32} :
    s.find id = some entry ↔ entry ∈ s.entries ∧ entry.entryId = id := by
  constructor
  · intro found
    rw [find] at found
    have named := List.find?_some found
    exact ⟨List.mem_of_find?_eq_some found, by simpa using named⟩
  · rintro ⟨entryMem, rfl⟩
    cases located : s.find entry.entryId with
    | none =>
        have absent := List.find?_eq_none.mp located entry entryMem
        simp at absent
    | some other =>
        rw [find] at located
        have named : other.entryId = entry.entryId := by simpa using List.find?_some located
        have same := s.wellFormed.eq_of_entryId (List.mem_of_find?_eq_some located) entryMem named
        rw [same]

theorem find_of_mem (entryMem : entry ∈ s.entries) : s.find entry.entryId = some entry :=
  find_eq_some_iff.mpr ⟨entryMem, rfl⟩

/-- Only the first entry has no parent. -/
theorem parentId_eq_zero_iff (found : s.entries[idx]? = some entry) :
    entry.parentId = 0 ↔ idx = 0 := by
  constructor
  · intro above
    by_contra positive
    exact (s.wellFormed.parent found (Nat.pos_of_ne_zero positive)).1 above
  · rintro rfl
    exact (s.wellFormed.root_first entry (by rw [List.head?_eq_getElem?, found]; rfl)).2.1

/-- Two entries stand for one object when they have one holder. -/
theorem sameObject_iff {other : ℕ} {otherEntry : EntryObservation}
    (found : s.entries[idx]? = some entry) (otherFound : s.entries[other]? = some otherEntry) :
    sameObject entry otherEntry = true ↔ holderOf idx entry = holderOf other otherEntry := by
  have positions : entry.entryId = otherEntry.entryId ↔ idx = other := by
    constructor
    · intro same
      rw [← s.wellFormed.indexOf_eq found, same, s.wellFormed.indexOf_eq otherFound]
    · rintro rfl
      rw [found, Option.some.injEq] at otherFound
      rw [otherFound]
  have agree : idx = other → entry = otherEntry := by
    rintro rfl
    rw [found, Option.some.injEq] at otherFound
    exact otherFound
  simp only [sameObject, Bool.or_eq_true, Bool.and_eq_true, decide_eq_true_eq, holderOf]
  rw [positions]
  cases left : entry.fileIdentity with
  | none =>
      cases right : otherEntry.fileIdentity with
      | none => simp
      | some identity =>
          simp only [Option.isSome_none, Bool.false_eq_true, false_and, or_false, Option.elim_none,
            Option.elim_some, reduceCtorEq, iff_false]
          intro same
          rw [agree same, right] at left
          cases left
  | some identity =>
      cases right : otherEntry.fileIdentity with
      | none =>
          simp only [Option.isSome_some, reduceCtorEq, and_false, or_false, Option.elim_none,
            Option.elim_some, iff_false]
          intro same
          rw [agree same, right] at left
          cases left
      | some otherIdentity =>
          simp only [Option.isSome_some, Option.some.injEq, true_and, Option.elim_some,
            ObjectKey.shared.injEq, or_iff_right_iff_imp]
          intro same
          rw [agree same, right] at left
          exact (Option.some.inj left).symm

/-- Entries of one object have it both or neither. -/
theorem objectOf_isSome_of_holder {other : ℕ} {otherEntry : EntryObservation}
    (found : s.entries[idx]? = some entry) (otherFound : s.entries[other]? = some otherEntry)
    (holder : holderOf idx entry = holderOf other otherEntry)
    (owned : (s.objectOf entry).isSome = true) : (s.objectOf otherEntry).isSome = true := by
  cases right : otherEntry.fileIdentity with
  | some identity => rw [s.objectOf_of_fileIdentity right, Option.isSome_some]
  | none =>
      cases left : entry.fileIdentity with
      | some identity => simp [holderOf, left, right] at holder
      | none =>
          simp only [holderOf, left, right, Option.elim_none, ObjectKey.alone.injEq] at holder
          subst holder
          rw [found, Option.some.injEq] at otherFound
          rwa [← otherFound]

end Snapshot

namespace GraphBuilder

variable {rt : Runtime} {builder : GraphBuilder} {target : String}
  {records : List ObservationRecord} {s : Snapshot} {graph : DirectoryGraph} {idx : ℕ}
  {entry : EntryObservation} {compact : CompactEntry}

/-! ### Display paths -/

/-- The walk up the parents ends at the root after at most as many steps as there are entries. -/
theorem Presented.namesToRoot_eq (presented : Presented rt s graph) {fuel : ℕ}
    (found : s.entries[idx]? = some entry) (stored : graph.storage.entries[idx]? = some compact)
    (enough : idx < fuel) :
    graph.namesToRoot fuel compact = .ok (some (s.namesToRoot fuel entry)) := by
  induction fuel generalizing idx entry compact with
  | zero => omega
  | succ fuel ih =>
      have delivered := presented.delivered found stored
      rw [DirectoryGraph.namesToRoot, Snapshot.namesToRoot, delivered.parentId_eq,
        delivered.name_eq]
      by_cases above : entry.parentId = 0
      · rw [if_pos above, if_pos above]
      · rw [if_neg above, if_neg above]
        have positive : 0 < idx := by
          apply Nat.pos_of_ne_zero
          exact fun first => above ((Snapshot.parentId_eq_zero_iff found).mpr first)
        rcases s.wellFormed.parent found positive with ⟨_, smaller, parent, at_, named, _⟩
        rcases presented.finished.delivered _ parent at_ with ⟨parentCompact, parentStored, same⟩
        have located : graph.storage.get entry.parentId = some parentCompact :=
          (presented.finished.get_iff _ _).mpr
            ⟨above, List.mem_of_getElem? parentStored, same.id_eq.trans named⟩
        have lookedUp : s.find entry.parentId = some parent :=
          Snapshot.find_eq_some_iff.mpr ⟨List.mem_of_getElem? at_, named⟩
        rw [located, lookedUp]
        simp only [ih at_ parentStored (by omega), Checked.ok_bind, Option.map_some,
          Checked.pure_eq_ok]

theorem Presented.displayPath_eq (presented : Presented rt s graph)
    (found : s.entries[idx]? = some entry) (stored : graph.storage.entries[idx]? = some compact) :
    graph.displayPath compact.id = .ok (if entry.entryId = 0 then none else s.path entry) := by
  have delivered := presented.delivered found stored
  have inside := (List.getElem?_eq_some_iff.mp found).1
  rw [DirectoryGraph.displayPath, delivered.id_eq]
  by_cases zero : entry.entryId = 0
  · rw [if_pos zero, presented.get_eq_none (Or.inl zero)]
  · have located : graph.storage.get entry.entryId = some compact :=
      (presented.finished.get_iff _ _).mpr ⟨zero, List.mem_of_getElem? stored, delivered.id_eq⟩
    have len : graph.storage.len = s.entries.length := presented.finished.length_eq
    have enough : idx < s.entries.length + 1 := by omega
    rw [if_neg zero, located, len]
    simp only [presented.namesToRoot_eq found stored enough, Checked.ok_bind, Option.bind_some,
      Checked.pure_eq_ok, Snapshot.path]

/-! ### Hard links -/

/-- The identity of the object with an index. -/
def identityAt (graph : DirectoryGraph) (objectIndex : UInt32) : Option ObjectIdentity :=
  (recordAt graph.objects objectIndex).bind ObjectRecord.identity

/-- The path a hard-link summary lists for an entry. -/
def pathOf (graph : DirectoryGraph) (compact : CompactEntry) : Option String :=
  match graph.displayPath compact.id with
  | .ok path => path
  | .error _ => none

/-- The reported object index and path of an entry. -/
def reportedItem (graph : DirectoryGraph) (compact : CompactEntry) : Option (UInt32 × String) :=
  if compact.objectIndex ∈ graph.relevantObjects then
    (pathOf graph compact).map (fun path => (compact.objectIndex, path))
  else none

/-- An object that is reported under an identity is that of a file. -/
theorem reported_identity {obj : ObjectRecord} {identity : ObjectIdentity}
    (record : s.objectOf entry = some obj) (reported : DirectoryGraph.isReported obj = true)
    (identified : obj.identity = some identity) :
    entry.fileIdentity = some identity ∧ obj = s.sharedObject identity := by
  cases entry with
  | special special => cases record
  | directory dir =>
      rcases Option.map_eq_some_iff.mp record with ⟨other, _, rfl⟩
      cases reported
  | file file =>
      cases known : file.objectId with
      | some other =>
          have carried : (EntryObservation.file file).fileIdentity = some other := known
          rw [s.objectOf_of_fileIdentity carried, Option.some.injEq] at record
          subst record
          rw [Snapshot.sharedObject, Option.some.injEq] at identified
          subst identified
          exact ⟨known, rfl⟩
      | none =>
          simp only [Snapshot.objectOf, known] at record
          split at record
          · cases record
          · rw [Option.some.injEq] at record
            subst record
            cases identified

namespace Presented

variable (presented : Presented rt s graph)

include presented

theorem objects_length_lt : graph.objects.length < 2 ^ 32 :=
  Nat.lt_of_le_of_lt presented.objects_le presented.finished.short

/-- The relevant indices are those of the reported objects. -/
theorem mem_relevantObjects {objectIndex : UInt32} : objectIndex ∈ graph.relevantObjects ↔
    ∃ obj, recordAt graph.objects objectIndex = some obj ∧ DirectoryGraph.isReported obj := by
  have short := presented.objects_length_lt
  have sentinel : noObject.toNat = 2 ^ 32 - 1 := rfl
  simp only [DirectoryGraph.relevantObjects, List.mem_map, List.mem_filter,
    List.mem_zipIdx_iff_getElem?, Prod.exists]
  constructor
  · rintro ⟨obj, position, ⟨found, reported⟩, rfl⟩
    have inside := (List.getElem?_eq_some_iff.mp found).1
    have word : (UInt32.ofNat position).toNat = position :=
      UInt32.toNat_ofNat_of_lt' (by unfold UInt32.size; omega)
    refine ⟨obj, ?_, reported⟩
    rw [recordAt, if_neg, word, found]
    intro same
    rw [same] at word
    omega
  · rintro ⟨obj, found, reported⟩
    unfold recordAt at found
    split at found
    · cases found
    · exact ⟨obj, objectIndex.toNat, ⟨found, reported⟩, UInt32.ofNat_toNat⟩

theorem pathOf_eq (found : s.entries[idx]? = some entry)
    (stored : graph.storage.entries[idx]? = some compact) :
    pathOf graph compact = if entry.entryId = 0 then none else s.path entry := by
  rw [pathOf, presented.displayPath_eq found stored]

/-- What is collected for an entry, translated to identities, is what the entries say. -/
theorem reportedItem_translated (found : s.entries[idx]? = some entry)
    (stored : graph.storage.entries[idx]? = some compact) :
    (reportedItem graph compact).bind
        (fun item => (identityAt graph item.1).map (fun identity => (identity, item.2))) =
      (s.reportedAs entry).bind
        (fun identity => (s.path entry).map (fun path => (identity, path))) := by
  have record := presented.recorded idx entry compact found stored
  have path := presented.pathOf_eq found stored
  unfold reportedItem
  by_cases relevant : compact.objectIndex ∈ graph.relevantObjects
  · rcases presented.mem_relevantObjects.mp relevant with ⟨obj, located, reported⟩
    rw [located] at record
    rw [if_pos relevant, path]
    cases identified : obj.identity with
    | none =>
        have anonymous : entry.fileIdentity = none := by
          cases known : entry.fileIdentity with
          | none => rfl
          | some identity =>
              rw [s.objectOf_of_fileIdentity known, Option.some.injEq] at record
              subst record
              cases identified
        have silent : identityAt graph compact.objectIndex = none := by
          rw [identityAt, located]
          exact identified
        have unlisted : s.reportedAs entry = none := by
          rw [Snapshot.reportedAs, anonymous]
          rfl
        rw [unlisted]
        cases (if entry.entryId = 0 then none else s.path entry) <;> simp [silent]
    | some identity =>
        rcases reported_identity record.symm reported identified with ⟨known, rfl⟩
        have named : identityAt graph compact.objectIndex = some identity := by
          rw [identityAt, located]
          rfl
        by_cases zero : entry.entryId = 0
        · simp [zero, Snapshot.reportedAs]
        · have listed : s.reportedAs entry = some identity := by
            rw [Snapshot.reportedAs, known]
            simp [reported, zero]
          rw [if_neg zero, listed]
          cases s.path entry <;> simp [named]
  · rw [if_neg relevant]
    have unlisted : s.reportedAs entry = none := by
      rw [Snapshot.reportedAs]
      cases known : entry.fileIdentity with
      | none => rfl
      | some identity =>
          have unreported : DirectoryGraph.isReported (s.sharedObject identity) = false := by
            by_contra reported
            apply relevant
            apply presented.mem_relevantObjects.mpr
            exact ⟨_, record.trans (s.objectOf_of_fileIdentity known), by simpa using reported⟩
          simp [unreported]
    rw [unlisted]
    rfl

end Presented

namespace Presented

variable (presented : Presented rt s graph)

include presented

omit presented in
/-- The loop over the indices is one over the entries. -/
theorem collectAt_eq (relevant : List UInt32) (first : DirectoryGraph.PathIndex) :
    (List.range graph.storage.len).foldlM (graph.collectAt relevant) first =
      graph.storage.entries.foldlM (graph.collectPath relevant) first := by
  have every : (List.range graph.storage.len).filterMap graph.storage.getByIndex =
      graph.storage.entries := by
    have positions := @filterMap_positions _ graph.storage.entries (fun _ => True) (fun _ => True)
      _ _ (fun _ _ _ => Iff.rfl)
    simp only [decide_true, List.filter_true] at positions
    exact positions
  rw [← every, List.foldlM_filterMap]
  congr 1
  funext index idx
  rw [DirectoryGraph.collectAt]
  cases graph.storage.getByIndex idx with
  | none => rfl
  | some compact => rfl

/-- The loop over the entries groups their paths by object. -/
theorem collectPaths_eq :
    graph.storage.entries.foldlM (graph.collectPath graph.relevantObjects)
        { byObject := ∅, ordered := [] } =
      .ok {
        byObject := groups (graph.storage.entries.filterMap (reportedItem graph))
        ordered := firsts ((graph.storage.entries.filterMap (reportedItem graph)).map Prod.fst) } := by
  have loop : ∃ index, graph.storage.entries.foldlM (graph.collectPath graph.relevantObjects)
      { byObject := ∅, ordered := [] } = .ok index ∧
      index.byObject = groups (graph.storage.entries.filterMap (reportedItem graph)) ∧
      index.ordered = firsts ((graph.storage.entries.filterMap (reportedItem graph)).map Prod.fst) := by
    refine foldlM_ok _ (fun seen (index : DirectoryGraph.PathIndex) =>
      index.byObject = groups (seen.filterMap (reportedItem graph)) ∧
        index.ordered = firsts ((seen.filterMap (reportedItem graph)).map Prod.fst)) ⟨rfl, rfl⟩ ?_
    rintro seen compact rest index split ⟨byObject, ordered⟩
    have mem : compact ∈ graph.storage.entries := by simp [split]
    rcases presented.finished.found mem with ⟨idx, entry, stored, found, _⟩
    have path := presented.pathOf_eq found stored
    unfold DirectoryGraph.collectPath
    by_cases relevant : compact.objectIndex ∈ graph.relevantObjects
    · rw [if_pos relevant, presented.displayPath_eq found stored, ← path, Checked.ok_bind]
      cases shown : pathOf graph compact with
      | none =>
          have skipped : reportedItem graph compact = none := by simp [reportedItem, shown]
          refine ⟨index, rfl, ?_, ?_⟩
          · simpa [List.filterMap_append, skipped] using byObject
          · simpa [List.filterMap_append, skipped] using ordered
      | some text =>
          have listed : reportedItem graph compact = some (compact.objectIndex, text) := by
            simp [reportedItem, relevant, shown]
          refine ⟨_, rfl, ?_, ?_⟩
          · rw [List.filterMap_append, List.filterMap_cons_some listed, List.filterMap_nil,
              groups_concat, byObject]
          · rw [List.filterMap_append, List.filterMap_cons_some listed, List.filterMap_nil,
              List.map_append, List.map_cons, List.map_nil, firsts_concat, ordered, byObject,
              lookup_groups]
            simp only [mem_firsts]
            split <;> simp
    · have skipped : reportedItem graph compact = none := by simp [reportedItem, relevant]
      rw [if_neg relevant]
      refine ⟨index, rfl, ?_, ?_⟩
      · simpa [List.filterMap_append, skipped] using byObject
      · simpa [List.filterMap_append, skipped] using ordered
  rcases loop with ⟨index, ran, byObject, ordered⟩
  rw [ran, ← byObject, ← ordered]

/-- The collected items, translated to identities. -/
theorem reportedPaths_eq : s.reportedPaths =
    (graph.storage.entries.filterMap (reportedItem graph)).filterMap
      (fun item => (identityAt graph item.1).map (fun identity => (identity, item.2))) := by
  rw [List.filterMap_filterMap]
  refine filterMap_eq_of_positions presented.finished.length_eq.symm ?_
  intro position entry compact found stored
  exact (presented.reportedItem_translated found stored).symm

/-- An identity determines the index of its object. -/
theorem identityAt_inj {left right : UInt32}
    (leftMem : left ∈ (graph.storage.entries.filterMap (reportedItem graph)).map Prod.fst)
    (rightMem : right ∈ (graph.storage.entries.filterMap (reportedItem graph)).map Prod.fst)
    {identity : ObjectIdentity} (leftNamed : identityAt graph left = some identity)
    (rightNamed : identityAt graph right = some identity) : left = right := by
  have origin : ∀ objectIndex ∈ (graph.storage.entries.filterMap (reportedItem graph)).map Prod.fst,
      identityAt graph objectIndex = some identity →
        ∃ (idx : ℕ)
        (entry : EntryObservation) (compact : CompactEntry), s.entries[idx]? = some entry ∧
        graph.storage.entries[idx]? = some compact ∧ compact.objectIndex = objectIndex ∧
          objectIndex ≠ noObject ∧ entry.fileIdentity = some identity := by
    intro objectIndex mem named
    rcases List.mem_map.mp mem with ⟨item, itemMem, rfl⟩
    rcases List.mem_filterMap.mp itemMem with ⟨compact, compactMem, listed⟩
    rcases presented.finished.found compactMem with ⟨idx, entry, stored, found, _⟩
    unfold reportedItem at listed
    split at listed
    · next relevant =>
        rcases Option.map_eq_some_iff.mp listed with ⟨path, _, rfl⟩
        rcases presented.mem_relevantObjects.mp relevant with ⟨obj, located, reported⟩
        have record := presented.recorded idx entry compact found stored
        rw [identityAt, located] at named
        rw [located] at record
        refine ⟨idx, entry, compact, found, stored, rfl, ?_,
          (reported_identity record.symm reported named).1⟩
        intro unused
        rw [recordAt, if_pos unused] at located
        cases located
    · cases listed
  rcases origin left leftMem leftNamed with ⟨idx, entry, compact, found, stored, rfl, used, carries⟩
  rcases origin right rightMem rightNamed with
    ⟨other, otherEntry, otherCompact, otherFound, otherStored, rfl, otherUsed, otherCarries⟩
  apply (presented.held idx other entry otherEntry compact otherCompact found otherFound stored
    otherStored used otherUsed).mpr
  rw [holderOf, holderOf, carries, otherCarries]
  rfl

/-- Hard-link summaries are those of the reported identities. -/
theorem hardLinkObjects_eq : graph.hardLinkObjects = .ok s.hardLinks := by
  generalize itemsEq : graph.storage.entries.filterMap (reportedItem graph) = items
  have translated := presented.reportedPaths_eq
  rw [itemsEq] at translated
  have apart : ∀ left ∈ items.map Prod.fst, ∀ right ∈ items.map Prod.fst, ∀ identity,
      identityAt graph left = some identity → identityAt graph right = some identity →
        left = right := by
    subst itemsEq
    intro left leftMem right rightMem identity
    exact presented.identityAt_inj leftMem rightMem
  have records : ∀ objectIndex ∈ items.map Prod.fst, ∃ obj,
      recordAt graph.objects objectIndex = some obj ∧
        ∀ identity, obj.identity = some identity → obj = s.sharedObject identity := by
    intro objectIndex mem
    rcases List.mem_map.mp mem with ⟨item, itemMem, rfl⟩
    rw [← itemsEq] at itemMem
    rcases List.mem_filterMap.mp itemMem with ⟨compact, compactMem, listed⟩
    rcases presented.finished.found compactMem with ⟨idx, entry, stored, found, _⟩
    unfold reportedItem at listed
    split at listed
    · next relevant =>
        rcases Option.map_eq_some_iff.mp listed with ⟨_, _, rfl⟩
        rcases presented.mem_relevantObjects.mp relevant with ⟨obj, located, reported⟩
        have record := presented.recorded idx entry compact found stored
        rw [located] at record
        exact ⟨obj, located, fun identity named =>
          (reported_identity record.symm reported named).2⟩
    · cases listed
  -- the summary of one object
  have summarized : ∀ objectIndex ∈ items.map Prod.fst, ∀ ordered : List UInt32,
      graph.summarize { byObject := groups items, ordered } objectIndex =
        .ok ((identityAt graph objectIndex).map s.summary) := by
    intro objectIndex mem ordered
    rcases records objectIndex mem with ⟨obj, located, shared⟩
    have identity : identityAt graph objectIndex = obj.identity := by simp [identityAt, located]
    unfold recordAt at located
    split at located
    · cases located
    · rw [DirectoryGraph.summarize, getAt_of_getElem? located, Checked.ok_bind,
        Checked.pure_eq_ok, getD_lookup_groups, identity]
      cases named : obj.identity with
      | none => rfl
      | some name =>
          have paths : (s.reportedPaths.filter (fun item => item.1 = name)).map Prod.snd =
              (items.filter (fun item => item.1 = objectIndex)).map Prod.snd := by
            rw [translated]
            apply filter_translated
            · intro item itemMem
              constructor
              · intro same
                exact apart item.1 (List.mem_map_of_mem itemMem) objectIndex mem name same
                  (identity.trans named)
              · rintro rfl
                exact identity.trans named
          rw [Option.map_some, Option.map_some, Snapshot.summary, paths, shared name named]
  have summaries : ∀ ordered : List UInt32, (∀ objectIndex ∈ ordered, objectIndex ∈ items.map Prod.fst) →
      ordered.foldlM (fun found objIdx => do
        let summary ← graph.summarize { byObject := groups items, ordered := firsts (items.map Prod.fst) }
          objIdx
        return found ++ summary.toList) [] =
        .ok ((ordered.filterMap (identityAt graph)).map s.summary) := by
    intro ordered known
    have loop : ∃ found, ordered.foldlM (fun found objIdx => do
        let summary ← graph.summarize { byObject := groups items, ordered := firsts (items.map Prod.fst) }
          objIdx
        return found ++ summary.toList) [] = .ok found ∧
          found = (ordered.filterMap (identityAt graph)).map s.summary := by
      refine foldlM_ok ordered (fun seen found =>
        found = (seen.filterMap (identityAt graph)).map s.summary) rfl ?_
      rintro seen objectIndex rest found split rfl
      have mem := known objectIndex (by simp [split])
      refine ⟨_, by rw [summarized objectIndex mem, Checked.ok_bind, Checked.pure_eq_ok], ?_⟩
      rw [List.filterMap_append, List.map_append]
      cases named : identityAt graph objectIndex <;> simp [named]
    rcases loop with ⟨found, ran, rfl⟩
    exact ran
  have identities : (firsts (items.map Prod.fst)).filterMap (identityAt graph) =
      firsts (s.reportedPaths.map Prod.fst) := by
    rw [filterMap_firsts apart, translated, List.map_filterMap, List.filterMap_map]
    congr 1
    apply List.filterMap_congr
    intro item _
    simp [Function.comp_def]
  rw [DirectoryGraph.hardLinkObjects]
  split
  · next none =>
      have empty : items = [] := by
        rw [← itemsEq, List.filterMap_eq_nil_iff]
        intro compact _
        simp [reportedItem, none]
      rw [Snapshot.hardLinks, translated, empty]
      rfl
  · have collected := presented.collectPaths_eq
    rw [itemsEq] at collected
    rw [collectAt_eq, collected, Checked.ok_bind]
    simp only []
    rw [summaries _ (fun _ mem => mem_firsts.mp mem), identities]
    rfl

end Presented

/-! ### Streams -/

/-- The object index and breakdown of a pending stream, if its entry has an object. -/
def attributed (entries : List CompactEntry) (pending : ℕ × StreamBreakdown) :
    Option (UInt32 × StreamBreakdown) :=
  (entries[pending.1]?).bind (fun compact =>
    if compact.objectIndex = noObject then none else some (compact.objectIndex, pending.2))

/-- The loop over the pending streams groups them by object. -/
theorem attributeStreams_eq {entries : List CompactEntry} {streams : ObjectStreams}
    (none : builder.objectStreams = ∅) (ran : builder.attributeStreams entries = .ok streams) :
    streams = groups (builder.pendingStreams.filterMap (attributed entries)) := by
  refine foldlM_invariant builder.pendingStreams
    (fun seen (streams : ObjectStreams) => streams = groups (seen.filterMap (attributed entries)))
    none ?_ ran
  rintro seen pending rest state next split rfl stepped
  rw [attributeStream, Checked.bind_eq_ok] at stepped
  rcases stepped with ⟨compact, read, result⟩
  have found := getAt_eq_ok_iff.mp read
  rw [List.filterMap_append]
  split at result
  · next used =>
      have listed : attributed entries pending = some (compact.objectIndex, pending.2) := by
        simp [attributed, found, used]
      rw [Checked.pure_eq_ok, Except.ok.injEq] at result
      rw [List.filterMap_cons_some listed, List.filterMap_nil, groups_concat, result]
  · next unused =>
      have skipped : attributed entries pending = Option.none := by
        simp [attributed, found, not_not.mp unused]
      rw [Checked.pure_eq_ok, Except.ok.injEq] at result
      rw [List.filterMap_cons_none skipped, List.filterMap_nil, List.append_nil, result]

/-- The streams of an entry are those observed on the object behind it. -/
theorem Reached.streamsForEntry_eq (reached : Reached target builder records)
    (ran : builder.finish rt = .ok (.ok graph)) (entryMem : entry ∈ entriesOf records)
    (addressable : entry.entryId ≠ 0) :
    graph.streamsForEntry entry.entryId =
      reached.snapshot.streamsFor (streamsOf records) entry := by
  have presented := reached.presented ran
  have represents := reached.represents
  have nonempty : entriesOf records ≠ [] := List.ne_nil_of_mem entryMem
  rcases reached.executed ran nonempty with
    ⟨aggregates, normalized, treeDelta, leaves, final, slices, executed, made⟩
  have grouped := attributeStreams_eq represents.objectStreams_eq executed.streams_ran
  rcases List.mem_iff_getElem?.mp entryMem with ⟨idx, found⟩
  have snapshotFound : reached.snapshot.entries[idx]? = some entry := found
  rcases presented.finished.delivered idx entry snapshotFound with ⟨compact, stored, delivered⟩
  have located : graph.storage.get entry.entryId = some compact :=
    (presented.finished.get_iff _ _).mpr ⟨addressable, List.mem_of_getElem? stored, delivered.id_eq⟩
  have absent := presented.unrecorded idx entry compact snapshotFound stored
  rw [DirectoryGraph.streamsForEntry, located, Snapshot.streamsFor]
  by_cases unused : compact.objectIndex = noObject
  · simp only [unused, ne_eq, not_true_eq_false, if_false, absent.mp unused, Option.isSome_none,
      Bool.false_eq_true]
  have used : (reached.snapshot.objectOf entry).isSome = true := by
    rw [Option.isSome_iff_ne_none]
    exact fun none => unused (absent.mpr none)
  simp only [if_pos unused, ne_eq, used, if_true, made.objectStreams_eq, grouped,
    getD_lookup_groups, represents.pending_eq]
  rw [List.filterMap_map, List.filter_filterMap, List.map_filterMap, ← List.filterMap_eq_map,
    List.filterMap_filter]
  apply List.filterMap_congr
  intro stream streamMem
  -- the entry the stream names as its parent
  rcases List.mem_map.mp (represents.pending_known stream streamMem) with
    ⟨parent, parentMem, named⟩
  rcases List.mem_iff_getElem?.mp parentMem with ⟨position, parentFound⟩
  have parentAt : reached.snapshot.entries[position]? = some parent := parentFound
  have position_eq : indexOf (entriesOf records) stream.parentEntryId = position :=
    named ▸ reached.snapshot.wellFormed.indexOf_eq parentAt
  have lookedUp : reached.snapshot.find stream.parentEntryId = some parent :=
    Snapshot.find_eq_some_iff.mpr ⟨parentMem, named⟩
  rcases presented.finished.delivered position parent parentAt with ⟨parentCompact, parentStored, _⟩
  rcases executed.objectIndex_eq made parentStored with ⟨tagged, taggedAt, same, _⟩
  have parentAbsent := presented.unrecorded position parent parentCompact parentAt parentStored
  have listed : attributed normalized.entries
      (indexOf (entriesOf records) stream.parentEntryId, streamBreakdown stream) =
      if parentCompact.objectIndex = noObject then Option.none
      else some (parentCompact.objectIndex, streamBreakdown stream) := by
    simp [attributed, position_eq, taggedAt, same]
  have belongs : Snapshot.sameObject entry parent = true ↔
      parentCompact.objectIndex ≠ noObject ∧ parentCompact.objectIndex = compact.objectIndex := by
    rw [Snapshot.sameObject_iff snapshotFound parentAt]
    constructor
    · intro holder
      have parentUsed : parentCompact.objectIndex ≠ noObject := by
        intro none
        have owner := Snapshot.objectOf_isSome_of_holder snapshotFound parentAt holder used
        simp [parentAbsent.mp none] at owner
      exact ⟨parentUsed, ((presented.held idx position entry parent compact parentCompact
        snapshotFound parentAt stored parentStored unused parentUsed).mpr holder).symm⟩
    · rintro ⟨parentUsed, equal⟩
      exact (presented.held idx position entry parent compact parentCompact snapshotFound parentAt
        stored parentStored unused parentUsed).mp equal.symm
  simp only [Function.comp_apply, listed, lookedUp, Option.any_some]
  by_cases joined : Snapshot.sameObject entry parent = true
  · have facts := belongs.mp joined
    simp [joined, facts.2, unused]
  · have apart := fun both => joined (belongs.mpr both)
    by_cases none : parentCompact.objectIndex = noObject
    · simp [joined, none]
    · have different : parentCompact.objectIndex ≠ compact.objectIndex :=
        fun equal => apart ⟨none, equal⟩
      simp [joined, none, different]

end GraphBuilder

end PigTree
