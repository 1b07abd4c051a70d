import PigTree.Engine.HardLinks

/-!
# Arrival order and hash order

Two snapshots with the same entries in different orders say the same about every
entry: subtrees, sums, evidence and the order of children depend on the entries
and not on their positions. Only the link count of an object whose aliases
contradict each other depends on which alias came first.
-/

namespace PigTree

open Foundation ParentTree EntryObservation

namespace Snapshot

variable {s t : Snapshot}

/-! ### Subtrees -/

/-- Membership in a subtree follows the parents. -/
theorem mem_subtree_iff {top : EntryObservation} (topMem : top ∈ s.entries)
    {entry : EntryObservation} : entry ∈ s.subtree top.entryId ↔ entry ∈ s.entries ∧
      (entry = top ∨ entry.parentId ≠ 0 ∧ ∃ parent ∈ s.subtree top.entryId,
        parent.entryId = entry.parentId) := by
  rcases List.mem_iff_getElem?.mp topMem with ⟨topIdx, topFound⟩
  constructor
  · intro mem
    have accepted := mem_entries_of_mem_subtree mem
    refine ⟨accepted, ?_⟩
    rcases List.mem_iff_getElem?.mp accepted with ⟨idx, found⟩
    have above := (mem_subtree_at topFound found).mp mem
    by_cases same : topIdx = idx
    · left
      subst same
      rw [topFound, Option.some.injEq] at found
      exact found.symm
    · right
      have positive : 0 < idx := by
        have := above.le
        omega
      rcases above.eq_or_parent with equal | higher
      · exact absurd equal same
      · rcases s.wellFormed.parent found positive with ⟨below, _, parent, at_, named, _⟩
        exact ⟨below, parent, (mem_subtree_at topFound at_).mpr higher, named⟩
  · rintro ⟨accepted, rfl | ⟨below, parent, parentMem, named⟩⟩
    · exact (mem_subtree_at topFound topFound).mpr (IsAncestor.refl topIdx)
    · rcases List.mem_iff_getElem?.mp accepted with ⟨idx, found⟩
      have positive : 0 < idx := by
        apply Nat.pos_of_ne_zero
        exact fun first => below ((parentId_eq_zero_iff found).mpr first)
      rcases s.wellFormed.parent found positive with ⟨_, _, other, at_, otherNamed, _⟩
      have same : other = parent := s.wellFormed.eq_of_entryId (List.mem_of_getElem? at_)
        (mem_entries_of_mem_subtree parentMem) (otherNamed.trans named.symm)
      subst same
      have higher : s.tree.IsAncestor topIdx (s.tree.parent idx) :=
        (mem_subtree_at topFound at_).mp parentMem
      apply (mem_subtree_at topFound found).mpr
      exact higher.trans (s.tree.isAncestor_parent idx)

theorem nodup_subtree (s : Snapshot) (id : UInt32) : (s.subtree id).Nodup := by
  rw [subtree]
  apply List.Nodup.filterMap _ (List.nodup_range.filter _)
  intro left right entry leftFound rightFound
  rw [← s.wellFormed.indexOf_eq leftFound, s.wellFormed.indexOf_eq rightFound]

/-- The smallest word of a list does not depend on the order. -/
theorem min?_of_perm {left right : List UInt64} (same : left.Perm right) :
    left.min? = right.min? := by
  apply Option.ext
  intro least
  simp only [List.min?_eq_some_iff, same.mem_iff]

section Reordered

variable (perm : s.entries.Perm t.entries)

include perm

theorem mem_subtree_of_perm {top : EntryObservation} (topMem : top ∈ s.entries) :
    ∀ (idx : ℕ) (entry : EntryObservation), s.entries[idx]? = some entry →
      entry ∈ s.subtree top.entryId → entry ∈ t.subtree top.entryId := by
  intro idx
  induction idx using Nat.strong_induction_on with
  | _ idx ih =>
      intro entry found mem
      have topMem' := perm.mem_iff.mp topMem
      rcases (mem_subtree_iff topMem).mp mem with ⟨accepted, rfl | ⟨below, parent, parentMem, named⟩⟩
      · exact (mem_subtree_iff topMem').mpr ⟨topMem', Or.inl rfl⟩
      · have positive : 0 < idx := by
          apply Nat.pos_of_ne_zero
          exact fun first => below ((parentId_eq_zero_iff found).mpr first)
        rcases s.wellFormed.parent found positive with ⟨_, smaller, other, at_, otherNamed, _⟩
        have same : other = parent := s.wellFormed.eq_of_entryId (List.mem_of_getElem? at_)
          (mem_entries_of_mem_subtree parentMem) (otherNamed.trans named.symm)
        subst same
        apply (mem_subtree_iff topMem').mpr
        exact ⟨perm.mem_iff.mp accepted, Or.inr ⟨below, other, ih _ smaller other at_ parentMem, named⟩⟩

theorem subtree_perm {top : EntryObservation} (topMem : top ∈ s.entries) :
    (s.subtree top.entryId).Perm (t.subtree top.entryId) := by
  apply (List.perm_ext_iff_of_nodup (s.nodup_subtree _) (t.nodup_subtree _)).mpr
  intro entry
  constructor
  · intro mem
    rcases List.mem_iff_getElem?.mp (mem_entries_of_mem_subtree mem) with ⟨idx, found⟩
    exact mem_subtree_of_perm perm topMem idx entry found mem
  · intro mem
    rcases List.mem_iff_getElem?.mp (mem_entries_of_mem_subtree mem) with ⟨idx, found⟩
    exact mem_subtree_of_perm perm.symm (perm.mem_iff.mp topMem) idx entry found mem

/-! ### Sums -/

theorem logicalBytes_of_perm {top : EntryObservation} (topMem : top ∈ s.entries) :
    s.logicalBytes top.entryId = t.logicalBytes top.entryId :=
  ((subtree_perm perm topMem).map _).sum_eq

theorem referencedBytes_of_perm {top : EntryObservation} (topMem : top ∈ s.entries) :
    s.referencedBytes top.entryId = t.referencedBytes top.entryId :=
  ((subtree_perm perm topMem).map _).sum_eq

theorem aliases_perm (identity : ObjectIdentity) : (s.aliases identity).Perm (t.aliases identity) :=
  perm.filter _

theorem knownAllocations_perm (identity : ObjectIdentity) :
    (s.knownAllocations identity).Perm (t.knownAllocations identity) :=
  perm.filterMap _

theorem weight_of_perm (identity : ObjectIdentity) : s.weight identity = t.weight identity := by
  rw [weight, weight, min?_of_perm (knownAllocations_perm perm identity)]

theorem uniqueBytes_of_perm {top : EntryObservation} (topMem : top ∈ s.entries) :
    s.uniqueBytes top.entryId = t.uniqueBytes top.entryId := by
  have subtrees := subtree_perm perm topMem
  have same : s.identities top.entryId = t.identities top.entryId :=
    List.toFinset_eq_of_perm _ _ (subtrees.filterMap _)
  have weights : ∑ identity ∈ s.identities top.entryId, s.weight identity =
      ∑ identity ∈ t.identities top.entryId, t.weight identity := by
    rw [same]
    exact Finset.sum_congr rfl (fun identity _ => weight_of_perm perm identity)
  rw [uniqueBytes, uniqueBytes, weights, (subtrees.map selfAllocated).sum_eq,
    (subtrees.map anonymousAllocated).sum_eq]

/-! ### Evidence -/

theorem contradicted_of_perm (identity : ObjectIdentity) :
    s.Contradicted identity ↔ t.Contradicted identity := by
  simp only [Contradicted, (knownAllocations_perm perm identity).mem_iff]

theorem disputed_of_perm (entry : EntryObservation) : s.disputed entry = t.disputed entry := by
  simp only [disputed, contradicted_of_perm perm]

theorem leafKnown_of_perm (entry : EntryObservation) : s.leafKnown entry = t.leafKnown entry := by
  rw [leafKnown, leafKnown, disputed_of_perm perm]

theorem subtreeKnown_of_perm {top : EntryObservation} (topMem : top ∈ s.entries) :
    s.subtreeKnown top.entryId = t.subtreeKnown top.entryId := by
  apply Bool.eq_iff_iff.mpr
  simp only [subtreeKnown, List.all_eq_true, (subtree_perm perm topMem).mem_iff,
    leafKnown_of_perm perm]

theorem allocationsKnown_of_perm : s.allocationsKnown = t.allocationsKnown := by
  have missing : s.entries.any allocationMissing =
      t.entries.any allocationMissing := perm.any_eq
  have disputes : s.entries.any s.disputed = t.entries.any t.disputed := by
    rw [perm.any_eq]
    apply List.any_congr rfl
    exact disputed_of_perm perm
  rw [allocationsKnown, allocationsKnown, missing, disputes]

end Reordered

/-! ### Link evidence -/

/-- The link counts known for an identity. -/
def knownLinksOf (s : Snapshot) (identity : ObjectIdentity) : List UInt32 :=
  knownLinks ((s.aliases identity).map linkCount)

/-- No two aliases carry different known link counts. -/
def LinksAgree (s : Snapshot) (identity : ObjectIdentity) : Prop :=
  ∀ left ∈ s.knownLinksOf identity, ∀ right ∈ s.knownLinksOf identity, left = right

theorem sees_linkEvidence (s : Snapshot) (identity : ObjectIdentity) :
    (s.linkEvidence identity).Sees ((s.aliases identity).map linkCount) :=
  LinkResolution.sees_foldl _

theorem hasLinkConflict_iff (s : Snapshot) (identity : ObjectIdentity) :
    (s.linkEvidence identity).hasLinkConflict = true ↔ ¬s.LinksAgree identity := by
  rw [(s.sees_linkEvidence identity).hasLinkConflict]
  simp [LinksAgree, knownLinksOf]

section Reordered

variable (perm : s.entries.Perm t.entries)

include perm

theorem linkCounts_perm (identity : ObjectIdentity) :
    ((s.aliases identity).map linkCount).Perm ((t.aliases identity).map linkCount) :=
  (aliases_perm perm identity).map _

theorem knownLinksOf_perm (identity : ObjectIdentity) :
    (s.knownLinksOf identity).Perm (t.knownLinksOf identity) :=
  (linkCounts_perm perm identity).filterMap _

theorem linksAgree_of_perm (identity : ObjectIdentity) :
    s.LinksAgree identity ↔ t.LinksAgree identity := by
  simp only [LinksAgree, (knownLinksOf_perm perm identity).mem_iff]

/-- Link counts that agree are resolved to the same count in every order. -/
theorem resolvedLink_of_perm {identity : ObjectIdentity} (agree : s.LinksAgree identity) :
    (s.linkEvidence identity).resolvedLink = (t.linkEvidence identity).resolvedLink := by
  have known := knownLinksOf_perm perm identity
  have first : (s.knownLinksOf identity).head? = (t.knownLinksOf identity).head? := by
    apply Option.ext
    intro count
    constructor
    · intro isFirst
      have mem := known.mem_iff.mp (List.mem_of_head? isFirst)
      cases others : t.knownLinksOf identity with
      | nil => simp [others] at mem
      | cons head tail =>
          have headMem : head ∈ s.knownLinksOf identity := known.mem_iff.mpr (by simp [others])
          rw [agree head headMem count (List.mem_of_head? isFirst)]
          rfl
    · intro isFirst
      have mem := known.mem_iff.mpr (List.mem_of_head? isFirst)
      cases others : s.knownLinksOf identity with
      | nil => simp [others] at mem
      | cons head tail =>
          rw [agree head (by simp [others]) count mem]
          rfl
  have unknown : unknownLink ((s.aliases identity).map linkCount) =
      unknownLink ((t.aliases identity).map linkCount) := by
    simp only [unknownLink, (linkCounts_perm perm identity).mem_iff]
  rw [(s.sees_linkEvidence identity).resolvedLink, (t.sees_linkEvidence identity).resolvedLink,
    unknown]
  rw [knownLinksOf, knownLinksOf] at first
  rw [first]

/-- Contradicting counts have one status, agreeing counts are resolved alike. -/
theorem linkStatusOf_of_perm (identity : ObjectIdentity) :
    s.linkStatusOf identity = t.linkStatusOf identity := by
  have conflicts : (s.linkEvidence identity).hasLinkConflict =
      (t.linkEvidence identity).hasLinkConflict := by
    apply Bool.eq_iff_iff.mpr
    rw [hasLinkConflict_iff, hasLinkConflict_iff, linksAgree_of_perm perm]
  rw [linkStatusOf, linkStatusOf, GraphBuilder.linkStatus, GraphBuilder.linkStatus, conflicts,
    (aliases_perm perm identity).length_eq]
  split
  · rfl
  · next quiet =>
      have agree : s.LinksAgree identity := by
        by_contra disagree
        exact quiet (conflicts ▸ (s.hasLinkConflict_iff identity).mpr disagree)
      rw [resolvedLink_of_perm perm agree]

theorem indeterminateObjects_of_perm : s.indeterminateObjects = t.indeterminateObjects := by
  have same : (s.entries.filterMap fileIdentity).toFinset =
      (t.entries.filterMap fileIdentity).toFinset :=
    List.toFinset_eq_of_perm _ _ (perm.filterMap _)
  simp only [indeterminateObjects, same, linkStatusOf_of_perm perm, perm.countP_eq]

/-! ### Children -/

theorem shownLogical_of_perm {entry : EntryObservation} (entryMem : entry ∈ s.entries) :
    s.shownLogical entry = t.shownLogical entry := by
  rw [shownLogical, shownLogical, logicalBytes_of_perm perm entryMem]

theorem shownAllocated_of_perm {entry : EntryObservation} (entryMem : entry ∈ s.entries) :
    s.shownAllocated entry = t.shownAllocated entry := by
  rw [shownAllocated, shownAllocated, referencedBytes_of_perm perm entryMem]

variable {rt rt' : Runtime} (lowercase : rt.toLowercase = rt'.toLowercase)

include lowercase

theorem sortKey_of_perm {entry : EntryObservation} (entryMem : entry ∈ s.entries) :
    s.sortKey rt entry = t.sortKey rt' entry := by
  rw [sortKey, sortKey, shownLogical_of_perm perm entryMem, lowercase]

/-- Children are listed in the same order. -/
theorem orderedChildren_of_perm (id : UInt32) :
    s.orderedChildren rt id = t.orderedChildren rt' id := by
  have children : (s.childrenOf id).Perm (t.childrenOf id) := perm.filter _
  have same : (s.orderedChildren rt id).Perm (t.orderedChildren rt' id) :=
    ((s.orderedChildren_perm rt id).trans children).trans (t.orderedChildren_perm rt' id).symm
  have accepted : ∀ child ∈ s.orderedChildren rt id, child ∈ s.entries := by
    intro child childMem
    exact (List.mem_filter.mp ((s.orderedChildren_perm rt id).mem_iff.mp childMem)).1
  have sorted : (t.orderedChildren rt' id).Pairwise
      (fun left right => s.sortKey rt left ≤ s.sortKey rt right) := by
    refine (t.pairwise_orderedChildren rt' id).imp_of_mem ?_
    intro left right leftMem rightMem smaller
    rwa [sortKey_of_perm perm lowercase (accepted left (same.mem_iff.mpr leftMem)),
      sortKey_of_perm perm lowercase (accepted right (same.mem_iff.mpr rightMem))]
  refine same.eq_of_pairwise ?_ (s.pairwise_orderedChildren rt id) sorted
  intro left right leftMem rightMem smaller larger
  exact s.wellFormed.eq_of_entryId (accepted left leftMem)
    (accepted right (same.mem_iff.mpr rightMem)) (sortKey_inj (le_antisymm smaller larger))

end Reordered

/-! ### Answers -/

section Reordered

variable (perm : s.entries.Perm t.entries)

include perm

/-- An object is the same in every order, except perhaps for its link count. -/
theorem sharedObject_of_perm (identity : ObjectIdentity) : t.sharedObject identity =
    { s.sharedObject identity with totalLinkCount := (t.linkEvidence identity).resolvedLink } := by
  have allocs : (s.knownAllocations identity).min? = (t.knownAllocations identity).min? :=
    min?_of_perm (knownAllocations_perm perm identity)
  simp only [sharedObject, (aliases_perm perm identity).length_eq, linkStatusOf_of_perm perm, allocs]

/-- The evidence shown for an entry depends on the order in its link count only. -/
theorem shownEvidence_of_perm (entry : EntryObservation) : ∃ count,
    t.shownEvidence entry =
        ((s.shownEvidence entry).1, (s.shownEvidence entry).2.1, count,
          (s.shownEvidence entry).2.2.2) ∧
      ((∀ identity, entry.fileIdentity = some identity → s.LinksAgree identity) →
        count = (s.shownEvidence entry).2.2.1) := by
  cases identified : entry.fileIdentity with
  | some identity =>
      refine ⟨(t.linkEvidence identity).resolvedLink, ?_, ?_⟩
      · simp only [shownEvidence, s.objectOf_of_fileIdentity identified,
          t.objectOf_of_fileIdentity identified, sharedObject_of_perm perm]
      · intro agree
        simp only [shownEvidence, s.objectOf_of_fileIdentity identified, sharedObject]
        exact (resolvedLink_of_perm perm (agree identity rfl)).symm
  | none =>
      have same : t.objectOf entry = s.objectOf entry := by
        cases entry with
        | directory dir => rfl
        | special special => rfl
        | file file =>
            have anonymous : file.objectId = none := identified
            simp only [objectOf, anonymous]
      refine ⟨(s.shownEvidence entry).2.2.1, ?_, fun _ => rfl⟩
      simp only [shownEvidence, same]

/-! ### Paths -/

theorem find_of_perm (id : UInt32) : s.find id = t.find id := by
  apply Option.ext
  intro entry
  simp only [find_eq_some_iff, perm.mem_iff]

theorem namesToRoot_of_perm (fuel : ℕ) (entry : EntryObservation) :
    s.namesToRoot fuel entry = t.namesToRoot fuel entry := by
  induction fuel generalizing entry with
  | zero => rfl
  | succ fuel ih => simp only [namesToRoot, find_of_perm perm, ih]

theorem path_of_perm (entry : EntryObservation) : s.path entry = t.path entry := by
  rw [path, path, perm.length_eq, namesToRoot_of_perm perm]

theorem isReported_of_perm (identity : ObjectIdentity) :
    DirectoryGraph.isReported (s.sharedObject identity) =
      DirectoryGraph.isReported (t.sharedObject identity) := by
  rw [sharedObject_of_perm perm]
  rfl

theorem reportedPaths_perm : s.reportedPaths.Perm t.reportedPaths := by
  have same : ∀ entry ∈ t.entries,
      (s.reportedAs entry).bind (fun identity => (s.path entry).map (fun path => (identity, path))) =
        (t.reportedAs entry).bind
          (fun identity => (t.path entry).map (fun path => (identity, path))) := by
    intro entry _
    simp only [reportedAs, isReported_of_perm perm, path_of_perm perm]
  rw [reportedPaths, reportedPaths, ← List.filterMap_congr same]
  exact perm.filterMap _

/-- A summary lists the same paths, perhaps in another order. -/
theorem entryPaths_of_perm (identity : ObjectIdentity) :
    (s.summary identity).entryPaths.Perm (t.summary identity).entryPaths :=
  ((reportedPaths_perm perm).filter _).map _

theorem reported_iff_of_perm (identity : ObjectIdentity) :
    identity ∈ firsts (s.reportedPaths.map Prod.fst) ↔
      identity ∈ firsts (t.reportedPaths.map Prod.fst) := by
  rw [mem_firsts, mem_firsts, ((reportedPaths_perm perm).map _).mem_iff]

end Reordered

end Snapshot

/-! ### Two runs -/

/-- What a hard-link summary says apart from its link count and the order of its paths. -/
def HardLinkSummary.unordered (summary : HardLinkSummary) :
    ObjectIdentity × UInt32 × ExternalReferenceStatus × Finset String :=
  (summary.identity, summary.observedAliasCount, summary.externalReferenceStatus,
    summary.entryPaths.toFinset)

/-- Two projections that agree except perhaps in the link count, and there too when
the aliases of the entry agree. -/
structure Alike (s : Snapshot) (left right : GraphEntry) : Prop where
  fields : right = { left with totalLinkCount := right.totalLinkCount }
  links : (left.kind = .file → ∀ identity ∈ left.objectId, s.LinksAgree identity) →
    right.totalLinkCount = left.totalLinkCount

/-- Two graphs whose queries answer alike. -/
structure SameAnswers (s : Snapshot) (left right : DirectoryGraph) : Prop where
  totalEntries : left.totalEntries = right.totalEntries
  stored : ∀ compact ∈ left.storage.entries, ∃ other ∈ right.storage.entries,
    ∃ shown otherShown, left.projectGraphEntry compact = .ok shown ∧
      right.projectGraphEntry other = .ok otherShown ∧ Alike s shown otherShown
  entry : ∀ id, (left.entry id = .ok none ∧ right.entry id = .ok none) ∨
    ∃ shown otherShown, left.entry id = .ok (some shown) ∧
      right.entry id = .ok (some otherShown) ∧ Alike s shown otherShown
  known : left.allocatedBytesKnown = right.allocatedBytesKnown
  indeterminate : left.indeterminateExternalReferenceObjects =
    right.indeterminateExternalReferenceObjects
  hardLinks : ∃ links otherLinks, left.hardLinkObjects = .ok links ∧
    right.hardLinkObjects = .ok otherLinks ∧
      (links.map HardLinkSummary.unordered).toFinset =
        (otherLinks.map HardLinkSummary.unordered).toFinset ∧
      ∀ summary ∈ links, ∀ other ∈ otherLinks, summary.identity = other.identity →
        s.LinksAgree summary.identity → summary.totalLinkCount = other.totalLinkCount

namespace Snapshot

variable {s t : Snapshot} {rt rt' : Runtime}

theorem present_alike (perm : s.entries.Perm t.entries)
    (lowercase : rt.toLowercase = rt'.toLowercase) {entry : EntryObservation}
    (entryMem : entry ∈ s.entries) : Alike s (s.present rt entry) (t.present rt' entry) := by
  rcases shownEvidence_of_perm perm entry with ⟨count, evidence, agreed⟩
  constructor
  · simp only [present, evidence, shownLogical_of_perm perm entryMem,
      shownAllocated_of_perm perm entryMem, subtreeKnown_of_perm perm entryMem,
      referencedBytes_of_perm perm entryMem, uniqueBytes_of_perm perm entryMem,
      orderedChildren_of_perm perm lowercase]
  · intro agree
    simp only [present, evidence]
    apply agreed
    intro identity identified
    apply agree
    · cases entry with
      | directory dir => cases identified
      | special special => cases identified
      | file file => rfl
    · simp only [present, shownEvidence, s.objectOf_of_fileIdentity identified]
      rfl

/-- The summaries agree as sets, with the link counts that do not contradict each other. -/
theorem hardLinks_alike (perm : s.entries.Perm t.entries) :
    (s.hardLinks.map HardLinkSummary.unordered).toFinset =
        (t.hardLinks.map HardLinkSummary.unordered).toFinset ∧
      ∀ summary ∈ s.hardLinks, ∀ other ∈ t.hardLinks, summary.identity = other.identity →
        s.LinksAgree summary.identity → summary.totalLinkCount = other.totalLinkCount := by
  have same : ∀ identity, (s.summary identity).unordered = (t.summary identity).unordered := by
    intro identity
    have paths := List.toFinset_eq_of_perm _ _ (entryPaths_of_perm perm identity)
    simp only [HardLinkSummary.unordered, paths]
    simp only [summary, sharedObject_of_perm perm identity]
  constructor
  · ext item
    simp only [hardLinks, List.map_map, List.mem_toFinset, List.mem_map, Function.comp_apply, same,
      reported_iff_of_perm perm]
  · intro summary summaryMem other otherMem named agree
    rcases List.mem_map.mp summaryMem with ⟨identity, _, rfl⟩
    rcases List.mem_map.mp otherMem with ⟨otherIdentity, _, rfl⟩
    have equal : identity = otherIdentity := named
    subst equal
    exact resolvedLink_of_perm perm agree

end Snapshot

namespace GraphBuilder

variable {rt rt' : Runtime} {builder builder' : GraphBuilder} {target target' : String}
  {records records' : List ObservationRecord} {graph graph' : DirectoryGraph}

/-- Neither the order of the records nor that of the hash maps changes an answer. -/
theorem order_irrelevant (reached : Reached target builder records)
    (reached' : Reached target' builder' records') (perm : records.Perm records')
    (lowercase : rt.toLowercase = rt'.toLowercase) (ran : builder.finish rt = .ok (.ok graph))
    (ran' : builder'.finish rt' = .ok (.ok graph')) :
    SameAnswers reached.snapshot graph graph' := by
  have presented := reached.presented ran
  have presented' := reached'.presented ran'
  have entries : reached.snapshot.entries.Perm reached'.snapshot.entries := perm.filterMap _
  constructor
  · rw [DirectoryGraph.totalEntries, DirectoryGraph.totalEntries, EntryStorage.len,
      EntryStorage.len, presented.finished.length_eq, presented'.finished.length_eq,
      entries.length_eq]
  · intro compact compactMem
    rcases presented.finished.found compactMem with ⟨idx, entry, stored, found, _⟩
    have entryMem := List.mem_of_getElem? found
    rcases List.mem_iff_getElem?.mp (entries.mem_iff.mp entryMem) with ⟨other, otherFound⟩
    rcases presented'.finished.delivered other entry otherFound with ⟨compact', stored', _⟩
    exact ⟨compact', List.mem_of_getElem? stored', _, _,
      presented.projectGraphEntry_eq found stored,
      presented'.projectGraphEntry_eq otherFound stored',
      Snapshot.present_alike entries lowercase entryMem⟩
  · intro id
    by_cases known : id ≠ 0 ∧ id ∈ reached.snapshot.entries.map entryId
    · right
      rcases List.mem_map.mp known.2 with ⟨entry, entryMem, rfl⟩
      exact ⟨_, _, presented.entry_eq entryMem known.1,
        presented'.entry_eq (entries.mem_iff.mp entryMem) known.1,
        Snapshot.present_alike entries lowercase entryMem⟩
    · left
      have absent : id = 0 ∨ id ∉ reached.snapshot.entries.map entryId := by
        rcases not_and_or.mp known with zero | unknown
        · exact Or.inl (not_not.mp zero)
        · exact Or.inr unknown
      have absent' : id = 0 ∨ id ∉ reached'.snapshot.entries.map entryId := by
        rwa [← (entries.map entryId).mem_iff]
      exact ⟨presented.entry_eq_none absent, presented'.entry_eq_none absent'⟩
  · rw [presented.known_eq, presented'.known_eq, Snapshot.allocationsKnown_of_perm entries]
  · rw [presented.indeterminate_eq, presented'.indeterminate_eq,
      Snapshot.indeterminateObjects_of_perm entries]
  · exact ⟨_, _, presented.hardLinkObjects_eq, presented'.hardLinkObjects_eq,
      Snapshot.hardLinks_alike entries⟩

/-- The records of `Sample.shared` in another order. -/
def Sample.rearranged : List ObservationRecord := [
  Sample.directory 1 0 "c:", Sample.directory 3 1 "right",
  Sample.file 5 3 "alias" 5 100 (some (Sample.objectIdentity 1)),
  Sample.file 6 3 "other" 9 40 none, Sample.directory 2 1 "left",
  Sample.file 4 2 "one" 5 100 (some (Sample.objectIdentity 1)),
  .terminal (Sample.terminal 3 3 19 240)]

/-- Hash maps visited against the order of insertion. -/
def Sample.backwards : Runtime where
  toLowercase := Sample.runtime.toLowercase
  fileObjectOrder := ⟨fun map => (pairs map).reverse, fun map => List.reverse_perm (pairs map)⟩
  dirObjectOrder := ⟨fun map => (pairs map).reverse, fun map => List.reverse_perm (pairs map)⟩

theorem order_irrelevant_rearranged : ∃ (builder builder' : GraphBuilder)
    (graph graph' : DirectoryGraph), ∃ reached : Reached "c:" builder Sample.shared,
      Reached "c:" builder' Sample.rearranged ∧ SameAnswers reached.snapshot graph graph' := by
  have built : isBuilt (buildFromReader Sample.backwards "c:" Sample.rearranged) = true := by
    decide +kernel
  have perm : Sample.shared.Perm Sample.rearranged := by decide +kernel
  have lowercase : Sample.runtime.toLowercase = Sample.backwards.toLowercase := rfl
  rcases exists_of_isBuilt Sample.isBuilt_shared with ⟨builder, graph, reached, ran⟩
  rcases exists_of_isBuilt built with ⟨builder', graph', reached', ran'⟩
  exact ⟨builder, builder', graph, graph', reached, reached',
    order_irrelevant reached reached' perm lowercase ran ran'⟩

end GraphBuilder

end PigTree
