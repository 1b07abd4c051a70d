import PigTree.Engine.ContentStreams
import PigTree.Engine.Pages
import PigTree.Engine.Reordering

/-!
# What a graph shows of hard links

The link evidence of an identity, stated over its aliases, and the places that show it:
the projection of every alias and its node on every page.
-/

namespace PigTree

open Foundation EntryObservation

namespace Snapshot

/-- What the aliases of an identity say together: how many there are, what is known about
the number of links, and whether some of them are outside the target. -/
structure Evidence (s : Snapshot) (identity : ObjectIdentity) (aliasCount : UInt32)
    (totalLinkCount : ValueKnowledge UInt32) (status : ExternalReferenceStatus) : Prop where
  counted : aliasCount.toNat = (s.aliases identity).length
  known : s.LinksAgree identity → ∀ count ∈ s.knownLinksOf identity,
    totalLinkCount = .known count
  unknown : s.knownLinksOf identity = [] →
    totalLinkCount = unknownLink ((s.aliases identity).map linkCount)
  conflicting : ¬s.LinksAgree identity → status = .inconsistentEvidence
  derived : s.LinksAgree identity →
    status = ExternalReferenceStatus.derive totalLinkCount aliasCount

/-- The aliases cannot tell whether some of the links are outside the target. -/
def Undecided (s : Snapshot) (identity : ObjectIdentity) : Prop :=
  ∀ aliasCount totalLinkCount status, s.Evidence identity aliasCount totalLinkCount status →
    status = .indeterminate

/-- The identities of files that are undecided and the files without identity whose own link
count leaves the question open. -/
noncomputable def undecidedObjects (s : Snapshot) : ℕ :=
  {identity | (∃ entry ∈ s.entries, entry.fileIdentity = some identity) ∧
    s.Undecided identity}.ncard +
  s.entries.countP (fun entry => entry.kind = .file ∧ entry.fileIdentity = none ∧
    (entry.linkCount = .notObserved ∨ entry.linkCount = .unavailable))

variable {s : Snapshot} {identity : ObjectIdentity}

theorem length_aliases_le (s : Snapshot) (identity : ObjectIdentity) :
    (s.aliases identity).length ≤ s.entries.length :=
  List.length_filter_le _ _

/-- The record of an identity says what its aliases say. -/
theorem evidence_sharedObject (short : s.entries.length < 2 ^ 32) (identity : ObjectIdentity) :
    s.Evidence identity (s.sharedObject identity).observedAliasCount
      (s.sharedObject identity).totalLinkCount
        (s.sharedObject identity).externalReferenceStatus := by
  have few := Nat.lt_of_le_of_lt (s.length_aliases_le identity) short
  have sees := s.sees_linkEvidence identity
  have resolved := sees.resolvedLink
  constructor
  · exact UInt32.toNat_ofNat_of_lt' few
  · intro agree count countMem
    show (s.linkEvidence identity).resolvedLink = .known count
    have listed : knownLinks ((s.aliases identity).map linkCount) = s.knownLinksOf identity := rfl
    rw [resolved, listed]
    cases known : s.knownLinksOf identity with
    | nil =>
        rw [known] at countMem
        cases countMem
    | cons first others =>
        have firstMem : first ∈ s.knownLinksOf identity := by
          rw [known]
          exact List.mem_cons_self
        rw [List.head?_cons, agree first firstMem count countMem]
  · intro none
    show (s.linkEvidence identity).resolvedLink = _
    have listed : knownLinks ((s.aliases identity).map linkCount) = s.knownLinksOf identity := rfl
    rw [resolved, listed, none]
    rfl
  · intro disagree
    show s.linkStatusOf identity = _
    rw [linkStatusOf, GraphBuilder.linkStatus, (s.hasLinkConflict_iff identity).mpr disagree]
    rfl
  · intro agree
    have quiet : ¬(s.linkEvidence identity).hasLinkConflict = true :=
      fun conflict => (s.hasLinkConflict_iff identity).mp conflict agree
    show s.linkStatusOf identity = _
    rw [linkStatusOf, GraphBuilder.linkStatus, if_neg quiet]
    rfl

/-- The aliases leave one status open only. -/
theorem Evidence.status_eq {aliasCount aliasCount' : UInt32}
    {totalLinkCount totalLinkCount' : ValueKnowledge UInt32}
    {status status' : ExternalReferenceStatus}
    (evidence : s.Evidence identity aliasCount totalLinkCount status)
    (other : s.Evidence identity aliasCount' totalLinkCount' status') : status = status' := by
  by_cases agree : s.LinksAgree identity
  · have counts : aliasCount = aliasCount' :=
      UInt32.toNat_inj.mp (evidence.counted.trans other.counted.symm)
    have links : totalLinkCount = totalLinkCount' := by
      cases known : s.knownLinksOf identity with
      | nil => rw [evidence.unknown known, other.unknown known]
      | cons first others =>
          have firstMem : first ∈ s.knownLinksOf identity := by
            rw [known]
            exact List.mem_cons_self
          rw [evidence.known agree first firstMem, other.known agree first firstMem]
    rw [evidence.derived agree, other.derived agree, counts, links]
  · rw [evidence.conflicting agree, other.conflicting agree]

theorem undecided_iff (short : s.entries.length < 2 ^ 32) (identity : ObjectIdentity) :
    s.Undecided identity ↔ s.linkStatusOf identity = .indeterminate := by
  have recorded := s.evidence_sharedObject short identity
  constructor
  · intro undecided
    exact undecided _ _ _ recorded
  · intro indeterminate aliasCount totalLinkCount status evidence
    rw [evidence.status_eq recorded]
    exact indeterminate

/-- A file without identity is counted when its own link count leaves the question open. -/
theorem isIndeterminate_iff (entry : EntryObservation) :
    GraphBuilder.isIndeterminate entry = true ↔ entry.kind = .file ∧ entry.fileIdentity = none ∧
      (entry.linkCount = .notObserved ∨ entry.linkCount = .unavailable) := by
  have open_ : ExternalReferenceStatus.derive entry.linkCount 1 = .indeterminate ↔
      (entry.linkCount = .notObserved ∨ entry.linkCount = .unavailable) := by
    cases entry.linkCount with
    | notObserved => simp [ExternalReferenceStatus.derive]
    | unavailable => simp [ExternalReferenceStatus.derive]
    | notApplicable => simp [ExternalReferenceStatus.derive]
    | known count =>
        simp only [ExternalReferenceStatus.derive, reduceCtorEq, or_self, iff_false]
        split
        · simp
        · split <;> simp
  simp only [GraphBuilder.isIndeterminate, GraphBuilder.isAnonymous, Bool.and_eq_true,
    decide_eq_true_eq, Option.isNone_iff_eq_none, open_, and_assoc]

/-- The graph-wide count is the number of undecided objects. -/
theorem indeterminateObjects_eq (short : s.entries.length < 2 ^ 32) :
    s.indeterminateObjects = s.undecidedObjects := by
  rw [indeterminateObjects, undecidedObjects]
  congr 1
  · rw [← Set.ncard_coe_finset]
    congr 1
    ext identity
    simp [undecided_iff short]
  · apply List.countP_congr
    intro entry _
    rw [isIndeterminate_iff, decide_eq_true_iff]

theorem indeterminateObjects_le (s : Snapshot) : s.indeterminateObjects ≤ s.entries.length := by
  have carried : ((s.entries.filterMap fileIdentity).toFinset.filter
      (fun identity => s.linkStatusOf identity = .indeterminate)).card ≤
        s.entries.countP (fun entry => entry.fileIdentity.isSome) := by
    refine (Finset.card_filter_le _ _).trans ((List.toFinset_card_le _).trans ?_)
    rw [List.length_filterMap_eq_countP]
  have anonymous : s.entries.countP GraphBuilder.isIndeterminate ≤
      s.entries.countP GraphBuilder.isAnonymous := by
    apply List.countP_mono_left
    intro entry _ indeterminate
    rw [GraphBuilder.isIndeterminate, Bool.and_eq_true] at indeterminate
    exact indeterminate.1
  have kinds := GraphBuilder.countP_kinds_le s.entries
  rw [indeterminateObjects]
  omega

end Snapshot

namespace GraphBuilder

variable {rt : Runtime} {builder : GraphBuilder} {target : String}
  {records : List ObservationRecord} {s : Snapshot} {graph : DirectoryGraph}
  {entry : EntryObservation} {identity : ObjectIdentity}

/-- A graph shows the evidence of an identity for one of its names, on its own and on every
page that lists it. -/
structure ShowsLinks (s : Snapshot) (graph : DirectoryGraph) (entry : EntryObservation)
    (identity : ObjectIdentity) : Prop where
  projected : ∃ shown, graph.entry entry.entryId = .ok (some shown) ∧
    s.Evidence identity shown.observedAliasCount shown.totalLinkCount
      shown.externalReferenceStatus
  listed : ∃ offset limit total nodes,
    graph.getChildrenPage entry.parentId offset limit = .ok (.ok (total, nodes)) ∧
      ∃ node ∈ nodes, node.id = entry.entryId
  paged : ∀ parentId offset limit total nodes,
    graph.getChildrenPage parentId offset limit = .ok (.ok (total, nodes)) →
      ∀ node ∈ nodes, node.id = entry.entryId → ∃ link status,
        node.totalLinkCount = some (.fromValueKnowledge link) ∧
          node.externalReferenceStatus = status.number ∧
            s.Evidence identity node.observedAliasCount link status

/-- Every alias shows the record of its identity. -/
theorem evidence_shown (short : s.entries.length < 2 ^ 32)
    (identified : entry.fileIdentity = some identity) :
    s.Evidence identity (s.shownEvidence entry).2.1 (s.shownEvidence entry).2.2.1
      (s.shownEvidence entry).2.2.2 := by
  rw [Snapshot.shownEvidence, s.objectOf_of_fileIdentity identified]
  exact s.evidence_sharedObject short identity

/-- The node of an identifier on a page is the node of its entry. -/
theorem eq_node_of_mem_page {streams : List StreamObservation} {parentId : UInt32}
    {offset limit total : ℕ} {nodes : List DirectoryEntryNode} {node : DirectoryEntryNode}
    (entryMem : entry ∈ s.entries)
    (paged : s.page rt streams parentId offset limit = .ok (total, nodes))
    (nodeMem : node ∈ nodes) (named : node.id = entry.entryId) :
    node = s.node streams entry := by
  rw [Snapshot.page] at paged
  cases listed : s.childIds rt parentId with
  | error err =>
      rw [listed] at paged
      cases paged
  | ok ids =>
      rw [listed, Except.map, Except.ok.injEq, Prod.mk.injEq] at paged
      rw [← paged.2] at nodeMem
      rcases List.mem_filterMap.mp nodeMem with ⟨id, _, shown⟩
      rw [Snapshot.nodeAt] at shown
      split at shown
      · cases shown
      · rcases Option.map_eq_some_iff.mp shown with ⟨other, located, rfl⟩
        rcases Snapshot.find_eq_some_iff.mp located with ⟨otherMem, _⟩
        rw [s.wellFormed.eq_of_entryId otherMem entryMem named]

/-- The page that starts at the first child and ends at the last lists every child. -/
theorem exists_page (rt : Runtime) (streams : List StreamObservation) (entryMem : entry ∈ s.entries)
    (addressable : entry.entryId ≠ 0) (plain : entry.kind ≠ .directory) :
    ∃ offset limit total nodes, s.page rt streams entry.parentId offset limit =
      .ok (total, nodes) ∧ ∃ node ∈ nodes, node.id = entry.entryId := by
  rcases List.mem_iff_getElem?.mp entryMem with ⟨idx, found⟩
  have positive : 0 < idx := by
    apply Nat.pos_of_ne_zero
    rintro rfl
    apply plain
    exact (s.wellFormed.root_first entry (by rw [List.head?_eq_getElem?]; exact found)).2.2
  rcases s.wellFormed.parent found positive with ⟨below, _, parent, parentFound, named, directory⟩
  have located : s.find entry.parentId = some parent :=
    Snapshot.find_eq_some_iff.mpr ⟨List.mem_of_getElem? parentFound, named⟩
  have childMem : entry ∈ s.childrenOf entry.parentId :=
    List.mem_filter.mpr ⟨entryMem, by simp [below]⟩
  have idMem : entry.entryId ∈ (s.orderedChildren rt entry.parentId).map entryId :=
    List.mem_map_of_mem ((s.orderedChildren_perm rt _).mem_iff.mpr childMem)
  have children : s.childIds rt entry.parentId =
      .ok ((s.orderedChildren rt entry.parentId).map entryId) := by
    rw [Snapshot.childIds, if_neg below, located]
    simp only [directory, ne_eq, not_true_eq_false, if_false]
  have paged : s.page rt streams entry.parentId 0 (s.orderedChildren rt entry.parentId).length =
      .ok ((s.orderedChildren rt entry.parentId).length,
        ((s.orderedChildren rt entry.parentId).map entryId).filterMap (s.nodeAt streams)) := by
    rw [Snapshot.page, children, Except.map, List.drop_zero, List.length_map, List.take_of_length_le]
    rw [List.length_map]
  refine ⟨_, _, _, _, paged, s.node streams entry, ?_, rfl⟩
  apply List.mem_filterMap.mpr
  refine ⟨_, idMem, ?_⟩
  rw [Snapshot.nodeAt, if_neg addressable, s.find_of_mem entryMem, Option.map_some]

theorem Reached.showsLinks_iff (reached : Reached target builder records)
    (ran : builder.finish rt = .ok (.ok graph)) (entryMem : entry ∈ entriesOf records)
    (identified : entry.fileIdentity = some identity) :
    ShowsLinks reached.snapshot graph entry identity ↔ entry.entryId ≠ 0 := by
  have presented := reached.presented ran
  have short := presented.finished.short
  constructor
  · intro shows zero
    rcases shows.projected with ⟨shown, projected, _⟩
    rw [presented.entry_eq_none (Or.inl zero)] at projected
    cases projected
  · intro addressable
    have plain : entry.kind ≠ .directory := by
      cases entry with
      | directory dir => cases identified
      | file file => exact EntryKind.noConfusion
      | special special => cases identified
    constructor
    · exact ⟨_, presented.entry_eq entryMem addressable, evidence_shown short identified⟩
    · rcases exists_page rt (streamsOf records) (reached.snapshot_entries ▸ entryMem)
        addressable plain with ⟨offset, limit, total, nodes, paged, listed⟩
      exact ⟨offset, limit, total, nodes,
        by rw [reached.getChildrenPage_eq ran, paged], listed⟩
    · intro parentId offset limit total nodes paged node nodeMem named
      rw [reached.getChildrenPage_eq ran, Except.ok.injEq] at paged
      rw [eq_node_of_mem_page entryMem paged nodeMem named]
      exact ⟨_, _, rfl, rfl, evidence_shown short identified⟩

/-- Every alias shows the evidence of its identity, on its own and on the pages, and the
graph counts the undecided objects, exactly when no alias has the identifier `0`. -/
theorem linkEvidence_shown_iff
    (fed : (GraphBuilder.new target).ingestAll records = .ok (.ok (), builder))
    (ran : builder.finish rt = .ok (.ok graph)) :
    ((∀ entry ∈ entriesOf records, ∀ identity, entry.fileIdentity = some identity →
          ShowsLinks (Reached.of_ingestAll fed).snapshot graph entry identity) ∧
        graph.indeterminateExternalReferenceObjects.toNat =
          (Reached.of_ingestAll fed).snapshot.undecidedObjects) ↔
      ∀ entry ∈ entriesOf records, entry.fileIdentity ≠ none → entry.entryId ≠ 0 := by
  have reached := Reached.of_ingestAll fed
  have presented := reached.presented ran
  have short := presented.finished.short
  have counted : graph.indeterminateExternalReferenceObjects.toNat =
      reached.snapshot.undecidedObjects := by
    rw [presented.indeterminate_eq, reached.snapshot.indeterminateObjects_eq short]
    apply UInt64.toNat_ofNat_of_lt'
    rw [← reached.snapshot.indeterminateObjects_eq short]
    have few := reached.snapshot.indeterminateObjects_le
    unfold UInt64.size
    omega
  rw [and_iff_left counted]
  constructor
  · intro shows entry entryMem identified
    rcases Option.ne_none_iff_exists'.mp identified with ⟨identity, carried⟩
    exact (reached.showsLinks_iff ran entryMem carried).mp (shows entry entryMem identity carried)
  · intro addressable entry entryMem identity carried
    apply (reached.showsLinks_iff ran entryMem carried).mpr
    apply addressable entry entryMem
    rw [carried]
    exact Option.some_ne_none identity

theorem linkEvidence_shown_iff_shared : ∃ builder graph,
    ∃ fed : (GraphBuilder.new "c:").ingestAll Sample.shared = .ok (.ok (), builder),
      builder.finish Sample.runtime = .ok (.ok graph) ∧
        (((∀ entry ∈ entriesOf Sample.shared, ∀ identity, entry.fileIdentity = some identity →
              ShowsLinks (Reached.of_ingestAll fed).snapshot graph entry identity) ∧
            graph.indeterminateExternalReferenceObjects.toNat =
              (Reached.of_ingestAll fed).snapshot.undecidedObjects) ↔
          ∀ entry ∈ entriesOf Sample.shared, entry.fileIdentity ≠ none → entry.entryId ≠ 0) := by
  rcases exists_fed_of_isBuilt Sample.isBuilt_shared with ⟨builder, graph, fed, ran⟩
  exact ⟨builder, graph, fed, ran, linkEvidence_shown_iff fed ran⟩

/-- The name with the identifier `0` shows no evidence. -/
theorem linkEvidence_not_shown_zeroAlias : ∃ builder graph,
    ∃ fed : (GraphBuilder.new "c:").ingestAll Sample.zeroAlias = .ok (.ok (), builder),
      builder.finish Sample.runtime = .ok (.ok graph) ∧
        ∃ entry ∈ entriesOf Sample.zeroAlias, ∃ identity, entry.fileIdentity = some identity ∧
          ¬ShowsLinks (Reached.of_ingestAll fed).snapshot graph entry identity := by
  have built : isBuilt (buildFromReader Sample.runtime "c:" Sample.zeroAlias) = true := by
    decide +kernel
  rcases exists_fed_of_isBuilt built with ⟨builder, graph, fed, ran⟩
  refine ⟨builder, graph, fed, ran, Sample.zeroName, by decide, Sample.objectIdentity 1, rfl, ?_⟩
  intro shows
  exact ((Reached.of_ingestAll fed).showsLinks_iff ran (by decide) rfl).mp shows rfl

end GraphBuilder

end PigTree
