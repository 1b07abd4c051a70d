import PigTree.Engine.LinkEvidence
import PigTree.Engine.Paths

/-!
# The hard-link report

Which identities the report lists, in which order, and what it says about each of them,
stated over the accepted entries alone.
-/

namespace PigTree

open Foundation ParentTree EntryObservation DirectoryGraph

/-- The path of an entry: the name of the root, and below it the names on the way down,
each after a separator. A root that ends in a separator is not given another one. -/
inductive HasPath (entries : List EntryObservation) : EntryObservation → String → Prop where
  | top {entry : EntryObservation} (mem : entry ∈ entries) (above : entry.parentId = 0) :
      HasPath entries entry entry.name
  | child {entry parent : EntryObservation} {path : String} (mem : entry ∈ entries)
      (parentMem : parent ∈ entries) (named : parent.entryId = entry.parentId)
      (below : entry.parentId ≠ 0) (prefixed : HasPath entries parent path) :
      HasPath entries entry
        ((if parent.parentId = 0 ∧ endsWithBackslash parent.name then path else path.push '\\') ++
          entry.name)

namespace Snapshot

variable {s : Snapshot} {idx : ℕ} {entry : EntryObservation} {identity : ObjectIdentity}

/-- The rendered path of an entry below the root. -/
theorem exists_hasPath (found : s.entries[idx]? = some entry) (positive : 0 < idx) :
    ∃ root between, s.namesUp entry = (root :: (between ++ [entry.name])).reverse ∧
      HasPath s.entries entry (renderedAbove root between ++ entry.name) := by
  induction idx using Nat.strong_induction_on generalizing entry with
  | _ idx ih =>
      rcases s.wellFormed.parent found positive with ⟨below, smaller, parent, at_, named, _⟩
      have entryMem := List.mem_of_getElem? found
      have parentMem := List.mem_of_getElem? at_
      have up := namesUp_below found below parentMem named
      by_cases top : parentIndex s.entries idx = 0
      · have above : parent.parentId = 0 := (parentId_eq_zero_iff at_).mpr top
        refine ⟨parent.name, [], ?_, ?_⟩
        · rw [up, namesUp_root above]
          rfl
        · have path := HasPath.child entryMem parentMem named below (.top parentMem above)
          simp only [above, true_and] at path
          exact path
      · have nested : parent.parentId ≠ 0 := fun above => top ((parentId_eq_zero_iff at_).mp above)
        rcases ih _ smaller at_ (Nat.pos_of_ne_zero top) with ⟨root, between, names, prefixed⟩
        refine ⟨root, between ++ [parent.name], ?_, ?_⟩
        · rw [up, names]
          simp
        · have path := HasPath.child entryMem parentMem named below prefixed
          rw [if_neg (fun both => nested both.1)] at path
          have rendered : renderedAbove root (between ++ [parent.name]) =
              (renderedAbove root between ++ parent.name).push '\\' := by
            rw [renderedAbove, List.foldl_append]
            rfl
          rw [rendered]
          exact path

/-- The display path of a file is its path. -/
theorem hasPath_path (entryMem : entry ∈ s.entries) (plain : entry.kind ≠ .directory) :
    ∃ path, s.path entry = some path ∧ HasPath s.entries entry path := by
  rcases List.mem_iff_getElem?.mp entryMem with ⟨idx, found⟩
  have positive : 0 < idx := by
    apply Nat.pos_of_ne_zero
    rintro rfl
    apply plain
    exact (s.wellFormed.root_first entry (by rw [List.head?_eq_getElem?]; exact found)).2.2
  rcases exists_hasPath found positive with ⟨root, between, names, hasPath⟩
  refine ⟨_, ?_, hasPath⟩
  rw [path, ← joinNames_concat, ← names]
  rfl

theorem kind_ne_directory_of_fileIdentity (identified : entry.fileIdentity = some identity) :
    entry.kind ≠ .directory := by
  cases entry with
  | directory dir => cases identified
  | file file => exact EntryKind.noConfusion
  | special special => cases identified

/-- Identities with several aliases and those with a definite answer are reported. -/
def Reportable (s : Snapshot) (identity : ObjectIdentity) : Prop :=
  2 ≤ (s.aliases identity).length ∨ ∃ aliasCount totalLinkCount status,
    s.Evidence identity aliasCount totalLinkCount status ∧
      (status = .confirmedExternal ∨ status = .inconsistentEvidence)

theorem isReported_iff (short : s.entries.length < 2 ^ 32) (identity : ObjectIdentity) :
    isReported (s.sharedObject identity) = true ↔ s.Reportable identity := by
  have recorded := s.evidence_sharedObject short identity
  have several : 2 ≤ (s.sharedObject identity).observedAliasCount ↔
      2 ≤ (s.aliases identity).length := by
    rw [UInt32.le_iff_toNat_le, recorded.counted]
    rfl
  simp only [isReported, Bool.or_eq_true, decide_eq_true_eq, several, Reportable, or_assoc]
  apply or_congr_right
  constructor
  · intro definite
    exact ⟨_, _, _, recorded, definite⟩
  · rintro ⟨aliasCount, totalLinkCount, status, evidence, definite⟩
    rw [recorded.status_eq evidence]
    exact definite

/-- What the report lists for an entry. -/
def listedItem (s : Snapshot) (entry : EntryObservation) : Option (ObjectIdentity × String) :=
  (s.reportedAs entry).bind (fun identity => (s.path entry).map (fun path => (identity, path)))

theorem reportedPaths_listedItem (s : Snapshot) :
    s.reportedPaths = s.entries.filterMap s.listedItem := rfl

section Numbered

variable (numbered : ∀ entry ∈ s.entries, entry.entryId ≠ 0)

include numbered

/-- Without the identifier `0`, every file with a reported identity is listed with its path. -/
theorem listedItem_cases (entryMem : entry ∈ s.entries) :
    (∃ identity path, entry.fileIdentity = some identity ∧
        isReported (s.sharedObject identity) = true ∧ HasPath s.entries entry path ∧
          s.listedItem entry = some (identity, path)) ∨
      (entry.fileIdentity.filter (fun identity => isReported (s.sharedObject identity)) = none ∧
        s.listedItem entry = none) := by
  have same : s.reportedAs entry =
      entry.fileIdentity.filter (fun identity => isReported (s.sharedObject identity)) := by
    simp [reportedAs, numbered entry entryMem]
  rw [listedItem, same]
  cases identified : entry.fileIdentity with
  | none => exact Or.inr ⟨rfl, rfl⟩
  | some identity =>
      rw [Option.filter_some]
      split
      · next reported =>
          rcases hasPath_path entryMem (kind_ne_directory_of_fileIdentity identified) with
            ⟨path, rendered, hasPath⟩
          left
          refine ⟨identity, path, rfl, reported, hasPath, ?_⟩
          rw [Option.bind_some, rendered, Option.map_some]
      · exact Or.inr ⟨rfl, rfl⟩

/-- The identities of the listed paths are the reported ones, in order of arrival. -/
theorem reportedPaths_fst : s.reportedPaths.map Prod.fst =
    (s.entries.filterMap fileIdentity).filterMap
      (Option.guard (fun identity => isReported (s.sharedObject identity))) := by
  rw [reportedPaths_listedItem, List.map_filterMap, List.filterMap_filterMap]
  apply List.filterMap_congr
  intro entry entryMem
  rcases listedItem_cases numbered entryMem with
    ⟨identity, path, identified, reported, _, listed⟩ | ⟨unreported, listed⟩
  · rw [listed, identified, Option.bind_some]
    simp [Option.guard, reported]
  · rw [listed]
    cases identified : entry.fileIdentity with
    | none => rfl
    | some identity =>
        rw [identified, Option.filter_some, ite_eq_right_iff] at unreported
        have unlisted : isReported (s.sharedObject identity) = false := by
          apply Bool.eq_false_iff.mpr
          exact fun reported => Option.some_ne_none _ (unreported reported)
        rw [Option.bind_some]
        simp [Option.guard, unlisted]

/-- The report lists the reported identities in order of their first alias. -/
theorem hardLinks_identities : s.hardLinks.map HardLinkSummary.identity =
    (firsts (s.entries.filterMap fileIdentity)).filter
      (fun identity => isReported (s.sharedObject identity)) := by
  have identities : s.hardLinks.map HardLinkSummary.identity =
      firsts (s.reportedPaths.map Prod.fst) := by
    rw [hardLinks, List.map_map]
    exact List.map_id _
  rw [identities, reportedPaths_fst numbered, ← List.filterMap_eq_filter]
  symm
  apply filterMap_firsts
  intro left _ right _ image leftImage rightImage
  rw [(Option.guard_eq_some_iff.mp leftImage).1, (Option.guard_eq_some_iff.mp rightImage).1]

/-- A summary lists one path for each alias, in order of arrival. -/
theorem entryPaths_hasPath (reported : isReported (s.sharedObject identity) = true) :
    List.Forall₂ (HasPath s.entries) (s.aliases identity) (s.summary identity).entryPaths := by
  have listed : ∀ entries : List EntryObservation, (∀ entry ∈ entries, entry ∈ s.entries) →
      List.Forall₂ (HasPath s.entries)
        (entries.filter (fun entry => entry.fileIdentity = some identity))
        (((entries.filterMap s.listedItem).filter (fun item => item.1 = identity)).map Prod.snd) := by
    intro entries accepted
    induction entries with
    | nil => exact List.Forall₂.nil
    | cons entry entries ih =>
        have rest := ih (fun other otherMem => accepted other (List.mem_cons_of_mem _ otherMem))
        rcases listedItem_cases numbered (accepted entry List.mem_cons_self) with
          ⟨own, path, identified, _, hasPath, item⟩ | ⟨unreported, item⟩
        · rw [List.filterMap_cons_some item]
          by_cases same : own = identity
          · rw [List.filter_cons_of_pos (by simp [identified, same]),
              List.filter_cons_of_pos (by simp [same]), List.map_cons]
            exact List.Forall₂.cons hasPath rest
          · rw [List.filter_cons_of_neg (by simp [identified, same]),
              List.filter_cons_of_neg (by simp [same])]
            exact rest
        · have other : entry.fileIdentity ≠ some identity := by
            intro identified
            rw [identified, Option.filter_some, if_pos reported] at unreported
            cases unreported
          rw [List.filterMap_cons_none item, List.filter_cons_of_neg (by simp [other])]
          exact rest
  exact listed s.entries (fun _ entryMem => entryMem)

end Numbered

end Snapshot

namespace GraphBuilder

variable {rt : Runtime} {builder : GraphBuilder} {target : String}
  {records : List ObservationRecord} {s : Snapshot} {graph : DirectoryGraph}

/-- The report has one summary for each reportable identity and no other, in order of the
first aliases, and every summary says what the aliases say and lists their paths. -/
structure CompleteReport (s : Snapshot) (summaries : List HardLinkSummary) : Prop where
  once : (summaries.map HardLinkSummary.identity).Nodup
  complete : ∀ identity, identity ∈ summaries.map HardLinkSummary.identity ↔
    (∃ entry ∈ s.entries, entry.fileIdentity = some identity) ∧ s.Reportable identity
  ordered : (summaries.map HardLinkSummary.identity).Sublist
    (firsts (s.entries.filterMap fileIdentity))
  evidence : ∀ summary ∈ summaries, s.Evidence summary.identity summary.observedAliasCount
    summary.totalLinkCount summary.externalReferenceStatus
  paths : ∀ summary ∈ summaries,
    List.Forall₂ (HasPath s.entries) (s.aliases summary.identity) summary.entryPaths
  counted : ∀ summary ∈ summaries,
    summary.entryPaths.length = summary.observedAliasCount.toNat

theorem completeReport_hardLinks (short : s.entries.length < 2 ^ 32)
    (numbered : ∀ entry ∈ s.entries, entry.entryId ≠ 0) : CompleteReport s s.hardLinks := by
  have identities := Snapshot.hardLinks_identities numbered
  have sublist : (s.hardLinks.map HardLinkSummary.identity).Sublist
      (firsts (s.entries.filterMap fileIdentity)) := by
    rw [identities]
    exact List.filter_sublist
  have complete : ∀ identity, identity ∈ s.hardLinks.map HardLinkSummary.identity ↔
      (∃ entry ∈ s.entries, entry.fileIdentity = some identity) ∧ s.Reportable identity := by
    intro identity
    rw [identities]
    rw [List.mem_filter, mem_firsts, List.mem_filterMap, Snapshot.isReported_iff short]
  have summarized : ∀ summary ∈ s.hardLinks, summary = s.summary summary.identity ∧
      isReported (s.sharedObject summary.identity) = true := by
    intro summary summaryMem
    have listed := (complete summary.identity).mp (List.mem_map_of_mem summaryMem)
    refine ⟨?_, (Snapshot.isReported_iff short _).mpr listed.2⟩
    rcases List.mem_map.mp summaryMem with ⟨identity, _, rfl⟩
    rfl
  have paths : ∀ summary ∈ s.hardLinks,
      List.Forall₂ (HasPath s.entries) (s.aliases summary.identity) summary.entryPaths := by
    intro summary summaryMem
    rcases summarized summary summaryMem with ⟨same, reported⟩
    rw [same]
    exact Snapshot.entryPaths_hasPath numbered reported
  have evidence : ∀ summary ∈ s.hardLinks, s.Evidence summary.identity summary.observedAliasCount
      summary.totalLinkCount summary.externalReferenceStatus := by
    intro summary summaryMem
    rw [(summarized summary summaryMem).1]
    exact s.evidence_sharedObject short _
  exact {
    once := sublist.nodup (nodup_firsts _)
    complete := complete
    ordered := sublist
    evidence := evidence
    paths := paths
    counted := by
      intro summary summaryMem
      rw [(evidence summary summaryMem).counted, (paths summary summaryMem).length_eq] }

/-- The report of a graph is complete when no entry has the identifier `0`. -/
theorem hardLinkReport_complete
    (fed : (GraphBuilder.new target).ingestAll records = .ok (.ok (), builder))
    (ran : builder.finish rt = .ok (.ok graph))
    (numbered : ∀ entry ∈ entriesOf records, 1 ≤ entry.entryId) :
    ∃ summaries, graph.hardLinkObjects = .ok summaries ∧
      CompleteReport (Reached.of_ingestAll fed).snapshot summaries := by
  have presented := (Reached.of_ingestAll fed).presented ran
  refine ⟨_, presented.hardLinkObjects_eq, ?_⟩
  apply completeReport_hardLinks presented.finished.short
  intro entry entryMem zero
  have positive := numbered entry entryMem
  rw [zero] at positive
  exact absurd positive (by decide)

theorem hardLinkReport_complete_shared : ∃ builder graph,
    ∃ fed : (GraphBuilder.new "c:").ingestAll Sample.shared = .ok (.ok (), builder),
      builder.finish Sample.runtime = .ok (.ok graph) ∧
        ∃ summaries, graph.hardLinkObjects = .ok summaries ∧
          CompleteReport (Reached.of_ingestAll fed).snapshot summaries := by
  rcases exists_fed_of_isBuilt Sample.isBuilt_shared with ⟨builder, graph, fed, ran⟩
  exact ⟨builder, graph, fed, ran, hardLinkReport_complete fed ran (by decide)⟩

end GraphBuilder

end PigTree
