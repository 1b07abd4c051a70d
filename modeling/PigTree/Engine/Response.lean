import PigTree.Engine.HardLinks
import PigTree.Engine.Knowledge
import PigTree.Engine.Lockstep
import PigTree.Protocol.Json

/-!
# The terminal response of a scan

What the engine tells its client when a scan has settled, built from the graph.
Building it never fails. The number of special entries is a literal zero, so the
response accounts for all entries only of a scan that met none.
-/

namespace PigTree

open Foundation EntryObservation

/-- What the engine knows about an operation besides its graph. -/
structure OperationInfo where
  operationId : String
  targetPath : String
  observationStartedIso : String
  observationCompletedIso : String
  durationMs : UInt64

namespace Response

def scopeCoverage (outcome : ScanRunOutcome) (gaps : List CoverageGapObservation) : ScopeCoverage :=
  if outcome = .finished then
    if gaps.isEmpty then .complete else .partly
  else .partly

def gapReport (gap : CoverageGapObservation) : CoverageGapReport where
  displayPath := gap.path
  statusCode := "ERROR_" ++ toString gap.errorCode
  nativeError := gap.errorCode
  errorMessage := gap.errorMessage

def hardLinkReport (summary : HardLinkSummary) : HardLinkObjectReport where
  volumeGuid := summary.identity.volumeGuid.toList
  fileIdHi := UInt64.ofNat (summary.identity.fileId.toNat / 2 ^ 64)
  fileIdLo := UInt64.ofNat summary.identity.fileId.toNat
  observedAliasCount := summary.observedAliasCount
  totalLinkCount := some (LinkCountKnowledgeProto.fromValueKnowledge summary.totalLinkCount)
  externalReferenceStatus := summary.externalReferenceStatus.number
  entryPaths := summary.entryPaths

/-- The response to a scan that ended with a graph. -/
def settled (info : OperationInfo) (graph : DirectoryGraph) : Checked ScanResponse := do
  let hardLinks ← graph.hardLinkObjects
  let outcome := ScanRunOutcome.fromRunOutcome graph.terminal.outcome
  return {
    operationId := info.operationId
    targetPath := info.targetPath
    runOutcome := outcome.number
    observationStartedIso := info.observationStartedIso
    observationCompletedIso := info.observationCompletedIso
    scopeCoverage := (scopeCoverage outcome graph.gaps).number
    directoryCount := graph.terminal.totalDirectories
    fileCount := graph.terminal.totalFiles
    specialCount := 0
    logicalBytes := graph.terminal.totalLogicalBytes
    allocatedBytes := graph.terminal.totalAllocatedBytes
    allocatedBytesKnown := graph.allocatedBytesKnown
    coverageGaps := graph.gaps.map gapReport
    durationMs := info.durationMs
    referencedAllocatedBytes := graph.referencedAllocatedBytes
    uniqueAllocatedBytes := graph.uniqueAllocatedBytes
    knownSubtotalAllocatedBytes := graph.knownSubtotalAllocatedBytes
    indeterminateExternalReferenceObjects := graph.indeterminateExternalReferenceObjects
    hardLinks := hardLinks.map hardLinkReport }

/-- The response to a scan that ended without a graph. -/
def unsettled (info : OperationInfo) (cancelled : Bool) : ScanResponse where
  operationId := info.operationId
  targetPath := info.targetPath
  runOutcome := (if cancelled then ScanRunOutcome.cancelled else ScanRunOutcome.failed).number
  observationStartedIso := info.observationStartedIso
  observationCompletedIso := info.observationCompletedIso
  scopeCoverage := ScopeCoverage.indeterminate.number
  directoryCount := 0
  fileCount := 0
  specialCount := 0
  logicalBytes := 0
  allocatedBytes := 0
  allocatedBytesKnown := false
  coverageGaps := []
  durationMs := info.durationMs
  referencedAllocatedBytes := 0
  uniqueAllocatedBytes := 0
  knownSubtotalAllocatedBytes := 0
  indeterminateExternalReferenceObjects := 0
  hardLinks := []

end Response

/-- The response accounts for every entry of the graph, and so do the documents
printed from it. -/
structure AccountsForEntries (graph : DirectoryGraph) (resp : ScanResponse) : Prop where
  directories : resp.directoryCount.toNat =
    graph.storage.entries.countP (fun compact => compact.kind = .directory)
  files : resp.fileCount.toNat = graph.storage.entries.countP (fun compact => compact.kind = .file)
  specials : resp.specialCount.toNat =
    graph.storage.entries.countP (fun compact => compact.kind = .special)
  printed : ("directory_entries", toString graph.totalEntries) ∈ Json.scanResultFields resp

/-- Every entry is of one of the three kinds. -/
theorem length_eq_counts (entries : List CompactEntry) : entries.length =
    entries.countP (fun compact => compact.kind = .directory) +
      entries.countP (fun compact => compact.kind = .file) +
        entries.countP (fun compact => compact.kind = .special) := by
  induction entries with
  | nil => rfl
  | cons compact entries ih =>
      cases kind : compact.kind <;> simp [kind, ih] <;> omega

namespace GraphBuilder

variable {rt : Runtime} {builder : GraphBuilder} {target : String}
  {records : List ObservationRecord} {graph : DirectoryGraph}

/-- The totals of the terminal record are the numbers of stored entries. -/
theorem Reached.countP_eq (reached : Reached target builder records)
    (ran : builder.finish rt = .ok (.ok graph)) :
    graph.storage.entries.countP (fun compact => compact.kind = .directory) =
        graph.terminal.totalDirectories.toNat ∧
      graph.storage.entries.countP (fun compact => compact.kind = .file) =
        graph.terminal.totalFiles.toNat := by
  have finished := (reached.finished ran).1
  have represents := reached.represents
  have same := represents.reconciled _ (finish_fields ran).2.2
  constructor
  · rw [finished.countP_kind, same.directories, represents.tally.dirCount_eq,
      ← toNat_count reached.snapshot.wellFormed]
    rfl
  · rw [finished.countP_kind, same.files, represents.tally.fileCount_eq,
      ← toNat_count reached.snapshot.wellFormed]
    rfl

/-- A settled scan is always answered, with the hard links of its entries. -/
theorem Reached.settled_eq (reached : Reached target builder records)
    (ran : builder.finish rt = .ok (.ok graph)) (info : OperationInfo) :
    ∃ resp, Response.settled info graph = .ok resp ∧ resp.specialCount = 0 ∧
      resp.directoryCount = graph.terminal.totalDirectories ∧
        resp.fileCount = graph.terminal.totalFiles ∧
          resp.hardLinks = reached.snapshot.hardLinks.map Response.hardLinkReport ∧
            resp.coverageGaps = (gapsOf records).map Response.gapReport := by
  have gaps : graph.gaps = gapsOf records := by
    rw [(finish_fields ran).2.1, reached.represents.gaps_eq]
  rw [Response.settled, (reached.presented ran).hardLinkObjects_eq, Checked.ok_bind,
    Checked.pure_eq_ok]
  exact ⟨_, rfl, rfl, rfl, rfl, rfl, by rw [gaps]⟩

/-- The response accounts for the entries exactly when there is no special one. -/
theorem response_accounts_iff (reached : Reached target builder records)
    (ran : builder.finish rt = .ok (.ok graph)) (info : OperationInfo) :
    (∃ resp, Response.settled info graph = .ok resp ∧ AccountsForEntries graph resp) ↔
      ∀ special, ObservationRecord.special special ∉ records := by
  have finished := (reached.finished ran).1
  have counts := reached.countP_eq ran
  have total := length_eq_counts graph.storage.entries
  have specials : graph.storage.entries.countP (fun compact => compact.kind = .special) = 0 ↔
      ∀ special, ObservationRecord.special special ∉ records := by
    rw [finished.countP_kind, List.countP_eq_zero]
    constructor
    · intro none special recordMem
      have entryMem : EntryObservation.special special ∈ entriesOf records :=
        List.mem_filterMap.mpr ⟨_, recordMem, rfl⟩
      exact none _ entryMem (decide_eq_true rfl)
    · intro none entry entryMem isSpecial
      rcases List.mem_filterMap.mp entryMem with ⟨record, recordMem, described⟩
      cases record with
      | special special => exact none special recordMem
      | directory dir => cases described; cases of_decide_eq_true isSpecial
      | file file => cases described; cases of_decide_eq_true isSpecial
      | contentStream stream => cases described
      | coverageGap gap => cases described
      | terminal term => cases described
  rw [← specials]
  rcases reached.settled_eq ran info with ⟨resp, built, special, dirs, files, _, _⟩
  constructor
  · rintro ⟨other, otherBuilt, accounts⟩
    rw [built, Except.ok.injEq] at otherBuilt
    subst otherBuilt
    rw [← accounts.specials, special]
    rfl
  · intro none
    refine ⟨resp, built, ?_⟩
    have printed : (Json.directoryEntries resp).toNat = graph.totalEntries := by
      have short := finished.short
      have length := finished.length_eq
      rw [Json.directoryEntries, special, dirs, files, DirectoryGraph.totalEntries,
        EntryStorage.len, total, none, counts.1, counts.2]
      simp only [UInt64.toNat_add]
      simp only [UInt64.toNat_zero, Nat.add_zero]
      rw [Nat.mod_mod, Nat.mod_eq_of_lt]
      omega
    constructor
    · rw [dirs, counts.1]
    · rw [files, counts.2]
    · rw [special, none]
      rfl
    · rw [Json.printed_directoryEntries, ← printed]
      rfl

def Sample.operation : OperationInfo where
  operationId := "scan-1"
  targetPath := "c:"
  observationStartedIso := "2026-08-29T10:00:00.000Z"
  observationCompletedIso := "2026-08-29T10:00:01.500Z"
  durationMs := 1500

theorem response_accounts_iff_shared : ∃ graph : DirectoryGraph,
    ((∃ resp, Response.settled Sample.operation graph = .ok resp ∧
      AccountsForEntries graph resp) ↔
        ∀ special, ObservationRecord.special special ∉ Sample.shared) := by
  rcases exists_of_isBuilt Sample.isBuilt_shared with ⟨builder, graph, reached, ran⟩
  exact ⟨graph, response_accounts_iff reached ran Sample.operation⟩

/-- The special entry of this scan is in the graph and not in the response. -/
theorem not_accountsForEntries_loneSpecial : ∃ (builder : GraphBuilder) (graph : DirectoryGraph)
    (resp : ScanResponse), Reached "c:" builder Sample.loneSpecial ∧
      builder.finish Sample.runtime = .ok (.ok graph) ∧
        Response.settled Sample.operation graph = .ok resp ∧ ¬AccountsForEntries graph resp := by
  have built : isBuilt (buildFromReader Sample.runtime "c:" Sample.loneSpecial) = true := by
    decide +kernel
  rcases exists_of_isBuilt built with ⟨builder, graph, reached, ran⟩
  rcases reached.settled_eq ran Sample.operation with ⟨resp, settled, special, _⟩
  refine ⟨builder, graph, resp, reached, ran, settled, ?_⟩
  intro accounts
  have counted := accounts.specials
  rw [special, (reached.finished ran).1.countP_kind] at counted
  revert counted
  rw [reached.snapshot_entries]
  decide

end GraphBuilder

end PigTree
