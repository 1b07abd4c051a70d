import PigTree.Engine.Answer
import PigTree.Engine.Paths

/-!
# Progress of a scan

The runner reads the worker's stream and reports progress after the first record, after
every coverage gap, and when 50 milliseconds have passed since the last report.
-/

namespace PigTree

open Foundation

/-- A record that was read, whether the last report was long enough ago, and the time. -/
structure Reading where
  record : ObservationRecord
  due : Bool
  timestampIso : String

/-- The build between two records, with the messages it has handed out. -/
structure ProgressBuild where
  builder : GraphBuilder
  seq : UInt64
  isFirst : Bool
  emitted : List ScanProgress

namespace ProgressBuild

def start (target : String) : ProgressBuild where
  builder := .new target
  seq := 0
  isFirst := true
  emitted := []

def isGap : ObservationRecord → Bool
  | .coverageGap _ => true
  | _ => false

/-- The message about what the builder has seen so far. -/
def message (operationId timestampIso : String) (seq : UInt64) (builder : GraphBuilder) :
    Checked ScanProgress := do
  let currentDirectory ← builder.currentDirectoryPath
  return {
    operationId := operationId
    sequenceNumber := seq
    timestampIso := timestampIso
    observedDirectories := builder.dirCount
    observedFiles := builder.fileCount
    observedLogicalBytes := builder.logicalBytes
    observedReferencedAllocatedBytes := builder.allocatedBytes
    coverageGaps := UInt32.ofNat builder.gaps.length
    currentPhase := "traversing"
    currentDirectory := currentDirectory }

/-- Ingest the records until one is rejected or the build aborts. -/
def readAll (operationId : String) :
    ProgressBuild → List Reading → ProgressBuild × Checked (Except GraphBuildError Unit)
  | build, [] => (build, .ok (.ok ()))
  | build, reading :: readings =>
      match build.builder.ingestRecord reading.record with
      | .error fault => (build, .error fault)
      | .ok (.error err, builder) => ({ build with builder }, .ok (.error err))
      | .ok (.ok (), builder) =>
          if build.isFirst = true ∨ isGap reading.record = true ∨ reading.due = true then
            match message operationId reading.timestampIso (build.seq + 1) builder with
            | .error fault => ({ build with builder }, .error fault)
            | .ok progress =>
                readAll operationId {
                  builder
                  seq := build.seq + 1
                  isFirst := false
                  emitted := build.emitted ++ [progress] } readings
          else readAll operationId { build with builder } readings

end ProgressBuild

namespace GraphBuilder

/-- The messages handed out, and the graph if the stream ends after its readings. -/
def buildFromReaderWithProgress (rt : Runtime) (operationId target : String)
    (readings : List Reading) (undecodable : Bool) :
    List ScanProgress × Checked (Except StreamBuildError DirectoryGraph) :=
  match ProgressBuild.readAll operationId (.start target) readings with
  | (build, .error fault) => (build.emitted, .error fault)
  | (build, .ok (.error err)) => (build.emitted, .ok (.error (.build err)))
  | (build, .ok (.ok ())) =>
      (build.emitted,
        if undecodable then .ok (.error .decode)
        else (build.builder.finish rt).map (fun built => built.mapError .build))

end GraphBuilder

namespace ProgressBuild

variable {operationId : String} {build final : ProgressBuild} {readings : List Reading}
  {answer : Checked (Except GraphBuildError Unit)}

/-! ### Numbers of the messages -/

/-- The messages are numbered from one. -/
structure Numbered (build : ProgressBuild) : Prop where
  numbers : build.emitted.map ScanProgress.sequenceNumber =
    (List.range' 1 build.emitted.length).map UInt64.ofNat
  seq : build.seq = UInt64.ofNat build.emitted.length

theorem numbered_start (target : String) : Numbered (start target) := ⟨rfl, rfl⟩

theorem Numbered.congr (numbered : Numbered build) (emitted : final.emitted = build.emitted)
    (seq : final.seq = build.seq) : Numbered final := by
  constructor
  · rw [emitted]
    exact numbered.numbers
  · rw [emitted, seq]
    exact numbered.seq

theorem message_sequenceNumber {timestampIso : String} {seq : UInt64} {builder : GraphBuilder}
    {progress : ScanProgress} (made : message operationId timestampIso seq builder = .ok progress) :
    progress.sequenceNumber = seq := by
  rcases Checked.bind_eq_ok.mp made with ⟨currentDirectory, _, assembled⟩
  cases assembled
  rfl

/-- One more message takes the next number. -/
theorem Numbered.emit (numbered : Numbered build) {progress : ScanProgress}
    (next : progress.sequenceNumber = build.seq + 1)
    (emitted : final.emitted = build.emitted ++ [progress]) (seq : final.seq = build.seq + 1) :
    Numbered final := by
  have successor : build.seq + 1 = UInt64.ofNat (1 + build.emitted.length) := by
    rw [numbered.seq, Nat.add_comm, UInt64.ofNat_add]
    rfl
  constructor
  · rw [emitted, List.map_append, numbered.numbers, List.length_append, List.length_singleton,
      List.range'_concat, List.map_append]
    simp [next, successor]
  · rw [emitted, seq, successor, List.length_append, List.length_singleton, Nat.add_comm]

theorem Numbered.readAll (numbered : Numbered build) :
    Numbered (ProgressBuild.readAll operationId build readings).1 := by
  induction readings generalizing build with
  | nil => exact numbered
  | cons reading readings ih =>
      rw [ProgressBuild.readAll]
      split
      · exact numbered
      · exact numbered.congr rfl rfl
      · split
        · split
          · exact numbered.congr rfl rfl
          · next made =>
              exact ih (numbered.emit (message_sequenceNumber made) rfl rfl)
        · exact ih (numbered.congr rfl rfl)

/-- The messages carry the identifier of the operation. -/
theorem readAll_operationId (named : ∀ p ∈ build.emitted, p.operationId = operationId) :
    ∀ p ∈ (ProgressBuild.readAll operationId build readings).1.emitted,
      p.operationId = operationId := by
  induction readings generalizing build with
  | nil => exact named
  | cons reading readings ih =>
      rw [ProgressBuild.readAll]
      split
      · exact named
      · exact named
      · split
        · split
          · exact named
          · next made =>
              apply ih
              rw [List.forall_mem_append, List.forall_mem_singleton]
              rcases Checked.bind_eq_ok.mp made with ⟨currentDirectory, _, assembled⟩
              cases assembled
              exact ⟨named, rfl⟩
        · exact ih named

theorem length_readAll (operationId : String) (build : ProgressBuild) (readings : List Reading) :
    (readAll operationId build readings).1.emitted.length ≤
      build.emitted.length + readings.length := by
  induction readings generalizing build with
  | nil => exact Nat.le_refl _
  | cons reading readings ih =>
      rw [readAll, List.length_cons]
      split
      · exact Nat.le_add_right _ _
      · exact Nat.le_add_right _ _
      · split
        · split
          · exact Nat.le_add_right _ _
          · apply Nat.le_trans (ih _)
            simp
            omega
        · apply Nat.le_trans (ih _)
          simp

theorem Numbered.increasing (numbered : Numbered build) (few : build.emitted.length < 2 ^ 64) :
    build.emitted.Pairwise (fun p q => p.sequenceNumber < q.sequenceNumber) := by
  rw [← List.pairwise_map (f := ScanProgress.sequenceNumber) (R := (· < ·)), numbered.numbers,
    List.pairwise_map]
  have sorted : (List.range' 1 build.emitted.length).Pairwise (· < ·) := List.pairwise_lt_range'
  refine sorted.imp_of_mem ?_
  intro first second _ secondMem less
  have bound := List.mem_range'_1.mp secondMem
  have size : UInt64.size = 2 ^ 64 := rfl
  apply UInt64.lt_iff_toNat_lt.mpr
  rw [UInt64.toNat_ofNat_of_lt' (by omega), UInt64.toNat_ofNat_of_lt' (by omega)]
  exact less

/-! ### The graph -/

theorem readAll_ingestAll (ran : readAll operationId build readings = (final, .ok (.ok ()))) :
    build.builder.ingestAll (readings.map Reading.record) = .ok (.ok (), final.builder) := by
  induction readings generalizing build with
  | nil =>
      cases ran
      rfl
  | cons reading readings ih =>
      rw [readAll] at ran
      rw [List.map_cons, GraphBuilder.ingestAll]
      split at ran
      · cases ran
      · cases ran
      · next ingested =>
          rw [ingested, Checked.ok_bind]
          dsimp only
          split at ran
          · split at ran
            · cases ran
            · exact ih ran
          · exact ih ran

/-- Progress never stops a stream that the builder accepts. -/
theorem readAll_of_ingestAll {target : String} {records : List ObservationRecord}
    {builder : GraphBuilder} (represents : GraphBuilder.Represents target build.builder records)
    (ran : build.builder.ingestAll (readings.map Reading.record) = .ok (.ok (), builder)) :
    ∃ final, readAll operationId build readings = (final, .ok (.ok ())) ∧
      final.builder = builder := by
  induction readings generalizing build records with
  | nil =>
      cases ran
      exact ⟨build, rfl, rfl⟩
  | cons reading readings ih =>
      have ingests := represents.ingestRecord reading.record
      rw [List.map_cons, GraphBuilder.ingestAll] at ran
      rw [readAll]
      generalize build.builder.ingestRecord reading.record = answer at ingests ran
      cases ingests with
      | rejected err next represents => cases ran
      | accepted next represents =>
          rw [Checked.ok_bind] at ran
          dsimp only at ran ⊢
          split
          · rcases represents.core.currentDirectoryPath_ok with ⟨path, shown⟩
            rw [message, shown, Checked.ok_bind]
            exact ih represents ran
          · exact ih represents ran

end ProgressBuild

namespace GraphBuilder

variable {rt : Runtime} {operationId target : String} {readings : List Reading}
  {undecodable : Bool} {graph : DirectoryGraph}

/-- A graph built with progress is the graph of its records. -/
theorem buildFromReaderWithProgress_graph
    (built : (buildFromReaderWithProgress rt operationId target readings undecodable).2 =
      .ok (.ok graph)) :
    buildFromReader rt target (readings.map Reading.record) = .ok (.ok graph) := by
  unfold buildFromReaderWithProgress at built
  split at built
  · cases built
  · cases built
  · next final ran =>
      have ingested : (GraphBuilder.new target).ingestAll (readings.map Reading.record) =
          .ok (.ok (), final.builder) := ProgressBuild.readAll_ingestAll ran
      rw [buildFromReader, ingested, Checked.ok_bind]
      dsimp only at built ⊢
      split at built
      · cases built
      · cases finished : final.builder.finish rt with
        | error fault =>
            rw [finished] at built
            cases built
        | ok answer =>
            rw [finished] at built
            cases answer with
            | error err => cases built
            | ok graph =>
                cases built
                rfl

/-- The graph of its records is built with progress. -/
theorem buildFromReaderWithProgress_of_graph (operationId : String)
    (built : buildFromReader rt target (readings.map Reading.record) = .ok (.ok graph)) :
    (buildFromReaderWithProgress rt operationId target readings false).2 = .ok (.ok graph) := by
  rcases Checked.bind_eq_ok.mp built with ⟨⟨answer, builder⟩, fed, finished⟩
  cases answer with
  | error err => cases finished
  | ok accepted =>
      have represents : Represents target (ProgressBuild.start target).builder [] := .new target
      rcases ProgressBuild.readAll_of_ingestAll represents fed with ⟨final, ran, rfl⟩
      unfold buildFromReaderWithProgress
      rw [ran]
      dsimp only at finished ⊢
      rw [if_neg Bool.false_ne_true, finished]
      rfl

theorem emitted_increasing (rt : Runtime) (operationId target : String) {readings : List Reading}
    (undecodable : Bool) (few : readings.length < 2 ^ 64) :
    (buildFromReaderWithProgress rt operationId target readings undecodable).1.Pairwise
      (fun p q => p.sequenceNumber < q.sequenceNumber) := by
  have numbered : (ProgressBuild.readAll operationId (.start target) readings).1.Numbered :=
    (ProgressBuild.numbered_start target).readAll
  have bound := ProgressBuild.length_readAll operationId (.start target) readings
  have emitted : (buildFromReaderWithProgress rt operationId target readings undecodable).1 =
      (ProgressBuild.readAll operationId (.start target) readings).1.emitted := by
    unfold buildFromReaderWithProgress
    split <;> simp_all
  rw [emitted]
  apply numbered.increasing
  exact Nat.lt_of_le_of_lt bound (by simpa [ProgressBuild.start] using few)

/-- The messages handed out name the operation and are numbered from one. -/
theorem emitted_named (rt : Runtime) (operationId target : String) {readings : List Reading}
    (undecodable : Bool) (short : readings.length < 2 ^ 64) :
    ∀ p ∈ (buildFromReaderWithProgress rt operationId target readings undecodable).1,
      p.operationId = operationId ∧ 0 < p.sequenceNumber := by
  have numbered : (ProgressBuild.readAll operationId (.start target) readings).1.Numbered :=
    (ProgressBuild.numbered_start target).readAll
  have bound : (ProgressBuild.readAll operationId (.start target) readings).1.emitted.length ≤
      readings.length := by
    simpa [ProgressBuild.start] using ProgressBuild.length_readAll operationId (.start target) readings
  have named : ∀ p ∈ (ProgressBuild.readAll operationId (.start target) readings).1.emitted,
      p.operationId = operationId := ProgressBuild.readAll_operationId nofun
  have emitted : (buildFromReaderWithProgress rt operationId target readings undecodable).1 =
      (ProgressBuild.readAll operationId (.start target) readings).1.emitted := by
    unfold buildFromReaderWithProgress
    split
    all_goals next built => rw [built]
  rw [emitted]
  intro p mem
  refine ⟨named p mem, ?_⟩
  have number : p.sequenceNumber ∈ (List.range' 1
      (ProgressBuild.readAll operationId (.start target) readings).1.emitted.length).map
        UInt64.ofNat := numbered.numbers ▸ List.mem_map_of_mem mem
  rcases List.mem_map.mp number with ⟨number, inside, numberEq⟩
  rw [List.mem_range'_1] at inside
  rw [← numberEq, UInt64.lt_iff_toNat_lt, UInt64.toNat_ofNat_of_lt' (by
    change number < 2 ^ 64
    omega)]
  exact inside.1

end GraphBuilder

end PigTree
