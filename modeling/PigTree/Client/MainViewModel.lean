import PigTree.Client.EngineClient
import PigTree.Foundation.Text

/-!
# The main view model

`MainViewModel` runs scans from commands of the user. A scan command waits for the session
and then for the root of the tree; other commands, ticks of the progress timer and reports
from the session happen in between. Whatever their order, at most one scan is under way,
the view model says so exactly as long as it is, a cancellation reaches that scan, and the
figures shown once the session has returned are those of the last report.
-/

namespace PigTree.Client

open Foundation Foundation.Text

inductive ScanState where
  | idle
  | starting
  | scanning
  | cancelling
  | completed
  | cancelled
  | failed
deriving DecidableEq, Repr

def ScanState.isScanning (state : ScanState) : Bool :=
  state = .starting || state = .scanning || state = .cancelling

/-! ### Progress -/

structure CoalescedProgressState where
  operationId : String
  sequenceNumber : UInt64
  directories : UInt64
  files : UInt64
  logicalBytes : UInt64
  referencedAllocatedBytes : UInt64
  coverageGaps : UInt32
  currentPhase : String
  currentDirectory : String
  elapsedMs : ℕ
deriving DecidableEq, Repr

def CoalescedProgressState.ofReport (report : ScanProgress) (elapsedMs : ℕ) :
    CoalescedProgressState where
  operationId := report.operationId
  sequenceNumber := report.sequenceNumber
  directories := report.observedDirectories
  files := report.observedFiles
  logicalBytes := report.observedLogicalBytes
  referencedAllocatedBytes := report.observedReferencedAllocatedBytes
  coverageGaps := report.coverageGaps
  currentPhase := report.currentPhase
  currentDirectory := report.currentDirectory
  elapsedMs := elapsedMs

/-- Reports arrive at any rate; a timer passes on the latest one. -/
structure ProgressCoalescer where
  latestReport : Option ScanProgress
  hasNewReport : Bool
  timerRunning : Bool

namespace ProgressCoalescer

def new : ProgressCoalescer where
  latestReport := none
  hasNewReport := false
  timerRunning := false

def start (_ : ProgressCoalescer) : ProgressCoalescer :=
  { latestReport := none, hasNewReport := false, timerRunning := true }

def stop (coalescer : ProgressCoalescer) : ProgressCoalescer :=
  { coalescer with timerRunning := false }

def report (value : ScanProgress) (coalescer : ProgressCoalescer) : ProgressCoalescer :=
  { coalescer with latestReport := some value, hasNewReport := true }

/-- A tick passes on a new report only. -/
def onTick (coalescer : ProgressCoalescer) : ProgressCoalescer × Option ScanProgress :=
  if !coalescer.hasNewReport || coalescer.latestReport.isNone then (coalescer, none)
  else ({ coalescer with hasNewReport := false }, coalescer.latestReport)

def flush (coalescer : ProgressCoalescer) : ProgressCoalescer × Option ScanProgress :=
  ({ coalescer with hasNewReport := false }, coalescer.latestReport)

end ProgressCoalescer

/-- The texts that format figures. -/
structure Display where
  count : UInt64 → String
  bytes : UInt64 → String

/-! ### The view model -/

/-- Where a scan command waits: for the session, with its cancellation token, for the root,
or for the children of the root. -/
inductive ScanExecution where
  | scanning (token : ℕ) (path : String)
  | loading (operationId : String) (finalState : ScanState) (finalStatus : String)
  | expanding (finalState : ScanState) (finalStatus : String)
deriving DecidableEq, Repr

namespace ScanExecution

def waitsForSession : ScanExecution → Bool
  | .scanning _ _ => true
  | _ => false

/-- The state that the scan ends in when the tree is loaded. -/
def final? : ScanExecution → Option ScanState
  | .scanning _ _ => none
  | .loading _ finalState _ => some finalState
  | .expanding finalState _ => some finalState

end ScanExecution

/-- What scans read and write, with the reports received so far and the result of the last
call of the session. -/
structure ScanControl where
  state : ScanState
  currentOperationId : String
  /-- Tokens are numbered in the order in which they are created. -/
  scanCts : Option ℕ
  tokens : ℕ
  cancelledTokens : List ℕ
  scanExecuting : Bool
  executions : List ScanExecution
  coalescer : ProgressCoalescer
  observed : Option CoalescedProgressState
  disposed : Bool
  reports : List ScanProgress
  returned : Option ScanResult

structure MainViewModel extends ScanControl where
  targetPath : String
  statusText : String
  hasError : Bool
  errorMessage : String
  errorDetails : String
  indeterminateExternalReferenceObjects : UInt64
  externalReferenceSummaryText : String
  cancelExecuting : Bool
  /-- The operations that `CancelAsync` was called with. -/
  cancelCalls : List String

namespace MainViewModel

variable (display : Display) (vm : MainViewModel)

def start : MainViewModel where
  state := .idle
  currentOperationId := ""
  scanCts := none
  tokens := 0
  cancelledTokens := []
  scanExecuting := false
  executions := []
  coalescer := .new
  observed := none
  disposed := false
  reports := []
  returned := none
  targetPath := ""
  statusText := "Ready"
  hasError := false
  errorMessage := ""
  errorDetails := ""
  indeterminateExternalReferenceObjects := 0
  externalReferenceSummaryText := ""
  cancelExecuting := false
  cancelCalls := []

/-- The engine could not be launched. -/
def reportEngineInitializationFailure (err : String) : MainViewModel :=
  { vm with
    hasError := true
    errorMessage := "Failed to initialize engine backend: " ++ err
    state := .failed
    statusText := "Engine initialization failed" }

/-- The view model of the window that opens, with the error that the launch ended in. -/
def onStartup : Option String → MainViewModel
  | some initError =>
      if initError.isEmpty then start else start.reportEngineInitializationFailure initError
  | none => start

def isNullOrWhiteSpace (text : String) : Bool := text.toList.all isWhitespace

def canScan : Bool := !vm.state.isScanning && !isNullOrWhiteSpace vm.targetPath

def canCancel : Bool := vm.state = .starting || vm.state = .scanning

def fail (message statusText : String) : MainViewModel :=
  { vm with state := .failed, hasError := true, errorMessage := message, statusText }

/-! ### Progress -/

def onProgressUpdate (state : CoalescedProgressState) : MainViewModel :=
  { vm with
    observed := some state
    statusText := "Scanning (" ++ display.count state.files ++ " files, " ++
      display.bytes state.logicalBytes ++ ")..." }

/-- What the coalescer passes on is shown. -/
def dispatch (passed : ProgressCoalescer × Option ScanProgress) (elapsedMs : ℕ) :
    MainViewModel :=
  let vm := { vm with coalescer := passed.1 }
  match passed.2 with
  | some report => vm.onProgressUpdate display (.ofReport report elapsedMs)
  | none => vm

def flush (elapsedMs : ℕ) : MainViewModel := vm.dispatch display vm.coalescer.flush elapsedMs

def tick (elapsedMs : ℕ) : MainViewModel := vm.dispatch display vm.coalescer.onTick elapsedMs

/-! ### The scan command -/

/-- The command up to the call of the session. A path that is no directory ends it. -/
def executeScan (directoryExists : String → Bool) (operationId : String) : MainViewModel :=
  let path := trim vm.targetPath
  if !directoryExists path then
    vm.fail ("The path '" ++ path ++ "' is invalid, does not exist, or is not accessible.")
      "Scan failed"
  else
    { vm with
      hasError := false
      errorMessage := ""
      errorDetails := ""
      indeterminateExternalReferenceObjects := 0
      externalReferenceSummaryText := ""
      currentOperationId := operationId
      scanCts := some vm.tokens
      tokens := vm.tokens + 1
      cancelledTokens := vm.cancelledTokens ++ vm.scanCts.toList
      coalescer := vm.coalescer.start
      state := .scanning
      statusText := "Scanning..."
      scanExecuting := true
      executions := vm.executions ++ [.scanning vm.tokens path]
      returned := none }

def scanCommand (directoryExists : String → Bool) (operationId : String) : MainViewModel :=
  if !vm.scanExecuting && vm.canScan then vm.executeScan directoryExists operationId else vm

/-- The `finally` block of a scan command. -/
def endScan (index : ℕ) : MainViewModel :=
  { vm with
    coalescer := vm.coalescer.stop
    scanExecuting := false
    executions := vm.executions.eraseIdx index }

def applyExternalReferenceSummary (indeterminate : UInt64) : MainViewModel :=
  { vm with
    indeterminateExternalReferenceObjects := indeterminate
    externalReferenceSummaryText :=
      if indeterminate = 0 then ""
      else "External link uncertainty: " ++ display.count indeterminate ++
        " objects with indeterminate references" }

def cancelledStatus : String := "Scan cancelled - partial results displayed"

def load (index : ℕ) (operationId : String) (finalState : ScanState) (finalStatus : String) :
    MainViewModel :=
  { vm with executions := vm.executions.set index (.loading operationId finalState finalStatus) }

/-- The session has returned. -/
def scanReturns (index token : ℕ) (result : ScanResult) (elapsedMs : ℕ) : MainViewModel :=
  let flushed := { vm with returned := some result }.flush display elapsedMs
  let shown := flushed.applyExternalReferenceSummary display
    result.indeterminateExternalReferenceObjects
  if result.outcome = .cancelled ∨ token ∈ vm.cancelledTokens then
    shown.load index result.operationId .cancelled cancelledStatus
  else if result.outcome = .finished ∧ result.isSuccess then
    shown.load index result.operationId .completed
      ("Scan completed in " ++ toString result.durationMs ++ "ms")
  else
    (shown.fail (result.errorMessage.getD "Scan failed with an unknown error.")
      "Scan failed").endScan index

/-- The session has thrown: the cancellation of the token, or another exception. -/
def scanThrows (index : ℕ) (message : Option String) (elapsedMs : ℕ) : MainViewModel :=
  let flushed := vm.flush display elapsedMs
  match message with
  | none => flushed.load index vm.currentOperationId .cancelled cancelledStatus
  | some message => (flushed.fail message "Scan failed").endScan index

def finish (index : ℕ) (finalState : ScanState) (finalStatus : String) : MainViewModel :=
  { vm with state := finalState, statusText := finalStatus }.endScan index

/-- How a fetch of the tree ends. -/
inductive Loaded where
  | root (present : Bool)
  | cancelled
  | failed (message : String)

/-- The root of the tree has arrived. -/
def rootLoaded (index : ℕ) (finalState : ScanState) (finalStatus : String) :
    Loaded → MainViewModel
  | .root true =>
      { vm with executions := vm.executions.set index (.expanding finalState finalStatus) }
  | .root false => vm.finish index finalState finalStatus
  | .cancelled => vm.finish index .cancelled "Scan cancelled"
  | .failed message =>
      (vm.fail ("Failed to load partial results: " ++ message) "Scan failed").endScan index

/-- The error reporter of the tree. -/
def reportExpansionError (message : String) : MainViewModel :=
  { vm with hasError := true, errorMessage := message, statusText := "Expansion failed" }

/-- The expansion of the root has ended. -/
def rootExpanded (index : ℕ) (finalState : ScanState) (finalStatus : String) :
    Option String → MainViewModel
  | none => vm.finish index finalState finalStatus
  | some message =>
      let reported := vm.reportExpansionError message
      { reported with errorMessage := "Failed to expand root children: " ++ message }.finish index
        finalState finalStatus

/-! ### Other commands -/

def executeCancel : MainViewModel :=
  if vm.state ≠ .starting ∧ vm.state ≠ .scanning then vm
  else
    { vm with
      state := .cancelling
      statusText := "Cancelling scan..."
      cancelledTokens := vm.cancelledTokens ++ vm.scanCts.toList
      cancelCalls := vm.cancelCalls ++ [vm.currentOperationId]
      cancelExecuting := true }

def cancelCommand : MainViewModel :=
  if !vm.cancelExecuting && vm.canCancel then vm.executeCancel else vm

def dismissError : MainViewModel :=
  let dismissed := { vm with hasError := false, errorMessage := "", errorDetails := "" }
  if vm.state = .failed then { dismissed with state := .idle, statusText := "Ready" }
  else dismissed

def retryCommand (directoryExists : String → Bool) (operationId : String) : MainViewModel :=
  let dismissed := vm.dismissError
  if dismissed.canScan then dismissed.scanCommand directoryExists operationId else dismissed

def browseCommand (picked : Option String) : MainViewModel :=
  if !vm.state.isScanning then
    match picked with
    | some path => if isNullOrWhiteSpace path then vm else { vm with targetPath := path }
    | none => vm
  else vm

def dispose : MainViewModel :=
  if vm.disposed then vm
  else
    { vm with
      disposed := true
      coalescer := vm.coalescer.stop
      scanCts := none
      cancelledTokens := vm.cancelledTokens ++ vm.scanCts.toList }

/-! ### Runs -/

inductive Action where
  | setTargetPath (path : String)
  | scan (directoryExists : String → Bool) (operationId : String)
  | retry (directoryExists : String → Bool) (operationId : String)
  | cancel
  | cancelReturns
  | browse (picked : Option String)
  | dismissError
  | expansionFails (message : String)
  | report (value : ScanProgress)
  | tick (elapsedMs : ℕ)
  | scanReturns (index : ℕ) (result : ScanResult) (elapsedMs : ℕ)
  /-- No message: the cancellation of the token. -/
  | scanThrows (index : ℕ) (message : Option String) (elapsedMs : ℕ)
  | rootLoaded (index : ℕ) (loaded : Loaded)
  | rootExpanded (index : ℕ) (err : Option String)
  | dispose

/-- The session reports while a call waits for it; the timer ticks while it runs; an
execution goes on with what it waits for. -/
def step : Action → Option MainViewModel
  | .setTargetPath path => some { vm with targetPath := path }
  | .scan directoryExists operationId => some (vm.scanCommand directoryExists operationId)
  | .retry directoryExists operationId => some (vm.retryCommand directoryExists operationId)
  | .cancel => some vm.cancelCommand
  | .cancelReturns =>
      if vm.cancelExecuting then some { vm with cancelExecuting := false } else none
  | .browse picked => some (vm.browseCommand picked)
  | .dismissError => some vm.dismissError
  | .expansionFails message => some (vm.reportExpansionError message)
  | .report value =>
      if vm.executions.any ScanExecution.waitsForSession then
        some { vm with coalescer := vm.coalescer.report value, reports := vm.reports ++ [value] }
      else none
  | .tick elapsedMs =>
      if vm.coalescer.timerRunning then some (vm.tick display elapsedMs) else none
  | .scanReturns index result elapsedMs =>
      match vm.executions[index]? with
      | some (.scanning token _) => some (vm.scanReturns display index token result elapsedMs)
      | _ => none
  | .scanThrows index message elapsedMs =>
      match vm.executions[index]? with
      | some (.scanning _ _) => some (vm.scanThrows display index message elapsedMs)
      | _ => none
  | .rootLoaded index loaded =>
      match vm.executions[index]? with
      | some (.loading _ finalState finalStatus) =>
          some (vm.rootLoaded index finalState finalStatus loaded)
      | _ => none
  | .rootExpanded index err =>
      match vm.executions[index]? with
      | some (.expanding finalState finalStatus) =>
          some (vm.rootExpanded index finalState finalStatus err)
      | _ => none
  | .dispose => some vm.dispose

/-- Actions in sequence. -/
def run (vm : MainViewModel) : List Action → Option MainViewModel
  | [] => some vm
  | action :: actions => do
      let next ← vm.step display action
      next.run actions

end MainViewModel

/-! ### What holds in every run -/

/-- The figures of a report, whenever it is shown. -/
def CoalescedProgressState.figures (state : CoalescedProgressState) : CoalescedProgressState :=
  { state with elapsedMs := 0 }

/-- A new token is no cancelled one. -/
structure FreshTokens (cancelledTokens : List ℕ) (scanCts : Option ℕ) (tokens : ℕ) : Prop where
  cancelled : ∀ token ∈ cancelledTokens, token < tokens
  current : ∀ token, scanCts = some token → token < tokens

/-- What is shown is the last report, unless the timer has still to pass it on. -/
structure Figures (coalescer : ProgressCoalescer) (reports : List ScanProgress)
    (observed : Option CoalescedProgressState) : Prop where
  latest : ∀ report, coalescer.latestReport = some report → reports.getLast? = some report
  present : coalescer.hasNewReport = true → coalescer.latestReport.isSome = true
  shown : coalescer.hasNewReport = false →
    observed.map CoalescedProgressState.figures =
      reports.getLast?.map (CoalescedProgressState.ofReport · 0)

theorem FreshTokens.cancelled_all {cancelledTokens : List ℕ} {scanCts : Option ℕ} {tokens : ℕ}
    (fresh : FreshTokens cancelledTokens scanCts tokens) :
    ∀ token ∈ cancelledTokens ++ scanCts.toList, token < tokens := by
  intro token member
  rcases List.mem_append.1 member with cancelled | current
  · exact fresh.cancelled token cancelled
  · exact fresh.current token (by simpa using current)

namespace Figures

variable {coalescer : ProgressCoalescer} {reports : List ScanProgress}
  {observed : Option CoalescedProgressState}

theorem stop (figures : Figures coalescer reports observed) :
    Figures coalescer.stop reports observed where
  latest := figures.latest
  present := figures.present
  shown := figures.shown

theorem report (coalescer : ProgressCoalescer) (reports : List ScanProgress)
    (observed : Option CoalescedProgressState) (value : ScanProgress) :
    Figures (coalescer.report value) (reports ++ [value]) observed where
  latest := by simp [ProgressCoalescer.report]
  present := by simp [ProgressCoalescer.report]
  shown := by simp [ProgressCoalescer.report]

end Figures

namespace ScanControl

section Invariant

variable (control : ScanControl)

/-- A scan is completed only if its call returned a success. -/
def Earned (state : ScanState) : Prop :=
  state = .completed → ∃ result, control.returned = some result ∧ result.isSuccess = true

structure Resting : Prop where
  executions : control.executions = []
  free : control.scanExecuting = false
  stopped : control.coalescer.timerRunning = false
  settled : control.state.isScanning = false
  passedOn : control.coalescer.hasNewReport = false
  earned : control.Earned control.state

structure Busy (execution : ScanExecution) : Prop where
  executions : control.executions = [execution]
  executing : control.scanExecuting = true
  scanning : control.state = .scanning ∨ control.state = .cancelling

/-- The token of the call is cancelled exactly when a cancellation was asked for, or the view
model has been disposed of. -/
def Reaches (token : ℕ) : Prop :=
  (control.scanCts = some token ∧
    (token ∈ control.cancelledTokens ↔ control.state = .cancelling)) ∨
  (control.disposed = true ∧ token ∈ control.cancelledTokens)

inductive Phase : Prop
  | resting (rests : control.Resting)
  | receiving (token : ℕ) (path : String) (busy : control.Busy (.scanning token path))
      (reaches : control.Reaches token)
  | finishing (execution : ScanExecution) (final : ScanState) (busy : control.Busy execution)
      (awaits : execution.final? = some final) (ends : final = .completed ∨ final = .cancelled)
      (passedOn : control.coalescer.hasNewReport = false) (earned : control.Earned final)

/-- The latest report is shown, new or not. -/
def flushed (elapsedMs : ℕ) : ScanControl :=
  { control with
    coalescer := { control.coalescer with hasNewReport := false }
    observed :=
      match control.coalescer.latestReport with
      | some report => some (.ofReport report elapsedMs)
      | none => control.observed }

end Invariant

variable {control : ScanControl} {execution : ScanExecution} {index token : ℕ} {path : String}

theorem isScanning_of_busy (busy : control.Busy execution) :
    control.state.isScanning = true := by
  rcases busy.scanning with scanning | cancelling
  · rw [scanning]; rfl
  · rw [cancelling]; rfl

theorem Busy.at (busy : control.Busy execution) {found : ScanExecution}
    (here : control.executions[index]? = some found) : index = 0 ∧ execution = found := by
  rw [busy.executions] at here
  cases index with
  | zero => exact ⟨rfl, by simpa using here⟩
  | succ index => simp at here

theorem Phase.receiving_at (phase : control.Phase)
    (here : control.executions[index]? = some (.scanning token path)) :
    index = 0 ∧ control.Busy (.scanning token path) ∧ control.Reaches token := by
  cases phase with
  | resting rests => simp [rests.executions] at here
  | receiving token' path' busy reaches =>
      rcases busy.at here with ⟨rfl, same⟩
      cases same
      exact ⟨rfl, busy, reaches⟩
  | finishing execution final busy awaits =>
      rcases busy.at here with ⟨-, rfl⟩
      simp [ScanExecution.final?] at awaits

theorem Phase.finishing_at (phase : control.Phase) {final : ScanState}
    (here : control.executions[index]? = some execution)
    (awaits : execution.final? = some final) :
    index = 0 ∧ control.Busy execution ∧ (final = .completed ∨ final = .cancelled) ∧
      control.coalescer.hasNewReport = false ∧ control.Earned final := by
  cases phase with
  | resting rests => simp [rests.executions] at here
  | receiving token path busy =>
      rcases busy.at here with ⟨-, rfl⟩
      simp [ScanExecution.final?] at awaits
  | finishing execution' final' busy awaits' ends passedOn earned =>
      rcases busy.at here with ⟨rfl, rfl⟩
      rcases Option.some.inj (awaits'.symm.trans awaits) with rfl
      exact ⟨rfl, busy, ends, passedOn, earned⟩

theorem Phase.rests (phase : control.Phase) (settled : control.state.isScanning = false) :
    control.Resting := by
  cases phase with
  | resting rests => exact rests
  | receiving token path busy => simp [isScanning_of_busy busy] at settled
  | finishing execution final busy => simp [isScanning_of_busy busy] at settled

/-- A cancelled token stays cancelled, and the current one joins the cancelled ones. -/
theorem Reaches.cancelled (reaches : control.Reaches token) :
    token ∈ control.cancelledTokens ++ control.scanCts.toList := by
  rcases reaches with ⟨current, -⟩ | ⟨-, cancelled⟩
  · simp [current]
  · simp [cancelled]

theorem figures_flushed
    (figures : Figures control.coalescer control.reports control.observed) (elapsedMs : ℕ) :
    Figures (control.flushed elapsedMs).coalescer control.reports
      (control.flushed elapsedMs).observed where
  latest := figures.latest
  present := by simp [ScanControl.flushed]
  shown := by
    intro
    simp only [ScanControl.flushed]
    cases latest : control.coalescer.latestReport with
    | some report =>
        simp only [figures.latest report latest, Option.map_some]
        rfl
    | none =>
        -- no report is new where there is none
        refine figures.shown (Bool.eq_false_iff.2 fun new => ?_)
        simpa [latest] using figures.present new

end ScanControl

namespace MainViewModel

open ScanControl

variable {display : Display} {vm next : MainViewModel} {index elapsedMs : ℕ}

/-- What holds between two actions. -/
structure Sound (vm : MainViewModel) : Prop where
  phase : vm.Phase
  fresh : FreshTokens vm.cancelledTokens vm.scanCts vm.tokens
  figures : Figures vm.coalescer vm.reports vm.observed
  explained : vm.state = .failed → vm.hasError = true

theorem start_sound : Sound start where
  phase := .resting ⟨rfl, rfl, rfl, rfl, rfl, by simp [Earned, start]⟩
  fresh := ⟨by simp [start], by simp [start]⟩
  figures := ⟨by simp [start, ProgressCoalescer.new], by simp [start, ProgressCoalescer.new],
    fun _ => rfl⟩
  explained := by simp [start]

/-- What scans neither read nor write is free, but for the error of a failed one. -/
theorem Sound.frame (sound : vm.Sound) (same : next.toScanControl = vm.toScanControl)
    (explained : next.state = .failed → next.hasError = true) : next.Sound where
  phase := same ▸ sound.phase
  fresh := same ▸ sound.fresh
  figures := same ▸ sound.figures
  explained := explained

theorem Sound.settled (rests : vm.Resting)
    (fresh : FreshTokens vm.cancelledTokens vm.scanCts vm.tokens)
    (figures : Figures vm.coalescer vm.reports vm.observed)
    {state : ScanState} (settled : state.isScanning = false) (earned : state ≠ .completed)
    {statusText errorMessage errorDetails : String} {hasError : Bool}
    (explained : state = .failed → hasError = true) :
    Sound { vm with state, statusText, hasError, errorMessage, errorDetails } where
  phase := .resting ⟨rests.executions, rests.free, rests.stopped, settled, rests.passedOn,
    fun completed => absurd completed earned⟩
  fresh := fresh
  figures := figures
  explained := explained

theorem onStartup_sound (initError : Option String) : (onStartup initError).Sound := by
  cases initError with
  | none => exact start_sound
  | some initError =>
      simp only [onStartup]
      split
      · exact start_sound
      · exact .settled (start_sound.phase.rests rfl) start_sound.fresh start_sound.figures rfl
          (by simp) fun _ => rfl

theorem Sound.dismissError (sound : vm.Sound) : vm.dismissError.Sound := by
  unfold MainViewModel.dismissError
  split
  · next failed =>
      have rests := sound.phase.rests (by rw [failed]; rfl)
      exact .settled rests sound.fresh sound.figures rfl (by simp) (by simp)
  · next notFailed => exact sound.frame rfl fun failed => absurd failed notFailed

theorem Sound.executeScan (sound : vm.Sound) (rests : vm.Resting)
    (directoryExists : String → Bool) (operationId : String) :
    (vm.executeScan directoryExists operationId).Sound := by
  simp only [MainViewModel.executeScan]
  split
  · exact .settled rests sound.fresh sound.figures rfl (by simp) fun _ => rfl
  · have old := sound.fresh.cancelled_all
    refine ⟨.receiving vm.tokens (trim vm.targetPath) ⟨?_, rfl, .inl rfl⟩ (.inl ⟨rfl, ?_⟩),
      ⟨?_, ?_⟩, ⟨?_, ?_, ?_⟩, by rintro ⟨⟩⟩
    · simp [rests.executions]
    · exact ⟨fun member => absurd (old _ member) (Nat.lt_irrefl _), by rintro ⟨⟩⟩
    · exact fun token member => Nat.lt_succ_of_lt (old token member)
    · rintro token ⟨⟩
      exact Nat.lt_succ_self _
    · simp [ProgressCoalescer.start]
    · simp [ProgressCoalescer.start]
    · exact fun _ => sound.figures.shown rests.passedOn

theorem Sound.scanCommand (sound : vm.Sound) (directoryExists : String → Bool)
    (operationId : String) : (vm.scanCommand directoryExists operationId).Sound := by
  unfold MainViewModel.scanCommand
  split
  · next able =>
      have settled : vm.state.isScanning = false := by
        simp only [canScan, Bool.and_eq_true, Bool.not_eq_true'] at able
        exact able.2.1
      exact sound.executeScan (sound.phase.rests settled) directoryExists operationId
  · exact sound

theorem Sound.retryCommand (sound : vm.Sound) (directoryExists : String → Bool)
    (operationId : String) : (vm.retryCommand directoryExists operationId).Sound := by
  simp only [MainViewModel.retryCommand]
  split
  · exact sound.dismissError.scanCommand directoryExists operationId
  · exact sound.dismissError

theorem Sound.executeCancel (sound : vm.Sound) : vm.executeCancel.Sound := by
  unfold MainViewModel.executeCancel
  split
  · exact sound
  · next able =>
      refine ⟨?_, ⟨sound.fresh.cancelled_all, sound.fresh.current⟩, sound.figures, by rintro ⟨⟩⟩
      cases sound.phase with
      | resting rests =>
          have settled := rests.settled
          simp only [not_and_or, not_not] at able
          rcases able with state | state <;> simp [state, ScanState.isScanning] at settled
      | receiving token path busy reaches =>
          have cancelled : token ∈ vm.cancelledTokens ++ vm.scanCts.toList := reaches.cancelled
          refine .receiving token path ⟨busy.executions, busy.executing, .inr rfl⟩ ?_
          rcases reaches with ⟨current, -⟩ | ⟨disposed, -⟩
          · exact .inl ⟨current, iff_of_true cancelled rfl⟩
          · exact .inr ⟨disposed, cancelled⟩
      | finishing execution final busy awaits ends passedOn earned =>
          exact .finishing execution final ⟨busy.executions, busy.executing, .inr rfl⟩ awaits ends
            passedOn earned

theorem Sound.cancelCommand (sound : vm.Sound) : vm.cancelCommand.Sound := by
  unfold MainViewModel.cancelCommand
  split
  · exact sound.executeCancel
  · exact sound

theorem Sound.browseCommand (sound : vm.Sound) (picked : Option String) :
    (vm.browseCommand picked).Sound := by
  unfold MainViewModel.browseCommand
  split
  · split
    · split
      · exact sound
      · exact sound.frame rfl sound.explained
    · exact sound
  · exact sound

theorem Sound.dispose (sound : vm.Sound) : vm.dispose.Sound := by
  unfold MainViewModel.dispose
  split
  · exact sound
  · refine ⟨?_, ⟨sound.fresh.cancelled_all, by rintro token ⟨⟩⟩, sound.figures.stop,
      sound.explained⟩
    cases sound.phase with
    | resting rests =>
        exact .resting ⟨rests.executions, rests.free, rfl, rests.settled, rests.passedOn,
          rests.earned⟩
    | receiving token path busy reaches =>
        exact .receiving token path ⟨busy.executions, busy.executing, busy.scanning⟩
          (.inr ⟨rfl, reaches.cancelled⟩)
    | finishing execution final busy awaits ends passedOn earned =>
        exact .finishing execution final ⟨busy.executions, busy.executing, busy.scanning⟩ awaits
          ends passedOn earned

theorem Sound.report (sound : vm.Sound) (value : ScanProgress)
    (receives : vm.executions.any ScanExecution.waitsForSession = true) :
    Sound { vm with
      coalescer := vm.coalescer.report value
      reports := vm.reports ++ [value] } where
  phase := by
    cases sound.phase with
    | resting rests => simp [rests.executions] at receives
    | receiving token path busy reaches =>
        exact .receiving token path ⟨busy.executions, busy.executing, busy.scanning⟩ reaches
    | finishing execution final busy awaits =>
        cases execution <;>
          simp [busy.executions, ScanExecution.final?, ScanExecution.waitsForSession]
            at receives awaits
  fresh := sound.fresh
  figures := .report _ _ _ value
  explained := sound.explained

/-! ### The progress timer -/

theorem flush_control (display : Display) (vm : MainViewModel) (elapsedMs : ℕ) :
    (vm.flush display elapsedMs).toScanControl = vm.toScanControl.flushed elapsedMs := by
  simp only [flush, dispatch, ProgressCoalescer.flush, flushed]
  cases vm.coalescer.latestReport <;> rfl

theorem flush_hasError (vm : MainViewModel) (elapsedMs : ℕ) :
    (vm.flush display elapsedMs).hasError = vm.hasError := by
  simp only [flush, dispatch, ProgressCoalescer.flush]
  cases vm.coalescer.latestReport <;> rfl

/-- A tick is a flush where a report is new. -/
theorem tick_eq (display : Display) (vm : MainViewModel) (elapsedMs : ℕ) :
    vm.tick display elapsedMs = vm ∨
      vm.tick display elapsedMs = vm.flush display elapsedMs := by
  simp only [tick, flush, ProgressCoalescer.onTick]
  split
  · exact .inl rfl
  · exact .inr rfl

theorem Sound.flush (sound : vm.Sound) : (vm.flush display elapsedMs).Sound := by
  have control := flush_control display vm elapsedMs
  refine ⟨?_, ?_, ?_, ?_⟩
  · rw [control]
    cases sound.phase with
    | resting rests =>
        exact .resting ⟨rests.executions, rests.free, rests.stopped, rests.settled, rfl,
          rests.earned⟩
    | receiving token path busy reaches =>
        exact .receiving token path ⟨busy.executions, busy.executing, busy.scanning⟩ reaches
    | finishing execution final busy awaits ends passedOn earned =>
        exact .finishing execution final ⟨busy.executions, busy.executing, busy.scanning⟩ awaits
          ends rfl earned
  · rw [control]
    exact sound.fresh
  · rw [control]
    exact figures_flushed sound.figures elapsedMs
  · intro failed
    rw [flush_hasError]
    rw [control] at failed
    exact sound.explained failed

theorem Sound.tick (sound : vm.Sound) : (vm.tick display elapsedMs).Sound := by
  rcases tick_eq display vm elapsedMs with same | flushed
  · rw [same]
    exact sound
  · rw [flushed]
    exact sound.flush

/-! ### The course of a scan -/

variable {execution : ScanExecution} {final : ScanState} {finalStatus : String}

theorem Sound.load (sound : vm.Sound) (busy : vm.Busy execution) (operationId : String)
    (ends : final = .completed ∨ final = .cancelled)
    (passedOn : vm.coalescer.hasNewReport = false) (earned : vm.Earned final) :
    (vm.load 0 operationId final finalStatus).Sound where
  phase := .finishing (.loading operationId final finalStatus) final
    ⟨by simp [MainViewModel.load, busy.executions], busy.executing, busy.scanning⟩ rfl ends
    passedOn earned
  fresh := sound.fresh
  figures := sound.figures
  explained := sound.explained

theorem endScan_sound (executions : vm.executions = [execution])
    (fresh : FreshTokens vm.cancelledTokens vm.scanCts vm.tokens)
    (figures : Figures vm.coalescer vm.reports vm.observed) (settled : vm.state.isScanning = false)
    (passedOn : vm.coalescer.hasNewReport = false) (earned : vm.Earned vm.state)
    (explained : vm.state = .failed → vm.hasError = true) : (vm.endScan 0).Sound where
  phase := .resting ⟨by simp [endScan, executions], rfl, rfl, settled, passedOn, earned⟩
  fresh := fresh
  figures := figures.stop
  explained := explained

theorem Sound.failed (sound : vm.Sound) (busy : vm.Busy execution)
    (passedOn : vm.coalescer.hasNewReport = false) (message statusText : String) :
    ((vm.fail message statusText).endScan 0).Sound :=
  endScan_sound busy.executions sound.fresh sound.figures rfl passedOn (by rintro ⟨⟩)
    fun _ => rfl

theorem Sound.finish (sound : vm.Sound) (busy : vm.Busy execution)
    (ends : final = .completed ∨ final = .cancelled)
    (passedOn : vm.coalescer.hasNewReport = false) (earned : vm.Earned final) :
    (vm.finish 0 final finalStatus).Sound :=
  endScan_sound busy.executions sound.fresh sound.figures
    (by rcases ends with rfl | rfl <;> rfl) passedOn earned
    (by rcases ends with rfl | rfl <;> rintro ⟨⟩)

theorem Sound.returned {token : ℕ} {path : String} (sound : vm.Sound)
    (busy : vm.Busy (.scanning token path)) (reaches : vm.Reaches token) (result : ScanResult) :
    Sound { vm with returned := some result } where
  phase := .receiving token path ⟨busy.executions, busy.executing, busy.scanning⟩ reaches
  fresh := sound.fresh
  figures := sound.figures
  explained := sound.explained

theorem Sound.scanReturns {token : ℕ} {path : String} (sound : vm.Sound)
    (here : vm.executions[index]? = some (.scanning token path)) (result : ScanResult) :
    (vm.scanReturns display index token result elapsedMs).Sound := by
  rcases sound.phase.receiving_at here with ⟨rfl, busy, reaches⟩
  have flushed : ({ vm with returned := some result }.flush display elapsedMs).Sound :=
    (sound.returned busy reaches result).flush
  have control := flush_control display { vm with returned := some result } elapsedMs
  simp only [MainViewModel.scanReturns]
  generalize { vm with returned := some result }.flush display elapsedMs = after at flushed control
  have still : after.Busy (.scanning token path) := by
    rw [control]
    exact ⟨busy.executions, busy.executing, busy.scanning⟩
  have passedOn : after.coalescer.hasNewReport = false := by
    rw [control]
    rfl
  have shown : (after.applyExternalReferenceSummary display
      result.indeterminateExternalReferenceObjects).Sound := flushed.frame rfl flushed.explained
  split
  · exact shown.load still _ (.inr rfl) passedOn (by rintro ⟨⟩)
  · split
    · next success =>
        refine shown.load still _ (.inl rfl) passedOn fun _ => ⟨result, ?_, success.2⟩
        change after.returned = some result
        rw [control]
        rfl
    · exact shown.failed still passedOn _ _

theorem Sound.scanThrows {token : ℕ} {path : String} (sound : vm.Sound)
    (here : vm.executions[index]? = some (.scanning token path)) (message : Option String) :
    (vm.scanThrows display index message elapsedMs).Sound := by
  rcases sound.phase.receiving_at here with ⟨rfl, busy, reaches⟩
  have flushed : (vm.flush display elapsedMs).Sound := sound.flush
  have control := flush_control display vm elapsedMs
  have still : (vm.flush display elapsedMs).Busy (.scanning token path) := by
    rw [control]
    exact ⟨busy.executions, busy.executing, busy.scanning⟩
  have passedOn : (vm.flush display elapsedMs).coalescer.hasNewReport = false := by
    rw [control]
    rfl
  cases message with
  | none => exact flushed.load still _ (.inr rfl) passedOn (by rintro ⟨⟩)
  | some message => exact flushed.failed still passedOn _ _

theorem Sound.rootLoaded {operationId : String} (sound : vm.Sound)
    (here : vm.executions[index]? = some (.loading operationId final finalStatus))
    (loaded : Loaded) : (vm.rootLoaded index final finalStatus loaded).Sound := by
  rcases sound.phase.finishing_at here rfl with ⟨rfl, busy, ends, passedOn, earned⟩
  cases loaded with
  | root present =>
      cases present with
      | true =>
          exact ⟨.finishing (.expanding final finalStatus) final
            ⟨by simp [MainViewModel.rootLoaded, busy.executions], busy.executing, busy.scanning⟩ rfl
            ends passedOn earned, sound.fresh, sound.figures, sound.explained⟩
      | false => exact sound.finish busy ends passedOn earned
  | cancelled => exact sound.finish busy (.inr rfl) passedOn (by rintro ⟨⟩)
  | failed message => exact sound.failed busy passedOn _ _

theorem Sound.rootExpanded (sound : vm.Sound)
    (here : vm.executions[index]? = some (.expanding final finalStatus)) (err : Option String) :
    (vm.rootExpanded index final finalStatus err).Sound := by
  rcases sound.phase.finishing_at here rfl with ⟨rfl, busy, ends, passedOn, earned⟩
  cases err with
  | none => exact sound.finish busy ends passedOn earned
  | some message =>
      have reported : Sound { vm.reportExpansionError message with
          errorMessage := "Failed to expand root children: " ++ message } :=
        sound.frame rfl fun _ => rfl
      exact reported.finish busy ends passedOn earned

theorem Sound.step (sound : vm.Sound) {action : Action}
    (stepped : vm.step display action = some next) : next.Sound := by
  cases action with
  | setTargetPath path =>
      cases stepped
      exact sound.frame rfl sound.explained
  | scan directoryExists operationId =>
      cases stepped
      exact sound.scanCommand directoryExists operationId
  | retry directoryExists operationId =>
      cases stepped
      exact sound.retryCommand directoryExists operationId
  | cancel =>
      cases stepped
      exact sound.cancelCommand
  | cancelReturns =>
      simp only [MainViewModel.step, Option.ite_none_right_eq_some, Option.some.injEq] at stepped
      rcases stepped with ⟨-, rfl⟩
      exact sound.frame rfl sound.explained
  | browse picked =>
      cases stepped
      exact sound.browseCommand picked
  | dismissError =>
      cases stepped
      exact sound.dismissError
  | expansionFails message =>
      cases stepped
      exact sound.frame rfl fun _ => rfl
  | report value =>
      simp only [MainViewModel.step, Option.ite_none_right_eq_some, Option.some.injEq] at stepped
      rcases stepped with ⟨receives, rfl⟩
      exact sound.report value receives
  | tick elapsedMs =>
      simp only [MainViewModel.step, Option.ite_none_right_eq_some, Option.some.injEq] at stepped
      rcases stepped with ⟨-, rfl⟩
      exact sound.tick
  | scanReturns index result elapsedMs =>
      simp only [MainViewModel.step] at stepped
      split at stepped
      · next token path here =>
          cases stepped
          exact sound.scanReturns here result
      · cases stepped
  | scanThrows index message elapsedMs =>
      simp only [MainViewModel.step] at stepped
      split at stepped
      · next token path here =>
          cases stepped
          exact sound.scanThrows here message
      · cases stepped
  | rootLoaded index loaded =>
      simp only [MainViewModel.step] at stepped
      split at stepped
      · next operationId final finalStatus here =>
          cases stepped
          exact sound.rootLoaded here loaded
      · cases stepped
  | rootExpanded index err =>
      simp only [MainViewModel.step] at stepped
      split at stepped
      · next final finalStatus here =>
          cases stepped
          exact sound.rootExpanded here err
      · cases stepped
  | dispose =>
      cases stepped
      exact sound.dispose

theorem Sound.run {actions : List Action} (sound : vm.Sound)
    (ran : vm.run display actions = some next) : next.Sound := by
  induction actions generalizing vm with
  | nil =>
      cases ran
      exact sound
  | cons action actions ih =>
      rcases Option.bind_eq_some_iff.1 ran with ⟨after, stepped, rest⟩
      exact ih (sound.step stepped) rest

/-! ### Main results -/

variable {initError : Option String} {actions : List Action}

/-- At most one scan is under way, the state is a scanning one exactly while one is, and the
timer runs for no other. A failure comes with an error, and a scan is shown as completed only
when its call returned a success. -/
structure OneScan (vm : MainViewModel) : Prop where
  single : vm.executions.length ≤ 1
  scanning : vm.state.isScanning = true ↔ vm.executions ≠ []
  timer : vm.coalescer.timerRunning = true → vm.executions ≠ []
  failed : vm.state = .failed → vm.hasError = true
  completed : vm.state = .completed →
    ∃ result, vm.returned = some result ∧ result.isSuccess = true

theorem Sound.oneScan_of_busy (sound : vm.Sound) (busy : vm.Busy execution) : vm.OneScan where
  single := by simp [busy.executions]
  scanning := iff_of_true (isScanning_of_busy busy) (by simp [busy.executions])
  timer _ := by simp [busy.executions]
  failed := sound.explained
  completed completed := by
    have scanning := isScanning_of_busy busy
    rw [completed] at scanning
    cases scanning

theorem Sound.oneScan (sound : vm.Sound) : vm.OneScan := by
  cases sound.phase with
  | resting rests =>
      exact ⟨by simp [rests.executions], by simp [rests.executions, rests.settled],
        by simp [rests.stopped], sound.explained, rests.earned⟩
  | receiving token path busy => exact sound.oneScan_of_busy busy
  | finishing execution final busy => exact sound.oneScan_of_busy busy

/-- Every run, whatever the order of commands, reports and replies, is one scan at a time. -/
theorem run_oneScan (ran : (onStartup initError).run display actions = some vm) : vm.OneScan :=
  ((onStartup_sound initError).run ran).oneScan

def Sample.texts : Display where
  count figure := toString figure
  bytes figure := toString figure ++ " B"

def Sample.progress : ScanProgress where
  operationId := "scan-1"
  sequenceNumber := 1
  timestampIso := ""
  observedDirectories := 1
  observedFiles := 2
  observedLogicalBytes := 30
  observedReferencedAllocatedBytes := 40
  coverageGaps := 0
  currentPhase := "Scanning"
  currentDirectory := "C:"

/-- A scan of a drive that reports once and is cancelled before the timer ticks. -/
def Sample.clicks : List Action :=
  [.setTargetPath "C:", .scan (fun _ => true) "1", .report Sample.progress, .cancel]

theorem Sample.clicks_run : ((onStartup none).run Sample.texts Sample.clicks).isSome = true := by
  decide +kernel

def Sample.clicked : MainViewModel :=
  ((onStartup none).run Sample.texts Sample.clicks).get Sample.clicks_run

theorem Sample.clicked_eq : (onStartup none).run Sample.texts Sample.clicks = some Sample.clicked :=
  (Option.some_get _).symm

/-- The session has returned, and the tree is loading. -/
def Sample.returned : MainViewModel :=
  Sample.clicked.scanReturns Sample.texts 0 0 (.bare "scan-1" "C:" .finished) 50

theorem Sample.returned_eq : (onStartup none).run Sample.texts
    (Sample.clicks ++ [.scanReturns 0 (.bare "scan-1" "C:" .finished) 50]) =
      some Sample.returned := by
  rfl

theorem run_oneScan_clicked : Sample.clicked.OneScan := run_oneScan Sample.clicked_eq

/-- Once the session has returned, the figures shown are those of the last report, whatever
ticks of the timer came before. -/
theorem run_figures (ran : (onStartup initError).run display actions = some vm)
    (returned : ∀ execution ∈ vm.executions, execution.waitsForSession = false) :
    vm.observed.map CoalescedProgressState.figures =
      vm.reports.getLast?.map (CoalescedProgressState.ofReport · 0) := by
  have sound := (onStartup_sound initError).run ran
  refine sound.figures.shown ?_
  cases sound.phase with
  | resting rests => exact rests.passedOn
  | receiving token path busy =>
      have waits := returned (.scanning token path) (by simp [busy.executions])
      cases waits
  | finishing execution final busy awaits ends passedOn => exact passedOn

theorem run_figures_returned :
    Sample.returned.observed.map CoalescedProgressState.figures =
      Sample.returned.reports.getLast?.map (CoalescedProgressState.ofReport · 0) :=
  run_figures Sample.returned_eq (by decide +kernel)

/-- A cancellation that comes before the session returns wins: whatever the session returns,
the partial results are loaded and the scan ends as a cancelled one. -/
theorem run_cancelled (ran : (onStartup initError).run display actions = some vm)
    (cancelling : vm.state = .cancelling) {token : ℕ} {path : String}
    (waits : vm.executions = [.scanning token path]) (result : ScanResult) (elapsedMs : ℕ) :
    token ∈ vm.cancelledTokens ∧ ∃ next,
      vm.step display (.scanReturns 0 result elapsedMs) = some next ∧
        next.executions = [.loading result.operationId .cancelled cancelledStatus] := by
  have sound := (onStartup_sound initError).run ran
  have here : vm.executions[0]? = some (.scanning token path) := by simp [waits]
  rcases sound.phase.receiving_at here with ⟨-, busy, reaches⟩
  have cancelled : token ∈ vm.cancelledTokens := by
    rcases reaches with ⟨-, reached⟩ | ⟨-, disposed⟩
    · exact reached.2 cancelling
    · exact disposed
  refine ⟨cancelled, vm.scanReturns display 0 token result elapsedMs, ?_, ?_⟩
  · simp only [MainViewModel.step, here]
  · have control := flush_control display { vm with returned := some result } elapsedMs
    simp only [MainViewModel.scanReturns, if_pos (Or.inr cancelled : _ ∨ _)]
    change ({ vm with returned := some result }.flush display elapsedMs).executions.set 0 _ = _
    rw [control]
    simp [ScanControl.flushed, waits]

theorem run_cancelled_clicked : 0 ∈ Sample.clicked.cancelledTokens ∧ ∃ next,
    Sample.clicked.step Sample.texts (.scanReturns 0 (.bare "scan-1" "C:" .finished) 50) =
      some next ∧ next.executions = [.loading "scan-1" .cancelled cancelledStatus] :=
  run_cancelled Sample.clicked_eq (by decide +kernel)
    (show Sample.clicked.executions = [.scanning 0 "C:"] by decide +kernel) _ 50

end MainViewModel

end PigTree.Client
