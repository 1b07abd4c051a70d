import PigTree.Engine.ScanLoop
import PigTree.Foundation.Decimal
import PigTree.Session.CommandLine
import PigTree.Session.TargetValidation
import PigTree.Worker.Agreement
import PigTree.Worker.Settles

/-!
# Launching the worker

The runner writes one command line, and the worker that it launches finds its target and
its handles there. Whatever the target is called, the worker scans that target and writes
to that pipe, and a scan that settles exits with the code that the runner expects.
-/

namespace PigTree

open Foundation

namespace Worker

structure WorkerArgs where
  target : String
  pipeHandle : UInt64
  cancelEventHandle : UInt64
deriving DecidableEq, Repr

inductive ArgsError where
  | missingArgument (arg : String)
  | invalidHandle (arg val : String)
  | unexpectedArgument (arg : String)
deriving DecidableEq, Repr

/-- What has been found so far. -/
structure ParsedArgs where
  target : Option String
  pipeHandle : Option UInt64
  cancelEventHandle : Option UInt64

def ParsedArgs.empty : ParsedArgs where
  target := none
  pipeHandle := none
  cancelEventHandle := none

def parseHandle (arg val : String) : Except ArgsError UInt64 :=
  match Decimal.parse? (2 ^ 64) val.toList with
  | some handle => .ok (UInt64.ofNat handle)
  | none => .error (.invalidHandle arg val)

/-- The loop over the arguments. A flag takes the next argument, whatever it is; an argument
that is no flag is ignored. -/
def parseFlags (parsed : ParsedArgs) : List String → Except ArgsError ParsedArgs
  | [] => .ok parsed
  | [arg] =>
      if arg = "--target" ∨ arg = "--pipe-handle" ∨ arg = "--cancel-event-handle" then
        .error (.missingArgument arg)
      else if "--".toList.isPrefixOf arg.toList then .error (.unexpectedArgument arg)
      else .ok parsed
  | arg :: val :: rest =>
      if arg = "--target" then parseFlags { parsed with target := some val } rest
      else if arg = "--pipe-handle" then do
        let handle ← parseHandle arg val
        parseFlags { parsed with pipeHandle := some handle } rest
      else if arg = "--cancel-event-handle" then do
        let handle ← parseHandle arg val
        parseFlags { parsed with cancelEventHandle := some handle } rest
      else if "--".toList.isPrefixOf arg.toList then .error (.unexpectedArgument arg)
      else parseFlags parsed (val :: rest)

def required {α : Type} (arg : String) : Option α → Except ArgsError α
  | some value => .ok value
  | none => .error (.missingArgument arg)

def parseWorkerArgs (args : List String) : Except ArgsError WorkerArgs := do
  let parsed ← parseFlags .empty args
  let target ← required "--target" parsed.target
  let pipeHandle ← required "--pipe-handle" parsed.pipeHandle
  let cancelEventHandle ← required "--cancel-event-handle" parsed.cancelEventHandle
  return { target, pipeHandle, cancelEventHandle }

/-! ### The process -/

/-- The command line that the runner writes. -/
def workerCommandLine (workerExe : String) (args : WorkerArgs) : String :=
  CommandLine.buildWindowsCommandLine [workerExe, "--target", args.target, "--pipe-handle",
    toString args.pipeHandle, "--cancel-event-handle", toString args.cancelEventHandle]

/-- The arguments of a process, without its own name. The command line ends at a null. -/
def processArgs (commandLine : String) : List String :=
  ((Argv.splitLine (commandLine.toList.takeWhile (· ≠ '\x00'))).map String.ofList).drop 1

/-- What the worker meets: the system its target is validated against, and what a scan of the
target meets. -/
structure Process where
  system : TargetValidation.System
  formatWin32Error : UInt32 → String
  durationMs : UInt64
  root : RootAnswers
  answers : List DirectoryAnswers

/-- The scan of a target, whose second validation answers as the first. The pipe takes all
bytes. -/
def Process.scan (process : Process) (validated : PigTree.ValidatedScanTarget) :
    Option (ScanEnd ObservationWriteError) :=
  scanDirectory (writerEnv process.formatWin32Error process.durationMs)
    { displayPath := validated.displayPath, extendedPath := validated.extendedPath }
    process.root process.answers

def exitCode {ε : Type} : ScanEnd ε → UInt32
  | .returned term _ =>
      match term.outcome with
      | .finished => 0
      | .cancelled => 3
      | .failed => 1
  | .failed _ _ => 1

/-- The exit code of the worker, if it comes to an end. -/
def Process.main (process : Process) (args : List String) : Option UInt32 :=
  match parseWorkerArgs args with
  | .error _ => some 2
  | .ok parsed =>
      match (TargetValidation.validateScanTarget process.system parsed.target).2 with
      | .error _ => some 2
      | .ok validated =>
          match (ObservationWriter.new parsed.target []).1 with
          | .error _ => some 1
          | .ok () => (process.scan validated).map exitCode

/-! ### Reading the command line back -/

theorem parseHandle_toString (arg : String) (handle : UInt64) :
    parseHandle arg (toString handle) = .ok handle := by
  have digits : (toString handle).toList = Nat.toDigits 10 handle.toNat := Nat.toList_repr
  rw [parseHandle, digits, Decimal.parse?_toDigits handle.toNat_lt]
  simp

theorem parseWorkerArgs_flags (args : WorkerArgs) :
    parseWorkerArgs ["--target", args.target, "--pipe-handle", toString args.pipeHandle,
      "--cancel-event-handle", toString args.cancelEventHandle] = .ok args := by
  have flags : parseFlags .empty ["--target", args.target, "--pipe-handle",
      toString args.pipeHandle, "--cancel-event-handle", toString args.cancelEventHandle] =
        .ok { target := some args.target
              pipeHandle := some args.pipeHandle
              cancelEventHandle := some args.cancelEventHandle } := by
    simp [parseFlags, parseHandle_toString, Except.bind, bind]
  rw [parseWorkerArgs, flags]
  rfl

theorem mem_escape {c : Char} {chars : List Char} {backslashes : ℕ}
    (mem : c ∈ CommandLine.escape backslashes chars) : c ∈ chars ∨ c = '\\' ∨ c = '"' := by
  induction chars generalizing backslashes with
  | nil =>
      exact .inr (.inl (List.eq_of_mem_replicate mem))
  | cons first chars ih =>
      rw [CommandLine.escape] at mem
      split_ifs at mem with slash quote
      · rcases ih mem with later | special
        · exact .inl (List.mem_cons_of_mem _ later)
        · exact .inr special
      · rcases List.mem_append.mp mem with slashes | rest
        · exact .inr (.inl (List.eq_of_mem_replicate slashes))
        · rcases List.mem_cons.mp rest with same | later
          · exact .inr (.inr same)
          · rcases ih later with inside | special
            · exact .inl (List.mem_cons_of_mem _ inside)
            · exact .inr special
      · rcases List.mem_append.mp mem with slashes | rest
        · exact .inr (.inl (List.eq_of_mem_replicate slashes))
        · rcases List.mem_cons.mp rest with same | later
          · exact .inl (List.mem_cons.mpr (.inl same))
          · rcases ih later with inside | special
            · exact .inl (List.mem_cons_of_mem _ inside)
            · exact .inr special

/-- Quoting adds no characters but quotes and backslashes. -/
theorem mem_quoteWindowsArg {c : Char} {arg : String}
    (mem : c ∈ (CommandLine.quoteWindowsArg arg).toList) :
    c ∈ arg.toList ∨ c = '\\' ∨ c = '"' := by
  by_cases special : arg.toList.any CommandLine.needsQuotes = true
  · rw [CommandLine.toList_quoteWindowsArg special] at mem
    rcases List.mem_cons.mp mem with same | inside
    · exact .inr (.inr same)
    · rcases List.mem_append.mp inside with escaped | last
      · exact mem_escape escaped
      · exact .inr (.inr (List.mem_singleton.mp last))
  · rw [CommandLine.quoteWindowsArg] at mem
    split_ifs at mem with blank plain
    · exact .inr (.inr (by simpa using mem))
    · exact .inl mem
    · simp [special] at plain

theorem nul_notMem_commandLine {first : String} {others : List String}
    (clean : ∀ arg ∈ first :: others, '\x00' ∉ arg.toList) :
    '\x00' ∉ (CommandLine.buildWindowsCommandLine (first :: others)).toList := by
  have quoted : ∀ arg ∈ first :: others, '\x00' ∉ (CommandLine.quoteWindowsArg arg).toList := by
    intro arg among mem
    rcases mem_quoteWindowsArg mem with inside | slash | quote
    · exact clean arg among inside
    · cases slash
    · cases quote
  rw [CommandLine.toList_buildWindowsCommandLine]
  intro mem
  rcases List.mem_append.mp mem with head | later
  · exact quoted first List.mem_cons_self head
  · rcases List.mem_flatMap.mp later with ⟨arg, among, inside⟩
    rcases List.mem_cons.mp inside with blank | inside
    · cases blank
    · exact quoted arg (List.mem_cons_of_mem _ among) inside

theorem nul_notMem_toString (handle : UInt64) : '\x00' ∉ (toString handle).toList := by
  have digits : (toString handle).toList = Nat.toDigits 10 handle.toNat := Nat.toList_repr
  rw [digits]
  intro mem
  exact absurd (Nat.isDigit_of_mem_toDigits (by decide) (by decide) mem) (by decide)

/-- A name that a program can be launched under and a target that a path can name. -/
structure Launchable (workerExe : String) (args : WorkerArgs) : Prop where
  noQuotes : '"' ∉ workerExe.toList
  ending : workerExe.toList.getLast? ≠ some '\\'
  exe : '\x00' ∉ workerExe.toList
  target : '\x00' ∉ args.target.toList

theorem processArgs_workerCommandLine {workerExe : String} {args : WorkerArgs}
    (launchable : Launchable workerExe args) :
    processArgs (workerCommandLine workerExe args) =
      ["--target", args.target, "--pipe-handle", toString args.pipeHandle,
        "--cancel-event-handle", toString args.cancelEventHandle] := by
  have clean : '\x00' ∉ (workerCommandLine workerExe args).toList := by
    apply nul_notMem_commandLine
    simp only [List.forall_mem_cons, List.not_mem_nil, false_implies, implies_true, and_true]
    exact ⟨launchable.exe, by decide, launchable.target, by decide, nul_notMem_toString _,
      by decide, nul_notMem_toString _⟩
  have whole : (workerCommandLine workerExe args).toList.takeWhile (· ≠ '\x00') =
      (workerCommandLine workerExe args).toList := by
    apply List.takeWhile_eq_self_iff.mpr
    intro c mem
    simpa using fun same : c = '\x00' => clean (same ▸ mem)
  rw [processArgs, whole, workerCommandLine,
    CommandLine.splitLine_buildWindowsCommandLine _ _ launchable.noQuotes launchable.ending]
  rfl

/-- The launched worker finds its target and its handles, whatever the target is called. -/
theorem parseWorkerArgs_launched {workerExe : String} {args : WorkerArgs}
    (launchable : Launchable workerExe args) :
    parseWorkerArgs (processArgs (workerCommandLine workerExe args)) = .ok args := by
  rw [processArgs_workerCommandLine launchable, parseWorkerArgs_flags]

theorem parseWorkerArgs_launched_spaces :
    parseWorkerArgs (processArgs (workerCommandLine "C:\\Program Files\\worker.exe"
      { target := "--target \"C:\\", pipeHandle := 420, cancelEventHandle := 424 })) =
        .ok { target := "--target \"C:\\", pipeHandle := 420, cancelEventHandle := 424 } :=
  parseWorkerArgs_launched ⟨by decide, by decide, by decide, by decide⟩

/-! ### Handing the graph over -/

/-- The thread that drives a launched worker: it reads the worker's stream to its end and
sees it exit. -/
structure Drives (runner : Runner) (bytes : List UInt8) (exited : Option UInt32) : Prop where
  launched : runner.launchError = none
  read : ∃ reader ending, reader.targetPath = runner.target ∧
    ReadsAs bytes (some reader) (runner.readings.map Reading.record) ending ∧
      runner.undecodable = ending.isSome
  exited : runner.exited = exited

theorem readsAs_emittedBytes {targetPath : String} {records : List ObservationRecord}
    (short : targetPath.utf8ByteSize ≤ 65535) (accepted : ∀ record ∈ records, Encodable record) :
    ReadsAs (emittedBytes targetPath records) (some (currentReader targetPath)) records none := by
  rcases emitted_called short records with ⟨bytes, emitted, called⟩
  rw [emitted, called.whole accepted]
  exact readsAs_streamBytes short accepted

/-- The records of a run were accepted, so the stream reads back as them. -/
theorem Drives.readings {runner : Runner} {targetPath : String}
    {records : List ObservationRecord} {exited : Option UInt32}
    (drives : Drives runner (emittedBytes targetPath records) exited)
    (short : targetPath.utf8ByteSize ≤ 65535) (accepted : ∀ record ∈ records, Encodable record) :
    runner.target = targetPath ∧ runner.readings.map Reading.record = records ∧
      runner.undecodable = false := by
  rcases drives.read with ⟨reader, ending, named, reads, undecodable⟩
  have back := readsAs_emittedBytes short accepted
  unfold ReadsAs at reads back
  cases opened : ObservationReader.new (emittedBytes targetPath records) with
  | error err =>
      rw [opened] at back
      exact absurd back.1 (by simp)
  | ok first =>
      rw [opened] at reads back
      rcases reads with ⟨same, yields⟩
      rcases back with ⟨current, yieldsBack⟩
      rcases yields.unique yieldsBack with ⟨readings, ended⟩
      rw [← same, Option.some.injEq] at current
      subst current
      exact ⟨named.symm, readings, by rw [undecodable, ended]; rfl⟩

/-- Every record that a scan has written was accepted by its sink. -/
theorem encodable_emitted {formatWin32Error : UInt32 → String} {durationMs : UInt64}
    {target : ValidatedScanTarget} {root : RootAnswers} {answers : List DirectoryAnswers}
    {ended : ScanEnd ObservationWriteError}
    (ran : scanDirectory (writerEnv formatWin32Error durationMs) target root answers = some ended) :
    ∀ record ∈ ended.state.emitted, Encodable record := by
  have untouched : Untouched (writerEnv formatWin32Error durationMs)
      (fun state => ∀ record ∈ state.emitted, Encodable record) := {
    emitted := by
      intro state record passes here other mem
      rcases List.mem_append.mp mem with old | new
      · exact here other old
      · rw [List.mem_singleton.mp new]
        exact (writerEnv_sink _ record).mp passes
    directories := fun _ _ here => here
    files := fun _ _ _ here => here
    allocated := fun _ _ here => here
    entryId := fun _ _ here => here
    stack := fun _ _ here => here
    gaps := fun _ _ here => here }
  refine scanDirectory_keeps untouched ?_ ?_ ran
  · intro enumClass record mem
    cases mem
  · intro state currentDir stack handle enumeration here
    exact here

/-- A graph that is built from what a scan has written carries its terminal record. -/
theorem terminal_of_built {rt : Runtime} {rootTarget : String} {graph : DirectoryGraph}
    {env : ScanEnv ObservationWriteError} {target : ValidatedScanTarget} {root : RootAnswers}
    {answers : List DirectoryAnswers} {term : TerminalObservation} {state : ScanState}
    (returned : scanDirectory env target root answers = some (.returned term state))
    (built : GraphBuilder.buildFromReader rt rootTarget state.emitted = .ok (.ok graph)) :
    graph.terminal = term := by
  rcases returned_streamed returned with ⟨outcome, last, settled, _⟩
  rcases settle_returned settled with ⟨_, rfl⟩
  rcases GraphBuilder.buildFromReader_eq_ok built with ⟨err, none⟩ | ⟨builder, reached, finished⟩
  · cases none
  · have carried := (reached.finished finished).2
    rw [reached.represents.terminal_eq] at carried
    have last := congrArg (Option.bind · ObservationRecord.terminal?)
      (List.getLast?_concat (l := last.emitted) (a := .terminal term))
    exact Option.some.inj (carried.symm.trans last)

/-- A launched worker whose target is valid and whose scan returns exits with the code that
its terminal record calls for, and its stream reads back as the records of the scan. The
graphs that are handed over are those the builder makes of these records; they carry this
terminal record. -/
theorem runnerJoined_launched {process : Process} {workerExe : String} {args : WorkerArgs}
    (launchable : Launchable workerExe args) {validated : PigTree.ValidatedScanTarget}
    (valid : (TargetValidation.validateScanTarget process.system args.target).2 = .ok validated)
    (opens : args.target.utf8ByteSize ≤ 65535) {term : TerminalObservation} {state : ScanState}
    (returned : process.scan validated = some (.returned term state)) {runner : Runner}
    (drives : Drives runner (emittedBytes args.target state.emitted)
      (process.main (processArgs (workerCommandLine workerExe args)))) :
    runner.exited = some (expectedExitCode term.outcome) ∧
      runner.readings.map Reading.record = state.emitted ∧
        ∀ graph, (runner.joined = some (.ok graph) ↔
          GraphBuilder.buildFromReader runner.rt args.target state.emitted = .ok (.ok graph)) ∧
            (runner.joined = some (.ok graph) → graph.terminal = term) := by
  have exited : runner.exited = some (expectedExitCode term.outcome) := by
    have opened : (ObservationWriter.new args.target []).1 = .ok () := by
      rw [writes_new opens]
    rw [drives.exited, Process.main, parseWorkerArgs_launched launchable]
    dsimp only
    rw [valid]
    dsimp only
    rw [opened]
    dsimp only
    rw [returned]
    cases outcome : term.outcome with
    | finished => simp [exitCode, outcome, expectedExitCode]
    | cancelled => simp [exitCode, outcome, expectedExitCode]
    | failed => simp [exitCode, outcome, expectedExitCode]
  rcases drives.readings opens (encodable_emitted returned) with ⟨named, read, decodable⟩
  refine ⟨exited, read, ?_⟩
  intro graph
  have handed : runner.joined = some (.ok graph) →
      GraphBuilder.buildFromReader runner.rt args.target state.emitted = .ok (.ok graph) := by
    intro joined
    have built := ScanLoop.joined_graph joined
    rwa [named, read] at built
  refine ⟨⟨handed, ?_⟩, fun joined => terminal_of_built returned (handed joined)⟩
  intro built
  have carries := terminal_of_built returned built
  rw [← named, ← read] at built
  have made : runner.build.2 = .ok (.ok graph) := by
    rw [Runner.build, decodable]
    exact GraphBuilder.buildFromReaderWithProgress_of_graph runner.operationId built
  rw [Runner.joined, drives.launched]
  dsimp only
  rw [made]
  dsimp only
  rw [exited, runnerResult, carries, if_neg (not_not.mpr rfl)]

namespace Sample

/-- A drive with one file below the target. -/
def process : Process where
  system := TargetValidation.Sample.oneDrive
  formatWin32Error := fun _ => "Win32 error"
  durationMs := 1
  root := root 0x10 0
  answers := [batched [fact "file" 0x20 5]]

def workerExe : String := "C:\\Program Files\\worker.exe"

def args : WorkerArgs where
  target := " c:/data"
  pipeHandle := 420
  cancelEventHandle := 424

def validated : PigTree.ValidatedScanTarget where
  displayPath := " c:/data"
  canonicalPath := TargetValidation.encodeWide "\\\\?\\C:\\data"
  extendedPath := "\\\\?\\C:\\data"
  volumeRoot := "C:\\"
  driveKind := .fixed
  filesystemKind := .ntfs
  filesystemName := "ntfs"
  volumeSerialNumber := some 7

/-- The runner of a worker that writes these records. -/
def runner (records : List ObservationRecord) (addressable : records.length < 2 ^ 64) :
    Runner where
  rt := GraphBuilder.Sample.runtime
  operationId := "scan-1"
  target := args.target
  launchError := none
  readings := records.map (fun record => { record, due := false, timestampIso := "" })
  undecodable := false
  exited := process.main (processArgs (workerCommandLine workerExe args))
  addressable := by rwa [List.length_map]

theorem runner_records (records : List ObservationRecord)
    (addressable : records.length < 2 ^ 64) :
    (runner records addressable).readings.map Reading.record = records := by
  rw [runner, List.map_map]
  exact List.map_id records

theorem runner_exited (records : List ObservationRecord)
    (addressable : records.length < 2 ^ 64) :
    (runner records addressable).exited =
      process.main (processArgs (workerCommandLine workerExe args)) := by
  rw [runner]

/-- What a scan has left, if it returned. -/
def returnedRecords {ε : Type} : ScanEnd ε → Option (ℕ × RunOutcome)
  | .returned term state => some (state.emitted.length, term.outcome)
  | .failed _ _ => none

end Sample

theorem runnerJoined_launched_file : ∃ term state addressable,
    Sample.process.scan Sample.validated = some (.returned term state) ∧
      (Sample.runner state.emitted addressable).exited = some (expectedExitCode term.outcome) ∧
        (Sample.runner state.emitted addressable).readings.map Reading.record = state.emitted ∧
          ∀ graph, ((Sample.runner state.emitted addressable).joined = some (.ok graph) ↔
            GraphBuilder.buildFromReader GraphBuilder.Sample.runtime " c:/data" state.emitted =
              .ok (.ok graph)) ∧
                ((Sample.runner state.emitted addressable).joined = some (.ok graph) →
                  graph.terminal = term) := by
  have returns : (Sample.process.scan Sample.validated).bind Sample.returnedRecords =
      some (3, .finished) := by
    decide +kernel
  rcases Option.bind_eq_some_iff.mp returns with ⟨ended, ran, returned⟩
  cases ended with
  | failed err state => cases returned
  | returned term state =>
      have length : state.emitted.length = 3 := congrArg Prod.fst (Option.some.inj returned)
      have addressable : state.emitted.length < 2 ^ 64 := by
        rw [length]
        decide
      refine ⟨term, state, addressable, ran, ?_⟩
      have short : Sample.args.target.utf8ByteSize ≤ 65535 := by decide
      have drives : Drives (Sample.runner state.emitted addressable)
          (emittedBytes Sample.args.target state.emitted)
          (Sample.process.main (processArgs (workerCommandLine Sample.workerExe Sample.args))) := by
        refine ⟨rfl, ⟨currentReader Sample.args.target, none, rfl, ?_, rfl⟩,
          Sample.runner_exited _ _⟩
        rw [Sample.runner_records]
        exact readsAs_emittedBytes short (encodable_emitted ran)
      exact runnerJoined_launched ⟨by decide, by decide, by decide, by decide⟩ (by decide +kernel)
        short ran drives

/-! ### Errors -/

def isFlag (arg : String) : Bool :=
  arg = "--target" ∨ arg = "--pipe-handle" ∨ arg = "--cancel-event-handle"

/-- How an argument is read: a flag with the argument after it, a flag at the end, or an
argument that is no flag. -/
inductive Token where
  | flag (arg val : String)
  | last (arg : String)
  | other (arg : String)
deriving DecidableEq, Repr

def tokens : List String → List Token
  | [] => []
  | [arg] => if isFlag arg then [.last arg] else [.other arg]
  | arg :: val :: rest =>
      if isFlag arg then .flag arg val :: tokens rest else .other arg :: tokens (val :: rest)

/-- What an error says of the arguments. -/
def ArgsError.Justified (args : List String) : ArgsError → Prop
  | .missingArgument arg =>
      isFlag arg = true ∧ (.last arg ∈ tokens args ∨ ∀ val, .flag arg val ∉ tokens args)
  | .invalidHandle arg val =>
      arg ≠ "--target" ∧ .flag arg val ∈ tokens args ∧ Decimal.parse? (2 ^ 64) val.toList = none
  | .unexpectedArgument arg =>
      .other arg ∈ tokens args ∧ "--".toList.isPrefixOf arg.toList = true

/-- The fault of a token on its own. -/
def Token.fault : Token → Option ArgsError
  | .flag arg val =>
      if arg ≠ "--target" ∧ Decimal.parse? (2 ^ 64) val.toList = none then
        some (.invalidHandle arg val)
      else none
  | .last arg => some (.missingArgument arg)
  | .other arg =>
      if "--".toList.isPrefixOf arg.toList then some (.unexpectedArgument arg) else none

/-- Whether the value of a flag has been found. -/
def ParsedArgs.has (parsed : ParsedArgs) (arg : String) : Bool :=
  if arg = "--target" then parsed.target.isSome
  else if arg = "--pipe-handle" then parsed.pipeHandle.isSome
  else parsed.cancelEventHandle.isSome

theorem parseHandle_cases (arg val : String) :
    (∃ handle, parseHandle arg val = .ok handle ∧ Decimal.parse? (2 ^ 64) val.toList ≠ none) ∨
      parseHandle arg val = .error (.invalidHandle arg val) ∧
        Decimal.parse? (2 ^ 64) val.toList = none := by
  unfold parseHandle
  cases Decimal.parse? (2 ^ 64) val.toList with
  | none => exact .inr ⟨rfl, rfl⟩
  | some handle => exact .inl ⟨_, rfl, Option.some_ne_none _⟩

theorem isFlag_iff {arg : String} : isFlag arg = true ↔
    arg = "--target" ∨ arg = "--pipe-handle" ∨ arg = "--cancel-event-handle" := by
  simp [isFlag]

/-- A flag with a value is taken, or its value is no handle. -/
theorem parseFlags_flag {arg : String} (flag : isFlag arg = true) (parsed : ParsedArgs)
    (val : String) (rest : List String) :
    (∃ next, parseFlags parsed (arg :: val :: rest) = parseFlags next rest ∧
        (Token.flag arg val).fault = none ∧ ∀ other, isFlag other = true →
          (next.has other = true ↔ parsed.has other = true ∨ other = arg)) ∨
      parseFlags parsed (arg :: val :: rest) = .error (.invalidHandle arg val) ∧
        (Token.flag arg val).fault = some (.invalidHandle arg val) := by
  rcases isFlag_iff.mp flag with rfl | rfl | rfl
  · refine .inl ⟨{ parsed with target := some val }, rfl, by simp [Token.fault], ?_⟩
    intro other otherFlag
    rcases isFlag_iff.mp otherFlag with rfl | rfl | rfl <;> simp [ParsedArgs.has]
  · rcases parseHandle_cases "--pipe-handle" val with ⟨handle, ran, fits⟩ | ⟨ran, unfit⟩
    · refine .inl ⟨{ parsed with pipeHandle := some handle }, ?_,
        if_neg (fun unfit => fits unfit.2), ?_⟩
      · simp [parseFlags, ran, bind, Except.bind]
      · intro other otherFlag
        rcases isFlag_iff.mp otherFlag with rfl | rfl | rfl <;> simp [ParsedArgs.has]
    · refine .inr ⟨?_, if_pos ⟨by decide, unfit⟩⟩
      simp [parseFlags, ran, bind, Except.bind]
  · rcases parseHandle_cases "--cancel-event-handle" val with ⟨handle, ran, fits⟩ | ⟨ran, unfit⟩
    · refine .inl ⟨{ parsed with cancelEventHandle := some handle }, ?_,
        if_neg (fun unfit => fits unfit.2), ?_⟩
      · simp [parseFlags, ran, bind, Except.bind]
      · intro other otherFlag
        rcases isFlag_iff.mp otherFlag with rfl | rfl | rfl <;> simp [ParsedArgs.has]
    · refine .inr ⟨?_, if_pos ⟨by decide, unfit⟩⟩
      simp [parseFlags, ran, bind, Except.bind]

/-- An argument that is no flag is skipped, or not expected. -/
theorem parseFlags_other {arg : String} (noFlag : isFlag arg = false) (parsed : ParsedArgs)
    (rest : List String) :
    parseFlags parsed (arg :: rest) = parseFlags parsed rest ∧ (Token.other arg).fault = none ∨
      parseFlags parsed (arg :: rest) = .error (.unexpectedArgument arg) ∧
        (Token.other arg).fault = some (.unexpectedArgument arg) := by
  have others := mt isFlag_iff.mpr (Bool.eq_false_iff.mp noFlag)
  have names := not_or.mp others
  have handles := not_or.mp names.2
  by_cases dashes : "--".toList.isPrefixOf arg.toList = true
  · right
    refine ⟨?_, if_pos dashes⟩
    cases rest with
    | nil => rw [parseFlags, if_neg others, if_pos dashes]
    | cons val rest =>
        rw [parseFlags, if_neg names.1, if_neg handles.1, if_neg handles.2, if_pos dashes]
  · left
    refine ⟨?_, if_neg dashes⟩
    cases rest with
    | nil =>
        rw [parseFlags, parseFlags, if_neg others, if_neg dashes]
    | cons val rest =>
        rw [parseFlags, if_neg names.1, if_neg handles.1, if_neg handles.2, if_neg dashes]

/-- How the loop over the arguments ends: it stops at a token with a fault, or it has found
what it had before and the flags among the tokens. -/
inductive Parses (args : List String) (parsed : ParsedArgs) :
    Except ArgsError ParsedArgs → Prop
  | stopped {err : ArgsError} {token : Token} (among : token ∈ tokens args)
      (fault : token.fault = some err) : Parses args parsed (.error err)
  | found {all : ParsedArgs} (faultless : ∀ token ∈ tokens args, token.fault = none)
      (has : ∀ arg, isFlag arg = true →
        (all.has arg = true ↔ parsed.has arg = true ∨ ∃ val, .flag arg val ∈ tokens args)) :
      Parses args parsed (.ok all)

namespace Parses

variable {args rest : List String} {parsed next : ParsedArgs} {token : Token}
  {result : Except ArgsError ParsedArgs}

theorem stops {err : ArgsError} (lexed : tokens args = token :: tokens rest)
    (fault : token.fault = some err) : Parses args parsed (.error err) := by
  refine stopped ?_ fault
  rw [lexed]
  exact List.mem_cons_self

/-- A token without a fault is passed over; it leaves the flag that it is. -/
theorem passes (lexed : tokens args = token :: tokens rest) (harmless : token.fault = none)
    (has : ∀ arg, isFlag arg = true →
      (next.has arg = true ↔ parsed.has arg = true ∨ ∃ val, .flag arg val = token))
    (later : Parses rest next result) : Parses args parsed result := by
  cases later with
  | stopped among fault =>
      refine stopped ?_ fault
      rw [lexed]
      exact List.mem_cons_of_mem _ among
  | found faultless hasAll =>
      refine found ?_ ?_
      · rw [lexed, List.forall_mem_cons]
        exact ⟨harmless, faultless⟩
      · intro arg flag
        rw [hasAll arg flag, has arg flag, lexed]
        simp only [List.mem_cons, exists_or, or_assoc]

end Parses

theorem parses_other {arg : String} {rest : List String} {parsed : ParsedArgs}
    (noFlag : isFlag arg = false) (lexed : tokens (arg :: rest) = .other arg :: tokens rest)
    (later : Parses rest parsed (parseFlags parsed rest)) :
    Parses (arg :: rest) parsed (parseFlags parsed (arg :: rest)) := by
  rcases parseFlags_other noFlag parsed rest with ⟨skipped, harmless⟩ | ⟨stops, fault⟩
  · rw [skipped]
    exact later.passes lexed harmless (fun _ _ => by simp)
  · rw [stops]
    exact Parses.stops lexed fault

theorem parses_parseFlags (args : List String) (parsed : ParsedArgs) :
    Parses args parsed (parseFlags parsed args) := by
  have empty : ∀ parsed, Parses [] parsed (.ok parsed) := by
    intro parsed
    apply Parses.found
    · intro token mem
      cases mem
    · intro arg _
      simp [tokens]
  induction args using tokens.induct generalizing parsed with
  | case1 => exact empty parsed
  | case2 arg flag =>
      have ends : parseFlags parsed [arg] = .error (.missingArgument arg) := by
        rw [parseFlags, if_pos (isFlag_iff.mp flag)]
      have lexed : tokens [arg] = .last arg :: tokens [] := by
        simp [tokens, flag]
      rw [ends]
      exact Parses.stops lexed rfl
  | case3 arg noFlag =>
      have noFlag := Bool.eq_false_of_not_eq_true noFlag
      refine parses_other noFlag ?_ (empty parsed)
      simp [tokens, noFlag]
  | case4 arg val rest flag ih =>
      have lexed : tokens (arg :: val :: rest) = .flag arg val :: tokens rest := by
        rw [tokens, if_pos flag]
      rcases parseFlags_flag flag parsed val rest with ⟨next, taken, fits, has⟩ | ⟨stops, fault⟩
      · rw [taken]
        refine (ih next).passes lexed fits ?_
        intro other otherFlag
        rw [has other otherFlag]
        simp
      · rw [stops]
        exact Parses.stops lexed fault
  | case5 arg val rest noFlag ih =>
      refine parses_other (Bool.eq_false_of_not_eq_true noFlag) ?_ (ih parsed)
      rw [tokens, if_neg noFlag]

theorem isFlag_of_last {arg : String} {args : List String} (mem : .last arg ∈ tokens args) :
    isFlag arg = true := by
  induction args using tokens.induct with
  | case1 => cases mem
  | case2 first flag =>
      rw [tokens, if_pos flag, List.mem_singleton] at mem
      cases mem
      exact flag
  | case3 first noFlag =>
      rw [tokens, if_neg noFlag, List.mem_singleton] at mem
      cases mem
  | case4 first val rest flag ih =>
      rw [tokens, if_pos flag] at mem
      rcases List.mem_cons.mp mem with same | later
      · cases same
      · exact ih later
  | case5 first val rest noFlag ih =>
      rw [tokens, if_neg noFlag] at mem
      rcases List.mem_cons.mp mem with same | later
      · cases same
      · exact ih later

/-- The fault of a token is what its error says. -/
theorem justified_of_fault {args : List String} {token : Token} {err : ArgsError}
    (among : token ∈ tokens args) (fault : token.fault = some err) : err.Justified args := by
  cases token with
  | flag arg val =>
      rw [Token.fault] at fault
      split_ifs at fault with unfit
      cases fault
      exact ⟨unfit.1, among, unfit.2⟩
  | last arg =>
      cases fault
      exact ⟨isFlag_of_last among, .inl among⟩
  | other arg =>
      rw [Token.fault] at fault
      split_ifs at fault with dashes
      cases fault
      exact ⟨among, dashes⟩

/-- Where no token has a fault, only a missing flag can be wrong. -/
theorem missing_of_justified {args : List String} {err : ArgsError}
    (faultless : ∀ token ∈ tokens args, token.fault = none) (justified : err.Justified args) :
    ∃ arg, isFlag arg = true ∧ ∀ val, .flag arg val ∉ tokens args := by
  cases err with
  | missingArgument arg =>
      rcases justified with ⟨flag, among | absent⟩
      · cases faultless _ among
      · exact ⟨arg, flag, absent⟩
  | invalidHandle arg val =>
      rcases justified with ⟨handle, among, unfit⟩
      have harmless := faultless _ among
      rw [Token.fault, if_pos ⟨handle, unfit⟩] at harmless
      cases harmless
  | unexpectedArgument arg =>
      rcases justified with ⟨among, dashes⟩
      have harmless := faultless _ among
      rw [Token.fault, if_pos dashes] at harmless
      cases harmless

theorem required_cases {α : Type} (arg : String) (value : Option α) :
    (∃ found, required arg value = .ok found ∧ value.isSome = true) ∨
      required arg value = .error (.missingArgument arg) ∧ value.isSome = false := by
  cases value with
  | none => exact .inr ⟨rfl, rfl⟩
  | some found => exact .inl ⟨found, rfl, rfl⟩

/-- Without a fault the arguments are refused for a flag that is missing, or all are there. -/
theorem parseWorkerArgs_found {args : List String} {found : ParsedArgs}
    (ran : parseFlags .empty args = .ok found) :
    (∃ arg, parseWorkerArgs args = .error (.missingArgument arg) ∧ isFlag arg = true ∧
        found.has arg = false) ∨
      (∃ parsed, parseWorkerArgs args = .ok parsed) ∧
        ∀ arg, isFlag arg = true → found.has arg = true := by
  rw [parseWorkerArgs, ran]
  simp only [bind, Except.bind]
  rcases required_cases "--target" found.target with ⟨target, takes, hasTarget⟩ | ⟨misses, absent⟩
  swap
  · rw [misses]
    exact .inl ⟨_, rfl, by decide, absent⟩
  rw [takes]
  rcases required_cases "--pipe-handle" found.pipeHandle with
    ⟨pipeHandle, takes, hasPipe⟩ | ⟨misses, absent⟩
  swap
  · rw [misses]
    exact .inl ⟨_, rfl, by decide, absent⟩
  rw [takes]
  rcases required_cases "--cancel-event-handle" found.cancelEventHandle with
    ⟨cancelHandle, takes, hasCancel⟩ | ⟨misses, absent⟩
  swap
  · rw [misses]
    exact .inl ⟨_, rfl, by decide, absent⟩
  rw [takes]
  refine .inr ⟨⟨_, rfl⟩, ?_⟩
  intro arg flag
  rcases isFlag_iff.mp flag with rfl | rfl | rfl
  · exact hasTarget
  · exact hasPipe
  · exact hasCancel

/-- The arguments are refused exactly when something is wrong with them, and what the error
says is wrong is wrong with them. -/
theorem parseWorkerArgs_justified (args : List String) :
    (∀ err, parseWorkerArgs args = .error err → err.Justified args) ∧
      ∀ parsed, parseWorkerArgs args = .ok parsed → ∀ err : ArgsError, ¬err.Justified args := by
  have parses := parses_parseFlags args .empty
  cases ran : parseFlags .empty args with
  | error err =>
      have refused : parseWorkerArgs args = .error err := by
        rw [parseWorkerArgs, ran]
        rfl
      rw [ran] at parses
      cases parses with
      | stopped among fault =>
          rw [refused]
          constructor
          · rintro other ⟨⟩
            exact justified_of_fault among fault
          · rintro parsed ⟨⟩
  | ok found =>
      rw [ran] at parses
      cases parses with
      | found faultless hasAll =>
          have before : ∀ arg, ParsedArgs.empty.has arg = false := by
            intro arg
            simp [ParsedArgs.has, ParsedArgs.empty]
          rcases parseWorkerArgs_found ran with ⟨arg, refused, flag, absent⟩ | ⟨accepted, complete⟩
          · rw [refused]
            constructor
            · rintro err ⟨⟩
              refine ⟨flag, .inr ?_⟩
              intro val mem
              rw [(hasAll arg flag).mpr (.inr ⟨val, mem⟩)] at absent
              cases absent
            · rintro parsed ⟨⟩
          · rcases accepted with ⟨parsed, accepted⟩
            rw [accepted]
            constructor
            · rintro err ⟨⟩
            · intro _ _ err justified
              rcases missing_of_justified faultless justified with ⟨arg, flag, absent⟩
              rcases (hasAll arg flag).mp (complete arg flag) with already | ⟨val, mem⟩
              · rw [before arg] at already
                cases already
              · exact absent val mem

theorem parseWorkerArgs_justified_negative :
    (ArgsError.invalidHandle "--pipe-handle" "-4").Justified
      ["--target", "--pipe-handle", "worker", "--pipe-handle", "-4"] :=
  (parseWorkerArgs_justified _).1 _ (by decide)

end Worker

end PigTree
