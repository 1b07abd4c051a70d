import PigTree.Worker.Enumeration

/-!
# Scanning a directory tree

The worker observes the target, then lists directory after directory from a stack and
writes a record for every entry; a directory that cannot be listed in full is recorded
as a coverage gap. Every exit writes a terminal record with the running totals.
Identifiers and totals are machine words and wrap.

A run is given by what the operating system answers to each directory in turn. It is
undefined when the answers end before the run does.
-/

namespace PigTree

namespace Worker

/-! ### The target -/

/-- The paths of a validated scan target. -/
structure ValidatedScanTarget where
  displayPath : String
  extendedPath : String
deriving DecidableEq, Repr

/-- Volume evidence resolved once per scan. -/
structure VolumeContext where
  guid : Option (Vector UInt8 16)
  hardlinkCapable : Bool
deriving DecidableEq, Repr

def VolumeContext.identity (volume : VolumeContext) (fileId : BitVec 128) :
    Option ObjectIdentity :=
  volume.guid.map (fun volumeGuid => { volumeGuid, fileId })

/-- Attributes and FILETIME words of a directory entry. -/
structure FindData where
  fileAttributes : UInt32
  reserved0 : UInt32
  creationTime : UInt64
  lastWriteTime : UInt64
  lastAccessTime : UInt64
deriving DecidableEq, Repr

/-- What queries on an open root handle answer: the class probe, the allocation size
and the file identifier. -/
structure RootHandle where
  probe : Except UInt32 Unit
  allocationSize : Option Int
  fileId : Option (BitVec 128)
deriving DecidableEq

/-- What the calls on the target itself answer. -/
structure RootAnswers where
  cancelled : Bool
  findFirst : Option FindData
  attributes : Except UInt32 FindData
  volume : VolumeContext
  handle : Option RootHandle
deriving DecidableEq

/-- Milliseconds since the Unix epoch of a FILETIME; earlier times are clamped. -/
def filetimeToUnixMs (ft : UInt64) : UInt64 :=
  if ft > 116444736000000000 then (ft - 116444736000000000) / 10000 else 0

/-! ### State -/

/-- A directory on the stack. The position of its Directory record in the stream is not
part of the source; it tells directories apart when identifiers repeat. -/
structure DirectoryStackItem where
  entryId : UInt32
  extendedPath : String
  displayPath : String
  record : ℕ
deriving DecidableEq, Repr

/-- A directory that has been enumerated: with which backend, and with what outcome. -/
structure Visit where
  directory : DirectoryStackItem
  enumClass : EnumClass
  answer : DirEnumeration
deriving DecidableEq, Repr

/-- The variables of a scan, with the records written and the directories visited so far. -/
structure ScanState where
  emitted : List ObservationRecord
  totalDirectories : UInt64
  totalFiles : UInt64
  totalLogicalBytes : UInt64
  totalAllocatedBytes : UInt64
  coverageGapCount : UInt32
  nextEntryId : UInt32
  stack : List DirectoryStackItem
  enumClass : Option EnumClass
  visits : List Visit
deriving DecidableEq, Repr

namespace ScanState

def start : ScanState where
  emitted := []
  totalDirectories := 0
  totalFiles := 0
  totalLogicalBytes := 0
  totalAllocatedBytes := 0
  coverageGapCount := 0
  nextEntryId := 1
  stack := []
  enumClass := none
  visits := []

end ScanState

/-- The surroundings of a scan: the texts of error codes, the time a scan takes, and the
sink, which may refuse a record (the position of the record is given as well). -/
structure ScanEnv (ε : Type) where
  formatWin32Error : UInt32 → String
  durationMs : UInt64
  sink : ℕ → ObservationRecord → Option ε

/-- How a scan ends, with the state it ends in. -/
inductive ScanEnd (ε : Type) where
  | returned (term : TerminalObservation) (state : ScanState)
  | failed (err : ε) (state : ScanState)
deriving DecidableEq

/-- A step of the scan: its result, or the error of a refused record. -/
abbrev ScanStep (ε α : Type) : Type := Except (ε × ScanState) α

variable {ε : Type}

/-- Write a record; a refused one ends the scan. -/
def writeRecord (env : ScanEnv ε) (record : ObservationRecord) (state : ScanState) :
    ScanStep ε ScanState :=
  match env.sink state.emitted.length record with
  | some err => .error (err, state)
  | none => .ok { state with emitted := state.emitted ++ [record] }

/-- Write the terminal record and return it. -/
def settle (env : ScanEnv ε) (outcome : RunOutcome) (state : ScanState) : ScanEnd ε :=
  let term := {
    outcome
    totalDirectories := state.totalDirectories
    totalFiles := state.totalFiles
    totalLogicalBytes := state.totalLogicalBytes
    totalAllocatedBytes := state.totalAllocatedBytes
    coverageGapCount := state.coverageGapCount
    durationMs := env.durationMs }
  match writeRecord env (.terminal term) state with
  | .error stopped => .failed stopped.1 stopped.2
  | .ok state => .returned term state

def recordGap (env : ScanEnv ε) (path : String) (errorCode : UInt32) (errorMessage : String)
    (state : ScanState) : ScanStep ε ScanState :=
  writeRecord env (.coverageGap { path, errorCode, errorMessage })
    { state with coverageGapCount := state.coverageGapCount + 1 }

/-! ### Entries -/

/-- A path with a name below it. -/
def childPath (path name : String) : String :=
  if path.toList.getLast? = some '\\' then path ++ name else path ++ "\\" ++ name

def addAllocated (allocatedSize : Option UInt64) (state : ScanState) : ScanState :=
  match allocatedSize with
  | some alloc => { state with totalAllocatedBytes := state.totalAllocatedBytes + alloc }
  | none => state

/-- The next entry identifier is used up. -/
def takeEntryId (state : ScanState) : ScanState :=
  { state with nextEntryId := state.nextEntryId + 1 }

def specialOf (entryId parentId : UInt32) (fact : EntryFacts) : SpecialObservation where
  entryId := entryId
  parentId := parentId
  name := fact.name
  fileAttributes := fact.fileAttributes
  reparseTag := fact.reparseTag
  creationTimeUtcMs := fact.creationTimeUtcMs
  lastWriteTimeUtcMs := fact.lastWriteTimeUtcMs
  lastAccessTimeUtcMs := fact.lastAccessTimeUtcMs
  objectId := fact.objectId

def directoryOf (entryId parentId : UInt32) (fact : EntryFacts) : DirectoryObservation where
  entryId := entryId
  parentId := parentId
  name := fact.name
  fileAttributes := fact.fileAttributes
  reparseTag := fact.reparseTag
  creationTimeUtcMs := fact.creationTimeUtcMs
  lastWriteTimeUtcMs := fact.lastWriteTimeUtcMs
  lastAccessTimeUtcMs := fact.lastAccessTimeUtcMs
  objectId := fact.objectId
  allocatedSize := fact.allocatedSize
  totalLinkCount := .notApplicable

def fileOf (entryId parentId : UInt32) (fact : EntryFacts) : FileObservation where
  entryId := entryId
  parentId := parentId
  name := fact.name
  logicalSize := fact.logicalSize
  allocatedSize := fact.allocatedSize
  fileAttributes := fact.fileAttributes
  reparseTag := fact.reparseTag
  creationTimeUtcMs := fact.creationTimeUtcMs
  lastWriteTimeUtcMs := fact.lastWriteTimeUtcMs
  lastAccessTimeUtcMs := fact.lastAccessTimeUtcMs
  objectId := fact.objectId
  totalLinkCount := fact.totalLinkCount

def isReparse (fileAttributes : UInt32) : Bool := fileAttributes &&& fileAttributeReparsePoint ≠ 0

def isDirectory (fileAttributes : UInt32) : Bool := fileAttributes &&& fileAttributeDirectory ≠ 0

def isDevice (fileAttributes : UInt32) : Bool := fileAttributes &&& fileAttributeDevice ≠ 0

/-- Only directories that are no reparse points are descended into. -/
def pushChild (currentDir : DirectoryStackItem) (entryId : UInt32) (record : ℕ)
    (fact : EntryFacts) (state : ScanState) : ScanState :=
  if isReparse fact.fileAttributes then state
  else
    { state with
      stack := {
        entryId
        extendedPath := childPath currentDir.extendedPath fact.name
        displayPath := childPath currentDir.displayPath fact.name
        record } :: state.stack }

/-- Emit the record of one entry of `currentDir`. -/
def emitFact (env : ScanEnv ε) (currentDir : DirectoryStackItem) (fact : EntryFacts)
    (state : ScanState) : ScanStep ε ScanState :=
  if isDotName fact.name then .ok state
  else
    let entryId := state.nextEntryId
    let position := state.emitted.length
    let state := takeEntryId state
    if isDevice fact.fileAttributes then
      writeRecord env (.special (specialOf entryId currentDir.entryId fact)) state
    else if isDirectory fact.fileAttributes then do
      let state := { state with totalDirectories := state.totalDirectories + 1 }
      let state ← writeRecord env (.directory (directoryOf entryId currentDir.entryId fact)) state
      return pushChild currentDir entryId position fact (addAllocated fact.allocatedSize state)
    else do
      let state := { state with
        totalFiles := state.totalFiles + 1
        totalLogicalBytes := state.totalLogicalBytes + fact.logicalSize }
      let state ← writeRecord env (.file (fileOf entryId currentDir.entryId fact)) state
      return addAllocated fact.allocatedSize state

def emitFacts (env : ScanEnv ε) (currentDir : DirectoryStackItem) :
    List EntryFacts → ScanState → ScanStep ε ScanState
  | [], state => .ok state
  | fact :: facts, state => do
      let state ← emitFact env currentDir fact state
      emitFacts env currentDir facts state

/-! ### The traversal -/

/-- The class to enumerate a directory with, and the class of the scan from then on: a
handle that does not open leaves the class open. -/
def selectClass (enumClass : Option EnumClass) (handle : Option (Except UInt32 Unit)) :
    EnumClass × Option EnumClass :=
  match enumClass with
  | some cls => (cls, some cls)
  | none =>
      match handle with
      | some query => (probeEnumClass query, some (probeEnumClass query))
      | none => (.legacy, none)

/-- What follows from the outcome of an enumeration that was not cancelled. -/
def absorb (env : ScanEnv ε) (currentDir : DirectoryStackItem) (enumeration : DirEnumeration)
    (state : ScanState) : ScanStep ε ScanState :=
  match enumeration with
  | .cancelled => .ok state
  | .openFailed errorCode =>
      if errorCode ≠ errorFileNotFound ∧ errorCode ≠ errorNoMoreFiles then
        recordGap env currentDir.displayPath errorCode (env.formatWin32Error errorCode) state
      else .ok state
  | .incomplete facts errorCode => do
      let state ←
        recordGap env currentDir.displayPath errorCode (env.formatWin32Error errorCode) state
      emitFacts env currentDir facts state
  | .success facts => emitFacts env currentDir facts state

/-- The state after a directory has been enumerated. -/
def visited (state : ScanState) (stack : List DirectoryStackItem) (currentDir : DirectoryStackItem)
    (selected : EnumClass × Option EnumClass) (enumeration : DirEnumeration) : ScanState :=
  { state with
    stack
    enumClass := selected.2
    visits := state.visits ++ [{
      directory := currentDir
      enumClass := selected.1
      answer := enumeration }] }

/-- List directory after directory until the stack is empty or the scan is cancelled. -/
def scanLoop (env : ScanEnv ε) (answers : List DirectoryAnswers) (state : ScanState) :
    Option (ScanEnd ε) :=
  match state.stack with
  | [] => some (settle env .finished state)
  | currentDir :: stack =>
      match answers with
      | [] => none
      | answer :: rest =>
          if answer.cancelled then some (settle env .cancelled { state with stack })
          else
            let selected := selectClass state.enumClass answer.handle
            match answer.enumerate selected.1 with
            | none => none
            | some enumeration =>
                let state := visited state stack currentDir selected enumeration
                if enumeration = .cancelled then some (settle env .cancelled state)
                else
                  match absorb env currentDir enumeration state with
                  | .error stopped => some (.failed stopped.1 stopped.2)
                  | .ok state => scanLoop env rest state

/-! ### The root -/

/-- Attributes, reparse tag and timestamps of the target. -/
def rootFacts (root : RootAnswers) : Except UInt32 (FindData × UInt32) :=
  match root.findFirst with
  | some data =>
      .ok (data, if isReparse data.fileAttributes then data.reserved0 else 0)
  | none =>
      match root.attributes with
      | .ok data => .ok (data, 0)
      | .error err => .error err

/-- The root handle is opened only where it denotes the observed entry. -/
def rootHandle (root : RootAnswers) (reparseTag : UInt32) : Option RootHandle :=
  if reparseTag = 0 then root.handle else none

/-- The answer to the probe of the root's handle, where there is one to open. -/
def rootProbe (root : RootAnswers) : Option (Except UInt32 Unit) :=
  match rootFacts root with
  | .ok (_, reparseTag) => (rootHandle root reparseTag).map RootHandle.probe
  | .error _ => none

/-- The class a traversal starts with. -/
def rootClass (root : RootAnswers) : Option EnumClass := (rootProbe root).map probeEnumClass

def rootObject (root : RootAnswers) (reparseTag : UInt32) : Option ObjectIdentity :=
  match rootHandle root reparseTag with
  | some handle =>
      if root.volume.hardlinkCapable ∧ root.volume.guid.isSome then
        handle.fileId.bind root.volume.identity
      else none
  | none => none

def rootAllocated (root : RootAnswers) (reparseTag : UInt32) : Option UInt64 :=
  match rootHandle root reparseTag with
  | some handle =>
      match handle.allocationSize with
      | some alloc => if 0 ≤ alloc then some (UInt64.ofNat alloc.toNat) else none
      | none => none
  | none => none

def rootDirectory (target : ValidatedScanTarget) (root : RootAnswers) (data : FindData)
    (reparseTag : UInt32) : DirectoryObservation where
  entryId := 1
  parentId := 0
  name := target.displayPath
  fileAttributes := data.fileAttributes
  reparseTag := reparseTag
  creationTimeUtcMs := filetimeToUnixMs data.creationTime
  lastWriteTimeUtcMs := filetimeToUnixMs data.lastWriteTime
  lastAccessTimeUtcMs := filetimeToUnixMs data.lastAccessTime
  objectId := rootObject root reparseTag
  allocatedSize := rootAllocated root reparseTag
  totalLinkCount := .notApplicable

/-- A scan of a target that cannot be observed as a directory. -/
def refuseTarget (env : ScanEnv ε) (target : ValidatedScanTarget) (errorCode : UInt32)
    (errorMessage : String) : ScanEnd ε :=
  match recordGap env target.displayPath errorCode errorMessage ScanState.start with
  | .error stopped => .failed stopped.1 stopped.2
  | .ok state => settle env .failed state

/-- The state with the root directory written and on the stack. -/
def enterRoot (env : ScanEnv ε) (target : ValidatedScanTarget) (root : RootAnswers)
    (data : FindData) (reparseTag : UInt32) : ScanStep ε ScanState := do
  let dir := rootDirectory target root data reparseTag
  let state ← writeRecord env (.directory dir)
    { ScanState.start with
      nextEntryId := 2
      totalDirectories := 1
      enumClass := (rootHandle root reparseTag).map (fun handle => probeEnumClass handle.probe) }
  return { addAllocated dir.allocatedSize state with
    stack := [{
      entryId := 1
      extendedPath := target.extendedPath
      displayPath := target.displayPath
      record := 0 }] }

/-- Traverse a validated target and write its observation records. -/
def scanDirectory (env : ScanEnv ε) (target : ValidatedScanTarget) (root : RootAnswers)
    (answers : List DirectoryAnswers) : Option (ScanEnd ε) :=
  if root.cancelled then some (settle env .cancelled ScanState.start)
  else
    match rootFacts root with
    | .error err => some (refuseTarget env target err (env.formatWin32Error err))
    | .ok (data, reparseTag) =>
        if isDirectory data.fileAttributes then
          match enterRoot env target root data reparseTag with
          | .error stopped => some (.failed stopped.1 stopped.2)
          | .ok state => scanLoop env answers state
        else
          some (refuseTarget env target errorPathNotFound "Target path is not a directory")

/-! ### Steps -/

/-- The state a scan ends in. -/
def ScanEnd.state : ScanEnd ε → ScanState
  | .returned _ state => state
  | .failed _ state => state

/-- A property of every state a step can leave behind, whether or not a record is refused. -/
structure Leaves (step : ScanStep ε ScanState) (holds : ScanState → Prop) : Prop where
  ok : ∀ next, step = .ok next → holds next
  error : ∀ stopped, step = .error stopped → holds stopped.2

namespace Leaves

variable {step : ScanStep ε ScanState} {next : ScanState → ScanStep ε ScanState}
  {holds : ScanState → Prop} {state : ScanState}

theorem pure (here : holds state) : Leaves (.ok state : ScanStep ε ScanState) holds where
  ok := by
    intro next same
    cases same
    exact here
  error := by
    intro stopped same
    cases same

theorem bind (first : Leaves step holds) (second : ∀ state, holds state → Leaves (next state) holds) :
    Leaves (step >>= next) holds := by
  cases step with
  | error stopped =>
      constructor
      · intro state same
        cases same
      · intro other same
        cases same
        exact first.error stopped rfl
  | ok state => exact second state (first.ok state rfl)

end Leaves

section Keeps

variable (env : ScanEnv ε) {holds : ScanState → Prop}

/-- A property that writing and counting entries leaves alone. -/
structure EntriesKeep (holds : ScanState → Prop) : Prop where
  emitted : ∀ state record, env.sink state.emitted.length record = none → holds state →
    holds { state with emitted := state.emitted ++ [record] }
  directories : ∀ state total, holds state → holds { state with totalDirectories := total }
  files : ∀ state total bytes, holds state →
    holds { state with totalFiles := total, totalLogicalBytes := bytes }
  allocated : ∀ state total, holds state → holds { state with totalAllocatedBytes := total }
  entryId : ∀ state entryId, holds state → holds { state with nextEntryId := entryId }
  stack : ∀ state stack, holds state → holds { state with stack }

/-- A property that writing and counting gaps leaves alone as well. -/
structure Untouched (holds : ScanState → Prop) : Prop extends EntriesKeep env holds where
  gaps : ∀ state count, holds state → holds { state with coverageGapCount := count }

section Entries

variable (untouched : EntriesKeep env holds)

include untouched

theorem writeRecord_keeps (record : ObservationRecord) {state : ScanState} (here : holds state) :
    Leaves (writeRecord env record state) holds := by
  unfold writeRecord
  split
  · constructor
    · intro next same
      cases same
    · intro stopped same
      cases same
      exact here
  · next passes => exact Leaves.pure (untouched.emitted _ _ passes here)

theorem addAllocated_keeps (allocatedSize : Option UInt64) {state : ScanState}
    (here : holds state) : holds (addAllocated allocatedSize state) := by
  cases allocatedSize with
  | none => exact here
  | some alloc => exact untouched.allocated _ _ here

theorem emitFact_keeps (currentDir : DirectoryStackItem) (fact : EntryFacts) {state : ScanState}
    (here : holds state) : Leaves (emitFact env currentDir fact state) holds := by
  have taken : holds (takeEntryId state) := untouched.entryId _ _ here
  unfold emitFact
  split
  · exact Leaves.pure here
  split
  · exact writeRecord_keeps env untouched _ taken
  split
  · apply Leaves.bind
    · exact writeRecord_keeps env untouched _ (untouched.directories _ _ taken)
    · intro next later
      apply Leaves.pure
      unfold pushChild
      split
      · exact addAllocated_keeps env untouched _ later
      · exact untouched.stack _ _ (addAllocated_keeps env untouched _ later)
  · apply Leaves.bind
    · exact writeRecord_keeps env untouched _ (untouched.files _ _ _ taken)
    · intro next later
      exact Leaves.pure (addAllocated_keeps env untouched _ later)

theorem emitFacts_keeps (currentDir : DirectoryStackItem) (facts : List EntryFacts)
    {state : ScanState} (here : holds state) :
    Leaves (emitFacts env currentDir facts state) holds := by
  induction facts generalizing state with
  | nil => exact Leaves.pure here
  | cons fact facts ih =>
      apply Leaves.bind
      · exact emitFact_keeps env untouched currentDir fact here
      · intro next later
        exact ih later

end Entries

variable (untouched : Untouched env holds)

include untouched

theorem recordGap_keeps (path : String) (errorCode : UInt32) (errorMessage : String)
    {state : ScanState} (here : holds state) :
    Leaves (recordGap env path errorCode errorMessage state) holds :=
  writeRecord_keeps env untouched.toEntriesKeep _ (untouched.gaps _ _ here)

theorem absorb_keeps (currentDir : DirectoryStackItem) (enumeration : DirEnumeration)
    {state : ScanState} (here : holds state) :
    Leaves (absorb env currentDir enumeration state) holds := by
  cases enumeration with
  | cancelled => exact Leaves.pure here
  | openFailed errorCode =>
      simp only [absorb]
      split
      · exact recordGap_keeps env untouched _ _ _ here
      · exact Leaves.pure here
  | incomplete facts errorCode =>
      apply Leaves.bind
      · exact recordGap_keeps env untouched _ _ _ here
      · intro next later
        exact emitFacts_keeps env untouched.toEntriesKeep currentDir facts later
  | success facts =>
      exact emitFacts_keeps env untouched.toEntriesKeep currentDir facts here

end Keeps

/-! ### Accepted records -/

/-- The state with one more record written. -/
def written (record : ObservationRecord) (state : ScanState) : ScanState :=
  { state with emitted := state.emitted ++ [record] }

theorem writeRecord_ok {env : ScanEnv ε} {record : ObservationRecord} {state next : ScanState}
    (ran : writeRecord env record state = .ok next) : next = written record state := by
  unfold writeRecord at ran
  split at ran
  · cases ran
  · cases ran
    rfl

theorem recordGap_ok {env : ScanEnv ε} {path errorMessage : String} {errorCode : UInt32}
    {state next : ScanState} (ran : recordGap env path errorCode errorMessage state = .ok next) :
    next = written (.coverageGap { path, errorCode, errorMessage })
      { state with coverageGapCount := state.coverageGapCount + 1 } :=
  writeRecord_ok ran

theorem addAllocated_eq (allocatedSize : Option UInt64) (state : ScanState) :
    addAllocated allocatedSize state = { state with
      totalAllocatedBytes := state.totalAllocatedBytes + allocatedSize.getD 0 } := by
  cases allocatedSize with
  | none => simp [addAllocated]
  | some alloc => rfl

/-- An accepted terminal record carries the running totals. -/
theorem settle_returned {env : ScanEnv ε} {outcome : RunOutcome} {last state : ScanState}
    {term : TerminalObservation} (settled : settle env outcome last = .returned term state) :
    term = {
      outcome
      totalDirectories := last.totalDirectories
      totalFiles := last.totalFiles
      totalLogicalBytes := last.totalLogicalBytes
      totalAllocatedBytes := last.totalAllocatedBytes
      coverageGapCount := last.coverageGapCount
      durationMs := env.durationMs } ∧ state = written (.terminal term) last := by
  unfold settle at settled
  dsimp only at settled
  split at settled
  · cases settled
  · next passes =>
      cases settled
      exact ⟨rfl, writeRecord_ok passes⟩

/-- What one fact does to a scan whose records are accepted. -/
inductive Emits (currentDir : DirectoryStackItem) (fact : EntryFacts) (state : ScanState) :
    ScanState → Prop
  | skipped (dot : isDotName fact.name = true) : Emits currentDir fact state state
  | special (named : isDotName fact.name = false) (device : isDevice fact.fileAttributes = true) :
      Emits currentDir fact state
        (written (.special (specialOf state.nextEntryId currentDir.entryId fact))
          (takeEntryId state))
  | directory (named : isDotName fact.name = false)
      (notDevice : isDevice fact.fileAttributes = false)
      (isDir : isDirectory fact.fileAttributes = true) :
      Emits currentDir fact state
        (pushChild currentDir state.nextEntryId state.emitted.length fact
          (addAllocated fact.allocatedSize
            (written (.directory (directoryOf state.nextEntryId currentDir.entryId fact))
              { takeEntryId state with totalDirectories := state.totalDirectories + 1 })))
  | file (named : isDotName fact.name = false)
      (notDevice : isDevice fact.fileAttributes = false)
      (notDir : isDirectory fact.fileAttributes = false) :
      Emits currentDir fact state
        (addAllocated fact.allocatedSize
          (written (.file (fileOf state.nextEntryId currentDir.entryId fact))
            { takeEntryId state with
              totalFiles := state.totalFiles + 1
              totalLogicalBytes := state.totalLogicalBytes + fact.logicalSize }))

theorem bind_eq_ok {step : ScanStep ε ScanState} {next : ScanState → ScanStep ε ScanState}
    {last : ScanState} : step >>= next = .ok last ↔ ∃ state, step = .ok state ∧ next state = .ok last := by
  cases step with
  | error stopped =>
      constructor
      · intro impossible
        cases impossible
      · rintro ⟨state, impossible, _⟩
        cases impossible
  | ok state =>
      constructor
      · intro ran
        exact ⟨state, rfl, ran⟩
      · rintro ⟨other, same, ran⟩
        cases same
        exact ran

theorem emitFact_ok {env : ScanEnv ε} {currentDir : DirectoryStackItem} {fact : EntryFacts}
    {state next : ScanState} (ran : emitFact env currentDir fact state = .ok next) :
    Emits currentDir fact state next := by
  unfold emitFact at ran
  by_cases dot : isDotName fact.name = true
  · rw [if_pos dot] at ran
    cases ran
    exact Emits.skipped dot
  rw [if_neg dot] at ran
  have named := Bool.eq_false_of_not_eq_true dot
  dsimp only at ran
  by_cases device : isDevice fact.fileAttributes = true
  · rw [if_pos device] at ran
    rw [writeRecord_ok ran]
    exact Emits.special named device
  rw [if_neg device] at ran
  have notDevice := Bool.eq_false_of_not_eq_true device
  by_cases isDir : isDirectory fact.fileAttributes = true
  · rw [if_pos isDir, bind_eq_ok] at ran
    rcases ran with ⟨wrote, ran, result⟩
    cases result
    rw [writeRecord_ok ran]
    exact Emits.directory named notDevice isDir
  · rw [if_neg isDir, bind_eq_ok] at ran
    rcases ran with ⟨wrote, ran, result⟩
    cases result
    rw [writeRecord_ok ran]
    exact Emits.file named notDevice (Bool.eq_false_of_not_eq_true isDir)

/-- What every fact keeps, a list of facts keeps. -/
theorem emitFacts_ok {env : ScanEnv ε} {currentDir : DirectoryStackItem}
    {holds : ScanState → Prop}
    (keeps : ∀ fact state next, holds state → Emits currentDir fact state next → holds next)
    {facts : List EntryFacts} {state next : ScanState} (here : holds state)
    (ran : emitFacts env currentDir facts state = .ok next) : holds next := by
  induction facts generalizing state with
  | nil =>
      cases ran
      exact here
  | cons fact facts ih =>
      rw [emitFacts, bind_eq_ok] at ran
      rcases ran with ⟨later, emitted, ran⟩
      exact ih (keeps fact state later here (emitFact_ok emitted)) ran

/-! ### Runs -/

section Turns

variable {env : ScanEnv ε} {answer : DirectoryAnswers} {state : ScanState}
  {currentDir : DirectoryStackItem} {stack : List DirectoryStackItem}
  {enumeration : DirEnumeration}

theorem scanLoop_finished (answers : List DirectoryAnswers) (exhausted : state.stack = []) :
    scanLoop env answers state = some (settle env .finished state) := by
  rw [scanLoop.eq_def, exhausted]

theorem scanLoop_waits (top : state.stack = currentDir :: stack) : scanLoop env [] state = none := by
  rw [scanLoop, top]

theorem scanLoop_cancelledBefore (rest : List DirectoryAnswers)
    (top : state.stack = currentDir :: stack) (stops : answer.cancelled = true) :
    scanLoop env (answer :: rest) state = some (settle env .cancelled { state with stack }) := by
  rw [scanLoop, top]
  exact if_pos stops

theorem scanLoop_unanswered (rest : List DirectoryAnswers)
    (top : state.stack = currentDir :: stack) (goesOn : answer.cancelled = false)
    (unanswered : answer.enumerate (selectClass state.enumClass answer.handle).1 = none) :
    scanLoop env (answer :: rest) state = none := by
  rw [scanLoop, top]
  dsimp only
  rw [goesOn, if_neg Bool.false_ne_true, unanswered]

theorem scanLoop_cancelledWithin (rest : List DirectoryAnswers)
    (top : state.stack = currentDir :: stack) (goesOn : answer.cancelled = false)
    (answered : answer.enumerate (selectClass state.enumClass answer.handle).1 =
      some .cancelled) :
    scanLoop env (answer :: rest) state = some (settle env .cancelled
      (visited state stack currentDir (selectClass state.enumClass answer.handle) .cancelled)) := by
  rw [scanLoop, top]
  dsimp only
  rw [goesOn, if_neg Bool.false_ne_true, answered]
  exact if_pos rfl

theorem scanLoop_refused (rest : List DirectoryAnswers) {stopped : ε × ScanState}
    (top : state.stack = currentDir :: stack) (goesOn : answer.cancelled = false)
    (answered : answer.enumerate (selectClass state.enumClass answer.handle).1 = some enumeration)
    (complete : enumeration ≠ .cancelled)
    (fails : absorb env currentDir enumeration
      (visited state stack currentDir (selectClass state.enumClass answer.handle) enumeration) =
        .error stopped) :
    scanLoop env (answer :: rest) state = some (.failed stopped.1 stopped.2) := by
  rw [scanLoop, top]
  dsimp only
  rw [goesOn, if_neg Bool.false_ne_true, answered]
  dsimp only
  rw [if_neg complete, fails]

theorem scanLoop_turns (rest : List DirectoryAnswers) {next : ScanState}
    (top : state.stack = currentDir :: stack) (goesOn : answer.cancelled = false)
    (answered : answer.enumerate (selectClass state.enumClass answer.handle).1 = some enumeration)
    (complete : enumeration ≠ .cancelled)
    (absorbed : absorb env currentDir enumeration
      (visited state stack currentDir (selectClass state.enumClass answer.handle) enumeration) =
        .ok next) :
    scanLoop env (answer :: rest) state = scanLoop env rest next := by
  rw [scanLoop, top]
  dsimp only
  rw [goesOn, if_neg Bool.false_ne_true, answered]
  dsimp only
  rw [if_neg complete, absorbed]

end Turns

/-- How the traversal ends when every directory keeps `holds`. -/
inductive LoopEnds (env : ScanEnv ε) (holds : ScanState → Prop) : ScanEnd ε → Prop
  | finished {last : ScanState} (here : holds last) (exhausted : last.stack = []) :
      LoopEnds env holds (settle env .finished last)
  | cancelledBefore {last : ScanState} {currentDir : DirectoryStackItem}
      {stack : List DirectoryStackItem} (here : holds last)
      (top : last.stack = currentDir :: stack) :
      LoopEnds env holds (settle env .cancelled { last with stack })
  | cancelledWithin {last : ScanState} {currentDir : DirectoryStackItem}
      {stack : List DirectoryStackItem} (handle : Option (Except UInt32 Unit)) (here : holds last)
      (top : last.stack = currentDir :: stack) :
      LoopEnds env holds (settle env .cancelled
        (visited last stack currentDir (selectClass last.enumClass handle) .cancelled))
  | refused {last : ScanState} {currentDir : DirectoryStackItem}
      {stack : List DirectoryStackItem} {enumeration : DirEnumeration} {err : ε}
      {state : ScanState} (handle : Option (Except UInt32 Unit)) (here : holds last)
      (top : last.stack = currentDir :: stack)
      (fails : absorb env currentDir enumeration
        (visited last stack currentDir (selectClass last.enumClass handle) enumeration) =
          .error (err, state)) :
      LoopEnds env holds (.failed err state)

/-- The traversal ends in a state that keeps what every directory keeps. -/
theorem scanLoop_ends {env : ScanEnv ε} {holds : ScanState → Prop}
    (keeps : ∀ state currentDir stack handle enumeration next, holds state →
      state.stack = currentDir :: stack → enumeration ≠ .cancelled →
      absorb env currentDir enumeration
        (visited state stack currentDir (selectClass state.enumClass handle) enumeration) =
          .ok next → holds next)
    {answers : List DirectoryAnswers} {state : ScanState} {ended : ScanEnd ε} (here : holds state)
    (ran : scanLoop env answers state = some ended) : LoopEnds env holds ended := by
  induction answers generalizing state with
  | nil =>
      unfold scanLoop at ran
      cases top : state.stack with
      | nil =>
          simp only [top, Option.some.injEq] at ran
          subst ran
          exact LoopEnds.finished here top
      | cons currentDir stack => simp only [top, reduceCtorEq] at ran
  | cons answer rest ih =>
      unfold scanLoop at ran
      cases top : state.stack with
      | nil =>
          simp only [top, Option.some.injEq] at ran
          subst ran
          exact LoopEnds.finished here top
      | cons currentDir stack =>
          simp only [top] at ran
          by_cases stops : answer.cancelled = true
          · simp only [if_pos stops, Option.some.injEq] at ran
            subst ran
            exact LoopEnds.cancelledBefore here top
          simp only [if_neg stops] at ran
          cases answered : answer.enumerate (selectClass state.enumClass answer.handle).1 with
          | none => simp only [answered, reduceCtorEq] at ran
          | some enumeration =>
              simp only [answered] at ran
              by_cases within : enumeration = .cancelled
              · subst within
                simp only [if_pos, Option.some.injEq] at ran
                subst ran
                exact LoopEnds.cancelledWithin answer.handle here top
              simp only [if_neg within] at ran
              cases absorbed : absorb env currentDir enumeration (visited state stack currentDir
                  (selectClass state.enumClass answer.handle) enumeration) with
              | error stopped =>
                  simp only [absorbed, Option.some.injEq] at ran
                  subst ran
                  exact LoopEnds.refused answer.handle here top absorbed
              | ok next =>
                  simp only [absorbed] at ran
                  exact ih (keeps _ _ _ _ _ _ here top within absorbed) ran

/-- How a scan ends when entering the root and every directory keep `holds`. -/
inductive ScanEnds (env : ScanEnv ε) (target : ValidatedScanTarget) (root : RootAnswers)
    (holds : ScanState → Prop) : ScanEnd ε → Prop
  | cancelled (early : root.cancelled = true) :
      ScanEnds env target root holds (settle env .cancelled ScanState.start)
  | refused (errorCode : UInt32) (errorMessage : String) (goesOn : root.cancelled = false)
      (text : errorMessage = env.formatWin32Error errorCode ∨
        errorMessage = "Target path is not a directory") :
      ScanEnds env target root holds (refuseTarget env target errorCode errorMessage)
  | rootRefused {data : FindData} {reparseTag : UInt32} {err : ε} {state : ScanState}
      (goesOn : root.cancelled = false)
      (fails : enterRoot env target root data reparseTag = .error (err, state)) :
      ScanEnds env target root holds (.failed err state)
  | traversed {ended : ScanEnd ε} (ends : LoopEnds env holds ended) :
      ScanEnds env target root holds ended

theorem scanDirectory_ends {env : ScanEnv ε} {target : ValidatedScanTarget} {root : RootAnswers}
    {holds : ScanState → Prop}
    (enters : ∀ data reparseTag state, rootFacts root = .ok (data, reparseTag) →
      enterRoot env target root data reparseTag = .ok state → holds state)
    (keeps : ∀ state currentDir stack handle enumeration next, holds state →
      state.stack = currentDir :: stack → enumeration ≠ .cancelled →
      absorb env currentDir enumeration
        (visited state stack currentDir (selectClass state.enumClass handle) enumeration) =
          .ok next → holds next)
    {answers : List DirectoryAnswers} {ended : ScanEnd ε}
    (ran : scanDirectory env target root answers = some ended) :
    ScanEnds env target root holds ended := by
  unfold scanDirectory at ran
  split at ran
  · next early =>
      cases ran
      exact ScanEnds.cancelled early
  next late =>
  have goesOn := Bool.eq_false_of_not_eq_true late
  split at ran
  · cases ran
    exact ScanEnds.refused _ _ goesOn (Or.inl rfl)
  · next data reparseTag observed =>
      split at ran
      · split at ran
        · next stopped fails =>
            cases ran
            exact ScanEnds.rootRefused goesOn fails
        · next state entered =>
            apply ScanEnds.traversed
            exact scanLoop_ends keeps (enters data reparseTag state observed entered) ran
      · cases ran
        exact ScanEnds.refused _ _ goesOn (Or.inr rfl)

section KeepsRun

variable {env : ScanEnv ε} {holds : ScanState → Prop} (untouched : Untouched env holds)

include untouched

theorem settle_keeps (outcome : RunOutcome) {state : ScanState} (here : holds state) :
    holds (settle env outcome state).state := by
  have written := writeRecord_keeps env untouched.toEntriesKeep
    (.terminal {
      outcome, totalDirectories := state.totalDirectories, totalFiles := state.totalFiles
      totalLogicalBytes := state.totalLogicalBytes
      totalAllocatedBytes := state.totalAllocatedBytes
      coverageGapCount := state.coverageGapCount, durationMs := env.durationMs }) here
  unfold settle
  dsimp only
  split
  · next stopped fails => exact written.error stopped fails
  · next state passes => exact written.ok state passes

theorem refuseTarget_keeps (target : ValidatedScanTarget) (errorCode : UInt32)
    (errorMessage : String) (first : holds ScanState.start) :
    holds (refuseTarget env target errorCode errorMessage).state := by
  have recorded := recordGap_keeps env untouched target.displayPath errorCode errorMessage first
  unfold refuseTarget
  split
  · next stopped fails => exact recorded.error stopped fails
  · next state passes => exact settle_keeps untouched .failed (recorded.ok state passes)

theorem enterRoot_keeps (target : ValidatedScanTarget) (root : RootAnswers) (data : FindData)
    (reparseTag : UInt32) (first : ∀ enumClass, holds { ScanState.start with enumClass }) :
    Leaves (enterRoot env target root data reparseTag) holds := by
  have counted := untouched.directories _ 1 (untouched.entryId _ 2
    (first ((rootHandle root reparseTag).map (fun handle => probeEnumClass handle.probe))))
  apply Leaves.bind
  · exact writeRecord_keeps env untouched.toEntriesKeep _ counted
  · intro state later
    apply Leaves.pure
    exact untouched.stack _ _ (addAllocated_keeps env untouched.toEntriesKeep _ later)

/-- What the records and totals do not touch, and no visit breaks, holds when a scan ends. -/
theorem scanDirectory_keeps {target : ValidatedScanTarget} {root : RootAnswers}
    {answers : List DirectoryAnswers} {ended : ScanEnd ε}
    (first : ∀ enumClass, holds { ScanState.start with enumClass })
    (visits : ∀ state currentDir stack handle enumeration, holds state →
      holds (visited state stack currentDir (selectClass state.enumClass handle) enumeration))
    (ran : scanDirectory env target root answers = some ended) : holds ended.state := by
  have ends : ScanEnds env target root holds ended := by
    refine scanDirectory_ends ?_ ?_ ran
    · intro data reparseTag state _ entered
      exact (enterRoot_keeps untouched target root data reparseTag first).ok state entered
    · intro state currentDir stack handle enumeration next here _ _ absorbed
      exact (absorb_keeps env untouched currentDir enumeration
        (visits state currentDir stack handle enumeration here)).ok next absorbed
  cases ends with
  | cancelled early => exact settle_keeps untouched .cancelled (first none)
  | refused errorCode errorMessage goesOn text =>
      exact refuseTarget_keeps untouched target errorCode errorMessage (first none)
  | rootRefused goesOn fails => exact (enterRoot_keeps untouched target root _ _ first).error _ fails
  | traversed ends =>
      cases ends with
      | finished here exhausted => exact settle_keeps untouched .finished here
      | cancelledBefore here top =>
          exact settle_keeps untouched .cancelled (untouched.stack _ _ here)
      | cancelledWithin handle here top =>
          exact settle_keeps untouched .cancelled (visits _ _ _ handle _ here)
      | refused handle here top fails =>
          exact (absorb_keeps env untouched _ _ (visits _ _ _ handle _ here)).error _ fails

end KeepsRun

/-- What is said about visits alone, emitting entries and gaps leaves alone. -/
theorem untouched_visits (env : ScanEnv ε) (visits : List Visit) :
    Untouched env (fun state => state.visits = visits) where
  emitted := fun _ _ _ here => here
  directories := fun _ _ here => here
  files := fun _ _ _ here => here
  allocated := fun _ _ here => here
  entryId := fun _ _ here => here
  stack := fun _ _ here => here
  gaps := fun _ _ here => here

theorem untouched_enumClass (env : ScanEnv ε) (enumClass : Option EnumClass) :
    Untouched env (fun state => state.enumClass = enumClass) where
  emitted := fun _ _ _ here => here
  directories := fun _ _ here => here
  files := fun _ _ _ here => here
  allocated := fun _ _ here => here
  entryId := fun _ _ here => here
  stack := fun _ _ here => here
  gaps := fun _ _ here => here

theorem settle_visits (env : ScanEnv ε) (outcome : RunOutcome) (state : ScanState) :
    (settle env outcome state).state.visits = state.visits :=
  settle_keeps (untouched_visits env state.visits) outcome rfl

theorem absorb_visits {env : ScanEnv ε} {currentDir : DirectoryStackItem}
    {enumeration : DirEnumeration} {state : ScanState} :
    Leaves (absorb env currentDir enumeration state) (fun next => next.visits = state.visits) :=
  absorb_keeps env (untouched_visits env state.visits) currentDir enumeration rfl

theorem absorb_enumClass {env : ScanEnv ε} {currentDir : DirectoryStackItem}
    {enumeration : DirEnumeration} {state : ScanState} :
    Leaves (absorb env currentDir enumeration state)
      (fun next => next.enumClass = state.enumClass) :=
  absorb_keeps env (untouched_enumClass env state.enumClass) currentDir enumeration rfl

theorem rootClass_eq {root : RootAnswers} {data : FindData} {reparseTag : UInt32}
    (observed : rootFacts root = .ok (data, reparseTag)) :
    rootClass root = (rootHandle root reparseTag).map (fun handle => probeEnumClass handle.probe) := by
  rw [rootClass, rootProbe, observed, Option.map_map]
  rfl

/-- The state a traversal starts in. -/
theorem enterRoot_ok {env : ScanEnv ε} {target : ValidatedScanTarget} {root : RootAnswers}
    {data : FindData} {reparseTag : UInt32} {state : ScanState}
    (entered : enterRoot env target root data reparseTag = .ok state) :
    state.visits = [] ∧
      state.enumClass =
        (rootHandle root reparseTag).map (fun handle => probeEnumClass handle.probe) ∧
      state.stack = [{
        entryId := 1
        extendedPath := target.extendedPath
        displayPath := target.displayPath
        record := 0 }] := by
  rw [enterRoot, bind_eq_ok] at entered
  rcases entered with ⟨wrote, ran, result⟩
  cases result
  rw [writeRecord_ok ran, addAllocated_eq]
  exact ⟨rfl, rfl, rfl⟩

/-! ### Answers -/

namespace Sample

/-- Surroundings in which every record is accepted. -/
def env : ScanEnv Unit where
  formatWin32Error := fun _ => "Win32 error"
  durationMs := 1
  sink := fun _ _ => none

def target : ValidatedScanTarget where
  displayPath := "C:\\data"
  extendedPath := "\\\\?\\C:\\data"

def findData (fileAttributes reserved0 : UInt32) : FindData where
  fileAttributes := fileAttributes
  reserved0 := reserved0
  creationTime := 0
  lastWriteTime := 0
  lastAccessTime := 0

def root (fileAttributes reserved0 : UInt32) : RootAnswers where
  cancelled := false
  findFirst := some (findData fileAttributes reserved0)
  attributes := .error 5
  volume := { guid := none, hardlinkCapable := true }
  handle := some { probe := .ok (), allocationSize := none, fileId := none }

def fact (name : String) (fileAttributes : UInt32) (logicalSize : UInt64) : EntryFacts where
  name := name
  fileAttributes := fileAttributes
  reparseTag := 0
  creationTimeUtcMs := 0
  lastWriteTimeUtcMs := 0
  lastAccessTimeUtcMs := 0
  logicalSize := logicalSize
  allocatedSize := none
  objectId := none
  totalLinkCount := .notObserved

/-- A directory whose handle opens and which the batched backend lists in one batch. -/
def batched (facts : List EntryFacts) : DirectoryAnswers where
  cancelled := false
  handle := some (.ok ())
  batched := {
    opened := .ok ()
    turns := [
      { cancelled := false, answer := .ok (some facts) },
      { cancelled := false, answer := .error errorNoMoreFiles }] }
  legacy := { first := .error errorFileNotFound, turns := [] }

/-- A directory whose handle does not open but which the find-file backend lists. -/
def fallback (first : EntryFacts) : DirectoryAnswers where
  cancelled := false
  handle := none
  batched := { opened := .error 5, turns := [] }
  legacy := {
    first := .ok first
    turns := [{ cancelled := false, next := .error errorNoMoreFiles }] }

/-- A directory whose handle opens for the probe but not for the batched backend. -/
def unopened (errorCode : UInt32) : DirectoryAnswers where
  cancelled := false
  handle := some (.ok ())
  batched := { opened := .error errorCode, turns := [] }
  legacy := { first := .error errorCode, turns := [] }

end Sample

end Worker

end PigTree
