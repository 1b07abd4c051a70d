import PigTree.Protocol.Observation

/-!
# Enumerating one directory

The worker lists a directory with the batched information class or, where a
filesystem lacks it, with the find-file calls. What the operating system answers is
a parameter: a call answers with data or with an error code, and cancellation can be
observed between calls. A directory is listed in full, in part, not at all, or the
scan is cancelled.
-/

namespace PigTree

namespace Worker

def errorFileNotFound : UInt32 := 2

def errorPathNotFound : UInt32 := 3

def errorInvalidData : UInt32 := 13

def errorNoMoreFiles : UInt32 := 18

def errorInsufficientBuffer : UInt32 := 122

def fileAttributeDirectory : UInt32 := 0x10

def fileAttributeDevice : UInt32 := 0x40

def fileAttributeReparsePoint : UInt32 := 0x400

def enumBufferInitialBytes : ℕ := 64 * 1024

def enumBufferMaxBytes : ℕ := 16 * 1024 * 1024

/-- The codes with which an enumeration ends normally. -/
def isEndOfEnumeration (errorCode : UInt32) : Bool :=
  errorCode = errorNoMoreFiles ∨ errorCode = errorFileNotFound

/-- Directory enumeration strategy for a scan. -/
inductive EnumClass where
  | extd
  | legacy
deriving DecidableEq, Repr

/-- Per-entry facts collected by either enumeration backend before emission. -/
structure EntryFacts where
  name : String
  fileAttributes : UInt32
  reparseTag : UInt32
  creationTimeUtcMs : UInt64
  lastWriteTimeUtcMs : UInt64
  lastAccessTimeUtcMs : UInt64
  logicalSize : UInt64
  allocatedSize : Option UInt64
  objectId : Option ObjectIdentity
  totalLinkCount : ValueKnowledge UInt32
deriving DecidableEq, Repr

/-- Outcome of enumerating one directory with a backend. -/
inductive DirEnumeration where
  | success (facts : List EntryFacts)
  | openFailed (errorCode : UInt32)
  | incomplete (facts : List EntryFacts) (errorCode : UInt32)
  | cancelled
deriving DecidableEq, Repr

/-- The entries an enumeration returned. -/
def DirEnumeration.facts : DirEnumeration → List EntryFacts
  | .success facts => facts
  | .incomplete facts _ => facts
  | .openFailed _ => []
  | .cancelled => []

/-- Probe whether an open handle's filesystem supports the batched class. -/
def probeEnumClass (query : Except UInt32 Unit) : EnumClass :=
  match query with
  | .ok () => .extd
  | .error err =>
      if err = errorInsufficientBuffer ∨ err = errorNoMoreFiles ∨ err = errorFileNotFound then
        .extd
      else .legacy

/-! ### The batched backend -/

/-- One turn of the batched loop: whether cancellation was observed, and what the query
answered; a filled buffer is parsed into entries or found malformed. -/
structure BatchTurn where
  cancelled : Bool
  answer : Except UInt32 (Option (List EntryFacts))
deriving DecidableEq

/-- Query batch after batch; nothing is known when the turns run out. -/
def batchedLoop (bufLen : ℕ) (facts : List EntryFacts) : List BatchTurn → Option DirEnumeration
  | [] => none
  | turn :: turns =>
      if turn.cancelled then some .cancelled
      else
        match turn.answer with
        | .error err =>
            if err = errorInsufficientBuffer ∧ bufLen < enumBufferMaxBytes then
              batchedLoop (bufLen * 2) facts turns
            else if isEndOfEnumeration err then some (.success facts)
            else some (.incomplete facts err)
        | .ok (some batch) =>
            if batch.isEmpty then some (.success (facts ++ batch))
            else batchedLoop bufLen (facts ++ batch) turns
        | .ok none => some (.incomplete facts errorInvalidData)

/-- What the batched backend meets: whether the directory opens, and the turns. -/
structure BatchedAnswers where
  opened : Except UInt32 Unit
  turns : List BatchTurn
deriving DecidableEq

def enumerateDirectoryBatched (answers : BatchedAnswers) : Option DirEnumeration :=
  match answers.opened with
  | .error errorCode => some (.openFailed errorCode)
  | .ok () => batchedLoop enumBufferInitialBytes [] answers.turns

/-! ### The find-file backend -/

/-- One turn of the find-file loop: whether cancellation was observed, and the entry
after the current one. -/
structure FindTurn where
  cancelled : Bool
  next : Except UInt32 EntryFacts
deriving DecidableEq

def isDotName (name : String) : Bool := name = "." ∨ name = ".."

def legacyLoop (current : EntryFacts) (facts : List EntryFacts) :
    List FindTurn → Option DirEnumeration
  | [] => none
  | turn :: turns =>
      if turn.cancelled then some .cancelled
      else
        let facts := if isDotName current.name then facts else facts ++ [current]
        match turn.next with
        | .error err =>
            if isEndOfEnumeration err then some (.success facts)
            else some (.incomplete facts err)
        | .ok following => legacyLoop following facts turns

/-- What the find-file backend meets: the first entry, and the turns. -/
structure LegacyAnswers where
  first : Except UInt32 EntryFacts
  turns : List FindTurn
deriving DecidableEq

def enumerateDirectoryLegacy (answers : LegacyAnswers) : Option DirEnumeration :=
  match answers.first with
  | .error errorCode =>
      if isEndOfEnumeration errorCode then some (.success [])
      else some (.openFailed errorCode)
  | .ok first => legacyLoop first [] answers.turns

/-! ### One directory of a scan -/

/-- What one directory of the traversal meets: cancellation before it, the handle opened
to probe the class (with the answer to the probe), and either backend. -/
structure DirectoryAnswers where
  cancelled : Bool
  handle : Option (Except UInt32 Unit)
  batched : BatchedAnswers
  legacy : LegacyAnswers
deriving DecidableEq

def DirectoryAnswers.enumerate (answers : DirectoryAnswers) : EnumClass → Option DirEnumeration
  | .extd => enumerateDirectoryBatched answers.batched
  | .legacy => enumerateDirectoryLegacy answers.legacy

end Worker

end PigTree
