import PigTree.Foundation.ByteWriter
import PigTree.Protocol.Observation

/-!
# The observation stream

The worker writes a magic number, the stream version and the target path, then one
tagged little-endian record after the other; the engine reads them back. Version 1
streams lack allocation, identity and link fields and are only read.
-/

namespace PigTree

open Foundation

/-! ### Tags -/

def workerMagic : List UInt8 := [0x50, 0x54, 0x57, 0x4F]

def workerStreamVersionV1 : ℕ := 1

def workerStreamVersionV2 : ℕ := 2

def workerStreamVersion : ℕ := workerStreamVersionV2

inductive ObservationDecodeError where
  | prematureEof
  | invalidMagic (found : List UInt8)
  | unsupportedVersion (version : ℕ)
  | invalidRecordTag (tag : UInt8)
  | invalidUtf8
  | invalidOutcome (outcome : UInt8)
  | invalidValueKnowledgeTag (tag : UInt8)
  | invalidBooleanTag (tag : UInt8)
deriving DecidableEq, Repr

/-- An `InvalidInput` error: a string too long for its length field. -/
inductive ObservationWriteError where
  | stringTooLong (length : ℕ)
deriving DecidableEq, Repr

inductive RecordTag where
  | directory
  | file
  | specialObject
  | coverageGap
  | terminal
  | contentStream
deriving DecidableEq, Repr

namespace RecordTag

def toU8 : RecordTag → UInt8
  | .directory => 0x01
  | .file => 0x02
  | .specialObject => 0x03
  | .coverageGap => 0x04
  | .terminal => 0x05
  | .contentStream => 0x06

def fromU8 (val : UInt8) : Except ObservationDecodeError RecordTag :=
  if val = 0x01 then .ok .directory
  else if val = 0x02 then .ok .file
  else if val = 0x03 then .ok .specialObject
  else if val = 0x04 then .ok .coverageGap
  else if val = 0x05 then .ok .terminal
  else if val = 0x06 then .ok .contentStream
  else .error (.invalidRecordTag val)

end RecordTag

namespace RunOutcome

def toU8 : RunOutcome → UInt8
  | .finished => 0
  | .cancelled => 1
  | .failed => 2

def fromU8 (val : UInt8) : Except ObservationDecodeError RunOutcome :=
  if val = 0 then .ok .finished
  else if val = 1 then .ok .cancelled
  else if val = 2 then .ok .failed
  else .error (.invalidOutcome val)

end RunOutcome

/-! ### Writing -/

abbrev ObservationOutput : Type := ByteWriter ObservationWriteError Unit

open ByteWriter (writeAll)

/-- The bytes of a string. -/
def utf8Bytes (s : String) : List UInt8 := s.toUTF8.data.toList

def writeU16Str (s : String) : ObservationOutput := do
  let bytes := utf8Bytes s
  if bytes.length > 65535 then ByteWriter.fail (.stringTooLong bytes.length)
  else
    writeAll (leBytes 2 bytes.length)
    writeAll bytes

def writeObjectIdentity (oid : Option ObjectIdentity) : ObservationOutput :=
  match oid with
  | some id => do
      writeAll [1]
      writeAll id.volumeGuid.toList
      writeAll (leBytes 16 id.fileId.toNat)
  | none => writeAll [0]

def writeLinkKnowledge (knowledge : ValueKnowledge UInt32) : ObservationOutput :=
  match knowledge with
  | .notObserved => do
      writeAll [0]
      writeAll (leBytes 4 0)
  | .known count => do
      writeAll [1]
      writeAll (leBytes 4 count.toNat)
  | .unavailable => do
      writeAll [2]
      writeAll (leBytes 4 0)
  | .notApplicable => do
      writeAll [3]
      writeAll (leBytes 4 0)

/-- The allocation fields of a directory or file: a flag and always eight bytes. -/
def writeAllocatedSize (allocatedSize : Option UInt64) : ObservationOutput :=
  match allocatedSize with
  | some alloc => do
      writeAll [1]
      writeAll (leBytes 8 alloc.toNat)
  | none => do
      writeAll [0]
      writeAll (leBytes 8 0)

/-- The allocation fields of a content stream: eight bytes only after a set flag. -/
def writeStreamAllocatedSize (allocatedSize : Option UInt64) : ObservationOutput :=
  match allocatedSize with
  | some alloc => do
      writeAll [1]
      writeAll (leBytes 8 alloc.toNat)
  | none => writeAll [0]

namespace ObservationWriter

/-- Start a stream for a target. -/
def new (targetPath : String) : ObservationOutput := do
  writeAll workerMagic
  writeAll (leBytes 2 workerStreamVersion)
  writeU16Str targetPath

def writeDirectory (dir : DirectoryObservation) : ObservationOutput := do
  writeAll [RecordTag.directory.toU8]
  writeAll (leBytes 4 dir.entryId.toNat)
  writeAll (leBytes 4 dir.parentId.toNat)
  writeAll (leBytes 4 dir.fileAttributes.toNat)
  writeAll (leBytes 4 dir.reparseTag.toNat)
  writeAll (leBytes 8 dir.creationTimeUtcMs.toNat)
  writeAll (leBytes 8 dir.lastWriteTimeUtcMs.toNat)
  writeAll (leBytes 8 dir.lastAccessTimeUtcMs.toNat)
  writeAllocatedSize dir.allocatedSize
  writeObjectIdentity dir.objectId
  writeLinkKnowledge dir.totalLinkCount
  writeU16Str dir.name

def writeFile (file : FileObservation) : ObservationOutput := do
  writeAll [RecordTag.file.toU8]
  writeAll (leBytes 4 file.entryId.toNat)
  writeAll (leBytes 4 file.parentId.toNat)
  writeAll (leBytes 8 file.logicalSize.toNat)
  writeAllocatedSize file.allocatedSize
  writeAll (leBytes 4 file.fileAttributes.toNat)
  writeAll (leBytes 4 file.reparseTag.toNat)
  writeAll (leBytes 8 file.creationTimeUtcMs.toNat)
  writeAll (leBytes 8 file.lastWriteTimeUtcMs.toNat)
  writeAll (leBytes 8 file.lastAccessTimeUtcMs.toNat)
  writeObjectIdentity file.objectId
  writeLinkKnowledge file.totalLinkCount
  writeU16Str file.name

def writeSpecial (special : SpecialObservation) : ObservationOutput := do
  writeAll [RecordTag.specialObject.toU8]
  writeAll (leBytes 4 special.entryId.toNat)
  writeAll (leBytes 4 special.parentId.toNat)
  writeAll (leBytes 4 special.fileAttributes.toNat)
  writeAll (leBytes 4 special.reparseTag.toNat)
  writeAll (leBytes 8 special.creationTimeUtcMs.toNat)
  writeAll (leBytes 8 special.lastWriteTimeUtcMs.toNat)
  writeAll (leBytes 8 special.lastAccessTimeUtcMs.toNat)
  writeObjectIdentity special.objectId
  writeU16Str special.name

def writeStream (stream : StreamObservation) : ObservationOutput := do
  writeAll [RecordTag.contentStream.toU8]
  writeAll (leBytes 4 stream.parentEntryId.toNat)
  writeAll (leBytes 8 stream.logicalSize.toNat)
  writeStreamAllocatedSize stream.allocatedSize
  writeU16Str stream.name

def writeCoverageGap (gap : CoverageGapObservation) : ObservationOutput := do
  writeAll [RecordTag.coverageGap.toU8]
  writeAll (leBytes 4 gap.errorCode.toNat)
  writeU16Str gap.path
  writeU16Str gap.errorMessage

def writeTerminal (term : TerminalObservation) : ObservationOutput := do
  writeAll [RecordTag.terminal.toU8]
  writeAll [term.outcome.toU8]
  writeAll (leBytes 8 term.totalDirectories.toNat)
  writeAll (leBytes 8 term.totalFiles.toNat)
  writeAll (leBytes 8 term.totalLogicalBytes.toNat)
  writeAll (leBytes 8 term.totalAllocatedBytes.toNat)
  writeAll (leBytes 4 term.coverageGapCount.toNat)
  writeAll (leBytes 8 term.durationMs.toNat)

/-- The write call that matches a record. -/
def writeRecord : ObservationRecord → ObservationOutput
  | .directory dir => writeDirectory dir
  | .file file => writeFile file
  | .special special => writeSpecial special
  | .contentStream stream => writeStream stream
  | .coverageGap gap => writeCoverageGap gap
  | .terminal term => writeTerminal term

/-- A whole stream: the header and the records in order. -/
def writeStreamOf (targetPath : String) (records : List ObservationRecord) :
    ObservationOutput := do
  new targetPath
  ForM.forM records writeRecord

end ObservationWriter

/-! ### Reading -/

abbrev ObservationInput (α : Type) : Type := ByteReader ObservationDecodeError α

/-- Fill a buffer of a fixed size. -/
def readFixed (count : ℕ) : ObservationInput (List UInt8) :=
  ByteReader.readExact .prematureEof count

/-- The byte at a fixed offset. -/
def u8At (buf : List UInt8) (offset : ℕ) : UInt8 := buf.getD offset 0

def u32At (buf : List UInt8) (offset : ℕ) : UInt32 := UInt32.ofNat (leValue (slice buf offset 4))

def u64At (buf : List UInt8) (offset : ℕ) : UInt64 := UInt64.ofNat (leValue (slice buf offset 8))

def fromUtf8 (bytes : List UInt8) : Option String := String.fromUTF8? ⟨bytes.toArray⟩

def readU16Str : ObservationInput String := do
  let lenBuf ← readFixed 2
  let buf ← readFixed (leValue lenBuf)
  match fromUtf8 buf with
  | some s => pure s
  | none => ByteReader.fail .invalidUtf8

def readObjectIdentity : ObservationInput (Option ObjectIdentity) := do
  let flag ← readFixed 1
  if u8At flag 0 = 0 then pure none
  else if u8At flag 0 = 1 then do
    let guid ← readFixed 16
    let fileIdBuf ← readFixed 16
    pure (some {
      volumeGuid := Vector.ofFn (fun position => u8At guid position)
      fileId := BitVec.ofNat 128 (leValue fileIdBuf) })
  else ByteReader.fail (.invalidBooleanTag (u8At flag 0))

def readLinkKnowledge : ObservationInput (ValueKnowledge UInt32) := do
  let tagBuf ← readFixed 1
  let valBuf ← readFixed 4
  if u8At tagBuf 0 = 0 then pure .notObserved
  else if u8At tagBuf 0 = 1 then pure (.known (u32At valBuf 0))
  else if u8At tagBuf 0 = 2 then pure .unavailable
  else if u8At tagBuf 0 = 3 then pure .notApplicable
  else ByteReader.fail (.invalidValueKnowledgeTag (u8At tagBuf 0))

/-- The allocation a flag announces. -/
def allocatedSizeOf (allocFlag : UInt8) (rawAlloc : UInt64) : ObservationInput (Option UInt64) :=
  if allocFlag = 0 then pure none
  else if allocFlag = 1 then pure (some rawAlloc)
  else ByteReader.fail (.invalidBooleanTag allocFlag)

structure ObservationReader where
  targetPath : String
  streamVersion : ℕ
deriving DecidableEq, Repr

namespace ObservationReader

/-- Open a stream: check its header and read its target. -/
def new : ObservationInput ObservationReader := do
  let magic ← readFixed 4
  if magic ≠ workerMagic then ByteReader.fail (.invalidMagic magic)
  else do
    let verBuf ← readFixed 2
    let version := leValue verBuf
    if version ≠ workerStreamVersionV1 ∧ version ≠ workerStreamVersionV2 then
      ByteReader.fail (.unsupportedVersion version)
    else do
      let targetPath ← readU16Str
      pure { targetPath, streamVersion := version }

/-- The fields of a directory that version 1 lacks. -/
def readDirectoryEvidence (streamVersion : ℕ) :
    ObservationInput (Option UInt64 × Option ObjectIdentity × ValueKnowledge UInt32) :=
  if streamVersion = workerStreamVersionV1 then pure (none, none, .notObserved)
  else do
    let allocFlag ← readFixed 1
    let rawAlloc ← readFixed 8
    let alloc ← allocatedSizeOf (u8At allocFlag 0) (u64At rawAlloc 0)
    let oid ← readObjectIdentity
    let links ← readLinkKnowledge
    pure (alloc, oid, links)

def readDirectory (streamVersion : ℕ) : ObservationInput DirectoryObservation := do
  let fixedBuf ← readFixed (4 + 4 + 4 + 4 + 8 + 8 + 8)
  let evidence ← readDirectoryEvidence streamVersion
  let name ← readU16Str
  pure {
    entryId := u32At fixedBuf 0
    parentId := u32At fixedBuf 4
    name
    fileAttributes := u32At fixedBuf 8
    reparseTag := u32At fixedBuf 12
    creationTimeUtcMs := u64At fixedBuf 16
    lastWriteTimeUtcMs := u64At fixedBuf 24
    lastAccessTimeUtcMs := u64At fixedBuf 32
    objectId := evidence.2.1
    allocatedSize := evidence.1
    totalLinkCount := evidence.2.2 }

/-- The fields of a file that version 1 lacks. -/
def readFileEvidence (streamVersion : ℕ) :
    ObservationInput (Option ObjectIdentity × ValueKnowledge UInt32) :=
  if streamVersion = workerStreamVersionV1 then pure (none, .notObserved)
  else do
    let oid ← readObjectIdentity
    let links ← readLinkKnowledge
    pure (oid, links)

def readFile (streamVersion : ℕ) : ObservationInput FileObservation := do
  let fixedBuf ← readFixed (4 + 4 + 8 + 1 + 8 + 4 + 4 + 8 + 8 + 8)
  let allocatedSize ← allocatedSizeOf (u8At fixedBuf 16) (u64At fixedBuf 17)
  let evidence ← readFileEvidence streamVersion
  let name ← readU16Str
  pure {
    entryId := u32At fixedBuf 0
    parentId := u32At fixedBuf 4
    name
    logicalSize := u64At fixedBuf 8
    allocatedSize
    fileAttributes := u32At fixedBuf 25
    reparseTag := u32At fixedBuf 29
    creationTimeUtcMs := u64At fixedBuf 33
    lastWriteTimeUtcMs := u64At fixedBuf 41
    lastAccessTimeUtcMs := u64At fixedBuf 49
    objectId := evidence.1
    totalLinkCount := evidence.2 }

/-- The identity of a special object, which version 1 lacks. -/
def readSpecialEvidence (streamVersion : ℕ) : ObservationInput (Option ObjectIdentity) :=
  if streamVersion = workerStreamVersionV1 then pure none else readObjectIdentity

def readSpecial (streamVersion : ℕ) : ObservationInput SpecialObservation := do
  let fixedBuf ← readFixed (4 + 4 + 4 + 4 + 8 + 8 + 8)
  let objectId ← readSpecialEvidence streamVersion
  let name ← readU16Str
  pure {
    entryId := u32At fixedBuf 0
    parentId := u32At fixedBuf 4
    name
    fileAttributes := u32At fixedBuf 8
    reparseTag := u32At fixedBuf 12
    creationTimeUtcMs := u64At fixedBuf 16
    lastWriteTimeUtcMs := u64At fixedBuf 24
    lastAccessTimeUtcMs := u64At fixedBuf 32
    objectId }

def readCoverageGap : ObservationInput CoverageGapObservation := do
  let errBuf ← readFixed 4
  let path ← readU16Str
  let errorMessage ← readU16Str
  pure { path, errorCode := u32At errBuf 0, errorMessage }

/-- The allocation of a content stream is there only when its flag is set. -/
def readStreamAllocatedSize (flag : UInt8) : ObservationInput (Option UInt64) :=
  if flag = 0 then pure none
  else if flag = 1 then do
    let raw ← readFixed 8
    pure (some (u64At raw 0))
  else ByteReader.fail (.invalidBooleanTag flag)

def readContentStream : ObservationInput StreamObservation := do
  let fixedBuf ← readFixed (4 + 8 + 1)
  let allocatedSize ← readStreamAllocatedSize (u8At fixedBuf 12)
  let name ← readU16Str
  pure {
    parentEntryId := u32At fixedBuf 0
    name
    logicalSize := u64At fixedBuf 4
    allocatedSize }

def readTerminal : ObservationInput TerminalObservation := do
  let fixedBuf ← readFixed (1 + 8 + 8 + 8 + 8 + 4 + 8)
  let outcome ← ByteReader.lift (RunOutcome.fromU8 (u8At fixedBuf 0))
  pure {
    outcome
    totalDirectories := u64At fixedBuf 1
    totalFiles := u64At fixedBuf 9
    totalLogicalBytes := u64At fixedBuf 17
    totalAllocatedBytes := u64At fixedBuf 25
    coverageGapCount := u32At fixedBuf 33
    durationMs := u64At fixedBuf 37 }

/-- The fields that follow a record's tag. -/
def readTagged (streamVersion : ℕ) : RecordTag → ObservationInput (Option ObservationRecord)
  | .directory => do
      let dir ← readDirectory streamVersion
      pure (some (.directory dir))
  | .file => do
      let file ← readFile streamVersion
      pure (some (.file file))
  | .specialObject => do
      let special ← readSpecial streamVersion
      pure (some (.special special))
  | .coverageGap => do
      let gap ← readCoverageGap
      pure (some (.coverageGap gap))
  | .contentStream => do
      let stream ← readContentStream
      pure (some (.contentStream stream))
  | .terminal => do
      let term ← readTerminal
      pure (some (.terminal term))

/-- The next record; nothing when the stream ends before its tag. -/
def readRecord (reader : ObservationReader) : ObservationInput (Option ObservationRecord) := do
  match ← ByteReader.readByte with
  | none => pure none
  | some tagByte =>
      let tag ← ByteReader.lift (RecordTag.fromU8 tagByte)
      readTagged reader.streamVersion tag

end ObservationReader

end PigTree
