import PigTree.Protocol.ObservationCodec

/-!
# Observation streams survive the pipe

Each writer appends the bytes of its record and the reader of version 2 takes exactly
those bytes for the record, field by field. A stream is read back in order, and a cut
stream yields the records before the cut.
-/

namespace PigTree

open Foundation ByteReader ByteWriter

/-! ### Fields -/

theorem fromUtf8_utf8Bytes (s : String) : fromUtf8 (utf8Bytes s) = some s := by
  have bytes : (⟨(utf8Bytes s).toArray⟩ : ByteArray) = s.toUTF8 := by
    rw [utf8Bytes, Array.toArray_toList]
  rw [fromUtf8, bytes]
  exact dif_pos s.isValidUTF8

/-- A string after its length. -/
def strBytes (s : String) : List UInt8 := leBytes 2 (utf8Bytes s).length ++ utf8Bytes s

def identityBytes : Option ObjectIdentity → List UInt8
  | some id => [1] ++ (id.volumeGuid.toList ++ leBytes 16 id.fileId.toNat)
  | none => [0]

def linkBytes : ValueKnowledge UInt32 → List UInt8
  | .notObserved => [0] ++ leBytes 4 0
  | .known count => [1] ++ leBytes 4 count.toNat
  | .unavailable => [2] ++ leBytes 4 0
  | .notApplicable => [3] ++ leBytes 4 0

def allocationBytes : Option UInt64 → List UInt8
  | some alloc => [1] ++ leBytes 8 alloc.toNat
  | none => [0] ++ leBytes 8 0

def streamAllocationBytes : Option UInt64 → List UInt8
  | some alloc => [1] ++ leBytes 8 alloc.toNat
  | none => [0]

theorem writes_writeU16Str {s : String} (short : s.utf8ByteSize ≤ 65535) :
    Writes (writeU16Str s) (strBytes s) := by
  have fits : ¬(utf8Bytes s).length > 65535 := Nat.not_lt_of_le short
  rw [writeU16Str, if_neg fits]
  exact (Writes.writeAll _).seq (Writes.writeAll _)

theorem writes_writeObjectIdentity (oid : Option ObjectIdentity) :
    Writes (writeObjectIdentity oid) (identityBytes oid) := by
  cases oid with
  | none => exact Writes.writeAll _
  | some id => exact (Writes.writeAll _).seq ((Writes.writeAll _).seq (Writes.writeAll _))

theorem writes_writeLinkKnowledge (knowledge : ValueKnowledge UInt32) :
    Writes (writeLinkKnowledge knowledge) (linkBytes knowledge) := by
  cases knowledge with
  | notObserved => exact (Writes.writeAll _).seq (Writes.writeAll _)
  | known count => exact (Writes.writeAll _).seq (Writes.writeAll _)
  | unavailable => exact (Writes.writeAll _).seq (Writes.writeAll _)
  | notApplicable => exact (Writes.writeAll _).seq (Writes.writeAll _)

theorem writes_writeAllocatedSize (allocatedSize : Option UInt64) :
    Writes (writeAllocatedSize allocatedSize) (allocationBytes allocatedSize) := by
  cases allocatedSize with
  | none => exact (Writes.writeAll _).seq (Writes.writeAll _)
  | some alloc => exact (Writes.writeAll _).seq (Writes.writeAll _)

theorem writes_writeStreamAllocatedSize (allocatedSize : Option UInt64) :
    Writes (writeStreamAllocatedSize allocatedSize) (streamAllocationBytes allocatedSize) := by
  cases allocatedSize with
  | none => exact Writes.writeAll _
  | some alloc => exact (Writes.writeAll _).seq (Writes.writeAll _)

/-! ### Reading fields back -/

theorem decodes_readFixed {count : ℕ} {bytes : List UInt8} (len : bytes.length = count) :
    Decodes .prematureEof (readFixed count) bytes bytes :=
  Decodes.readExact len

theorem decodes_readFlag (flag : UInt8) :
    Decodes .prematureEof (readFixed 1) [flag] [flag] :=
  decodes_readFixed rfl

/-- The bytes at an offset spell the word that was written there. -/
theorem u32At_of_slice {buf : List UInt8} {offset : ℕ} {word : UInt32}
    (same : slice buf offset 4 = leBytes 4 word.toNat) : u32At buf offset = word := by
  rw [u32At, same, ofNat_leValue_leBytes_u32]

theorem u64At_of_slice {buf : List UInt8} {offset : ℕ} {word : UInt64}
    (same : slice buf offset 8 = leBytes 8 word.toNat) : u64At buf offset = word := by
  rw [u64At, same, ofNat_leValue_leBytes_u64]

theorem decodes_readU16Str {s : String} (short : s.utf8ByteSize ≤ 65535) :
    Decodes .prematureEof readU16Str (strBytes s) s := by
  have word : (utf8Bytes s).length < 256 ^ 2 := Nat.lt_succ_of_le short
  refine (decodes_readFixed (length_leBytes 2 _)).bind ?_
  rw [leValue_leBytes_of_lt word]
  refine (decodes_readFixed rfl).bind_pure ?_
  rw [fromUtf8_utf8Bytes]

theorem ofFn_u8At (guid : Vector UInt8 16) :
    Vector.ofFn (fun position : Fin 16 => u8At guid.toList position) = guid := by
  ext position inside
  simp [u8At, List.getD_eq_getElem?_getD]

theorem decodes_readObjectIdentity (oid : Option ObjectIdentity) :
    Decodes .prematureEof readObjectIdentity (identityBytes oid) oid := by
  cases oid with
  | none => exact (decodes_readFlag 0).bind_pure rfl
  | some id =>
      refine (decodes_readFlag 1).bind ?_
      refine (decodes_readFixed (by simp)).bind ?_
      refine (decodes_readFixed (length_leBytes 16 _)).bind_pure ?_
      rw [ofFn_u8At, ofNat_leValue_leBytes_u128]

theorem decodes_readLinkKnowledge (knowledge : ValueKnowledge UInt32) :
    Decodes .prematureEof readLinkKnowledge (linkBytes knowledge) knowledge := by
  cases knowledge with
  | notObserved =>
      refine (decodes_readFlag 0).bind ?_
      exact (decodes_readFixed (length_leBytes 4 0)).bind_pure rfl
  | known count =>
      refine (decodes_readFlag 1).bind ?_
      refine (decodes_readFixed (length_leBytes 4 _)).bind_pure ?_
      rw [u32At_of_slice rfl]
      rfl
  | unavailable =>
      refine (decodes_readFlag 2).bind ?_
      exact (decodes_readFixed (length_leBytes 4 0)).bind_pure rfl
  | notApplicable =>
      refine (decodes_readFlag 3).bind ?_
      exact (decodes_readFixed (length_leBytes 4 0)).bind_pure rfl

theorem decodes_readStreamAllocatedSize (allocatedSize : Option UInt64) :
    ∃ flag body, streamAllocationBytes allocatedSize = flag :: body ∧
      Decodes .prematureEof (ObservationReader.readStreamAllocatedSize flag) body
        allocatedSize := by
  cases allocatedSize with
  | none => exact ⟨0, [], rfl, Decodes.pure none⟩
  | some alloc =>
      refine ⟨1, leBytes 8 alloc.toNat, rfl, (decodes_readFixed (length_leBytes 8 _)).bind_pure ?_⟩
      rw [u64At_of_slice rfl]

/-! ### Records -/

/-- The fixed fields of directories and special objects. -/
def entryBytes (entryId parentId fileAttributes reparseTag : UInt32)
    (creationTimeUtcMs lastWriteTimeUtcMs lastAccessTimeUtcMs : UInt64) : List UInt8 :=
  leBytes 4 entryId.toNat ++ (leBytes 4 parentId.toNat ++ (leBytes 4 fileAttributes.toNat ++
    (leBytes 4 reparseTag.toNat ++ (leBytes 8 creationTimeUtcMs.toNat ++
      (leBytes 8 lastWriteTimeUtcMs.toNat ++ leBytes 8 lastAccessTimeUtcMs.toNat)))))

/-- The fixed fields of a file. -/
def fileBytes (file : FileObservation) : List UInt8 :=
  leBytes 4 file.entryId.toNat ++ (leBytes 4 file.parentId.toNat ++
    (leBytes 8 file.logicalSize.toNat ++ (allocationBytes file.allocatedSize ++
      (leBytes 4 file.fileAttributes.toNat ++ (leBytes 4 file.reparseTag.toNat ++
        (leBytes 8 file.creationTimeUtcMs.toNat ++ (leBytes 8 file.lastWriteTimeUtcMs.toNat ++
          leBytes 8 file.lastAccessTimeUtcMs.toNat)))))))

/-- The bytes of a record after its tag. -/
def bodyBytes : ObservationRecord → List UInt8
  | .directory dir =>
      entryBytes dir.entryId dir.parentId dir.fileAttributes dir.reparseTag
        dir.creationTimeUtcMs dir.lastWriteTimeUtcMs dir.lastAccessTimeUtcMs ++
        ((allocationBytes dir.allocatedSize ++
          (identityBytes dir.objectId ++ linkBytes dir.totalLinkCount)) ++ strBytes dir.name)
  | .file file =>
      fileBytes file ++ ((identityBytes file.objectId ++ linkBytes file.totalLinkCount) ++ strBytes file.name)
  | .special special =>
      entryBytes special.entryId special.parentId special.fileAttributes special.reparseTag
        special.creationTimeUtcMs special.lastWriteTimeUtcMs special.lastAccessTimeUtcMs ++
        (identityBytes special.objectId ++ strBytes special.name)
  | .contentStream stream =>
      leBytes 4 stream.parentEntryId.toNat ++ (leBytes 8 stream.logicalSize.toNat ++
        (streamAllocationBytes stream.allocatedSize ++ strBytes stream.name))
  | .coverageGap gap =>
      leBytes 4 gap.errorCode.toNat ++ (strBytes gap.path ++ strBytes gap.errorMessage)
  | .terminal term =>
      [term.outcome.toU8] ++ (leBytes 8 term.totalDirectories.toNat ++
        (leBytes 8 term.totalFiles.toNat ++ (leBytes 8 term.totalLogicalBytes.toNat ++
          (leBytes 8 term.totalAllocatedBytes.toNat ++
            (leBytes 4 term.coverageGapCount.toNat ++ leBytes 8 term.durationMs.toNat)))))

def recordTag : ObservationRecord → RecordTag
  | .directory _ => .directory
  | .file _ => .file
  | .special _ => .specialObject
  | .contentStream _ => .contentStream
  | .coverageGap _ => .coverageGap
  | .terminal _ => .terminal

def recordBytes (record : ObservationRecord) : List UInt8 :=
  (recordTag record).toU8 :: bodyBytes record

/-- The strings of a record. -/
def recordStrings : ObservationRecord → List String
  | .directory dir => [dir.name]
  | .file file => [file.name]
  | .special special => [special.name]
  | .contentStream stream => [stream.name]
  | .coverageGap gap => [gap.path, gap.errorMessage]
  | .terminal _ => []

theorem writes_writeRecord (record : ObservationRecord)
    (short : ∀ s ∈ recordStrings record, s.utf8ByteSize ≤ 65535) :
    Writes (ObservationWriter.writeRecord record) (recordBytes record) := by
  cases record with
  | directory dir =>
      have name := writes_writeU16Str (short dir.name List.mem_cons_self)
      have writes : Writes (ObservationWriter.writeDirectory dir) _ :=
        Writes.after _ <| Writes.after _ <| Writes.after _ <| Writes.after _ <|
          Writes.after _ <| Writes.after _ <| Writes.after _ <| Writes.after _ <|
          (writes_writeAllocatedSize dir.allocatedSize).seq <|
          (writes_writeObjectIdentity dir.objectId).seq <|
          (writes_writeLinkKnowledge dir.totalLinkCount).seq name
      simpa only [ObservationWriter.writeRecord, recordBytes, recordTag, bodyBytes, entryBytes,
        List.append_assoc, List.cons_append, List.nil_append] using writes
  | file file =>
      have name := writes_writeU16Str (short file.name List.mem_cons_self)
      have writes : Writes (ObservationWriter.writeFile file) _ :=
        Writes.after _ <| Writes.after _ <| Writes.after _ <| Writes.after _ <|
          (writes_writeAllocatedSize file.allocatedSize).seq <|
          Writes.after _ <| Writes.after _ <| Writes.after _ <| Writes.after _ <|
          Writes.after _ <| (writes_writeObjectIdentity file.objectId).seq <|
          (writes_writeLinkKnowledge file.totalLinkCount).seq name
      simpa only [ObservationWriter.writeRecord, recordBytes, recordTag, bodyBytes, fileBytes,
        List.append_assoc, List.cons_append, List.nil_append] using writes
  | special special =>
      have name := writes_writeU16Str (short special.name List.mem_cons_self)
      have writes : Writes (ObservationWriter.writeSpecial special) _ :=
        Writes.after _ <| Writes.after _ <| Writes.after _ <| Writes.after _ <|
          Writes.after _ <| Writes.after _ <| Writes.after _ <| Writes.after _ <|
          (writes_writeObjectIdentity special.objectId).seq name
      simpa only [ObservationWriter.writeRecord, recordBytes, recordTag, bodyBytes, entryBytes,
        List.append_assoc, List.cons_append, List.nil_append] using writes
  | contentStream stream =>
      have name := writes_writeU16Str (short stream.name List.mem_cons_self)
      have writes : Writes (ObservationWriter.writeStream stream) _ :=
        Writes.after _ <| Writes.after _ <| Writes.after _ <|
          (writes_writeStreamAllocatedSize stream.allocatedSize).seq name
      simpa only [ObservationWriter.writeRecord, recordBytes, recordTag, bodyBytes,
        List.append_assoc, List.cons_append, List.nil_append] using writes
  | coverageGap gap =>
      have path := writes_writeU16Str (short gap.path List.mem_cons_self)
      have message := writes_writeU16Str
        (short gap.errorMessage (List.mem_cons_of_mem _ List.mem_cons_self))
      exact Writes.after _ <| Writes.after _ <| path.seq message
  | terminal term =>
      exact Writes.after _ <| Writes.after _ <| Writes.after _ <| Writes.after _ <|
        Writes.after _ <| Writes.after _ <| Writes.after _ <| Writes.writeAll _

/-! ### Reading records back -/

open ObservationReader

theorem decodes_readDirectoryEvidence (allocatedSize : Option UInt64)
    (oid : Option ObjectIdentity) (links : ValueKnowledge UInt32) :
    Decodes .prematureEof (readDirectoryEvidence workerStreamVersion)
      (allocationBytes allocatedSize ++ (identityBytes oid ++ linkBytes links))
      (allocatedSize, oid, links) := by
  have evidence : Decodes .prematureEof
      (do
        let oid ← readObjectIdentity
        let links ← readLinkKnowledge
        pure (allocatedSize, oid, links)) (identityBytes oid ++ linkBytes links)
      (allocatedSize, oid, links) :=
    (decodes_readObjectIdentity oid).bind ((decodes_readLinkKnowledge links).bind_pure rfl)
  cases allocatedSize with
  | none =>
      rw [allocationBytes, List.append_assoc]
      refine (decodes_readFlag 0).bind ?_
      exact (decodes_readFixed (length_leBytes 8 0)).bind evidence
  | some alloc =>
      rw [allocationBytes, List.append_assoc]
      refine (decodes_readFlag 1).bind ?_
      refine (decodes_readFixed (length_leBytes 8 _)).bind ?_
      rw [u64At_of_slice rfl]
      exact evidence

theorem decodes_readFileEvidence (oid : Option ObjectIdentity) (links : ValueKnowledge UInt32) :
    Decodes .prematureEof (readFileEvidence workerStreamVersion)
      (identityBytes oid ++ linkBytes links) (oid, links) :=
  (decodes_readObjectIdentity oid).bind ((decodes_readLinkKnowledge links).bind_pure rfl)

theorem decodes_readDirectory (dir : DirectoryObservation)
    (short : dir.name.utf8ByteSize ≤ 65535) :
    Decodes .prematureEof (readDirectory workerStreamVersion) (bodyBytes (.directory dir)) dir := by
  refine (decodes_readFixed (by simp [entryBytes])).bind ?_
  refine (decodes_readDirectoryEvidence _ _ _).bind ?_
  refine (decodes_readU16Str short).bind_pure ?_
  rw [u32At_of_slice rfl, u32At_of_slice rfl, u32At_of_slice rfl, u32At_of_slice rfl,
    u64At_of_slice rfl, u64At_of_slice rfl, u64At_of_slice rfl]

theorem length_fileBytes (file : FileObservation) : (fileBytes file).length = 57 := by
  rcases file with ⟨entryId, parentId, name, logicalSize, allocatedSize, fileAttributes,
    reparseTag, creation, lastWrite, lastAccess, objectId, totalLinkCount⟩
  cases allocatedSize with
  | none => rfl
  | some alloc => rfl

/-- The hand-computed offsets of a file are those of its fields. -/
theorem fileBytes_fields (file : FileObservation) :
    (u32At (fileBytes file) 0 = file.entryId ∧ u32At (fileBytes file) 4 = file.parentId ∧
      u64At (fileBytes file) 8 = file.logicalSize ∧
        allocatedSizeOf (u8At (fileBytes file) 16) (u64At (fileBytes file) 17) =
          pure file.allocatedSize) ∧
      u32At (fileBytes file) 25 = file.fileAttributes ∧
        u32At (fileBytes file) 29 = file.reparseTag ∧
          u64At (fileBytes file) 33 = file.creationTimeUtcMs ∧
            u64At (fileBytes file) 41 = file.lastWriteTimeUtcMs ∧
              u64At (fileBytes file) 49 = file.lastAccessTimeUtcMs := by
  rcases file with ⟨entryId, parentId, name, logicalSize, allocatedSize, fileAttributes,
    reparseTag, creation, lastWrite, lastAccess, objectId, totalLinkCount⟩
  cases allocatedSize with
  | none =>
      exact ⟨⟨u32At_of_slice rfl, u32At_of_slice rfl, u64At_of_slice rfl, rfl⟩,
        u32At_of_slice rfl, u32At_of_slice rfl, u64At_of_slice rfl, u64At_of_slice rfl,
        u64At_of_slice rfl⟩
  | some alloc =>
      refine ⟨⟨u32At_of_slice rfl, u32At_of_slice rfl, u64At_of_slice rfl, ?_⟩,
        u32At_of_slice rfl, u32At_of_slice rfl, u64At_of_slice rfl, u64At_of_slice rfl,
        u64At_of_slice rfl⟩
      exact congrArg (fun raw => allocatedSizeOf 1 raw) (u64At_of_slice rfl)

theorem decodes_readFile (file : FileObservation) (short : file.name.utf8ByteSize ≤ 65535) :
    Decodes .prematureEof (readFile workerStreamVersion) (bodyBytes (.file file)) file := by
  rcases fileBytes_fields file with
    ⟨⟨entryId, parentId, logicalSize, allocatedSize⟩, fileAttributes, reparseTag, creation,
      lastWrite, lastAccess⟩
  refine (decodes_readFixed (length_fileBytes file)).bind ?_
  rw [entryId, parentId, logicalSize, allocatedSize, fileAttributes, reparseTag, creation,
    lastWrite, lastAccess, pure_bind]
  refine (decodes_readFileEvidence _ _).bind ?_
  exact (decodes_readU16Str short).bind_pure rfl

theorem decodes_readSpecial (special : SpecialObservation)
    (short : special.name.utf8ByteSize ≤ 65535) :
    Decodes .prematureEof (readSpecial workerStreamVersion) (bodyBytes (.special special))
      special := by
  refine (decodes_readFixed (by simp [entryBytes])).bind ?_
  refine (decodes_readObjectIdentity _).bind ?_
  refine (decodes_readU16Str short).bind_pure ?_
  rw [u32At_of_slice rfl, u32At_of_slice rfl, u32At_of_slice rfl, u32At_of_slice rfl,
    u64At_of_slice rfl, u64At_of_slice rfl, u64At_of_slice rfl]

theorem decodes_readContentStream (stream : StreamObservation)
    (short : stream.name.utf8ByteSize ≤ 65535) :
    Decodes .prematureEof readContentStream (bodyBytes (.contentStream stream)) stream := by
  rcases decodes_readStreamAllocatedSize stream.allocatedSize with
    ⟨flag, body, layout, allocation⟩
  have bytes : bodyBytes (.contentStream stream) =
      (leBytes 4 stream.parentEntryId.toNat ++ (leBytes 8 stream.logicalSize.toNat ++ [flag])) ++
        (body ++ strBytes stream.name) := by
    simp only [bodyBytes, layout, List.append_assoc, List.cons_append, List.nil_append]
  rw [bytes]
  refine (decodes_readFixed (by simp)).bind ?_
  refine allocation.bind ?_
  refine (decodes_readU16Str short).bind_pure ?_
  rw [u32At_of_slice rfl, u64At_of_slice rfl]

theorem decodes_readCoverageGap (gap : CoverageGapObservation)
    (shortPath : gap.path.utf8ByteSize ≤ 65535)
    (shortMessage : gap.errorMessage.utf8ByteSize ≤ 65535) :
    Decodes .prematureEof readCoverageGap (bodyBytes (.coverageGap gap)) gap := by
  refine (decodes_readFixed (length_leBytes 4 _)).bind ?_
  refine (decodes_readU16Str shortPath).bind ?_
  refine (decodes_readU16Str shortMessage).bind_pure ?_
  rw [u32At_of_slice rfl]

theorem fromU8_toU8_outcome (outcome : RunOutcome) :
    RunOutcome.fromU8 outcome.toU8 = .ok outcome := by
  cases outcome with
  | finished => rfl
  | cancelled => rfl
  | failed => rfl

theorem decodes_readTerminal (term : TerminalObservation) :
    Decodes .prematureEof readTerminal (bodyBytes (.terminal term)) term := by
  have outcome : u8At (bodyBytes (.terminal term)) 0 = term.outcome.toU8 := rfl
  refine (decodes_readFixed (by simp [bodyBytes])).bind_pure ?_
  rw [outcome, fromU8_toU8_outcome, u64At_of_slice rfl, u64At_of_slice rfl,
    u64At_of_slice rfl, u64At_of_slice rfl, u32At_of_slice rfl, u64At_of_slice rfl]
  rfl

theorem decodes_readTagged (record : ObservationRecord)
    (short : ∀ s ∈ recordStrings record, s.utf8ByteSize ≤ 65535) :
    Decodes .prematureEof (readTagged workerStreamVersion (recordTag record)) (bodyBytes record)
      (some record) := by
  cases record with
  | directory dir =>
      exact (decodes_readDirectory dir (short dir.name List.mem_cons_self)).bind_pure rfl
  | file file => exact (decodes_readFile file (short file.name List.mem_cons_self)).bind_pure rfl
  | special special =>
      exact (decodes_readSpecial special (short special.name List.mem_cons_self)).bind_pure rfl
  | contentStream stream =>
      exact (decodes_readContentStream stream (short stream.name List.mem_cons_self)).bind_pure rfl
  | coverageGap gap =>
      have path := short gap.path List.mem_cons_self
      have message := short gap.errorMessage (List.mem_cons_of_mem _ List.mem_cons_self)
      exact (decodes_readCoverageGap gap path message).bind_pure rfl
  | terminal term => exact (decodes_readTerminal term).bind_pure rfl

/-- A reader of the current version for a target. -/
def currentReader (targetPath : String) : ObservationReader where
  targetPath := targetPath
  streamVersion := workerStreamVersion

theorem encodesItem_readRecord (targetPath : String) (record : ObservationRecord)
    (short : ∀ s ∈ recordStrings record, s.utf8ByteSize ≤ 65535) :
    EncodesItem .prematureEof (currentReader targetPath).readRecord (recordBytes record)
      record := by
  apply EncodesItem.ofTag _ (decodes_readTagged record short)
  intro rest
  cases record with
  | directory dir => rfl
  | file file => rfl
  | special special => rfl
  | contentStream stream => rfl
  | coverageGap gap => rfl
  | terminal term => rfl

/-! ### Streams -/

/-- The bytes before the first record. -/
def streamHeaderBytes (targetPath : String) : List UInt8 :=
  workerMagic ++ (leBytes 2 workerStreamVersion ++ strBytes targetPath)

def streamBytes (targetPath : String) (records : List ObservationRecord) : List UInt8 :=
  streamHeaderBytes targetPath ++ records.flatMap recordBytes

theorem decodes_new {targetPath : String} (short : targetPath.utf8ByteSize ≤ 65535) :
    Decodes .prematureEof ObservationReader.new (streamHeaderBytes targetPath)
      (currentReader targetPath) := by
  have magic : Decodes .prematureEof (readFixed 4) workerMagic workerMagic := decodes_readFixed rfl
  refine magic.bind ?_
  refine (decodes_readFixed (length_leBytes 2 _)).bind ?_
  exact (decodes_readU16Str short).bind_pure rfl

theorem writes_new {targetPath : String} (short : targetPath.utf8ByteSize ≤ 65535) :
    Writes (ObservationWriter.new targetPath) (streamHeaderBytes targetPath) :=
  Writes.after _ <| Writes.after _ <| writes_writeU16Str short

theorem writes_writeStreamOf {targetPath : String} {records : List ObservationRecord}
    (shortTarget : targetPath.utf8ByteSize ≤ 65535)
    (short : ∀ record ∈ records, ∀ s ∈ recordStrings record, s.utf8ByteSize ≤ 65535) :
    Writes (ObservationWriter.writeStreamOf targetPath records)
      (streamBytes targetPath records) := by
  apply (writes_new shortTarget).seq
  apply Writes.forM
  exact fun record recordMem => writes_writeRecord record (short record recordMem)

/-- Opening a byte string and reading it to its end yields these records, then nothing
more or an error. -/
def ReadsAs (bytes : List UInt8) (reader : Option ObservationReader)
    (records : List ObservationRecord) (ending : Option ObservationDecodeError) : Prop :=
  match ObservationReader.new bytes with
  | .error err => reader = none ∧ records = [] ∧ ending = some err
  | .ok (opened, rest) => reader = some opened ∧ Yields opened.readRecord rest records ending

theorem readsAs_header {targetPath : String} (shortTarget : targetPath.utf8ByteSize ≤ 65535)
    {rest : List UInt8} {records : List ObservationRecord}
    {ending : Option ObservationDecodeError}
    (yields : Yields (currentReader targetPath).readRecord rest records ending) :
    ReadsAs (streamHeaderBytes targetPath ++ rest) (some (currentReader targetPath)) records
      ending := by
  unfold ReadsAs
  rw [(decodes_new shortTarget).complete]
  exact ⟨rfl, yields⟩

theorem readsAs_streamBytes {targetPath : String} {records : List ObservationRecord}
    (shortTarget : targetPath.utf8ByteSize ≤ 65535)
    (short : ∀ record ∈ records, ∀ s ∈ recordStrings record, s.utf8ByteSize ≤ 65535) :
    ReadsAs (streamBytes targetPath records) (some (currentReader targetPath)) records none := by
  apply readsAs_header shortTarget
  apply yields_flatMap rfl
  exact fun record recordMem => encodesItem_readRecord targetPath record (short record recordMem)

/-- A cut that is not at the end of the header or of a record is a premature end. -/
theorem readsAs_cut {targetPath : String} {records : List ObservationRecord}
    (shortTarget : targetPath.utf8ByteSize ≤ 65535)
    (short : ∀ record ∈ records, ∀ s ∈ recordStrings record, s.utf8ByteSize ≤ 65535) {count : ℕ}
    (cut : count < (streamBytes targetPath records).length)
    (inside : ∀ kept, kept <+: records → count ≠ (streamBytes targetPath kept).length) :
    ∃ reader before, before <+: records ∧
      ReadsAs ((streamBytes targetPath records).take count) reader before
        (some .prematureEof) := by
  rw [streamBytes, List.length_append] at cut
  by_cases early : count < (streamHeaderBytes targetPath).length
  · refine ⟨none, [], List.nil_prefix, ?_⟩
    rw [streamBytes, List.take_append_of_le_length (Nat.le_of_lt early), ReadsAs,
      (decodes_new shortTarget).truncated count early]
    exact ⟨rfl, rfl, rfl⟩
  · rcases take_flatMap_cases recordBytes records
      (count - (streamHeaderBytes targetPath).length) (by omega) with
      ⟨before, record, after, rfl, position, bound, same⟩
    refine ⟨some (currentReader targetPath), before, List.prefix_append before _, ?_⟩
    have encoded : ∀ other ∈ before ++ record :: after,
        EncodesItem .prematureEof (currentReader targetPath).readRecord (recordBytes other) other :=
      fun other otherMem => encodesItem_readRecord targetPath other (short other otherMem)
    have within : 0 < position := by
      apply Nat.pos_of_ne_zero
      rintro rfl
      apply inside before (List.prefix_append before _)
      have length := congrArg List.length same
      rw [List.take_zero, List.append_nil, List.length_take_of_le (by omega)] at length
      rw [streamBytes, List.length_append]
      omega
    rw [streamBytes, List.take_append, List.take_of_length_le (Nat.le_of_not_lt early), same]
    apply readsAs_header shortTarget
    apply yields_cut _ (encoded record (by simp)) within bound
    exact fun other otherMem => encoded other (List.mem_append_left _ otherMem)

/-- What the writer leaves in its output for a target and some records. -/
def writtenBytes (targetPath : String) (records : List ObservationRecord) : List UInt8 :=
  (ObservationWriter.writeStreamOf targetPath records []).2

theorem writtenBytes_eq {targetPath : String} {records : List ObservationRecord}
    (shortTarget : targetPath.utf8ByteSize ≤ 65535)
    (short : ∀ record ∈ records, ∀ s ∈ recordStrings record, s.utf8ByteSize ≤ 65535) :
    writtenBytes targetPath records = streamBytes targetPath records := by
  rw [writtenBytes, writes_writeStreamOf shortTarget short, List.nil_append]

/-- A stream of records is written without an error and read back in full; cut after the
header or a record it yields the records before the cut, and cut anywhere else it yields
only records it contains before it ends prematurely. -/
theorem observations_roundTrip (targetPath : String) (records : List ObservationRecord)
    (shortTarget : targetPath.utf8ByteSize ≤ 65535)
    (short : ∀ record ∈ records, ∀ s ∈ recordStrings record, s.utf8ByteSize ≤ 65535) :
    (ObservationWriter.writeStreamOf targetPath records []).1 = .ok () ∧
      ReadsAs (writtenBytes targetPath records)
        (some { targetPath, streamVersion := 2 }) records none ∧
      (∀ kept, kept <+: records →
        ReadsAs ((writtenBytes targetPath records).take (writtenBytes targetPath kept).length)
          (some { targetPath, streamVersion := 2 }) kept none) ∧
      ∀ count < (writtenBytes targetPath records).length,
        (∀ kept, kept <+: records → count ≠ (writtenBytes targetPath kept).length) →
          ∃ reader before, before <+: records ∧
            ReadsAs ((writtenBytes targetPath records).take count) reader before
              (some .prematureEof) := by
  have shortKept : ∀ kept, kept <+: records → ∀ record ∈ kept, ∀ s ∈ recordStrings record,
      s.utf8ByteSize ≤ 65535 :=
    fun kept isPrefix record recordMem => short record (isPrefix.subset recordMem)
  have writes := writes_writeStreamOf shortTarget short []
  rw [writtenBytes_eq shortTarget short]
  refine ⟨by rw [writes], readsAs_streamBytes shortTarget short, ?_, ?_⟩
  · intro kept isPrefix
    rw [writtenBytes_eq shortTarget (shortKept kept isPrefix)]
    rcases isPrefix with ⟨more, rfl⟩
    have split : streamBytes targetPath (kept ++ more) =
        streamBytes targetPath kept ++ more.flatMap recordBytes := by
      rw [streamBytes, streamBytes, List.flatMap_append, List.append_assoc]
    rw [split, List.take_left]
    exact readsAs_streamBytes shortTarget (shortKept kept (List.prefix_append kept more))
  · intro count cut inside
    apply readsAs_cut shortTarget short cut
    intro kept isPrefix
    rw [← writtenBytes_eq shortTarget (shortKept kept isPrefix)]
    exact inside kept isPrefix

/-- A record of every kind. -/
def Sample.observations : List ObservationRecord := [
  .directory {
    entryId := 1, parentId := 0, name := "C:\\", fileAttributes := 16, reparseTag := 0
    creationTimeUtcMs := 1, lastWriteTimeUtcMs := 2, lastAccessTimeUtcMs := 3
    objectId := some { volumeGuid := Vector.replicate 16 7, fileId := 9 }
    allocatedSize := none, totalLinkCount := .known 1 },
  .file {
    entryId := 2, parentId := 1, name := "été", logicalSize := 300, allocatedSize := some 4096
    fileAttributes := 32, reparseTag := 0
    creationTimeUtcMs := 1, lastWriteTimeUtcMs := 2, lastAccessTimeUtcMs := 3
    objectId := none, totalLinkCount := .unavailable },
  .special {
    entryId := 3, parentId := 1, name := "link", fileAttributes := 1024, reparseTag := 5
    creationTimeUtcMs := 1, lastWriteTimeUtcMs := 2, lastAccessTimeUtcMs := 3, objectId := none },
  .contentStream {
    parentEntryId := 2, name := "zone", logicalSize := 26, allocatedSize := none },
  .coverageGap { path := "C:\\x", errorCode := 5, errorMessage := "denied" },
  .terminal {
    outcome := .finished, totalDirectories := 1, totalFiles := 1, totalLogicalBytes := 300
    totalAllocatedBytes := 4096, coverageGapCount := 1, durationMs := 12 }]

theorem observations_roundTrip_sample :
    (ObservationWriter.writeStreamOf "C:\\" Sample.observations []).1 = .ok () ∧
      ReadsAs (writtenBytes "C:\\" Sample.observations)
        (some { targetPath := "C:\\", streamVersion := 2 }) Sample.observations none ∧
      (∀ kept, kept <+: Sample.observations →
        ReadsAs ((writtenBytes "C:\\" Sample.observations).take (writtenBytes "C:\\" kept).length)
          (some { targetPath := "C:\\", streamVersion := 2 }) kept none) ∧
      ∀ count < (writtenBytes "C:\\" Sample.observations).length,
        (∀ kept, kept <+: Sample.observations → count ≠ (writtenBytes "C:\\" kept).length) →
          ∃ reader before, before <+: Sample.observations ∧
            ReadsAs ((writtenBytes "C:\\" Sample.observations).take count) reader before
              (some .prematureEof) :=
  observations_roundTrip "C:\\" Sample.observations (by decide) (by decide)

end PigTree
