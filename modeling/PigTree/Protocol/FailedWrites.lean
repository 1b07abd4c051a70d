import PigTree.Protocol.ObservationStream

/-!
# Writes that fail

A record is refused when one of its strings is longer than its length field can say, but
its tag and its fixed fields have been written by then. The reader takes exactly the bytes
of the records it answers, so a stream with such a torso is never read back as the records
that were accepted.
-/

namespace PigTree

open Foundation ByteReader ByteWriter

/-! ### Records that fit -/

/-- Every string of the record is short enough for its length field. -/
def Encodable (record : ObservationRecord) : Prop :=
  ∀ s ∈ recordStrings record, s.utf8ByteSize ≤ 65535

instance (record : ObservationRecord) : Decidable (Encodable record) :=
  inferInstanceAs (Decidable (∀ s ∈ recordStrings record, s.utf8ByteSize ≤ 65535))

theorem aborts_writeU16Str {s : String} (long : ¬s.utf8ByteSize ≤ 65535) :
    Aborts (writeU16Str s) [] := by
  have exceeds : (utf8Bytes s).length > 65535 := Nat.lt_of_not_le long
  rw [writeU16Str, if_pos exceeds]
  exact Aborts.fail _

/-- A refused record leaves its tag and the fields before the refused string behind. -/
theorem aborts_writeRecord {record : ObservationRecord} (refused : ¬Encodable record) :
    ∃ body, Aborts (ObservationWriter.writeRecord record) ((recordTag record).toU8 :: body) := by
  cases record with
  | directory dir =>
      have name := aborts_writeU16Str (s := dir.name) (by simpa [Encodable, recordStrings] using refused)
      exact ⟨_, Aborts.after _ <| Aborts.after _ <| Aborts.after _ <| Aborts.after _ <|
        Aborts.after _ <| Aborts.after _ <| Aborts.after _ <| Aborts.after _ <|
        Aborts.seq (writes_writeAllocatedSize dir.allocatedSize) <|
        Aborts.seq (writes_writeObjectIdentity dir.objectId) <|
        Aborts.seq (writes_writeLinkKnowledge dir.totalLinkCount) name⟩
  | file file =>
      have name := aborts_writeU16Str (s := file.name) (by simpa [Encodable, recordStrings] using refused)
      exact ⟨_, Aborts.after _ <| Aborts.after _ <| Aborts.after _ <| Aborts.after _ <|
        Aborts.seq (writes_writeAllocatedSize file.allocatedSize) <|
        Aborts.after _ <| Aborts.after _ <| Aborts.after _ <| Aborts.after _ <|
        Aborts.after _ <| Aborts.seq (writes_writeObjectIdentity file.objectId) <|
        Aborts.seq (writes_writeLinkKnowledge file.totalLinkCount) name⟩
  | special special =>
      have name := aborts_writeU16Str (s := special.name) (by simpa [Encodable, recordStrings] using refused)
      exact ⟨_, Aborts.after _ <| Aborts.after _ <| Aborts.after _ <| Aborts.after _ <|
        Aborts.after _ <| Aborts.after _ <| Aborts.after _ <| Aborts.after _ <|
        Aborts.seq (writes_writeObjectIdentity special.objectId) name⟩
  | contentStream stream =>
      have name := aborts_writeU16Str (s := stream.name) (by simpa [Encodable, recordStrings] using refused)
      exact ⟨_, Aborts.after _ <| Aborts.after _ <| Aborts.after _ <|
        Aborts.seq (writes_writeStreamAllocatedSize stream.allocatedSize) name⟩
  | coverageGap gap =>
      by_cases shortPath : gap.path.utf8ByteSize ≤ 65535
      · have message := aborts_writeU16Str (s := gap.errorMessage)
          (by simpa [Encodable, recordStrings, shortPath] using refused)
        exact ⟨_, Aborts.after _ <| Aborts.after _ <|
          Aborts.seq (writes_writeU16Str shortPath) message⟩
      · exact ⟨_, Aborts.after _ <| Aborts.after _ <| Aborts.bind (aborts_writeU16Str shortPath)⟩
  | terminal term =>
      exact absurd (by simp [Encodable, recordStrings]) refused

/-! ### A sequence of calls -/

namespace ObservationWriter

/-- The calls one after the other, whatever each of them answers, with the bytes emitted. -/
def callAll : List ObservationRecord → List UInt8 →
    List (Except ObservationWriteError Unit) × List UInt8
  | [], out => ([], out)
  | record :: records, out =>
      let called := writeRecord record out
      let rest := callAll records called.2
      (called.1 :: rest.1, rest.2)

end ObservationWriter

/-- The records whose call was answered with `Ok`. -/
def answeredOk (records : List ObservationRecord)
    (answers : List (Except ObservationWriteError Unit)) : List ObservationRecord :=
  (records.zip answers).filterMap (fun call => match call.2 with
    | .ok () => some call.1
    | .error _ => none)

/-- What a sequence of calls emits: the bytes of the accepted records, and more than those
when a call fails. -/
structure Called (records : List ObservationRecord)
    (answers : List (Except ObservationWriteError Unit)) (bytes : List UInt8) : Prop where
  accepted : answeredOk records answers = records.filter (fun record => Encodable record)
  whole : (∀ record ∈ records, Encodable record) → bytes = records.flatMap recordBytes
  torn : (∃ record ∈ records, ¬Encodable record) →
    ((records.filter (fun record => Encodable record)).map
      (fun record => (recordBytes record).length)).sum < bytes.length

theorem callAll_spec (records : List ObservationRecord) : ∃ answers bytes,
    (∀ out, ObservationWriter.callAll records out = (answers, out ++ bytes)) ∧
      Called records answers bytes := by
  induction records with
  | nil =>
      refine ⟨[], [], ?_, ?_⟩
      · intro out
        rw [List.append_nil]
        rfl
      · constructor
        · rfl
        · intro _
          rfl
        · rintro ⟨record, recordMem, _⟩
          cases recordMem
  | cons record records ih =>
      rcases ih with ⟨answers, bytes, ran, called⟩
      by_cases fits : Encodable record
      · have wrote := writes_writeRecord record fits
        refine ⟨.ok () :: answers, recordBytes record ++ bytes, ?_, ?_⟩
        · intro out
          rw [ObservationWriter.callAll]
          simp only [wrote out, ran, List.append_assoc]
        · constructor
          · rw [List.filter_cons_of_pos (by simpa using fits), ← called.accepted]
            rfl
          · intro all
            rw [called.whole (fun other otherMem => all other (List.mem_cons_of_mem _ otherMem))]
            rfl
          · rintro ⟨other, otherMem, refused⟩
            rcases List.mem_cons.mp otherMem with rfl | later
            · exact absurd fits refused
            · have more := called.torn ⟨other, later, refused⟩
              rw [List.filter_cons_of_pos (by simpa using fits), List.map_cons, List.sum_cons,
                List.length_append]
              omega
      · rcases aborts_writeRecord fits with ⟨body, err, fails⟩
        refine ⟨.error err :: answers, (recordTag record).toU8 :: body ++ bytes, ?_, ?_⟩
        · intro out
          rw [ObservationWriter.callAll]
          simp only [fails out, ran, List.append_assoc]
        · constructor
          · rw [List.filter_cons_of_neg (by simpa using fits), ← called.accepted]
            rfl
          · intro all
            exact absurd (all record List.mem_cons_self) fits
          · intro _
            have atLeast : ((records.filter (fun record => Encodable record)).map
                (fun record => (recordBytes record).length)).sum ≤ bytes.length := by
              by_cases some : ∃ other ∈ records, ¬Encodable other
              · exact Nat.le_of_lt (called.torn some)
              · have all : ∀ other ∈ records, Encodable other := by
                  intro other otherMem
                  by_contra refused
                  exact some ⟨other, otherMem, refused⟩
                rw [called.whole all, List.length_flatMap, List.filter_eq_self.mpr (by simpa using all)]
            rw [List.filter_cons_of_neg (by simpa using fits), List.length_append, List.length_cons]
            omega

/-! ### What the reader takes -/

open ObservationReader

theorem takes_readFixed (count : ℕ) :
    Takes (readFixed count) (fun bytes taken => bytes.length = count ∧ taken = count) :=
  Takes.readExact fun _ length => ⟨length, rfl⟩

theorem length_of_fromUtf8 {bytes : List UInt8} {s : String} (decoded : fromUtf8 bytes = some s) :
    (utf8Bytes s).length = bytes.length := by
  unfold fromUtf8 String.fromUTF8? at decoded
  split at decoded
  · cases decoded
    rfl
  · cases decoded

theorem takes_readU16Str : Takes readU16Str (fun s taken => taken = (strBytes s).length) := by
  apply Takes.bind (takes_readFixed 2)
  rintro lenBuf _ ⟨_, rfl⟩
  apply Takes.bind (takes_readFixed _)
  rintro buf _ ⟨length, rfl⟩
  split
  · next s decoded =>
      apply Takes.pure
      rw [strBytes, List.length_append, length_leBytes, length_of_fromUtf8 decoded, length,
        Nat.add_zero]
  · exact Takes.fail _

theorem takes_readObjectIdentity :
    Takes readObjectIdentity (fun oid taken => taken = (identityBytes oid).length) := by
  apply Takes.bind (takes_readFixed 1)
  rintro flag _ ⟨_, rfl⟩
  split
  · exact Takes.pure rfl
  split
  · apply Takes.bind (takes_readFixed 16)
    rintro guid _ ⟨_, rfl⟩
    apply Takes.bind (takes_readFixed 16)
    rintro fileId _ ⟨_, rfl⟩
    apply Takes.pure
    simp [identityBytes]
  · exact Takes.fail _

theorem takes_readLinkKnowledge :
    Takes readLinkKnowledge (fun links taken => taken = (linkBytes links).length) := by
  apply Takes.bind (takes_readFixed 1)
  rintro tag _ ⟨_, rfl⟩
  apply Takes.bind (takes_readFixed 4)
  rintro value _ ⟨_, rfl⟩
  split
  · exact Takes.pure rfl
  split
  · exact Takes.pure (by simp [linkBytes])
  split
  · exact Takes.pure rfl
  split
  · exact Takes.pure rfl
  · exact Takes.fail _

theorem length_allocationBytes (allocatedSize : Option UInt64) :
    (allocationBytes allocatedSize).length = 9 := by
  cases allocatedSize with
  | none => rfl
  | some alloc => simp [allocationBytes]

theorem takes_allocatedSizeOf (flag : UInt8) (raw : UInt64) :
    Takes (allocatedSizeOf flag raw) (fun _ taken => taken = 0) := by
  unfold allocatedSizeOf
  split
  · exact Takes.pure rfl
  split
  · exact Takes.pure rfl
  · exact Takes.fail _

theorem takes_readDirectory : Takes (readDirectory workerStreamVersion)
    (fun dir taken => taken = (bodyBytes (.directory dir)).length) := by
  apply Takes.bind (takes_readFixed _)
  rintro fixed _ ⟨_, rfl⟩
  have evidence : Takes (readDirectoryEvidence workerStreamVersion) (fun evidence taken =>
      taken = 9 + (identityBytes evidence.2.1).length + (linkBytes evidence.2.2).length) := by
    apply Takes.bind (takes_readFixed 1)
    rintro flag _ ⟨_, rfl⟩
    apply Takes.bind (takes_readFixed 8)
    rintro raw _ ⟨_, rfl⟩
    apply Takes.bind (takes_allocatedSizeOf _ _)
    rintro alloc _ rfl
    apply Takes.bind takes_readObjectIdentity
    rintro oid _ rfl
    apply Takes.bind takes_readLinkKnowledge
    rintro links _ rfl
    apply Takes.pure
    dsimp only
    omega
  apply Takes.bind evidence
  rintro evidence _ rfl
  apply Takes.bind takes_readU16Str
  rintro name _ rfl
  apply Takes.pure
  simp only [bodyBytes, entryBytes, List.length_append, length_leBytes, length_allocationBytes]
  omega

theorem takes_readFile : Takes (readFile workerStreamVersion)
    (fun file taken => taken = (bodyBytes (.file file)).length) := by
  apply Takes.bind (takes_readFixed _)
  rintro fixed _ ⟨_, rfl⟩
  apply Takes.bind (takes_allocatedSizeOf _ _)
  rintro alloc _ rfl
  have evidence : Takes (readFileEvidence workerStreamVersion) (fun evidence taken =>
      taken = (identityBytes evidence.1).length + (linkBytes evidence.2).length) := by
    apply Takes.bind takes_readObjectIdentity
    rintro oid _ rfl
    apply Takes.bind takes_readLinkKnowledge
    rintro links _ rfl
    exact Takes.pure rfl
  apply Takes.bind evidence
  rintro evidence _ rfl
  apply Takes.bind takes_readU16Str
  rintro name _ rfl
  apply Takes.pure
  rw [bodyBytes, List.length_append, length_fileBytes, List.length_append, List.length_append]
  dsimp only
  omega

theorem takes_readSpecial : Takes (readSpecial workerStreamVersion)
    (fun special taken => taken = (bodyBytes (.special special)).length) := by
  apply Takes.bind (takes_readFixed _)
  rintro fixed _ ⟨_, rfl⟩
  apply Takes.bind takes_readObjectIdentity
  rintro oid _ rfl
  apply Takes.bind takes_readU16Str
  rintro name _ rfl
  apply Takes.pure
  simp only [bodyBytes, entryBytes, List.length_append, length_leBytes]
  omega

theorem takes_readContentStream : Takes readContentStream
    (fun stream taken => taken = (bodyBytes (.contentStream stream)).length) := by
  apply Takes.bind (takes_readFixed _)
  rintro fixed _ ⟨_, rfl⟩
  have allocation : Takes (readStreamAllocatedSize (u8At fixed 12)) (fun allocatedSize taken =>
      taken + 1 = (streamAllocationBytes allocatedSize).length) := by
    unfold readStreamAllocatedSize
    split
    · exact Takes.pure rfl
    split
    · apply Takes.bind (takes_readFixed 8)
      rintro raw _ ⟨_, rfl⟩
      exact Takes.pure (by simp [streamAllocationBytes])
    · exact Takes.fail _
  apply Takes.bind allocation
  intro allocatedSize taken length
  apply Takes.bind takes_readU16Str
  rintro name _ rfl
  apply Takes.pure
  simp only [bodyBytes, List.length_append, length_leBytes, ← length]
  omega

theorem takes_readCoverageGap : Takes readCoverageGap
    (fun gap taken => taken = (bodyBytes (.coverageGap gap)).length) := by
  apply Takes.bind (takes_readFixed _)
  rintro fixed _ ⟨_, rfl⟩
  apply Takes.bind takes_readU16Str
  rintro path _ rfl
  apply Takes.bind takes_readU16Str
  rintro message _ rfl
  apply Takes.pure
  simp only [bodyBytes, List.length_append, length_leBytes, Nat.add_zero]

theorem takes_readTerminal : Takes readTerminal
    (fun term taken => taken = (bodyBytes (.terminal term)).length) := by
  apply Takes.bind (takes_readFixed _)
  rintro fixed _ ⟨_, rfl⟩
  have outcome : Takes (ByteReader.lift (RunOutcome.fromU8 (u8At fixed 0)) :
      ObservationInput RunOutcome) (fun _ taken => taken = 0) := Takes.lift fun _ _ => rfl
  apply Takes.bind outcome
  rintro outcome _ rfl
  apply Takes.pure
  simp [bodyBytes]

/-- A tagged record is answered, and has taken its own length. -/
theorem takes_readTagged (tag : RecordTag) : Takes (readTagged workerStreamVersion tag)
    (fun answer taken => ∃ record, answer = some record ∧ taken = (bodyBytes record).length) := by
  cases tag with
  | directory =>
      apply Takes.bind takes_readDirectory
      rintro dir _ rfl
      exact Takes.pure ⟨_, rfl, Nat.add_zero _⟩
  | file =>
      apply Takes.bind takes_readFile
      rintro file _ rfl
      exact Takes.pure ⟨_, rfl, Nat.add_zero _⟩
  | specialObject =>
      apply Takes.bind takes_readSpecial
      rintro special _ rfl
      exact Takes.pure ⟨_, rfl, Nat.add_zero _⟩
  | coverageGap =>
      apply Takes.bind takes_readCoverageGap
      rintro gap _ rfl
      exact Takes.pure ⟨_, rfl, Nat.add_zero _⟩
  | contentStream =>
      apply Takes.bind takes_readContentStream
      rintro stream _ rfl
      exact Takes.pure ⟨_, rfl, Nat.add_zero _⟩
  | terminal =>
      apply Takes.bind takes_readTerminal
      rintro term _ rfl
      exact Takes.pure ⟨_, rfl, Nat.add_zero _⟩

section ReadRecord

variable {targetPath : String} {bytes rest : List UInt8}

theorem readRecord_cons {tagByte : UInt8} {answer : Option ObservationRecord}
    (read : (currentReader targetPath).readRecord (tagByte :: bytes) = .ok (answer, rest)) :
    ∃ record, answer = some record ∧
      (tagByte :: bytes).length = (recordBytes record).length + rest.length := by
  cases tag : RecordTag.fromU8 tagByte with
  | error err =>
      have fails : (currentReader targetPath).readRecord (tagByte :: bytes) = .error err := by
        simp only [readRecord, bind_apply, readByte_cons, Except.bind, tag, ByteReader.lift,
          ByteReader.fail]
      rw [fails] at read
      cases read
  | ok tag' =>
      have goesOn : (currentReader targetPath).readRecord (tagByte :: bytes) =
          readTagged workerStreamVersion tag' bytes := by
        simp only [readRecord, bind_apply, readByte_cons, Except.bind, tag, ByteReader.lift,
          pure_apply, currentReader]
      rw [goesOn] at read
      rcases takes_readTagged tag' bytes answer rest read with
        ⟨count, length, record, isRecord, taken⟩
      refine ⟨record, isRecord, ?_⟩
      rw [recordBytes, List.length_cons, List.length_cons, length, taken]
      omega

/-- Reading a stream to its end takes exactly the bytes of the records it yields. -/
theorem length_of_readsAs {reader : Option ObservationReader} {records : List ObservationRecord}
    (shortTarget : targetPath.utf8ByteSize ≤ 65535)
    (reads : ReadsAs (streamHeaderBytes targetPath ++ bytes) reader records none) :
    bytes.length = (records.map (fun record => (recordBytes record).length)).sum := by
  unfold ReadsAs at reads
  rw [(decodes_new shortTarget).complete] at reads
  refine Yields.length_eq ?_ ?_ reads.2
  · intro input record rest read
    cases input with
    | nil => cases read
    | cons tagByte input =>
        rcases readRecord_cons read with ⟨_, same, length⟩
        cases same
        exact length
  · intro input rest read
    cases input with
    | nil => rfl
    | cons tagByte input =>
        rcases readRecord_cons read with ⟨_, impossible, _⟩
        cases impossible

end ReadRecord

/-! ### Failed writes -/

/-- The bytes emitted by a stream whose calls are made whether or not earlier ones failed. -/
def emittedBytes (targetPath : String) (records : List ObservationRecord) : List UInt8 :=
  (ObservationWriter.callAll records (ObservationWriter.new targetPath []).2).2

/-- What the calls answer. -/
def callAnswers (targetPath : String) (records : List ObservationRecord) :
    List (Except ObservationWriteError Unit) :=
  (ObservationWriter.callAll records (ObservationWriter.new targetPath []).2).1

theorem emitted_called {targetPath : String} (shortTarget : targetPath.utf8ByteSize ≤ 65535)
    (records : List ObservationRecord) : ∃ bytes,
    emittedBytes targetPath records = streamHeaderBytes targetPath ++ bytes ∧
      Called records (callAnswers targetPath records) bytes := by
  rcases callAll_spec records with ⟨answers, bytes, ran, called⟩
  refine ⟨bytes, ?_, ?_⟩
  · rw [emittedBytes, ran, writes_new shortTarget]
    rfl
  · rw [callAnswers, ran]
    exact called

/-- After a failed call the stream is not read back as the accepted records. -/
theorem torn_unreadable {targetPath : String} (shortTarget : targetPath.utf8ByteSize ≤ 65535)
    {records : List ObservationRecord} (refused : ∃ record ∈ records, ¬Encodable record)
    (reader : Option ObservationReader) : ¬ReadsAs (emittedBytes targetPath records) reader
      (answeredOk records (callAnswers targetPath records)) none := by
  rcases emitted_called shortTarget records with ⟨bytes, emitted, called⟩
  rw [emitted, called.accepted]
  intro reads
  have taken := length_of_readsAs shortTarget reads
  have more := called.torn refused
  omega

/-- The emitted bytes are read back as the records of the calls that returned `Ok` exactly
when no call fails. -/
theorem failedWrites_readable_iff (targetPath : String) (records : List ObservationRecord)
    (opened : targetPath.utf8ByteSize ≤ 65535) :
    ReadsAs (emittedBytes targetPath records) (some { targetPath, streamVersion := 2 })
        (answeredOk records (callAnswers targetPath records)) none ↔
      ∀ record ∈ records, ∀ s ∈ recordStrings record, s.utf8ByteSize ≤ 65535 := by
  constructor
  · intro reads
    by_contra some
    have refused : ∃ record ∈ records, ¬Encodable record := by
      simp only [not_forall] at some
      rcases some with ⟨record, recordMem, s, sMem, long⟩
      exact ⟨record, recordMem, fun fits => long (fits s sMem)⟩
    exact torn_unreadable opened refused _ reads
  · intro all
    rcases emitted_called opened records with ⟨bytes, emitted, called⟩
    have kept : records.filter (fun record => Encodable record) = records :=
      List.filter_eq_self.mpr (fun record recordMem => decide_eq_true (all record recordMem))
    rw [emitted, called.accepted, called.whole all, kept]
    exact readsAs_streamBytes opened all

theorem utf8ByteSize_replicate (count : ℕ) (c : Char) :
    (String.ofList (List.replicate count c)).utf8ByteSize = count * c.utf8Size := by
  rw [String.utf8ByteSize_ofList]
  induction count with
  | zero => simp
  | succ count ih => rw [List.replicate_succ, String.utf8Len_cons, ih, Nat.succ_mul]

/-- A gap whose path is one character too long, before the terminal record. -/
def Sample.tornGap : List ObservationRecord := [
  .coverageGap {
    path := String.ofList (List.replicate 65536 'a'), errorCode := 5, errorMessage := "" },
  .terminal {
    outcome := .finished, totalDirectories := 0, totalFiles := 0, totalLogicalBytes := 0
    totalAllocatedBytes := 0, coverageGapCount := 1, durationMs := 0 }]

/-- The records of a stream in which no call fails, and of one in which the first fails. -/
theorem failedWrites_readable_iff_sample :
    (ReadsAs (emittedBytes "C:\\" Sample.observations)
        (some { targetPath := "C:\\", streamVersion := 2 })
        (answeredOk Sample.observations (callAnswers "C:\\" Sample.observations)) none ↔
      ∀ record ∈ Sample.observations, ∀ s ∈ recordStrings record, s.utf8ByteSize ≤ 65535) ∧
    (ReadsAs (emittedBytes "C:\\" Sample.tornGap)
        (some { targetPath := "C:\\", streamVersion := 2 })
        (answeredOk Sample.tornGap (callAnswers "C:\\" Sample.tornGap)) none ↔
      ∀ record ∈ Sample.tornGap, ∀ s ∈ recordStrings record, s.utf8ByteSize ≤ 65535) :=
  ⟨failedWrites_readable_iff "C:\\" Sample.observations (by decide),
    failedWrites_readable_iff "C:\\" Sample.tornGap (by decide)⟩

theorem not_readable_tornGap : ¬ReadsAs (emittedBytes "C:\\" Sample.tornGap)
    (some { targetPath := "C:\\", streamVersion := 2 })
    (answeredOk Sample.tornGap (callAnswers "C:\\" Sample.tornGap)) none := by
  apply torn_unreadable (by decide)
  refine ⟨_, List.mem_cons_self, ?_⟩
  intro fits
  have long := fits _ List.mem_cons_self
  rw [utf8ByteSize_replicate] at long
  exact absurd long (by decide)

end PigTree
