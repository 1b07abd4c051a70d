import PigTree.Session.Transport

/-!
# The client's frame codec

The client has its own checksum and its own two decoders. They make the checks of
the engine's decoders in the same order, so a byte string decodes to one frame, or
fails for one reason, wherever it arrives.
-/

namespace PigTree

open Foundation ByteReader

namespace Client

/-! ### Checksums -/

namespace Crc32C

def poly : UInt32 := 0x82F63B78

def tableEntry (i : ℕ) : UInt32 :=
  (List.range 8).foldl
    (fun crc _ => if crc &&& 1 ≠ 0 then (crc >>> 1) ^^^ poly else crc >>> 1) (UInt32.ofNat i)

def initializeTable : List UInt32 := (List.range 256).map tableEntry

def update (currentCrc : UInt32) (data : List UInt8) : UInt32 :=
  data.foldl (fun crc b =>
    let index := ((crc ^^^ b.toUInt32) &&& 0xFF).toUInt8
    (crc >>> 8) ^^^ initializeTable.getD index.toNat 0) currentCrc

def finalize (crc : UInt32) : UInt32 := ~~~crc

def compute (data : List UInt8) : UInt32 := finalize (update 0xFFFFFFFF data)

end Crc32C

/-! ### The decoders -/

/-- The header of a decoded frame. The tag is an enumeration over bytes: a cast to it
is not checked. -/
structure FrameHeader where
  channelTag : UInt8
  flags : UInt8
  sequenceNumber : UInt64
  payloadLength : UInt32
deriving DecidableEq, Repr

structure Frame where
  header : FrameHeader
  payload : List UInt8
deriving DecidableEq, Repr

/-- What the decoders throw: end-of-stream exceptions for missing bytes, otherwise
invalid-data exceptions, with the numbers of their messages. -/
inductive CodecException where
  | headerMissing (length : ℕ)
  | frameMissing (length required : ℕ)
  | streamMissing (count read : ℕ)
  | invalidMagic (first second : UInt8)
  | unsupportedVersion (version : ℕ)
  | invalidChannelTag (tag : UInt8)
  | invalidReserved (reserved : ℕ)
  | payloadTooLarge (size : UInt32)
  | checksumMismatch (expected computed : UInt32)
deriving DecidableEq, Repr

namespace FrameCodec

def magic : List UInt8 := [0x50, 0x54]

def schemaVersion : ℕ := 1

def headerSize : ℕ := 20

def crcSize : ℕ := 4

def maxPayloadSize : ℕ := 4 * 1024 * 1024

/-- The named values of the channel tag. -/
def definedTags : List UInt8 := [0x01, 0x02, 0x03, 0x04]

/-- Decode a frame from the front of a buffer. -/
def decodeFrame (buffer : List UInt8) : Except CodecException Frame :=
  if buffer.length < headerSize then .error (.headerMissing buffer.length)
  else if byteAt buffer 0 ≠ byteAt magic 0 ∨ byteAt buffer 1 ≠ byteAt magic 1 then
    .error (.invalidMagic (byteAt buffer 0) (byteAt buffer 1))
  else
    let version := leValue (slice buffer 2 2)
    if version ≠ schemaVersion then .error (.unsupportedVersion version)
    else
      let tagByte := byteAt buffer 4
      if tagByte ∉ definedTags then .error (.invalidChannelTag tagByte)
      else
        let flags := byteAt buffer 5
        let reserved := leValue (slice buffer 6 2)
        if reserved ≠ 0 then .error (.invalidReserved reserved)
        else
          let seq := UInt64.ofNat (leValue (slice buffer 8 8))
          let payloadLen := UInt32.ofNat (leValue (slice buffer 16 4))
          if payloadLen.toNat > maxPayloadSize then .error (.payloadTooLarge payloadLen)
          else
            let requiredLen := headerSize + payloadLen.toNat + crcSize
            if buffer.length < requiredLen then .error (.frameMissing buffer.length requiredLen)
            else
              let expectedCrc :=
                UInt32.ofNat (leValue (slice buffer (headerSize + payloadLen.toNat) crcSize))
              let computedCrc := Crc32C.compute (slice buffer 0 (headerSize + payloadLen.toNat))
              if expectedCrc ≠ computedCrc then
                .error (.checksumMismatch expectedCrc computedCrc)
              else
                let payload :=
                  if payloadLen = 0 then [] else slice buffer headerSize payloadLen.toNat
                .ok {
                  header := {
                    channelTag := tagByte, flags, sequenceNumber := seq,
                    payloadLength := payloadLen }
                  payload }

/-- Fill a buffer from the stream. -/
def readExact (count : ℕ) : ByteReader CodecException (List UInt8) := fun bytes =>
  if bytes.length < count then .error (.streamMissing count bytes.length)
  else .ok (bytes.take count, bytes.drop count)

def readPayload (payloadLen : UInt32) : ByteReader CodecException (List UInt8) :=
  if payloadLen = 0 then pure [] else readExact payloadLen.toNat

/-- Read one frame; nothing when the stream ends before its first byte. -/
def readFrame : ByteReader CodecException (Option Frame) := do
  match ← ByteReader.readByte with
  | none => return none
  | some firstByte =>
      let headerRest ← readExact (headerSize - 1)
      let headerBuf := firstByte :: headerRest
      if byteAt headerBuf 0 ≠ byteAt magic 0 ∨ byteAt headerBuf 1 ≠ byteAt magic 1 then
        ByteReader.fail (.invalidMagic (byteAt headerBuf 0) (byteAt headerBuf 1))
      else
        let version := leValue (slice headerBuf 2 2)
        if version ≠ schemaVersion then ByteReader.fail (.unsupportedVersion version)
        else
          let tagByte := byteAt headerBuf 4
          if tagByte ∉ definedTags then ByteReader.fail (.invalidChannelTag tagByte)
          else
            let flags := byteAt headerBuf 5
            let reserved := leValue (slice headerBuf 6 2)
            if reserved ≠ 0 then ByteReader.fail (.invalidReserved reserved)
            else
              let seq := UInt64.ofNat (leValue (slice headerBuf 8 8))
              let payloadLen := UInt32.ofNat (leValue (slice headerBuf 16 4))
              if payloadLen.toNat > maxPayloadSize then
                ByteReader.fail (.payloadTooLarge payloadLen)
              else
                let payload ← readPayload payloadLen
                let crcBuf ← readExact crcSize
                let expectedCrc := UInt32.ofNat (leValue crcBuf)
                let computedCrc := Crc32C.finalize
                  (Crc32C.update (Crc32C.update 0xFFFFFFFF headerBuf) payload)
                if expectedCrc ≠ computedCrc then
                  ByteReader.fail (.checksumMismatch expectedCrc computedCrc)
                else
                  return some {
                    header := {
                      channelTag := tagByte, flags, sequenceNumber := seq,
                      payloadLength := payloadLen }
                    payload }

end FrameCodec

/-! ### Agreement with the engine -/

namespace Crc32C

theorem initializeTable_eq : initializeTable = Crc32c.table := by
  apply List.map_congr_left
  intro i _
  rfl

/-- The index is cast to a byte here and masked only in the engine. -/
theorem index_eq (word : UInt32) : (word &&& 0xFF).toUInt8.toNat = (word &&& 0xFF).toNat := by
  have masked : (word &&& 0xFF).toNat = word.toNat % 2 ^ 8 := by
    rw [UInt32.toNat_and]
    exact Nat.and_two_pow_sub_one_eq_mod word.toNat 8
  rw [UInt32.toNat_toUInt8, masked, Nat.mod_mod]

theorem update_eq (crc : UInt32) (data : List UInt8) :
    update crc data = data.foldl Crc32c.update crc := by
  unfold update
  congr 1
  funext word byte
  dsimp only
  rw [Crc32c.update, index_eq, initializeTable_eq]

theorem compute_eq (data : List UInt8) : compute data = Crc32c.compute data := by
  rw [compute, update_eq]
  rfl

/-- Checksums of consecutive pieces are taken one after the other. -/
theorem finalize_update_update (front data : List UInt8) :
    finalize (update (update 0xFFFFFFFF front) data) = Crc32c.compute (front ++ data) := by
  rw [update_eq, update_eq, ← List.foldl_append]
  rfl

end Crc32C

/-- A client frame with the tag, flags, number and payload of a frame of the engine. -/
structure Frame.Agrees (frame : Frame) (parsed : PigTree.FrameHeader × List UInt8) : Prop where
  channelTag : frame.header.channelTag = parsed.1.channelTag.toU8
  flags : frame.header.flags = parsed.1.flags
  sequenceNumber : frame.header.sequenceNumber = parsed.1.sequenceNumber
  payload : frame.payload = parsed.2

/-- The client's frame for what the engine decodes. -/
def Frame.of (parsed : PigTree.FrameHeader × List UInt8) : Frame where
  header := {
    channelTag := parsed.1.channelTag.toU8
    flags := parsed.1.flags
    sequenceNumber := parsed.1.sequenceNumber
    payloadLength := UInt32.ofNat parsed.2.length }
  payload := parsed.2

theorem Frame.of_agrees (parsed : PigTree.FrameHeader × List UInt8) :
    (Frame.of parsed).Agrees parsed where
  channelTag := rfl
  flags := rfl
  sequenceNumber := rfl
  payload := rfl

/-- The client's exception for the engine's error on a buffer. -/
def CodecException.of (buffer : List UInt8) : FrameParseError → CodecException
  | .prematureEof =>
      if buffer.length < headerSize then .headerMissing buffer.length
      else .frameMissing buffer.length (headerSize + leValue (slice buffer 16 4) + crcSize)
  | .invalidMagic found => .invalidMagic (byteAt found 0) (byteAt found 1)
  | .unsupportedVersion version => .unsupportedVersion version
  | .invalidChannelTag tag => .invalidChannelTag tag
  | .invalidReserved reserved => .invalidReserved reserved
  | .payloadTooLarge size => .payloadTooLarge (UInt32.ofNat size)
  | .checksumMismatch expected calculated => .checksumMismatch expected calculated

namespace FrameCodec

variable {buffer : List UInt8}

/-- Both bytes of the magic are compared, one by one or together. -/
theorem magic_iff (long : headerSize ≤ buffer.length) :
    (byteAt buffer 0 ≠ byteAt magic 0 ∨ byteAt buffer 1 ≠ byteAt magic 1) ↔
      slice buffer 0 2 ≠ magicBytes := by
  match buffer, long with
  | [], long => exact absurd long (by decide)
  | [first], long =>
      rw [List.length_singleton] at long
      exact absurd long (by decide)
  | first :: second :: rest, _ =>
      have front : slice (first :: second :: rest) 0 2 = [first, second] := rfl
      rw [front, ← not_and_or, not_iff_not]
      simp [byteAt, magic, magicBytes]

/-- The enumeration names the tags the engine knows. -/
theorem mem_definedTags_iff (tagByte : UInt8) :
    tagByte ∈ definedTags ↔ ∃ tag, ChannelTag.fromU8 tagByte = .ok tag := by
  constructor
  · intro defined
    simp only [definedTags, List.mem_cons, List.not_mem_nil, or_false] at defined
    rcases defined with rfl | rfl | rfl | rfl
    · exact ⟨.command, rfl⟩
    · exact ⟨.losslessDomain, rfl⟩
    · exact ⟨.progressPulse, rfl⟩
    · exact ⟨.cancellationHeartbeat, rfl⟩
  · rintro ⟨tag, known⟩
    rw [ChannelTag.toU8_of_fromU8 known]
    cases tag with
    | command => decide
    | losslessDomain => decide
    | progressPulse => decide
    | cancellationHeartbeat => decide

/-- The payload length is a 32-bit number, so the cast keeps it. -/
theorem toNat_payloadLen (buffer : List UInt8) :
    (UInt32.ofNat (leValue (slice buffer 16 4))).toNat = leValue (slice buffer 16 4) := by
  apply UInt32.toNat_ofNat_of_lt'
  have width : (slice buffer 16 4).length ≤ 4 := by
    rw [slice, List.length_take]
    exact Nat.min_le_left _ _
  calc leValue (slice buffer 16 4) < 256 ^ (slice buffer 16 4).length := leValue_lt _
    _ ≤ 256 ^ 4 := Nat.pow_le_pow_right (by decide) width

/-- An empty payload needs no copy. -/
theorem payload_eq (buffer : List UInt8) :
    (if UInt32.ofNat (leValue (slice buffer 16 4)) = 0 then []
      else slice buffer headerSize (leValue (slice buffer 16 4))) =
        slice buffer headerSize (leValue (slice buffer 16 4)) := by
  by_cases zero : UInt32.ofNat (leValue (slice buffer 16 4)) = 0
  · have none : leValue (slice buffer 16 4) = 0 := by
      rw [← toNat_payloadLen, zero]
      rfl
    rw [if_pos zero, none]
    rfl
  · exact if_neg zero

/-- The client decodes what the engine decodes, and fails on the same check. -/
theorem decodeFrame_client (buffer : List UInt8) :
    decodeFrame buffer =
      match PigTree.decodeFrame buffer with
      | .ok parsed => .ok (Frame.of parsed)
      | .error err => .error (CodecException.of buffer err) := by
  unfold decodeFrame PigTree.decodeFrame
  by_cases short : buffer.length < headerSize
  · have shortHere : buffer.length < PigTree.headerSize := short
    rw [if_pos short, if_pos shortHere]
    exact congrArg Except.error (if_pos shortHere).symm
  have long : headerSize ≤ buffer.length := Nat.le_of_not_lt short
  have longHere : ¬buffer.length < PigTree.headerSize := short
  rw [if_neg short, if_neg longHere]
  dsimp only
  by_cases magicFails : slice buffer 0 2 ≠ magicBytes
  · rw [if_pos magicFails, if_pos ((magic_iff long).mpr magicFails)]
    have first : byteAt (slice buffer 0 2) 0 = byteAt buffer 0 := byteAt_take (by decide)
    have second : byteAt (slice buffer 0 2) 1 = byteAt buffer 1 := byteAt_take (by decide)
    dsimp only [CodecException.of]
    rw [first, second]
  rw [if_neg magicFails, if_neg (mt (magic_iff long).mp magicFails)]
  by_cases versionFails : leValue (slice buffer 2 2) ≠ PigTree.schemaVersion
  · rw [if_pos versionFails]
    exact if_pos versionFails
  rw [if_neg versionFails]
  apply (if_neg versionFails).trans
  cases tagged : ChannelTag.fromU8 (byteAt buffer 4) with
  | error err =>
      have undefinedTag : byteAt buffer 4 ∉ definedTags := by
        rw [mem_definedTags_iff, tagged]
        rintro ⟨tag, impossible⟩
        cases impossible
      rw [if_pos undefinedTag, ChannelTag.fromU8_error tagged]
      rfl
  | ok tag =>
      have defined : ¬byteAt buffer 4 ∉ definedTags :=
        not_not_intro ((mem_definedTags_iff _).mpr ⟨tag, tagged⟩)
      rw [if_neg defined, toNat_payloadLen]
      dsimp only [bind, Except.bind]
      by_cases reservedFails : leValue (slice buffer 6 2) ≠ 0
      · rw [if_pos reservedFails, if_pos reservedFails]
        rfl
      rw [if_neg reservedFails, if_neg reservedFails]
      by_cases large : leValue (slice buffer 16 4) > PigTree.maxPayloadSize
      · rw [if_pos large]
        exact if_pos large
      rw [if_neg large]
      apply (if_neg large).trans
      by_cases missing :
          buffer.length < PigTree.headerSize + leValue (slice buffer 16 4) + PigTree.crcSize
      · rw [if_pos missing]
        apply (if_pos missing).trans
        exact congrArg Except.error (if_neg longHere).symm
      rw [if_neg missing]
      apply (if_neg missing).trans
      have front : slice buffer 0 (headerSize + leValue (slice buffer 16 4)) =
          buffer.take (PigTree.headerSize + leValue (slice buffer 16 4)) := rfl
      rw [front, Crc32C.compute_eq]
      by_cases mismatch : UInt32.ofNat (leValue (slice buffer
          (PigTree.headerSize + leValue (slice buffer 16 4)) PigTree.crcSize)) ≠
            Crc32c.compute (buffer.take (PigTree.headerSize + leValue (slice buffer 16 4)))
      · rw [if_pos mismatch]
        exact if_pos mismatch
      rw [if_neg mismatch]
      apply (if_neg mismatch).trans
      have length : (slice buffer PigTree.headerSize (leValue (slice buffer 16 4))).length =
          leValue (slice buffer 16 4) := length_slice (by omega)
      rw [payload_eq]
      simp only [Frame.of, length, ← ChannelTag.toU8_of_fromU8 tagged]
      rfl

/-! ### Reading from a stream -/

theorem readExact_of_le {count : ℕ} {bytes : List UInt8} (enough : count ≤ bytes.length) :
    readExact count bytes = .ok (bytes.take count, bytes.drop count) :=
  if_neg (Nat.not_lt_of_le enough)

theorem readExact_short {count : ℕ} {bytes : List UInt8} (short : bytes.length < count) :
    readExact count bytes = .error (.streamMissing count bytes.length) :=
  if_pos short

/-- Nothing needs to be read for an empty payload. -/
theorem readPayload_eq (payloadLen : UInt32) :
    readPayload payloadLen = readExact payloadLen.toNat := by
  by_cases zero : payloadLen = 0
  · rw [zero]
    rfl
  · exact if_neg zero

/-- What the client reads from a stream after the header. -/
def readBody (header : FrameHeader) (front : List UInt8) (payloadLen : ℕ) :
    ByteReader CodecException (Option Frame) := do
  let payload ← readExact payloadLen
  let crcBuf ← readExact crcSize
  let expectedCrc := UInt32.ofNat (leValue crcBuf)
  let computedCrc := Crc32C.finalize (Crc32C.update (Crc32C.update 0xFFFFFFFF front) payload)
  if expectedCrc ≠ computedCrc then
    ByteReader.fail (.checksumMismatch expectedCrc computedCrc)
  else return some { header, payload }

end FrameCodec

/-- The exception the client throws for one of the engine's errors, without its message. -/
inductive ExceptionType where
  | endOfStream
  | invalidData
deriving DecidableEq, Repr

def CodecException.type : CodecException → ExceptionType
  | .headerMissing _ | .frameMissing _ _ | .streamMissing _ _ => .endOfStream
  | .invalidMagic _ _ | .unsupportedVersion _ | .invalidChannelTag _ | .invalidReserved _
  | .payloadTooLarge _ | .checksumMismatch _ _ => .invalidData

def ExceptionType.of : FrameParseError → ExceptionType
  | .prematureEof => .endOfStream
  | .invalidMagic _ | .unsupportedVersion _ | .invalidChannelTag _ | .invalidReserved _
  | .payloadTooLarge _ | .checksumMismatch _ _ => .invalidData

theorem CodecException.type_of (buffer : List UInt8) (err : FrameParseError) :
    (CodecException.of buffer err).type = ExceptionType.of err := by
  cases err with
  | prematureEof =>
      dsimp only [CodecException.of]
      split
      · rfl
      · rfl
  | invalidMagic found => rfl
  | unsupportedVersion version => rfl
  | invalidChannelTag tag => rfl
  | invalidReserved reserved => rfl
  | payloadTooLarge size => rfl
  | checksumMismatch expected calculated => rfl

namespace FrameCodec

/-- The body is read as the engine reads it. -/
theorem readBody_client (header : PigTree.FrameHeader) (front bytes : List UInt8)
    {payloadLen : ℕ} :
    (readBody {
        channelTag := header.channelTag.toU8, flags := header.flags,
        sequenceNumber := header.sequenceNumber, payloadLength := UInt32.ofNat payloadLen }
      front payloadLen bytes).mapError CodecException.type =
      ((PigTree.readBody header front payloadLen bytes).map
        (fun read => (read.1.map (fun frame => Frame.of (frame.header, frame.payload)),
          read.2))).mapError ExceptionType.of := by
  rw [PigTree.readBody_eq]
  unfold readBody checkBody
  rw [bind_apply]
  by_cases enough : payloadLen ≤ bytes.length
  · rw [readExact_of_le enough]
    dsimp only [Except.bind]
    rw [bind_apply]
    by_cases complete : bytes.length < payloadLen + PigTree.crcSize
    · have short : (bytes.drop payloadLen).length < crcSize := by
        rw [List.length_drop]
        exact Nat.sub_lt_left_of_lt_add enough complete
      rw [readExact_short short, if_pos complete]
      rfl
    · have long : crcSize ≤ (bytes.drop payloadLen).length := by
        rw [List.length_drop]
        exact Nat.le_sub_of_add_le' (Nat.le_of_not_lt complete)
      have length : (bytes.take payloadLen).length = payloadLen := List.length_take_of_le enough
      rw [readExact_of_le long, if_neg complete, List.drop_drop]
      dsimp only [Except.bind]
      rw [Crc32C.finalize_update_update]
      have size : crcSize = PigTree.crcSize := rfl
      rw [slice, size]
      split
      · rfl
      · simp only [Except.map, Except.mapError, Frame.of, length, pure_apply, Option.map_some]
  · have short : bytes.length < payloadLen + PigTree.crcSize := by omega
    rw [readExact_short (Nat.lt_of_not_le enough), if_pos short]
    rfl

/-- The client reads what the engine reads, and throws the same type of exception. -/
theorem readFrame_client (bytes : List UInt8) :
    (readFrame bytes).mapError CodecException.type =
      ((PigTree.readFrame bytes).map
        (fun read => (read.1.map (fun frame => Frame.of (frame.header, frame.payload)),
          read.2))).mapError ExceptionType.of := by
  cases bytes with
  | nil => rfl
  | cons first rest =>
      by_cases few : rest.length < headerSize - 1
      · have short : (first :: rest).length < PigTree.headerSize := by
          rw [List.length_cons]
          exact Nat.lt_sub_iff_add_lt.mp few
        rw [readFrame_short (List.cons_ne_nil _ _) short, readFrame, bind_apply, readByte_cons]
        dsimp only [Except.bind]
        rw [bind_apply, readExact_short few]
        rfl
      have enough : headerSize - 1 ≤ rest.length := Nat.le_of_not_lt few
      have longAll : PigTree.headerSize ≤ (first :: rest).length := by
        rw [List.length_cons]
        exact Nat.sub_le_iff_le_add.mp enough
      have front : (first :: rest).take PigTree.headerSize =
          first :: rest.take (headerSize - 1) := rfl
      have behind : (first :: rest).drop PigTree.headerSize = rest.drop (headerSize - 1) := rfl
      have long : headerSize ≤ (first :: rest.take (headerSize - 1)).length := by
        rw [List.length_cons, List.length_take_of_le enough]
        decide
      rw [readFrame_eq longAll, front, behind, readFrame, bind_apply, readByte_cons]
      dsimp only [Except.bind]
      rw [bind_apply, readExact_of_le enough]
      dsimp only [Except.bind]
      generalize first :: rest.take (headerSize - 1) = headerBuf at long
      unfold checkHeader
      by_cases magicFails : slice headerBuf 0 2 ≠ magicBytes
      · rw [if_pos magicFails, if_pos ((magic_iff long).mpr magicFails)]
        rfl
      rw [if_neg magicFails, if_neg (mt (magic_iff long).mp magicFails)]
      by_cases versionFails : leValue (slice headerBuf 2 2) ≠ PigTree.schemaVersion
      · have versionHere : leValue (slice headerBuf 2 2) ≠ schemaVersion := versionFails
        rw [if_pos versionFails, if_pos versionHere]
        rfl
      have versionHere : ¬leValue (slice headerBuf 2 2) ≠ schemaVersion := versionFails
      rw [if_neg versionFails, if_neg versionHere]
      cases tagged : ChannelTag.fromU8 (byteAt headerBuf 4) with
      | error err =>
          have undefinedTag : byteAt headerBuf 4 ∉ definedTags := by
            rw [mem_definedTags_iff, tagged]
            rintro ⟨tag, impossible⟩
            cases impossible
          rw [if_pos undefinedTag, ChannelTag.fromU8_error tagged]
          rfl
      | ok tag =>
          have defined : ¬byteAt headerBuf 4 ∉ definedTags :=
            not_not_intro ((mem_definedTags_iff _).mpr ⟨tag, tagged⟩)
          rw [if_neg defined, toNat_payloadLen]
          dsimp only
          by_cases reservedFails : leValue (slice headerBuf 6 2) ≠ 0
          · rw [if_pos reservedFails, if_pos reservedFails]
            rfl
          rw [if_neg reservedFails, if_neg reservedFails]
          by_cases large : leValue (slice headerBuf 16 4) > PigTree.maxPayloadSize
          · have largeHere : leValue (slice headerBuf 16 4) > maxPayloadSize := large
            rw [if_pos large, if_pos largeHere]
            rfl
          have largeHere : ¬leValue (slice headerBuf 16 4) > maxPayloadSize := large
          rw [if_neg large, if_neg largeHere]
          rw [readPayload_eq, toNat_payloadLen, ChannelTag.toU8_of_fromU8 tagged]
          exact readBody_client {
            channelTag := tag, flags := byteAt headerBuf 5,
            sequenceNumber := UInt64.ofNat (leValue (slice headerBuf 8 8)) } headerBuf
              (rest.drop (headerSize - 1))

end FrameCodec

/-- The client decodes a frame exactly when the engine does, and the frames agree. -/
theorem decodeFrame_agrees (bytes : List UInt8) :
    ((∃ parsed, PigTree.decodeFrame bytes = .ok parsed) ↔
      ∃ frame, FrameCodec.decodeFrame bytes = .ok frame) ∧
      ∀ parsed frame, PigTree.decodeFrame bytes = .ok parsed →
        FrameCodec.decodeFrame bytes = .ok frame → frame.Agrees parsed := by
  have client := FrameCodec.decodeFrame_client bytes
  cases decoded : PigTree.decodeFrame bytes with
  | error err =>
      simp only [decoded] at client
      constructor
      · constructor
        · rintro ⟨parsed, impossible⟩
          cases impossible
        · rintro ⟨frame, returned⟩
          rw [client] at returned
          cases returned
      · intro parsed frame impossible
        cases impossible
  | ok parsed =>
      simp only [decoded] at client
      constructor
      · exact ⟨fun _ => ⟨Frame.of parsed, client⟩, fun _ => ⟨parsed, rfl⟩⟩
      · intro other frame same returned
        cases same
        rw [client] at returned
        cases returned
        exact Frame.of_agrees parsed

end Client

/-! ### One language -/

variable {bytes : List UInt8}

theorem readFrame_none_iff : (readFrame bytes).map Prod.fst = .ok none ↔ bytes = [] := by
  constructor
  · intro ended
    by_contra nonempty
    rw [readFrame_eq_decodeFrame nonempty] at ended
    cases decoded : decodeFrame bytes with
    | error err =>
        rw [decoded] at ended
        cases ended
    | ok parsed =>
        rw [decoded] at ended
        cases ended
  · rintro rfl
    rfl

/-- A frame is what the memory decoders of both sides, the stream reader and the peek
at the pipe all take it for. -/
theorem frames_oneLanguage (bytes : List UInt8) :
    (((∃ parsed, decodeFrame bytes = .ok parsed) ↔
      ∃ frame, Client.FrameCodec.decodeFrame bytes = .ok frame) ∧
      ∀ parsed frame, decodeFrame bytes = .ok parsed →
        Client.FrameCodec.decodeFrame bytes = .ok frame → frame.Agrees parsed) ∧
    (((readFrame bytes).map Prod.fst = .ok none ↔ bytes = []) ∧
      (bytes ≠ [] → (readFrame bytes).map Prod.fst =
        (decodeFrame bytes).map
          (fun parsed => some { header := parsed.1, payload := parsed.2 }))) ∧
    (peekFrameReadiness (.ok (PipePeek.of bytes)) = .ok .empty ↔ bytes = []) ∧
    (peekFrameReadiness (.ok (PipePeek.of bytes)) = .ok .incomplete ↔
      bytes ≠ [] ∧ decodeFrame bytes = .error .prematureEof) ∧
    (∀ err, peekFrameReadiness (.ok (PipePeek.of bytes)) = .error (.protocol err) ↔
      decodeFrame bytes = .error err ∧ err.isHeaderError = true) ∧
    (peekFrameReadiness (.ok (PipePeek.of bytes)) = .ok .complete ↔
      (∃ parsed, decodeFrame bytes = .ok parsed) ∨
        ∃ expected calculated,
          decodeFrame bytes = .error (.checksumMismatch expected calculated)) := by
  refine ⟨Client.decodeFrame_agrees bytes, ⟨readFrame_none_iff, readFrame_eq_decodeFrame⟩, ?_⟩
  by_cases nonempty : bytes = []
  · subst nonempty
    have ready : peekFrameReadiness (.ok (PipePeek.of [])) = .ok .empty := rfl
    have decoded : decodeFrame [] = .error .prematureEof := rfl
    simp [ready, decoded, FrameParseError.isHeaderError]
  · rw [peekFrameReadiness_eq nonempty]
    cases decodeFrame bytes with
    | ok parsed => simp [nonempty]
    | error err =>
        cases err with
        | prematureEof => simp [nonempty, FrameParseError.isHeaderError]
        | checksumMismatch expected calculated =>
            simp [nonempty, FrameParseError.isHeaderError]
        | invalidMagic found => simp [nonempty, FrameParseError.isHeaderError]
        | unsupportedVersion version => simp [nonempty, FrameParseError.isHeaderError]
        | invalidChannelTag tag => simp [nonempty, FrameParseError.isHeaderError]
        | invalidReserved reserved => simp [nonempty, FrameParseError.isHeaderError]
        | payloadTooLarge size => simp [nonempty, FrameParseError.isHeaderError]

/-- An empty pipe is no incomplete frame, though nothing decodes to a premature end. -/
theorem empty_not_incomplete :
    ¬∀ bytes, peekFrameReadiness (.ok (PipePeek.of bytes)) = .ok .incomplete ↔
      decodeFrame bytes = .error .prematureEof := by
  intro claimed
  have incomplete := (claimed []).mpr rfl
  cases incomplete

end PigTree
