import PigTree.Protocol.Frame

/-!
# Frames survive the stream

Both decoders make the checks of one header test, so they agree on every byte
string. An encoded frame is decoded whatever follows it and is incomplete on
every proper prefix; a stream of frames therefore reads back in order, and a cut
inside a frame loses that frame only.
-/

namespace PigTree

open Foundation ByteReader

variable {header : FrameHeader} {payload buffer bytes : List UInt8}

/-! ### The header test -/

/-- What both decoders require of the first twenty bytes: the header they announce
and the length of the payload, or the first check that fails. -/
def checkHeader (front : List UInt8) : Except FrameParseError (FrameHeader × ℕ) :=
  if slice front 0 2 ≠ magicBytes then .error (.invalidMagic (slice front 0 2))
  else if leValue (slice front 2 2) ≠ schemaVersion then
    .error (.unsupportedVersion (leValue (slice front 2 2)))
  else
    match ChannelTag.fromU8 (byteAt front 4) with
    | .error err => .error err
    | .ok channelTag =>
        if leValue (slice front 6 2) ≠ 0 then
          .error (.invalidReserved (leValue (slice front 6 2)))
        else if leValue (slice front 16 4) > maxPayloadSize then
          .error (.payloadTooLarge (leValue (slice front 16 4)))
        else
          .ok ({
            channelTag
            flags := byteAt front 5
            sequenceNumber := UInt64.ofNat (leValue (slice front 8 8)) },
            leValue (slice front 16 4))

/-- The payload of a frame whose header announces its length, once the checksum
has been compared. -/
def checkBody (header : FrameHeader) (front body : List UInt8) (payloadLen : ℕ) :
    Except FrameParseError (FrameHeader × List UInt8) :=
  if body.length < payloadLen + crcSize then .error .prematureEof
  else
    let expectedCrc := UInt32.ofNat (leValue (slice body payloadLen crcSize))
    let calculatedCrc := Crc32c.compute (front ++ body.take payloadLen)
    if expectedCrc ≠ calculatedCrc then .error (.checksumMismatch expectedCrc calculatedCrc)
    else .ok (header, body.take payloadLen)

theorem byteAt_take {position bound : ℕ} (inside : position < bound) :
    byteAt (buffer.take bound) position = byteAt buffer position := by
  simp [byteAt, List.getD_eq_getElem?_getD, inside]

theorem decodeFrame_eq (long : headerSize ≤ buffer.length) : decodeFrame buffer =
    (checkHeader (buffer.take headerSize)).bind (fun parsed =>
      checkBody parsed.1 (buffer.take headerSize) (buffer.drop headerSize) parsed.2) := by
  have word : ∀ start count, start + count ≤ headerSize →
      slice (buffer.take headerSize) start count = slice buffer start count :=
    fun start count inside => slice_take inside
  unfold decodeFrame checkHeader
  rw [if_neg (Nat.not_lt_of_le long), word 0 2 (by decide), word 2 2 (by decide),
    word 6 2 (by decide), word 8 8 (by decide), word 16 4 (by decide),
    byteAt_take (by decide), byteAt_take (by decide)]
  dsimp only
  split
  · rfl
  split
  · rfl
  cases ChannelTag.fromU8 (byteAt buffer 4) with
  | error err => rfl
  | ok channelTag =>
      dsimp only [bind, Except.bind]
      split
      · rfl
      split
      · rfl
      generalize leValue (slice buffer 16 4) = payloadLen
      have len : buffer.length < headerSize + payloadLen + crcSize ↔
          (buffer.drop headerSize).length < payloadLen + crcSize := by
        rw [List.length_drop]
        omega
      have crc : slice buffer (headerSize + payloadLen) crcSize =
          slice (buffer.drop headerSize) payloadLen crcSize := by
        unfold slice
        rw [List.drop_drop]
      simp only [checkBody, len, crc, List.take_add]
      rfl

/-- The bytes of a frame after its header, as a stream delivers them. -/
def readBody (header : FrameHeader) (front : List UInt8) (payloadLen : ℕ) :
    FrameReader (Option Frame) := do
  let payload ← ByteReader.readExact .prematureEof payloadLen
  let crcBuf ← ByteReader.readExact .prematureEof crcSize
  let expectedCrc := UInt32.ofNat (leValue crcBuf)
  let calculatedCrc := Crc32c.compute (front ++ payload)
  if expectedCrc ≠ calculatedCrc then
    ByteReader.fail (.checksumMismatch expectedCrc calculatedCrc)
  else return some { header, payload }

theorem readFrame_eq (long : headerSize ≤ bytes.length) : readFrame bytes =
    (checkHeader (bytes.take headerSize)).bind (fun parsed =>
      readBody parsed.1 (bytes.take headerSize) parsed.2 (bytes.drop headerSize)) := by
  cases bytes with
  | nil => simp [headerSize] at long
  | cons first rest =>
      have enough : headerSize - 1 ≤ rest.length := by
        rw [List.length_cons] at long
        omega
      have front : (first :: rest).take headerSize = first :: rest.take (headerSize - 1) := rfl
      have behind : (first :: rest).drop headerSize = rest.drop (headerSize - 1) := rfl
      rw [front, behind, readFrame, bind_apply, readByte_cons]
      dsimp only [Except.bind]
      rw [bind_apply, readExact_of_le enough]
      dsimp only [Except.bind]
      generalize first :: rest.take (headerSize - 1) = headerBuf
      unfold checkHeader
      split
      · rfl
      split
      · rfl
      cases ChannelTag.fromU8 (byteAt headerBuf 4) with
      | error err => rfl
      | ok channelTag =>
          rw [FrameReader.lift, bind_apply, pure_apply]
          dsimp only [Except.bind]
          split
          · rfl
          split
          · rfl
          · rfl

/-- Less than a header is no frame yet. -/
theorem decodeFrame_short (short : buffer.length < headerSize) :
    decodeFrame buffer = .error .prematureEof :=
  if_pos short

theorem readFrame_nil : readFrame [] = .ok (none, []) := rfl

theorem readFrame_short (nonempty : bytes ≠ []) (short : bytes.length < headerSize) :
    readFrame bytes = .error .prematureEof := by
  cases bytes with
  | nil => exact absurd rfl nonempty
  | cons first rest =>
      rw [List.length_cons] at short
      have few : rest.length < headerSize - 1 := by omega
      rw [readFrame, bind_apply, readByte_cons]
      dsimp only [Except.bind]
      rw [bind_apply, readExact_short few]
      rfl

/-- The body is read as it is decoded from memory. -/
theorem readBody_eq (header : FrameHeader) (front body : List UInt8) (payloadLen : ℕ) :
    readBody header front payloadLen body =
      (checkBody header front body payloadLen).map (fun parsed =>
        (some { header := parsed.1, payload := parsed.2 },
          body.drop (payloadLen + crcSize))) := by
  unfold readBody checkBody
  rw [bind_apply]
  by_cases enough : payloadLen ≤ body.length
  · rw [readExact_of_le enough]
    dsimp only [Except.bind]
    rw [bind_apply]
    by_cases complete : body.length < payloadLen + crcSize
    · have short : (body.drop payloadLen).length < crcSize := by
        rw [List.length_drop]
        omega
      rw [readExact_short short, if_pos complete]
      rfl
    · have long : crcSize ≤ (body.drop payloadLen).length := by
        rw [List.length_drop]
        omega
      rw [readExact_of_le long, if_neg complete, List.drop_drop]
      dsimp only [Except.bind]
      rw [slice]
      split
      · rfl
      · rfl
  · have short : body.length < payloadLen + crcSize := by omega
    rw [readExact_short (Nat.lt_of_not_le enough), if_pos short]
    rfl

/-- A stream that holds a byte string reads the frame that is decoded from it. -/
theorem readFrame_eq_decodeFrame (nonempty : bytes ≠ []) :
    (readFrame bytes).map Prod.fst =
      (decodeFrame bytes).map (fun parsed => some { header := parsed.1, payload := parsed.2 }) := by
  by_cases short : bytes.length < headerSize
  · rw [readFrame_short nonempty short, decodeFrame_short short]
    rfl
  · rw [readFrame_eq (Nat.le_of_not_lt short), decodeFrame_eq (Nat.le_of_not_lt short)]
    cases checkHeader (bytes.take headerSize) with
    | error err => rfl
    | ok parsed =>
        dsimp only [Except.bind]
        rw [readBody_eq]
        cases checkBody parsed.1 (bytes.take headerSize) (bytes.drop headerSize) parsed.2 with
        | error err => rfl
        | ok body => rfl

/-! ### Round trip -/

/-- The encoding of a frame whose payload is not too large. -/
def frameBytes (frame : Frame) : List UInt8 :=
  headerBytes frame.header frame.payload.length ++
    (frame.payload ++ leBytes crcSize (Crc32c.compute
      (headerBytes frame.header frame.payload.length ++ frame.payload)).toNat)

theorem encodeFrame_eq {frame : Frame} (small : frame.payload.length ≤ maxPayloadSize) :
    encodeFrame frame.header frame.payload = .ok (frameBytes frame) := by
  rw [encodeFrame, if_neg (Nat.not_lt_of_le small), frameBytes]
  dsimp only
  rw [List.append_assoc]
  rfl

@[simp]
theorem length_headerBytes (header : FrameHeader) (payloadLen : ℕ) :
    (headerBytes header payloadLen).length = headerSize := by
  simp [headerBytes, magicBytes, headerSize]

theorem length_frameBytes (frame : Frame) :
    (frameBytes frame).length = headerSize + (frame.payload.length + crcSize) := by
  simp [frameBytes]

/-- An encoded header passes the test with its own fields. -/
theorem checkHeader_headerBytes (header : FrameHeader) {payloadLen : ℕ}
    (small : payloadLen ≤ maxPayloadSize) :
    checkHeader (headerBytes header payloadLen) = .ok (header, payloadLen) := by
  have magic : slice (headerBytes header payloadLen) 0 2 = magicBytes := rfl
  have version : leValue (slice (headerBytes header payloadLen) 2 2) = schemaVersion := rfl
  have tag : byteAt (headerBytes header payloadLen) 4 = header.channelTag.toU8 := rfl
  have flags : byteAt (headerBytes header payloadLen) 5 = header.flags := rfl
  have reserved : leValue (slice (headerBytes header payloadLen) 6 2) = 0 := rfl
  have sequence : slice (headerBytes header payloadLen) 8 8 =
      leBytes 8 header.sequenceNumber.toNat := rfl
  have size : slice (headerBytes header payloadLen) 16 4 = leBytes 4 payloadLen := rfl
  have word : payloadLen < 256 ^ 4 := by
    have bound : maxPayloadSize < 256 ^ 4 := by decide
    omega
  have number : leValue (leBytes 8 header.sequenceNumber.toNat) =
      header.sequenceNumber.toNat :=
    leValue_leBytes_of_lt header.sequenceNumber.toNat_lt
  rw [checkHeader, magic, version, tag, flags, reserved, sequence, size,
    leValue_leBytes_of_lt word, number, ChannelTag.fromU8_toU8]
  simp only [ne_eq, not_true_eq_false, if_false, gt_iff_lt, Nat.not_lt_of_le small,
    UInt64.ofNat_toNat]

/-- The body of an encoded frame is read back after its header. -/
theorem decodes_readBody (frame : Frame) :
    Decodes FrameParseError.prematureEof
      (readBody frame.header (headerBytes frame.header frame.payload.length) frame.payload.length)
      (frame.payload ++ leBytes crcSize (Crc32c.compute
        (headerBytes frame.header frame.payload.length ++ frame.payload)).toNat)
      (some frame) := by
  unfold readBody
  refine (Decodes.readExact rfl).bind ?_
  refine (Decodes.readExact (length_leBytes crcSize _)).bind_pure ?_
  rw [leValue_leBytes_of_lt (UInt32.toNat_lt _), UInt32.ofNat_toNat]
  simp only [ne_eq, not_true_eq_false, if_false]

/-- A stream takes an encoded frame for itself and waits for the rest of a cut one. -/
theorem encodesItem_readFrame {frame : Frame} (small : frame.payload.length ≤ maxPayloadSize) :
    EncodesItem FrameParseError.prematureEof readFrame (frameBytes frame) frame where
  nonempty := by
    apply List.ne_nil_of_length_pos
    rw [length_frameBytes, headerSize]
    omega
  complete := by
    intro rest
    have long : headerSize ≤ (frameBytes frame ++ rest).length := by
      rw [List.length_append, length_frameBytes]
      omega
    have front : (frameBytes frame ++ rest).take headerSize =
        headerBytes frame.header frame.payload.length := by
      rw [frameBytes, List.append_assoc, List.take_left' (length_headerBytes _ _)]
    rw [readFrame_eq long, front, checkHeader_headerBytes frame.header small]
    dsimp only [Except.bind]
    rw [frameBytes, List.append_assoc, List.drop_left' (length_headerBytes _ _)]
    exact (decodes_readBody frame).complete rest
  truncated := by
    intro count positive short
    have length : ((frameBytes frame).take count).length = count := by
      rw [List.length_take]
      omega
    by_cases early : count < headerSize
    · apply readFrame_short
      · apply List.ne_nil_of_length_pos
        omega
      · omega
    · have front : ((frameBytes frame).take count).take headerSize =
          headerBytes frame.header frame.payload.length := by
        rw [List.take_take, Nat.min_eq_left (by omega), frameBytes,
          List.take_left' (length_headerBytes _ _)]
      have behind : ((frameBytes frame).take count).drop headerSize =
          (frame.payload ++ leBytes crcSize (Crc32c.compute
            (headerBytes frame.header frame.payload.length ++ frame.payload)).toNat).take
              (count - headerSize) := by
        rw [List.drop_take, frameBytes, List.drop_left' (length_headerBytes _ _)]
      rw [readFrame_eq (by omega), front, checkHeader_headerBytes frame.header small, behind]
      dsimp only [Except.bind]
      apply (decodes_readBody frame).truncated
      rw [length_frameBytes] at short
      rw [List.length_append, length_leBytes]
      omega

/-- An encoded frame is decoded from memory whatever follows it. -/
theorem decodeFrame_frameBytes {frame : Frame} (small : frame.payload.length ≤ maxPayloadSize)
    (rest : List UInt8) :
    decodeFrame (frameBytes frame ++ rest) = .ok (frame.header, frame.payload) := by
  have encodes := encodesItem_readFrame small
  have nonempty : frameBytes frame ++ rest ≠ [] := List.append_ne_nil_of_left_ne_nil encodes.nonempty _
  have same := readFrame_eq_decodeFrame nonempty
  rw [encodes.complete rest] at same
  cases decoded : decodeFrame (frameBytes frame ++ rest) with
  | error err =>
      rw [decoded] at same
      cases same
  | ok parsed =>
      rw [decoded] at same
      simp only [Except.map, Except.ok.injEq, Option.some.injEq] at same
      rw [same]

/-- Encoded frames are read back in order; decoding ignores what follows a frame;
and a stream cut inside a frame delivers the frames before it and then fails. -/
theorem frames_roundTrip (frames : List Frame)
    (small : ∀ frame ∈ frames, frame.payload.length ≤ maxPayloadSize) :
    (∀ frame ∈ frames, encodeFrame frame.header frame.payload = .ok (frameBytes frame)) ∧
      Yields readFrame (frames.flatMap frameBytes) frames none ∧
        (∀ frame ∈ frames, ∀ rest,
          decodeFrame (frameBytes frame ++ rest) = .ok (frame.header, frame.payload)) ∧
          ∀ before frame after, frames = before ++ frame :: after →
            ∀ count, 0 < count → count < (frameBytes frame).length →
              Yields readFrame ((frames.flatMap frameBytes).take
                ((before.flatMap frameBytes).length + count)) before (some .prematureEof) := by
  have encoded : ∀ frame ∈ frames,
      EncodesItem FrameParseError.prematureEof readFrame (frameBytes frame) frame :=
    fun frame frameMem => encodesItem_readFrame (small frame frameMem)
  refine ⟨fun frame frameMem => encodeFrame_eq (small frame frameMem),
    yields_flatMap readFrame_nil encoded,
    fun frame frameMem => decodeFrame_frameBytes (small frame frameMem), ?_⟩
  rintro before frame after rfl count positive short
  have cut : ((before ++ frame :: after).flatMap frameBytes).take
      ((before.flatMap frameBytes).length + count) =
        before.flatMap frameBytes ++ (frameBytes frame).take count := by
    rw [List.flatMap_append, List.flatMap_cons, List.take_length_add_append,
      List.take_append_of_le_length (Nat.le_of_lt short)]
  rw [cut]
  refine yields_cut ?_ (encoded frame (by simp)) positive short
  exact fun other otherMem => encoded other (List.mem_append_left _ otherMem)

/-- A frame without payload and one with three bytes. -/
def Sample.frames : List Frame := [
  { header := { channelTag := .command, flags := 0, sequenceNumber := 1 }, payload := [] },
  { header := { channelTag := .progressPulse, flags := 1, sequenceNumber := 2 },
    payload := [7, 8, 9] }]

theorem frames_roundTrip_sample :
    (∀ frame ∈ Sample.frames,
      encodeFrame frame.header frame.payload = .ok (frameBytes frame)) ∧
      Yields readFrame (Sample.frames.flatMap frameBytes) Sample.frames none ∧
        (∀ frame ∈ Sample.frames, ∀ rest,
          decodeFrame (frameBytes frame ++ rest) = .ok (frame.header, frame.payload)) ∧
          ∀ before frame after, Sample.frames = before ++ frame :: after →
            ∀ count, 0 < count → count < (frameBytes frame).length →
              Yields readFrame ((Sample.frames.flatMap frameBytes).take
                ((before.flatMap frameBytes).length + count)) before (some .prematureEof) :=
  frames_roundTrip Sample.frames (by decide)

end PigTree
