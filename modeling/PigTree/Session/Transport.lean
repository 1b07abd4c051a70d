import PigTree.Protocol.Framing

/-!
# Framed sessions over a pipe

Messages are sent as frames with increasing sequence numbers. Before it reads, the
engine peeks at the pipe and tells an empty one, an incomplete frame and a complete
one apart by the header tests of the decoders.
-/

namespace PigTree

open Foundation ByteReader

inductive IpcError where
  | io
  | brokenPipe
  | protocol (err : FrameParseError)
  | protobuf
  | win32 (code : UInt32)
  | commandError (code message : String)
  | cancelled
deriving DecidableEq, Repr

inductive FrameReadiness where
  | empty
  | incomplete
  | complete
deriving DecidableEq, Repr

/-- What a successful peek returns: the copied bytes, their number, and the number of
bytes in the pipe. -/
structure PipePeek where
  headerBuf : List UInt8
  bytesRead : ℕ
  bytesAvail : ℕ
deriving DecidableEq, Repr

namespace PipePeek

/-- Peeking at a pipe that holds `available`: at most a header is copied. -/
def of (available : List UInt8) : PipePeek where
  headerBuf := available.take headerSize ++ List.replicate (headerSize - available.length) 0
  bytesRead := min headerSize available.length
  bytesAvail := available.length

end PipePeek

def errorBrokenPipe : UInt32 := 109

def errorPipeNotConnected : UInt32 := 233

/-- The readiness of the next frame, from what the system call answers. -/
def peekFrameReadiness (answer : Except UInt32 PipePeek) : Except IpcError FrameReadiness :=
  match answer with
  | .error code =>
      if code = errorBrokenPipe ∨ code = errorPipeNotConnected then .error .brokenPipe
      else .error (.win32 code)
  | .ok peek =>
      if peek.bytesAvail = 0 then .ok .empty
      else if peek.bytesAvail < headerSize then .ok .incomplete
      else if peek.bytesRead < headerSize then .ok .incomplete
      else
        let magic := slice peek.headerBuf 0 2
        if magic ≠ magicBytes then .error (.protocol (.invalidMagic magic))
        else
          let version := leValue (slice peek.headerBuf 2 2)
          if version ≠ schemaVersion then .error (.protocol (.unsupportedVersion version))
          else
            match ChannelTag.fromU8 (byteAt peek.headerBuf 4) with
            | .error err => .error (.protocol err)
            | .ok _ =>
                let reserved := leValue (slice peek.headerBuf 6 2)
                if reserved ≠ 0 then .error (.protocol (.invalidReserved reserved))
                else
                  let payloadLen := leValue (slice peek.headerBuf 16 4)
                  if payloadLen > maxPayloadSize then
                    .error (.protocol (.payloadTooLarge payloadLen))
                  else
                    let totalFrameLen := headerSize + payloadLen + crcSize
                    if peek.bytesAvail < totalFrameLen then .ok .incomplete
                    else .ok .complete

variable {bytes : List UInt8}

/-! ### Readiness and decoding -/

/-- The errors a header alone decides. -/
def FrameParseError.isHeaderError : FrameParseError → Bool
  | .invalidMagic _ => true
  | .unsupportedVersion _ => true
  | .invalidChannelTag _ => true
  | .invalidReserved _ => true
  | .payloadTooLarge _ => true
  | .prematureEof => false
  | .checksumMismatch _ _ => false

theorem isHeaderError_of_checkHeader {front : List UInt8} {err : FrameParseError}
    (fails : checkHeader front = .error err) : err.isHeaderError = true := by
  unfold checkHeader at fails
  split at fails
  · cases fails
    rfl
  split at fails
  · cases fails
    rfl
  split at fails
  · next tagged =>
      cases fails
      rw [ChannelTag.fromU8_error tagged]
      rfl
  · split at fails
    · cases fails
      rfl
    split at fails
    · cases fails
      rfl
    · cases fails

/-- A body that is there in full is accepted or fails its checksum. -/
theorem checkBody_long (header : FrameHeader) (front : List UInt8) {body : List UInt8}
    {payloadLen : ℕ} (long : ¬body.length < payloadLen + crcSize) :
    (∃ expected calculated, checkBody header front body payloadLen =
      .error (.checksumMismatch expected calculated)) ∨
      checkBody header front body payloadLen = .ok (header, body.take payloadLen) := by
  unfold checkBody
  rw [if_neg long]
  by_cases mismatch : UInt32.ofNat (leValue (slice body payloadLen crcSize)) ≠
      Crc32c.compute (front ++ body.take payloadLen)
  · left
    exact ⟨_, _, if_pos mismatch⟩
  · right
    exact if_neg mismatch

theorem checkBody_short {header : FrameHeader} {front body : List UInt8} {payloadLen : ℕ}
    (short : body.length < payloadLen + crcSize) :
    checkBody header front body payloadLen = .error .prematureEof :=
  if_pos short

/-- A full header is peeked at as it is tested. -/
theorem peekFrameReadiness_long (long : headerSize ≤ bytes.length) :
    peekFrameReadiness (.ok (PipePeek.of bytes)) =
      match checkHeader (bytes.take headerSize) with
      | .error err => .error (.protocol err)
      | .ok parsed =>
          if bytes.length < headerSize + parsed.2 + crcSize then .ok .incomplete
          else .ok .complete := by
  have positive : 0 < headerSize := by decide
  have pad : headerSize - bytes.length = 0 := by omega
  have copied : (PipePeek.of bytes).headerBuf = bytes.take headerSize := by
    rw [PipePeek.of, pad, List.replicate_zero, List.append_nil]
  have read : (PipePeek.of bytes).bytesRead = headerSize := Nat.min_eq_left long
  have avail : (PipePeek.of bytes).bytesAvail = bytes.length := rfl
  unfold peekFrameReadiness checkHeader
  dsimp only
  rw [copied, read, avail, if_neg (by omega), if_neg (by omega), if_neg (Nat.lt_irrefl _)]
  split
  · rfl
  split
  · rfl
  cases ChannelTag.fromU8 (byteAt (bytes.take headerSize) 4) with
  | error err => rfl
  | ok tag =>
      dsimp only
      split
      · rfl
      split
      · rfl
      · rfl

theorem peekFrameReadiness_short (nonempty : bytes ≠ []) (short : bytes.length < headerSize) :
    peekFrameReadiness (.ok (PipePeek.of bytes)) = .ok .incomplete := by
  have avail : (PipePeek.of bytes).bytesAvail = bytes.length := rfl
  have positive : bytes.length ≠ 0 := fun zero => nonempty (List.length_eq_zero_iff.mp zero)
  unfold peekFrameReadiness
  dsimp only
  rw [avail, if_neg positive, if_pos short]

/-- The readiness of a pipe, by what its bytes decode to. -/
theorem peekFrameReadiness_eq (nonempty : bytes ≠ []) :
    peekFrameReadiness (.ok (PipePeek.of bytes)) =
      match decodeFrame bytes with
      | .ok _ => .ok .complete
      | .error (.checksumMismatch _ _) => .ok .complete
      | .error .prematureEof => .ok .incomplete
      | .error err => .error (.protocol err) := by
  by_cases short : bytes.length < headerSize
  · rw [peekFrameReadiness_short nonempty short, decodeFrame_short short]
  have long := Nat.le_of_not_lt short
  rw [peekFrameReadiness_long long, decodeFrame_eq long]
  cases header : checkHeader (bytes.take headerSize) with
  | error err =>
      have headerError := isHeaderError_of_checkHeader header
      cases err with
      | prematureEof => cases headerError
      | checksumMismatch expected calculated => cases headerError
      | invalidMagic found => rfl
      | unsupportedVersion version => rfl
      | invalidChannelTag tag => rfl
      | invalidReserved reserved => rfl
      | payloadTooLarge size => rfl
  | ok parsed =>
      dsimp only [Except.bind]
      have same : bytes.length < headerSize + parsed.2 + crcSize ↔
          (bytes.drop headerSize).length < parsed.2 + crcSize := by
        rw [List.length_drop]
        omega
      by_cases missing : (bytes.drop headerSize).length < parsed.2 + crcSize
      · rw [if_pos (same.mpr missing), checkBody_short missing]
      · rw [if_neg (mt same.mp missing)]
        rcases checkBody_long parsed.1 (bytes.take headerSize) missing with
          ⟨expected, calculated, mismatch⟩ | matching
        · rw [mismatch]
        · rw [matching]

end PigTree
