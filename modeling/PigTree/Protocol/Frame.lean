import PigTree.Foundation.ByteReader

/-!
# Frames

The frame format of a session: a 20-byte little-endian header, the payload, and
the CRC-32C of both. Frames are decoded from memory and read from a stream by
separate code with the same checks in the same order.
-/

namespace PigTree

open Foundation

/-! ### CRC-32C -/

namespace Crc32c

def poly : UInt32 := 0x82F63B78

def tableStep (crc : UInt32) : UInt32 :=
  if crc &&& 1 ≠ 0 then (crc >>> 1) ^^^ poly else crc >>> 1

def tableEntry (i : ℕ) : UInt32 :=
  (List.range 8).foldl (fun crc _ => tableStep crc) (UInt32.ofNat i)

def table : List UInt32 := (List.range 256).map tableEntry

def update (crc : UInt32) (byte : UInt8) : UInt32 :=
  let tableIdx := ((crc ^^^ byte.toUInt32) &&& 0xFF).toNat
  (crc >>> 8) ^^^ table.getD tableIdx 0

/-- The CRC-32C checksum of a byte string. -/
def compute (data : List UInt8) : UInt32 := ~~~(data.foldl update (~~~0))

example : compute [0x31, 0x32, 0x33, 0x34, 0x35, 0x36, 0x37, 0x38, 0x39] = 0xe3069283 := by
  decide +kernel

end Crc32c

/-! ### Headers -/

def magicBytes : List UInt8 := [0x50, 0x54]

def schemaVersion : ℕ := 1

def headerSize : ℕ := 20

def crcSize : ℕ := 4

/-- 4 MiB. -/
def maxPayloadSize : ℕ := 4 * 1024 * 1024

inductive ChannelTag where
  | command
  | losslessDomain
  | progressPulse
  | cancellationHeartbeat
deriving DecidableEq, Repr

inductive FrameParseError where
  | prematureEof
  | invalidMagic (found : List UInt8)
  | unsupportedVersion (version : ℕ)
  | invalidChannelTag (tag : UInt8)
  | invalidReserved (reserved : ℕ)
  | payloadTooLarge (size : ℕ)
  | checksumMismatch (expected calculated : UInt32)
deriving DecidableEq, Repr

namespace ChannelTag

def toU8 : ChannelTag → UInt8
  | .command => 0x01
  | .losslessDomain => 0x02
  | .progressPulse => 0x03
  | .cancellationHeartbeat => 0x04

def fromU8 (val : UInt8) : Except FrameParseError ChannelTag :=
  if val = 0x01 then .ok .command
  else if val = 0x02 then .ok .losslessDomain
  else if val = 0x03 then .ok .progressPulse
  else if val = 0x04 then .ok .cancellationHeartbeat
  else .error (.invalidChannelTag val)

@[simp]
theorem fromU8_toU8 (tag : ChannelTag) : fromU8 tag.toU8 = .ok tag := by
  cases tag <;> rfl

theorem toU8_of_fromU8 {val : UInt8} {tag : ChannelTag} (known : fromU8 val = .ok tag) :
    val = tag.toU8 := by
  unfold fromU8 at known
  split at known
  · next same => cases known; exact same
  split at known
  · next same => cases known; exact same
  split at known
  · next same => cases known; exact same
  split at known
  · next same => cases known; exact same
  · cases known

theorem fromU8_error {tagByte : UInt8} {err : FrameParseError}
    (unknown : fromU8 tagByte = .error err) : err = .invalidChannelTag tagByte := by
  unfold fromU8 at unknown
  split at unknown
  · cases unknown
  split at unknown
  · cases unknown
  split at unknown
  · cases unknown
  split at unknown
  · cases unknown
  · cases unknown
    rfl

end ChannelTag

structure FrameHeader where
  channelTag : ChannelTag
  flags : UInt8
  sequenceNumber : UInt64
deriving DecidableEq, Repr

structure Frame where
  header : FrameHeader
  payload : List UInt8
deriving DecidableEq, Repr

/-! ### Encoding -/

/-- The header of a frame with a payload of `payloadLen` bytes. -/
def headerBytes (header : FrameHeader) (payloadLen : ℕ) : List UInt8 :=
  magicBytes ++ leBytes 2 schemaVersion ++ [header.channelTag.toU8] ++ [header.flags] ++
    leBytes 2 0 ++ leBytes 8 header.sequenceNumber.toNat ++ leBytes 4 payloadLen

/-- Encode a header and payload with their checksum. -/
def encodeFrame (header : FrameHeader) (payload : List UInt8) :
    Except FrameParseError (List UInt8) :=
  if payload.length > maxPayloadSize then .error (.payloadTooLarge payload.length)
  else
    let buffer := headerBytes header payload.length ++ payload
    .ok (buffer ++ leBytes 4 (Crc32c.compute buffer).toNat)

/-! ### Decoding from memory -/

/-- The byte at a position that has been checked to exist. -/
def byteAt (buffer : List UInt8) (position : ℕ) : UInt8 := buffer.getD position 0

/-- Decode a frame from the front of a buffer. -/
def decodeFrame (buffer : List UInt8) : Except FrameParseError (FrameHeader × List UInt8) :=
  if buffer.length < headerSize then .error .prematureEof
  else
    let magic := slice buffer 0 2
    if magic ≠ magicBytes then .error (.invalidMagic magic)
    else
      let version := leValue (slice buffer 2 2)
      if version ≠ schemaVersion then .error (.unsupportedVersion version)
      else do
        let channelTag ← ChannelTag.fromU8 (byteAt buffer 4)
        let flags := byteAt buffer 5
        let reserved := leValue (slice buffer 6 2)
        if reserved ≠ 0 then .error (.invalidReserved reserved)
        else
          let sequenceNumber := UInt64.ofNat (leValue (slice buffer 8 8))
          let payloadLen := leValue (slice buffer 16 4)
          if payloadLen > maxPayloadSize then .error (.payloadTooLarge payloadLen)
          else
            let requiredLen := headerSize + payloadLen + crcSize
            if buffer.length < requiredLen then .error .prematureEof
            else
              let expectedCrc :=
                UInt32.ofNat (leValue (slice buffer (headerSize + payloadLen) crcSize))
              let calculatedCrc := Crc32c.compute (buffer.take (headerSize + payloadLen))
              if expectedCrc ≠ calculatedCrc then
                .error (.checksumMismatch expectedCrc calculatedCrc)
              else
                .ok ({ channelTag, flags, sequenceNumber }, slice buffer headerSize payloadLen)

/-! ### Reading from a stream -/

abbrev FrameReader (α : Type) : Type := ByteReader FrameParseError α

def FrameReader.lift {α : Type} : Except FrameParseError α → FrameReader α
  | .ok value => pure value
  | .error err => ByteReader.fail err

/-- Read one frame; nothing when the stream ends before its first byte. -/
def readFrame : FrameReader (Option Frame) := do
  match ← ByteReader.readByte with
  | none => return none
  | some firstByte =>
      let headerRest ← ByteReader.readExact .prematureEof (headerSize - 1)
      let headerBuf := firstByte :: headerRest
      let magic := slice headerBuf 0 2
      if magic ≠ magicBytes then ByteReader.fail (.invalidMagic magic)
      else
        let version := leValue (slice headerBuf 2 2)
        if version ≠ schemaVersion then ByteReader.fail (.unsupportedVersion version)
        else
          let channelTag ← FrameReader.lift (ChannelTag.fromU8 (byteAt headerBuf 4))
          let flags := byteAt headerBuf 5
          let reserved := leValue (slice headerBuf 6 2)
          if reserved ≠ 0 then ByteReader.fail (.invalidReserved reserved)
          else
            let sequenceNumber := UInt64.ofNat (leValue (slice headerBuf 8 8))
            let payloadLen := leValue (slice headerBuf 16 4)
            if payloadLen > maxPayloadSize then ByteReader.fail (.payloadTooLarge payloadLen)
            else
              let payload ← ByteReader.readExact .prematureEof payloadLen
              let crcBuf ← ByteReader.readExact .prematureEof crcSize
              let expectedCrc := UInt32.ofNat (leValue crcBuf)
              let calculatedCrc := Crc32c.compute (headerBuf ++ payload)
              if expectedCrc ≠ calculatedCrc then
                ByteReader.fail (.checksumMismatch expectedCrc calculatedCrc)
              else return some { header := { channelTag, flags, sequenceNumber }, payload }

end PigTree
