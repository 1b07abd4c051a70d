import PigTree.Foundation.Checked
import PigTree.Foundation.ByteReader
import PigTree.Foundation.Text
import PigTree.Worker.Scan

/-!
# Directory buffers

The batched class fills a buffer with records of variable length, each with the offset of
the next one. The parser checks every offset before it reads, and rejects a malformed
chain whole. Slicing out of range is an abort of the model, so that a parser that answers
has stayed inside the buffer. Offsets are natural numbers: they stay below the length of
a buffer plus 2^33, which a machine word holds.
-/

namespace PigTree

namespace Worker

open Foundation Foundation.Text

/-- Link-count knowledge for a fresh directory enumeration record. -/
def VolumeContext.linkKnowledge (volume : VolumeContext) : ValueKnowledge UInt32 :=
  if volume.hardlinkCapable then .notObserved else .notApplicable

/-! ### Readers -/

/-- `buf[start..stop]`. -/
def sliceRange (buf : List UInt8) (start stop : ℕ) : Checked (List UInt8) :=
  if start ≤ stop ∧ stop ≤ buf.length then .ok (slice buf start (stop - start))
  else .error .indexOutOfBounds

/-- A read is refused where it would leave the buffer. -/
def readLe (width : ℕ) (buf : List UInt8) (off : ℕ) : OptionT Checked ℕ := do
  if off + width > buf.length then failure
  else
    let bytes ← OptionT.lift (sliceRange buf off (off + width))
    pure (leValue bytes)

def readU32Le (buf : List UInt8) (off : ℕ) : OptionT Checked UInt32 := do
  let value ← readLe 4 buf off
  pure (UInt32.ofNat value)

def readU64Le (buf : List UInt8) (off : ℕ) : OptionT Checked UInt64 := do
  let value ← readLe 8 buf off
  pure (UInt64.ofNat value)

def readI64Le (buf : List UInt8) (off : ℕ) : OptionT Checked Int64 := do
  let value ← readU64Le buf off
  pure value.toInt64

def readU128Le (buf : List UInt8) (off : ℕ) : OptionT Checked (BitVec 128) := do
  let value ← readLe 16 buf off
  pure (BitVec.ofNat 128 value)

/-- The number of 100-nanosecond intervals between 1601-01-01 and 1970-01-01 UTC. -/
def windowsEpochDifference : ℕ := 116444736000000000

/-- Convert a raw FILETIME, read as a signed number, to milliseconds since the epoch. -/
def filetimeI64ToUnixMs (ft : Int64) : UInt64 :=
  if ft > Int64.ofNat windowsEpochDifference then
    (ft - Int64.ofNat windowsEpochDifference).toUInt64 / 10000
  else 0

/-! ### Records -/

def extdOffCreation : ℕ := 8

def extdOffLastAccess : ℕ := 16

def extdOffLastWrite : ℕ := 24

def extdOffEof : ℕ := 40

def extdOffAlloc : ℕ := 48

def extdOffAttrs : ℕ := 56

def extdOffNameLen : ℕ := 60

def extdOffReparseTag : ℕ := 68

def extdOffFileId : ℕ := 72

def extdOffName : ℕ := 88

def extdMinRecord : ℕ := 88

/-- Two bytes to a unit; an odd byte at the end is left out. -/
def utf16Units : List UInt8 → List UInt16
  | low :: high :: rest => UInt16.ofNat (leValue [low, high]) :: utf16Units rest
  | _ => []

/-- One record of the chain: its facts, the offset of the next record (0 for the last),
and where it ends. -/
structure ParsedRecord where
  facts : EntryFacts
  next : ℕ
  recordEnd : ℕ

/-- Leave with no answer when the test holds. -/
def refuse (bad : Prop) [Decidable bad] : OptionT Checked Unit :=
  if bad then failure else pure ()

/-- Where a record ends, once the offset of the next one has been checked. -/
def readRecordEnd (buf : List UInt8) (off next : ℕ) : OptionT Checked ℕ :=
  if next ≠ 0 then do
    refuse (next < extdMinRecord ∨ next % 8 ≠ 0)
    refuse (off + next > buf.length)
    pure (off + next)
  else pure buf.length

def readReparseTag (buf : List UInt8) (off : ℕ) (attrs : UInt32) : OptionT Checked UInt32 :=
  if attrs &&& fileAttributeReparsePoint ≠ 0 then readU32Le buf (off + extdOffReparseTag)
  else pure 0

/-- One turn of the loop, from a record whose fixed part is inside the buffer. -/
def parseRecord (buf : List UInt8) (volume : VolumeContext) (off : ℕ) :
    OptionT Checked ParsedRecord := do
  let nextWord ← readU32Le buf off
  let next := nextWord.toNat
  let recordEnd ← readRecordEnd buf off next
  let attrs ← readU32Le buf (off + extdOffAttrs)
  let reparseTag ← readReparseTag buf off attrs
  let nameLenWord ← readU32Le buf (off + extdOffNameLen)
  let nameLen := nameLenWord.toNat
  refuse (nameLen = 0 ∨ nameLen % 2 ≠ 0)
  let nameStart := off + extdOffName
  let nameEnd := nameStart + nameLen
  refuse (nameEnd > recordEnd)
  let nameBytes ← OptionT.lift (sliceRange buf nameStart nameEnd)
  let creation ← readI64Le buf (off + extdOffCreation)
  let lastAccess ← readI64Le buf (off + extdOffLastAccess)
  let lastWrite ← readI64Le buf (off + extdOffLastWrite)
  let allocRaw ← readI64Le buf (off + extdOffAlloc)
  let eofRaw ← readI64Le buf (off + extdOffEof)
  let fileId ← readU128Le buf (off + extdOffFileId)
  pure
    { facts :=
        { name := fromUtf16Lossy (utf16Units nameBytes)
          fileAttributes := attrs
          reparseTag
          creationTimeUtcMs := filetimeI64ToUnixMs creation
          lastWriteTimeUtcMs := filetimeI64ToUnixMs lastWrite
          lastAccessTimeUtcMs := filetimeI64ToUnixMs lastAccess
          logicalSize := (max eofRaw 0).toUInt64
          allocatedSize := if allocRaw ≥ 0 then some allocRaw.toUInt64 else none
          objectId := volume.identity fileId
          totalLinkCount := volume.linkKnowledge }
      next
      recordEnd }

def parseLoop (buf : List UInt8) (volume : VolumeContext) :
    ℕ → ℕ → List EntryFacts → Checked (Option (List EntryFacts))
  | 0, _, _ => .error .outOfFuel
  | fuel + 1, off, facts =>
      -- Offset 0 means that the buffer itself was too short for a record.
      if off + extdMinRecord > buf.length then .ok (if off = 0 then some facts else none)
      else do
        match ← (parseRecord buf volume off).run with
        | none => .ok none
        | some record =>
            let facts := facts ++ [record.facts]
            if record.next = 0 then .ok (some facts)
            else parseLoop buf volume fuel record.recordEnd facts

/-- Every record but the last one takes a byte, so the length is fuel enough. -/
def parseExtdEntries (buf : List UInt8) (volume : VolumeContext) :
    Checked (Option (List EntryFacts)) :=
  parseLoop buf volume (buf.length + 1) 0 []

/-! ### What one turn answers -/

section Turn

variable (buf : List UInt8) (off : ℕ)

def u32At : UInt32 := UInt32.ofNat (leValue (slice buf off 4))

def i64At : Int64 := (UInt64.ofNat (leValue (slice buf off 8))).toInt64

/-- The offset of the next record relative to this one. -/
def nextAt : ℕ := (u32At buf off).toNat

def nameLenAt : ℕ := (u32At buf (off + extdOffNameLen)).toNat

def recordEndAt : ℕ := if nextAt buf off = 0 then buf.length else off + nextAt buf off

def factsAt (volume : VolumeContext) : EntryFacts where
  name := fromUtf16Lossy (utf16Units (slice buf (off + extdOffName) (nameLenAt buf off)))
  fileAttributes := u32At buf (off + extdOffAttrs)
  reparseTag :=
    if u32At buf (off + extdOffAttrs) &&& fileAttributeReparsePoint ≠ 0 then
      u32At buf (off + extdOffReparseTag)
    else 0
  creationTimeUtcMs := filetimeI64ToUnixMs (i64At buf (off + extdOffCreation))
  lastWriteTimeUtcMs := filetimeI64ToUnixMs (i64At buf (off + extdOffLastWrite))
  lastAccessTimeUtcMs := filetimeI64ToUnixMs (i64At buf (off + extdOffLastAccess))
  logicalSize := (max (i64At buf (off + extdOffEof)) 0).toUInt64
  allocatedSize :=
    if i64At buf (off + extdOffAlloc) ≥ 0 then some (i64At buf (off + extdOffAlloc)).toUInt64
    else none
  objectId :=
    volume.identity (BitVec.ofNat 128 (leValue (slice buf (off + extdOffFileId) 16)))
  totalLinkCount := volume.linkKnowledge

/-- A record whose offset of the next one and whose name stay inside the buffer. -/
structure WellFormedAt : Prop where
  next : nextAt buf off = 0 ∨
    (extdMinRecord ≤ nextAt buf off ∧ nextAt buf off % 8 = 0 ∧
      off + nextAt buf off ≤ buf.length)
  name : nameLenAt buf off ≠ 0 ∧ nameLenAt buf off % 2 = 0
  fits : off + extdOffName + nameLenAt buf off ≤ recordEndAt buf off

instance : Decidable (WellFormedAt buf off) :=
  decidable_of_iff ((nextAt buf off = 0 ∨
      (extdMinRecord ≤ nextAt buf off ∧ nextAt buf off % 8 = 0 ∧
        off + nextAt buf off ≤ buf.length)) ∧
    (nameLenAt buf off ≠ 0 ∧ nameLenAt buf off % 2 = 0) ∧
    off + extdOffName + nameLenAt buf off ≤ recordEndAt buf off)
    ⟨fun ⟨next, name, fits⟩ => ⟨next, name, fits⟩, fun ⟨next, name, fits⟩ => ⟨next, name, fits⟩⟩

variable {buf off}

theorem sliceRange_eq {start stop : ℕ} (ordered : start ≤ stop) (inside : stop ≤ buf.length) :
    sliceRange buf start stop = .ok (slice buf start (stop - start)) :=
  if_pos ⟨ordered, inside⟩

theorem readLe_eq {width : ℕ} (inside : off + width ≤ buf.length) :
    readLe width buf off = pure (leValue (slice buf off width)) := by
  have range := sliceRange_eq (Nat.le_add_right off width) inside
  rw [readLe, if_neg (Nat.not_lt_of_le inside), range, Nat.add_sub_cancel_left]
  rfl

theorem readU32Le_eq (inside : off + 4 ≤ buf.length) :
    readU32Le buf off = pure (u32At buf off) := by
  rw [readU32Le, readLe_eq inside]
  rfl

theorem readI64Le_eq (inside : off + 8 ≤ buf.length) :
    readI64Le buf off = pure (i64At buf off) := by
  rw [readI64Le, readU64Le, readLe_eq inside]
  rfl

theorem readU128Le_eq (inside : off + 16 ≤ buf.length) :
    readU128Le buf off = pure (BitVec.ofNat 128 (leValue (slice buf off 16))) := by
  rw [readU128Le, readLe_eq inside]
  rfl

@[simp]
theorem failure_bind {α β : Type} (next : α → OptionT Checked β) :
    ((failure : OptionT Checked α) >>= next) = failure := rfl

theorem refuse_of {bad : Prop} [Decidable bad] (holds : bad) : refuse bad = failure := if_pos holds

theorem refuse_of_not {bad : Prop} [Decidable bad] (fine : ¬bad) : refuse bad = pure () :=
  if_neg fine

theorem recordEndAt_le (chained : nextAt buf off = 0 ∨ (extdMinRecord ≤ nextAt buf off ∧
    nextAt buf off % 8 = 0 ∧ off + nextAt buf off ≤ buf.length)) :
    recordEndAt buf off ≤ buf.length := by
  unfold recordEndAt
  split
  · exact le_rfl
  · next more => exact (chained.resolve_left more).2.2

theorem readRecordEnd_eq :
    readRecordEnd buf off (nextAt buf off) =
      if nextAt buf off = 0 ∨ (extdMinRecord ≤ nextAt buf off ∧ nextAt buf off % 8 = 0 ∧
        off + nextAt buf off ≤ buf.length) then pure (recordEndAt buf off)
      else failure := by
  unfold readRecordEnd recordEndAt
  by_cases last : nextAt buf off = 0
  · simp [last]
  · by_cases aligned : extdMinRecord ≤ nextAt buf off ∧ nextAt buf off % 8 = 0
    · rw [if_pos last, refuse_of_not (by omega), pure_bind, if_neg last]
      by_cases inside : off + nextAt buf off ≤ buf.length
      · rw [refuse_of_not (by omega), pure_bind, if_pos (Or.inr ⟨aligned.1, aligned.2, inside⟩)]
      · rw [refuse_of (by omega), failure_bind, if_neg (by omega)]
    · rw [if_pos last, refuse_of (by omega), failure_bind, if_neg (by omega)]

theorem readReparseTag_eq (inside : off + extdMinRecord ≤ buf.length) (attrs : UInt32) :
    readReparseTag buf off attrs = pure
      (if attrs &&& fileAttributeReparsePoint ≠ 0 then u32At buf (off + extdOffReparseTag)
      else 0) := by
  unfold readReparseTag
  split
  · exact readU32Le_eq (le_trans (by simp [extdOffReparseTag, extdMinRecord, Nat.add_assoc]) inside)
  · rfl

/-- Where the fixed part of a record is inside the buffer, no read leaves it. -/
theorem parseRecord_run (volume : VolumeContext) (inside : off + extdMinRecord ≤ buf.length) :
    (parseRecord buf volume off).run = .ok
      (if WellFormedAt buf off then
        some { facts := factsAt buf off volume, next := nextAt buf off,
               recordEnd := recordEndAt buf off }
      else none) := by
  have header : off + 88 ≤ buf.length := inside
  have word (field : ℕ) (early : field + 4 ≤ 88) :
      readU32Le buf (off + field) = pure (u32At buf (off + field)) :=
    readU32Le_eq (by omega)
  have time (field : ℕ) (early : field + 8 ≤ 88) :
      readI64Le buf (off + field) = pure (i64At buf (off + field)) :=
    readI64Le_eq (by omega)
  have fileId : readU128Le buf (off + extdOffFileId) =
      pure (BitVec.ofNat 128 (leValue (slice buf (off + extdOffFileId) 16))) :=
    readU128Le_eq (by simp only [extdOffFileId]; omega)
  have next : readU32Le buf off = pure (u32At buf off) := readU32Le_eq (by omega)
  have nameLen : (u32At buf (off + extdOffNameLen)).toNat = nameLenAt buf off := rfl
  have nextOff : (u32At buf off).toNat = nextAt buf off := rfl
  simp only [parseRecord, next, nextOff, fileId, readReparseTag_eq inside, nameLen,
    word extdOffAttrs (by decide), word extdOffNameLen (by decide),
    time extdOffCreation (by decide), time extdOffLastAccess (by decide),
    time extdOffLastWrite (by decide), time extdOffAlloc (by decide),
    time extdOffEof (by decide), readRecordEnd_eq, pure_bind]
  by_cases chained : nextAt buf off = 0 ∨ (extdMinRecord ≤ nextAt buf off ∧
      nextAt buf off % 8 = 0 ∧ off + nextAt buf off ≤ buf.length)
  · rw [if_pos chained, pure_bind]
    by_cases named : nameLenAt buf off ≠ 0 ∧ nameLenAt buf off % 2 = 0
    · rw [refuse_of_not (by omega), pure_bind]
      by_cases fits : off + extdOffName + nameLenAt buf off ≤ recordEndAt buf off
      · have within : off + extdOffName + nameLenAt buf off ≤ buf.length :=
          fits.trans (recordEndAt_le chained)
        rw [refuse_of_not (by omega), pure_bind, sliceRange_eq (Nat.le_add_right _ _) within,
          Nat.add_sub_cancel_left]
        have formed : WellFormedAt buf off := ⟨chained, named, fits⟩
        simp only [formed, if_true]
        rfl
      · rw [refuse_of (by omega), failure_bind, if_neg fun formed => fits formed.fits]
        rfl
    · rw [refuse_of (by omega), failure_bind, if_neg fun formed => named formed.name]
      rfl
  · rw [if_neg chained, failure_bind, if_neg fun formed => chained formed.next]
    rfl

end Turn

/-! ### The chain of records -/

/-- Where a record starts, where its name ends and where the record ends. -/
structure Span where
  start : ℕ
  nameEnd : ℕ
  stop : ℕ
deriving DecidableEq, Repr

/-- The entry read from a span: its name is a non-empty part of the span that follows the
fixed fields. -/
structure Span.Holds (buf : List UInt8) (span : Span) (entry : EntryFacts) : Prop where
  named : span.start + extdOffName < span.nameEnd
  inside : span.nameEnd ≤ span.stop
  bounded : span.stop ≤ buf.length
  name : entry.name = fromUtf16Lossy (utf16Units
    (slice buf (span.start + extdOffName) (span.nameEnd - (span.start + extdOffName))))

/-- The second record starts where the first one ends and where it points. -/
def Span.Follows (buf : List UInt8) (first second : Span) : Prop :=
  first.stop = second.start ∧ first.start + nextAt buf first.start = second.start

/-- The span of the record at an offset. -/
def spanAt (buf : List UInt8) (off : ℕ) : Span where
  start := off
  nameEnd := off + extdOffName + nameLenAt buf off
  stop := recordEndAt buf off

theorem WellFormedAt.holds {buf : List UInt8} {off : ℕ} (formed : WellFormedAt buf off)
    (volume : VolumeContext) : (spanAt buf off).Holds buf (factsAt buf off volume) where
  named := Nat.lt_add_of_pos_right (Nat.pos_of_ne_zero formed.name.1)
  inside := formed.fits
  bounded := recordEndAt_le formed.next
  name := by
    simp only [spanAt, Nat.add_sub_cancel_left]
    rfl

/-- Entries in the order of their records, from an offset on. -/
inductive Chained (buf : List UInt8) (volume : VolumeContext) : ℕ → List EntryFacts → Prop where
  | last {off : ℕ} (formed : WellFormedAt buf off) (ends : nextAt buf off = 0) :
      Chained buf volume off [factsAt buf off volume]
  | more {off : ℕ} {rest : List EntryFacts} (formed : WellFormedAt buf off)
      (goesOn : nextAt buf off ≠ 0) (others : Chained buf volume (off + nextAt buf off) rest) :
      Chained buf volume off (factsAt buf off volume :: rest)

theorem parseLoop_succ {buf : List UInt8} {volume : VolumeContext} {fuel off : ℕ}
    {facts : List EntryFacts} (inside : off + extdMinRecord ≤ buf.length) :
    parseLoop buf volume (fuel + 1) off facts =
      if WellFormedAt buf off then
        if nextAt buf off = 0 then .ok (some (facts ++ [factsAt buf off volume]))
        else parseLoop buf volume fuel (off + nextAt buf off) (facts ++ [factsAt buf off volume])
      else .ok none := by
  rw [parseLoop, if_neg (Nat.not_lt_of_le inside), parseRecord_run volume inside]
  by_cases formed : WellFormedAt buf off
  · simp only [formed, if_true, Checked.ok_bind]
    by_cases last : nextAt buf off = 0
    · simp [last]
    · simp [last, recordEndAt]
  · simp only [formed, if_false, Checked.ok_bind]

/-- The loop answers, and an answer with entries has read a chain of records. -/
theorem parseLoop_answers (buf : List UInt8) (volume : VolumeContext) {fuel off : ℕ}
    (enough : buf.length < off + fuel) (start : off ≤ buf.length) (facts : List EntryFacts) :
    ∃ result, parseLoop buf volume fuel off facts = .ok result ∧
      ∀ all, result = some all →
        (off = 0 ∧ all = facts) ∨ ∃ read, all = facts ++ read ∧ Chained buf volume off read := by
  induction fuel generalizing off facts with
  | zero => exact absurd enough (Nat.not_lt_of_le start)
  | succ fuel ih =>
      by_cases inside : off + extdMinRecord ≤ buf.length
      · rw [parseLoop_succ inside]
        by_cases formed : WellFormedAt buf off
        · by_cases last : nextAt buf off = 0
          · refine ⟨_, by rw [if_pos formed, if_pos last], ?_⟩
            rintro all ⟨⟩
            exact Or.inr ⟨_, rfl, Chained.last formed last⟩
          · have step := (formed.next.resolve_left last).1
            have shorter : buf.length < off + nextAt buf off + fuel := by
              simp only [extdMinRecord] at step
              omega
            have bounded := (formed.next.resolve_left last).2.2
            rcases ih shorter bounded (facts ++ [factsAt buf off volume]) with ⟨result, ran, chained⟩
            refine ⟨result, by rw [if_pos formed, if_neg last, ran], fun all same => ?_⟩
            rcases chained all same with ⟨start, -⟩ | ⟨read, joined, others⟩
            · omega
            · refine Or.inr ⟨factsAt buf off volume :: read, ?_, Chained.more formed last others⟩
              rw [joined, List.append_assoc, List.singleton_append]
        · exact ⟨none, by rw [if_neg formed], by simp⟩
      · rw [parseLoop, if_pos (Nat.lt_of_not_le inside)]
        refine ⟨_, rfl, fun all same => ?_⟩
        by_cases first : off = 0
        · rw [if_pos first] at same
          exact Or.inl ⟨first, (Option.some.inj same).symm⟩
        · rw [if_neg first] at same
          cases same

/-- The spans of a chain of records. -/
theorem Chained.spans {buf : List UInt8} {volume : VolumeContext} {off : ℕ}
    {read : List EntryFacts} (chained : Chained buf volume off read) :
    ∃ spans : List Span, List.Forall₂ (Span.Holds buf) spans read ∧
      (spans.head?.map Span.start) = some off ∧ List.IsChain (Span.Follows buf) spans := by
  induction chained with
  | @last off formed ends =>
      exact ⟨[spanAt buf off], List.Forall₂.cons (formed.holds volume) List.Forall₂.nil, rfl,
        List.IsChain.singleton _⟩
  | @more off rest formed goesOn others ih =>
      rcases ih with ⟨spans, held, started, follows⟩
      refine ⟨spanAt buf off :: spans, List.Forall₂.cons (formed.holds volume) held, rfl, ?_⟩
      cases spans with
      | nil => cases started
      | cons second spans =>
          refine List.IsChain.cons_cons ⟨?_, ?_⟩ follows
          · simp only [spanAt, recordEndAt, if_neg goesOn]
            exact (Option.some.inj started).symm
          · exact (Option.some.inj started).symm

/-- Records that follow each other do not overlap and start at growing offsets. -/
theorem pairwise_of_follows {buf : List UInt8} {spans : List Span} {entries : List EntryFacts}
    (held : List.Forall₂ (Span.Holds buf) spans entries)
    (follows : List.IsChain (Span.Follows buf) spans) :
    spans.Pairwise fun first second => first.start < first.stop ∧ first.stop ≤ second.start := by
  induction held with
  | nil => exact List.Pairwise.nil
  | @cons first entry spans entries head tail ih =>
      have proper : first.start < first.stop := by
        have named := head.named
        have inside := head.inside
        omega
      have later := ih follows.tail
      refine List.Pairwise.cons (fun other among => ⟨proper, ?_⟩) later
      cases spans with
      | nil => cases among
      | cons second spans =>
          have step := (List.isChain_cons_cons.mp follows).1.1
          rcases List.mem_cons.mp among with rfl | among
          · exact step.le
          · have apart := List.rel_of_pairwise_cons later among
            exact step.le.trans (apart.1.le.trans apart.2)

/-- Parsing a buffer ends without leaving it; the entries of an answer come from records
that follow each other from offset 0 on, each of which holds its own name. -/
theorem parseExtdEntries_safe (buf : List UInt8) (volume : VolumeContext) :
    ∃ result, parseExtdEntries buf volume = .ok result ∧
      ∀ entries, result = some entries → entries ≠ [] →
        ∃ spans : List Span, List.Forall₂ (Span.Holds buf) spans entries ∧
          (spans.head?.map Span.start) = some 0 ∧ List.IsChain (Span.Follows buf) spans ∧
          spans.Pairwise fun first second =>
            first.start < second.start ∧ first.stop ≤ second.start := by
  have enough : buf.length < 0 + (buf.length + 1) := by omega
  rcases parseLoop_answers buf volume enough (Nat.zero_le _) [] with ⟨result, ran, chained⟩
  refine ⟨result, ran, fun entries same nonempty => ?_⟩
  rcases chained entries same with ⟨-, none⟩ | ⟨read, joined, records⟩
  · exact absurd none nonempty
  · rw [List.nil_append] at joined
    rw [joined]
    rcases records.spans with ⟨spans, held, started, follows⟩
    refine ⟨spans, held, started, follows, ?_⟩
    exact (pairwise_of_follows held follows).imp fun ⟨step, apart⟩ =>
      ⟨lt_of_lt_of_le step apart, apart⟩

/-! ### Laid-out records -/

/-- A record of the batched class. The name is not empty, and its length in bytes is
written as a word. -/
structure ExtdRecord where
  fileIndex : UInt32
  creationTime : UInt64
  lastAccessTime : UInt64
  lastWriteTime : UInt64
  changeTime : UInt64
  endOfFile : UInt64
  allocationSize : UInt64
  fileAttributes : UInt32
  eaSize : UInt32
  reparsePointTag : UInt32
  fileId : BitVec 128
  fileName : List UInt16
  named : fileName ≠ []
  short : 2 * fileName.length < 2 ^ 32

namespace ExtdRecord

def nameBytes (record : ExtdRecord) : List UInt8 :=
  record.fileName.flatMap fun unit => leBytes 2 unit.toNat

/-- The bytes of a record with the offset of the next one. -/
def bytes (record : ExtdRecord) (next : ℕ) : List UInt8 :=
  leBytes 4 next ++ (leBytes 4 record.fileIndex.toNat ++
    (leBytes 8 record.creationTime.toNat ++ (leBytes 8 record.lastAccessTime.toNat ++
    (leBytes 8 record.lastWriteTime.toNat ++ (leBytes 8 record.changeTime.toNat ++
    (leBytes 8 record.endOfFile.toNat ++ (leBytes 8 record.allocationSize.toNat ++
    (leBytes 4 record.fileAttributes.toNat ++ (leBytes 4 (2 * record.fileName.length) ++
    (leBytes 4 record.eaSize.toNat ++ (leBytes 4 record.reparsePointTag.toNat ++
    (leBytes 16 record.fileId.toNat ++ record.nameBytes))))))))))))

/-- The facts of a record. -/
def facts (record : ExtdRecord) (volume : VolumeContext) : EntryFacts where
  name := fromUtf16Lossy record.fileName
  fileAttributes := record.fileAttributes
  reparseTag :=
    if record.fileAttributes &&& fileAttributeReparsePoint ≠ 0 then record.reparsePointTag
    else 0
  creationTimeUtcMs := filetimeI64ToUnixMs record.creationTime.toInt64
  lastWriteTimeUtcMs := filetimeI64ToUnixMs record.lastWriteTime.toInt64
  lastAccessTimeUtcMs := filetimeI64ToUnixMs record.lastAccessTime.toInt64
  logicalSize := (max record.endOfFile.toInt64 0).toUInt64
  allocatedSize :=
    if record.allocationSize.toInt64 ≥ 0 then some record.allocationSize else none
  objectId := volume.identity record.fileId
  totalLinkCount := volume.linkKnowledge

theorem length_nameBytes (record : ExtdRecord) :
    record.nameBytes.length = 2 * record.fileName.length := by
  simp [nameBytes, List.length_flatMap, length_leBytes, Nat.mul_comm]

theorem length_bytes (record : ExtdRecord) (next : ℕ) :
    (record.bytes next).length = 88 + 2 * record.fileName.length := by
  simp only [bytes, List.length_append, length_leBytes, length_nameBytes]
  omega

end ExtdRecord

/-- A record that is followed by another one, after some padding. -/
structure PaddedRecord where
  record : ExtdRecord
  padding : List UInt8
  aligned : (88 + 2 * record.fileName.length + padding.length) % 8 = 0
  reachable : 88 + 2 * record.fileName.length + padding.length < 2 ^ 32

namespace PaddedRecord

def next (padded : PaddedRecord) : ℕ :=
  88 + 2 * padded.record.fileName.length + padded.padding.length

def bytes (padded : PaddedRecord) : List UInt8 :=
  padded.record.bytes padded.next ++ padded.padding

end PaddedRecord

/-- Records laid out one after the other, and what follows the last one. -/
def layOut (records : List PaddedRecord) (last : ExtdRecord) (trailing : List UInt8) :
    List UInt8 :=
  records.flatMap PaddedRecord.bytes ++ (last.bytes 0 ++ trailing)

theorem slice_field (front rest : List UInt8) (field count : ℕ) :
    slice (front ++ rest) (front.length + field) count = slice rest field count := by
  rw [slice_append_of_le rest count (Nat.le_add_right _ _), Nat.add_sub_cancel_left]

theorem utf16Units_nameBytes (record : ExtdRecord) :
    utf16Units record.nameBytes = record.fileName := by
  unfold ExtdRecord.nameBytes
  induction record.fileName with
  | nil => rfl
  | cons unit units ih =>
      have head := ofNat_leValue_leBytes_u16 unit
      rw [List.flatMap_cons, leBytes, leBytes, leBytes, List.cons_append, List.cons_append,
        List.nil_append, utf16Units, ih]
      exact congrArg (· :: units) head

section Reading

variable (front : List UInt8) (record : ExtdRecord) (next : ℕ) (rest : List UInt8)

theorem u32At_field {value : UInt32} {field : ℕ} {bytes : List UInt8}
    (same : slice bytes field 4 = leBytes 4 value.toNat) :
    u32At (front ++ bytes) (front.length + field) = value := by
  rw [u32At, slice_field, same, ofNat_leValue_leBytes_u32]

theorem i64At_field {value : UInt64} {field : ℕ} {bytes : List UInt8}
    (same : slice bytes field 8 = leBytes 8 value.toNat) :
    i64At (front ++ bytes) (front.length + field) = value.toInt64 := by
  rw [i64At, slice_field, same, ofNat_leValue_leBytes_u64]

/-- Where the fields of a record stand. -/
theorem ExtdRecord.slice_bytes :
    slice (record.bytes next ++ rest) extdOffCreation 8 = leBytes 8 record.creationTime.toNat ∧
    slice (record.bytes next ++ rest) extdOffLastAccess 8 =
      leBytes 8 record.lastAccessTime.toNat ∧
    slice (record.bytes next ++ rest) extdOffLastWrite 8 =
      leBytes 8 record.lastWriteTime.toNat ∧
    slice (record.bytes next ++ rest) extdOffEof 8 = leBytes 8 record.endOfFile.toNat ∧
    slice (record.bytes next ++ rest) extdOffAlloc 8 = leBytes 8 record.allocationSize.toNat ∧
    slice (record.bytes next ++ rest) extdOffAttrs 4 = leBytes 4 record.fileAttributes.toNat ∧
    slice (record.bytes next ++ rest) extdOffReparseTag 4 =
      leBytes 4 record.reparsePointTag.toNat ∧
    slice (record.bytes next ++ rest) extdOffFileId 16 = leBytes 16 record.fileId.toNat ∧
    slice (record.bytes next ++ rest) extdOffName (2 * record.fileName.length) =
      record.nameBytes := by
  refine ⟨?_, ?_, ?_, ?_, ?_, ?_, ?_, ?_, ?_⟩ <;>
    simp (disch := simp [record.length_nameBytes]) only [ExtdRecord.bytes, List.append_assoc,
      extdOffCreation, extdOffLastAccess, extdOffLastWrite, extdOffEof, extdOffAlloc,
      extdOffAttrs, extdOffReparseTag, extdOffFileId, extdOffName, slice_append_of_le,
      length_leBytes, Nat.reduceSub, slice_front]

theorem nextAt_bytes (word : next < 2 ^ 32) :
    nextAt (front ++ (record.bytes next ++ rest)) front.length = next := by
  have field := slice_field front (record.bytes next ++ rest) 0 4
  have start : slice (record.bytes next ++ rest) 0 4 = leBytes 4 next := by
    rw [ExtdRecord.bytes, List.append_assoc]
    exact slice_front _ (length_leBytes 4 next)
  rw [Nat.add_zero, start] at field
  have small : leValue (leBytes 4 next) = next := leValue_leBytes_of_lt word
  rw [nextAt, u32At, field, small, UInt32.toNat_ofNat_of_lt' word]

theorem nameLenAt_bytes :
    nameLenAt (front ++ (record.bytes next ++ rest)) front.length =
      2 * record.fileName.length := by
  have word : 2 * record.fileName.length < 256 ^ 4 := record.short
  have field : slice (record.bytes next ++ rest) extdOffNameLen 4 =
      leBytes 4 (2 * record.fileName.length) := by
    simp (disch := simp) only [ExtdRecord.bytes, List.append_assoc, extdOffNameLen,
      slice_append_of_le, length_leBytes, Nat.reduceSub, slice_front]
  rw [nameLenAt, u32At, slice_field, field, leValue_leBytes_of_lt word,
    UInt32.toNat_ofNat_of_lt' word]

theorem factsAt_bytes (volume : VolumeContext) :
    factsAt (front ++ (record.bytes next ++ rest)) front.length volume =
      record.facts volume := by
  rcases record.slice_bytes next rest with
    ⟨creation, access, write, eof, alloc, attrs, tag, fileId, name⟩
  simp only [factsAt, ExtdRecord.facts, nameLenAt_bytes, u32At_field front attrs,
    u32At_field front tag, i64At_field front creation, i64At_field front access,
    i64At_field front write, i64At_field front eof, i64At_field front alloc, slice_field, fileId,
    name, utf16Units_nameBytes, ofNat_leValue_leBytes_u128, UInt64.toUInt64_toInt64]

/-- A laid-out record is well formed where its end is inside the buffer. -/
theorem wellFormedAt_bytes (word : next < 2 ^ 32)
    (chained : next = 0 ∨ (next % 8 = 0 ∧ 88 + 2 * record.fileName.length ≤ next ∧
      next ≤ (record.bytes next ++ rest).length)) :
    WellFormedAt (front ++ (record.bytes next ++ rest)) front.length where
  next := by
    rw [nextAt_bytes front record next rest word, List.length_append]
    rcases chained with last | ⟨aligned, covers, inside⟩
    · exact Or.inl last
    · refine Or.inr ⟨?_, aligned, Nat.add_le_add_left inside _⟩
      simp only [extdMinRecord]
      omega
  name := by
    have named := List.length_pos_of_ne_nil record.named
    rw [nameLenAt_bytes]
    omega
  fits := by
    have len := record.length_bytes next
    rw [recordEndAt, nextAt_bytes front record next rest word, nameLenAt_bytes]
    simp only [extdOffName, List.length_append] at chained ⊢
    split <;> omega

end Reading

/-- From the front of laid-out records on, the loop reads exactly these. -/
theorem parseLoop_layOut (volume : VolumeContext) (last : ExtdRecord) (trailing : List UInt8)
    (records : List PaddedRecord) {fuel : ℕ} (front : List UInt8)
    (enough : (layOut records last trailing).length < fuel) (facts : List EntryFacts) :
    parseLoop (front ++ layOut records last trailing) volume fuel front.length facts =
      .ok (some (facts ++ (records.map fun padded => padded.record.facts volume) ++
        [last.facts volume])) := by
  have inside (front : List UInt8) (record : ExtdRecord) (next : ℕ) (rest : List UInt8) :
      front.length + extdMinRecord ≤ (front ++ (record.bytes next ++ rest)).length := by
    have len := record.length_bytes next
    simp only [List.length_append, extdMinRecord]
    omega
  induction records generalizing fuel front facts with
  | nil =>
      cases fuel with
      | zero => cases enough
      | succ fuel =>
          have ends := nextAt_bytes front last 0 trailing (by decide)
          have formed := wellFormedAt_bytes front last 0 trailing (by decide) (Or.inl rfl)
          rw [layOut, List.flatMap_nil, List.nil_append, parseLoop_succ (inside front last 0 trailing),
            if_pos formed, if_pos ends, factsAt_bytes front last 0 trailing volume]
          simp
  | cons padded records ih =>
      cases fuel with
      | zero => cases enough
      | succ fuel =>
          have split : layOut (padded :: records) last trailing =
              padded.record.bytes padded.next ++
                (padded.padding ++ layOut records last trailing) := by
            simp [layOut, PaddedRecord.bytes]
          have len := padded.record.length_bytes padded.next
          have next : padded.next = 88 + 2 * padded.record.fileName.length +
            padded.padding.length := rfl
          have aligned := padded.aligned
          have goesOn := nextAt_bytes front padded.record padded.next
            (padded.padding ++ layOut records last trailing) padded.reachable
          have formed := wellFormedAt_bytes front padded.record padded.next
            (padded.padding ++ layOut records last trailing) padded.reachable
            (Or.inr (by simp only [List.length_append]; omega))
          rw [split] at enough ⊢
          simp only [List.length_append] at enough
          rw [parseLoop_succ (inside _ _ _ _), if_pos formed, goesOn, if_neg (by omega),
            factsAt_bytes]
          have moved : front ++ (padded.record.bytes padded.next ++
              (padded.padding ++ layOut records last trailing)) =
              (front ++ padded.bytes) ++ layOut records last trailing := by
            simp [PaddedRecord.bytes]
          have reached : front.length + padded.next = (front ++ padded.bytes).length := by
            simp only [List.length_append, PaddedRecord.bytes]
            omega
          rw [moved, reached, ih (front ++ padded.bytes) (by omega)]
          simp

/-- Laid-out records are read back in order, whatever follows the last one. -/
theorem parseExtdEntries_layOut (volume : VolumeContext) (records : List PaddedRecord)
    (last : ExtdRecord) (trailing : List UInt8) :
    parseExtdEntries (layOut records last trailing) volume =
      .ok (some ((records.map fun padded => padded.record.facts volume) ++
        [last.facts volume])) :=
  parseLoop_layOut volume last trailing records [] (Nat.lt_succ_self _) []

/-- The parser reads laid-out records exactly and is safe on every buffer. -/
theorem parseExtdEntries_exact_and_safe (volume : VolumeContext) :
    (∀ (records : List PaddedRecord) (last : ExtdRecord) (trailing : List UInt8),
      parseExtdEntries (layOut records last trailing) volume =
        .ok (some ((records.map fun padded => padded.record.facts volume) ++
          [last.facts volume]))) ∧
    ∀ buf : List UInt8, ∃ result, parseExtdEntries buf volume = .ok result ∧
      ∀ entries, result = some entries → entries ≠ [] →
        ∃ spans : List Span, List.Forall₂ (Span.Holds buf) spans entries ∧
          (spans.head?.map Span.start) = some 0 ∧ List.IsChain (Span.Follows buf) spans ∧
          spans.Pairwise fun first second =>
            first.start < second.start ∧ first.stop ≤ second.start :=
  ⟨parseExtdEntries_layOut volume, fun buf => parseExtdEntries_safe buf volume⟩

/-- A file of 4096 bytes with a name of two units. -/
def Sample.extdFile : ExtdRecord where
  fileIndex := 0
  creationTime := 0
  lastAccessTime := 0
  lastWriteTime := 0
  changeTime := 0
  endOfFile := 4096
  allocationSize := 8192
  fileAttributes := 0x20
  eaSize := 0
  reparsePointTag := 0
  fileId := 7
  fileName := [0x61, 0x62]
  named := by decide
  short := by decide

/-- The same file before another record, with four bytes of padding up to it. -/
def Sample.extdPadded : PaddedRecord where
  record := Sample.extdFile
  padding := [0xAA, 0xBB, 0xCC, 0xDD]
  aligned := by decide
  reachable := by decide

def Sample.extdVolume : VolumeContext where
  guid := none
  hardlinkCapable := false

theorem parseExtdEntries_exact_and_safe_padded :
    parseExtdEntries (layOut [Sample.extdPadded, Sample.extdPadded] Sample.extdFile [1, 2, 3])
        Sample.extdVolume =
      .ok (some [Sample.extdFile.facts Sample.extdVolume, Sample.extdFile.facts Sample.extdVolume,
        Sample.extdFile.facts Sample.extdVolume]) ∧
    (Sample.extdFile.facts Sample.extdVolume).name = "ab" ∧
    (Sample.extdFile.facts Sample.extdVolume).logicalSize = 4096 :=
  ⟨(parseExtdEntries_exact_and_safe Sample.extdVolume).1
    [Sample.extdPadded, Sample.extdPadded] Sample.extdFile [1, 2, 3], by decide +kernel, rfl⟩

end Worker

end PigTree
