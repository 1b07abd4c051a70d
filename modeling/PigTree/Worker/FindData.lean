import PigTree.Worker.DirectoryBuffer

/-!
# The two backends on one entry

The find-file calls answer with one structure for each entry, with 64-bit values cut in
halves; the batched class fills a buffer with records. The two backends turn an entry
into the same facts, but for times whose top bit is set.
-/

namespace PigTree

namespace Worker

open Foundation Foundation.Text

/-- The value with these halves. -/
def joinHalves (high low : UInt32) : UInt64 := (high.toUInt64 <<< 32) ||| low.toUInt64

structure Filetime where
  dwLowDateTime : UInt32
  dwHighDateTime : UInt32
deriving DecidableEq, Repr

structure Win32FindData where
  dwFileAttributes : UInt32
  ftCreationTime : Filetime
  ftLastAccessTime : Filetime
  ftLastWriteTime : Filetime
  nFileSizeHigh : UInt32
  nFileSizeLow : UInt32
  dwReserved0 : UInt32
  cFileName : Vector UInt16 260
deriving DecidableEq

/-- Convert a Windows FILETIME to milliseconds elapsed since Unix epoch. -/
def Filetime.toUnixMs (ft : Filetime) : UInt64 :=
  filetimeToUnixMs (joinHalves ft.dwHighDateTime ft.dwLowDateTime)

/-- Convert a null-terminated UTF-16 slice to text. -/
def wideSliceToString (units : List UInt16) : String :=
  fromUtf16Lossy (units.take (units.findIdx (· = 0)))

def findDataToFacts (findData : Win32FindData) (volume : VolumeContext) : EntryFacts :=
  let isReparse := findData.dwFileAttributes &&& fileAttributeReparsePoint ≠ 0
  { name := wideSliceToString findData.cFileName.toList
    fileAttributes := findData.dwFileAttributes
    reparseTag := if isReparse then findData.dwReserved0 else 0
    creationTimeUtcMs := findData.ftCreationTime.toUnixMs
    lastWriteTimeUtcMs := findData.ftLastWriteTime.toUnixMs
    lastAccessTimeUtcMs := findData.ftLastAccessTime.toUnixMs
    logicalSize := joinHalves findData.nFileSizeHigh findData.nFileSizeLow
    allocatedSize := none
    objectId := none
    totalLinkCount := volume.linkKnowledge }

/-! ### One entry in two encodings -/

/-- What both classes report of an entry. -/
structure DirectoryEntry where
  name : List UInt16
  fileAttributes : UInt32
  reparseTag : UInt32
  creationTime : UInt64
  lastAccessTime : UInt64
  lastWriteTime : UInt64
  size : UInt64
  named : name ≠ []
  short : name.length ≤ 259
  noNul : 0 ∉ name
  signed : size.toNat < 2 ^ 63

def highHalf (value : UInt64) : UInt32 := (value >>> 32).toUInt32

def lowHalf (value : UInt64) : UInt32 := value.toUInt32

def Filetime.of (value : UInt64) : Filetime where
  dwLowDateTime := lowHalf value
  dwHighDateTime := highHalf value

namespace DirectoryEntry

/-- The structure of the find-file calls; what follows the name's NUL is arbitrary. -/
structure InFindData (entry : DirectoryEntry) (findData : Win32FindData) : Prop where
  fileAttributes : findData.dwFileAttributes = entry.fileAttributes
  reparseTag : findData.dwReserved0 = entry.reparseTag
  creationTime : findData.ftCreationTime = Filetime.of entry.creationTime
  lastAccessTime : findData.ftLastAccessTime = Filetime.of entry.lastAccessTime
  lastWriteTime : findData.ftLastWriteTime = Filetime.of entry.lastWriteTime
  sizeHigh : findData.nFileSizeHigh = highHalf entry.size
  sizeLow : findData.nFileSizeLow = lowHalf entry.size
  name : entry.name ++ [0] <+: findData.cFileName.toList

/-- The record of the batched class; the fields the other class lacks are arbitrary. -/
structure InRecord (entry : DirectoryEntry) (record : ExtdRecord) : Prop where
  fileAttributes : record.fileAttributes = entry.fileAttributes
  reparseTag : record.reparsePointTag = entry.reparseTag
  creationTime : record.creationTime = entry.creationTime
  lastAccessTime : record.lastAccessTime = entry.lastAccessTime
  lastWriteTime : record.lastWriteTime = entry.lastWriteTime
  size : record.endOfFile = entry.size
  name : record.fileName = entry.name

/-- The structure with the name's characters and zeros behind them. -/
def findData (entry : DirectoryEntry) : Win32FindData where
  dwFileAttributes := entry.fileAttributes
  ftCreationTime := Filetime.of entry.creationTime
  ftLastAccessTime := Filetime.of entry.lastAccessTime
  ftLastWriteTime := Filetime.of entry.lastWriteTime
  nFileSizeHigh := highHalf entry.size
  nFileSizeLow := lowHalf entry.size
  dwReserved0 := entry.reparseTag
  cFileName := ⟨(entry.name ++ List.replicate (260 - entry.name.length) 0).toArray, by
    have short := entry.short
    simp
    omega⟩

theorem inFindData (entry : DirectoryEntry) : entry.InFindData entry.findData where
  fileAttributes := rfl
  reparseTag := rfl
  creationTime := rfl
  lastAccessTime := rfl
  lastWriteTime := rfl
  sizeHigh := rfl
  sizeLow := rfl
  name := by
    have short := entry.short
    refine ⟨List.replicate (259 - entry.name.length) 0, ?_⟩
    have zeros : 260 - entry.name.length = (259 - entry.name.length) + 1 := by omega
    simp only [findData, Vector.toList_mk, zeros, List.replicate_succ, List.append_assoc,
      List.singleton_append]

/-- The record with zeros in the fields the other class lacks. -/
def record (entry : DirectoryEntry) : ExtdRecord where
  fileIndex := 0
  creationTime := entry.creationTime
  lastAccessTime := entry.lastAccessTime
  lastWriteTime := entry.lastWriteTime
  changeTime := 0
  endOfFile := entry.size
  allocationSize := 0
  fileAttributes := entry.fileAttributes
  eaSize := 0
  reparsePointTag := entry.reparseTag
  fileId := 0
  fileName := entry.name
  named := entry.named
  short := by
    have short := entry.short
    omega

theorem inRecord (entry : DirectoryEntry) : entry.InRecord entry.record :=
  ⟨rfl, rfl, rfl, rfl, rfl, rfl, rfl⟩

end DirectoryEntry

/-- The facts that both backends can know agree. -/
structure EntryFacts.Agree (left right : EntryFacts) : Prop where
  name : left.name = right.name
  fileAttributes : left.fileAttributes = right.fileAttributes
  reparseTag : left.reparseTag = right.reparseTag
  creationTime : left.creationTimeUtcMs = right.creationTimeUtcMs
  lastAccessTime : left.lastAccessTimeUtcMs = right.lastAccessTimeUtcMs
  lastWriteTime : left.lastWriteTimeUtcMs = right.lastWriteTimeUtcMs
  logicalSize : left.logicalSize = right.logicalSize
  totalLinkCount : left.totalLinkCount = right.totalLinkCount

theorem joinHalves_halves (value : UInt64) :
    joinHalves (highHalf value) (lowHalf value) = value := by
  have bound := value.toNat_lt
  have high : value.toNat / 2 ^ 32 % 2 ^ 32 = value.toNat / 2 ^ 32 := by omega
  have shifted : 2 ^ 32 * (value.toNat / 2 ^ 32) < 2 ^ 64 := by omega
  have low : value.toNat % 2 ^ 32 < 2 ^ 32 := Nat.mod_lt _ (by decide)
  apply UInt64.toNat_inj.mp
  rw [joinHalves, highHalf, lowHalf, UInt64.toNat_or, UInt64.toNat_shiftLeft]
  simp only [UInt32.toNat_toUInt64, UInt64.toNat_toUInt32, UInt64.toNat_shiftRight,
    UInt64.reduceToNat, Nat.reduceMod, Nat.shiftRight_eq_div_pow, Nat.shiftLeft_eq, high]
  rw [Nat.mul_comm, Nat.mod_eq_of_lt shifted, ← Nat.two_pow_add_eq_or_of_lt low]
  omega

theorem toUnixMs_of (value : UInt64) : (Filetime.of value).toUnixMs = filetimeToUnixMs value := by
  rw [Filetime.toUnixMs, Filetime.of, joinHalves_halves]

theorem wideSliceToString_prefix {name units : List UInt16} (noNul : 0 ∉ name)
    (starts : name ++ [0] <+: units) : wideSliceToString units = fromUtf16Lossy name := by
  rcases starts with ⟨rest, rfl⟩
  have position : (name ++ [0] ++ rest).findIdx (· = 0) = name.length := by
    rw [List.append_assoc, List.findIdx_append, if_neg]
    · simp [List.findIdx_cons]
    · rw [List.findIdx_lt_length]
      rintro ⟨unit, among, zero⟩
      exact noNul (of_decide_eq_true zero ▸ among)
  rw [wideSliceToString, position, List.append_assoc, List.take_left]

theorem toInt_toInt64 (value : UInt64) :
    value.toInt64.toInt =
      if value.toNat < 2 ^ 63 then (value.toNat : ℤ) else value.toNat - 2 ^ 64 := by
  have bits : value.toInt64.toInt = value.toBitVec.toInt := rfl
  have same : value.toBitVec.toNat = value.toNat := rfl
  rw [bits, BitVec.toInt_eq_toNat_cond, same]
  split <;> split <;> omega

theorem logicalSize_eq {size : UInt64} (signed : size.toNat < 2 ^ 63) :
    (max size.toInt64 0).toUInt64 = size := by
  have positive : (0 : Int64) ≤ size.toInt64 := by
    rw [Int64.le_iff_toInt_le, toInt_toInt64, if_pos signed]
    exact Int.natCast_nonneg _
  have choice : max size.toInt64 0 = if size.toInt64 ≤ 0 then 0 else size.toInt64 := rfl
  rw [choice]
  split
  · next negative => rw [← Int64.le_antisymm negative positive, UInt64.toUInt64_toInt64]
  · exact UInt64.toUInt64_toInt64 size

/-- Read as a signed number, a time from 2^63 on lies before the epoch. -/
theorem filetimeI64ToUnixMs_eq_iff (ft : UInt64) :
    filetimeToUnixMs ft = filetimeI64ToUnixMs ft.toInt64 ↔ ft.toNat < 2 ^ 63 := by
  have epoch : (Int64.ofNat windowsEpochDifference).toInt = 116444736000000000 := rfl
  have difference : (ft.toInt64 - Int64.ofNat windowsEpochDifference).toUInt64 =
      ft - 116444736000000000 := rfl
  have after : ft.toInt64 > Int64.ofNat windowsEpochDifference ↔
      116444736000000000 < ft.toInt64.toInt := by
    rw [gt_iff_lt, Int64.lt_iff_toInt_lt, epoch]
  have afterUnsigned : ft > 116444736000000000 ↔ 116444736000000000 < ft.toNat :=
    UInt64.lt_iff_toNat_lt
  rw [filetimeToUnixMs, filetimeI64ToUnixMs, difference]
  by_cases signed : ft.toNat < 2 ^ 63
  · have sameTest : ft.toInt64 > Int64.ofNat windowsEpochDifference ↔
        ft > 116444736000000000 := by
      rw [after, afterUnsigned, toInt_toInt64, if_pos signed]
      omega
    simp only [sameTest, signed]
  · have before : ¬ft.toInt64 > Int64.ofNat windowsEpochDifference := by
      have bound := ft.toNat_lt
      rw [after, toInt_toInt64, if_neg signed]
      omega
    have late : ft > 116444736000000000 := afterUnsigned.mpr (by omega)
    rw [if_neg before, if_pos late]
    refine iff_of_false (fun same => ?_) signed
    have value := congrArg UInt64.toNat same
    have order : (116444736000000000 : UInt64) ≤ ft := UInt64.le_of_lt late
    rw [UInt64.toNat_div, UInt64.toNat_sub_of_le _ _ order] at value
    simp only [UInt64.reduceToNat] at value
    omega

/-- The two backends agree on an entry exactly when none of its times has the top bit
set. -/
theorem backends_agree (entry : DirectoryEntry) (findData : Win32FindData)
    (found : entry.InFindData findData) (record : ExtdRecord) (recorded : entry.InRecord record)
    (trailing : List UInt8) (volume : VolumeContext) :
    (∃ facts, parseExtdEntries (layOut [] record trailing) volume = .ok (some [facts]) ∧
        (findDataToFacts findData volume).Agree facts) ↔
      (entry.creationTime.toNat < 2 ^ 63 ∧ entry.lastAccessTime.toNat < 2 ^ 63 ∧
        entry.lastWriteTime.toNat < 2 ^ 63) := by
  have parsed := parseExtdEntries_layOut volume [] record trailing
  rw [List.map_nil, List.nil_append] at parsed
  have times : (filetimeToUnixMs entry.creationTime =
        filetimeI64ToUnixMs entry.creationTime.toInt64 ∧
      filetimeToUnixMs entry.lastAccessTime =
        filetimeI64ToUnixMs entry.lastAccessTime.toInt64 ∧
      filetimeToUnixMs entry.lastWriteTime =
        filetimeI64ToUnixMs entry.lastWriteTime.toInt64) ↔
      (entry.creationTime.toNat < 2 ^ 63 ∧ entry.lastAccessTime.toNat < 2 ^ 63 ∧
        entry.lastWriteTime.toNat < 2 ^ 63) := by
    simp only [filetimeI64ToUnixMs_eq_iff]
  rw [parsed, ← times]
  constructor
  · rintro ⟨facts, same, agree⟩
    have unique : record.facts volume = facts :=
      (List.cons.inj (Option.some.inj (Except.ok.inj same))).1
    rcases agree with ⟨-, -, -, creation, access, write, -, -⟩
    simp only [← unique, findDataToFacts, ExtdRecord.facts, found.creationTime,
      found.lastAccessTime, found.lastWriteTime, toUnixMs_of, recorded.creationTime,
      recorded.lastAccessTime, recorded.lastWriteTime] at creation access write
    exact ⟨creation, access, write⟩
  · rintro ⟨creation, access, write⟩
    refine ⟨record.facts volume, rfl, ?_, ?_, ?_, ?_, ?_, ?_, ?_, rfl⟩
    · rw [findDataToFacts, ExtdRecord.facts, recorded.name,
        wideSliceToString_prefix entry.noNul found.name]
    · rw [findDataToFacts, ExtdRecord.facts, found.fileAttributes, recorded.fileAttributes]
    · simp only [findDataToFacts, ExtdRecord.facts, found.fileAttributes, found.reparseTag,
        recorded.fileAttributes, recorded.reparseTag]
    · rw [findDataToFacts, ExtdRecord.facts, found.creationTime, recorded.creationTime,
        toUnixMs_of, creation]
    · rw [findDataToFacts, ExtdRecord.facts, found.lastAccessTime, recorded.lastAccessTime,
        toUnixMs_of, access]
    · rw [findDataToFacts, ExtdRecord.facts, found.lastWriteTime, recorded.lastWriteTime,
        toUnixMs_of, write]
    · rw [findDataToFacts, ExtdRecord.facts, found.sizeHigh, found.sizeLow, recorded.size,
        joinHalves_halves, logicalSize_eq entry.signed]

/-- A file created at the given time. -/
def DirectoryEntry.createdAt (creationTime : UInt64) : DirectoryEntry where
  name := [97]
  fileAttributes := 32
  reparseTag := 0
  creationTime
  lastAccessTime := 133000000000000000
  lastWriteTime := 133000000000000000
  size := 4096
  named := by decide
  short := by decide
  noNul := by decide
  signed := by decide

theorem backends_agree_recent :
    ∃ facts, parseExtdEntries
        (layOut [] (DirectoryEntry.createdAt 132000000000000000).record [7])
        { guid := none, hardlinkCapable := true } = .ok (some [facts]) ∧
      (findDataToFacts (DirectoryEntry.createdAt 132000000000000000).findData
        { guid := none, hardlinkCapable := true }).Agree facts :=
  (backends_agree _ _ (DirectoryEntry.inFindData _) _ (DirectoryEntry.inRecord _) [7] _).mpr
    ⟨by decide, by decide, by decide⟩

/-- A creation time of 2^63 is a late date for one backend and the epoch for the
other. -/
theorem backends_disagree :
    ¬∀ (entry : DirectoryEntry) (findData : Win32FindData), entry.InFindData findData →
      ∀ record : ExtdRecord, entry.InRecord record →
        ∀ (trailing : List UInt8) (volume : VolumeContext),
          ∃ facts, parseExtdEntries (layOut [] record trailing) volume = .ok (some [facts]) ∧
            (findDataToFacts findData volume).Agree facts := by
  intro claim
  let late := DirectoryEntry.createdAt 9223372036854775808
  rcases claim late _ late.inFindData _ late.inRecord [] { guid := none, hardlinkCapable := true }
    with ⟨facts, read, agree⟩
  have parsed := parseExtdEntries_layOut { guid := none, hardlinkCapable := true } [] late.record []
  have unique := (List.cons.inj (Option.some.inj (Except.ok.inj (parsed.symm.trans read)))).1
  have creation := agree.creationTime
  rw [← unique] at creation
  revert creation
  decide

end Worker

end PigTree
