import PigTree.Session.ScanTarget

/-!
# Validating a scan target

The checks a target passes before it is scanned, with the calls they make to the system.
The spelling is tested before the first call and again on the canonical path. With a system
that behaves as documented no call is made with the path of a network share.
-/

namespace PigTree

open Foundation.Text ScanTarget

inductive DriveKind where
  | unknown
  | noRootDir
  | removable
  | fixed
  | remote
  | cdRom
  | ramDisk
  | other (raw : UInt32)
deriving DecidableEq, Repr

namespace DriveKind

def fromRaw (raw : UInt32) : DriveKind :=
  match raw with
  | 0 => .unknown
  | 1 => .noRootDir
  | 2 => .removable
  | 3 => .fixed
  | 4 => .remote
  | 5 => .cdRom
  | 6 => .ramDisk
  | raw => .other raw

def isSupported (kind : DriveKind) : Bool := kind = .fixed || kind = .removable

def asStr : DriveKind → String
  | .unknown => "DRIVE_UNKNOWN"
  | .noRootDir => "DRIVE_NO_ROOT_DIR"
  | .removable => "DRIVE_REMOVABLE"
  | .fixed => "DRIVE_FIXED"
  | .remote => "DRIVE_REMOTE"
  | .cdRom => "DRIVE_CDROM"
  | .ramDisk => "DRIVE_RAMDISK"
  | .other _ => "DRIVE_OTHER"

end DriveKind

inductive FileSystemKind where
  | ntfs
  | reFs
  | fat32
  | exFat
  | unsupported (name : String)
deriving DecidableEq, Repr

namespace FileSystemKind

def sameName (left right : String) : Bool :=
  eqIgnoreAsciiCase left.toUTF8.data.toList right.toUTF8.data.toList

/-- The kind of a name, without regard to case. -/
def parse (name : String) : FileSystemKind :=
  let trimmed := trim name
  if sameName trimmed "NTFS" then .ntfs
  else if sameName trimmed "ReFS" then .reFs
  else if sameName trimmed "FAT32" then .fat32
  else if sameName trimmed "exFAT" then .exFat
  else .unsupported trimmed

def isSupported : FileSystemKind → Bool
  | .unsupported _ => false
  | _ => true

end FileSystemKind

inductive TargetValidationError where
  | emptyPath
  | uncPathNotSupported (path : String)
  | notFound (path : String)
  | notADirectory (path : String)
  | canonicalizationFailed (path reason : String)
  | volumeResolutionFailed (path : String) (win32Code : UInt32)
  | unsupportedDriveType (path volumeRoot : String) (driveKind : DriveKind)
  | volumeInformationFailed (path volumeRoot : String) (win32Code : UInt32)
  | unsupportedFileSystem (path volumeRoot filesystemName : String)
deriving DecidableEq, Repr

/-- The text shown for an error. -/
def TargetValidationError.text : TargetValidationError → String
  | .emptyPath => "Target directory path cannot be empty"
  | .uncPathNotSupported path => "UNC and network paths are not supported: " ++ path
  | .notFound path => "Target directory does not exist: " ++ path
  | .notADirectory path => "Target path is not a directory: " ++ path
  | .canonicalizationFailed path reason =>
      "Failed to resolve target path '" ++ path ++ "': " ++ reason
  | .volumeResolutionFailed path win32Code =>
      "Failed to determine volume root for '" ++ path ++ "' (Win32 error " ++
        toString win32Code ++ ")"
  | .unsupportedDriveType _ volumeRoot driveKind =>
      "Target volume '" ++ volumeRoot ++ "' has unsupported drive type '" ++ driveKind.asStr ++
        "' (only fixed and removable local drives are supported)"
  | .volumeInformationFailed _ volumeRoot win32Code =>
      "Failed to query volume information for '" ++ volumeRoot ++ "' (Win32 error " ++
        toString win32Code ++ ")"
  | .unsupportedFileSystem _ volumeRoot filesystemName =>
      "Filesystem '" ++ filesystemName ++ "' on volume '" ++ volumeRoot ++
        "' is not supported (supported filesystems: NTFS, ReFS, FAT32, exFAT)"

/-- A target that passed. Canonical paths are UTF-16 as the system gives them. -/
structure ValidatedScanTarget where
  displayPath : String
  canonicalPath : List UInt16
  extendedPath : String
  volumeRoot : String
  driveKind : DriveKind
  filesystemKind : FileSystemKind
  filesystemName : String
  volumeSerialNumber : Option UInt32
deriving DecidableEq, Repr

namespace TargetValidation

/-- The code units of a text. -/
def encodeWide (text : String) : List UInt16 :=
  text.toList.flatMap fun c =>
    if c.toNat < 0x10000 then [UInt16.ofNat c.toNat]
    else
      [UInt16.ofNat (0xD800 + (c.toNat - 0x10000) / 0x400),
        UInt16.ofNat (0xDC00 + (c.toNat - 0x10000) % 0x400)]

def toWideNull (text : String) : List UInt16 := encodeWide text ++ [0]

/-- The text before the first zero. -/
def wideSliceToString (units : List UInt16) : String :=
  fromUtf16Lossy (units.take (units.findIdx (· = 0)))

/-- The answers of the system. Calls that fail answer with an error code. -/
structure System where
  pathExists : String → Bool
  isDir : String → Bool
  canonicalize : String → Except String (List UInt16)
  getVolumePathName : List UInt16 → Except UInt32 (List UInt16)
  getDriveType : List UInt16 → UInt32
  /-- The serial number and the buffer with the name of the file system. -/
  getVolumeInformation : List UInt16 → Except UInt32 (UInt32 × List UInt16)

/-- The calls made, each with the path it is made with. -/
inductive SystemCall where
  | pathExists (path : String)
  | isDir (path : String)
  | canonicalize (path : String)
  | getVolumePathName (path : String)
  | getDriveType (volumeRoot : String)
  | getVolumeInformation (volumeRoot : String)
deriving DecidableEq, Repr

/-- The path the call is made with; the calls on a volume are made with its root. -/
def SystemCall.path : SystemCall → String
  | .pathExists path => path
  | .isDir path => path
  | .canonicalize path => path
  | .getVolumePathName path => path
  | .getDriveType volumeRoot => volumeRoot
  | .getVolumeInformation volumeRoot => volumeRoot

abbrev Outcome := List SystemCall × Except TargetValidationError ValidatedScanTarget

/-- One more call before the others. -/
def after (call : SystemCall) (outcome : Outcome) : Outcome := (call :: outcome.1, outcome.2)

@[simp]
theorem after_snd (call : SystemCall) (outcome : Outcome) : (after call outcome).2 = outcome.2 := rfl

variable (system : System) (displayPath : String)

def extendedPathOf (canonical : String) : String :=
  if questionPrefix.toList.isPrefixOf canonical.toList ||
      dotPrefix.toList.isPrefixOf canonical.toList then canonical
  else questionPrefix ++ canonical

/-- The drive and the file system of the volume. -/
def checkVolume (canonicalPath : List UInt16) (extendedPath volumeRoot : String) : Outcome :=
  let driveKind := DriveKind.fromRaw (system.getDriveType (toWideNull volumeRoot))
  after (.getDriveType volumeRoot) <|
    if !driveKind.isSupported then
      ([], .error (.unsupportedDriveType displayPath volumeRoot driveKind))
    else
      after (.getVolumeInformation volumeRoot) <|
        match system.getVolumeInformation (toWideNull volumeRoot) with
        | .error code => ([], .error (.volumeInformationFailed displayPath volumeRoot code))
        | .ok (serialNumber, nameBuf) =>
            let filesystemName := wideSliceToString nameBuf
            let filesystemKind := FileSystemKind.parse filesystemName
            if !filesystemKind.isSupported then
              ([], .error (.unsupportedFileSystem displayPath volumeRoot filesystemName))
            else
              ([], .ok {
                displayPath, canonicalPath, extendedPath, volumeRoot, driveKind, filesystemKind,
                filesystemName
                volumeSerialNumber := some serialNumber })

/-- The canonical path and its volume. -/
def checkCanonical (canonicalPath : List UInt16) : Outcome :=
  let canonical := fromUtf16Lossy canonicalPath
  -- A path on a mapped drive becomes one of a share.
  if isLexicalUnc canonical then ([], .error (.uncPathNotSupported displayPath))
  else
    let extendedPath := extendedPathOf canonical
    after (.getVolumePathName extendedPath) <|
      match system.getVolumePathName (toWideNull extendedPath) with
      | .error code => ([], .error (.volumeResolutionFailed displayPath code))
      | .ok rootBuf =>
          checkVolume system displayPath canonicalPath extendedPath (wideSliceToString rootBuf)

def validateScanTarget : Outcome :=
  let trimmed := trim displayPath
  if trimmed.isEmpty then ([], .error .emptyPath)
  else if isLexicalUnc trimmed then ([], .error (.uncPathNotSupported displayPath))
  else
    after (.pathExists trimmed) <|
      if !system.pathExists trimmed then ([], .error (.notFound displayPath))
      else
        after (.isDir trimmed) <|
          if !system.isDir trimmed then ([], .error (.notADirectory displayPath))
          else
            after (.canonicalize trimmed) <|
              match system.canonicalize trimmed with
              | .error reason => ([], .error (.canonicalizationFailed displayPath reason))
              | .ok canonicalPath => checkCanonical system displayPath canonicalPath

variable {system displayPath}

/-! ### Network paths -/

/-- The bytes of a path that names a share of a server: `\\server\share`, `\\?\UNC\` or
`\\.\UNC\` with separators of either kind, and `\??\UNC\`. -/
inductive NetworkPath : List UInt8 → Prop
  | share {first second third : UInt8} {rest : List UInt8}
      (separators : isSlash first = true ∧ isSlash second = true)
      (noDevice : ¬((third = 63 ∨ third = 46) ∧ isSlash (rest.getD 0 0) = true)) :
      NetworkPath (first :: second :: third :: rest)
  | device {first second mark third : UInt8} {rest : List UInt8}
      (separators : isSlash first = true ∧ isSlash second = true ∧ isSlash third = true)
      (marked : mark = 63 ∨ mark = 46) (unc : startsWithUnc rest = true) :
      NetworkPath (first :: second :: mark :: third :: rest)
  | nt {rest : List UInt8} (unc : startsWithUnc rest = true) :
      NetworkPath (92 :: 63 :: 63 :: 92 :: rest)

/-- Two leading separators only for a device path with a drive, and no `\??\UNC\`. -/
structure LocalSpelling (bytes : List UInt8) : Prop where
  device : isSlash (bytes.getD 0 0) = true → isSlash (bytes.getD 1 0) = true →
    isLocalDevice bytes = true
  notNt : bytes.getD 0 0 = 92 → continuesNtUnc bytes = false

theorem localSpelling_iff (bytes : List UInt8) :
    LocalSpelling bytes ↔ isLexicalUncBytes bytes = false := by
  rw [Bool.eq_false_iff, Ne, isLexicalUncBytes_iff]
  constructor
  · rintro spelled (⟨first, second, remote⟩ | ⟨first, nt⟩)
    · rw [spelled.device first second] at remote
      cases remote
    · rw [spelled.notNt first] at nt
      cases nt
  · intro other
    constructor
    · intro first second
      by_contra remote
      exact other (Or.inl ⟨first, second, Bool.eq_false_iff.mpr remote⟩)
    · intro first
      by_contra nt
      exact other (Or.inr ⟨first, eq_true_of_ne_false nt⟩)

/-- What is spelled as a local path names no share. -/
theorem LocalSpelling.not_networkPath {bytes : List UInt8} (spelled : LocalSpelling bytes) :
    ¬NetworkPath bytes := by
  intro network
  cases network with
  | share separators noDevice =>
      have device := spelled.device separators.1 separators.2
      simp only [isLocalDevice, Bool.and_eq_true, Bool.or_eq_true, decide_eq_true_eq] at device
      exact noDevice device.1
  | device separators marked unc =>
      have device := spelled.device separators.1 separators.2.1
      simp only [isLocalDevice, Bool.and_eq_true] at device
      have drive : startsWithDrive _ = true := device.2
      rw [List.drop_succ_cons, List.drop_succ_cons, List.drop_succ_cons, List.drop_succ_cons,
        List.drop_zero, startsWithDrive_eq_false unc] at drive
      cases drive
  | nt unc =>
      have other := spelled.notNt rfl
      simp only [continuesNtUnc] at other
      exact absurd unc (by simpa [isSlash] using other)

def pathBytes (path : String) : List UInt8 := bytesOf path.toList

theorem localSpelling_trim (path : String) :
    LocalSpelling (pathBytes (trim path)) ↔ isLexicalUnc (trim path) = false := by
  have bytes : trimmedBytes (trim path) = pathBytes (trim path) := by
    rw [trimmedBytes_eq, pathBytes, trim, String.toList_ofList, trimChars_trimChars]
  rw [localSpelling_iff, isLexicalUnc_eq, bytes]

/-- A drive behind the prefix of extended paths. -/
theorem localSpelling_extended {rest : String}
    (drive : startsWithDrive (bytesOf rest.toList) = true) :
    LocalSpelling (pathBytes (questionPrefix ++ rest)) := by
  have bytes : pathBytes (questionPrefix ++ rest) =
      92 :: 92 :: 63 :: 92 :: bytesOf rest.toList := by
    rw [pathBytes, String.toList_append, bytesOf_append]
    rfl
  rw [bytes]
  constructor
  · intro _ _
    exact drive
  · intro _
    rfl

theorem localSpelling_drive {path : String} (drive : startsWithDrive (pathBytes path) = true) :
    LocalSpelling (pathBytes path) := by
  simp only [startsWithDrive, Bool.and_eq_true] at drive
  have letter : isSlash ((pathBytes path).getD 0 0) = false := by
    have alphabetic := drive.1
    simp only [isAsciiAlphabetic, isSlash] at alphabetic ⊢
    grind
  constructor
  · intro first
    rw [letter] at first
    cases first
  · intro first
    rw [first] at letter
    cases letter

/-! ### What is called and what is accepted -/

/-- No call of the outcome is made with the path of a share. -/
def Quiet (outcome : Outcome) : Prop :=
  ∀ call ∈ outcome.1, ¬NetworkPath (pathBytes call.path)

theorem quiet_error (err : TargetValidationError) : Quiet ([], .error err) := by
  intro call callMem
  cases callMem

theorem Quiet.after {outcome : Outcome} {call : SystemCall} (quiet : Quiet outcome)
    (spelled : LocalSpelling (pathBytes call.path)) :
    Quiet (TargetValidation.after call outcome) := by
  intro other mem
  rcases List.mem_cons.mp mem with rfl | mem
  · exact spelled.not_networkPath
  · exact quiet other mem

/-- An extended path behind the prefix is on a drive or refused. -/
theorem extendedPathOf_questionPrefix (rest : String) :
    extendedPathOf (questionPrefix ++ rest) = questionPrefix ++ rest := by
  have starts : questionPrefix.toList.isPrefixOf (questionPrefix ++ rest).toList = true := by
    rw [String.toList_append, List.isPrefixOf_iff_prefix]
    exact List.prefix_append _ _
  rw [extendedPathOf, starts, Bool.true_or, if_pos rfl]

theorem quiet_checkVolume (canonicalPath : List UInt16) (extendedPath : String)
    {volumeRoot : String} (spelled : LocalSpelling (pathBytes volumeRoot)) :
    Quiet (checkVolume system displayPath canonicalPath extendedPath volumeRoot) := by
  simp only [checkVolume]
  apply Quiet.after
  · split
    · exact quiet_error _
    · apply Quiet.after
      · split
        · exact quiet_error _
        · split
          · exact quiet_error _
          · intro call callMem
            cases callMem
      · exact spelled
  · exact spelled

/-- What the documentation of the system says: a canonical path is an extended one, and the
volume of an extended path on a drive is mounted on a drive, whose root is given with the
prefix of extended paths or without it. -/
structure System.Documented (system : System) : Prop where
  canonical : ∀ path canonical, system.canonicalize path = .ok canonical →
    ∃ rest, fromUtf16Lossy canonical = questionPrefix ++ rest
  volumeRoot : ∀ (rest : String) rootBuf, startsWithDrive (bytesOf rest.toList) = true →
    system.getVolumePathName (toWideNull (questionPrefix ++ rest)) = .ok rootBuf →
      ∃ root : String, startsWithDrive (bytesOf root.toList) = true ∧
        (wideSliceToString rootBuf = root ∨ wideSliceToString rootBuf = questionPrefix ++ root)

theorem System.Documented.localRoot (documented : system.Documented) {rest : String}
    {rootBuf : List UInt16} (drive : startsWithDrive (bytesOf rest.toList) = true)
    (resolved : system.getVolumePathName (toWideNull (questionPrefix ++ rest)) = .ok rootBuf) :
    LocalSpelling (pathBytes (wideSliceToString rootBuf)) := by
  rcases documented.volumeRoot rest rootBuf drive resolved with ⟨root, onDrive, same | same⟩
  · rw [same]
    exact localSpelling_drive onDrive
  · rw [same]
    exact localSpelling_extended onDrive

theorem quiet_checkCanonical (documented : system.Documented) {canonicalPath : List UInt16}
    {rest : String} (extended : fromUtf16Lossy canonicalPath = questionPrefix ++ rest) :
    Quiet (checkCanonical system displayPath canonicalPath) := by
  simp only [checkCanonical, extended, extendedPathOf_questionPrefix]
  split
  · exact quiet_error _
  · next onDrive =>
      rw [isLexicalUnc_questionPrefix] at onDrive
      have drive : startsWithDrive (bytesOf rest.toList) = true := by simpa using onDrive
      apply Quiet.after
      · split
        · exact quiet_error _
        · next rootBuf resolved =>
            exact quiet_checkVolume _ _ (documented.localRoot drive resolved)
      · exact localSpelling_extended drive

theorem quiet_validateScanTarget (documented : system.Documented) (displayPath : String) :
    Quiet (validateScanTarget system displayPath) := by
  simp only [validateScanTarget]
  split
  · exact quiet_error _
  split
  · exact quiet_error _
  · next spelled =>
      have trimmed : LocalSpelling (pathBytes (trim displayPath)) :=
        (localSpelling_trim displayPath).mpr (Bool.eq_false_iff.mpr spelled)
      apply Quiet.after
      · split
        · exact quiet_error _
        · apply Quiet.after
          · split
            · exact quiet_error _
            · apply Quiet.after
              · split
                · exact quiet_error _
                · next canonicalPath canonical =>
                    rcases documented.canonical _ _ canonical with ⟨rest, extended⟩
                    exact quiet_checkCanonical documented extended
              · exact trimmed
          · exact trimmed
      · exact trimmed

/-- The volume of the target is a fixed or removable drive with a supported file system. -/
structure OnVolume (system : System) (target : ValidatedScanTarget) : Prop where
  root : ∃ rootBuf, system.getVolumePathName (toWideNull target.extendedPath) = .ok rootBuf ∧
    wideSliceToString rootBuf = target.volumeRoot
  drive : .fromRaw (system.getDriveType (toWideNull target.volumeRoot)) = target.driveKind
  kind : target.driveKind = .fixed ∨ target.driveKind = .removable
  information : ∃ serialNumber nameBuf,
    system.getVolumeInformation (toWideNull target.volumeRoot) = .ok (serialNumber, nameBuf) ∧
      wideSliceToString nameBuf = target.filesystemName ∧
        target.volumeSerialNumber = some serialNumber
  filesystem : .parse target.filesystemName = target.filesystemKind
  supported : target.filesystemKind.isSupported = true

/-- A directory on a local drive, named by a drive letter behind the prefix of extended
paths. -/
structure OnLocalDrive (system : System) (displayPath : String) (target : ValidatedScanTarget) :
    Prop where
  displayPath_eq : target.displayPath = displayPath
  spelled : (trim displayPath).isEmpty = false ∧ LocalSpelling (pathBytes (trim displayPath))
  present : system.pathExists (trim displayPath) = true ∧ system.isDir (trim displayPath) = true
  canonical : system.canonicalize (trim displayPath) = .ok target.canonicalPath
  extended : fromUtf16Lossy target.canonicalPath = target.extendedPath
  drive : ∃ rest, target.extendedPath = questionPrefix ++ rest ∧
    startsWithDrive (bytesOf rest.toList) = true
  volume : OnVolume system target

variable {target : ValidatedScanTarget} {canonicalPath : List UInt16}

theorem checkVolume_accepts_iff {extendedPath volumeRoot : String} {rootBuf : List UInt16}
    (resolved : system.getVolumePathName (toWideNull extendedPath) = .ok rootBuf)
    (root : wideSliceToString rootBuf = volumeRoot) :
    (checkVolume system displayPath canonicalPath extendedPath volumeRoot).2 = .ok target ↔
      target.displayPath = displayPath ∧ target.canonicalPath = canonicalPath ∧
        target.extendedPath = extendedPath ∧ OnVolume system target ∧
          target.volumeRoot = volumeRoot := by
  constructor
  · intro accepts
    simp only [checkVolume, after_snd] at accepts
    split at accepts
    · cases accepts
    · next drive =>
        rw [after_snd] at accepts
        split at accepts
        · cases accepts
        · next serialNumber nameBuf answer =>
            split at accepts
            · cases accepts
            · next filesystem =>
                injection accepts with built
                subst built
                have kind : FileSystemKind.isSupported
                    (.parse (wideSliceToString nameBuf)) = true := by simpa using filesystem
                generalize parsed : FileSystemKind.parse (wideSliceToString nameBuf) = fsKind at *
                refine ⟨rfl, rfl, rfl, ⟨⟨rootBuf, resolved, root⟩, rfl, ?_,
                  ⟨serialNumber, nameBuf, answer, rfl, rfl⟩, parsed, kind⟩, rfl⟩
                simpa [DriveKind.isSupported, or_iff_not_imp_left] using drive
  · rintro ⟨rfl, rfl, rfl, onVolume, rfl⟩
    rcases onVolume.information with ⟨serialNumber, nameBuf, answer, name, serial⟩
    have drive : target.driveKind.isSupported = true := by
      simpa [DriveKind.isSupported] using onVolume.kind
    simp only [checkVolume, after_snd, onVolume.drive, drive, answer, name, onVolume.filesystem,
      onVolume.supported, ← serial]
    rfl

theorem checkCanonical_accepts_iff {rest : String}
    (extended : fromUtf16Lossy canonicalPath = questionPrefix ++ rest) :
    (checkCanonical system displayPath canonicalPath).2 = .ok target ↔
      target.displayPath = displayPath ∧ target.canonicalPath = canonicalPath ∧
        target.extendedPath = questionPrefix ++ rest ∧
          startsWithDrive (bytesOf rest.toList) = true ∧ OnVolume system target := by
  simp only [checkCanonical, extended, extendedPathOf_questionPrefix, isLexicalUnc_questionPrefix]
  constructor
  · intro accepts
    split at accepts
    · cases accepts
    · next onDrive =>
        rw [after_snd] at accepts
        split at accepts
        · cases accepts
        · next rootBuf resolved =>
            rcases (checkVolume_accepts_iff resolved rfl).mp accepts with
              ⟨shown, same, path, onVolume, _⟩
            exact ⟨shown, same, path, by simpa using onDrive, onVolume⟩
  · rintro ⟨shown, same, path, onDrive, onVolume⟩
    rcases onVolume.root with ⟨rootBuf, resolved, root⟩
    rw [path] at resolved
    rw [onDrive, Bool.not_true, if_neg Bool.false_ne_true, after_snd, resolved]
    exact (checkVolume_accepts_iff resolved rfl).mpr ⟨shown, same, path, onVolume, root.symm⟩

theorem validateScanTarget_accepts_iff (displayPath : String) :
    (validateScanTarget system displayPath).2 = .ok target ↔
      ((trim displayPath).isEmpty = false ∧ isLexicalUnc (trim displayPath) = false) ∧
        (system.pathExists (trim displayPath) = true ∧ system.isDir (trim displayPath) = true) ∧
          ∃ canonicalPath, system.canonicalize (trim displayPath) = .ok canonicalPath ∧
            (checkCanonical system displayPath canonicalPath).2 = .ok target := by
  constructor
  · intro accepts
    simp only [validateScanTarget] at accepts
    split at accepts
    · cases accepts
    · next visible =>
        split at accepts
        · cases accepts
        · next spelled =>
            rw [after_snd] at accepts
            split at accepts
            · cases accepts
            · next present =>
                rw [after_snd] at accepts
                split at accepts
                · cases accepts
                · next directory =>
                    rw [after_snd] at accepts
                    split at accepts
                    · cases accepts
                    · next canonicalPath canonical =>
                        refine ⟨⟨?_, ?_⟩, ⟨?_, ?_⟩, canonicalPath, canonical, accepts⟩
                        · simpa using visible
                        · simpa using spelled
                        · simpa using present
                        · simpa using directory
  · rintro ⟨⟨visible, spelled⟩, ⟨present, directory⟩, canonicalPath, canonical, accepts⟩
    simp only [validateScanTarget, visible, spelled, present, directory, canonical]
    simpa using accepts

theorem validateScanTarget_eq_ok_iff (documented : system.Documented) (displayPath : String) :
    (validateScanTarget system displayPath).2 = .ok target ↔
      OnLocalDrive system displayPath target := by
  rw [validateScanTarget_accepts_iff, ← localSpelling_trim]
  constructor
  · rintro ⟨spelled, present, canonicalPath, canonical, accepts⟩
    rcases documented.canonical _ _ canonical with ⟨rest, extended⟩
    rcases (checkCanonical_accepts_iff extended).mp accepts with
      ⟨shown, rfl, path, onDrive, onVolume⟩
    exact ⟨shown, spelled, present, canonical, extended.trans path.symm, ⟨rest, path, onDrive⟩,
      onVolume⟩
  · intro onLocal
    rcases onLocal.drive with ⟨rest, path, onDrive⟩
    refine ⟨onLocal.spelled, onLocal.present, target.canonicalPath, onLocal.canonical, ?_⟩
    exact (checkCanonical_accepts_iff (onLocal.extended.trans path)).mpr
      ⟨onLocal.displayPath_eq, rfl, path, onDrive, onLocal.volume⟩

/-- Validation asks a system that behaves as documented about no network path, and accepts
exactly the directories on a local drive. -/
theorem validateScanTarget_local (documented : system.Documented) (displayPath : String) :
    Quiet (validateScanTarget system displayPath) ∧
      ∀ target, (validateScanTarget system displayPath).2 = .ok target ↔
        OnLocalDrive system displayPath target :=
  ⟨quiet_validateScanTarget documented displayPath,
    fun _ => validateScanTarget_eq_ok_iff documented displayPath⟩

/-- A machine with one fixed drive, formatted with NTFS. -/
def Sample.oneDrive : System where
  pathExists := fun _ => true
  isDir := fun _ => true
  canonicalize := fun _ => .ok (encodeWide "\\\\?\\C:\\data")
  getVolumePathName := fun _ => .ok (toWideNull "C:\\")
  getDriveType := fun _ => 3
  getVolumeInformation := fun _ => .ok (7, toWideNull "ntfs")

theorem documented_oneDrive : Sample.oneDrive.Documented where
  canonical := by
    rintro path canonical ⟨⟩
    exact ⟨"C:\\data", by decide⟩
  volumeRoot := by
    rintro rest rootBuf _ ⟨⟩
    exact ⟨"C:\\", by decide, Or.inl (by decide)⟩

theorem validateScanTarget_local_oneDrive :
    Quiet (validateScanTarget Sample.oneDrive " c:/data") ∧
      ∀ target, (validateScanTarget Sample.oneDrive " c:/data").2 = .ok target ↔
        OnLocalDrive Sample.oneDrive " c:/data" target :=
  validateScanTarget_local documented_oneDrive " c:/data"

end TargetValidation

end PigTree
