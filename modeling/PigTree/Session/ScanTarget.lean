import Mathlib.Data.List.Forall2
import Mathlib.Data.List.GetD
import PigTree.Foundation.Text

/-!
# Refusing network paths by their spelling

Before any call to the system, a scan target is refused when its text is that of a
network path. The test reads the first bytes of the trimmed text, and it tests the three
prefixes of device paths in two overlapping branches.
-/

namespace PigTree

open Foundation.Text

namespace ScanTarget

def isSlash (b : UInt8) : Bool := b = 92 || b = 47

def isAsciiAlphabetic (b : UInt8) : Bool := (65 ≤ b && b ≤ 90) || (97 ≤ b && b ≤ 122)

def toAsciiLowercase (b : UInt8) : UInt8 := if 65 ≤ b && b ≤ 90 then b + 32 else b

def eqIgnoreAsciiCase (left right : List UInt8) : Bool :=
  left.map toAsciiLowercase = right.map toAsciiLowercase

/-- The first branch: `\\?\UNC\`, `\\.\UNC\` and what the code takes for `\??\UNC\`. -/
def isExtendedUnc (bytes : List UInt8) : Bool :=
  let at' := fun idx => bytes.getD idx 0
  let firstTwoSlash := (isSlash (at' 0) && isSlash (at' 1)) ||
    (at' 0 = 92 && at' 1 = 63 && at' 2 = 63)
  ((firstTwoSlash && (at' 2 = 63 || at' 2 = 46) && isSlash (at' 3)) ||
      [92, 63, 63, 92, 92].isPrefixOf bytes) &&
    (eqIgnoreAsciiCase ((bytes.drop 4).take 3) [85, 78, 67] && isSlash (at' 7))

def isLexicalUncBytes (bytes : List UInt8) : Bool :=
  let at' := fun idx => bytes.getD idx 0
  if 8 ≤ bytes.length && isExtendedUnc bytes then true
  else if 2 ≤ bytes.length && isSlash (at' 0) && isSlash (at' 1) then
    if 4 ≤ bytes.length && (at' 2 = 63 || at' 2 = 46) && isSlash (at' 3) then
      -- A device path is local only when a drive letter follows.
      if 6 ≤ bytes.length && isAsciiAlphabetic (at' 4) && at' 5 = 58 then false else true
    else true
  else false

def isLexicalUnc (raw : String) : Bool :=
  let s := trim raw
  if s.isEmpty then false else isLexicalUncBytes s.toUTF8.data.toList

/-! ### What the two branches decide -/

/-- A drive letter and a colon. -/
def startsWithDrive (bytes : List UInt8) : Bool :=
  isAsciiAlphabetic (bytes.getD 0 0) && bytes.getD 1 0 = 58

/-- The letters `UNC` in any case and a separator. -/
def startsWithUnc (bytes : List UInt8) : Bool :=
  eqIgnoreAsciiCase (bytes.take 3) [85, 78, 67] && isSlash (bytes.getD 3 0)

/-- Two separators, `?` or `.`, a separator and a drive. -/
def isLocalDevice (bytes : List UInt8) : Bool :=
  (bytes.getD 2 0 = 63 || bytes.getD 2 0 = 46) && isSlash (bytes.getD 3 0) &&
    startsWithDrive (bytes.drop 4)

/-- The path `\??\UNC\` after its first character, with separators of either kind. -/
def continuesNtUnc (bytes : List UInt8) : Bool :=
  bytes.getD 1 0 = 63 && bytes.getD 2 0 = 63 && isSlash (bytes.getD 3 0) &&
    startsWithUnc (bytes.drop 4)

theorem getD_drop (bytes : List UInt8) (start idx : ℕ) :
    (bytes.drop start).getD idx 0 = bytes.getD (start + idx) 0 := by
  simp [List.getD_eq_getElem?_getD]

theorem lt_length_of_getD_ne {bytes : List UInt8} {idx : ℕ} (present : bytes.getD idx 0 ≠ 0) :
    idx < bytes.length := by
  by_contra beyond
  apply present
  simp [List.getD_eq_getElem?_getD, List.getElem?_eq_none (Nat.le_of_not_lt beyond)]

theorem lt_length_of_isSlash {bytes : List UInt8} {idx : ℕ}
    (slash : isSlash (bytes.getD idx 0) = true) : idx < bytes.length := by
  apply lt_length_of_getD_ne
  intro missing
  rw [missing] at slash
  cases slash

theorem startsWithUnc_iff (bytes : List UInt8) :
    startsWithUnc bytes = true ↔
      toAsciiLowercase (bytes.getD 0 0) = 117 ∧ toAsciiLowercase (bytes.getD 1 0) = 110 ∧
        toAsciiLowercase (bytes.getD 2 0) = 99 ∧ isSlash (bytes.getD 3 0) = true := by
  have lowered : [85, 78, 67].map toAsciiLowercase = [117, 110, 99] := rfl
  match bytes with
  | [] | [_] | [_, _] =>
      simp [startsWithUnc, eqIgnoreAsciiCase, lowered, toAsciiLowercase, isSlash]
  | _ :: _ :: _ :: _ => simp [startsWithUnc, eqIgnoreAsciiCase, lowered, and_assoc]

/-- The second letter of `UNC` is no colon. -/
theorem startsWithDrive_eq_false {bytes : List UInt8} (unc : startsWithUnc bytes = true) :
    startsWithDrive bytes = false := by
  rcases (startsWithUnc_iff bytes).mp unc with ⟨-, second, -, -⟩
  simp only [startsWithDrive, Bool.and_eq_false_iff, decide_eq_false_iff_not]
  right
  intro colon
  rw [colon] at second
  revert second
  decide

/-- Behind the five bytes the code compares, no `UNC` can start at the fifth. -/
theorem isPrefixOf_eq_false {bytes : List UInt8} (unc : startsWithUnc (bytes.drop 4) = true) :
    [92, 63, 63, 92, 92].isPrefixOf bytes = false := by
  rw [Bool.eq_false_iff]
  intro literal
  rcases List.isPrefixOf_iff_prefix.mp literal with ⟨rest, rfl⟩
  revert unc
  simp [startsWithUnc_iff, toAsciiLowercase]

theorem isExtendedUnc_iff (bytes : List UInt8) :
    isExtendedUnc bytes = true ↔
      ((isSlash (bytes.getD 0 0) = true ∧ isSlash (bytes.getD 1 0) = true ∧
          (bytes.getD 2 0 = 63 ∨ bytes.getD 2 0 = 46)) ∧ isSlash (bytes.getD 3 0) = true ∧
          startsWithUnc (bytes.drop 4) = true) ∨
        (bytes.getD 0 0 = 92 ∧ continuesNtUnc bytes = true) := by
  have shape : isExtendedUnc bytes =
      (((((isSlash (bytes.getD 0 0) && isSlash (bytes.getD 1 0)) ||
          (bytes.getD 0 0 = 92 && bytes.getD 1 0 = 63 && bytes.getD 2 0 = 63)) &&
        (bytes.getD 2 0 = 63 || bytes.getD 2 0 = 46) && isSlash (bytes.getD 3 0)) ||
        [92, 63, 63, 92, 92].isPrefixOf bytes) && startsWithUnc (bytes.drop 4)) := by
    simp only [isExtendedUnc, startsWithUnc, getD_drop, Nat.reduceAdd]
  have literal : startsWithUnc (bytes.drop 4) = true →
      [92, 63, 63, 92, 92].isPrefixOf bytes = false := isPrefixOf_eq_false
  rw [shape]
  simp only [continuesNtUnc, Bool.and_eq_true, Bool.or_eq_true, decide_eq_true_eq]
  grind

/-- The length guards of the code and its five-byte prefix change nothing: a device path
with a drive is local, every other path with two leading separators is refused, and so is
`\??\UNC\` when it starts with a backslash. -/
theorem isLexicalUncBytes_iff (bytes : List UInt8) :
    isLexicalUncBytes bytes = true ↔
      (isSlash (bytes.getD 0 0) = true ∧ isSlash (bytes.getD 1 0) = true ∧
          isLocalDevice bytes = false) ∨
        (bytes.getD 0 0 = 92 ∧ continuesNtUnc bytes = true) := by
  have extended := isExtendedUnc_iff bytes
  have apart : startsWithUnc (bytes.drop 4) = true → startsWithDrive (bytes.drop 4) = false :=
    startsWithDrive_eq_false
  have long : startsWithUnc (bytes.drop 4) = true → 8 ≤ bytes.length := by
    intro unc
    have slash := ((startsWithUnc_iff _).mp unc).2.2.2
    rw [getD_drop] at slash
    exact lt_length_of_isSlash slash
  have second : isSlash (bytes.getD 1 0) = true → 2 ≤ bytes.length := lt_length_of_isSlash
  have fourth : isSlash (bytes.getD 3 0) = true → 4 ≤ bytes.length := lt_length_of_isSlash
  have drive : startsWithDrive (bytes.drop 4) = true ↔
      6 ≤ bytes.length ∧ isAsciiAlphabetic (bytes.getD 4 0) = true ∧ bytes.getD 5 0 = 58 := by
    simp only [startsWithDrive, getD_drop, Nat.reduceAdd, Bool.and_eq_true, decide_eq_true_eq]
    refine ⟨fun found => ⟨?_, found⟩, And.right⟩
    exact lt_length_of_getD_ne (by rw [found.2]; decide)
  have question : bytes.getD 1 0 = 63 → isSlash (bytes.getD 1 0) = false := by
    intro same
    rw [same]
    rfl
  simp only [isLexicalUncBytes, isLocalDevice, continuesNtUnc] at extended ⊢
  grind

/-! ### Other spellings of the separators -/

def IsSeparator (c : Char) : Prop := c = '\\' ∨ c = '/'

instance (c : Char) : Decidable (IsSeparator c) := inferInstanceAs (Decidable (_ ∨ _))

/-- The same character, or two separators. -/
def SameChar (left right : Char) : Prop := left = right ∨ (IsSeparator left ∧ IsSeparator right)

/-- Two texts that differ only in which separators they use. -/
def Respelled (left right : String) : Prop := List.Forall₂ SameChar left.toList right.toList

instance (left right : Char) : Decidable (SameChar left right) :=
  inferInstanceAs (Decidable (_ ∨ _))

instance (left right : String) : Decidable (Respelled left right) :=
  inferInstanceAs (Decidable (List.Forall₂ _ _ _))

def SameByte (left right : UInt8) : Prop :=
  left = right ∨ (isSlash left = true ∧ isSlash right = true)

theorem SameChar.isWhitespace_eq {left right : Char} (same : SameChar left right) :
    isWhitespace left = isWhitespace right := by
  rcases same with rfl | ⟨rfl | rfl, rfl | rfl⟩ <;> rfl

theorem forall₂_trimStart {left right : List Char} (same : List.Forall₂ SameChar left right) :
    List.Forall₂ SameChar (trimStart left) (trimStart right) := by
  induction same with
  | nil => exact List.Forall₂.nil
  | @cons first second left right head tail ih =>
      simp only [trimStart, List.dropWhile_cons, head.isWhitespace_eq] at ih ⊢
      split_ifs
      · exact ih
      · exact List.Forall₂.cons head tail

theorem forall₂_trimChars {left right : List Char} (same : List.Forall₂ SameChar left right) :
    List.Forall₂ SameChar (trimChars left) (trimChars right) := by
  have reversed := List.rel_reverse (forall₂_trimStart same)
  exact List.rel_reverse (forall₂_trimStart reversed)

theorem SameChar.encodes {left right : Char} (same : SameChar left right) :
    List.Forall₂ SameByte (String.utf8EncodeChar left) (String.utf8EncodeChar right) := by
  rcases same with rfl | ⟨rfl | rfl, rfl | rfl⟩
  · exact List.forall₂_same.mpr fun byte _ => Or.inl rfl
  all_goals exact List.Forall₂.cons (Or.inr ⟨rfl, rfl⟩) List.Forall₂.nil

theorem forall₂_bytesOf {left right : List Char} (same : List.Forall₂ SameChar left right) :
    List.Forall₂ SameByte (bytesOf left) (bytesOf right) := by
  induction same with
  | nil => exact List.Forall₂.nil
  | cons head tail ih =>
      rw [bytesOf_cons, bytesOf_cons]
      exact List.rel_append head.encodes ih

section SameBytes

variable {left right : List UInt8} (same : List.Forall₂ SameByte left right)

include same

theorem sameByte_getD (idx : ℕ) : SameByte (left.getD idx 0) (right.getD idx 0) := by
  induction same generalizing idx with
  | nil => exact Or.inl rfl
  | cons head tail ih =>
      cases idx with
      | zero => exact head
      | succ idx => exact ih idx

theorem isSlash_getD_eq (idx : ℕ) : isSlash (left.getD idx 0) = isSlash (right.getD idx 0) := by
  rcases sameByte_getD same idx with equal | ⟨first, second⟩
  · rw [equal]
  · rw [first, second]

/-- A test that no separator passes has the same outcome on both sides. -/
theorem test_getD_iff (test : UInt8 → Prop) (backslash : ¬test 92) (slash : ¬test 47)
    (idx : ℕ) : test (left.getD idx 0) ↔ test (right.getD idx 0) := by
  have fails {byte : UInt8} (separator : isSlash byte = true) : ¬test byte := by
    have spelled : byte = 92 ∨ byte = 47 := by simpa [isSlash] using separator
    rcases spelled with rfl | rfl
    · exact backslash
    · exact slash
  rcases sameByte_getD same idx with equal | ⟨first, second⟩
  · rw [equal]
  · exact iff_of_false (fails first) (fails second)

theorem forall₂_drop (count : ℕ) :
    List.Forall₂ SameByte (left.drop count) (right.drop count) :=
  List.forall₂_drop count same

theorem startsWithUnc_eq : startsWithUnc left = startsWithUnc right := by
  have letter (code : UInt8) (backslash : toAsciiLowercase 92 ≠ code)
      (slash : toAsciiLowercase 47 ≠ code) (idx : ℕ) :
      toAsciiLowercase (left.getD idx 0) = code ↔ toAsciiLowercase (right.getD idx 0) = code :=
    test_getD_iff same (fun byte => toAsciiLowercase byte = code) backslash slash idx
  rw [Bool.eq_iff_iff, startsWithUnc_iff, startsWithUnc_iff, isSlash_getD_eq same,
    letter 117 (by decide) (by decide), letter 110 (by decide) (by decide),
    letter 99 (by decide) (by decide)]

theorem startsWithDrive_eq : startsWithDrive left = startsWithDrive right := by
  have letter := test_getD_iff same (fun byte => isAsciiAlphabetic byte = true)
    (by decide) (by decide) 0
  have colon := test_getD_iff same (fun byte => byte = 58) (by decide) (by decide) 1
  rw [Bool.eq_iff_iff]
  simp only [startsWithDrive, Bool.and_eq_true, decide_eq_true_eq, letter, colon]

theorem isLocalDevice_eq : isLocalDevice left = isLocalDevice right := by
  have mark := test_getD_iff same (fun byte => byte = 63 ∨ byte = 46) (by decide) (by decide) 2
  have slash := isSlash_getD_eq same 3
  have drive := startsWithDrive_eq (forall₂_drop same 4)
  rw [Bool.eq_iff_iff]
  simp only [isLocalDevice, Bool.and_eq_true, Bool.or_eq_true, decide_eq_true_eq, mark, slash, drive]

theorem continuesNtUnc_eq : continuesNtUnc left = continuesNtUnc right := by
  have mark := test_getD_iff same (fun byte => byte = 63) (by decide) (by decide)
  have slash := isSlash_getD_eq same 3
  have unc := startsWithUnc_eq (forall₂_drop same 4)
  rw [Bool.eq_iff_iff]
  simp only [continuesNtUnc, Bool.and_eq_true, decide_eq_true_eq, mark, slash, unc]

end SameBytes

/-- The path `\\??\UNC\` with separators of either kind. -/
def spellsNtUnc (bytes : List UInt8) : Bool := isSlash (bytes.getD 0 0) && continuesNtUnc bytes

/-- Only the first separator of `\\??\UNC\` is told apart from the other one. -/
theorem isLexicalUncBytes_eq_iff {left right : List UInt8}
    (same : List.Forall₂ SameByte left right) :
    isLexicalUncBytes left = isLexicalUncBytes right ↔
      (spellsNtUnc left = true → left.getD 0 0 = right.getD 0 0) := by
  have slash := isSlash_getD_eq same
  have device := isLocalDevice_eq same
  have nt := continuesNtUnc_eq same
  have first := sameByte_getD same 0
  have kinds (byte : UInt8) : isSlash byte = true ↔ byte = 92 ∨ byte = 47 := by simp [isSlash]
  have question : continuesNtUnc right = true → isSlash (right.getD 1 0) = false := by
    intro found
    simp only [continuesNtUnc, Bool.and_eq_true, decide_eq_true_eq] at found
    rw [found.1.1.1]
    rfl
  rw [Bool.eq_iff_iff, isLexicalUncBytes_iff, isLexicalUncBytes_iff, slash 0, slash 1, device, nt,
    spellsNtUnc, slash 0, nt]
  cases nt : continuesNtUnc right with
  | false => simp
  | true =>
      simp only [question nt, Bool.and_true, and_true, false_and, and_false, false_or,
        Bool.false_eq_true]
      rcases first with equal | ⟨fromLeft, fromRight⟩
      · rw [equal]
        exact iff_of_true Iff.rfl fun _ => rfl
      · rw [kinds] at fromLeft fromRight
        rcases fromLeft with l | l <;> rcases fromRight with r | r <;> rw [l, r] <;> decide

/-! ### Trimmed texts -/

/-- The bytes the test reads. -/
def trimmedBytes (raw : String) : List UInt8 := (trim raw).toUTF8.data.toList

theorem trimmedBytes_eq (raw : String) : trimmedBytes raw = bytesOf (trimChars raw.toList) :=
  toList_toUTF8_ofList _

theorem isLexicalUnc_eq (raw : String) :
    isLexicalUnc raw = isLexicalUncBytes (trimmedBytes raw) := by
  rw [isLexicalUnc]
  by_cases blank : trim raw = ""
  · have none : trimmedBytes raw = [] := by
      rw [trimmedBytes, blank]
      rfl
    rw [blank, none]
    rfl
  · rw [if_neg (by simpa [String.isEmpty_iff] using blank), trimmedBytes]

theorem Respelled.trimmedBytes {left right : String} (same : Respelled left right) :
    List.Forall₂ SameByte (trimmedBytes left) (trimmedBytes right) := by
  rw [trimmedBytes_eq, trimmedBytes_eq]
  exact forall₂_bytesOf (forall₂_trimChars same)

/-- The printable characters of ASCII, without the blank. -/
def IsGraphic (byte : UInt8) : Prop := 33 ≤ byte.toNat ∧ byte.toNat < 127

theorem IsGraphic.isWhitespace_eq {byte : UInt8} (graphic : IsGraphic byte) :
    isWhitespace (Char.ofNat byte.toNat) = false := by
  have table : ∀ code < 127, 33 ≤ code → isWhitespace (Char.ofNat code) = false := by decide
  exact table _ graphic.2 graphic.1

theorem IsGraphic.lt {byte : UInt8} (graphic : IsGraphic byte) : byte < 128 :=
  lt_trans graphic.2 (by decide)

theorem IsGraphic.ne_zero {byte : UInt8} (graphic : IsGraphic byte) : byte ≠ 0 := by
  rintro rfl
  exact absurd graphic.1 (by decide)

/-- Printable first bytes stay when blanks are removed at the end. -/
theorem getD_bytesOf_trimEnd {count : ℕ} {chars : List Char}
    (graphic : ∀ idx < count, IsGraphic ((bytesOf chars).getD idx 0)) :
    ∀ idx < count, (bytesOf chars).getD idx 0 = (bytesOf (trimEnd chars)).getD idx 0 := by
  induction count generalizing chars with
  | zero => intro idx inside; cases inside
  | succ count ih =>
      intro idx inside
      have head := graphic 0 (Nat.succ_pos _)
      cases start : bytesOf chars with
      | nil =>
          rw [start] at head
          exact absurd rfl head.ne_zero
      | cons byte rest =>
          rw [start] at graphic head
          replace head : IsGraphic byte := head
          rcases bytesOf_eq_cons start head.lt with ⟨tail, rfl, rfl, encoded⟩
          rw [trimEnd_cons_of_not head.isWhitespace_eq, bytesOf_cons, encoded]
          cases idx with
          | zero => rfl
          | succ idx =>
              apply ih _ idx (Nat.lt_of_succ_lt_succ inside)
              intro later before
              exact graphic (later + 1) (Nat.succ_lt_succ before)

/-- Bytes the shorter text has, the longer one has as well. -/
theorem getD_bytesOf_of_trimEnd {chars : List Char} {idx : ℕ}
    (present : (bytesOf (trimEnd chars)).getD idx 0 ≠ 0) :
    (bytesOf (trimEnd chars)).getD idx 0 = (bytesOf chars).getD idx 0 := by
  rcases List.rdropWhile_prefix isWhitespace chars with ⟨blanks, joined⟩
  have bytes : bytesOf chars = bytesOf (trimEnd chars) ++ bytesOf blanks := by
    rw [← bytesOf_append]
    exact congrArg bytesOf joined.symm
  have inside := lt_length_of_getD_ne present
  rw [bytes, List.getD_append _ _ _ _ inside]

/-- A test of the first bytes that only printable ones pass does not see the blanks at
the end. -/
theorem test_bytesOf_trimEnd (test : List UInt8 → Prop) (count : ℕ)
    (reads : ∀ left right, (∀ idx < count, left.getD idx 0 = right.getD idx 0) →
      test left → test right)
    (graphic : ∀ bytes, test bytes → ∀ idx < count, IsGraphic (bytes.getD idx 0))
    (chars : List Char) : test (bytesOf (trimEnd chars)) ↔ test (bytesOf chars) := by
  constructor
  · intro passed
    apply reads _ _ _ passed
    intro idx inside
    exact getD_bytesOf_of_trimEnd (graphic _ passed idx inside).ne_zero
  · intro passed
    exact reads _ _ (getD_bytesOf_trimEnd (graphic _ passed)) passed

theorem startsWithDrive_trimEnd (chars : List Char) :
    startsWithDrive (bytesOf (trimEnd chars)) = startsWithDrive (bytesOf chars) := by
  rw [Bool.eq_iff_iff]
  apply test_bytesOf_trimEnd (fun bytes => startsWithDrive bytes = true) 2
  · intro left right same passed
    simpa only [startsWithDrive, same 0 (by decide), same 1 (by decide)] using passed
  · intro bytes passed idx inside
    simp only [startsWithDrive, isAsciiAlphabetic, Bool.and_eq_true, Bool.or_eq_true,
      decide_eq_true_eq] at passed
    rcases passed with ⟨letter, colon⟩
    match idx, inside with
    | 0, _ =>
        simp only [UInt8.le_iff_toNat_le, UInt8.reduceToNat] at letter
        unfold IsGraphic
        omega
    | 1, _ =>
        rw [colon]
        exact ⟨by decide, by decide⟩

theorem IsGraphic.of_toAsciiLowercase {byte : UInt8}
    (graphic : IsGraphic (toAsciiLowercase byte)) : IsGraphic byte := by
  unfold toAsciiLowercase at graphic
  split_ifs at graphic with upper
  · simp only [Bool.and_eq_true, decide_eq_true_eq, UInt8.le_iff_toNat_le,
      UInt8.reduceToNat] at upper
    unfold IsGraphic
    omega
  · exact graphic

theorem isGraphic_of_isSlash {byte : UInt8} (slash : isSlash byte = true) : IsGraphic byte := by
  have spelled : byte = 92 ∨ byte = 47 := by simpa [isSlash] using slash
  rcases spelled with rfl | rfl <;> exact ⟨by decide, by decide⟩

theorem startsWithUnc_trimEnd (chars : List Char) :
    startsWithUnc (bytesOf (trimEnd chars)) = startsWithUnc (bytesOf chars) := by
  rw [Bool.eq_iff_iff]
  apply test_bytesOf_trimEnd (fun bytes => startsWithUnc bytes = true) 4
  · intro left right same passed
    simpa only [startsWithUnc_iff, same 0 (by decide), same 1 (by decide), same 2 (by decide),
      same 3 (by decide)] using passed
  · intro bytes passed idx inside
    rcases (startsWithUnc_iff bytes).mp passed with ⟨first, second, third, slash⟩
    have letter {byte code : UInt8} (lower : toAsciiLowercase byte = code)
        (printable : IsGraphic code) : IsGraphic byte :=
      IsGraphic.of_toAsciiLowercase (lower ▸ printable)
    match idx, inside with
    | 0, _ => exact letter first ⟨by decide, by decide⟩
    | 1, _ => exact letter second ⟨by decide, by decide⟩
    | 2, _ => exact letter third ⟨by decide, by decide⟩
    | 3, _ => exact isGraphic_of_isSlash slash

/-- The bytes after one of the four-character prefixes. -/
theorem trimmedBytes_append (lead : List Char) (visible : ∀ c ∈ lead, isWhitespace c = false)
    (nonempty : lead ≠ []) (rest : String) :
    trimmedBytes (String.ofList lead ++ rest) =
      bytesOf lead ++ bytesOf (trimEnd rest.toList) := by
  have ends (lead : List Char) (visible : ∀ c ∈ lead, isWhitespace c = false) :
      trimEnd (lead ++ rest.toList) = lead ++ trimEnd rest.toList := by
    induction lead with
    | nil => rfl
    | cons c lead ih =>
        rw [List.cons_append, trimEnd_cons_of_not (visible c List.mem_cons_self),
          ih fun c inside => visible c (List.mem_cons_of_mem _ inside), List.cons_append]
  rw [trimmedBytes_eq, String.toList_append, String.toList_ofList, ← bytesOf_append]
  cases lead with
  | nil => exact absurd rfl nonempty
  | cons c lead =>
      rw [List.cons_append, trimChars_cons_of_not (visible c List.mem_cons_self),
        ends lead fun c inside => visible c (List.mem_cons_of_mem _ inside), List.cons_append]

/-- The three prefixes of device paths. -/
def questionPrefix : String := "\\\\?\\"

def dotPrefix : String := "\\\\.\\"

def ntPrefix : String := "\\??\\"

theorem isLexicalUnc_questionPrefix (rest : String) :
    isLexicalUnc (questionPrefix ++ rest) = !startsWithDrive (bytesOf rest.toList) := by
  have bytes := trimmedBytes_append ['\\', '\\', '?', '\\']
    (by simp [isWhitespace]) (by simp) rest
  have lead : bytesOf ['\\', '\\', '?', '\\'] = [92, 92, 63, 92] := rfl
  rw [lead] at bytes
  rw [isLexicalUnc_eq, ← startsWithDrive_trimEnd]
  refine (congrArg isLexicalUncBytes bytes).trans ?_
  rw [Bool.eq_iff_iff, isLexicalUncBytes_iff]
  simp [isLocalDevice, continuesNtUnc, isSlash]

theorem isLexicalUnc_dotPrefix (rest : String) :
    isLexicalUnc (dotPrefix ++ rest) = !startsWithDrive (bytesOf rest.toList) := by
  have bytes := trimmedBytes_append ['\\', '\\', '.', '\\']
    (by simp [isWhitespace]) (by simp) rest
  have lead : bytesOf ['\\', '\\', '.', '\\'] = [92, 92, 46, 92] := rfl
  rw [lead] at bytes
  rw [isLexicalUnc_eq, ← startsWithDrive_trimEnd]
  refine (congrArg isLexicalUncBytes bytes).trans ?_
  rw [Bool.eq_iff_iff, isLexicalUncBytes_iff]
  simp [isLocalDevice, continuesNtUnc, isSlash]

theorem isLexicalUnc_ntPrefix (rest : String) :
    isLexicalUnc (ntPrefix ++ rest) = startsWithUnc (bytesOf rest.toList) := by
  have bytes := trimmedBytes_append ['\\', '?', '?', '\\']
    (by simp [isWhitespace]) (by simp) rest
  have lead : bytesOf ['\\', '?', '?', '\\'] = [92, 63, 63, 92] := rfl
  rw [lead] at bytes
  rw [isLexicalUnc_eq, ← startsWithUnc_trimEnd]
  refine (congrArg isLexicalUncBytes bytes).trans ?_
  rw [Bool.eq_iff_iff, isLexicalUncBytes_iff]
  simp [isLocalDevice, continuesNtUnc, isSlash]

/-- Two spellings of a path get the same verdict unless it is `\\??\UNC\` with another
first separator; what follows the prefixes of device paths gets one verdict after all
three of them exactly when it starts with a drive or with `UNC\`. -/
theorem isLexicalUnc_spelling {path path' : String} (same : Respelled path path')
    (rest : String) :
    (isLexicalUnc path = isLexicalUnc path' ↔
      (spellsNtUnc (trimmedBytes path) = true →
        (trimmedBytes path).head? = (trimmedBytes path').head?)) ∧
    ((isLexicalUnc (questionPrefix ++ rest) = isLexicalUnc (dotPrefix ++ rest) ∧
        isLexicalUnc (dotPrefix ++ rest) = isLexicalUnc (ntPrefix ++ rest)) ↔
      (startsWithDrive (bytesOf rest.toList) = true ∨
        startsWithUnc (bytesOf rest.toList) = true)) := by
  constructor
  · have bytes := same.trimmedBytes
    rw [isLexicalUnc_eq, isLexicalUnc_eq, isLexicalUncBytes_eq_iff bytes]
    generalize trimmedBytes path = left at bytes ⊢
    generalize trimmedBytes path' = right at bytes ⊢
    cases bytes with
    | nil => simp
    | cons head tail => simp
  · rw [isLexicalUnc_questionPrefix, isLexicalUnc_dotPrefix, isLexicalUnc_ntPrefix]
    cases unc : startsWithUnc (bytesOf rest.toList) with
    | true => simp [startsWithDrive_eq_false unc]
    | false => simp

theorem isLexicalUnc_spelling_server :
    isLexicalUnc "\\\\server\\share" = isLexicalUnc "//server/share" := by
  have same : Respelled "\\\\server\\share" "//server/share" := by decide
  exact (isLexicalUnc_spelling same "").1.mpr (by decide)

/-- A share of a server is refused by one spelling of the prefix only, and a path that
starts with neither drive nor `UNC\` by two of the prefixes only. -/
theorem isLexicalUnc_depends_on_spelling :
    (¬∀ path path', Respelled path path' → isLexicalUnc path = isLexicalUnc path') ∧
      ¬∀ rest : String,
        isLexicalUnc (questionPrefix ++ rest) = isLexicalUnc (dotPrefix ++ rest) ∧
          isLexicalUnc (dotPrefix ++ rest) = isLexicalUnc (ntPrefix ++ rest) := by
  constructor
  · intro claim
    have same := claim "\\??\\UNC\\server\\share" "/??/UNC/server/share" (by decide)
    revert same
    decide
  · intro claim
    have same := (claim "GLOBALROOT\\Device").2
    revert same
    decide

end ScanTarget

end PigTree
