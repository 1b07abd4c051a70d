import Mathlib.Data.List.DropRight

/-!
# Trimmed text and its bytes

Trimming removes the characters with the Unicode property `White_Space` from both ends
of a text. The UTF-8 bytes below 128 stand for the characters of the same code, so a
test on the first bytes of a text is one on its first characters.
-/

namespace Foundation.Text

def isWhitespace (c : Char) : Bool :=
  (9 ≤ c.toNat && c.toNat ≤ 13) || c.toNat = 32 || c.toNat = 0x85 || c.toNat = 0xA0 ||
    c.toNat = 0x1680 || (0x2000 ≤ c.toNat && c.toNat ≤ 0x200A) || c.toNat = 0x2028 ||
    c.toNat = 0x2029 || c.toNat = 0x202F || c.toNat = 0x205F || c.toNat = 0x3000

def trimStart (chars : List Char) : List Char := chars.dropWhile isWhitespace

def trimEnd (chars : List Char) : List Char := chars.rdropWhile isWhitespace

def trimChars (chars : List Char) : List Char := trimEnd (trimStart chars)

def trim (text : String) : String := String.ofList (trimChars text.toList)

@[simp]
theorem trimEnd_cons_of_not {c : Char} (visible : isWhitespace c = false)
    (chars : List Char) : trimEnd (c :: chars) = c :: trimEnd chars := by
  induction chars using List.reverseRecOn with
  | nil => simp [trimEnd, List.rdropWhile_singleton, visible]
  | append_singleton chars last ih =>
      have moved : c :: (chars ++ [last]) = (c :: chars) ++ [last] := rfl
      unfold trimEnd at ih ⊢
      rw [moved, List.rdropWhile_concat, List.rdropWhile_concat, ih]
      split_ifs <;> rfl

theorem trimChars_cons_of_not {c : Char} (visible : isWhitespace c = false)
    (chars : List Char) : trimChars (c :: chars) = c :: trimEnd chars := by
  simp [trimChars, trimStart, visible]

/-- What trimming leaves starts with a visible character. -/
theorem trimStart_trimChars (chars : List Char) :
    trimStart (trimChars chars) = trimChars chars := by
  simp only [trimChars]
  induction chars with
  | nil => rfl
  | cons c chars ih =>
      by_cases blank : isWhitespace c
      · simpa [trimStart, blank] using ih
      · have visible : isWhitespace c = false := by simpa using blank
        simp [trimStart, visible]

theorem trimChars_trimChars (chars : List Char) :
    trimChars (trimChars chars) = trimChars chars := by
  rw [trimChars, trimStart_trimChars]
  exact List.rdropWhile_idempotent _ _

@[simp]
theorem trim_trim (text : String) : trim (trim text) = trim text := by
  simp [trim, trimChars_trimChars]

/-! ### Bytes -/

def bytesOf (chars : List Char) : List UInt8 := chars.flatMap String.utf8EncodeChar

theorem bytesOf_cons (c : Char) (chars : List Char) :
    bytesOf (c :: chars) = String.utf8EncodeChar c ++ bytesOf chars := by
  simp [bytesOf]

theorem bytesOf_append (left right : List Char) :
    bytesOf (left ++ right) = bytesOf left ++ bytesOf right := by
  simp [bytesOf]

theorem toList_toUTF8_ofList (chars : List Char) :
    (String.ofList chars).toUTF8.data.toList = bytesOf chars := by
  rw [String.toUTF8_eq_toByteArray, String.toByteArray_ofList]
  simp [List.utf8Encode, bytesOf]

theorem utf8EncodeChar_of_lt {c : Char} (ascii : c.toNat < 128) :
    String.utf8EncodeChar c = [UInt8.ofNat c.toNat] := by
  exact if_pos (Nat.le_of_lt_succ ascii)

theorem utf8EncodeChar_eq_cons {c : Char} {byte : UInt8} {rest : List UInt8}
    (encoded : String.utf8EncodeChar c = byte :: rest) (ascii : byte < 128) :
    c = Char.ofNat byte.toNat ∧ rest = [] := by
  have code : byte.toNat < 128 := ascii
  by_cases small : c.toNat < 128
  · rw [utf8EncodeChar_of_lt small] at encoded
    rcases List.cons.inj encoded with ⟨rfl, rfl⟩
    refine ⟨?_, rfl⟩
    rw [UInt8.toNat_ofNat_of_lt' (by simp only [UInt8.size]; omega), Char.ofNat_toNat]
  · -- The first byte of a longer encoding has its top bit set.
    exfalso
    have large : ¬c.val.toNat ≤ 127 := fun h => small (Nat.lt_succ_of_le h)
    have bound : c.val.toNat < 0x110000 := by
      rcases c.valid with low | high
      · exact lt_trans low (by decide)
      · exact high.2
    simp only [String.utf8EncodeChar, large, if_false] at encoded
    split_ifs at encoded <;>
    · have first := congrArg UInt8.toNat (List.cons.inj encoded).1
      simp only [UInt8.toNat_ofNat'] at first
      omega

/-- A byte below 128 at the start is a whole character. -/
theorem bytesOf_eq_cons {chars : List Char} {byte : UInt8} {rest : List UInt8}
    (start : bytesOf chars = byte :: rest) (ascii : byte < 128) :
    ∃ tail, chars = Char.ofNat byte.toNat :: tail ∧ bytesOf tail = rest ∧
      String.utf8EncodeChar (Char.ofNat byte.toNat) = [byte] := by
  cases chars with
  | nil => cases start
  | cons c tail =>
      rw [bytesOf_cons] at start
      cases encoded : String.utf8EncodeChar c with
      | nil => exact absurd encoded String.utf8EncodeChar_ne_nil
      | cons first others =>
          rw [encoded] at start
          rcases List.cons.inj start with ⟨rfl, remaining⟩
          rcases utf8EncodeChar_eq_cons encoded ascii with ⟨rfl, rfl⟩
          exact ⟨tail, rfl, remaining, encoded⟩

/-! ### UTF-16 -/

def replacementChar : Char := Char.ofNat 0xFFFD

def isHighSurrogate (unit : UInt16) : Bool := 0xD800 ≤ unit && unit < 0xDC00

def isLowSurrogate (unit : UInt16) : Bool := 0xDC00 ≤ unit && unit < 0xE000

/-- The character of a pair of surrogates. -/
def surrogatePair (high low : UInt16) : Char :=
  Char.ofNat (0x10000 + (high.toNat - 0xD800) * 0x400 + (low.toNat - 0xDC00))

/-- Decode UTF-16; an unpaired surrogate becomes a replacement character. -/
def decodeUtf16Lossy : List UInt16 → List Char
  | [] => []
  | [unit] =>
      if isHighSurrogate unit || isLowSurrogate unit then [replacementChar]
      else [Char.ofNat unit.toNat]
  | unit :: next :: rest =>
      if isHighSurrogate unit && isLowSurrogate next then
        surrogatePair unit next :: decodeUtf16Lossy rest
      else if isHighSurrogate unit || isLowSurrogate unit then
        replacementChar :: decodeUtf16Lossy (next :: rest)
      else Char.ofNat unit.toNat :: decodeUtf16Lossy (next :: rest)

def fromUtf16Lossy (units : List UInt16) : String := String.ofList (decodeUtf16Lossy units)

end Foundation.Text
