import Mathlib

/-!
# Reading bytes

Little-endian words, readers over a finite byte string, and what it means that a
reader decodes an encoding: it takes exactly the encoding from whatever follows,
and fails on every proper prefix of it. Decoding composes field by field; a
stream of decodable items can then be cut anywhere.
-/

namespace Foundation

/-! ### Words -/

/-- The bytes of a number, least significant first. -/
def leBytes : ℕ → ℕ → List UInt8
  | 0, _ => []
  | width + 1, value => UInt8.ofNat value :: leBytes width (value / 256)

/-- The number a byte string spells, least significant byte first. -/
def leValue : List UInt8 → ℕ
  | [] => 0
  | byte :: bytes => byte.toNat + 256 * leValue bytes

@[simp]
theorem length_leBytes (width value : ℕ) : (leBytes width value).length = width := by
  induction width generalizing value with
  | zero => rfl
  | succ width ih => simp [leBytes, ih]

theorem leValue_leBytes (width value : ℕ) : leValue (leBytes width value) = value % 256 ^ width := by
  induction width generalizing value with
  | zero => simp [leBytes, leValue, Nat.mod_one]
  | succ width ih =>
      have low : (UInt8.ofNat value).toNat = value % 256 := UInt8.toNat_ofNat'
      rw [leBytes, leValue, ih, low, Nat.pow_succ, Nat.mul_comm (256 ^ width), Nat.mod_mul]

theorem leValue_leBytes_of_lt {width value : ℕ} (small : value < 256 ^ width) :
    leValue (leBytes width value) = value := by
  rw [leValue_leBytes, Nat.mod_eq_of_lt small]

@[simp]
theorem ofNat_leValue_leBytes_u16 (word : UInt16) :
    UInt16.ofNat (leValue (leBytes 2 word.toNat)) = word := by
  rw [leValue_leBytes_of_lt word.toNat_lt, UInt16.ofNat_toNat]

@[simp]
theorem ofNat_leValue_leBytes_u32 (word : UInt32) :
    UInt32.ofNat (leValue (leBytes 4 word.toNat)) = word := by
  rw [leValue_leBytes_of_lt word.toNat_lt, UInt32.ofNat_toNat]

@[simp]
theorem ofNat_leValue_leBytes_u64 (word : UInt64) :
    UInt64.ofNat (leValue (leBytes 8 word.toNat)) = word := by
  rw [leValue_leBytes_of_lt word.toNat_lt, UInt64.ofNat_toNat]

@[simp]
theorem ofNat_leValue_leBytes_u128 (word : BitVec 128) :
    BitVec.ofNat 128 (leValue (leBytes 16 word.toNat)) = word := by
  rw [leValue_leBytes_of_lt word.isLt, BitVec.ofNat_toNat, BitVec.setWidth_eq]

theorem leValue_lt (bytes : List UInt8) : leValue bytes < 256 ^ bytes.length := by
  induction bytes with
  | nil => simp [leValue]
  | cons byte bytes ih =>
      have low := byte.toNat_lt
      rw [leValue, List.length_cons, Nat.pow_succ]
      omega

/-- A part of a byte string. -/
def slice (bytes : List UInt8) (start count : ℕ) : List UInt8 :=
  (bytes.drop start).take count

theorem length_slice {bytes : List UInt8} {start count : ℕ} (inside : start + count ≤ bytes.length) :
    (slice bytes start count).length = count := by
  rw [slice, List.length_take, List.length_drop]
  omega

/-- A slice behind the front does not see the front. -/
theorem slice_append_of_le {front : List UInt8} (rest : List UInt8) {start : ℕ} (count : ℕ)
    (behind : front.length ≤ start) :
    slice (front ++ rest) start count = slice rest (start - front.length) count := by
  rw [slice, slice, List.drop_append, List.drop_eq_nil_of_le behind, List.nil_append]

theorem slice_front {front : List UInt8} (rest : List UInt8) {count : ℕ}
    (len : front.length = count) : slice (front ++ rest) 0 count = front := by
  rw [slice, List.drop_zero, ← len, List.take_left]

theorem slice_take {bytes : List UInt8} {start count bound : ℕ} (inside : start + count ≤ bound) :
    slice (bytes.take bound) start count = slice bytes start count := by
  rw [slice, slice, List.drop_take, List.take_take, Nat.min_eq_left (by omega)]

/-! ### Readers -/

/-- A computation that consumes bytes from the front and may fail. -/
abbrev ByteReader (ε α : Type) : Type := StateT (List UInt8) (Except ε) α

namespace ByteReader

variable {ε α β : Type} {eof : ε}

/-- Take exactly `count` bytes, or fail at the end of the input. -/
def readExact (eof : ε) (count : ℕ) : ByteReader ε (List UInt8) := fun bytes =>
  if count ≤ bytes.length then .ok (bytes.take count, bytes.drop count) else .error eof

/-- Take at most one byte. -/
def readByte : ByteReader ε (Option UInt8) := fun bytes =>
  match bytes with
  | [] => .ok (none, [])
  | byte :: rest => .ok (some byte, rest)

/-- Fail whatever the input. -/
def fail (err : ε) : ByteReader ε α := fun _ => .error err

/-- Read nothing and answer, or fail. -/
def lift : Except ε α → ByteReader ε α
  | .ok value => pure value
  | .error err => fail err

theorem bind_apply (reader : ByteReader ε α) (next : α → ByteReader ε β) (bytes : List UInt8) :
    (reader >>= next) bytes = (reader bytes).bind (fun result => next result.1 result.2) := rfl

@[simp]
theorem pure_apply (value : α) (bytes : List UInt8) :
    (pure value : ByteReader ε α) bytes = .ok (value, bytes) := rfl

@[simp]
theorem readByte_cons (byte : UInt8) (rest : List UInt8) :
    (readByte : ByteReader ε (Option UInt8)) (byte :: rest) = .ok (some byte, rest) := rfl

theorem readExact_append {front : List UInt8} {count : ℕ} (len : front.length = count)
    (rest : List UInt8) : readExact eof count (front ++ rest) = .ok (front, rest) := by
  subst len
  simp [readExact]

theorem readExact_short {bytes : List UInt8} {count : ℕ} (short : bytes.length < count) :
    readExact eof count bytes = .error eof :=
  if_neg (Nat.not_le_of_lt short)

theorem readExact_of_le {bytes : List UInt8} {count : ℕ} (enough : count ≤ bytes.length) :
    readExact eof count bytes = .ok (bytes.take count, bytes.drop count) :=
  if_pos enough

/-! ### Decoding -/

/-- The reader takes `bytes` for `value` whatever follows, and runs into the end of
the input on every proper prefix. -/
structure Decodes (eof : ε) (reader : ByteReader ε α) (bytes : List UInt8) (value : α) : Prop where
  complete : ∀ rest, reader (bytes ++ rest) = .ok (value, rest)
  truncated : ∀ count < bytes.length, reader (bytes.take count) = .error eof

namespace Decodes

variable {reader : ByteReader ε α} {bytes more : List UInt8} {value : α} {result : β}

theorem pure (value : α) : Decodes eof (Pure.pure value) [] value where
  complete := fun _ => rfl
  truncated := by simp

theorem readExact {count : ℕ} (len : bytes.length = count) :
    Decodes eof (ByteReader.readExact eof count) bytes bytes where
  complete := readExact_append len
  truncated := by
    intro cut short
    apply readExact_short
    rw [List.length_take]
    omega

/-- Encodings of consecutive fields are decoded one after the other. -/
theorem bind {next : α → ByteReader ε β} (first : Decodes eof reader bytes value)
    (second : Decodes eof (next value) more result) :
    Decodes eof (reader >>= next) (bytes ++ more) result where
  complete := by
    intro rest
    rw [bind_apply, List.append_assoc, first.complete]
    exact second.complete rest
  truncated := by
    intro cut short
    rw [List.length_append] at short
    rw [bind_apply]
    by_cases early : cut < bytes.length
    · rw [List.take_append_of_le_length (Nat.le_of_lt early), first.truncated cut early]
      rfl
    · rw [List.take_append, List.take_of_length_le (by omega), first.complete]
      exact second.truncated (cut - bytes.length) (by omega)

/-- A field followed by a computation that reads nothing. -/
theorem bind_pure {next : α → ByteReader ε β} (first : Decodes eof reader bytes value)
    (second : next value = Pure.pure result) : Decodes eof (reader >>= next) bytes result := by
  have rest : Decodes eof (next value) [] result := second ▸ Decodes.pure result
  have both := first.bind rest
  rwa [List.append_nil] at both

end Decodes

/-! ### Streams of items -/

/-- Reading again and again yields these items, then nothing more or a failure. -/
inductive Yields (reader : ByteReader ε (Option α)) : List UInt8 → List α → Option ε → Prop
  | done {bytes rest : List UInt8} (ended : reader bytes = .ok (none, rest)) :
      Yields reader bytes [] none
  | failed {bytes : List UInt8} {err : ε} (fails : reader bytes = .error err) :
      Yields reader bytes [] (some err)
  | next {bytes rest : List UInt8} {item : α} {items : List α} {ending : Option ε}
      (read : reader bytes = .ok (some item, rest)) (more : Yields reader rest items ending) :
      Yields reader bytes (item :: items) ending

/-- What repeated reading yields is determined by the input. -/
theorem Yields.unique {reader : ByteReader ε (Option α)} {bytes : List UInt8}
    {items others : List α} {ending other : Option ε} (left : Yields reader bytes items ending)
    (right : Yields reader bytes others other) : items = others ∧ ending = other := by
  induction left generalizing others with
  | done ended =>
      cases right with
      | done again => exact ⟨rfl, rfl⟩
      | failed fails => rw [ended] at fails; cases fails
      | next read more => rw [ended] at read; cases read
  | failed fails =>
      cases right with
      | done ended => rw [fails] at ended; cases ended
      | failed again =>
          rw [fails, Except.error.injEq] at again
          exact ⟨rfl, congrArg some again⟩
      | next read more => rw [fails] at read; cases read
  | next read more ih =>
      cases right with
      | done ended => rw [read] at ended; cases ended
      | failed fails => rw [read] at fails; cases fails
      | next again others =>
          rw [read, Except.ok.injEq, Prod.mk.injEq, Option.some.injEq] at again
          rcases again with ⟨rfl, rfl⟩
          rcases ih others with ⟨rfl, rfl⟩
          exact ⟨rfl, rfl⟩

/-- An encoding of one item: it is not empty, and a reader that has seen its first
byte takes it for the item or runs into the end of the input. -/
structure EncodesItem (eof : ε) (reader : ByteReader ε (Option α)) (bytes : List UInt8)
    (item : α) : Prop where
  nonempty : bytes ≠ []
  complete : ∀ rest, reader (bytes ++ rest) = .ok (some item, rest)
  truncated : ∀ count, 0 < count → count < bytes.length →
    reader (bytes.take count) = .error eof

/-- An item announced by its first byte. -/
theorem EncodesItem.ofTag {reader : ByteReader ε (Option α)} {body : ByteReader ε (Option α)}
    {tag : UInt8} {bytes : List UInt8} {item : α}
    (starts : ∀ rest, reader (tag :: rest) = body rest)
    (decodes : Decodes eof body bytes (some item)) :
    EncodesItem eof reader (tag :: bytes) item where
  nonempty := List.cons_ne_nil _ _
  complete := by
    intro rest
    rw [List.cons_append, starts]
    exact decodes.complete rest
  truncated := by
    intro count positive short
    cases count with
    | zero => exact absurd positive (Nat.lt_irrefl 0)
    | succ count =>
        rw [List.take_succ_cons, starts]
        exact decodes.truncated count (Nat.lt_of_succ_lt_succ short)

variable {reader : ByteReader ε (Option α)} {encode : α → List UInt8}

/-- Encoded items in front are yielded first. -/
theorem Yields.append {items more : List α} {bytes : List UInt8} {ending : Option ε}
    (encoded : ∀ item ∈ items, EncodesItem eof reader (encode item) item)
    (rest : Yields reader bytes more ending) :
    Yields reader (items.flatMap encode ++ bytes) (items ++ more) ending := by
  induction items with
  | nil => exact rest
  | cons item items ih =>
      rw [List.flatMap_cons, List.append_assoc]
      apply Yields.next ((encoded item List.mem_cons_self).complete _)
      exact ih (fun other otherMem => encoded other (List.mem_cons_of_mem _ otherMem))

/-- A stream of encoded items is read back in full. -/
theorem yields_flatMap {items : List α} (atEnd : reader [] = .ok (none, []))
    (encoded : ∀ item ∈ items, EncodesItem eof reader (encode item) item) :
    Yields reader (items.flatMap encode) items none := by
  have all := Yields.append encoded (Yields.done atEnd)
  rwa [List.append_nil, List.append_nil] at all

/-- A stream cut inside an item yields the items before it. -/
theorem yields_cut {before : List α} {item : α}
    (encoded : ∀ other ∈ before, EncodesItem eof reader (encode other) other)
    (last : EncodesItem eof reader (encode item) item) {count : ℕ} (positive : 0 < count)
    (short : count < (encode item).length) :
    Yields reader (before.flatMap encode ++ (encode item).take count) before (some eof) := by
  have all := Yields.append encoded (Yields.failed (last.truncated count positive short))
  rwa [List.append_nil] at all

/-- A prefix of a stream ends at the boundary of an item or inside one. -/
theorem take_flatMap_cases (encode : α → List UInt8) (items : List α) (count : ℕ)
    (short : count < (items.flatMap encode).length) :
    ∃ before item after, items = before ++ item :: after ∧ ∃ inside < (encode item).length,
      (items.flatMap encode).take count = before.flatMap encode ++ (encode item).take inside := by
  induction items generalizing count with
  | nil => simp at short
  | cons item items ih =>
      rw [List.flatMap_cons] at short ⊢
      rw [List.length_append] at short
      by_cases here : count < (encode item).length
      · refine ⟨[], item, items, rfl, count, here, ?_⟩
        rw [List.take_append_of_le_length (Nat.le_of_lt here)]
        rfl
      · rcases ih (count - (encode item).length) (by omega) with
          ⟨before, other, after, rfl, inside, bound, same⟩
        refine ⟨item :: before, other, after, rfl, inside, bound, ?_⟩
        rw [List.take_append, List.take_of_length_le (by omega), same, List.flatMap_cons,
          List.append_assoc]

/-! ### Consumption -/

/-- Whenever the reader succeeds, its result and the number of bytes it took are related. -/
def Takes (reader : ByteReader ε α) (spent : α → ℕ → Prop) : Prop :=
  ∀ bytes value rest, reader bytes = .ok (value, rest) →
    ∃ count, bytes.length = count + rest.length ∧ spent value count

namespace Takes

variable {reader : ByteReader ε α} {spent : α → ℕ → Prop}

theorem pure {value : α} (nothing : spent value 0) : Takes (Pure.pure value : ByteReader ε α) spent := by
  intro bytes result rest read
  cases read
  exact ⟨0, (Nat.zero_add _).symm, nothing⟩

theorem fail (err : ε) : Takes (ByteReader.fail err) spent := by
  intro bytes value rest read
  cases read

theorem lift {answer : Except ε α} (nothing : ∀ value, answer = .ok value → spent value 0) :
    Takes (ByteReader.lift answer) spent := by
  cases answer with
  | error err => exact fail err
  | ok value => exact pure (nothing value rfl)

theorem readExact {count : ℕ} {spent : List UInt8 → ℕ → Prop}
    (exactly : ∀ bytes : List UInt8, bytes.length = count → spent bytes count) :
    Takes (ByteReader.readExact eof count) spent := by
  intro bytes value rest read
  unfold ByteReader.readExact at read
  split at read
  · next enough =>
      cases read
      refine ⟨count, ?_, exactly _ (List.length_take_of_le enough)⟩
      rw [List.length_drop]
      omega
  · cases read

/-- The bytes of two readers in sequence add up. -/
theorem bind {next : α → ByteReader ε β} {all : β → ℕ → Prop} (first : Takes reader spent)
    (second : ∀ value count, spent value count →
      Takes (next value) (fun result more => all result (count + more))) :
    Takes (reader >>= next) all := by
  intro bytes result rest read
  rw [bind_apply] at read
  cases opened : reader bytes with
  | error err =>
      rw [opened] at read
      cases read
  | ok middle =>
      rw [opened] at read
      rcases first bytes middle.1 middle.2 opened with ⟨count, length, taken⟩
      rcases second middle.1 count taken middle.2 result rest read with ⟨more, left, total⟩
      exact ⟨count + more, by omega, total⟩

end Takes

/-- What is read to the end has the length of its items. -/
theorem Yields.length_eq {reader : ByteReader ε (Option α)} {size : α → ℕ}
    (takes : ∀ bytes item rest, reader bytes = .ok (some item, rest) →
      bytes.length = size item + rest.length)
    (atEnd : ∀ bytes rest, reader bytes = .ok (none, rest) → bytes = []) {bytes : List UInt8}
    {items : List α} (yields : Yields reader bytes items none) :
    bytes.length = (items.map size).sum := by
  generalize ending : (none : Option ε) = last at yields
  induction yields with
  | done ended =>
      rw [atEnd _ _ ended]
      rfl
  | failed fails => cases ending
  | next read more ih =>
      rw [takes _ _ _ read, ih ending, List.map_cons, List.sum_cons]

end ByteReader

end Foundation
