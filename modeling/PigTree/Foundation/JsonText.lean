import Mathlib.Data.List.Forall2
import Mathlib.Data.List.TakeDrop
import Mathlib.Data.Rat.Defs

/-!
# Reading JSON texts

A reader for the JSON grammar of RFC 8259. Numbers are read exactly, strings as sequences
of characters with their escapes resolved, and objects as their members in order of
appearance, whether or not their keys differ.
-/

namespace Foundation

/-- The value a JSON text stands for. -/
inductive JsonValue where
  | null
  | bool (value : Bool)
  | number (value : ℚ)
  | string (text : String)
  | array (items : List JsonValue)
  | object (members : List (String × JsonValue))

/-- No object in a value has two members with one key. -/
inductive JsonValue.Distinct : JsonValue → Prop where
  | null : Distinct .null
  | bool (value : Bool) : Distinct (.bool value)
  | number (value : ℚ) : Distinct (.number value)
  | string (text : String) : Distinct (.string text)
  | array {items : List JsonValue} (each : ∀ item ∈ items, Distinct item) :
      Distinct (.array items)
  | object {members : List (String × JsonValue)} (keys : (members.map Prod.fst).Nodup)
      (each : ∀ member ∈ members, Distinct member.2) : Distinct (.object members)

/-- The value of the first member with a key. -/
def JsonValue.field? (key : String) : JsonValue → Option JsonValue
  | .object members => members.lookup key
  | _ => none

namespace JsonText

def isBlank (c : Char) : Bool := c = ' ' || c = '\t' || c = '\n' || c = '\r'

def skipBlanks (text : List Char) : List Char := text.dropWhile isBlank

/-- The rest of a text after an expected word. -/
def expect (word text : List Char) : Option (List Char) :=
  if word <+: text then some (text.drop word.length) else none

/-! ### Strings -/

/-- A character of a string, or a UTF-16 code unit written by number. -/
inductive StringItem where
  | char (c : Char)
  | codeUnit (value : ℕ)

def hexValue (c : Char) : Option ℕ :=
  if '0' ≤ c ∧ c ≤ '9' then some (c.toNat - 48)
  else if 'a' ≤ c ∧ c ≤ 'f' then some (c.toNat - 87)
  else if 'A' ≤ c ∧ c ≤ 'F' then some (c.toNat - 55)
  else none

def hexNumber (digits : List Char) : Option ℕ :=
  digits.foldlM (fun number c => (hexValue c).map (fun digit => number * 16 + digit)) 0

/-- The character an escape of two characters stands for. -/
def shortEscape (c : Char) : Option Char :=
  if c = '"' ∨ c = '\\' ∨ c = '/' then some c
  else if c = 'b' then some (Char.ofNat 8)
  else if c = 'f' then some (Char.ofNat 12)
  else if c = 'n' then some '\n'
  else if c = 'r' then some '\r'
  else if c = 't' then some '\t'
  else none

/-- The items of a string up to its closing quote, and what follows. -/
def stringItems : List Char → Option (List StringItem × List Char)
  | [] => none
  | '\\' :: 'u' :: a :: b :: c :: d :: rest =>
      match hexNumber [a, b, c, d], stringItems rest with
      | some unit, some (items, rest) => some (.codeUnit unit :: items, rest)
      | _, _ => none
  | '\\' :: c :: rest =>
      match shortEscape c, stringItems rest with
      | some escaped, some (items, rest) => some (.char escaped :: items, rest)
      | _, _ => none
  | c :: rest =>
      if c = '"' then some ([], rest)
      else if c = '\\' ∨ c.toNat < 0x20 then none
      else
        match stringItems rest with
        | some (items, rest) => some (.char c :: items, rest)
        | none => none

/-- The characters of a string; a code unit of a surrogate pair needs its partner. -/
def characters : List StringItem → Option (List Char)
  | [] => some []
  | .char c :: items => (characters items).map (fun others => c :: others)
  | .codeUnit high :: .codeUnit low :: items =>
      if 0xD800 ≤ high ∧ high < 0xDC00 then
        if 0xDC00 ≤ low ∧ low < 0xE000 then
          (characters items).map
            (fun others => Char.ofNat (0x10000 + (high - 0xD800) * 0x400 + (low - 0xDC00)) :: others)
        else none
      else if 0xDC00 ≤ high ∧ high < 0xE000 then none
      else (characters (.codeUnit low :: items)).map (fun others => Char.ofNat high :: others)
  | .codeUnit unit :: items =>
      if 0xD800 ≤ unit ∧ unit < 0xE000 then none
      else (characters items).map (fun others => Char.ofNat unit :: others)

/-- A string after its opening quote. -/
def quoted (text : List Char) : Option (String × List Char) :=
  match stringItems text with
  | none => none
  | some (items, rest) => (characters items).map (fun read => (String.ofList read, rest))

/-! ### Numbers -/

def integerPart (text : List Char) : Option (ℕ × List Char) :=
  match text.span Char.isDigit with
  | ([], _) => none
  | (first :: others, rest) =>
      if first = '0' ∧ others ≠ [] then none
      else some (Nat.ofDigitChars 10 (first :: others) 0, rest)

def fractionPart (text : List Char) : Option (ℚ × List Char) :=
  match text with
  | '.' :: text =>
      match text.span Char.isDigit with
      | ([], _) => none
      | (digits, rest) => some ((Nat.ofDigitChars 10 digits 0 : ℚ) / 10 ^ digits.length, rest)
  | text => some (0, text)

def exponentDigits (text : List Char) : Option (ℕ × List Char) :=
  match text.span Char.isDigit with
  | ([], _) => none
  | (digits, rest) => some (Nat.ofDigitChars 10 digits 0, rest)

/-- The power of ten a number is multiplied by. -/
def exponentPart (text : List Char) : Option (ℚ × List Char) :=
  match text with
  | [] => some (1, [])
  | c :: rest =>
      if c = 'e' ∨ c = 'E' then
        match rest with
        | '+' :: rest => (exponentDigits rest).map (fun read => ((10 : ℚ) ^ read.1, read.2))
        | '-' :: rest => (exponentDigits rest).map (fun read => (1 / (10 : ℚ) ^ read.1, read.2))
        | rest => (exponentDigits rest).map (fun read => ((10 : ℚ) ^ read.1, read.2))
      else some (1, c :: rest)

def unsignedNumber (text : List Char) : Option (ℚ × List Char) := do
  let (whole, text) ← integerPart text
  let (fraction, text) ← fractionPart text
  let (power, text) ← exponentPart text
  return ((whole + fraction) * power, text)

def number (text : List Char) : Option (ℚ × List Char) :=
  match text with
  | '-' :: text => (unsignedNumber text).map (fun read => (-read.1, read.2))
  | text => unsignedNumber text

/-! ### Values -/

mutual

/-- A value, after any blanks, and what follows it. The first argument bounds the number of
nested calls. -/
def value : ℕ → List Char → Option (JsonValue × List Char)
  | 0, _ => none
  | fuel + 1, text =>
      match skipBlanks text with
      | [] => none
      | c :: rest =>
          if c = '"' then (quoted rest).map (fun read => (.string read.1, read.2))
          else if c = '[' then
            match skipBlanks rest with
            | ']' :: rest => some (.array [], rest)
            | rest => (elements fuel rest).map (fun read => (.array read.1, read.2))
          else if c = '\x7b' then
            match skipBlanks rest with
            | '\x7d' :: rest => some (.object [], rest)
            | rest => (members fuel rest).map (fun read => (.object read.1, read.2))
          else if c = 't' then (expect "rue".toList rest).map (fun rest => (.bool true, rest))
          else if c = 'f' then (expect "alse".toList rest).map (fun rest => (.bool false, rest))
          else if c = 'n' then (expect "ull".toList rest).map (fun rest => (.null, rest))
          else (number (c :: rest)).map (fun read => (.number read.1, read.2))

/-- The elements of an array up to its closing bracket. -/
def elements : ℕ → List Char → Option (List JsonValue × List Char)
  | 0, _ => none
  | fuel + 1, text => do
      let (first, text) ← value fuel text
      match skipBlanks text with
      | ',' :: text =>
          let (others, text) ← elements fuel text
          return (first :: others, text)
      | ']' :: text => return ([first], text)
      | _ => none

/-- The members of an object up to its closing brace. -/
def members : ℕ → List Char → Option (List (String × JsonValue) × List Char)
  | 0, _ => none
  | fuel + 1, text => do
      match skipBlanks text with
      | '"' :: text =>
          let (key, text) ← quoted text
          match skipBlanks text with
          | ':' :: text =>
              let (first, text) ← value fuel text
              match skipBlanks text with
              | ',' :: text =>
                  let (others, text) ← members fuel text
                  return ((key, first) :: others, text)
              | '\x7d' :: text => return ([(key, first)], text)
              | _ => none
          | _ => none
      | _ => none

end

/-- The value of a whole text. -/
def parse (text : String) : Option JsonValue := do
  let (read, rest) ← value (2 * text.toList.length) text.toList
  if skipBlanks rest = [] then return read else none

/-! ### Texts and their values -/

theorem skipBlanks_cons {c : Char} {rest : List Char} (visible : isBlank c = false) :
    skipBlanks (c :: rest) = c :: rest := by
  rw [skipBlanks, List.dropWhile_cons_of_neg (by simp [visible])]

/-- What may follow a value: the end, a comma or a closing bracket or brace. -/
def Stops (rest : List Char) : Prop := ∀ c ∈ rest.head?, c = ',' ∨ c = ']' ∨ c = '\x7d'

theorem stops_nil : Stops [] := by
  intro c none
  cases none

theorem stops_comma (rest : List Char) : Stops (',' :: rest) := by
  intro c first
  cases first
  exact Or.inl rfl

theorem stops_bracket (rest : List Char) : Stops (']' :: rest) := by
  intro c first
  cases first
  exact Or.inr (Or.inl rfl)

theorem stops_brace (rest : List Char) : Stops ('\x7d' :: rest) := by
  intro c first
  cases first
  exact Or.inr (Or.inr rfl)

/-- A text the reader takes for a value, whatever follows. -/
structure IsText (text : List Char) (read : JsonValue) : Prop where
  starts : ∃ first others, text = first :: others ∧ isBlank first = false ∧ first ≠ ']'
  reads : ∀ fuel rest, 2 * text.length ≤ fuel → Stops rest →
    value fuel (text ++ rest) = some (read, rest)

theorem IsText.parse_eq {text : String} {read : JsonValue} (isText : IsText text.toList read) :
    parse text = some read := by
  have whole := isText.reads _ [] (Nat.le_refl _) stops_nil
  rw [List.append_nil] at whole
  rw [parse, whole]
  rfl

/-! #### Strings -/

/-- A spelling of a character inside a string. -/
def Spells (text : List Char) (c : Char) : Prop :=
  ∃ item, (∀ rest, stringItems (text ++ rest) =
      (stringItems rest).map (fun read => (item :: read.1, read.2))) ∧
    ∀ items, characters (item :: items) = (characters items).map (fun others => c :: others)

theorem spells_plain {c : Char} (notQuote : c ≠ '"') (notBackslash : c ≠ '\\')
    (visible : ¬c.toNat < 0x20) : Spells [c] c := by
  refine ⟨.char c, ?_, fun items => rfl⟩
  intro rest
  rw [List.singleton_append, stringItems]
  · simp only [notQuote, notBackslash, visible, if_false, or_self]
    cases stringItems rest <;> rfl
  · intro a b c d rest' same
    exact absurd same notBackslash
  · intro e rest' same
    exact absurd same notBackslash

theorem spells_short {e c : Char} (escape : shortEscape e = some c) (short : e ≠ 'u') :
    Spells ['\\', e] c := by
  refine ⟨.char c, ?_, fun items => rfl⟩
  intro rest
  simp only [List.cons_append, List.nil_append]
  rw [stringItems, escape]
  · cases stringItems rest <;> rfl
  · intro a b c d rest' same
    exact absurd same short

theorem spells_codeUnit {a b c d : Char} {unit : ℕ} (number : hexNumber [a, b, c, d] = some unit)
    (single : unit < 0xD800) : Spells ['\\', 'u', a, b, c, d] (Char.ofNat unit) := by
  refine ⟨.codeUnit unit, ?_, ?_⟩
  · intro rest
    simp only [List.cons_append, List.nil_append]
    rw [stringItems, number]
    cases stringItems rest <;> rfl
  · intro items
    have low : ¬(0xD800 ≤ unit) := Nat.not_le_of_gt single
    have small : ¬(0xDC00 ≤ unit) := by omega
    cases items with
    | nil => simp [characters, low]
    | cons item items =>
        cases item with
        | char c => simp [characters, low]
        | codeUnit next => simp [characters, low, small]

/-- The text between the quotes of a string. -/
def IsQuoted (text : List Char) (read : String) : Prop :=
  ∀ rest, quoted (text ++ '"' :: rest) = some (read, rest)

/-- A string spelled character by character is read back. -/
theorem isQuoted_spelled {spelling : Char → List Char} {read : String}
    (spells : ∀ c ∈ read.toList, Spells (spelling c) c) :
    IsQuoted (read.toList.flatMap spelling) read := by
  have items : ∀ (chars rest : List Char), (∀ c ∈ chars, Spells (spelling c) c) → ∃ items,
      stringItems (chars.flatMap spelling ++ '"' :: rest) = some (items, rest) ∧
        characters items = some chars := by
    intro chars rest spells
    induction chars with
    | nil => exact ⟨[], by simp [stringItems], rfl⟩
    | cons c chars ih =>
        rcases ih (fun d mem => spells d (List.mem_cons_of_mem _ mem)) with ⟨items, spelled, read⟩
        rcases spells c List.mem_cons_self with ⟨item, step, meaning⟩
        refine ⟨item :: items, ?_, ?_⟩
        · rw [List.flatMap_cons, List.append_assoc, step, spelled]
          rfl
        · rw [meaning, read]
          rfl
  intro rest
  rcases items read.toList rest spells with ⟨items, spelled, meaning⟩
  rw [quoted, spelled]
  simp only [meaning, Option.map_some, String.ofList_toList]

theorem isText_string {text : List Char} {read : String} (quotes : IsQuoted text read) :
    IsText ('"' :: (text ++ ['"'])) (.string read) where
  starts := ⟨_, _, rfl, rfl, by decide⟩
  reads := by
    intro fuel rest enough _
    cases fuel with
    | zero => simp at enough
    | succ fuel =>
        rw [List.cons_append, List.append_assoc, value, skipBlanks_cons rfl]
        simp only [if_true, List.singleton_append]
        rw [quotes rest]
        rfl

/-! #### Words and numbers -/

theorem isText_true : IsText "true".toList (.bool true) where
  starts := ⟨_, _, rfl, rfl, by decide⟩
  reads := by
    intro fuel rest enough _
    cases fuel with
    | zero => simp at enough
    | succ fuel => simp [value, skipBlanks, isBlank, expect]

theorem isText_false : IsText "false".toList (.bool false) where
  starts := ⟨_, _, rfl, rfl, by decide⟩
  reads := by
    intro fuel rest enough _
    cases fuel with
    | zero => simp at enough
    | succ fuel => simp [value, skipBlanks, isBlank, expect]

theorem isText_bool (b : Bool) : IsText (toString b).toList (.bool b) := by
  cases b with
  | false => exact isText_false
  | true => exact isText_true

theorem isText_null : IsText "null".toList .null where
  starts := ⟨_, _, rfl, rfl, by decide⟩
  reads := by
    intro fuel rest enough _
    cases fuel with
    | zero => simp at enough
    | succ fuel => simp [value, skipBlanks, isBlank, expect]

theorem span_digits {digits rest : List Char} (each : ∀ c ∈ digits, c.isDigit = true)
    (stops : Stops rest) : (digits ++ rest).span Char.isDigit = (digits, rest) := by
  have stop : rest.takeWhile Char.isDigit = [] ∧ rest.dropWhile Char.isDigit = rest := by
    cases rest with
    | nil => exact ⟨rfl, rfl⟩
    | cons c rest =>
        have notDigit : c.isDigit = false := by
          rcases stops c rfl with rfl | rfl | rfl <;> rfl
        rw [List.takeWhile_cons_of_neg (by simp [notDigit]),
          List.dropWhile_cons_of_neg (by simp [notDigit])]
        exact ⟨rfl, rfl⟩
  rw [List.span_eq_takeWhile_dropWhile, List.takeWhile_append_of_pos each,
    List.dropWhile_append_of_pos each, stop.1, stop.2, List.append_nil]

/-- The decimal digits of a number start with a zero only if it is zero. -/
theorem toDigits_cases (n : ℕ) : ∃ first others, Nat.toDigits 10 n = first :: others ∧
    ¬(first = '0' ∧ others ≠ []) := by
  induction n using Nat.strong_induction_on with
  | _ n ih =>
      by_cases small : n < 10
      · exact ⟨_, [], Nat.toDigits_of_lt_base small, fun both => both.2 rfl⟩
      · have large := Nat.le_of_not_lt small
        rcases ih (n / 10) (by omega) with ⟨first, others, above, plain⟩
        refine ⟨first, others ++ [(n % 10).digitChar], ?_, ?_⟩
        · rw [Nat.toDigits_of_base_le (by decide) large, above]
          rfl
        · rintro ⟨rfl, _⟩
          have zero : others = [] := by
            by_contra some
            exact plain ⟨rfl, some⟩
          rw [zero] at above
          have value := congrArg (fun digits => Nat.ofDigitChars 10 digits 0) above
          simp only [Nat.ofDigitChars_ten_toDigits] at value
          have none : Nat.ofDigitChars 10 ['0'] 0 = 0 := rfl
          omega

theorem integerPart_toDigits (n : ℕ) {rest : List Char} (stops : Stops rest) :
    integerPart (Nat.toDigits 10 n ++ rest) = some (n, rest) := by
  have each : ∀ c ∈ Nat.toDigits 10 n, c.isDigit = true :=
    fun c mem => Nat.isDigit_of_mem_toDigits (by decide) (by decide) mem
  rcases toDigits_cases n with ⟨first, others, digits, plain⟩
  rw [integerPart, span_digits each stops, digits]
  simp only [if_neg plain]
  rw [← digits, Nat.ofDigitChars_ten_toDigits]

theorem unsignedNumber_toDigits (n : ℕ) {rest : List Char} (stops : Stops rest) :
    unsignedNumber (Nat.toDigits 10 n ++ rest) = some ((n : ℚ), rest) := by
  have fraction : fractionPart rest = some (0, rest) := by
    cases rest with
    | nil => rfl
    | cons c rest => rcases stops c rfl with rfl | rfl | rfl <;> rfl
  have exponent : exponentPart rest = some (1, rest) := by
    cases rest with
    | nil => rfl
    | cons c rest => rcases stops c rfl with rfl | rfl | rfl <;> rfl
  rw [unsignedNumber, integerPart_toDigits n stops]
  simp only [Option.bind_eq_bind, Option.bind_some, fraction, exponent, add_zero, mul_one,
    Option.pure_def]

theorem isText_number (n : ℕ) : IsText (Nat.toDigits 10 n) (.number n) := by
  rcases toDigits_cases n with ⟨first, others, digits, _⟩
  have firstDigit : first.isDigit = true :=
    Nat.isDigit_of_mem_toDigits (b := 10) (by decide) (by decide) (digits ▸ List.mem_cons_self)
  have differs : ∀ c : Char, c.isDigit = false → first ≠ c := by
    rintro c plain rfl
    rw [firstDigit] at plain
    cases plain
  have visible : isBlank first = false := by
    simp [isBlank, differs ' ' rfl, differs '\t' rfl, differs '\n' rfl, differs '\r' rfl]
  constructor
  · exact ⟨first, others, digits, visible, differs ']' rfl⟩
  · intro fuel rest enough stops
    cases fuel with
    | zero => simp [digits] at enough
    | succ fuel =>
        have read := unsignedNumber_toDigits n stops
        rw [digits, List.cons_append] at read ⊢
        have signless : number (first :: (others ++ rest)) =
            unsignedNumber (first :: (others ++ rest)) := by
          rw [number]
          intro text same
          exact absurd (List.cons.inj same).1 (differs '-' rfl)
        rw [value, skipBlanks_cons visible]
        simp only [differs '"' rfl, differs '[' rfl, differs '\x7b' rfl, differs 't' rfl,
          differs 'f' rfl, differs 'n' rfl, if_false, signless, read, Option.map_some]

/-! #### Arrays and objects -/

theorem exists_intercalate_cons (sep : List Char) (first : Char) (tail : List Char)
    (texts : List (List Char)) :
    ∃ following, sep.intercalate ((first :: tail) :: texts) = first :: following := by
  cases texts with
  | nil => exact ⟨tail, List.intercalate_singleton⟩
  | cons next texts =>
      refine ⟨tail ++ (sep ++ sep.intercalate (next :: texts)), ?_⟩
      rw [List.intercalate_cons_cons, List.append_assoc, List.cons_append]

/-- The texts of an array's elements, separated by commas, are read as its elements. -/
theorem elements_intercalate {texts : List (List Char)} {values : List JsonValue}
    (each : List.Forall₂ IsText texts values) (nonempty : texts ≠ []) (fuel : ℕ)
    (rest : List Char) (enough : 2 * ([','].intercalate texts).length + 1 ≤ fuel) :
    elements fuel ([','].intercalate texts ++ ']' :: rest) = some (values, rest) := by
  induction each generalizing fuel with
  | nil => exact absurd rfl nonempty
  | @cons text read texts values isText others ih =>
      cases fuel with
      | zero => omega
      | succ fuel =>
          cases others with
          | nil =>
              rw [List.intercalate_singleton] at enough ⊢
              have first := isText.reads fuel (']' :: rest) (by omega) (stops_bracket rest)
              simp only [elements, first, skipBlanks_cons (c := ']') rfl, Option.bind_eq_bind,
                Option.bind_some, Option.pure_def]
          | @cons next nextRead texts values nextIsText others =>
              rw [List.intercalate_cons_cons] at enough ⊢
              simp only [List.length_append, List.length_singleton] at enough
              have first := isText.reads fuel
                (',' :: ([','].intercalate (next :: texts) ++ ']' :: rest)) (by omega)
                (stops_comma _)
              have more := ih (List.cons_ne_nil _ _) fuel (by omega)
              simp only [List.append_assoc, List.cons_append, List.nil_append]
              simp only [elements, first, skipBlanks_cons (c := ',') rfl, more,
                Option.bind_eq_bind, Option.bind_some, Option.pure_def]

theorem isText_array {texts : List (List Char)} {values : List JsonValue}
    (each : List.Forall₂ IsText texts values) :
    IsText ('[' :: ([','].intercalate texts ++ [']'])) (.array values) where
  starts := ⟨_, _, rfl, rfl, by decide⟩
  reads := by
    intro fuel rest enough _
    cases fuel with
    | zero => simp at enough
    | succ fuel =>
        rw [List.cons_append, List.append_assoc, value, skipBlanks_cons rfl]
        simp only [if_true, List.singleton_append]
        rw [if_neg (by decide)]
        cases each with
        | nil =>
            simp only [List.intercalate_nil, List.nil_append, skipBlanks_cons (c := ']') rfl]
        | @cons text read texts values isText others =>
            have all : List.Forall₂ IsText (text :: texts) (read :: values) := .cons isText others
            have more := elements_intercalate all (List.cons_ne_nil _ _) fuel rest (by
              simp only [List.length_cons, List.length_append] at enough
              omega)
            rcases isText.starts with ⟨first, tail, rfl, visible, open_⟩
            rcases exists_intercalate_cons [','] first tail texts with ⟨following, same⟩
            rw [same, List.cons_append] at more
            rw [same, List.cons_append, skipBlanks_cons visible]
            split
            · next closing => exact absurd (List.cons.inj closing).1 open_
            · rw [more]
              rfl

/-- The text of a member of an object. -/
def IsMember (text : List Char) (member : String × JsonValue) : Prop :=
  ∃ key body, text = '"' :: (key ++ '"' :: ':' :: body) ∧ IsQuoted key member.1 ∧
    IsText body member.2

theorem members_intercalate {texts : List (List Char)} {entries : List (String × JsonValue)}
    (each : List.Forall₂ IsMember texts entries) (nonempty : texts ≠ []) (fuel : ℕ)
    (rest : List Char) (enough : 2 * ([','].intercalate texts).length + 1 ≤ fuel) :
    members fuel ([','].intercalate texts ++ '\x7d' :: rest) = some (entries, rest) := by
  induction each generalizing fuel with
  | nil => exact absurd rfl nonempty
  | @cons text entry texts entries isMember others ih =>
      rcases isMember with ⟨key, body, rfl, isKey, isText⟩
      rcases isText.starts with ⟨first, tail, rfl, visible, _⟩
      cases fuel with
      | zero => omega
      | succ fuel =>
          cases others with
          | nil =>
              rw [List.intercalate_singleton] at enough ⊢
              simp only [List.length_cons, List.length_append] at enough
              have read := isText.reads fuel ('\x7d' :: rest)
                (by simp only [List.length_cons]; omega) (stops_brace rest)
              simp only [List.cons_append, List.append_assoc] at read ⊢
              simp only [members, skipBlanks_cons (c := '"') rfl, isKey _,
                skipBlanks_cons (c := ':') rfl, read, skipBlanks_cons (c := '\x7d') rfl,
                Option.bind_eq_bind, Option.bind_some, Option.pure_def]
          | @cons next nextEntry texts entries nextIsMember others =>
              rw [List.intercalate_cons_cons] at enough ⊢
              simp only [List.length_append, List.length_cons, List.length_nil] at enough
              have read := isText.reads fuel
                (',' :: ([','].intercalate (next :: texts) ++ '\x7d' :: rest))
                (by simp only [List.length_cons]; omega) (stops_comma _)
              have more := ih (List.cons_ne_nil _ _) fuel (by omega)
              simp only [List.cons_append, List.append_assoc, List.nil_append] at read ⊢
              simp only [members, skipBlanks_cons (c := '"') rfl, isKey _,
                skipBlanks_cons (c := ':') rfl, read, skipBlanks_cons (c := ',') rfl, more,
                Option.bind_eq_bind, Option.bind_some, Option.pure_def]

theorem isText_object {texts : List (List Char)} {entries : List (String × JsonValue)}
    (each : List.Forall₂ IsMember texts entries) :
    IsText ('\x7b' :: ([','].intercalate texts ++ ['\x7d'])) (.object entries) where
  starts := ⟨_, _, rfl, rfl, by decide⟩
  reads := by
    intro fuel rest enough _
    cases fuel with
    | zero => simp at enough
    | succ fuel =>
        rw [List.cons_append, List.append_assoc, value, skipBlanks_cons rfl]
        simp only [if_true, List.singleton_append]
        rw [if_neg (by decide), if_neg (by decide)]
        cases each with
        | nil =>
            simp only [List.intercalate_nil, List.nil_append, skipBlanks_cons (c := '\x7d') rfl]
        | @cons text entry texts entries isMember others =>
            have all : List.Forall₂ IsMember (text :: texts) (entry :: entries) :=
              .cons isMember others
            have more := members_intercalate all (List.cons_ne_nil _ _) fuel rest (by
              simp only [List.length_cons, List.length_append] at enough
              omega)
            rcases isMember with ⟨key, body, rfl, _, _⟩
            rcases exists_intercalate_cons [','] '"' (key ++ '"' :: ':' :: body) texts with
              ⟨following, same⟩
            rw [same, List.cons_append] at more
            rw [same, List.cons_append, skipBlanks_cons (c := '"') rfl]
            split
            · next closing => exact absurd (List.cons.inj closing).1 (by decide)
            · rw [more]
              rfl

end JsonText

end Foundation
