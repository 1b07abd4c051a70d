import Mathlib.Data.List.Basic

/-!
# Splitting a command line

The rules by which a program finds its arguments in one command line. The first argument
ends at a blank outside quotes and has no escapes. Later arguments are separated by
blanks outside quotes; backslashes count only before a quote, where two of them stand for
one and a remaining one makes the quote literal, and a doubled quote inside quotes is a
literal quote.
-/

namespace Foundation.Argv

def isBlank (c : Char) : Bool := c = ' ' || c = '\t'

def slashes (count : ℕ) : List Char := List.replicate count '\\'

/-- Where the reader stands with respect to quotes. A quote inside quotes closes them
unless another one follows at once. -/
inductive Quotes where
  | outside
  | inside
  | closed
deriving DecidableEq, Repr

/-- An argument in the making: its characters, whether quotes are open, and the
backslashes just read. -/
structure Pending where
  chars : List Char
  quotes : Quotes
  backslashes : ℕ
deriving DecidableEq, Repr

/-- Another character than a quote settles that a quote has closed. -/
def Quotes.settle : Quotes → Quotes
  | .closed => .outside
  | quotes => quotes

namespace Pending

def fresh : Pending := { chars := [], quotes := .outside, backslashes := 0 }

/-- The characters with the backslashes just read. -/
def flush (arg : Pending) : List Char := arg.chars ++ slashes arg.backslashes

def countSlash (arg : Pending) : Pending where
  chars := arg.chars
  quotes := arg.quotes.settle
  backslashes := arg.backslashes + 1

/-- Half of the backslashes before a quote, and what the quote stands for. -/
def halve (arg : Pending) (literal : List Char) (quotes : Quotes) : Pending where
  chars := arg.chars ++ slashes (arg.backslashes / 2) ++ literal
  quotes := quotes
  backslashes := 0

def readQuote (arg : Pending) : Pending :=
  if arg.backslashes % 2 = 1 then arg.halve ['"'] arg.quotes
  else
    match arg.quotes with
    | .outside => arg.halve [] .inside
    | .inside => arg.halve [] .closed
    | .closed => arg.halve ['"'] .inside

def push (arg : Pending) (c : Char) : Pending where
  chars := arg.flush ++ [c]
  quotes := arg.quotes.settle
  backslashes := 0

end Pending

/-- The arguments from here on, the first of which may already be begun. -/
def splitFrom : Option Pending → List Char → List (List Char)
  | state, [] => (state.map Pending.flush).toList
  | state, c :: rest =>
      let arg := state.getD Pending.fresh
      if c = '\\' then splitFrom (some arg.countSlash) rest
      else if c = '"' then splitFrom (some arg.readQuote) rest
      else if isBlank c && arg.quotes ≠ .inside then
        (state.map Pending.flush).toList ++ splitFrom none rest
      else splitFrom (some (arg.push c)) rest

/-- The first argument, and the others after it. -/
def splitFirst (chars : List Char) (inQuotes : Bool) : List Char → List (List Char)
  | [] => [chars]
  | c :: rest =>
      if c = '"' then splitFirst chars (!inQuotes) rest
      else if isBlank c && !inQuotes then chars :: splitFrom none rest
      else splitFirst (chars ++ [c]) inQuotes rest

def splitLine (line : List Char) : List (List Char) := splitFirst [] false line

section Steps

variable {arg : Pending} {state : Option Pending} {c : Char} {rest : List Char}

theorem splitFrom_slashes (count : ℕ) (unclosed : arg.quotes ≠ .closed) :
    splitFrom (some arg) (slashes count ++ rest) =
      splitFrom (some { arg with backslashes := arg.backslashes + count }) rest := by
  have settled : arg.quotes.settle = arg.quotes := by
    cases quotes : arg.quotes with
    | closed => exact absurd quotes unclosed
    | outside | inside => rfl
  induction count generalizing arg with
  | zero => simp [slashes]
  | succ count ih =>
      have moved : slashes (count + 1) ++ rest = '\\' :: (slashes count ++ rest) := rfl
      have counted : arg.countSlash = { arg with backslashes := arg.backslashes + 1 } := by
        rw [Pending.countSlash, settled]
      rw [moved, splitFrom]
      simp only [Option.getD_some, if_true, counted]
      rw [ih (by exact unclosed) (by exact settled)]
      simp only [Nat.add_assoc, Nat.add_comm 1]

theorem splitFrom_quote : splitFrom state ('"' :: rest) =
    splitFrom (some (state.getD Pending.fresh).readQuote) rest := by
  rw [splitFrom]
  simp

theorem splitFrom_push (noSlash : c ≠ '\\') (noQuote : c ≠ '"')
    (inside : isBlank c = false ∨ (state.getD Pending.fresh).quotes = .inside) :
    splitFrom state (c :: rest) =
      splitFrom (some ((state.getD Pending.fresh).push c)) rest := by
  rw [splitFrom]
  rcases inside with visible | quoted
  · simp [noSlash, noQuote, visible]
  · simp [noSlash, noQuote, quoted]

/-- A blank outside quotes separates arguments. -/
theorem splitFrom_blank (outside : arg.quotes ≠ .inside) :
    splitFrom (some arg) (' ' :: rest) = arg.flush :: splitFrom none rest := by
  rw [splitFrom]
  simp [isBlank, outside]

/-- Only a blank tells a begun argument from one that is not. -/
theorem splitFrom_begin (visible : isBlank c = false) :
    splitFrom none (c :: rest) = splitFrom (some Pending.fresh) (c :: rest) := by
  rw [splitFrom, splitFrom]
  simp [visible]

/-- What follows an argument: the end of the line, or a blank and the rest. -/
def Delimited (rest after : List Char) : Prop := (rest = [] ∧ after = []) ∨ rest = ' ' :: after

theorem splitFrom_delimited {after : List Char} (outside : arg.quotes ≠ .inside)
    (ends : Delimited rest after) :
    splitFrom (some arg) rest = arg.flush :: splitFrom none after := by
  rcases ends with ⟨rfl, rfl⟩ | rfl
  · rfl
  · exact splitFrom_blank outside

theorem splitFirst_delimited {chars after : List Char} (ends : Delimited rest after) :
    splitFirst chars false rest = chars :: splitFrom none after := by
  rcases ends with ⟨rfl, rfl⟩ | rfl
  · rfl
  · rw [splitFirst]
    simp [isBlank]

/-- Characters that are neither blanks nor quotes belong to the argument as they are. -/
theorem splitFrom_plain {chars after : List Char} (outside : arg.quotes = .outside)
    (plain : ∀ c ∈ chars, isBlank c = false ∧ c ≠ '"') (ends : Delimited rest after) :
    splitFrom (some arg) (chars ++ rest) = (arg.flush ++ chars) :: splitFrom none after := by
  induction chars generalizing arg with
  | nil =>
      rw [List.nil_append, splitFrom_delimited (by simp [outside]) ends, List.append_nil]
  | cons c chars ih =>
      rcases plain c List.mem_cons_self with ⟨visible, noQuote⟩
      have others := fun c among => plain c (List.mem_cons_of_mem _ among)
      rw [List.cons_append]
      by_cases slash : c = '\\'
      · have counted : splitFrom (some arg) ('\\' :: (chars ++ rest)) =
            splitFrom (some { arg with backslashes := arg.backslashes + 1 }) (chars ++ rest) :=
          splitFrom_slashes 1 (by simp [outside])
        rw [slash, counted, ih (by exact outside) others]
        simp [Pending.flush, slashes, List.replicate_succ']
      · rw [splitFrom_push slash noQuote (Or.inl visible), ih _ others]
        · simp [Pending.push, Pending.flush, slashes]
        · simp [Pending.push, outside, Quotes.settle]

theorem splitFrom_fresh {chars after : List Char}
    (plain : ∀ c ∈ chars, isBlank c = false ∧ c ≠ '"') (ends : Delimited rest after) :
    splitFrom (some Pending.fresh) (chars ++ rest) = chars :: splitFrom none after :=
  splitFrom_plain rfl plain ends

theorem splitFirst_plain {begun chars after : List Char}
    (plain : ∀ c ∈ chars, isBlank c = false ∧ c ≠ '"') (ends : Delimited rest after) :
    splitFirst begun false (chars ++ rest) = (begun ++ chars) :: splitFrom none after := by
  induction chars generalizing begun with
  | nil => rw [List.nil_append, splitFirst_delimited ends, List.append_nil]
  | cons c chars ih =>
      rcases plain c List.mem_cons_self with ⟨visible, noQuote⟩
      rw [List.cons_append, splitFirst, if_neg noQuote, visible, Bool.false_and,
        if_neg Bool.false_ne_true, ih fun c among => plain c (List.mem_cons_of_mem _ among)]
      simp

/-- Inside quotes everything but a quote belongs to the first argument as it is. -/
theorem splitFirst_quoted {begun chars : List Char} (noQuotes : '"' ∉ chars) :
    splitFirst begun true (chars ++ rest) = splitFirst (begun ++ chars) true rest := by
  induction chars generalizing begun with
  | nil => simp
  | cons c chars ih =>
      have noQuote : c ≠ '"' := fun same => noQuotes (same ▸ List.mem_cons_self)
      rw [List.cons_append, splitFirst, if_neg noQuote, Bool.not_true, Bool.and_false,
        if_neg Bool.false_ne_true, ih fun among => noQuotes (List.mem_cons_of_mem _ among)]
      simp

end Steps

end Foundation.Argv
