import PigTree.Foundation.Argv

/-!
# Quoting command-line arguments

The worker is launched with one command line. Each argument is quoted where it needs to
be, so that the launched program finds exactly the arguments that were given.
-/

namespace PigTree

open Foundation.Argv

namespace CommandLine

def needsQuotes (c : Char) : Bool :=
  c = ' ' || c = '\t' || c = '\n' || c = '\x0B' || c = '"'

/-- One character of a quoted argument: what has been written, and the backslashes not
written yet. -/
def quoteStep (state : List Char × ℕ) (c : Char) : List Char × ℕ :=
  let (res, backslashes) := state
  if c = '\\' then (res, backslashes + 1)
  else if c = '"' then (res ++ slashes (backslashes * 2 + 1) ++ ['"'], 0)
  else (res ++ slashes backslashes ++ [c], 0)

def quoteWindowsArg (arg : String) : String :=
  if arg.isEmpty then "\"\""
  else if !arg.toList.any needsQuotes then arg
  else
    let (res, backslashes) := arg.toList.foldl quoteStep (['"'], 0)
    -- Backslashes at the end stand before the closing quote.
    String.ofList (res ++ slashes (backslashes * 2) ++ ['"'])

def pushArg (cmd : String) (entry : String × ℕ) : String :=
  (if entry.2 > 0 then cmd ++ " " else cmd) ++ quoteWindowsArg entry.1

def buildWindowsCommandLine (args : List String) : String := args.zipIdx.foldl pushArg ""

/-! ### What the quoting loop writes -/

/-- The characters written for a rest of an argument, after some backslashes. -/
def escape : ℕ → List Char → List Char
  | backslashes, [] => slashes (backslashes * 2)
  | backslashes, c :: rest =>
      if c = '\\' then escape (backslashes + 1) rest
      else if c = '"' then slashes (backslashes * 2 + 1) ++ '"' :: escape 0 rest
      else slashes backslashes ++ c :: escape 0 rest

theorem foldl_quoteStep (chars res : List Char) (backslashes : ℕ) :
    (chars.foldl quoteStep (res, backslashes)).1 ++
        slashes ((chars.foldl quoteStep (res, backslashes)).2 * 2) =
      res ++ escape backslashes chars := by
  induction chars generalizing res backslashes with
  | nil => rfl
  | cons c chars ih =>
      rw [List.foldl_cons, quoteStep, escape]
      split_ifs <;> simp [ih]

theorem toList_quoteWindowsArg {arg : String} (special : arg.toList.any needsQuotes = true) :
    (quoteWindowsArg arg).toList = '"' :: (escape 0 arg.toList ++ ['"']) := by
  have nonempty : arg ≠ "" := by
    rintro rfl
    cases special
  rw [quoteWindowsArg, if_neg (by simpa using nonempty), special]
  have written := foldl_quoteStep arg.toList ['"'] 0
  simp only [Bool.not_true, Bool.false_eq_true, if_false, String.toList_ofList, written]
  rfl

/-- Reading back what the loop wrote, up to the closing quote. -/
theorem splitFrom_escape (chars begun rest : List Char) (backslashes : ℕ) :
    splitFrom (some { chars := begun, quotes := .inside, backslashes := 0 })
        (escape backslashes chars ++ '"' :: rest) =
      splitFrom (some { chars := begun ++ slashes backslashes ++ chars, quotes := .closed,
                        backslashes := 0 }) rest := by
  induction chars generalizing begun backslashes with
  | nil =>
      rw [escape, splitFrom_slashes _ (by simp), splitFrom_quote]
      simp [Pending.readQuote, Pending.halve]
  | cons c chars ih =>
      rw [escape]
      split_ifs with slash quote
      · rw [ih, slash]
        simp [slashes, List.replicate_succ']
      · rw [List.append_assoc, splitFrom_slashes _ (by simp), List.cons_append, splitFrom_quote, quote]
        have odd : (0 + (backslashes * 2 + 1)) % 2 = 1 := by omega
        have half : (0 + (backslashes * 2 + 1)) / 2 = backslashes := by omega
        simp only [Option.getD_some, Pending.readQuote, odd, if_true, Pending.halve, half, ih]
        simp [slashes]
      · rw [List.append_assoc, splitFrom_slashes _ (by simp), List.cons_append,
          splitFrom_push slash quote (Or.inr rfl)]
        simp only [Option.getD_some, Pending.push, Quotes.settle, ih]
        simp [Pending.flush, slashes]

/-- What the loop writes for a text without quotes that does not end in a backslash. -/
theorem escape_eq_self {chars : List Char} {backslashes : ℕ} (noQuotes : '"' ∉ chars)
    (ending : (slashes backslashes ++ chars).getLast? ≠ some '\\') :
    escape backslashes chars = slashes backslashes ++ chars := by
  induction chars generalizing backslashes with
  | nil =>
      cases backslashes with
      | zero => rfl
      | succ backslashes => simp [slashes, List.replicate_succ'] at ending
  | cons c chars ih =>
      have noQuote : c ≠ '"' := fun same => noQuotes (same ▸ List.mem_cons_self)
      have later : '"' ∉ chars := fun among => noQuotes (List.mem_cons_of_mem _ among)
      rw [escape]
      split_ifs with slash
      · have joined : slashes backslashes ++ c :: chars = slashes (backslashes + 1) ++ chars := by
          simp [slash, slashes, List.replicate_succ']
        rw [joined] at ending ⊢
        exact ih later ending
      · rw [ih later]
        · rfl
        · intro last
          apply ending
          cases chars with
          | nil => cases last
          | cons next chars =>
              rw [slashes, List.replicate_zero, List.nil_append] at last
              rw [List.getLast?_append, List.getLast?_cons_cons, last]
              rfl

theorem plain_of_not {arg : String} (plain : ¬arg.toList.any needsQuotes = true) :
    ∀ c ∈ arg.toList, isBlank c = false ∧ c ≠ '"' := by
  intro c among
  have harmless : needsQuotes c = false := by
    by_contra special
    exact plain (List.any_eq_true.mpr ⟨c, among, by simpa using special⟩)
  simp only [needsQuotes, Bool.or_eq_false_iff, decide_eq_false_iff_not] at harmless
  simp [isBlank, harmless]

/-- An argument is read back from its quoted form, whatever follows it. -/
theorem splitFrom_quoteWindowsArg (arg : String) {rest after : List Char}
    (ends : Delimited rest after) :
    splitFrom none ((quoteWindowsArg arg).toList ++ rest) =
      arg.toList :: splitFrom none after := by
  by_cases blank : arg = ""
  · rw [blank]
    have quotes : (quoteWindowsArg "").toList ++ rest = '"' :: '"' :: rest := rfl
    rw [quotes, splitFrom_quote, splitFrom_quote]
    exact splitFrom_delimited (by decide) ends
  · by_cases special : arg.toList.any needsQuotes = true
    · rw [toList_quoteWindowsArg special, List.cons_append, List.append_assoc, splitFrom_quote]
      refine (splitFrom_escape arg.toList [] rest 0).trans ?_
      rw [splitFrom_delimited (by simp) ends]
      simp [Pending.flush, slashes]
    · have plain := plain_of_not special
      rw [quoteWindowsArg, if_neg (by simpa using blank), if_pos (by simpa using special)]
      have whole := splitFrom_fresh plain ends
      cases start : arg.toList with
      | nil => exact absurd (String.toList_eq_nil_iff.mp start) blank
      | cons c chars =>
          rw [start] at whole plain
          rw [List.cons_append, splitFrom_begin (plain c List.mem_cons_self).1]
          exact whole

theorem splitFirst_quoteWindowsArg {arg : String} (noQuotes : '"' ∉ arg.toList)
    (ending : arg.toList.getLast? ≠ some '\\') {rest after : List Char}
    (ends : Delimited rest after) :
    splitLine ((quoteWindowsArg arg).toList ++ rest) = arg.toList :: splitFrom none after := by
  by_cases blank : arg = ""
  · rw [blank]
    have quotes : splitLine ((quoteWindowsArg "").toList ++ rest) = splitFirst [] false rest := rfl
    exact quotes.trans (splitFirst_delimited ends)
  · by_cases special : arg.toList.any needsQuotes = true
    · have written : escape 0 arg.toList = slashes 0 ++ arg.toList :=
        escape_eq_self noQuotes (by simpa [slashes] using ending)
      rw [toList_quoteWindowsArg special, written, splitLine, List.cons_append, splitFirst,
        if_pos rfl, slashes, List.replicate_zero, List.nil_append, List.append_assoc, Bool.not_false,
        splitFirst_quoted noQuotes]
      exact splitFirst_delimited ends
    · rw [quoteWindowsArg, if_neg (by simpa using blank), if_pos (by simpa using special)]
      exact splitFirst_plain (plain_of_not special) ends

/-- The arguments after the first one. -/
def laterArgs (args : List String) : List Char :=
  args.flatMap fun arg => ' ' :: (quoteWindowsArg arg).toList

theorem toList_buildWindowsCommandLine (first : String) (others : List String) :
    (buildWindowsCommandLine (first :: others)).toList =
      (quoteWindowsArg first).toList ++ laterArgs others := by
  have later (others : List String) (cmd : String) (start : ℕ) (positive : 0 < start) :
      ((others.zipIdx start).foldl pushArg cmd).toList = cmd.toList ++ laterArgs others := by
    induction others generalizing cmd start with
    | nil => simp [laterArgs]
    | cons arg others ih =>
        rw [List.zipIdx_cons, List.foldl_cons, ih _ _ (Nat.succ_pos _)]
        simp [pushArg, positive, laterArgs]
  rw [buildWindowsCommandLine, List.zipIdx_cons, List.foldl_cons, later _ _ _ (by decide)]
  simp [pushArg]

theorem splitFrom_laterArgs (others : List String) :
    ∃ after, Delimited (laterArgs others) after ∧
      splitFrom none after = others.map String.toList := by
  induction others with
  | nil => exact ⟨[], Or.inl ⟨rfl, rfl⟩, rfl⟩
  | cons arg others ih =>
      rcases ih with ⟨after, ends, read⟩
      refine ⟨(quoteWindowsArg arg).toList ++ laterArgs others, Or.inr rfl, ?_⟩
      rw [splitFrom_quoteWindowsArg arg ends, read, List.map_cons]

/-- Splitting the command line gives back the arguments. -/
theorem splitLine_buildWindowsCommandLine (first : String) (others : List String)
    (noQuotes : '"' ∉ first.toList) (ending : first.toList.getLast? ≠ some '\\') :
    (splitLine (buildWindowsCommandLine (first :: others)).toList).map String.ofList =
      first :: others := by
  rcases splitFrom_laterArgs others with ⟨after, ends, read⟩
  rw [toList_buildWindowsCommandLine, splitFirst_quoteWindowsArg noQuotes ending ends, read]
  simp [Function.comp_def]

theorem splitLine_buildWindowsCommandLine_worker :
    (splitLine (buildWindowsCommandLine
      ["C:\\Program Files\\worker.exe", "--target", "C:\\my path\\", "say \"\\\"\"", ""]).toList).map
        String.ofList =
      ["C:\\Program Files\\worker.exe", "--target", "C:\\my path\\", "say \"\\\"\"", ""] :=
  splitLine_buildWindowsCommandLine _ _ (by decide) (by decide)

end CommandLine

end PigTree
