import PigTree.Worker.Scan

/-!
# Honest coverage

Every directory that was written and is no reparse point waits on the stack or has been
visited; a visited one was listed in full or its path is the subject of a coverage gap.
The exception are directories that fail to open with one of the codes that end an
enumeration: they are passed over in silence.
-/

namespace PigTree

namespace Worker

/-- The directory waits on the stack. -/
def Waits (stack : List DirectoryStackItem) (position : ℕ) (dir : DirectoryObservation) : Prop :=
  ∃ item ∈ stack, item.record = position ∧ item.entryId = dir.entryId

/-- The directory was visited, and either listed in full or reported as a gap. -/
def Accounted (emitted : List ObservationRecord) (visits : List Visit) (position : ℕ)
    (dir : DirectoryObservation) : Prop :=
  ∃ visit ∈ visits, (visit.directory.record = position ∧ visit.directory.entryId = dir.entryId) ∧
    ((∃ facts, visit.answer = .success facts) ∨
      ∃ gap, ObservationRecord.coverageGap gap ∈ emitted ∧ gap.path = visit.directory.displayPath)

/-- The directory was visited but did not open, with a code that ends enumerations. -/
def PassedOver (visits : List Visit) (position : ℕ) : Prop :=
  ∃ visit ∈ visits, visit.directory.record = position ∧
    ∃ errorCode, visit.answer = .openFailed errorCode ∧ isEndOfEnumeration errorCode = true

/-- Every directory written so far is waiting, accounted for or passed over. -/
def Covers (emitted : List ObservationRecord) (stack : List DirectoryStackItem)
    (visits : List Visit) : Prop :=
  ∀ position dir, emitted[position]? = some (.directory dir) →
    isReparse dir.fileAttributes = false →
      Waits stack position dir ∨ Accounted emitted visits position dir ∨ PassedOver visits position

variable {emitted : List ObservationRecord} {stack : List DirectoryStackItem}
  {visits : List Visit} {record : ObservationRecord}

theorem Accounted.append {position : ℕ} {dir : DirectoryObservation}
    (accounted : Accounted emitted visits position dir) (more : List ObservationRecord) :
    Accounted (emitted ++ more) visits position dir := by
  rcases accounted with ⟨visit, visitMem, named, complete | ⟨gap, gapMem, about⟩⟩
  · exact ⟨visit, visitMem, named, Or.inl complete⟩
  · exact ⟨visit, visitMem, named, Or.inr ⟨gap, List.mem_append_left _ gapMem, about⟩⟩

/-- A record that asks for nothing, or a directory that is pushed with its position. -/
theorem Covers.write (covers : Covers emitted stack visits) (items : List DirectoryStackItem)
    (waits : ∀ dir, record = .directory dir → isReparse dir.fileAttributes = false →
      Waits items emitted.length dir) :
    Covers (emitted ++ [record]) (items ++ stack) visits := by
  intro position dir found descends
  by_cases old : position < emitted.length
  · rw [List.getElem?_append_left old] at found
    rcases covers position dir found descends with
      ⟨item, itemMem, named⟩ | accounted | passedOver
    · exact Or.inl ⟨item, List.mem_append_right _ itemMem, named⟩
    · exact Or.inr (Or.inl (accounted.append [record]))
    · exact Or.inr (Or.inr passedOver)
  · rw [List.getElem?_append_right (Nat.le_of_not_lt old)] at found
    have last : position - emitted.length = 0 := by
      by_contra beyond
      rw [List.getElem?_eq_none (by simp; omega)] at found
      cases found
    rw [last, List.getElem?_cons_zero, Option.some.injEq] at found
    have same : position = emitted.length := by omega
    subst same
    rcases waits dir found descends with ⟨item, itemMem, named⟩
    exact Or.inl ⟨item, List.mem_append_left _ itemMem, named⟩

/-- A record that is no directory to descend into. -/
theorem Covers.quiet (covers : Covers emitted stack visits)
    (none : ∀ dir, record = .directory dir → isReparse dir.fileAttributes = true) :
    Covers (emitted ++ [record]) stack visits := by
  apply covers.write []
  intro dir same descends
  exact absurd ((none dir same).symm.trans descends) (by decide)

/-- The directory on top is visited and accounted for, or passed over. -/
theorem Covers.visit {currentDir : DirectoryStackItem} {visit : Visit}
    (covers : Covers emitted (currentDir :: stack) visits) (isVisit : visit.directory = currentDir)
    (more : List ObservationRecord)
    (noDirectory : ∀ later ∈ more, ∀ dir, later ≠ .directory dir)
    (outcome : (∃ facts, visit.answer = .success facts) ∨
      (∃ gap, ObservationRecord.coverageGap gap ∈ emitted ++ more ∧
        gap.path = currentDir.displayPath) ∨
      ∃ errorCode, visit.answer = .openFailed errorCode ∧ isEndOfEnumeration errorCode = true) :
    Covers (emitted ++ more) stack (visits ++ [visit]) := by
  intro position dir found descends
  have present : emitted[position]? = some (.directory dir) := by
    by_cases old : position < emitted.length
    · rwa [List.getElem?_append_left old] at found
    · rw [List.getElem?_append_right (Nat.le_of_not_lt old)] at found
      exact absurd rfl (noDirectory _ (List.mem_of_getElem? found) dir)
  have here : visit ∈ visits ++ [visit] := List.mem_append_right _ (List.mem_singleton_self visit)
  rcases covers position dir present descends with
    ⟨item, itemMem, named⟩ | accounted | ⟨other, otherMem, passed⟩
  · rcases List.mem_cons.mp itemMem with rfl | below
    · right
      subst isVisit
      rcases outcome with complete | ⟨gap, gapMem, about⟩ | passed
      · exact Or.inl ⟨visit, here, named, Or.inl complete⟩
      · exact Or.inl ⟨visit, here, named, Or.inr ⟨gap, gapMem, about⟩⟩
      · exact Or.inr ⟨visit, here, named.1, passed⟩
    · exact Or.inl ⟨item, below, named⟩
  · right
    left
    rcases accounted.append more with ⟨other, otherMem, rest⟩
    exact ⟨other, List.mem_append_left _ otherMem, rest⟩
  · exact Or.inr (Or.inr ⟨other, List.mem_append_left _ otherMem, passed⟩)

/-! ### Steps -/

/-- Whether a visit is recorded as a coverage gap. -/
def isGapped : DirEnumeration → Bool
  | .incomplete _ _ => true
  | .openFailed errorCode => !isEndOfEnumeration errorCode
  | .success _ => false
  | .cancelled => false

/-- The coverage invariant of a scan: directories are covered, and gaps are counted. -/
structure Honest (state : ScanState) : Prop where
  covers : Covers state.emitted state.stack state.visits
  counted : state.coverageGapCount =
    UInt32.ofNat (state.visits.countP (fun visit => isGapped visit.answer))
  answered : ∀ visit ∈ state.visits, visit.answer ≠ .cancelled

variable {currentDir : DirectoryStackItem} {fact : EntryFacts} {state next : ScanState}

theorem Honest.emits (honest : Honest state) (emits : Emits currentDir fact state next) :
    Honest next := by
  cases emits with
  | skipped dot => exact honest
  | special named device =>
      refine ⟨honest.covers.quiet ?_, honest.counted, honest.answered⟩
      intro dir same
      cases same
  | directory named notDevice isDir =>
      rw [addAllocated_eq, pushChild]
      split
      · next reparse =>
          refine ⟨honest.covers.quiet ?_, honest.counted, honest.answered⟩
          intro dir same
          cases same
          exact reparse
      · refine ⟨honest.covers.write [_] ?_, honest.counted, honest.answered⟩
        intro dir same _
        cases same
        exact ⟨_, List.mem_singleton_self _, rfl, rfl⟩
  | file named notDevice notDir =>
      rw [addAllocated_eq]
      refine ⟨honest.covers.quiet ?_, honest.counted, honest.answered⟩
      intro dir same
      cases same

theorem isEndOfEnumeration_iff (errorCode : UInt32) :
    isEndOfEnumeration errorCode = false ↔
      errorCode ≠ errorFileNotFound ∧ errorCode ≠ errorNoMoreFiles := by
  simp only [isEndOfEnumeration, decide_eq_false_iff_not, not_or]
  exact and_comm

/-- One more visit that is not a gap. -/
theorem counted_quiet {visits : List Visit} {visit : Visit} {count : UInt32}
    (counted : count = UInt32.ofNat (visits.countP (fun visit => isGapped visit.answer)))
    (quiet : isGapped visit.answer = false) :
    count = UInt32.ofNat ((visits ++ [visit]).countP (fun visit => isGapped visit.answer)) := by
  rw [counted, List.countP_append, List.countP_singleton, quiet]
  rfl

/-- One more visit that is a gap. -/
theorem counted_gapped {visits : List Visit} {visit : Visit} {count : UInt32}
    (counted : count = UInt32.ofNat (visits.countP (fun visit => isGapped visit.answer)))
    (gapped : isGapped visit.answer = true) :
    count + 1 = UInt32.ofNat ((visits ++ [visit]).countP (fun visit => isGapped visit.answer)) := by
  rw [counted, List.countP_append, List.countP_singleton, gapped, if_pos rfl, UInt32.ofNat_add]
  rfl

theorem answered_append {visits : List Visit} {visit : Visit}
    (answered : ∀ visit ∈ visits, visit.answer ≠ .cancelled) (goesOn : visit.answer ≠ .cancelled) :
    ∀ other ∈ visits ++ [visit], other.answer ≠ .cancelled := by
  intro other otherMem
  rcases List.mem_append.mp otherMem with old | new
  · exact answered other old
  · rw [List.mem_singleton] at new
    subst new
    exact goesOn

section Visiting

variable {ε : Type} {env : ScanEnv ε} {stack : List DirectoryStackItem}
  {handle : Option (Except UInt32 Unit)}

/-- A visit that writes nothing. -/
theorem Honest.visited_quiet {enumeration : DirEnumeration} (honest : Honest state)
    (top : state.stack = currentDir :: stack) (quiet : isGapped enumeration = false)
    (goesOn : enumeration ≠ .cancelled) :
    Honest (visited state stack currentDir (selectClass state.enumClass handle) enumeration) := by
  have covers := honest.covers
  rw [top] at covers
  constructor
  · rw [← List.append_nil (visited _ _ _ _ _).emitted]
    apply covers.visit rfl
    · simp
    · cases enumeration with
      | success facts => exact Or.inl ⟨facts, rfl⟩
      | openFailed errorCode =>
          exact Or.inr (Or.inr ⟨errorCode, rfl, by simpa [isGapped] using quiet⟩)
      | incomplete facts errorCode => cases quiet
      | cancelled => exact absurd rfl goesOn
  · exact counted_quiet honest.counted quiet
  · exact answered_append honest.answered goesOn

/-- A visit that records a gap for the path of the directory. -/
theorem Honest.visited_gapped {enumeration : DirEnumeration} {errorCode : UInt32}
    {errorMessage : String} (honest : Honest state) (top : state.stack = currentDir :: stack)
    (gapped : isGapped enumeration = true)
    (ran : recordGap env currentDir.displayPath errorCode errorMessage
      (visited state stack currentDir (selectClass state.enumClass handle) enumeration) =
        .ok next) : Honest next := by
  have covers := honest.covers
  rw [top] at covers
  rw [recordGap_ok ran]
  constructor
  · apply covers.visit rfl
    · intro later laterMem dir same
      rw [List.mem_singleton] at laterMem
      rw [laterMem] at same
      cases same
    · exact Or.inr (Or.inl ⟨_, List.mem_append_right _ (List.mem_singleton_self _), rfl⟩)
  · exact counted_gapped honest.counted gapped
  · apply answered_append honest.answered
    rintro cancelled
    rw [show enumeration = .cancelled from cancelled] at gapped
    cases gapped

theorem Honest.absorb {enumeration : DirEnumeration} (honest : Honest state)
    (top : state.stack = currentDir :: stack) (goesOn : enumeration ≠ .cancelled)
    (absorbed : absorb env currentDir enumeration
      (visited state stack currentDir (selectClass state.enumClass handle) enumeration) =
        .ok next) : Honest next := by
  have emitting : ∀ fact before after, Honest before → Emits currentDir fact before after →
      Honest after := fun fact before after here emits => here.emits emits
  cases enumeration with
  | cancelled => exact absurd rfl goesOn
  | success facts =>
      exact emitFacts_ok emitting (honest.visited_quiet top rfl goesOn) absorbed
  | openFailed errorCode =>
      simp only [Worker.absorb] at absorbed
      by_cases recorded : errorCode ≠ errorFileNotFound ∧ errorCode ≠ errorNoMoreFiles
      · rw [if_pos recorded] at absorbed
        apply honest.visited_gapped top _ absorbed
        rw [isGapped, (isEndOfEnumeration_iff errorCode).mpr recorded]
        rfl
      · rw [if_neg recorded] at absorbed
        cases absorbed
        apply honest.visited_quiet top _ goesOn
        have ends := mt (isEndOfEnumeration_iff errorCode).mp recorded
        rw [isGapped, Bool.eq_true_of_not_eq_false ends]
        rfl
  | incomplete facts errorCode =>
      simp only [Worker.absorb, bind_eq_ok] at absorbed
      rcases absorbed with ⟨recorded, gap, emitted⟩
      exact emitFacts_ok emitting (honest.visited_gapped top rfl gap) emitted

end Visiting

/-! ### Runs -/

section Runs

variable {ε : Type} {env : ScanEnv ε} {target : ValidatedScanTarget} {root : RootAnswers}
  {answers : List DirectoryAnswers} {term : TerminalObservation}

theorem honest_enterRoot {data : FindData} {reparseTag : UInt32}
    (entered : enterRoot env target root data reparseTag = .ok state) : Honest state := by
  rw [enterRoot, bind_eq_ok] at entered
  rcases entered with ⟨wrote, ran, result⟩
  cases result
  rw [writeRecord_ok ran, addAllocated_eq]
  constructor
  · intro position dir found descends
    have first : position = 0 := by
      by_contra later
      have beyond : [ObservationRecord.directory
          (rootDirectory target root data reparseTag)].length ≤ position :=
        Nat.one_le_iff_ne_zero.mpr later
      have missing := List.getElem?_eq_none beyond
      exact absurd (found.symm.trans missing) (by simp)
    subst first
    cases found
    exact Or.inl ⟨_, List.mem_singleton_self _, rfl, rfl⟩
  · rfl
  · intro visit visitMem
    cases visitMem

/-- A finished scan ends with an empty stack and honest coverage. -/
theorem finished_honest (ran : scanDirectory env target root answers = some (.returned term state))
    (finished : term.outcome = .finished) : ∃ last, Honest last ∧ last.stack = [] ∧
      term.coverageGapCount = last.coverageGapCount ∧ state = written (.terminal term) last := by
  have otherwise : ∀ outcome last, outcome ≠ .finished →
      settle env outcome last ≠ .returned term state := by
    intro outcome last different settled
    rw [(settle_returned settled).1] at finished
    exact different finished
  have ends : ScanEnds env target root Honest (.returned term state) :=
    scanDirectory_ends (fun data reparseTag state _ entered => honest_enterRoot entered)
      (fun state currentDir stack handle enumeration next here top goesOn absorbed =>
        here.absorb top goesOn absorbed) ran
  generalize same : ScanEnd.returned term state = ended at ends
  cases ends with
  | cancelled early => exact absurd same.symm (otherwise .cancelled _ (by decide))
  | refused errorCode errorMessage goesOn text =>
      unfold refuseTarget at same
      split at same
      · cases same
      · exact absurd same.symm (otherwise .failed _ (by decide))
  | rootRefused goesOn fails => cases same
  | traversed ends =>
      cases ends with
      | finished here exhausted =>
          rcases settle_returned same.symm with ⟨totals, wrote⟩
          refine ⟨_, here, exhausted, ?_, wrote⟩
          rw [totals]
      | cancelledBefore here top => exact absurd same.symm (otherwise .cancelled _ (by decide))
      | cancelledWithin handle here top =>
          exact absurd same.symm (otherwise .cancelled _ (by decide))
      | refused handle here top fails => cases same

/-- When no directory fails to open with a code that ends enumerations, a finished scan has
listed every directory in full or recorded a gap for it; without gaps it has listed all. -/
theorem coverage_honest
    (ran : scanDirectory env target root answers = some (.returned term state))
    (finished : term.outcome = .finished)
    (opened : ∀ visit ∈ state.visits, visit.answer ≠ .openFailed errorFileNotFound ∧
      visit.answer ≠ .openFailed errorNoMoreFiles)
    (few : state.visits.countP (fun visit => isGapped visit.answer) < 2 ^ 32) :
    (∀ position dir, state.emitted[position]? = some (.directory dir) →
      isReparse dir.fileAttributes = false →
        Accounted state.emitted state.visits position dir) ∧
      (term.coverageGapCount = 0 →
        ∀ position dir, state.emitted[position]? = some (.directory dir) →
          isReparse dir.fileAttributes = false →
            ∃ visit ∈ state.visits, (visit.directory.record = position ∧
              visit.directory.entryId = dir.entryId) ∧
                ∃ facts, visit.answer = .success facts) := by
  rcases finished_honest ran finished with ⟨last, honest, exhausted, gaps, rfl⟩
  have opens : ∀ visit ∈ last.visits, ∀ errorCode, visit.answer = .openFailed errorCode →
      isEndOfEnumeration errorCode = false := by
    intro visit visitMem errorCode answer
    rcases opened visit visitMem with ⟨found, more⟩
    rw [answer] at found more
    rw [isEndOfEnumeration_iff]
    exact ⟨fun same => found (congrArg _ same), fun same => more (congrArg _ same)⟩
  have accounted : ∀ position dir,
      (written (.terminal term) last).emitted[position]? = some (.directory dir) →
        isReparse dir.fileAttributes = false →
          Accounted (written (.terminal term) last).emitted last.visits position dir := by
    intro position dir found descends
    have covers : Covers (written (.terminal term) last).emitted last.stack last.visits := by
      apply honest.covers.quiet
      intro dir same
      cases same
    rcases covers position dir found descends with ⟨item, itemMem, _⟩ | accounted | passed
    · rw [exhausted] at itemMem
      cases itemMem
    · exact accounted
    · rcases passed with ⟨visit, visitMem, _, errorCode, answer, ends⟩
      exact absurd ((opens visit visitMem errorCode answer).symm.trans ends) (by decide)
  refine ⟨accounted, ?_⟩
  intro noGaps position dir found descends
  have none : last.visits.countP (fun visit => isGapped visit.answer) = 0 := by
    have zero := congrArg UInt32.toNat (honest.counted.symm.trans (gaps.symm.trans noGaps))
    have bound : last.visits.countP (fun visit => isGapped visit.answer) < 2 ^ 32 := few
    rw [UInt32.toNat_ofNat_of_lt' bound] at zero
    exact zero
  rcases accounted position dir found descends with ⟨visit, visitMem, named, _⟩
  refine ⟨visit, visitMem, named, ?_⟩
  have quiet := List.countP_eq_zero.mp none visit visitMem
  cases answer : visit.answer with
  | success facts => exact ⟨facts, rfl⟩
  | incomplete facts errorCode => simp [answer, isGapped] at quiet
  | openFailed errorCode => simp [answer, isGapped, opens visit visitMem errorCode answer] at quiet
  | cancelled => exact absurd answer (honest.answered visit visitMem)

end Runs

/-! ### A directory that vanishes -/

/-- A directory with a file and a subdirectory that cannot be read. -/
def Sample.denied : Option (ScanEnd Unit) :=
  scanDirectory Sample.env Sample.target (Sample.root 0x10 0)
    [Sample.batched [Sample.fact "file" 0x20 5, Sample.fact "sub" 0x10 0], Sample.unopened 5]

def Sample.answers : ScanEnd Unit → RunOutcome × List DirEnumeration
  | .returned term state => (term.outcome, state.visits.map Visit.answer)
  | .failed _ _ => (.failed, [])

theorem coverage_honest_denied : ∃ term state, Sample.denied = some (.returned term state) ∧
    (∀ position dir, state.emitted[position]? = some (.directory dir) →
      isReparse dir.fileAttributes = false →
        Accounted state.emitted state.visits position dir) ∧
      (term.coverageGapCount = 0 →
        ∀ position dir, state.emitted[position]? = some (.directory dir) →
          isReparse dir.fileAttributes = false →
            ∃ visit ∈ state.visits, (visit.directory.record = position ∧
              visit.directory.entryId = dir.entryId) ∧
                ∃ facts, visit.answer = .success facts) := by
  have runs : Sample.denied.map Sample.answers = some (.finished, [
      .success [Sample.fact "file" 0x20 5, Sample.fact "sub" 0x10 0], .openFailed 5]) := by
    decide +kernel
  rcases Option.map_eq_some_iff.mp runs with ⟨ended, ran, observed⟩
  cases ended with
  | failed err state =>
      simp only [Sample.answers, Prod.mk.injEq, reduceCtorEq, false_and] at observed
  | returned term state =>
      simp only [Sample.answers, Prod.mk.injEq] at observed
      rcases observed with ⟨finished, visited⟩
      have answered : ∀ visit ∈ state.visits, visit.answer ∈ [
          DirEnumeration.success [Sample.fact "file" 0x20 5, Sample.fact "sub" 0x10 0],
          .openFailed 5] := by
        intro visit visitMem
        rw [← visited]
        exact List.mem_map_of_mem visitMem
      have length : state.visits.length = 2 := by
        simpa using congrArg List.length visited
      refine ⟨term, state, ran, coverage_honest ran finished ?_ ?_⟩
      · intro visit visitMem
        have possible := answered visit visitMem
        simp only [List.mem_cons, List.not_mem_nil, or_false] at possible
        rcases possible with answer | answer
        · rw [answer]
          decide
        · rw [answer]
          decide
      · apply Nat.lt_of_le_of_lt List.countP_le_length
        rw [length]
        decide

def Sample.isGap : ObservationRecord → Bool
  | .coverageGap _ => true
  | _ => false

/-- The subdirectory is gone when it is opened. -/
def Sample.vanished : Option (ScanEnd Unit) :=
  scanDirectory Sample.env Sample.target (Sample.root 0x10 0)
    [Sample.batched [Sample.fact "sub" 0x10 0], Sample.unopened errorFileNotFound]

/-- What a scan ended with, its second record, whether it wrote a gap, and its visits. -/
def Sample.outline : ScanEnd Unit → (RunOutcome × UInt32) ×
    (Option ObservationRecord × Bool) × List (ℕ × DirEnumeration)
  | .returned term state => ((term.outcome, term.coverageGapCount), (state.emitted[1]?,
      state.emitted.any Sample.isGap),
      state.visits.map (fun visit => (visit.directory.record, visit.answer)))
  | .failed _ _ => ((.failed, 0), (none, false), [])

/-- The scan finishes without a gap, though its second directory was never listed. -/
theorem not_coverage_honest_vanished : ∃ term state,
    Sample.vanished = some (.returned term state) ∧ term.outcome = .finished ∧
      term.coverageGapCount = 0 ∧
      ¬∀ position dir, state.emitted[position]? = some (.directory dir) →
        isReparse dir.fileAttributes = false →
          Accounted state.emitted state.visits position dir := by
  have runs : Sample.vanished.map Sample.outline =
      some ((.finished, 0), (some (.directory (directoryOf 2 1 (Sample.fact "sub" 0x10 0))),
        false), [(0, .success [Sample.fact "sub" 0x10 0]), (1, .openFailed 2)]) := by
    decide +kernel
  rcases Option.map_eq_some_iff.mp runs with ⟨ended, ran, observed⟩
  cases ended with
  | failed err state =>
      simp only [Sample.outline, Prod.mk.injEq, reduceCtorEq, false_and] at observed
  | returned term state =>
      simp only [Sample.outline, Prod.mk.injEq] at observed
      rcases observed with ⟨⟨finished, noGaps⟩, ⟨sub, noGapRecord⟩, visited⟩
      refine ⟨term, state, ran, finished, noGaps, ?_⟩
      intro claimed
      rcases claimed 1 _ sub (by decide) with ⟨visit, visitMem, ⟨position, _⟩, outcome⟩
      have pair : (visit.directory.record, visit.answer) ∈ [
          (0, DirEnumeration.success [Sample.fact "sub" 0x10 0]), (1, .openFailed 2)] := by
        rw [← visited]
        exact List.mem_map_of_mem visitMem
      simp only [List.mem_cons, List.not_mem_nil, or_false, Prod.mk.injEq] at pair
      rcases pair with ⟨first, _⟩ | ⟨_, answer⟩
      · omega
      · rcases outcome with ⟨facts, listed⟩ | ⟨gap, gapMem, _⟩
        · rw [answer] at listed
          cases listed
        · have absent := List.any_eq_false.mp noGapRecord _ gapMem
          simp [Sample.isGap] at absent

end Worker

end PigTree
