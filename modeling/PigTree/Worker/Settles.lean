import PigTree.Worker.Scan
import PigTree.Protocol.FailedWrites

/-!
# When a scan settles

The sink of the worker is an observation writer, which refuses a record with a string of
more than 65535 bytes. Names of entries and texts of error codes are too short for that,
but display paths grow with the depth of the tree: a run fails at the first coverage gap
of a directory whose display path is too long, and at once when the target's is.
-/

namespace PigTree

namespace Worker

open Foundation

/-! ### The sink -/

/-- Surroundings whose sink is an observation writer over an output that takes all bytes. -/
def writerEnv (formatWin32Error : UInt32 → String) (durationMs : UInt64) :
    ScanEnv ObservationWriteError where
  formatWin32Error := formatWin32Error
  durationMs := durationMs
  sink := fun _ record =>
    match (ObservationWriter.writeRecord record []).1 with
    | .ok () => none
    | .error err => some err

section Sink

variable {formatWin32Error : UInt32 → String} {durationMs : UInt64}

/-- The writer refuses the records with a string that is too long. -/
theorem writerEnv_sink (position : ℕ) (record : ObservationRecord) :
    (writerEnv formatWin32Error durationMs).sink position record = none ↔ Encodable record := by
  by_cases fits : Encodable record
  · have wrote := writes_writeRecord record fits []
    simp [writerEnv, wrote, fits]
  · rcases aborts_writeRecord fits with ⟨body, err, fails⟩
    simp [writerEnv, fails, fits]

end Sink

/-- The length of a string in UTF-16 code units. -/
def utf16Length (s : String) : ℕ :=
  (s.toList.map (fun c => if c.toNat < 0x10000 then 1 else 2)).sum

/-- A UTF-16 code unit is worth at most three bytes of UTF-8. -/
theorem utf8ByteSize_le (s : String) : s.utf8ByteSize ≤ 3 * utf16Length s := by
  have unit : ∀ c : Char, c.utf8Size ≤ 3 * (if c.toNat < 0x10000 then 1 else 2) := by
    intro c
    have small : c.toNat < 0x10000 → c.utf8Size ≤ 3 := by
      intro below
      unfold Char.utf8Size
      dsimp only
      split
      · decide
      split
      · decide
      split
      · decide
      next beyond =>
        have word : c.val.toNat ≤ (0xFFFF : UInt32).toNat := Nat.le_of_lt_succ below
        exact absurd (UInt32.le_iff_toNat_le.mpr word) beyond
    have always := c.utf8Size_le_four
    split
    · next below => exact small below
    · omega
  have chars : ∀ cs : List Char, String.utf8Len cs ≤
      3 * (cs.map (fun c => if c.toNat < 0x10000 then 1 else 2)).sum := by
    intro cs
    induction cs with
    | nil => exact Nat.le_refl 0
    | cons c cs ih =>
        have head := unit c
        rw [String.utf8Len_cons, List.map_cons, List.sum_cons]
        omega
  have whole := chars s.toList
  rwa [← String.utf8ByteSize_ofList, String.ofList_toList] at whole

/-! ### Refused records -/

/-- The error code for which a visit is recorded as a coverage gap. -/
def gapCode : DirEnumeration → Option UInt32
  | .incomplete _ errorCode => some errorCode
  | .openFailed errorCode =>
      if errorCode ≠ errorFileNotFound ∧ errorCode ≠ errorNoMoreFiles then some errorCode else none
  | .success _ => none
  | .cancelled => none

section Refused

variable {ε : Type} {env : ScanEnv ε} {currentDir : DirectoryStackItem} {state next : ScanState}
  {err : ε}

/-- The sink has accepted the record somewhere in the stream. -/
def Accepts (env : ScanEnv ε) (record : ObservationRecord) : Prop :=
  ∃ position, env.sink position record = none

/-- The sink has refused the record somewhere in the stream. -/
def Refuses (env : ScanEnv ε) (record : ObservationRecord) : Prop :=
  ∃ position err, env.sink position record = some err

theorem accepts_writeRecord {record : ObservationRecord}
    (ran : writeRecord env record state = .ok next) : Accepts env record := by
  unfold writeRecord at ran
  split at ran
  · cases ran
  · next passes => exact ⟨_, passes⟩

theorem refuses_writeRecord {record : ObservationRecord} {stopped : ε × ScanState}
    (ran : writeRecord env record state = .error stopped) : Refuses env record := by
  unfold writeRecord at ran
  split at ran
  · next err fails => exact ⟨_, err, fails⟩
  · cases ran

theorem bind_eq_error {step : ScanStep ε ScanState} {next : ScanState → ScanStep ε ScanState}
    {stopped : ε × ScanState} (ran : step >>= next = .error stopped) :
    step = .error stopped ∨ ∃ state, step = .ok state ∧ next state = .error stopped := by
  cases step with
  | error other => exact Or.inl ran
  | ok state => exact Or.inr ⟨state, rfl, ran⟩

/-- The only string of an entry's record is its name. -/
theorem refuses_emitFact {fact : EntryFacts} {stopped : ε × ScanState}
    (ran : emitFact env currentDir fact state = .error stopped) :
    ∃ record, Refuses env record ∧ recordStrings record = [fact.name] := by
  unfold emitFact at ran
  dsimp only at ran
  split at ran
  · cases ran
  split at ran
  · exact ⟨_, refuses_writeRecord ran, rfl⟩
  split at ran
  · rcases bind_eq_error ran with fails | ⟨wrote, _, impossible⟩
    · exact ⟨_, refuses_writeRecord fails, rfl⟩
    · cases impossible
  · rcases bind_eq_error ran with fails | ⟨wrote, _, impossible⟩
    · exact ⟨_, refuses_writeRecord fails, rfl⟩
    · cases impossible

theorem refuses_emitFacts {facts : List EntryFacts} {stopped : ε × ScanState}
    (ran : emitFacts env currentDir facts state = .error stopped) :
    ∃ fact ∈ facts, ∃ record, Refuses env record ∧ recordStrings record = [fact.name] := by
  induction facts generalizing state with
  | nil => cases ran
  | cons fact facts ih =>
      rcases bind_eq_error ran with fails | ⟨later, _, ran⟩
      · exact ⟨fact, List.mem_cons_self, refuses_emitFact fails⟩
      · rcases ih ran with ⟨other, otherMem, refused⟩
        exact ⟨other, List.mem_cons_of_mem _ otherMem, refused⟩

/-- The coverage gap of a directory. -/
def gapOf (env : ScanEnv ε) (dir : DirectoryStackItem) (errorCode : UInt32) : ObservationRecord :=
  .coverageGap {
    path := dir.displayPath
    errorCode
    errorMessage := env.formatWin32Error errorCode }

/-- A visit fails at its own gap or at one of its entries. -/
theorem refuses_absorb {enumeration : DirEnumeration} {stopped : ε × ScanState}
    (ran : absorb env currentDir enumeration state = .error stopped) :
    (∃ errorCode, gapCode enumeration = some errorCode ∧
        Refuses env (gapOf env currentDir errorCode)) ∨
      ∃ fact ∈ enumeration.facts, ∃ record, Refuses env record ∧
        recordStrings record = [fact.name] := by
  cases enumeration with
  | cancelled => cases ran
  | openFailed errorCode =>
      simp only [absorb] at ran
      split at ran
      · next recorded =>
          left
          exact ⟨errorCode, if_pos recorded, refuses_writeRecord ran⟩
      · cases ran
  | incomplete facts errorCode =>
      rcases bind_eq_error ran with fails | ⟨gapped, _, ran⟩
      · exact Or.inl ⟨errorCode, rfl, refuses_writeRecord fails⟩
      · exact Or.inr (refuses_emitFacts ran)
  | success facts => exact Or.inr (refuses_emitFacts ran)

/-- A visit that goes on has its gap accepted. -/
theorem accepts_absorb {enumeration : DirEnumeration} {errorCode : UInt32}
    (gapped : gapCode enumeration = some errorCode)
    (ran : absorb env currentDir enumeration state = .ok next) :
    Accepts env (gapOf env currentDir errorCode) := by
  cases enumeration with
  | cancelled => cases gapped
  | openFailed code =>
      simp only [absorb] at ran
      simp only [gapCode] at gapped
      by_cases recorded : code ≠ errorFileNotFound ∧ code ≠ errorNoMoreFiles
      · rw [if_pos recorded] at gapped ran
        cases gapped
        exact accepts_writeRecord ran
      · rw [if_neg recorded] at gapped
        cases gapped
  | incomplete facts code =>
      cases gapped
      rw [absorb, bind_eq_ok] at ran
      rcases ran with ⟨recorded, gap, _⟩
      exact accepts_writeRecord gap
  | success facts => cases gapped

end Refused

/-! ### Runs -/

section Runs

variable {ε : Type} {env : ScanEnv ε} {target : ValidatedScanTarget} {root : RootAnswers}

/-- The record of the root was accepted, and so was the gap of every visit. -/
structure Admitted (env : ScanEnv ε) (target : ValidatedScanTarget) (state : ScanState) : Prop where
  root : ∃ dir : DirectoryObservation, dir.name = target.displayPath ∧
    Accepts env (.directory dir)
  gaps : ∀ visit ∈ state.visits, ∀ errorCode, gapCode visit.answer = some errorCode →
    Accepts env (gapOf env visit.directory errorCode)

theorem admitted_enterRoot {data : FindData} {reparseTag : UInt32} {state : ScanState}
    (entered : enterRoot env target root data reparseTag = .ok state) :
    Admitted env target state := by
  have noVisits := (enterRoot_keeps (untouched_visits env []) target root data reparseTag
    (fun _ => rfl)).ok state entered
  rw [enterRoot, bind_eq_ok] at entered
  rcases entered with ⟨wrote, ran, _⟩
  constructor
  · exact ⟨_, rfl, accepts_writeRecord ran⟩
  · intro visit visitMem
    rw [noVisits] at visitMem
    cases visitMem

theorem Admitted.absorb {currentDir : DirectoryStackItem} {stack : List DirectoryStackItem}
    {handle : Option (Except UInt32 Unit)} {enumeration : DirEnumeration} {state next : ScanState}
    (admitted : Admitted env target state)
    (absorbed : absorb env currentDir enumeration
      (visited state stack currentDir (selectClass state.enumClass handle) enumeration) =
        .ok next) : Admitted env target next := by
  have visits : next.visits = (visited state stack currentDir
      (selectClass state.enumClass handle) enumeration).visits :=
    (absorb_keeps env (untouched_visits env _) currentDir enumeration rfl).ok next absorbed
  refine ⟨admitted.root, ?_⟩
  intro visit visitMem errorCode gapped
  rw [visits] at visitMem
  rcases List.mem_append.mp visitMem with old | new
  · exact admitted.gaps visit old errorCode gapped
  · rw [List.mem_singleton] at new
    subst new
    exact accepts_absorb gapped absorbed

end Runs

section Settles

variable {formatWin32Error : UInt32 → String} {durationMs : UInt64} {target : ValidatedScanTarget}
  {root : RootAnswers} {answers : List DirectoryAnswers} {ended : ScanEnd ObservationWriteError}

theorem encodable_of_accepts {record : ObservationRecord}
    (accepts : Accepts (writerEnv formatWin32Error durationMs) record) : Encodable record := by
  rcases accepts with ⟨position, passes⟩
  exact (writerEnv_sink position record).mp passes

theorem not_encodable_of_refuses {record : ObservationRecord}
    (refuses : Refuses (writerEnv formatWin32Error durationMs) record) : ¬Encodable record := by
  rcases refuses with ⟨position, err, fails⟩
  intro fits
  rw [(writerEnv_sink position record).mpr fits] at fails
  cases fails

/-- A scan returned, with its terminal record at the end of the stream. -/
def Settled {ε : Type} (ended : ScanEnd ε) : Prop :=
  ∃ term state, ended = .returned term state ∧ state.emitted.getLast? = some (.terminal term)

/-- A terminal record has no strings that could be too long. -/
theorem settled_settle (outcome : RunOutcome) (last : ScanState) :
    Settled (settle (writerEnv formatWin32Error durationMs) outcome last) := by
  cases ended : settle (writerEnv formatWin32Error durationMs) outcome last with
  | returned term state =>
      refine ⟨term, state, rfl, ?_⟩
      rw [(settle_returned ended).2]
      exact List.getLast?_concat
  | failed err state =>
      unfold settle at ended
      dsimp only at ended
      split at ended
      · next stopped fails =>
          have refused := not_encodable_of_refuses (refuses_writeRecord fails)
          exact absurd (fun s sMem => by cases sMem) refused
      · cases ended

/-- The display paths a scan has to write are short enough for a record. -/
structure ShortPaths (target : ValidatedScanTarget) (root : RootAnswers) (visits : List Visit) :
    Prop where
  target : root.cancelled = true ∨ target.displayPath.utf8ByteSize ≤ 65535
  gaps : ∀ visit ∈ visits, gapCode visit.answer ≠ none →
    visit.directory.displayPath.utf8ByteSize ≤ 65535

theorem Admitted.shortPaths {last : ScanState}
    (admitted : Admitted (writerEnv formatWin32Error durationMs) target last) :
    ShortPaths target root last.visits where
  target := by
    rcases admitted.root with ⟨dir, named, accepts⟩
    right
    rw [← named]
    exact encodable_of_accepts accepts dir.name List.mem_cons_self
  gaps := by
    intro visit visitMem isGap
    rcases Option.ne_none_iff_exists'.mp isGap with ⟨errorCode, code⟩
    exact encodable_of_accepts (admitted.gaps visit visitMem errorCode code) _ List.mem_cons_self

/-- What has been accepted had short paths. -/
theorem shortPaths_of_returned {term : TerminalObservation} {state : ScanState}
    (ends : ScanEnds (writerEnv formatWin32Error durationMs) target root
      (Admitted (writerEnv formatWin32Error durationMs) target) (.returned term state)) :
    ShortPaths target root state.visits := by
  have visits : ∀ outcome last,
      ScanEnd.returned term state = settle (writerEnv formatWin32Error durationMs) outcome last →
        state.visits = last.visits := by
    intro outcome last same
    rw [(settle_returned same.symm).2]
    rfl
  rcases (⟨_, rfl⟩ : ∃ ended, ended = ScanEnd.returned term state) with ⟨ended, same⟩
  rw [← same] at ends
  cases ends with
  | cancelled early =>
      refine ⟨Or.inl early, ?_⟩
      rw [visits _ _ same.symm]
      intro visit visitMem
      cases visitMem
  | refused errorCode errorMessage goesOn text =>
      unfold refuseTarget at same
      split at same
      · cases same
      · next refused gap =>
          have path := encodable_of_accepts (accepts_writeRecord gap) _ List.mem_cons_self
          refine ⟨Or.inr path, ?_⟩
          rw [visits _ _ same.symm, recordGap_ok gap]
          intro visit visitMem
          cases visitMem
  | rootRefused goesOn fails => cases same
  | traversed ends =>
      cases ends with
      | finished here exhausted =>
          rw [visits _ _ same.symm]
          exact here.shortPaths
      | cancelledBefore here top =>
          rw [visits _ _ same.symm]
          exact here.shortPaths
      | @cancelledWithin last currentDir stack handle here top =>
          have short : ShortPaths target root last.visits := here.shortPaths
          rw [visits _ _ same.symm]
          refine ⟨short.target, ?_⟩
          intro visit visitMem isGap
          rcases List.mem_append.mp visitMem with old | new
          · exact short.gaps visit old isGap
          · rw [List.mem_singleton] at new
            subst new
            exact absurd rfl isGap
      | refused handle here top fails => cases same

/-- With short paths, names and texts nothing is refused. -/
theorem settled_of_shortPaths
    (texts : ∀ errorCode, (formatWin32Error errorCode).utf8ByteSize ≤ 65535)
    (ends : ScanEnds (writerEnv formatWin32Error durationMs) target root
      (Admitted (writerEnv formatWin32Error durationMs) target) ended)
    (names : ∀ visit ∈ ended.state.visits, ∀ fact ∈ visit.answer.facts,
      fact.name.utf8ByteSize ≤ 65535) (short : ShortPaths target root ended.state.visits) :
    Settled ended := by
  have targetFits : root.cancelled = false → target.displayPath.utf8ByteSize ≤ 65535 := by
    intro goesOn
    rcases short.target with early | fits
    · exact absurd (early.symm.trans goesOn) (by decide)
    · exact fits
  cases ends with
  | cancelled early => exact settled_settle _ _
  | refused errorCode errorMessage goesOn text =>
      unfold refuseTarget
      split
      · next stopped fails =>
          apply absurd _ (not_encodable_of_refuses (refuses_writeRecord fails))
          have messageFits : errorMessage.utf8ByteSize ≤ 65535 := by
            rcases text with rfl | rfl
            · exact texts errorCode
            · decide
          intro s sMem
          rcases List.mem_cons.mp sMem with rfl | last
          · exact targetFits goesOn
          · rw [List.mem_singleton.mp last]
            exact messageFits
      · exact settled_settle _ _
  | rootRefused goesOn fails =>
      rcases bind_eq_error fails with refused | ⟨wrote, _, impossible⟩
      · apply absurd _ (not_encodable_of_refuses (refuses_writeRecord refused))
        intro s sMem
        rw [List.mem_singleton.mp sMem]
        exact targetFits goesOn
      · cases impossible
  | traversed ends =>
      cases ends with
      | finished here exhausted => exact settled_settle _ _
      | cancelledBefore here top => exact settled_settle _ _
      | cancelledWithin handle here top => exact settled_settle _ _
      | @refused last currentDir stack enumeration err state handle here top fails =>
          have visits : state.visits = (visited last stack currentDir
              (selectClass last.enumClass handle) enumeration).visits :=
            (absorb_keeps _ (untouched_visits _ _) currentDir enumeration rfl).error _ fails
          have present : (⟨currentDir, (selectClass last.enumClass handle).1,
              enumeration⟩ : Visit) ∈ state.visits := by
            rw [visits]
            exact List.mem_append_right _ (List.mem_singleton_self _)
          rcases refuses_absorb fails with
            ⟨errorCode, code, refused⟩ | ⟨fact, factMem, record, refused, strings⟩
          · apply absurd _ (not_encodable_of_refuses refused)
            have isGap : gapCode enumeration ≠ none := by
              rw [code]
              exact Option.some_ne_none errorCode
            intro s sMem
            rcases List.mem_cons.mp sMem with rfl | last
            · exact short.gaps _ present isGap
            · rw [List.mem_singleton.mp last]
              exact texts errorCode
          · apply absurd _ (not_encodable_of_refuses refused)
            unfold Encodable
            rw [strings]
            intro s sMem
            rw [List.mem_singleton.mp sMem]
            exact names _ present fact factMem

/-- A run settles exactly when the paths it has to write are short. -/
theorem settled_iff_shortPaths (texts : ∀ errorCode, utf16Length (formatWin32Error errorCode) ≤ 512)
    (ran : scanDirectory (writerEnv formatWin32Error durationMs) target root answers = some ended)
    (names : ∀ visit ∈ ended.state.visits, ∀ fact ∈ visit.answer.facts,
      utf16Length fact.name ≤ 255) :
    Settled ended ↔ ShortPaths target root ended.state.visits := by
  have ends : ScanEnds (writerEnv formatWin32Error durationMs) target root
      (Admitted (writerEnv formatWin32Error durationMs) target) ended := by
    refine scanDirectory_ends ?_ ?_ ran
    · intro data reparseTag state _ entered
      exact admitted_enterRoot entered
    · intro state currentDir stack handle enumeration next here _ _ absorbed
      exact here.absorb absorbed
  constructor
  · rintro ⟨term, state, rfl, _⟩
    exact shortPaths_of_returned ends
  · intro short
    refine settled_of_shortPaths ?_ ends ?_ short
    · intro errorCode
      have bytes := utf8ByteSize_le (formatWin32Error errorCode)
      have units := texts errorCode
      omega
    · intro visit visitMem fact factMem
      have bytes := utf8ByteSize_le fact.name
      have units := names visit visitMem fact factMem
      omega

end Settles

end Worker

end PigTree
