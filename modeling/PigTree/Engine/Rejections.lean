import PigTree.Engine.ContentStreams

/-!
# Rejected records

A rejected record can switch the builder from dense to sparse numbers, and nothing else
that later answers depend on. Both ways of resolving identifiers agree until the dense
numbers have run out, where the word after the last one wraps to `0`.
-/

namespace PigTree

open Foundation EntryObservation

namespace GraphBuilder

variable {rt rt' : Runtime} {builder builder' next : GraphBuilder} {target : String}
  {records : List ObservationRecord} {record : ObservationRecord}
  {answer : Except GraphBuildError Unit}

/-- Feed records whatever the answers are. -/
def ingestEach (builder : GraphBuilder) :
    List ObservationRecord → Checked (List (Except GraphBuildError Unit) × GraphBuilder)
  | [] => .ok ([], builder)
  | record :: records => do
      let (answer, next) ← builder.ingestRecord record
      let (answers, final) ← next.ingestEach records
      return (answer :: answers, final)

/-! ### When a builder leaves the dense mode -/

/-- An entry that passes the checks on its root position but is not next in sequence. -/
def leavesDense (builder : GraphBuilder) (entry : EntryObservation) : Bool :=
  builder.terminal.isNone ∧ builder.entries ≠ [] ∧ entry.entryId ≠ entry.parentId ∧
    entry.parentId ≠ 0 ∧ entry.entryId ≠ 1 ∧
      entry.entryId ≠ UInt32.ofNat (builder.entries.length + 1)

/-- Whether a record switches a dense builder to the sparse mode. -/
def switches (builder : GraphBuilder) (record : ObservationRecord) : Bool :=
  record.entry?.any builder.leavesDense

theorem isDense_linkChild {parentIdx : ℕ} (linked : builder.linkChild parentIdx = .ok next) :
    next.isDense = builder.isDense := by
  rw [linkChild, Checked.bind_eq_ok] at linked
  rcases linked with ⟨first, _, linked⟩
  split at linked
  · simp only [Checked.bind_eq_ok, Checked.pure_eq_ok] at linked
    rcases linked with ⟨_, _, _, _, linked⟩
    rw [← Except.ok.inj linked]
  · simp only [Checked.bind_eq_ok, Checked.pure_eq_ok] at linked
    rcases linked with ⟨_, _, _, _, _, _, linked⟩
    rw [← Except.ok.inj linked]

theorem isDense_insertBelowRoot {id parentId : UInt32} {entry : CompactEntry} {selfAlloc : UInt64}
    (ran : builder.insertBelowRoot id parentId entry selfAlloc = .ok (answer, next)) :
    next.isDense = builder.isDense := by
  unfold insertBelowRoot at ran
  split at ran
  · cases ran
    rfl
  split at ran
  · cases ran
    rfl
  rw [Checked.bind_eq_ok] at ran
  rcases ran with ⟨parent, _, ran⟩
  split at ran
  · cases ran
    rfl
  rw [Checked.bind_eq_ok] at ran
  rcases ran with ⟨linked, link, ran⟩
  cases ran
  have kept := isDense_linkChild link
  exact kept

/-- An insertion leaves the dense mode exactly at an entry out of sequence. -/
theorem isDense_validateAndInsertEntry (unsettled : builder.terminal = none)
    (entry : EntryObservation) (ran : builder.validateAndInsertEntry entry.entryId entry.parentId
      entry.compact entry.selfAlloc = .ok (answer, next)) :
    next.isDense = (builder.isDense && !builder.leavesDense entry) := by
  have stays : ∀ {reason : Prop}, ¬reason →
      (builder.leavesDense entry = true → reason) →
        builder.isDense = (builder.isDense && !builder.leavesDense entry) := by
    intro reason fails needs
    have no : builder.leavesDense entry = false := by
      apply Bool.eq_false_iff.mpr
      exact fun leaves => fails (needs leaves)
    rw [no, Bool.not_false, Bool.and_true]
  unfold validateAndInsertEntry at ran
  split at ran
  · next self =>
      cases ran
      exact stays (not_not_intro self) (fun leaves => (of_decide_eq_true leaves).2.2.1)
  split at ran
  · next first =>
      have empty : builder.entries = [] := List.length_eq_zero_iff.mp first
      have kept : next.isDense = builder.isDense := by
        split at ran
        · cases ran
          rfl
        split at ran
        · cases ran
          rfl
        · cases ran
          rfl
      rw [kept]
      exact stays (not_not_intro empty) (fun leaves => (of_decide_eq_true leaves).2.1)
  split at ran
  · next misplaced =>
      cases ran
      exact stays (not_not_intro misplaced)
        (fun leaves => not_or.mpr ⟨(of_decide_eq_true leaves).2.2.2.1,
          (of_decide_eq_true leaves).2.2.2.2.1⟩)
  next notSelf notFirst placed =>
    rw [isDense_insertBelowRoot ran, isDense_switchToSparse]
    have some : builder.entries ≠ [] := fun none => notFirst (List.length_eq_zero_iff.mpr none)
    have leaves : builder.leavesDense entry =
        !decide (entry.entryId = UInt32.ofNat (builder.entries.length + 1)) := by
      rcases not_or.mp placed with ⟨below, notOne⟩
      unfold leavesDense
      simp [unsettled, some, notSelf, below, notOne]
    rw [leaves, Bool.not_not]

/-- The remembered directory has no part in it. -/
theorem isDense_visiting {visited : UInt32} (unsettled : builder.terminal = none)
    (entry : EntryObservation) (ran : { builder with currentDirId := visited }.validateAndInsertEntry
      entry.entryId entry.parentId entry.compact entry.selfAlloc = .ok (answer, next)) :
    next.isDense = (builder.isDense && !builder.leavesDense entry) := by
  have waiting : { builder with currentDirId := visited }.terminal = none := unsettled
  exact isDense_validateAndInsertEntry waiting entry ran

theorem isDense_onAccepted {inserted : Ingest} {change : GraphBuilder → GraphBuilder} {mode : Bool}
    (keeps : ∀ accepted, (change accepted).isDense = accepted.isDense)
    (inserts : ∀ answer after, inserted = .ok (answer, after) → after.isDense = mode)
    (ran : onAccepted inserted change = .ok (answer, next)) : next.isDense = mode := by
  rw [onAccepted, Checked.bind_eq_ok] at ran
  rcases ran with ⟨⟨inner, after⟩, inserted, rest⟩
  cases inner with
  | error err =>
      cases rest
      exact inserts _ _ inserted
  | ok accepted =>
      cases rest
      rw [keeps]
      exact inserts _ _ inserted

/-- A record leaves the dense mode exactly when it switches. -/
theorem isDense_ingestRecord (ran : builder.ingestRecord record = .ok (answer, next)) :
    next.isDense = (builder.isDense && !builder.switches record) := by
  have stays : builder.switches record = false →
      builder.isDense = (builder.isDense && !builder.switches record) := by
    intro no
    rw [no, Bool.not_false, Bool.and_true]
  unfold ingestRecord at ran
  split at ran
  · next settled =>
      cases ran
      apply stays
      rw [switches]
      cases record.entry? with
      | none => rfl
      | some entry =>
          apply decide_eq_false
          rintro ⟨unsettled, _⟩
          rw [Option.isNone_iff_eq_none.mp unsettled] at settled
          cases settled
  next open_ =>
  have unsettled : builder.terminal = none := by simpa using open_
  cases record with
  | directory dir =>
      have keeps : ∀ accepted, (recordDirectory dir accepted).isDense = accepted.isDense := fun _ => rfl
      refine isDense_onAccepted keeps ?_ ran
      intro _ _ inserted
      exact isDense_visiting unsettled (.directory dir) inserted
  | file file =>
      have keeps : ∀ accepted, (recordFile file accepted).isDense = accepted.isDense := fun _ => rfl
      refine isDense_onAccepted keeps ?_ ran
      intro _ _ inserted
      exact isDense_visiting unsettled (.file file) inserted
  | special special =>
      have keeps : ∀ accepted, (recordSpecial accepted).isDense = accepted.isDense := fun _ => rfl
      refine isDense_onAccepted keeps ?_ ran
      intro _ _ inserted
      exact isDense_visiting unsettled (.special special) inserted
  | contentStream stream =>
      dsimp only [ingestStream] at ran
      split at ran
      · cases ran
        exact stays rfl
      · cases ran
        exact stays rfl
  | coverageGap gap =>
      cases ran
      exact stays rfl
  | terminal term =>
      dsimp only [ingestTerminal] at ran
      split at ran
      · cases ran
        exact stays rfl
      · cases ran
        exact stays rfl

/-! ### Every answer -/

/-- An entry with the identifier `0` that reaches a dense builder out of numbers. -/
def Exhausted (builder : GraphBuilder) (record : ObservationRecord) : Prop :=
  builder.isDense = true ∧ builder.terminal = none ∧ builder.entries.length + 1 = 2 ^ 32 ∧
    ∃ entry, record.entry? = some entry ∧ entry.entryId = 0 ∧ entry.parentId ≠ 0

/-- A builder that still has numbers answers with the verdict on the record. -/
theorem Represents.answer_of_not_exhausted (represents : Represents target builder records)
    (numbered : ¬builder.Exhausted record) :
    ∃ next, builder.ingestRecord record = .ok (verdict builder records record, next) := by
  by_cases unsettled : builder.terminal = none
  · apply represents.ingestRecord_answer_of_room
    intro entry described differ dense sequence
    by_contra full
    have counted := represents.core.length_entries
    have few := Indexed.length_lt (dense ▸ represents.core.indexed)
    have last : builder.entries.length + 1 = 2 ^ 32 := by omega
    have zero : entry.entryId = 0 := by
      rw [sequence, last]
      rfl
    exact numbered ⟨dense, unsettled, last, entry, described, zero, fun above =>
      differ (zero.trans above.symm)⟩
  · have settled : builder.terminal.isSome := Option.isSome_iff_ne_none.mpr unsettled
    refine ⟨builder, ?_⟩
    unfold GraphBuilder.ingestRecord verdict
    rw [if_pos settled, if_pos settled]
    rfl

/-- A dense builder out of numbers takes the identifier `0` for a used one. -/
theorem answer_of_exhausted (exhausted : builder.Exhausted record) :
    ∃ next, builder.ingestRecord record = .ok (.error (.duplicateEntryId 0), next) := by
  rcases exhausted with ⟨dense, unsettled, last, entry, described, zero, below⟩
  have inserted : ∀ visited : UInt32, ∀ compact selfAlloc,
      { builder with currentDirId := visited }.validateAndInsertEntry entry.entryId entry.parentId
        compact selfAlloc =
          .ok (.error (.duplicateEntryId 0), { builder with currentDirId := visited }) := by
    intro visited compact selfAlloc
    have notSelf : entry.entryId ≠ entry.parentId := fun same => below (same.symm.trans zero)
    have notFirst : ¬{ builder with currentDirId := visited }.entries.length = 0 := by
      show ¬builder.entries.length = 0
      omega
    have placed : ¬(entry.parentId = 0 ∨ entry.entryId = 1) := by
      rintro (above | one)
      · exact below above
      · rw [zero] at one
        cases one
    have stays : { builder with currentDirId := visited }.switchToSparse entry.entryId =
        { builder with currentDirId := visited } := by
      apply if_neg
      rintro ⟨_, moved⟩
      apply moved
      show entry.entryId = UInt32.ofNat (builder.entries.length + 1)
      rw [last, zero]
      rfl
    have used : { builder with currentDirId := visited }.isDuplicate entry.entryId = true := by
      unfold isDuplicate
      rw [if_pos dense, zero]
      exact decide_eq_true (UInt32.zero_le)
    rw [validateAndInsertEntry, if_neg notSelf, if_neg notFirst, if_neg placed, stays,
      insertBelowRoot, if_pos used, zero]
    rfl
  have waiting : ¬builder.terminal.isSome = true := by simp [unsettled]
  unfold ingestRecord
  rw [if_neg waiting]
  cases record with
  | directory dir =>
      cases described
      exact onAccepted_answer _ ⟨_, inserted _ _ _⟩
  | file file =>
      cases described
      exact onAccepted_answer _ ⟨_, inserted _ _ _⟩
  | special special =>
      cases described
      exact onAccepted_answer _ ⟨_, inserted _ _ _⟩
  | contentStream stream => cases described
  | coverageGap gap => cases described
  | terminal term => cases described

/-! ### Two builders of the same records -/

/-- Two builders that have accepted the same records, whatever they have rejected. -/
structure Twins (target : String) (records : List ObservationRecord)
    (builder builder' : GraphBuilder) : Prop where
  left : Reached target builder records
  right : Reached target builder' records

namespace Twins

variable (twins : Twins target records builder builder')

include twins

theorem length_eq : builder.entries.length = builder'.entries.length := by
  rw [twins.left.represents.core.length_entries, twins.right.represents.core.length_entries]

theorem terminal_eq : builder.terminal = builder'.terminal := by
  rw [twins.left.represents.terminal_eq, twins.right.represents.terminal_eq]

theorem verdict_eq : builder.verdict records record = builder'.verdict records record := by
  have tally := twins.left.represents.tally
  have tally' := twins.right.represents.tally
  have mismatch : ∀ term, builder.terminalMismatch term = builder'.terminalMismatch term := by
    apply terminalMismatch_congr
    · rw [tally.dirCount_eq, tally'.dirCount_eq]
    · rw [tally.fileCount_eq, tally'.fileCount_eq]
    · apply UInt64.toNat_inj.mp
      rw [tally.logical_eq, tally'.logical_eq]
    · apply UInt64.toNat_inj.mp
      rw [tally.allocated_eq, tally'.allocated_eq]
    · rw [twins.left.represents.gaps_eq, twins.right.represents.gaps_eq]
  unfold verdict
  rw [twins.terminal_eq]
  simp only [mismatch]

theorem switches_eq : builder.switches record = builder'.switches record := by
  have empties : builder.entries = [] ↔ builder'.entries = [] := by
    rw [← List.length_eq_zero_iff, twins.length_eq, List.length_eq_zero_iff]
  have same : builder.leavesDense = builder'.leavesDense := by
    funext entry
    simp only [leavesDense, twins.length_eq, twins.terminal_eq, ne_eq, empties]
  rw [switches, switches, same]

/-- Both have answered alike and remain twins. -/
theorem step {next' : GraphBuilder} (ran : builder.ingestRecord record = .ok (answer, next))
    (ran' : builder'.ingestRecord record = .ok (answer, next')) :
    ∃ accepted, Twins target accepted next next' := by
  cases answer with
  | ok accepted => exact ⟨_, twins.left.accept ran, twins.right.accept ran'⟩
  | error err => exact ⟨_, twins.left.reject ran, twins.right.reject ran'⟩

/-- Twins answer alike while they are in the same mode, or numbers are left. -/
theorem answer_eq (safe : builder'.isDense = builder.isDense ∨ ¬builder.Exhausted record)
    (later : builder'.isDense = builder.isDense ∨ builder'.isDense = false) :
    ∃ answer next next', builder.ingestRecord record = .ok (answer, next) ∧
      builder'.ingestRecord record = .ok (answer, next') := by
  by_cases exhausted : builder.Exhausted record
  · have same := safe.resolve_right (not_not_intro exhausted)
    have exhausted' : builder'.Exhausted record := by
      rcases exhausted with ⟨dense, unsettled, last, zero⟩
      exact ⟨same.trans dense, twins.terminal_eq ▸ unsettled, twins.length_eq ▸ last, zero⟩
    rcases answer_of_exhausted exhausted with ⟨next, ran⟩
    rcases answer_of_exhausted exhausted' with ⟨next', ran'⟩
    exact ⟨_, next, next', ran, ran'⟩
  · have numbered' : ¬builder'.Exhausted record := by
      rintro ⟨dense, unsettled, last, zero⟩
      rcases later with same | sparse
      · exact exhausted ⟨same.symm.trans dense, twins.terminal_eq.trans unsettled,
          twins.length_eq ▸ last, zero⟩
      · rw [sparse] at dense
        cases dense
    rcases twins.left.represents.answer_of_not_exhausted exhausted with ⟨next, ran⟩
    rcases twins.right.represents.answer_of_not_exhausted numbered' with ⟨next', ran'⟩
    rw [← twins.verdict_eq] at ran'
    exact ⟨_, next, next', ran, ran'⟩

/-- At the end of the dense numbers a sparse twin gives another answer. -/
theorem answer_ne (exhausted : builder.Exhausted record) (sparse : builder'.isDense = false)
    {answer' : Except GraphBuildError Unit} {next' : GraphBuilder}
    (ran : builder.ingestRecord record = .ok (answer, next))
    (ran' : builder'.ingestRecord record = .ok (answer', next')) : answer ≠ answer' := by
  have numbered' : ¬builder'.Exhausted record := by
    rintro ⟨dense, _⟩
    rw [sparse] at dense
    cases dense
  rcases answer_of_exhausted exhausted with ⟨_, answered⟩
  rcases twins.right.represents.answer_of_not_exhausted numbered' with ⟨_, answered'⟩
  rw [answered] at ran
  rw [answered', ← twins.verdict_eq] at ran'
  rcases exhausted with ⟨dense, unsettled, last, entry, described, zero, below⟩
  cases ran
  cases ran'
  have core := twins.left.represents.core
  have someEntries : entriesOf records ≠ [] := by
    intro none
    rw [core.length_entries, none] at last
    cases last
  have unused : entry.entryId ∉ (entriesOf records).map entryId := by
    intro used
    rcases List.mem_map.mp used with ⟨other, otherMem, named⟩
    rcases List.mem_iff_getElem?.mp otherMem with ⟨idx, found⟩
    have number := core.indexed.dense dense idx other found
    rw [named, zero] at number
    cases number
  have judged : verdict builder records record = entryVerdict (entriesOf records) entry := by
    cases record with
    | directory dir =>
        cases described
        simp [verdict, unsettled]
    | file file =>
        cases described
        simp [verdict, unsettled]
    | special special =>
        cases described
        simp [verdict, unsettled]
    | contentStream stream => cases described
    | coverageGap gap => cases described
    | terminal term => cases described
  have notSelf : entry.entryId ≠ entry.parentId := fun same => below (same.symm.trans zero)
  have placed : ¬(entry.parentId = 0 ∨ entry.entryId = 1) := by
    rintro (above | one)
    · exact below above
    · rw [zero] at one
      cases one
  rw [judged, entryVerdict, if_neg notSelf, if_neg someEntries, if_neg placed, if_neg unused]
  intro same
  split at same
  · cases same
  · split at same
    · cases same
    · cases same

end Twins

/-! ### A continuation -/

/-- Somewhere in the continuation the dense numbers have run out at an entry with the
identifier `0`. -/
def Exhausts : GraphBuilder → List ObservationRecord → Prop
  | _, [] => False
  | builder, record :: more =>
      builder.Exhausted record ∨
        ∃ answer next, builder.ingestRecord record = .ok (answer, next) ∧ next.Exhausts more

theorem ingestEach_cons {more : List ObservationRecord} {answers : List (Except GraphBuildError Unit)}
    {final : GraphBuilder} (ran : builder.ingestRecord record = .ok (answer, next))
    (rest : next.ingestEach more = .ok (answers, final)) :
    builder.ingestEach (record :: more) = .ok (answer :: answers, final) := by
  rw [ingestEach, ran, Checked.ok_bind]
  dsimp only
  rw [rest]
  rfl

theorem ingestEach_cons_inv {more : List ObservationRecord}
    {answers : List (Except GraphBuildError Unit)} {final : GraphBuilder}
    (ran : builder.ingestRecord record = .ok (answer, next))
    (fed : builder.ingestEach (record :: more) = .ok (answers, final)) :
    ∃ others, answers = answer :: others ∧ next.ingestEach more = .ok (others, final) := by
  rw [ingestEach, ran, Checked.ok_bind] at fed
  dsimp only at fed
  rw [Checked.bind_eq_ok] at fed
  rcases fed with ⟨⟨others, last⟩, rest, result⟩
  cases result
  exact ⟨others, rfl, rest⟩

/-- Twins in the same mode, or with numbers left throughout, answer a continuation alike. -/
theorem Twins.ingestEach_eq (twins : Twins target records builder builder')
    {more : List ObservationRecord} (safe : builder'.isDense = builder.isDense ∨
      builder'.isDense = false ∧ ¬builder.Exhausts more) :
    ∃ answers final final' accepted, builder.ingestEach more = .ok (answers, final) ∧
      builder'.ingestEach more = .ok (answers, final') ∧ Twins target accepted final final' := by
  induction more generalizing builder builder' records with
  | nil => exact ⟨[], builder, builder', records, rfl, rfl, twins⟩
  | cons record more ih =>
      have now : builder'.isDense = builder.isDense ∨ ¬builder.Exhausted record :=
        safe.imp_right (fun both exhausted => both.2 (Or.inl exhausted))
      rcases twins.answer_eq now (safe.imp_right And.left) with ⟨answer, next, next', ran, ran'⟩
      rcases twins.step ran ran' with ⟨accepted, after⟩
      have mode := isDense_ingestRecord ran
      have mode' := isDense_ingestRecord ran'
      rw [← twins.switches_eq] at mode'
      have later : next'.isDense = next.isDense ∨ next'.isDense = false ∧ ¬next.Exhausts more := by
        rcases safe with same | ⟨sparse, numbered⟩
        · left
          rw [mode, mode', same]
        · right
          refine ⟨by rw [mode', sparse, Bool.false_and], ?_⟩
          exact fun exhausts => numbered (Or.inr ⟨answer, next, ran, exhausts⟩)
      rcases ih after later with ⟨answers, final, final', last, fed, fed', end_⟩
      exact ⟨_, final, final', last, ingestEach_cons ran fed, ingestEach_cons ran' fed', end_⟩

/-- A sparse twin gives another answer somewhere once the dense numbers run out. -/
theorem Twins.ingestEach_ne (twins : Twins target records builder builder')
    (sparse : builder'.isDense = false) {more : List ObservationRecord}
    (exhausts : builder.Exhausts more) {answers answers' : List (Except GraphBuildError Unit)}
    {final final' : GraphBuilder} (fed : builder.ingestEach more = .ok (answers, final))
    (fed' : builder'.ingestEach more = .ok (answers', final')) : answers ≠ answers' := by
  induction more generalizing builder builder' records answers answers' with
  | nil => exact exhausts.elim
  | cons record more ih =>
      have ingested : ∀ before : GraphBuilder, (∃ seen, Reached target before seen) →
          ∃ answer after, before.ingestRecord record = .ok (answer, after) := by
        rintro before ⟨seen, reached⟩
        have outcome := reached.represents.ingestRecord record
        cases ran : before.ingestRecord record with
        | error fault =>
            rw [ran] at outcome
            cases outcome
        | ok result => exact ⟨result.1, result.2, rfl⟩
      rcases ingested builder ⟨_, twins.left⟩ with ⟨answer, next, ran⟩
      rcases ingested builder' ⟨_, twins.right⟩ with ⟨answer', next', ran'⟩
      rcases ingestEach_cons_inv ran fed with ⟨others, rfl, rest⟩
      rcases ingestEach_cons_inv ran' fed' with ⟨others', rfl, rest'⟩
      intro same
      rw [List.cons.injEq] at same
      rcases exhausts with exhausted | ⟨_, _, again, exhausts⟩
      · exact twins.answer_ne exhausted sparse ran ran' same.1
      · rw [ran] at again
        cases again
        rw [← same.1] at ran'
        rcases twins.step ran ran' with ⟨accepted, after⟩
        have sparse' := isDense_ingestRecord ran'
        rw [sparse, Bool.false_and] at sparse'
        exact ih after sparse' exhausts rest rest' same.2

/-! ### The same graph -/

/-- Two graphs that answer every query alike. -/
structure Indistinguishable (left right : DirectoryGraph) : Prop extends
    SameAccounting left right where
  streamsForEntry : ∀ id, left.streamsForEntry id = right.streamsForEntry id
  getChildrenPage : ∀ parentId offset limit,
    left.getChildrenPage parentId offset limit = right.getChildrenPage parentId offset limit

/-- Two ways of settling that end alike. -/
inductive SettleAlike : Checked (Except GraphBuildError DirectoryGraph) →
    Checked (Except GraphBuildError DirectoryGraph) → Prop
  | delivered (left right : DirectoryGraph) (alike : Indistinguishable left right) :
      SettleAlike (.ok (.ok left)) (.ok (.ok right))
  | rejected (err : GraphBuildError) : SettleAlike (.ok (.error err)) (.ok (.error err))
  | aborted (left right : Fault) : SettleAlike (.error left) (.error right)

theorem Twins.indistinguishable (twins : Twins target records builder builder')
    (lowercase : rt.toLowercase = rt'.toLowercase) {graph graph' : DirectoryGraph}
    (ran : builder.finish rt = .ok (.ok graph)) (ran' : builder'.finish rt' = .ok (.ok graph')) :
    Indistinguishable graph graph' where
  toSameAccounting :=
    sameAccounting twins.left twins.right rfl twins.terminal_eq rfl lowercase ran ran'
  streamsForEntry := by
    intro id
    have presented := twins.left.presented ran
    have presented' := twins.right.presented ran'
    by_cases known : id ≠ 0 ∧ id ∈ (entriesOf records).map entryId
    · rcases List.mem_map.mp known.2 with ⟨entry, entryMem, rfl⟩
      rw [twins.left.streamsForEntry_eq ran entryMem known.1,
        twins.right.streamsForEntry_eq ran' entryMem known.1]
      rfl
    · have absent : id = 0 ∨ id ∉ (entriesOf records).map entryId := by
        rcases not_and_or.mp known with zero | unknown
        · exact Or.inl (not_not.mp zero)
        · exact Or.inr unknown
      rw [DirectoryGraph.streamsForEntry, DirectoryGraph.streamsForEntry,
        presented.get_eq_none absent, presented'.get_eq_none absent]
  getChildrenPage := by
    intro parentId offset limit
    have keys : ∀ child, twins.left.snapshot.sortKey rt child =
        twins.right.snapshot.sortKey rt' child := by
      intro child
      rw [Snapshot.sortKey, Snapshot.sortKey, lowercase]
      rfl
    rw [twins.left.getChildrenPage_eq ran, twins.right.getChildrenPage_eq ran', Snapshot.page,
      Snapshot.page, Snapshot.childIds, Snapshot.childIds, Snapshot.orderedChildren,
      Snapshot.orderedChildren]
    simp only [keys]
    rfl

/-- An answer of the settlement that is not a graph depends on the entries and the terminal
record only. -/
theorem finish_eq_error_iff {err : GraphBuildError} : builder.finish rt = .ok (.error err) ↔
    builder.terminal = none ∧ err = .missingTerminal ∨
      builder.entries = [] ∧ err = .invalidRoot 0 0 ∧
        ∃ term, builder.terminal = some term ∧ term.outcome = .finished := by
  unfold finish
  cases builder.terminal with
  | none => simp [eq_comm]
  | some term =>
      by_cases none : builder.entries = []
      · by_cases finished : term.outcome = .finished
        · simp [none, finished, eq_comm]
        · simp [none, finished]
      · simp only [none, if_false, reduceCtorEq, false_and, or_self, iff_false]
        intro ran
        rw [Checked.bind_eq_ok] at ran
        rcases ran with ⟨aggregates, _, result⟩
        cases result

theorem Twins.settleAlike (twins : Twins target records builder builder')
    (lowercase : rt.toLowercase = rt'.toLowercase) :
    SettleAlike (builder.finish rt) (builder'.finish rt') := by
  have empties : builder.entries = [] ↔ builder'.entries = [] := by
    rw [← List.length_eq_zero_iff, twins.length_eq, List.length_eq_zero_iff]
  have errors : ∀ err, builder.finish rt = .ok (.error err) ↔
      builder'.finish rt' = .ok (.error err) := by
    intro err
    rw [finish_eq_error_iff, finish_eq_error_iff, twins.terminal_eq, empties]
  cases ran : builder.finish rt with
  | ok result =>
      cases result with
      | ok graph =>
          rcases delivers_of_sameEntries twins.left twins.right rfl twins.terminal_eq rt' ran with
            ⟨graph', ran'⟩
          rw [ran']
          exact .delivered graph graph' (twins.indistinguishable lowercase ran ran')
      | error err =>
          rw [(errors err).mp ran]
          exact .rejected err
  | error fault =>
      cases ran' : builder'.finish rt' with
      | ok result =>
          cases result with
          | ok graph' =>
              rcases delivers_of_sameEntries twins.right twins.left rfl twins.terminal_eq.symm rt
                ran' with ⟨graph, delivered⟩
              rw [ran] at delivered
              cases delivered
          | error err =>
              rw [(errors err).mpr ran'] at ran
              cases ran
      | error fault' => exact .aborted fault fault'

/-- Two builders that answer a continuation alike, record by record, and settle alike. -/
def ContinueAlike (rt rt' : Runtime) (builder builder' : GraphBuilder)
    (more : List ObservationRecord) : Prop :=
  ∃ answers final final', builder.ingestEach more = .ok (answers, final) ∧
    builder'.ingestEach more = .ok (answers, final') ∧
      SettleAlike (final.finish rt) (final'.finish rt')

/-- A rejected record leaves a trace only where it has made the builder sparse and the
continuation exhausts the dense numbers before an entry with the identifier `0`. -/
theorem rejection_traceless_iff (reached : Reached target builder records) {err : GraphBuildError}
    (rejected : builder.ingestRecord record = .ok (.error err, next))
    (lowercase : rt.toLowercase = rt'.toLowercase) (more : List ObservationRecord) :
    ContinueAlike rt rt' builder next more ↔
      ¬(builder.isDense = true ∧ builder.switches record = true ∧ builder.Exhausts more) := by
  have twins : Twins target records builder next := ⟨reached, reached.reject rejected⟩
  have mode := isDense_ingestRecord rejected
  constructor
  · rintro ⟨answers, final, final', fed, fed', _⟩ ⟨dense, switched, exhausts⟩
    have sparse : next.isDense = false := by rw [mode, switched, Bool.not_true, Bool.and_false]
    exact twins.ingestEach_ne sparse exhausts fed fed' rfl
  · intro safe
    have modes : next.isDense = builder.isDense ∨
        next.isDense = false ∧ ¬builder.Exhausts more := by
      cases dense : builder.isDense with
      | false =>
          left
          rw [mode, dense, Bool.false_and]
      | true =>
          cases switched : builder.switches record with
          | false =>
              left
              rw [mode, dense, switched]
              rfl
          | true =>
              right
              rw [mode, dense, switched]
              exact ⟨rfl, fun exhausts => safe ⟨dense, switched, exhausts⟩⟩
    rcases twins.ingestEach_eq modes with ⟨answers, final, final', accepted, fed, fed', end_⟩
    exact ⟨answers, final, final', fed, fed', end_.settleAlike lowercase⟩

theorem rejection_traceless_iff_shared : ∃ builder err next,
    Reached "c:" builder (Sample.shared.take 3) ∧
      builder.ingestRecord (Sample.file 9 8 "lost" 5 8 none) = .ok (.error err, next) ∧
        (ContinueAlike Sample.runtime Sample.runtime builder next (Sample.shared.drop 3) ↔
          ¬(builder.isDense = true ∧
            builder.switches (Sample.file 9 8 "lost" 5 8 none) = true ∧
              builder.Exhausts (Sample.shared.drop 3))) := by
  have fedFirst : ∃ builder, (GraphBuilder.new "c:").ingestAll (Sample.shared.take 3) =
      .ok (.ok (), builder) := ⟨_, rfl⟩
  rcases fedFirst with ⟨builder, fedFirst⟩
  have rejected : ∃ err next, builder.ingestRecord (Sample.file 9 8 "lost" 5 8 none) =
      .ok (.error err, next) := by
    cases fedFirst
    exact ⟨_, _, rfl⟩
  rcases rejected with ⟨err, next, rejected⟩
  exact ⟨builder, err, next, Reached.of_ingestAll fedFirst, rejected,
    rejection_traceless_iff (Reached.of_ingestAll fedFirst) rejected rfl _⟩

/-! ### A builder out of numbers -/

/-- A file whose identifier is used, and one with the identifier `0`. -/
def Sample.again : ObservationRecord := Sample.file 2 1 "again" 0 0 none

def Sample.lateZero : ObservationRecord := Sample.file 0 1 "late" 0 0 none

/-- Files in sequence keep a builder dense until the numbers run out. -/
theorem exists_dense {count : ℕ} (few : count + 1 < 2 ^ 32) : ∃ builder records,
    Reached "c:" builder records ∧ builder.isDense = true ∧ builder.terminal = none ∧
      builder.entries.length = count + 1 := by
  induction count with
  | zero =>
      have accepted : ∃ next, (GraphBuilder.new "c:").ingestRecord (Sample.directory 1 0 "c:") =
          .ok (.ok (), next) ∧ next.isDense = true ∧ next.terminal = none ∧
            next.entries.length = 1 := ⟨_, rfl, rfl, rfl, rfl⟩
      rcases accepted with ⟨next, ran, dense, unsettled, one⟩
      exact ⟨next, _, Reached.start.accept ran, dense, unsettled, one⟩
  | succ count ih =>
      rcases ih (by omega) with ⟨builder, records, reached, dense, unsettled, counted⟩
      have represents := reached.represents
      have core := represents.core
      have size : (entriesOf records).length = count + 1 := core.length_entries.symm.trans counted
      have word : (UInt32.ofNat (count + 2)).toNat = count + 2 :=
        UInt32.toNat_ofNat_of_lt' few
      have first : ∃ root, (entriesOf records)[0]? = some root :=
        ⟨_, List.getElem?_eq_getElem (by omega)⟩
      rcases first with ⟨root, first⟩
      have rooted := core.wellFormed.root_first root (by rwa [List.head?_eq_getElem?])
      have fresh : UInt32.ofNat (count + 2) ∉ (entriesOf records).map entryId := by
        intro used
        rcases List.mem_map.mp used with ⟨other, otherMem, named⟩
        rcases List.mem_iff_getElem?.mp otherMem with ⟨idx, found⟩
        have number := core.indexed.dense dense idx other found
        have inside := (List.getElem?_eq_some_iff.mp found).1
        rw [named, word] at number
        omega
      have someEntries : entriesOf records ≠ [] := List.ne_nil_of_mem (List.mem_of_getElem? first)
      generalize seenEq : EntryObservation.file {
        entryId := UInt32.ofNat (count + 2), parentId := 1, name := "f", logicalSize := 0
        objectId := none, allocatedSize := some 0, fileAttributes := 32, reparseTag := 0
        creationTimeUtcMs := 0, lastWriteTimeUtcMs := 0, lastAccessTimeUtcMs := 0
        totalLinkCount := .notObserved } = seen
      have id_eq : seen.entryId = UInt32.ofNat (count + 2) := by
        rw [← seenEq]
        rfl
      have parent_eq : seen.parentId = 1 := by
        rw [← seenEq]
        rfl
      have wellFormed : WellFormed (entriesOf records ++ [seen]) := by
        refine core.wellFormed.push someEntries (id_eq ▸ fresh) ?_ (List.mem_of_getElem? first)
          (rooted.1.trans parent_eq.symm) rooted.2.2
        rw [parent_eq]
        decide
      have numbered : ¬builder.Exhausted (Sample.file (UInt32.ofNat (count + 2)) 1 "f" 0 0 none) := by
        rintro ⟨_, _, last, _⟩
        omega
      have judged : builder.verdict records (Sample.file (UInt32.ofNat (count + 2)) 1 "f" 0 0 none) =
          .ok () := by
        have accepted := entryVerdict_of_wellFormed wellFormed
        rw [← seenEq] at accepted
        rw [← accepted]
        simp [verdict, unsettled, Sample.file]
      rcases represents.answer_of_not_exhausted numbered with ⟨next, ran⟩
      rw [judged] at ran
      have after := reached.accept ran
      have stays := isDense_ingestRecord ran
      have inSequence : builder.switches (Sample.file (UInt32.ofNat (count + 2)) 1 "f" 0 0 none) =
          false := by
        apply decide_eq_false
        rintro ⟨_, _, _, _, _, moved⟩
        apply moved
        rw [counted]
        rfl
      rw [dense, inSequence] at stays
      refine ⟨next, _, after, stays, ?_, ?_⟩
      · rw [after.represents.terminal_eq, List.getLast?_concat]
        rfl
      · rw [after.represents.core.length_entries, entriesOf_concat, List.length_append, size]
        rfl

/-- Offering a used identifier to a builder out of numbers lets it accept the identifier `0`,
which it takes for a duplicate otherwise. -/
theorem not_traceless_exhausted : ∃ builder records err next, Reached "c:" builder records ∧
    builder.ingestRecord Sample.again = .ok (.error err, next) ∧
      ¬ContinueAlike Sample.runtime Sample.runtime builder next [Sample.lateZero] := by
  have few : 2 ^ 32 - 2 + 1 < 2 ^ 32 := by norm_num
  rcases exists_dense few with ⟨builder, records, reached, dense, unsettled, counted⟩
  have last : builder.entries.length + 1 = 2 ^ 32 := by omega
  have core := reached.represents.core
  have size := core.length_entries
  have numbered : ¬builder.Exhausted Sample.again := by
    rintro ⟨_, _, _, entry, described, zero, _⟩
    cases described
    cases zero
  have used : (2 : UInt32) ∈ (entriesOf records).map entryId := by
    rcases core.full dense (by omega) 2 with zero | used
    · cases zero
    · exact used
  have judged : builder.verdict records Sample.again = .error (.duplicateEntryId 2) := by
    have someEntries : entriesOf records ≠ [] := by
      intro none
      rw [none] at used
      cases used
    unfold verdict
    rw [if_neg (by simp [unsettled])]
    dsimp only [Sample.again, Sample.file]
    rw [entryVerdict, if_neg (by decide), if_neg someEntries, if_neg (by decide)]
    exact if_pos used
  rcases reached.represents.answer_of_not_exhausted numbered with ⟨next, rejected⟩
  rw [judged] at rejected
  refine ⟨builder, records, _, next, reached, rejected, ?_⟩
  rintro ⟨answers, final, final', fed, fed', _⟩
  have switched : builder.switches Sample.again = true := by
    apply decide_eq_true
    refine ⟨by rw [unsettled]; rfl, ?_, by decide, by decide, by decide, ?_⟩
    · intro none
      rw [none] at last
      cases last
    · rw [last]
      decide
  have sparse := isDense_ingestRecord rejected
  rw [switched, Bool.not_true, Bool.and_false] at sparse
  have exhausts : builder.Exhausts [Sample.lateZero] :=
    Or.inl ⟨dense, unsettled, last, _, rfl, rfl, by decide⟩
  have twins : Twins "c:" records builder next := ⟨reached, reached.reject rejected⟩
  exact twins.ingestEach_ne sparse exhausts fed fed' rfl

end GraphBuilder

end PigTree
