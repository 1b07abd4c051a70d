import PigTree.Engine.Lockstep

/-!
# Streams the builder accepts

A stream of entries that form a tree, with any gaps between them, is accepted record
by record; the terminal record is accepted when it repeats the totals of the builder.
-/

namespace PigTree

open Foundation EntryObservation

namespace WellFormed

variable {before after entries : List EntryObservation} {entry : EntryObservation}

theorem of_append (wellFormed : WellFormed (before ++ after)) : WellFormed before where
  nodup_ids := by
    have nodup := wellFormed.nodup_ids
    rw [List.map_append] at nodup
    exact nodup.of_append_left
  root_first := by
    intro root rootMem
    apply wellFormed.root_first
    cases before with
    | nil => cases rootMem
    | cons head tail => exact rootMem
  attached := by
    intro front other back split notFirst
    apply wellFormed.attached front other (back ++ after) _ notFirst
    rw [split, List.append_assoc, List.cons_append]

theorem fresh (wellFormed : WellFormed (before ++ entry :: after)) :
    entry.entryId ∉ before.map entryId := by
  have nodup := wellFormed.nodup_ids
  rw [List.map_append, List.map_cons, List.nodup_append] at nodup
  intro used
  exact nodup.2.2 _ used _ List.mem_cons_self rfl

end WellFormed

namespace GraphBuilder

variable {target : String} {builder : GraphBuilder} {seen : List ObservationRecord}

/-- The next entry of a tree is accepted. -/
theorem entryVerdict_of_wellFormed {before after : List EntryObservation}
    {entry : EntryObservation} (wellFormed : WellFormed (before ++ entry :: after)) :
    entryVerdict before entry = .ok () := by
  have fresh := wellFormed.fresh
  unfold entryVerdict
  cases before with
  | nil =>
      rcases wellFormed.root_first entry rfl with ⟨one, zero, directory⟩
      simp [one, zero, directory]
  | cons root rest =>
      have notFirst : root :: rest ≠ [] := List.cons_ne_nil root rest
      rcases wellFormed.attached _ entry after rfl notFirst with
        ⟨below, parent, parentMem, named, directory⟩
      rcases wellFormed.root_first root rfl with ⟨rootId, _⟩
      have notSelf : entry.entryId ≠ entry.parentId := by
        intro same
        exact fresh (List.mem_map.mpr ⟨parent, parentMem, named.trans same.symm⟩)
      have notRoot : entry.entryId ≠ 1 := by
        intro same
        exact fresh (List.mem_map.mpr ⟨root, List.mem_cons_self, rootId.trans same.symm⟩)
      rcases List.mem_iff_getElem?.mp parentMem with ⟨idx, found⟩
      have located := find?_eq_some wellFormed.of_append found
      rw [named] at located
      rw [if_neg notSelf, if_neg notFirst, if_neg (not_or.mpr ⟨below, notRoot⟩), if_neg fresh,
        located]
      dsimp only
      rw [if_neg (not_not_intro directory)]

/-- A record that is neither a stream nor the end of the stream. -/
def IsPlain (record : ObservationRecord) : Prop :=
  record.stream? = none ∧ record.terminal? = none

theorem entriesOf_concat (record : ObservationRecord) :
    entriesOf (seen ++ [record]) = entriesOf seen ++ record.entry?.toList := by
  rw [entriesOf, List.filterMap_append]
  cases record with
  | directory dir => rfl
  | file file => rfl
  | special special => rfl
  | contentStream stream => rfl
  | coverageGap gap => rfl
  | terminal term => rfl

/-- A plain record that keeps the tree is accepted. -/
theorem Represents.accepts (represents : Represents target builder seen)
    (unsettled : builder.terminal = none) {record : ObservationRecord} (plain : IsPlain record)
    (wellFormed : WellFormed (entriesOf (seen ++ [record])))
    (short : (entriesOf (seen ++ [record])).length < 2 ^ 32) :
    ∃ next, builder.ingestRecord record = .ok (.ok (), next) := by
  have entryCase : ∀ entry, record.entry? = some entry →
      verdict builder seen record = entryVerdict (entriesOf seen) entry →
        ∃ next, builder.ingestRecord record = .ok (.ok (), next) := by
    intro entry isEntry judged
    rw [entriesOf_concat, isEntry, Option.toList_some] at wellFormed short
    rw [List.length_append, List.length_singleton] at short
    rcases represents.ingestRecord_answer (fun _ => short) record with ⟨next, ran⟩
    rw [judged, entryVerdict_of_wellFormed wellFormed] at ran
    exact ⟨next, ran⟩
  cases record with
  | directory dir =>
      apply entryCase (.directory dir) rfl
      simp [verdict, unsettled]
  | file file =>
      apply entryCase (.file file) rfl
      simp [verdict, unsettled]
  | special special =>
      apply entryCase (.special special) rfl
      simp [verdict, unsettled]
  | contentStream stream => cases plain.1
  | coverageGap gap =>
      unfold GraphBuilder.ingestRecord
      rw [if_neg (by simp [unsettled])]
      exact ⟨_, rfl⟩
  | terminal term => cases plain.2

theorem Represents.of_accepted (represents : Represents target builder seen)
    {record : ObservationRecord} {next : GraphBuilder}
    (accepted : builder.ingestRecord record = .ok (.ok (), next)) :
    Represents target next (seen ++ [record]) := by
  have ingested := represents.ingestRecord record
  rw [accepted] at ingested
  cases ingested with
  | accepted _ represents => exact represents

/-- Plain records that describe a tree are all accepted. -/
theorem Represents.ingestAll_plain (represents : Represents target builder seen)
    (unsettled : builder.terminal = none) {more : List ObservationRecord}
    (plain : ∀ record ∈ more, IsPlain record) (wellFormed : WellFormed (entriesOf (seen ++ more)))
    (short : (entriesOf (seen ++ more)).length < 2 ^ 32) :
    ∃ final, builder.ingestAll more = .ok (.ok (), final) ∧
      Represents target final (seen ++ more) ∧ final.terminal = none := by
  induction more generalizing builder seen with
  | nil =>
      refine ⟨builder, rfl, ?_, unsettled⟩
      rwa [List.append_nil]
  | cons record more ih =>
      have split : seen ++ record :: more = (seen ++ [record]) ++ more := by simp
      rw [split] at wellFormed short
      have isPlain := plain record List.mem_cons_self
      have early : WellFormed (entriesOf (seen ++ [record])) := by
        rw [entriesOf, List.filterMap_append] at wellFormed
        exact wellFormed.of_append
      have earlyShort : (entriesOf (seen ++ [record])).length < 2 ^ 32 := by
        have whole : entriesOf ((seen ++ [record]) ++ more) =
            entriesOf (seen ++ [record]) ++ entriesOf more := List.filterMap_append
        rw [whole, List.length_append] at short
        omega
      rcases represents.accepts unsettled isPlain early earlyShort with ⟨next, ran⟩
      have represents := represents.of_accepted ran
      have stillOpen : next.terminal = none := by
        rw [represents.terminal_eq, List.getLast?_concat]
        exact isPlain.2
      rcases ih represents stillOpen (fun other otherMem => plain other
        (List.mem_cons_of_mem _ otherMem)) wellFormed short with ⟨final, fed, after, settled⟩
      refine ⟨final, ?_, ?_, settled⟩
      · rw [GraphBuilder.ingestAll, ran, Checked.ok_bind]
        exact fed
      · rwa [split]

/-- Records fed in two parts. -/
theorem ingestAll_append {first second : List ObservationRecord} {middle : GraphBuilder}
    (fed : builder.ingestAll first = .ok (.ok (), middle)) :
    builder.ingestAll (first ++ second) = middle.ingestAll second := by
  induction first generalizing builder with
  | nil =>
      cases fed
      rfl
  | cons record first ih =>
      rw [GraphBuilder.ingestAll, Checked.bind_eq_ok] at fed
      rcases fed with ⟨⟨answer, next⟩, ran, rest⟩
      rw [List.cons_append, GraphBuilder.ingestAll, ran, Checked.ok_bind]
      cases answer with
      | error err => cases rest
      | ok accepted => exact ih rest

/-- The terminal record is accepted exactly when it repeats the totals. -/
theorem ingestTerminal_iff (unsettled : builder.terminal = none) (term : TerminalObservation) :
    (∃ next, builder.ingestRecord (.terminal term) = .ok (.ok (), next)) ↔
      Reconciled builder term := by
  unfold GraphBuilder.ingestRecord
  rw [if_neg (by simp [unsettled]), ← terminalMismatch_eq_none_iff]
  dsimp only [GraphBuilder.ingestTerminal]
  cases builder.terminalMismatch term with
  | none =>
      constructor
      · intro _
        rfl
      · intro _
        exact ⟨_, rfl⟩
  | some err =>
      constructor
      · rintro ⟨next, impossible⟩
        cases impossible
      · intro impossible
        cases impossible

/-- After plain records, the stream is accepted to its end exactly when the terminal
record repeats the totals. -/
theorem ingestAll_terminal_iff {records : List ObservationRecord} (unsettled : builder.terminal = none)
    (fed : (GraphBuilder.new target).ingestAll records = .ok (.ok (), builder))
    (term : TerminalObservation) :
    (∃ final, (GraphBuilder.new target).ingestAll (records ++ [.terminal term]) =
      .ok (.ok (), final)) ↔ Reconciled builder term := by
  rw [← ingestTerminal_iff unsettled term, ingestAll_append fed]
  constructor
  · rintro ⟨final, ran⟩
    rw [ingestAll, Checked.bind_eq_ok] at ran
    rcases ran with ⟨⟨answer, next⟩, ingested, rest⟩
    cases answer with
    | error err => cases rest
    | ok accepted => exact ⟨next, ingested⟩
  · rintro ⟨next, ingested⟩
    refine ⟨next, ?_⟩
    rw [ingestAll, ingested]
    rfl

/-- A builder with its terminal record delivers a graph with this record exactly when
identifiers suffice and every directory can afford what its children have lost. -/
theorem Reached.delivers_iff {records : List ObservationRecord}
    (reached : Reached target builder records) (rt : Runtime) {term : TerminalObservation}
    (ended : builder.terminal = some term)
    (nonempty : entriesOf records = [] → term.outcome ≠ .finished) :
    (∃ graph, builder.finish rt = .ok (.ok graph) ∧ graph.terminal = term) ↔
      (entriesOf records).length < 2 ^ 32 ∧ Affordable reached.snapshot := by
  have isSome : builder.terminal.isSome := by
    rw [ended]
    rfl
  have returns := reached.finish_returns_iff rt isSome
  have carries : ∀ graph, builder.finish rt = .ok (.ok graph) → graph.terminal = term := by
    intro graph ran
    have carried := (finish_fields ran).2.2
    rw [ended, Option.some.injEq] at carried
    exact carried.symm
  by_cases none : entriesOf records = []
  · have short : (entriesOf records).length < 2 ^ 32 := by
      rw [none]
      exact Nat.two_pow_pos 32
    have affordable : Affordable reached.snapshot := by
      intro idx entry found
      rw [reached.snapshot_entries, none] at found
      cases found
    constructor
    · intro _
      exact ⟨short, affordable⟩
    · intro _
      have ran : builder.finish rt = .ok (.ok (builder.emptyGraph term)) := by
        unfold finish
        rw [ended]
        simp only [reached.builder_entries_eq_nil_iff.mpr none, if_true, if_neg (nonempty none)]
      exact ⟨_, ran, carries _ ran⟩
  · constructor
    · rintro ⟨graph, ran, _⟩
      rcases returns.mp ⟨_, ran⟩ with empty | enough
      · exact absurd empty none
      · exact enough
    · intro enough
      rcases returns.mpr (Or.inr enough) with ⟨result, ran⟩
      rcases reached.finish_graph none isSome ran with ⟨graph, rfl⟩
      exact ⟨graph, ran, carries graph ran⟩

end GraphBuilder

end PigTree
