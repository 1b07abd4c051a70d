import PigTree.Worker.Scan

/-!
# The enumeration class of a scan

Once a handle has opened, the class it probed is used for every later directory. Before
that, a directory whose handle does not open is enumerated with the find-file backend
and the class stays open, so its entries can come from another backend than the rest.
-/

namespace PigTree

namespace Worker

/-! ### What the system answers -/

/-- The entries of a directory that a backend lists before the scan is cancelled. -/
def DirectoryAnswers.listed (answers : DirectoryAnswers) (cls : EnumClass) : List EntryFacts :=
  if answers.cancelled then [] else (answers.enumerate cls).elim [] DirEnumeration.facts

/-- The directories met before a handle opens. -/
def unprobed (root : RootAnswers) (asked : List DirectoryAnswers) : List DirectoryAnswers :=
  if (rootProbe root).isSome then [] else asked.takeWhile (fun answers => answers.handle.isNone)

/-- The directories met from the first handle on that opens. -/
def probed (root : RootAnswers) (asked : List DirectoryAnswers) : List DirectoryAnswers :=
  if (rootProbe root).isSome then asked else asked.dropWhile (fun answers => answers.handle.isNone)

/-- The answer to the probe of the first handle that opens. -/
def firstProbe (root : RootAnswers) (asked : List DirectoryAnswers) :
    Option (Except UInt32 Unit) :=
  (rootProbe root).or ((probed root asked).head?.bind DirectoryAnswers.handle)

/-- No entries are found before a handle opens, or the handle probes as the fallback, or no
entries are found after it. -/
def OneBackend (root : RootAnswers) (asked : List DirectoryAnswers) : Prop :=
  (∀ answers ∈ unprobed root asked, answers.listed .legacy = []) ∨
    (firstProbe root asked).map probeEnumClass = some .legacy ∨
      ∀ answers ∈ probed root asked, answers.listed .extd = []

instance (root : RootAnswers) (asked : List DirectoryAnswers) : Decidable (OneBackend root asked) :=
  inferInstanceAs (Decidable (_ ∨ _ ∨ _))

/-! ### Backends in the order of the directories -/

/-- The backend of every directory with the entries it lists, from a class that may still
be open. -/
def backends (enumClass : Option EnumClass) : List DirectoryAnswers →
    List (EnumClass × List EntryFacts)
  | [] => []
  | answers :: rest =>
      let selected := selectClass enumClass answers.handle
      (selected.1, answers.listed selected.1) :: backends selected.2 rest

theorem backends_some (cls : EnumClass) (asked : List DirectoryAnswers) :
    backends (some cls) asked = asked.map (fun answers => (cls, answers.listed cls)) := by
  induction asked with
  | nil => rfl
  | cons answers rest ih => rw [backends, selectClass, ih, List.map_cons]

/-- An open class is decided by the first handle that opens. -/
theorem backends_none (asked : List DirectoryAnswers) :
    backends none asked =
      (asked.takeWhile (fun answers => answers.handle.isNone)).map
          (fun answers => (.legacy, answers.listed .legacy)) ++
        backends ((asked.dropWhile (fun answers => answers.handle.isNone)).head?.bind
          (fun answers => answers.handle.map probeEnumClass))
            (asked.dropWhile (fun answers => answers.handle.isNone)) := by
  induction asked with
  | nil => rfl
  | cons answers rest ih =>
      cases handle : answers.handle with
      | none => simp [backends, selectClass, handle, ih]
      | some query => simp [backends, selectClass, handle]

/-- The directories before the first handle that opens are listed by the fallback, the
others by the class the handle probes. -/
theorem backends_root (root : RootAnswers) (asked : List DirectoryAnswers) :
    backends (rootClass root) asked =
      (unprobed root asked).map (fun answers => (.legacy, answers.listed .legacy)) ++
        backends ((firstProbe root asked).map probeEnumClass) (probed root asked) := by
  cases probe : rootProbe root with
  | some query => simp [rootClass, unprobed, probed, firstProbe, probe]
  | none =>
      simp only [rootClass, unprobed, probed, firstProbe, probe, Option.isSome_none, Bool.false_eq_true,
        if_false, Option.map_none, Option.none_or, Option.map_bind, Function.comp_def]
      exact backends_none asked

/-- Only a handle that opens has directories from it on. -/
theorem probed_eq_nil {root : RootAnswers} {asked : List DirectoryAnswers}
    (none : firstProbe root asked = none) : probed root asked = [] := by
  rcases Option.or_eq_none_iff.mp none with ⟨noRoot, noHandle⟩
  rw [probed, noRoot, Option.isSome_none, if_neg Bool.false_ne_true] at noHandle ⊢
  cases rest : asked.dropWhile (fun answers => answers.handle.isNone) with
  | nil => rfl
  | cons answers later =>
      rw [rest, List.head?_cons, Option.bind_some] at noHandle
      have stops := List.head?_dropWhile_not
        (fun answers : DirectoryAnswers => answers.handle.isNone) asked
      rw [rest, List.head?_cons] at stops
      simp [noHandle] at stops

/-- The directories with entries have one backend exactly when the answers allow it. -/
theorem oneBackend_iff (root : RootAnswers) (asked : List DirectoryAnswers) :
    (∃ cls, ∀ pair ∈ backends (rootClass root) asked, pair.2 ≠ [] →
        pair.1 = cls) ↔ OneBackend root asked := by
  rw [backends_root]
  cases probe : firstProbe root asked with
  | none =>
      -- without a handle that opens, everything is listed by the fallback
      have after := probed_eq_nil probe
      constructor
      · intro _
        right
        right
        rw [after]
        simp
      · intro _
        refine ⟨.legacy, ?_⟩
        intro pair pairMem _
        rw [after, backends, List.append_nil] at pairMem
        rcases List.mem_map.mp pairMem with ⟨answers, _, rfl⟩
        rfl
  | some query =>
      rw [Option.map_some, backends_some]
      constructor
      · rintro ⟨cls, same⟩
        by_cases before : ∀ answers ∈ unprobed root asked, answers.listed .legacy = []
        · exact Or.inl before
        push Not at before
        rcases before with ⟨early, earlyMem, entries⟩
        have legacy : EnumClass.legacy = cls :=
          same (.legacy, early.listed .legacy)
            (List.mem_append_left _ (List.mem_map_of_mem earlyMem)) entries
        right
        cases probes : probeEnumClass query with
        | legacy =>
            left
            rw [probe, Option.map_some, probes]
        | extd =>
            right
            intro late lateMem
            by_contra more
            have extd := same (.extd, late.listed .extd)
              (List.mem_append_right _ (List.mem_map.mpr ⟨late, lateMem, by rw [probes]⟩)) more
            rw [← legacy] at extd
            cases extd
      · intro allowed
        -- the class of the handle, or the fallback when nothing is listed after it
        rcases allowed with before | probes | after
        · refine ⟨probeEnumClass query, ?_⟩
          intro pair pairMem entries
          rcases List.mem_append.mp pairMem with early | late
          · rcases List.mem_map.mp early with ⟨answers, answersMem, rfl⟩
            exact absurd (before answers answersMem) entries
          · rcases List.mem_map.mp late with ⟨answers, _, rfl⟩
            rfl
        · rw [probe, Option.map_some, Option.some.injEq] at probes
          refine ⟨.legacy, ?_⟩
          intro pair pairMem entries
          rcases List.mem_append.mp pairMem with early | late
          · rcases List.mem_map.mp early with ⟨answers, _, rfl⟩
            rfl
          · rcases List.mem_map.mp late with ⟨answers, _, rfl⟩
            exact probes
        · refine ⟨.legacy, ?_⟩
          intro pair pairMem entries
          rcases List.mem_append.mp pairMem with early | late
          · rcases List.mem_map.mp early with ⟨answers, _, rfl⟩
            rfl
          · rcases List.mem_map.mp late with ⟨answers, answersMem, rfl⟩
            cases probes : probeEnumClass query with
            | legacy => rfl
            | extd =>
                rw [probes] at entries
                exact absurd (after answers answersMem) entries

/-! ### Runs -/

section Runs

variable {ε : Type} {env : ScanEnv ε} {target : ValidatedScanTarget} {root : RootAnswers}
  {answers : List DirectoryAnswers} {ended : ScanEnd ε}

/-- The answers a run takes are `asked`: with them it ends, with fewer it does not. -/
structure Takes (run : List DirectoryAnswers → Option (ScanEnd ε))
    (answers asked : List DirectoryAnswers) (ended : ScanEnd ε) : Prop where
  first : asked <+: answers
  ends : run asked = some ended
  waits : ∀ count < asked.length, run (asked.take count) = none

theorem Takes.nothing {run : List DirectoryAnswers → Option (ScanEnd ε)}
    (ends : run [] = some ended) : Takes run answers [] ended where
  first := List.nil_prefix
  ends := ends
  waits := by
    intro count fewer
    cases fewer

/-- The first answer is taken, and what the run takes from there on. -/
theorem Takes.cons {run next : List DirectoryAnswers → Option (ScanEnd ε)}
    {first : DirectoryAnswers} {asked : List DirectoryAnswers}
    (takes : Takes next answers asked ended) (waits : run [] = none)
    (turns : ∀ rest, run (first :: rest) = next rest) :
    Takes run (first :: answers) (first :: asked) ended where
  first := List.cons_prefix_cons.mpr ⟨rfl, takes.first⟩
  ends := (turns asked).trans takes.ends
  waits := by
    intro count fewer
    cases count with
    | zero => exact waits
    | succ count =>
        rw [List.take_succ_cons, turns]
        exact takes.waits count (Nat.lt_of_succ_lt_succ fewer)

/-- The backend of every visit with the entries it listed. -/
def listings (visits : List Visit) : List (EnumClass × List EntryFacts) :=
  visits.map (fun visit => (visit.enumClass, visit.answer.facts))

/-- What a run takes, and that its visits are listed by the backends of these answers; a
directory before which it is cancelled is not listed. -/
structure Lists (run : List DirectoryAnswers → Option (ScanEnd ε)) (enumClass : Option EnumClass)
    (before : List Visit) (answers asked : List DirectoryAnswers) (ended : ScanEnd ε) : Prop where
  takes : Takes run answers asked ended
  listed : ∃ unlisted, (∀ pair ∈ unlisted, pair.2 = []) ∧
    listings ended.state.visits ++ unlisted = listings before ++ backends enumClass asked

/-- A run that ends at its first answer. -/
theorem Lists.once {run : List DirectoryAnswers → Option (ScanEnd ε)}
    {enumClass : Option EnumClass} {before : List Visit} {first : DirectoryAnswers}
    (waits : run [] = none) (ends : ∀ rest, run (first :: rest) = some ended)
    (unlisted : List (EnumClass × List EntryFacts)) (noEntries : ∀ pair ∈ unlisted, pair.2 = [])
    (listed : listings ended.state.visits ++ unlisted =
      listings before ++ backends enumClass [first]) :
    Lists run enumClass before (first :: answers) [first] ended where
  takes :=
    have nothing : Takes (fun _ => some ended) answers [] ended := Takes.nothing rfl
    nothing.cons waits ends
  listed := ⟨unlisted, noEntries, listed⟩

/-- A traversal without directories on the stack takes no answers. -/
theorem Lists.finished {state : ScanState} (exhausted : state.stack = [])
    (ran : scanLoop env answers state = some ended) :
    Lists (fun answers => scanLoop env answers state) state.enumClass state.visits
      answers [] ended where
  takes := Takes.nothing ((scanLoop_finished [] exhausted).trans
    ((scanLoop_finished answers exhausted).symm.trans ran))
  listed := by
    rw [scanLoop_finished answers exhausted, Option.some.injEq] at ran
    refine ⟨[], by simp, ?_⟩
    rw [← ran, settle_visits]
    rfl

/-- What a traversal has listed before a directory, and what the directory lists. -/
theorem listings_visited (state : ScanState) (stack : List DirectoryStackItem)
    (currentDir : DirectoryStackItem) (selected : EnumClass × Option EnumClass)
    (enumeration : DirEnumeration) :
    listings (visited state stack currentDir selected enumeration).visits =
      listings state.visits ++ [(selected.1, enumeration.facts)] := by
  rw [visited, listings, List.map_append]
  rfl

/-- A traversal with a directory on the stack takes the answers for it first. -/
theorem scanLoop_lists_cons {answer : DirectoryAnswers} {rest : List DirectoryAnswers}
    {state : ScanState} {currentDir : DirectoryStackItem} {stack : List DirectoryStackItem}
    (top : state.stack = currentDir :: stack)
    (later : ∀ {next : ScanState}, scanLoop env rest next = some ended →
      ∃ asked, Lists (fun answers => scanLoop env answers next) next.enumClass next.visits
        rest asked ended)
    (ran : scanLoop env (answer :: rest) state = some ended) :
    ∃ asked, Lists (fun answers => scanLoop env answers state) state.enumClass state.visits
      (answer :: rest) asked ended := by
  have waits : scanLoop env [] state = none := scanLoop_waits top
  cases goesOn : answer.cancelled with
  | true =>
      have ends : ∀ rest, scanLoop env (answer :: rest) state =
          some (settle env .cancelled { state with stack }) :=
        fun rest => scanLoop_cancelledBefore rest top goesOn
      rw [ends, Option.some.injEq] at ran
      subst ran
      refine ⟨[answer], Lists.once waits ends (backends state.enumClass [answer]) ?_ ?_⟩
      · intro pair pairMem
        rw [backends, backends, List.mem_singleton] at pairMem
        rw [pairMem, DirectoryAnswers.listed, if_pos goesOn]
      · rw [settle_visits]
  | false =>
      cases answered : answer.enumerate (selectClass state.enumClass answer.handle).1 with
      | none =>
          rw [scanLoop_unanswered rest top goesOn answered] at ran
          cases ran
      | some enumeration =>
          have listed : answer.listed (selectClass state.enumClass answer.handle).1 =
              enumeration.facts := by
            rw [DirectoryAnswers.listed, goesOn, if_neg Bool.false_ne_true, answered]
            rfl
          by_cases within : enumeration = .cancelled
          · subst within
            have ends := fun rest => @scanLoop_cancelledWithin ε env _ _ _ _ rest top goesOn answered
            rw [ends, Option.some.injEq] at ran
            subst ran
            refine ⟨[answer], Lists.once waits ends [] (by simp) ?_⟩
            rw [settle_visits, listings_visited, backends, backends, listed, List.append_nil]
          cases absorbed : absorb env currentDir enumeration (visited state stack currentDir
              (selectClass state.enumClass answer.handle) enumeration) with
          | error stopped =>
              have ends := fun rest => scanLoop_refused rest top goesOn answered within absorbed
              have visits : stopped.2.visits = _ := absorb_visits.error _ absorbed
              rw [ends, Option.some.injEq] at ran
              subst ran
              refine ⟨[answer], Lists.once waits ends [] (by simp) ?_⟩
              rw [ScanEnd.state, visits, listings_visited, backends, backends, listed,
                List.append_nil]
          | ok next =>
              have turns := fun rest => scanLoop_turns rest top goesOn answered within absorbed
              have visits : next.visits = _ := absorb_visits.ok _ absorbed
              have enumClass : next.enumClass = _ := absorb_enumClass.ok _ absorbed
              rw [turns] at ran
              rcases later ran with ⟨asked, takes, unlisted, noEntries, same⟩
              refine ⟨answer :: asked, takes.cons waits turns, unlisted, noEntries, ?_⟩
              rw [same, visits, listings_visited, enumClass, backends, listed, List.append_assoc]
              rfl

/-- A traversal takes answer after answer. -/
theorem scanLoop_lists {state : ScanState} (ran : scanLoop env answers state = some ended) :
    ∃ asked, Lists (fun answers => scanLoop env answers state) state.enumClass state.visits
      answers asked ended := by
  induction answers generalizing state with
  | nil =>
      cases top : state.stack with
      | nil => exact ⟨[], Lists.finished top ran⟩
      | cons currentDir stack =>
          rw [scanLoop_waits top] at ran
          cases ran
  | cons answer rest ih =>
      cases top : state.stack with
      | nil => exact ⟨[], Lists.finished top ran⟩
      | cons currentDir stack => exact scanLoop_lists_cons top ih ran

/-- A scan whose ending needs no answers. -/
theorem Lists.unasked {enumClass : Option EnumClass} {last : ScanEnd ε}
    (noVisits : last.state.visits = []) :
    Lists (fun _ => some last) enumClass [] answers [] last where
  takes := Takes.nothing rfl
  listed := by
    refine ⟨[], by simp, ?_⟩
    rw [noVisits]
    rfl

/-- A scan takes answers as its traversal does. -/
theorem scanDirectory_lists (ran : scanDirectory env target root answers = some ended) :
    ∃ asked, Lists (scanDirectory env target root) (rootClass root) []
      answers asked ended := by
  have noVisits := untouched_visits env []
  by_cases early : root.cancelled = true
  · have ends : scanDirectory env target root =
        fun _ => some (settle env .cancelled ScanState.start) := by
      funext answers
      rw [scanDirectory, if_pos early]
    rw [ends, Option.some.injEq] at ran
    subst ran
    rw [ends]
    exact ⟨[], Lists.unasked (settle_keeps noVisits .cancelled rfl)⟩
  cases observed : rootFacts root with
  | error err =>
      have ends : scanDirectory env target root =
          fun _ => some (refuseTarget env target err (env.formatWin32Error err)) := by
        funext answers
        rw [scanDirectory, if_neg early, observed]
      rw [ends, Option.some.injEq] at ran
      subst ran
      rw [ends]
      exact ⟨[], Lists.unasked (refuseTarget_keeps noVisits target _ _ rfl)⟩
  | ok facts =>
      rcases facts with ⟨data, reparseTag⟩
      by_cases isDir : isDirectory data.fileAttributes = true
      · cases entered : enterRoot env target root data reparseTag with
        | error stopped =>
            have ends : scanDirectory env target root =
                fun _ => some (.failed stopped.1 stopped.2) := by
              funext answers
              simp only [scanDirectory, if_neg early, observed, if_pos isDir, entered]
            rw [ends, Option.some.injEq] at ran
            subst ran
            rw [ends]
            refine ⟨[], Lists.unasked ?_⟩
            exact (enterRoot_keeps noVisits target root data reparseTag (fun _ => rfl)).error
              stopped entered
        | ok state =>
            have loops : scanDirectory env target root =
                fun answers => scanLoop env answers state := by
              funext answers
              simp only [scanDirectory, if_neg early, observed, if_pos isDir, entered]
            have probed : rootClass root = state.enumClass := by
              rw [(enterRoot_ok entered).2.1, rootClass_eq observed]
            have first : state.visits = [] := (enterRoot_ok entered).1
            rw [loops] at ran
            rw [loops, probed, ← first]
            exact scanLoop_lists ran
      · have ends : scanDirectory env target root = fun _ =>
            some (refuseTarget env target errorPathNotFound "Target path is not a directory") := by
          funext answers
          simp only [scanDirectory, if_neg early, observed, if_neg isDir]
        rw [ends, Option.some.injEq] at ran
        subst ran
        rw [ends]
        exact ⟨[], Lists.unasked (refuseTarget_keeps noVisits target _ _ rfl)⟩

/-- The directories with entries were enumerated by one backend exactly when, among the
answers the scan took, no entries were found before a handle opened, or that handle probed
as the fallback, or no entries were found after it. -/
theorem oneClass_iff (ran : scanDirectory env target root answers = some ended) :
    ∃ asked, Takes (scanDirectory env target root) answers asked ended ∧
      ((∃ cls, ∀ visit ∈ ended.state.visits, visit.answer.facts ≠ [] → visit.enumClass = cls) ↔
        OneBackend root asked) := by
  rcases scanDirectory_lists ran with ⟨asked, takes, unlisted, noEntries, listed⟩
  refine ⟨asked, takes, ?_⟩
  rw [← oneBackend_iff]
  have same : listings ended.state.visits ++ unlisted =
      backends (rootClass root) asked := listed
  rw [← same]
  constructor
  · rintro ⟨cls, visits⟩
    refine ⟨cls, ?_⟩
    intro pair pairMem entries
    rcases List.mem_append.mp pairMem with visited | before
    · rcases List.mem_map.mp visited with ⟨visit, visitMem, rfl⟩
      exact visits visit visitMem entries
    · exact absurd (noEntries pair before) entries
  · rintro ⟨cls, pairs⟩
    refine ⟨cls, ?_⟩
    intro visit visitMem entries
    exact pairs (visit.enumClass, visit.answer.facts)
      (List.mem_append_left _ (List.mem_map_of_mem visitMem)) entries

end Runs

/-! ### A reparse root whose handle does not open -/

namespace Sample

/-- The target's directory, which the fallback lists, and one below it, whose handle opens. -/
def mixedAnswers : List DirectoryAnswers :=
  [fallback (fact "sub" 0x10 0), batched [fact "file" 0x20 5]]

/-- A mount point with one subdirectory with one file. -/
def mixed : Option (ScanEnd Unit) :=
  scanDirectory env target (root 0x410 0xA0000003) mixedAnswers

end Sample

/-- The subdirectory's handle opens with the batched class, after the fallback has already
listed the root. -/
theorem oneClass_iff_mixed : ∃ ended, Sample.mixed = some ended ∧
    ∃ asked, Takes (scanDirectory Sample.env Sample.target (Sample.root 0x410 0xA0000003))
        Sample.mixedAnswers asked ended ∧
      ((∃ cls, ∀ visit ∈ ended.state.visits, visit.answer.facts ≠ [] → visit.enumClass = cls) ↔
        OneBackend (Sample.root 0x410 0xA0000003) asked) := by
  have runs : Sample.mixed.isSome = true := by decide +kernel
  rcases Option.isSome_iff_exists.mp runs with ⟨ended, ran⟩
  exact ⟨ended, ran, oneClass_iff ran⟩

example : ¬OneBackend (Sample.root 0x410 0xA0000003) Sample.mixedAnswers := by decide +kernel

theorem not_oneClass_mixed : ∃ ended, Sample.mixed = some ended ∧
    ¬∃ cls, ∀ visit ∈ ended.state.visits, visit.answer.facts ≠ [] → visit.enumClass = cls := by
  have classes : Sample.mixed.map (fun ended => ended.state.visits.map
      (fun visit => (visit.enumClass, visit.answer.facts.isEmpty))) =
        some [(.legacy, false), (.extd, false)] := by decide +kernel
  rcases Option.map_eq_some_iff.mp classes with ⟨ended, ran, visits⟩
  refine ⟨ended, ran, ?_⟩
  rintro ⟨cls, same⟩
  have each : ∀ pair ∈ ended.state.visits.map
      (fun visit => (visit.enumClass, visit.answer.facts.isEmpty)), pair.2 = false →
        pair.1 = cls := by
    intro pair pairMem entries
    rcases List.mem_map.mp pairMem with ⟨visit, visitMem, rfl⟩
    apply same visit visitMem
    simpa using entries
  rw [visits] at each
  have legacy := each (.legacy, false) (by simp) rfl
  have extd := each (.extd, false) (by simp) rfl
  rw [← legacy] at extd
  cases extd

end Worker

end PigTree
