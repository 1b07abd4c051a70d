import PigTree.Worker.Settles

/-!
# Scans of finite trees

A finite tree says what the system answers about every directory that either backend
lists. A scan comes to the end of every such tree: it settles, unless the display path of
the target or of a directory that gets a coverage gap is too long for a record.
-/

namespace PigTree

namespace Worker

/-! ### Trees of answers -/

/-- The entries that are put on the stack. -/
def descends (fact : EntryFacts) : Bool :=
  !isDotName fact.name && !isDevice fact.fileAttributes && isDirectory fact.fileAttributes &&
    !isReparse fact.fileAttributes

/-- What the system answers about a directory, and about the directories below it that
either backend lists. -/
inductive DirectoryTree where
  | node (own : DirectoryAnswers) (below : EnumClass → List DirectoryTree)

/-- Both backends come to an end, no name is longer than the system allows, and there is a
tree for every listed directory that is put on the stack. -/
inductive DirectoryTree.Complete : DirectoryTree → Prop
  | node {own : DirectoryAnswers} {below : EnumClass → List DirectoryTree}
      (answered : ∀ cls, ∃ enumeration, own.enumerate cls = some enumeration ∧
        (∀ fact ∈ enumeration.facts, utf16Length fact.name ≤ 255) ∧
        (below cls).length = (enumeration.facts.filter descends).length)
      (complete : ∀ cls, ∀ tree ∈ below cls, Complete tree) : Complete (.node own below)

/-- The paths of a directory. -/
structure Location where
  displayPath : String
  extendedPath : String

/-- The paths of a directory below another. -/
def Location.child (location : Location) (name : String) : Location where
  displayPath := childPath location.displayPath name
  extendedPath := childPath location.extendedPath name

/-- A directory that a scan comes to: its paths, the backend, and the answers. -/
structure Reached extends Location where
  enumClass : EnumClass
  answers : DirectoryAnswers

/-- What listing the directory comes to, unless the scan is cancelled before. -/
def Reached.outcome (dir : Reached) : Option DirEnumeration :=
  if dir.answers.cancelled then none else dir.answers.enumerate dir.enumClass

/-- The directories below a directory in the order in which they are taken from the stack. -/
def childTrees (location : Location) (facts : List EntryFacts) (trees : List DirectoryTree) :
    List (Location × DirectoryTree) :=
  (((facts.filter descends).map (fun fact => location.child fact.name)).zip trees).reverse

/-- The directories a scan comes to that has trees on its stack, until it is cancelled. -/
inductive Explores : Option EnumClass → List (Location × DirectoryTree) → List Reached → Prop
  | done {enumClass : Option EnumClass} : Explores enumClass [] []
  | cancelledBefore {enumClass : Option EnumClass} {location : Location} {own : DirectoryAnswers}
      {below : EnumClass → List DirectoryTree} {stack : List (Location × DirectoryTree)}
      (stops : own.cancelled = true) :
      Explores enumClass ((location, .node own below) :: stack)
        [⟨location, (selectClass enumClass own.handle).1, own⟩]
  | cancelledWithin {enumClass : Option EnumClass} {location : Location} {own : DirectoryAnswers}
      {below : EnumClass → List DirectoryTree} {stack : List (Location × DirectoryTree)}
      (goesOn : own.cancelled = false)
      (answered : own.enumerate (selectClass enumClass own.handle).1 = some .cancelled) :
      Explores enumClass ((location, .node own below) :: stack)
        [⟨location, (selectClass enumClass own.handle).1, own⟩]
  | turns {enumClass : Option EnumClass} {location : Location} {own : DirectoryAnswers}
      {below : EnumClass → List DirectoryTree} {stack : List (Location × DirectoryTree)}
      {enumeration : DirEnumeration} {later : List Reached} (goesOn : own.cancelled = false)
      (answered : own.enumerate (selectClass enumClass own.handle).1 = some enumeration)
      (complete : enumeration ≠ .cancelled)
      (explores : Explores (selectClass enumClass own.handle).2
        (childTrees location enumeration.facts (below (selectClass enumClass own.handle).1) ++
          stack) later) :
      Explores enumClass ((location, .node own below) :: stack)
        (⟨location, (selectClass enumClass own.handle).1, own⟩ :: later)

theorem mem_of_mem_childTrees {location : Location} {facts : List EntryFacts}
    {trees : List DirectoryTree} {item : Location × DirectoryTree}
    (itemMem : item ∈ childTrees location facts trees) : item.2 ∈ trees :=
  (List.of_mem_zip (List.mem_reverse.mp itemMem)).2

/-- What can be explored from a stack can be explored from it with trees on top. -/
theorem explores_append {items stack : List (Location × DirectoryTree)}
    (each : ∀ item ∈ items, ∀ stack, (∀ enumClass, ∃ reached, Explores enumClass stack reached) →
      ∀ enumClass, ∃ reached, Explores enumClass (item :: stack) reached)
    (rest : ∀ enumClass, ∃ reached, Explores enumClass stack reached) :
    ∀ enumClass, ∃ reached, Explores enumClass (items ++ stack) reached := by
  induction items with
  | nil => exact rest
  | cons item items ih =>
      exact each item List.mem_cons_self (items ++ stack)
        (ih (fun other otherMem => each other (List.mem_cons_of_mem item otherMem)))

/-- A complete tree is explored to its end. -/
theorem DirectoryTree.Complete.explored {tree : DirectoryTree} (complete : tree.Complete) :
    ∀ location stack, (∀ enumClass, ∃ reached, Explores enumClass stack reached) →
      ∀ enumClass, ∃ reached, Explores enumClass ((location, tree) :: stack) reached := by
  induction complete with
  | @node own below answered complete ih =>
      intro location stack rest enumClass
      cases goesOn : own.cancelled with
      | true => exact ⟨_, Explores.cancelledBefore goesOn⟩
      | false =>
          rcases answered (selectClass enumClass own.handle).1 with ⟨enumeration, listed, _, _⟩
          by_cases within : enumeration = .cancelled
          · subst within
            exact ⟨_, Explores.cancelledWithin goesOn listed⟩
          · have each : ∀ item ∈ childTrees location enumeration.facts
                (below (selectClass enumClass own.handle).1), ∀ stack,
                  (∀ enumClass, ∃ reached, Explores enumClass stack reached) →
                    ∀ enumClass, ∃ reached, Explores enumClass (item :: stack) reached :=
              fun item itemMem => ih _ item.2 (mem_of_mem_childTrees itemMem) item.1
            rcases explores_append each rest (selectClass enumClass own.handle).2 with
              ⟨later, explores⟩
            exact ⟨_, Explores.turns goesOn listed within explores⟩

/-- The outcomes of the directories that are listed, with their paths. -/
def outcomes (reached : List Reached) : List (Location × DirEnumeration) :=
  reached.filterMap (fun dir => dir.outcome.map (fun enumeration => (dir.toLocation, enumeration)))

theorem outcomes_cons {dir : Reached} {enumeration : DirEnumeration} {later : List Reached}
    (listed : dir.outcome = some enumeration) :
    outcomes (dir :: later) = (dir.toLocation, enumeration) :: outcomes later := by
  rw [outcomes, List.filterMap_cons, listed]
  rfl

theorem Reached.outcome_eq {location : Location} {cls : EnumClass} {own : DirectoryAnswers}
    {enumeration : DirEnumeration} (goesOn : own.cancelled = false)
    (answered : own.enumerate cls = some enumeration) :
    Reached.outcome ⟨location, cls, own⟩ = some enumeration := by
  rw [outcome, goesOn, if_neg Bool.false_ne_true, answered]

/-- With the trees below a directory in its place, the trees on the stack stay complete. -/
theorem complete_childTrees {location : Location} {own : DirectoryAnswers}
    {below : EnumClass → List DirectoryTree} {stack : List (Location × DirectoryTree)}
    (complete : ∀ item ∈ (location, .node own below) :: stack, item.2.Complete)
    (facts : List EntryFacts) (cls : EnumClass) :
    ∀ item ∈ childTrees location facts (below cls) ++ stack, item.2.Complete := by
  intro item itemMem
  rcases List.mem_append.mp itemMem with child | waiting
  · cases complete _ List.mem_cons_self with
    | node answers trees => exact trees cls item.2 (mem_of_mem_childTrees child)
  · exact complete item (List.mem_cons_of_mem _ waiting)

/-- The names that a complete tree lists are short. -/
theorem Explores.names {enumClass : Option EnumClass} {stack : List (Location × DirectoryTree)}
    {reached : List Reached} (explores : Explores enumClass stack reached)
    (complete : ∀ item ∈ stack, item.2.Complete) :
    ∀ pair ∈ outcomes reached, ∀ fact ∈ pair.2.facts, utf16Length fact.name ≤ 255 := by
  induction explores with
  | done => simp [outcomes]
  | cancelledBefore stops => simp [outcomes, Reached.outcome, stops]
  | @cancelledWithin _ _ _ _ stack goesOn answered =>
      simp [outcomes, Reached.outcome, goesOn, answered, DirEnumeration.facts]
  | @turns enumClass location own below stack enumeration later goesOn answered within _ ih =>
      cases complete _ List.mem_cons_self with
      | node answers trees =>
          rw [outcomes_cons (Reached.outcome_eq goesOn answered)]
          intro pair pairMem
          rcases List.mem_cons.mp pairMem with rfl | after
          · rcases answers (selectClass enumClass own.handle).1 with ⟨other, same, short, _⟩
            rw [answered, Option.some.injEq] at same
            rw [same]
            exact short
          · exact ih (complete_childTrees complete _ _) pair after

/-! ### The stack of a scan -/

section Stack

variable {ε : Type} {env : ScanEnv ε} {currentDir : DirectoryStackItem} {state next : ScanState}

def DirectoryStackItem.location (item : DirectoryStackItem) : Location where
  displayPath := item.displayPath
  extendedPath := item.extendedPath

/-- The paths on the stack. -/
def waiting (state : ScanState) : List Location := state.stack.map DirectoryStackItem.location

theorem waiting_emitFact {fact : EntryFacts} (ran : emitFact env currentDir fact state = .ok next) :
    waiting next = (if descends fact then [currentDir.location.child fact.name] else []) ++
      waiting state := by
  cases emitFact_ok ran with
  | skipped dot => simp [descends, dot]
  | special named device => simp [descends, device, waiting, written, takeEntryId]
  | directory named notDevice isDir =>
      rw [addAllocated_eq]
      cases reparse : isReparse fact.fileAttributes with
      | true => simp [descends, pushChild, reparse, waiting, written, takeEntryId]
      | false =>
          simp [descends, pushChild, reparse, named, notDevice, isDir, waiting, written,
            takeEntryId, DirectoryStackItem.location, Location.child]
  | file named notDevice notDir =>
      rw [addAllocated_eq]
      simp [descends, notDir, waiting, written, takeEntryId]

theorem waiting_emitFacts {facts : List EntryFacts}
    (ran : emitFacts env currentDir facts state = .ok next) :
    waiting next = ((facts.filter descends).map
      (fun fact => currentDir.location.child fact.name)).reverse ++ waiting state := by
  induction facts generalizing state with
  | nil =>
      cases ran
      rfl
  | cons fact facts ih =>
      rw [emitFacts, bind_eq_ok] at ran
      rcases ran with ⟨later, emitted, ran⟩
      rw [ih ran, waiting_emitFact emitted]
      cases goesDown : descends fact with
      | true => simp [goesDown]
      | false => simp [goesDown]

/-- Listing a directory puts the directories below it on the stack. -/
theorem waiting_absorb {enumeration : DirEnumeration}
    (ran : absorb env currentDir enumeration state = .ok next) :
    waiting next = ((enumeration.facts.filter descends).map
      (fun fact => currentDir.location.child fact.name)).reverse ++ waiting state := by
  cases enumeration with
  | cancelled =>
      cases ran
      rfl
  | openFailed errorCode =>
      simp only [absorb] at ran
      split at ran
      · rw [recordGap_ok ran]
        rfl
      · cases ran
        rfl
  | incomplete facts errorCode =>
      rw [absorb, bind_eq_ok] at ran
      rcases ran with ⟨gapped, gap, ran⟩
      rw [waiting_emitFacts ran, recordGap_ok gap]
      rfl
  | success facts => exact waiting_emitFacts ran

/-- The paths of the trees below a directory are those its listing puts on the stack. -/
theorem map_fst_childTrees {location : Location} {facts : List EntryFacts}
    {trees : List DirectoryTree} (all : trees.length = (facts.filter descends).length) :
    (childTrees location facts trees).map Prod.fst =
      ((facts.filter descends).map (fun fact => location.child fact.name)).reverse := by
  rw [childTrees, List.map_reverse, List.map_fst_zip]
  rw [List.length_map, all]

end Stack

/-! ### Scans of trees -/

section Trees

variable {ε : Type} {env : ScanEnv ε} {target : ValidatedScanTarget} {root : RootAnswers}

/-- The paths and outcome of every visit. -/
def logged (visits : List Visit) : List (Location × DirEnumeration) :=
  visits.map (fun visit => (visit.directory.location, visit.answer))

theorem logged_visited (state : ScanState) (stack : List DirectoryStackItem)
    (currentDir : DirectoryStackItem) (selected : EnumClass × Option EnumClass)
    (enumeration : DirEnumeration) :
    logged (visited state stack currentDir selected enumeration).visits =
      logged state.visits ++ [(currentDir.location, enumeration)] := by
  rw [visited, logged, List.map_append]
  rfl

/-- A run visits the directories it comes to, all of them unless a record is refused. -/
structure Traces (ended : ScanEnd ε) (before met : List (Location × DirEnumeration)) : Prop where
  listed : ∃ done, done <+: met ∧ logged ended.state.visits = before ++ done
  all : ∀ term last, ended = .returned term last → logged ended.state.visits = before ++ met

/-- A run that ends with all visits done. -/
theorem Traces.whole {ended : ScanEnd ε} {before met : List (Location × DirEnumeration)}
    (visits : logged ended.state.visits = before ++ met) : Traces ended before met where
  listed := ⟨met, List.prefix_refl met, visits⟩
  all := fun _ _ _ => visits

/-- With the answers of a complete forest the traversal comes to an end. -/
theorem scanLoop_explores {enumClass : Option EnumClass} {stack : List (Location × DirectoryTree)}
    {reached : List Reached} (explores : Explores enumClass stack reached)
    (complete : ∀ item ∈ stack, item.2.Complete) {state : ScanState}
    (decided : state.enumClass = enumClass) (paths : waiting state = stack.map Prod.fst) :
    ∃ ended, scanLoop env (reached.map Reached.answers) state = some ended ∧
      Traces ended (logged state.visits) (outcomes reached) := by
  induction explores generalizing state with
  | done =>
      have exhausted : state.stack = [] := List.map_eq_nil_iff.mp paths
      refine ⟨_, scanLoop_finished [] exhausted, Traces.whole ?_⟩
      rw [settle_visits]
      exact (List.append_nil _).symm
  | @cancelledBefore _ location own _ stack stops =>
      rcases List.map_eq_cons_iff.mp paths with ⟨currentDir, rest, top, _, _⟩
      refine ⟨_, scanLoop_cancelledBefore [] top stops, Traces.whole ?_⟩
      rw [settle_visits]
      simp [outcomes, Reached.outcome, stops]
  | @cancelledWithin _ location own _ stack goesOn answered =>
      subst decided
      rcases List.map_eq_cons_iff.mp paths with ⟨currentDir, rest, top, shown, _⟩
      refine ⟨_, scanLoop_cancelledWithin [] top goesOn answered, Traces.whole ?_⟩
      rw [settle_visits, logged_visited, shown]
      simp [outcomes, Reached.outcome, goesOn, answered]
  | @turns enumClass location own below stack enumeration later goesOn answered within _ ih =>
      subst decided
      rcases List.map_eq_cons_iff.mp paths with ⟨currentDir, rest, top, shown, waits⟩
      rw [List.map_cons, outcomes_cons (Reached.outcome_eq goesOn answered)]
      cases absorbed : absorb env currentDir enumeration
          (visited state rest currentDir (selectClass state.enumClass own.handle) enumeration) with
      | error stopped =>
          refine ⟨_, scanLoop_refused _ top goesOn answered within absorbed, ?_, ?_⟩
          · refine ⟨[(location, enumeration)], List.cons_prefix_cons.mpr ⟨rfl, List.nil_prefix⟩, ?_⟩
            rw [ScanEnd.state, absorb_visits.error _ absorbed, logged_visited, shown]
          · intro term last returned
            cases returned
      | ok next =>
          rw [scanLoop_turns _ top goesOn answered within absorbed]
          cases complete _ List.mem_cons_self with
          | node answers trees =>
              have all : (below (selectClass state.enumClass own.handle).1).length =
                  (enumeration.facts.filter descends).length := by
                rcases answers (selectClass state.enumClass own.handle).1 with
                  ⟨other, same, _, all⟩
                rw [answered, Option.some.injEq] at same
                rw [same]
                exact all
              have nextPaths : waiting next = (childTrees location enumeration.facts
                  (below (selectClass state.enumClass own.handle).1) ++ stack).map Prod.fst := by
                rw [waiting_absorb absorbed, List.map_append, map_fst_childTrees all, shown, ← waits]
                rfl
              rcases ih (complete_childTrees complete _ _) (absorb_enumClass.ok _ absorbed)
                nextPaths with ⟨ended, ran, ⟨done, doneFirst, listed⟩, whole⟩
              have visits : logged next.visits = logged state.visits ++ [(location, enumeration)] := by
                rw [absorb_visits.ok _ absorbed, logged_visited, shown]
              refine ⟨ended, ran, ⟨(location, enumeration) :: done, ?_, ?_⟩, ?_⟩
              · exact List.cons_prefix_cons.mpr ⟨rfl, doneFirst⟩
              · rw [listed, visits, List.append_assoc, List.singleton_append]
              · intro term last returned
                rw [whole term last returned, visits, List.append_assoc, List.singleton_append]

def ValidatedScanTarget.location (target : ValidatedScanTarget) : Location where
  displayPath := target.displayPath
  extendedPath := target.extendedPath

/-- The tree a scan starts with, unless it is cancelled or its target is no directory. -/
def rootTrees (target : ValidatedScanTarget) (root : RootAnswers) (tree : DirectoryTree) :
    List (Location × DirectoryTree) :=
  match rootFacts root with
  | .ok (data, _) =>
      if !root.cancelled && isDirectory data.fileAttributes then [(target.location, tree)]
      else []
  | .error _ => []

/-- A complete tree is explored by any scan. -/
theorem explored_rootTrees {tree : DirectoryTree} (complete : tree.Complete) :
    ∃ reached, Explores (rootClass root) (rootTrees target root tree) reached := by
  have nothing : ∀ enumClass, ∃ reached, Explores enumClass [] reached :=
    fun enumClass => ⟨[], Explores.done⟩
  unfold rootTrees
  split
  · split
    · exact complete.explored target.location [] nothing (rootClass root)
    · exact nothing _
  · exact nothing _

/-- A scan without visits traces any tree that it does not enter. -/
theorem Traces.unvisited {ended : ScanEnd ε} (noVisits : ended.state.visits = []) :
    Traces ended [] [] := by
  apply Traces.whole
  rw [noVisits]
  rfl

/-- With the answers of a complete tree the scan comes to an end. -/
theorem scanDirectory_explores {tree : DirectoryTree} (complete : tree.Complete)
    {reached : List Reached} (explores : Explores (rootClass root) (rootTrees target root tree) reached) :
    ∃ ended, scanDirectory env target root (reached.map Reached.answers) = some ended ∧
      Traces ended [] (outcomes reached) := by
  have noVisits := untouched_visits env []
  have notEntered : rootTrees target root tree = [] → outcomes reached = [] := by
    intro none
    rw [none] at explores
    cases explores
    rfl
  by_cases early : root.cancelled = true
  · have met : outcomes reached = [] := by
      apply notEntered
      unfold rootTrees
      split <;> simp [early]
    refine ⟨_, if_pos early, ?_⟩
    rw [met]
    exact Traces.unvisited (settle_keeps noVisits .cancelled rfl)
  cases observed : rootFacts root with
  | error err =>
      have met : outcomes reached = [] := by
        apply notEntered
        rw [rootTrees, observed]
      refine ⟨refuseTarget env target err (env.formatWin32Error err), ?_, ?_⟩
      · rw [scanDirectory, if_neg early, observed]
      · rw [met]
        exact Traces.unvisited (refuseTarget_keeps noVisits target _ _ rfl)
  | ok facts =>
      rcases facts with ⟨data, reparseTag⟩
      cases isDir : isDirectory data.fileAttributes with
      | false =>
          have met : outcomes reached = [] := by
            apply notEntered
            simp [rootTrees, observed, isDir]
          refine ⟨refuseTarget env target errorPathNotFound "Target path is not a directory",
            ?_, ?_⟩
          · simp only [scanDirectory, if_neg early, observed, isDir, if_neg Bool.false_ne_true]
          · rw [met]
            exact Traces.unvisited (refuseTarget_keeps noVisits target _ _ rfl)
      | true =>
          have start : rootTrees target root tree = [(target.location, tree)] := by
            simp [rootTrees, observed, isDir, early]
          rw [start] at explores
          cases entered : enterRoot env target root data reparseTag with
          | error stopped =>
              refine ⟨.failed stopped.1 stopped.2, ?_, ⟨[], List.nil_prefix, ?_⟩, ?_⟩
              · simp only [scanDirectory, if_neg early, observed, isDir, if_pos, entered]
              · have visits : stopped.2.visits = [] :=
                  (enterRoot_keeps noVisits target root data reparseTag (fun _ => rfl)).error
                    stopped entered
                rw [ScanEnd.state, visits]
                rfl
              · intro term last returned
                cases returned
          | ok state =>
              have loops : scanDirectory env target root (reached.map Reached.answers) =
                  scanLoop env (reached.map Reached.answers) state := by
                simp only [scanDirectory, if_neg early, observed, isDir, if_pos, entered]
              rcases enterRoot_ok entered with ⟨visits, decided, stack⟩
              have known : state.enumClass = rootClass root := by
                rw [decided, rootClass_eq observed]
              have paths : waiting state = [(target.location, tree)].map Prod.fst := by
                rw [waiting, stack]
                rfl
              have complete : ∀ item ∈ [(target.location, tree)], item.2.Complete := by
                intro item itemMem
                rw [List.mem_singleton.mp itemMem]
                exact complete
              rw [loops]
              rcases scanLoop_explores explores complete known paths with ⟨ended, ran, traces⟩
              rw [visits] at traces
              exact ⟨ended, ran, traces⟩

end Trees

section Settles

variable {formatWin32Error : UInt32 → String} {durationMs : UInt64} {target : ValidatedScanTarget}
  {root : RootAnswers} {tree : DirectoryTree} {reached : List Reached}

/-- What the error code of a directory's coverage gap is, if it gets one. -/
def Reached.gap (dir : Reached) : Option UInt32 := dir.outcome.bind gapCode

/-- The display paths that a scan of a tree has to write are short enough for a record. -/
structure ShortReached (target : ValidatedScanTarget) (root : RootAnswers)
    (reached : List Reached) : Prop where
  target : root.cancelled = true ∨ target.displayPath.utf8ByteSize ≤ 65535
  gaps : ∀ dir ∈ reached, dir.gap ≠ none → dir.displayPath.utf8ByteSize ≤ 65535

theorem shortReached_iff : ShortReached target root reached ↔
    (root.cancelled = true ∨ target.displayPath.utf8ByteSize ≤ 65535) ∧
      ∀ pair ∈ outcomes reached, gapCode pair.2 ≠ none →
        pair.1.displayPath.utf8ByteSize ≤ 65535 := by
  constructor
  · intro short
    refine ⟨short.target, ?_⟩
    intro pair pairMem isGap
    rcases List.mem_filterMap.mp pairMem with ⟨dir, dirMem, same⟩
    rcases Option.map_eq_some_iff.mp same with ⟨enumeration, outcome, rfl⟩
    apply short.gaps dir dirMem
    rw [Reached.gap, outcome]
    exact isGap
  · rintro ⟨targetShort, outcomesShort⟩
    refine ⟨targetShort, ?_⟩
    intro dir dirMem isGap
    cases outcome : dir.outcome with
    | none =>
        rw [Reached.gap, outcome] at isGap
        exact absurd rfl isGap
    | some enumeration =>
        rw [Reached.gap, outcome] at isGap
        refine outcomesShort (dir.toLocation, enumeration) ?_ isGap
        exact List.mem_filterMap.mpr ⟨dir, dirMem, by rw [outcome]; rfl⟩

/-- A scan of a complete tree comes to an end, and settles exactly when the paths it has to
write are short. -/
theorem settled_iff_shortReached
    (texts : ∀ errorCode, utf16Length (formatWin32Error errorCode) ≤ 512) (complete : tree.Complete)
    (explores : Explores (rootClass root) (rootTrees target root tree) reached) :
    ∃ ended, scanDirectory (writerEnv formatWin32Error durationMs) target root
        (reached.map Reached.answers) = some ended ∧
      Traces ended [] (outcomes reached) ∧
        (Settled ended ↔ ShortReached target root reached) := by
  have rootComplete : ∀ item ∈ rootTrees target root tree, item.2.Complete := by
    intro item itemMem
    unfold rootTrees at itemMem
    split at itemMem
    · split at itemMem
      · rw [List.mem_singleton.mp itemMem]
        exact complete
      · cases itemMem
    · cases itemMem
  rcases scanDirectory_explores complete explores with ⟨ended, ran, traces⟩
  refine ⟨ended, ran, traces, ?_⟩
  rcases traces.listed with ⟨done, first, visits⟩
  rw [List.nil_append] at visits
  have names : ∀ visit ∈ ended.state.visits, ∀ fact ∈ visit.answer.facts,
      utf16Length fact.name ≤ 255 := by
    intro visit visitMem
    have seen : (visit.directory.location, visit.answer) ∈ done := by
      rw [← visits]
      exact List.mem_map_of_mem visitMem
    exact explores.names rootComplete _ (first.subset seen)
  rw [settled_iff_shortPaths texts ran names, shortReached_iff]
  constructor
  · intro short
    refine ⟨short.target, ?_⟩
    intro pair pairMem isGap
    rcases (settled_iff_shortPaths texts ran names).mpr short with ⟨term, last, returned, _⟩
    have every := traces.all term last returned
    rw [List.nil_append] at every
    rw [← every] at pairMem
    rcases List.mem_map.mp pairMem with ⟨visit, visitMem, rfl⟩
    exact short.gaps visit visitMem isGap
  · rintro ⟨targetShort, outcomesShort⟩
    refine ⟨targetShort, ?_⟩
    intro visit visitMem isGap
    refine outcomesShort (visit.directory.location, visit.answer) (first.subset ?_) isGap
    rw [← visits]
    exact List.mem_map_of_mem visitMem

/-- Every finite tree is explored by a scan, which comes to an end. Into an observation
writer it settles exactly when its target's display path fits into a record and so does the
display path of every directory it comes to that gets a coverage gap. -/
theorem scan_settles_iff (texts : ∀ errorCode, utf16Length (formatWin32Error errorCode) ≤ 512)
    (complete : tree.Complete) :
    (∃ reached, Explores (rootClass root) (rootTrees target root tree) reached) ∧
      ∀ reached, Explores (rootClass root) (rootTrees target root tree) reached →
        ∃ ended, scanDirectory (writerEnv formatWin32Error durationMs) target root
            (reached.map Reached.answers) = some ended ∧
          ((∃ term state, ended = .returned term state ∧
              state.emitted.getLast? = some (.terminal term)) ↔
            (root.cancelled = true ∨ target.displayPath.utf8ByteSize ≤ 65535) ∧
              ∀ dir ∈ reached, dir.gap ≠ none → dir.displayPath.utf8ByteSize ≤ 65535) := by
  constructor
  · exact explored_rootTrees complete
  · intro reached explores
    rcases settled_iff_shortReached texts complete explores with ⟨ended, ran, _, settles⟩
    refine ⟨ended, ran, settles.trans ?_⟩
    constructor
    · intro short
      exact ⟨short.target, short.gaps⟩
    · rintro ⟨targetShort, gapsShort⟩
      exact ⟨targetShort, gapsShort⟩

end Settles

/-! ### A deep directory that is denied -/

section Denied

/-- The texts of a system that knows one error code. -/
def Sample.plainText (errorCode : UInt32) : String :=
  if errorCode = 5 then "Access is denied." else "Win32 error"

/-- A directory with one subdirectory that is denied. -/
def Sample.deniedTree (name : String) : DirectoryTree :=
  .node (Sample.batched [Sample.fact name 0x10 0]) (fun
    | .extd => [.node (Sample.unopened 5) (fun _ => [])]
    | .legacy => [])

/-- The directories that a scan of the tree comes to. -/
def Sample.deniedReached (target : ValidatedScanTarget) (name : String) : List Reached := [
  { target.location with
    enumClass := .extd
    answers := Sample.batched [Sample.fact name 0x10 0] },
  { target.location.child name with
    enumClass := .extd
    answers := Sample.unopened 5 }]

theorem short_plainText (errorCode : UInt32) : utf16Length (Sample.plainText errorCode) ≤ 512 := by
  unfold Sample.plainText
  split
  · decide
  · decide

theorem descends_subdirectory {name : String} (named : isDotName name = false) :
    descends (Sample.fact name 0x10 0) = true := by
  have notDevice : isDevice (Sample.fact name 0x10 0).fileAttributes = false :=
    show isDevice 0x10 = false by decide
  have isDir : isDirectory (Sample.fact name 0x10 0).fileAttributes = true :=
    show isDirectory 0x10 = true by decide
  have notReparse : isReparse (Sample.fact name 0x10 0).fileAttributes = false :=
    show isReparse 0x10 = false by decide
  have notDot : isDotName (Sample.fact name 0x10 0).name = false := named
  rw [descends, notDot, notDevice, isDir, notReparse]
  rfl

theorem complete_deniedTree {name : String} (named : isDotName name = false)
    (short : utf16Length name ≤ 255) : (Sample.deniedTree name).Complete := by
  apply DirectoryTree.Complete.node
  · intro cls
    cases cls with
    | extd =>
        refine ⟨.success [Sample.fact name 0x10 0], rfl, ?_, ?_⟩
        · intro fact factMem
          rw [List.mem_singleton.mp factMem]
          exact short
        · rw [DirEnumeration.facts, List.filter_cons_of_pos (descends_subdirectory named)]
          rfl
    | legacy => exact ⟨.success [], rfl, by simp [DirEnumeration.facts], rfl⟩
  · intro cls tree treeMem
    cases cls with
    | extd =>
        rw [List.mem_singleton.mp treeMem]
        apply DirectoryTree.Complete.node
        · intro cls
          cases cls with
          | extd => exact ⟨.openFailed 5, rfl, by simp [DirEnumeration.facts], rfl⟩
          | legacy => exact ⟨.openFailed 5, rfl, by simp [DirEnumeration.facts], rfl⟩
        · intro cls tree treeMem
          cases treeMem
    | legacy => cases treeMem

theorem explores_deniedTree {target : ValidatedScanTarget} {name : String}
    (named : isDotName name = false) :
    Explores (rootClass (Sample.root 0x10 0))
      (rootTrees target (Sample.root 0x10 0) (Sample.deniedTree name))
      (Sample.deniedReached target name) := by
  have below : childTrees target.location [Sample.fact name 0x10 0]
      [.node (Sample.unopened 5) (fun _ => [])] =
        [(target.location.child name, .node (Sample.unopened 5) (fun _ => []))] := by
    rw [childTrees, List.filter_cons_of_pos (descends_subdirectory named)]
    rfl
  have isDir : rootTrees target (Sample.root 0x10 0) (Sample.deniedTree name) =
      [(target.location, Sample.deniedTree name)] := rfl
  rw [isDir]
  have lists : (Sample.batched [Sample.fact name 0x10 0]).enumerate .extd =
      some (.success [Sample.fact name 0x10 0]) := rfl
  have denied : (Sample.unopened 5).enumerate .extd = some (.openFailed 5) := rfl
  refine Explores.turns rfl lists (by simp) ?_
  show Explores (some .extd) (childTrees target.location [Sample.fact name 0x10 0]
    [.node (Sample.unopened 5) (fun _ => [])] ++ []) _
  rw [below]
  exact Explores.turns rfl denied (by simp) Explores.done

/-- With a path below the target that does not fit, the scan fails. -/
theorem not_settled_denied {target : ValidatedScanTarget} {name : String}
    (named : isDotName name = false) (complete : (Sample.deniedTree name).Complete)
    (deep : ¬(childPath target.displayPath name).utf8ByteSize ≤ 65535) :
    ∃ ended, scanDirectory (writerEnv Sample.plainText 1) target (Sample.root 0x10 0)
        ((Sample.deniedReached target name).map Reached.answers) = some ended ∧
      ¬Settled ended := by
  have scanned := @settled_iff_shortReached Sample.plainText 1 target _ _ _ short_plainText
    complete (explores_deniedTree named)
  rcases scanned with ⟨ended, ran, _, settles⟩
  refine ⟨ended, ran, ?_⟩
  intro settled
  have below := (settles.mp settled).gaps _ (List.mem_cons_of_mem _ List.mem_cons_self)
  have gap : Reached.gap { target.location.child name with
      enumClass := .extd
      answers := Sample.unopened 5 } = some 5 := rfl
  rw [gap] at below
  exact deep (below (Option.some_ne_none 5))

theorem extended_deniedReached {target : ValidatedScanTarget} {name : String}
    (root : utf16Length target.extendedPath ≤ 32767)
    (below : utf16Length (childPath target.extendedPath name) ≤ 32767) :
    ∀ dir ∈ Sample.deniedReached target name, utf16Length dir.extendedPath ≤ 32767 := by
  intro dir dirMem
  simp only [Sample.deniedReached, List.mem_cons, List.not_mem_nil, or_false] at dirMem
  rcases dirMem with rfl | rfl
  · exact root
  · exact below

theorem scan_settles_iff_denied :
    (∃ reached, Explores (rootClass (Sample.root 0x10 0))
        (rootTrees Sample.target (Sample.root 0x10 0) (Sample.deniedTree "sub")) reached) ∧
      ∀ reached, Explores (rootClass (Sample.root 0x10 0))
          (rootTrees Sample.target (Sample.root 0x10 0) (Sample.deniedTree "sub")) reached →
        ∃ ended, scanDirectory (writerEnv Sample.plainText 1) Sample.target (Sample.root 0x10 0)
            (reached.map Reached.answers) = some ended ∧
          ((∃ term state, ended = .returned term state ∧
              state.emitted.getLast? = some (.terminal term)) ↔
            ((Sample.root 0x10 0).cancelled = true ∨
                Sample.target.displayPath.utf8ByteSize ≤ 65535) ∧
              ∀ dir ∈ reached, dir.gap ≠ none → dir.displayPath.utf8ByteSize ≤ 65535) :=
  scan_settles_iff short_plainText (complete_deniedTree (by decide) (by decide))

/-- The longest name that a directory can list, in a script of three bytes a character. -/
def Sample.wideName : String := String.ofList (List.replicate 255 '世')

/-- A directory under eighty-five directories of that name. -/
def Sample.deepPath : String :=
  String.ofList ('C' :: ':' :: (List.replicate 85 ('\\' :: List.replicate 255 '世')).flatten)

def Sample.deepTarget : ValidatedScanTarget where
  displayPath := Sample.deepPath
  extendedPath := "\\\\?\\" ++ Sample.deepPath

theorem utf8Len_flatten_replicate (count : ℕ) (cs : List Char) :
    String.utf8Len (List.replicate count cs).flatten = count * String.utf8Len cs := by
  induction count with
  | zero => simp
  | succ count ih =>
      rw [List.replicate_succ, List.flatten_cons, String.utf8Len_append, ih, Nat.succ_mul,
        Nat.add_comm]

/-- The size of a path of directories whose names are of one length. -/
theorem utf8ByteSize_path (depth width : ℕ) :
    (String.ofList ('C' :: ':' ::
      (List.replicate depth ('\\' :: List.replicate width '世')).flatten)).utf8ByteSize =
        depth * (width * 3 + 1) + 2 := by
  have component := utf8ByteSize_replicate width '世'
  have wide : '世'.utf8Size = 3 := rfl
  have separator : '\\'.utf8Size = 1 := rfl
  have drive : ':'.utf8Size + 'C'.utf8Size = 2 := rfl
  rw [String.utf8ByteSize_ofList, wide] at component
  rw [String.utf8ByteSize_ofList, String.utf8Len_cons, String.utf8Len_cons,
    utf8Len_flatten_replicate, String.utf8Len_cons, component, separator, Nat.add_assoc, drive]

theorem utf16Length_append (s t : String) :
    utf16Length (s ++ t) = utf16Length s + utf16Length t := by
  rw [utf16Length, String.toList_append, List.map_append, List.sum_append]
  rfl

theorem utf16Length_ofList_cons (c : Char) (cs : List Char) :
    utf16Length (String.ofList (c :: cs)) =
      (if c.toNat < 0x10000 then 1 else 2) + utf16Length (String.ofList cs) := by
  rw [utf16Length, String.toList_ofList, List.map_cons, List.sum_cons, utf16Length,
    String.toList_ofList]

theorem utf16Length_replicate (width : ℕ) :
    utf16Length (String.ofList (List.replicate width '世')) = width := by
  have unit : (if '世'.toNat < 0x10000 then 1 else 2) = 1 := rfl
  rw [utf16Length, String.toList_ofList, List.map_replicate, List.sum_replicate, unit,
    smul_eq_mul, Nat.mul_one]

theorem utf16Length_flatten_replicate (count : ℕ) (cs : List Char) :
    utf16Length (String.ofList (List.replicate count cs).flatten) =
      count * utf16Length (String.ofList cs) := by
  induction count with
  | zero => simp [utf16Length]
  | succ count ih =>
      rw [List.replicate_succ, List.flatten_cons, String.ofList_append, utf16Length_append, ih,
        Nat.succ_mul, Nat.add_comm]

theorem utf16Length_path (depth width : ℕ) :
    utf16Length (String.ofList ('C' :: ':' ::
      (List.replicate depth ('\\' :: List.replicate width '世')).flatten)) =
        2 + depth * (1 + width) := by
  have drive : (if 'C'.toNat < 0x10000 then 1 else 2) = 1 := rfl
  have colon : (if ':'.toNat < 0x10000 then 1 else 2) = 1 := rfl
  have separator : (if '\\'.toNat < 0x10000 then 1 else 2) = 1 := rfl
  rw [utf16Length_ofList_cons, utf16Length_ofList_cons, utf16Length_flatten_replicate,
    utf16Length_ofList_cons, utf16Length_replicate, drive, colon, separator, ← Nat.add_assoc]

theorem utf16Length_childPath (path name : String) :
    utf16Length (childPath path name) ≤ utf16Length path + 1 + utf16Length name := by
  have separator : utf16Length "\\" = 1 := rfl
  unfold childPath
  split
  · rw [utf16Length_append]
    omega
  · rw [utf16Length_append, utf16Length_append, separator]

theorem utf8ByteSize_childPath (path name : String) :
    path.utf8ByteSize + name.utf8ByteSize ≤ (childPath path name).utf8ByteSize := by
  unfold childPath
  split
  · rw [String.utf8ByteSize_append]
  · rw [String.utf8ByteSize_append, String.utf8ByteSize_append]
    omega

theorem isDotName_wideName : isDotName Sample.wideName = false := by
  have size : Sample.wideName.utf8ByteSize = 765 := utf8ByteSize_replicate 255 '世'
  refine decide_eq_false ?_
  rintro (dot | dots)
  · rw [dot] at size
    exact absurd size (by decide)
  · rw [dots] at size
    exact absurd size (by decide)

/-- One denied directory deep in a tree of valid names makes the whole scan fail. -/
theorem not_settled_deep :
    (Sample.deniedTree Sample.wideName).Complete ∧
      Explores (rootClass (Sample.root 0x10 0))
        (rootTrees Sample.deepTarget (Sample.root 0x10 0) (Sample.deniedTree Sample.wideName))
        (Sample.deniedReached Sample.deepTarget Sample.wideName) ∧
      (∀ dir ∈ Sample.deniedReached Sample.deepTarget Sample.wideName,
        utf16Length dir.extendedPath ≤ 32767) ∧
      ∃ ended, scanDirectory (writerEnv Sample.plainText 1) Sample.deepTarget
          (Sample.root 0x10 0)
          ((Sample.deniedReached Sample.deepTarget Sample.wideName).map Reached.answers) =
            some ended ∧
        ¬∃ term state, ended = .returned term state ∧
          state.emitted.getLast? = some (.terminal term) := by
  have size : Sample.deepTarget.displayPath.utf8ByteSize = 65112 := utf8ByteSize_path 85 255
  have nameSize : Sample.wideName.utf8ByteSize = 765 := utf8ByteSize_replicate 255 '世'
  have nameUnits : utf16Length Sample.wideName = 255 := utf16Length_replicate 255
  have extended : utf16Length Sample.deepTarget.extendedPath = 21766 := by
    have units : utf16Length Sample.deepPath = 21762 := utf16Length_path 85 255
    have verbatim : utf16Length "\\\\?\\" = 4 := rfl
    rw [Sample.deepTarget, utf16Length_append, units, verbatim]
  have complete : (Sample.deniedTree Sample.wideName).Complete :=
    complete_deniedTree isDotName_wideName (Nat.le_of_eq nameUnits)
  have deep : ¬(childPath Sample.deepTarget.displayPath Sample.wideName).utf8ByteSize ≤ 65535 := by
    have longer := utf8ByteSize_childPath Sample.deepTarget.displayPath Sample.wideName
    rw [size, nameSize] at longer
    omega
  have below : utf16Length (childPath Sample.deepTarget.extendedPath Sample.wideName) ≤ 32767 := by
    have longer := utf16Length_childPath Sample.deepTarget.extendedPath Sample.wideName
    rw [extended, nameUnits] at longer
    omega
  have root : utf16Length Sample.deepTarget.extendedPath ≤ 32767 := by
    rw [extended]
    decide
  refine ⟨complete, explores_deniedTree isDotName_wideName, extended_deniedReached root below, ?_⟩
  rcases not_settled_denied isDotName_wideName complete deep with ⟨ended, ran, fails⟩
  exact ⟨ended, ran, fails⟩

end Denied

end Worker

end PigTree
