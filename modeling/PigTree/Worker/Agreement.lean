import PigTree.Worker.Scan
import PigTree.Engine.Acceptance
import PigTree.Engine.Accounting

/-!
# The worker and the engine agree

The entries a scan writes are numbered in order, every one below a directory written
before it, and the counters of the scan are their totals modulo the width of a word. The
builder recomputes the totals with sums that stop at the largest word, so it accepts the
stream exactly when a wrapped total and a stopped one are the same.
-/

namespace PigTree

namespace Worker

open Foundation

/-! ### What is observed -/

/-- The entry that is written for a fact. -/
def entryOf (entryId parentId : UInt32) (fact : EntryFacts) : EntryObservation :=
  if isDevice fact.fileAttributes then .special (specialOf entryId parentId fact)
  else if isDirectory fact.fileAttributes then .directory (directoryOf entryId parentId fact)
  else .file (fileOf entryId parentId fact)

/-- The facts returned for the visited directories, without the dot names. -/
def observedFacts (visits : List Visit) : List EntryFacts :=
  (visits.flatMap (fun visit => visit.answer.facts)).filter (fun fact => !isDotName fact.name)

/-- The logical size a fact counts for. -/
def logicalOf (fact : EntryFacts) : ℕ :=
  if isDevice fact.fileAttributes ∨ isDirectory fact.fileAttributes then 0
  else fact.logicalSize.toNat

/-- The allocation a fact counts for. -/
def allocatedOf (fact : EntryFacts) : ℕ :=
  if isDevice fact.fileAttributes then 0 else (fact.allocatedSize.getD 0).toNat

/-- The allocation observed for the target itself. -/
def rootBytes (root : RootAnswers) : ℕ :=
  match rootFacts root with
  | .ok (_, reparseTag) => ((rootAllocated root reparseTag).getD 0).toNat
  | .error _ => 0

def observedLogical (visits : List Visit) : ℕ := ((observedFacts visits).map logicalOf).sum

def observedAllocated (root : RootAnswers) (visits : List Visit) : ℕ :=
  rootBytes root + ((observedFacts visits).map allocatedOf).sum

/-- A total that is the same whether its sum wraps or stops at the largest word. -/
def Fits (total : ℕ) : Prop := total < 2 ^ 64 ∨ total % 2 ^ 64 = 2 ^ 64 - 1

theorem fits_iff (total : ℕ) : Fits total ↔ total % 2 ^ 64 = clip total := by
  unfold Fits clip UInt64.size
  omega

/-- The entry that is written for some fact. -/
def Describes (entry : EntryObservation) (fact : EntryFacts) : Prop :=
  ∃ entryId parentId, entry = entryOf entryId parentId fact

section Describes

variable {entry : EntryObservation} {fact : EntryFacts}

theorem Describes.logicalBytes_eq (describes : Describes entry fact) :
    entry.logicalBytes = logicalOf fact := by
  rcases describes with ⟨entryId, parentId, rfl⟩
  unfold entryOf logicalOf
  by_cases device : isDevice fact.fileAttributes = true
  · simp only [device, if_true, true_or]
    rfl
  by_cases directory : isDirectory fact.fileAttributes = true
  · simp only [device, directory, if_true, or_true]
    rfl
  · simp only [device, directory, or_self]
    rfl

theorem Describes.allocatedBytes_eq (describes : Describes entry fact) :
    entry.allocatedBytes = allocatedOf fact := by
  rcases describes with ⟨entryId, parentId, rfl⟩
  unfold entryOf allocatedOf
  by_cases device : isDevice fact.fileAttributes = true
  · simp only [device, if_true]
    rfl
  by_cases directory : isDirectory fact.fileAttributes = true
  · simp only [device, directory, if_true]
    rfl
  · simp only [device, directory]
    simp [EntryObservation.allocatedBytes, EntryObservation.selfAllocated,
      EntryObservation.fileAllocated, fileOf]

theorem sum_of_describes {entries : List EntryObservation} {facts : List EntryFacts}
    {value : EntryObservation → ℕ} {factValue : EntryFacts → ℕ}
    (same : ∀ entry fact, Describes entry fact → value entry = factValue fact)
    (describes : List.Forall₂ Describes entries facts) :
    (entries.map value).sum = (facts.map factValue).sum := by
  induction describes with
  | nil => rfl
  | cons first rest ih =>
      rw [List.map_cons, List.map_cons, List.sum_cons, List.sum_cons, same _ _ first, ih]

end Describes

/-! ### One entry -/

/-- What the emission of an entry does to the records, the counters and the stack. -/
structure Enters (currentDir : DirectoryStackItem) (fact : EntryFacts) (state next : ScanState)
    (record : ObservationRecord) : Prop where
  entry : record.entry? = some (entryOf state.nextEntryId currentDir.entryId fact)
  emitted : next.emitted = state.emitted ++ [record]
  nextId : next.nextEntryId = state.nextEntryId + 1
  directories : next.totalDirectories = state.totalDirectories + UInt64.ofNat
    (if isDevice fact.fileAttributes then 0 else if isDirectory fact.fileAttributes then 1 else 0)
  files : next.totalFiles = state.totalFiles + UInt64.ofNat
    (if isDevice fact.fileAttributes then 0 else if isDirectory fact.fileAttributes then 0 else 1)
  logical : next.totalLogicalBytes = state.totalLogicalBytes + UInt64.ofNat (logicalOf fact)
  allocated : next.totalAllocatedBytes = state.totalAllocatedBytes + UInt64.ofNat (allocatedOf fact)
  gaps : next.coverageGapCount = state.coverageGapCount
  visits : next.visits = state.visits
  stack : ∀ item ∈ next.stack, item ∈ state.stack ∨ item.entryId = state.nextEntryId ∧
    (entryOf state.nextEntryId currentDir.entryId fact).kind = .directory

variable {currentDir : DirectoryStackItem} {fact : EntryFacts} {state next : ScanState}

/-- A pushed child changes nothing but the stack, which it joins with its identifier. -/
theorem pushChild_eq (entryId : UInt32) (position : ℕ) : ∃ stack,
    pushChild currentDir entryId position fact state = { state with stack } ∧
      ∀ item ∈ stack, item ∈ state.stack ∨ item.entryId = entryId := by
  unfold pushChild
  split
  · exact ⟨state.stack, rfl, fun item itemMem => Or.inl itemMem⟩
  · refine ⟨_, rfl, ?_⟩
    intro item itemMem
    rcases List.mem_cons.mp itemMem with rfl | below
    · exact Or.inr rfl
    · exact Or.inl below

/-- A fact is skipped for its dot name, or enters the stream. -/
theorem Emits.enters (emits : Emits currentDir fact state next) :
    isDotName fact.name = true ∧ next = state ∨
      isDotName fact.name = false ∧ ∃ record, Enters currentDir fact state next record := by
  cases emits with
  | skipped dot => exact Or.inl ⟨dot, rfl⟩
  | special named device =>
      refine Or.inr ⟨named, .special (specialOf state.nextEntryId currentDir.entryId fact), ?_⟩
      have entry : entryOf state.nextEntryId currentDir.entryId fact =
          .special (specialOf state.nextEntryId currentDir.entryId fact) := by
        rw [entryOf, if_pos device]
      constructor <;> simp [entry, written, takeEntryId, device, logicalOf, allocatedOf,
        ObservationRecord.entry?]
      exact fun item itemMem => Or.inl itemMem
  | directory named notDevice isDir =>
      refine Or.inr ⟨named, .directory (directoryOf state.nextEntryId currentDir.entryId fact), ?_⟩
      have entry : entryOf state.nextEntryId currentDir.entryId fact =
          .directory (directoryOf state.nextEntryId currentDir.entryId fact) := by
        rw [entryOf, if_neg (by simp [notDevice]), if_pos isDir]
      rw [addAllocated_eq]
      rcases pushChild_eq state.nextEntryId state.emitted.length with ⟨stack, pushed, onStack⟩
      rw [pushed]
      constructor <;> simp [entry, written, takeEntryId, notDevice, isDir, logicalOf, allocatedOf,
        ObservationRecord.entry?, EntryObservation.kind]
      exact onStack
  | file named notDevice notDir =>
      refine Or.inr ⟨named, .file (fileOf state.nextEntryId currentDir.entryId fact), ?_⟩
      have entry : entryOf state.nextEntryId currentDir.entryId fact =
          .file (fileOf state.nextEntryId currentDir.entryId fact) := by
        rw [entryOf, if_neg (by simp [notDevice]), if_neg (by simp [notDir])]
      rw [addAllocated_eq]
      constructor <;> simp [entry, written, takeEntryId, notDevice, notDir, logicalOf, allocatedOf,
        ObservationRecord.entry?]
      exact fun item itemMem => Or.inl itemMem

/-! ### Numbered entries -/

/-- Entries numbered from `1` in the order they are written. -/
def Numbered (entries : List EntryObservation) : Prop :=
  ∀ idx entry, entries[idx]? = some entry → entry.entryId = UInt32.ofNat (idx + 1)

section Numbered

variable {entries : List EntryObservation} {entry : EntryObservation}

theorem Numbered.push (numbered : Numbered entries)
    (following : entry.entryId = UInt32.ofNat (entries.length + 1)) :
    Numbered (entries ++ [entry]) := by
  intro idx other found
  rw [List.getElem?_append] at found
  split at found
  · exact numbered idx other found
  · next beyond =>
      rw [List.getElem?_singleton] at found
      split at found
      · next last =>
          cases found
          rw [following]
          congr 1
          omega
      · cases found

theorem Numbered.toNat (numbered : Numbered entries) (short : entries.length < 2 ^ 32)
    (entryMem : entry ∈ entries) :
    ∃ idx < entries.length, entry.entryId.toNat = idx + 1 := by
  rcases List.mem_iff_getElem?.mp entryMem with ⟨idx, found⟩
  have inside := (List.getElem?_eq_some_iff.mp found).1
  refine ⟨idx, inside, ?_⟩
  have word : idx + 1 < UInt32.size := by
    change idx + 1 < 2 ^ 32
    omega
  rw [numbered idx entry found, UInt32.toNat_ofNat_of_lt' word]

/-- The next number is not used yet, and no number in use is `0`. -/
theorem Numbered.fresh (numbered : Numbered entries) (short : entries.length + 1 < 2 ^ 32) :
    UInt32.ofNat (entries.length + 1) ∉ entries.map EntryObservation.entryId := by
  intro used
  rcases List.mem_map.mp used with ⟨other, otherMem, same⟩
  rcases numbered.toNat (by omega) otherMem with ⟨idx, inside, number⟩
  rw [same, UInt32.toNat_ofNat_of_lt' short] at number
  omega

theorem Numbered.ne_zero (numbered : Numbered entries) (short : entries.length < 2 ^ 32)
    (entryMem : entry ∈ entries) : entry.entryId ≠ 0 := by
  intro zero
  rcases numbered.toNat short entryMem with ⟨idx, _, number⟩
  rw [zero] at number
  cases number

end Numbered

/-! ### The stream against the counters -/

/-- A directory has been written under the identifier. -/
def IsListed (records : List ObservationRecord) (id : UInt32) : Prop :=
  ∃ dir ∈ entriesOf records, dir.entryId = id ∧ dir.kind = .directory

/-- The records written so far form a tree as long as the numbers do not repeat, and the
counters of the scan are their totals. -/
structure Streamed (state : ScanState) : Prop where
  plain : ∀ record ∈ state.emitted, GraphBuilder.IsPlain record
  numbered : Numbered (entriesOf state.emitted)
  nextId : state.nextEntryId = UInt32.ofNat ((entriesOf state.emitted).length + 1)
  directories : state.totalDirectories =
    UInt64.ofNat ((entriesOf state.emitted).countP (fun entry => entry.kind = .directory))
  files : state.totalFiles =
    UInt64.ofNat ((entriesOf state.emitted).countP (fun entry => entry.kind = .file))
  logical : state.totalLogicalBytes =
    UInt64.ofNat ((entriesOf state.emitted).map EntryObservation.logicalBytes).sum
  allocated : state.totalAllocatedBytes =
    UInt64.ofNat ((entriesOf state.emitted).map EntryObservation.allocatedBytes).sum
  gaps : state.coverageGapCount = UInt32.ofNat (gapsOf state.emitted).length
  tree : (entriesOf state.emitted).length < 2 ^ 32 → WellFormed (entriesOf state.emitted)
  listed : ∀ item ∈ state.stack, IsListed state.emitted item.entryId

/-- The root and the entries of the facts seen so far, in order. -/
def Follows (root : EntryObservation) (facts : List EntryFacts)
    (records : List ObservationRecord) : Prop :=
  ∃ below, entriesOf records = root :: below ∧ List.Forall₂ Describes below facts

section Enters

variable {record : ObservationRecord}

theorem IsListed.append {records : List ObservationRecord} {id : UInt32}
    (listed : IsListed records id) (more : List ObservationRecord) :
    IsListed (records ++ more) id := by
  rcases listed with ⟨dir, dirMem, named⟩
  refine ⟨dir, ?_, named⟩
  rw [entriesOf, List.filterMap_append]
  exact List.mem_append_left _ dirMem

theorem Enters.entriesOf_eq (enters : Enters currentDir fact state next record) :
    entriesOf next.emitted =
      entriesOf state.emitted ++ [entryOf state.nextEntryId currentDir.entryId fact] := by
  rw [enters.emitted, GraphBuilder.entriesOf_concat, enters.entry]
  rfl

theorem Enters.plain (enters : Enters currentDir fact state next record) :
    GraphBuilder.IsPlain record := by
  have isEntry := enters.entry
  cases record with
  | directory dir => exact ⟨rfl, rfl⟩
  | file file => exact ⟨rfl, rfl⟩
  | special special => exact ⟨rfl, rfl⟩
  | contentStream stream => cases isEntry
  | coverageGap gap => cases isEntry
  | terminal term => cases isEntry

theorem gapsOf_concat (records : List ObservationRecord) (record : ObservationRecord) :
    gapsOf (records ++ [record]) = gapsOf records ++ record.gap?.toList := by
  rw [gapsOf, List.filterMap_append]
  cases record <;> rfl

theorem Enters.gapsOf_eq (enters : Enters currentDir fact state next record) :
    gapsOf next.emitted = gapsOf state.emitted := by
  have isEntry := enters.entry
  rw [enters.emitted, gapsOf_concat]
  cases record with
  | directory dir => exact List.append_nil _
  | file file => exact List.append_nil _
  | special special => exact List.append_nil _
  | contentStream stream => cases isEntry
  | coverageGap gap => cases isEntry
  | terminal term => cases isEntry

@[simp]
theorem entryOf_entryId (entryId parentId : UInt32) (fact : EntryFacts) :
    (entryOf entryId parentId fact).entryId = entryId := by
  unfold entryOf
  split
  · rfl
  split <;> rfl

@[simp]
theorem entryOf_parentId (entryId parentId : UInt32) (fact : EntryFacts) :
    (entryOf entryId parentId fact).parentId = parentId := by
  unfold entryOf
  split
  · rfl
  split <;> rfl

theorem entryOf_kind (entryId parentId : UInt32) (fact : EntryFacts) :
    (entryOf entryId parentId fact).kind =
      if isDevice fact.fileAttributes then .special
      else if isDirectory fact.fileAttributes then .directory else .file := by
  unfold entryOf
  split
  · rfl
  split <;> rfl

/-- An entry below a listed directory keeps the invariant. -/
theorem Streamed.enters (streamed : Streamed state)
    (listed : IsListed state.emitted currentDir.entryId)
    (enters : Enters currentDir fact state next record) : Streamed next where
  plain := by
    intro other otherMem
    rw [enters.emitted] at otherMem
    rcases List.mem_append.mp otherMem with old | new
    · exact streamed.plain other old
    · rw [List.mem_singleton] at new
      rw [new]
      exact enters.plain
  numbered := by
    rw [enters.entriesOf_eq]
    apply streamed.numbered.push
    rw [entryOf_entryId, streamed.nextId]
  nextId := by
    rw [enters.nextId, streamed.nextId, enters.entriesOf_eq, List.length_append,
      List.length_singleton, UInt32.ofNat_add (_ + 1) 1]
    rfl
  directories := by
    rw [enters.directories, streamed.directories, enters.entriesOf_eq, List.countP_append,
      List.countP_singleton, UInt64.ofNat_add, entryOf_kind]
    congr 2
    split
    · rfl
    split <;> rfl
  files := by
    rw [enters.files, streamed.files, enters.entriesOf_eq, List.countP_append,
      List.countP_singleton, UInt64.ofNat_add, entryOf_kind]
    congr 2
    split
    · rfl
    split <;> rfl
  logical := by
    have counted : (entryOf state.nextEntryId currentDir.entryId fact).logicalBytes =
        logicalOf fact := Describes.logicalBytes_eq ⟨_, _, rfl⟩
    rw [enters.logical, streamed.logical, enters.entriesOf_eq, List.map_append, List.sum_append,
      UInt64.ofNat_add, List.map_singleton, List.sum_singleton, counted]
  allocated := by
    have counted : (entryOf state.nextEntryId currentDir.entryId fact).allocatedBytes =
        allocatedOf fact := Describes.allocatedBytes_eq ⟨_, _, rfl⟩
    rw [enters.allocated, streamed.allocated, enters.entriesOf_eq, List.map_append,
      List.sum_append, UInt64.ofNat_add, List.map_singleton, List.sum_singleton, counted]
  gaps := by
    rw [enters.gaps, streamed.gaps, enters.gapsOf_eq]
  tree := by
    intro short
    rw [enters.entriesOf_eq, List.length_append, List.length_singleton] at short
    rcases listed with ⟨dir, dirMem, named, directory⟩
    rw [enters.entriesOf_eq]
    apply (streamed.tree (by omega)).push (List.ne_nil_of_mem dirMem) _ _ dirMem _ directory
    · rw [entryOf_entryId, streamed.nextId]
      exact streamed.numbered.fresh short
    · rw [entryOf_parentId, ← named]
      exact streamed.numbered.ne_zero (by omega) dirMem
    · rw [entryOf_parentId, named]
  listed := by
    intro item itemMem
    rcases enters.stack item itemMem with old | ⟨named, directory⟩
    · rw [enters.emitted]
      exact (streamed.listed item old).append [record]
    · refine ⟨_, ?_, ?_, directory⟩
      · rw [enters.entriesOf_eq]
        exact List.mem_append_right _ (List.mem_singleton_self _)
      · rw [entryOf_entryId, named]

theorem Follows.ne_nil {root : EntryObservation} {facts : List EntryFacts}
    {records : List ObservationRecord} (follows : Follows root facts records) :
    entriesOf records ≠ [] := by
  rcases follows with ⟨below, split, _⟩
  rw [split]
  exact List.cons_ne_nil _ _

theorem Follows.enters {root : EntryObservation} {facts : List EntryFacts}
    (follows : Follows root facts state.emitted)
    (enters : Enters currentDir fact state next record) :
    Follows root (facts ++ [fact]) next.emitted := by
  rcases follows with ⟨below, split, describes⟩
  refine ⟨below ++ [entryOf state.nextEntryId currentDir.entryId fact], ?_, ?_⟩
  · rw [enters.entriesOf_eq, split, List.cons_append]
  · exact List.rel_append describes (List.Forall₂.cons ⟨_, _, rfl⟩ List.Forall₂.nil)

end Enters

/-! ### Steps -/

/-- The invariant of a scan below an accepted root record. -/
structure Recorded (root : EntryObservation) (facts : List EntryFacts) (state : ScanState) :
    Prop where
  streamed : Streamed state
  follows : Follows root facts state.emitted

section Steps

variable {ε : Type} {env : ScanEnv ε} {root : EntryObservation} {seen : List EntryFacts}
  {stack : List DirectoryStackItem}

theorem Recorded.emitFacts {facts : List EntryFacts} (recorded : Recorded root seen state)
    (listed : IsListed state.emitted currentDir.entryId)
    (ran : emitFacts env currentDir facts state = .ok next) :
    Recorded root (seen ++ facts.filter (fun fact => !isDotName fact.name)) next ∧
      next.visits = state.visits := by
  induction facts generalizing seen state with
  | nil =>
      cases ran
      refine ⟨?_, rfl⟩
      rwa [List.filter_nil, List.append_nil]
  | cons fact facts ih =>
      rw [Worker.emitFacts, bind_eq_ok] at ran
      rcases ran with ⟨later, emitted, ran⟩
      rcases (emitFact_ok emitted).enters with ⟨dot, rfl⟩ | ⟨named, record, enters⟩
      · rw [List.filter_cons_of_neg (by simp [dot])]
        exact ih recorded listed ran
      · rw [List.filter_cons_of_pos (by simp [named]), List.append_cons, ← enters.visits]
        apply ih _ _ ran
        · exact ⟨recorded.streamed.enters listed enters, recorded.follows.enters enters⟩
        · rw [enters.emitted]
          exact listed.append [record]

/-- A recorded gap leaves the entries alone. -/
theorem Streamed.gap {path errorMessage : String} {errorCode : UInt32}
    (streamed : Streamed state)
    (ran : recordGap env path errorCode errorMessage state = .ok next) :
    Streamed next ∧ entriesOf next.emitted = entriesOf state.emitted ∧
      next.visits = state.visits := by
  have same := recordGap_ok ran
  have entries : entriesOf next.emitted = entriesOf state.emitted := by
    rw [same]
    exact (GraphBuilder.entriesOf_concat _).trans (List.append_nil _)
  have gaps : gapsOf next.emitted = gapsOf state.emitted ++
      [CoverageGapObservation.mk path errorCode errorMessage] := by
    rw [same]
    exact gapsOf_concat _ _
  refine ⟨?_, entries, by rw [same, written]⟩
  constructor
  · intro other otherMem
    rw [same] at otherMem
    rcases List.mem_append.mp otherMem with old | new
    · exact streamed.plain other old
    · rw [List.mem_singleton] at new
      rw [new]
      exact ⟨rfl, rfl⟩
  · rw [entries]
    exact streamed.numbered
  · rw [entries, same]
    exact streamed.nextId
  · rw [entries, same]
    exact streamed.directories
  · rw [entries, same]
    exact streamed.files
  · rw [entries, same]
    exact streamed.logical
  · rw [entries, same]
    exact streamed.allocated
  · rw [gaps, List.length_append, UInt32.ofNat_add, ← streamed.gaps, same]
    rfl
  · rw [entries]
    exact streamed.tree
  · intro item itemMem
    rw [same] at itemMem ⊢
    exact (streamed.listed item itemMem).append _

/-- A state that differs only in what has been visited and in a shorter stack. -/
theorem Streamed.pop (streamed : Streamed state) (top : state.stack = currentDir :: stack)
    (enumClass : Option EnumClass) (visits : List Visit) :
    Streamed { state with stack, enumClass, visits } where
  plain := streamed.plain
  numbered := streamed.numbered
  nextId := streamed.nextId
  directories := streamed.directories
  files := streamed.files
  logical := streamed.logical
  allocated := streamed.allocated
  gaps := streamed.gaps
  tree := streamed.tree
  listed := by
    intro item itemMem
    apply streamed.listed
    rw [top]
    exact List.mem_cons_of_mem _ itemMem

theorem Recorded.gap {path errorMessage : String} {errorCode : UInt32}
    (recorded : Recorded root seen state)
    (ran : recordGap env path errorCode errorMessage state = .ok next) :
    Recorded root seen next ∧ next.visits = state.visits ∧
      ∀ id, IsListed state.emitted id → IsListed next.emitted id := by
  rcases recorded.streamed.gap ran with ⟨streamed, entries, visits⟩
  refine ⟨⟨streamed, ?_⟩, visits, ?_⟩
  · unfold Follows
    rw [entries]
    exact recorded.follows
  · intro id listed
    unfold IsListed
    rw [entries]
    exact listed

/-- The invariant of the traversal: everything returned so far has been written. -/
abbrev Traversed (root : EntryObservation) (state : ScanState) : Prop :=
  Recorded root (observedFacts state.visits) state

/-- One more visit, with its facts written. -/
theorem Recorded.traversed {visits : List Visit} {visit : Visit}
    (recorded : Recorded root (observedFacts visits ++
      visit.answer.facts.filter (fun fact => !isDotName fact.name)) next)
    (visited : next.visits = visits ++ [visit]) : Traversed root next := by
  have facts : observedFacts next.visits = observedFacts visits ++
      visit.answer.facts.filter (fun fact => !isDotName fact.name) := by
    rw [visited]
    simp [observedFacts]
  rw [Traversed, facts]
  exact recorded

/-- A visit that returned nothing. -/
theorem Recorded.visit {handle : Option (Except UInt32 Unit)} {enumeration : DirEnumeration}
    (recorded : Recorded root (observedFacts state.visits) next)
    (nothing : enumeration.facts = [])
    (visits : next.visits =
      (visited state stack currentDir (selectClass state.enumClass handle) enumeration).visits) :
    Traversed root next := by
  apply Recorded.traversed _ visits
  rwa [nothing, List.filter_nil, List.append_nil]

theorem Recorded.absorb {handle : Option (Except UInt32 Unit)} {enumeration : DirEnumeration}
    (traversed : Traversed root state) (top : state.stack = currentDir :: stack)
    (absorbed : absorb env currentDir enumeration
      (visited state stack currentDir (selectClass state.enumClass handle) enumeration) =
        .ok next) : Traversed root next := by
  have listed : IsListed state.emitted currentDir.entryId := by
    apply traversed.streamed.listed
    rw [top]
    exact List.mem_cons_self
  have popped : Recorded root (observedFacts state.visits)
      (visited state stack currentDir (selectClass state.enumClass handle) enumeration) :=
    ⟨traversed.streamed.pop top _ _, traversed.follows⟩
  cases enumeration with
  | cancelled =>
      cases absorbed
      exact popped.visit rfl rfl
  | success facts =>
      rcases popped.emitFacts listed absorbed with ⟨recorded, visits⟩
      exact recorded.traversed visits
  | openFailed errorCode =>
      simp only [Worker.absorb] at absorbed
      split at absorbed
      · rcases popped.gap absorbed with ⟨recorded, visits, _⟩
        exact recorded.visit rfl visits
      · cases absorbed
        exact popped.visit rfl rfl
  | incomplete facts errorCode =>
      simp only [Worker.absorb, bind_eq_ok] at absorbed
      rcases absorbed with ⟨gapped, gap, emitted⟩
      rcases popped.gap gap with ⟨recorded, gapVisits, stays⟩
      rcases recorded.emitFacts (stays _ listed) emitted with ⟨recorded, visits⟩
      exact recorded.traversed (visits.trans gapVisits)

end Steps

/-! ### Runs -/

section Runs

variable {ε : Type} {env : ScanEnv ε} {target : ValidatedScanTarget} {root : RootAnswers}
  {answers : List DirectoryAnswers} {term : TerminalObservation}

theorem streamed_start : Streamed ScanState.start where
  plain := by simp [ScanState.start]
  numbered := by simp [Numbered, ScanState.start, entriesOf]
  nextId := rfl
  directories := rfl
  files := rfl
  logical := rfl
  allocated := rfl
  gaps := rfl
  tree := fun _ => WellFormed.nil
  listed := by simp [ScanState.start]

theorem recorded_enterRoot {data : FindData} {reparseTag : UInt32}
    (entered : enterRoot env target root data reparseTag = .ok state) :
    Traversed (.directory (rootDirectory target root data reparseTag)) state := by
  rw [enterRoot, bind_eq_ok] at entered
  rcases entered with ⟨wrote, ran, result⟩
  cases result
  rw [writeRecord_ok ran, addAllocated_eq]
  refine ⟨?_, [], rfl, List.Forall₂.nil⟩
  exact {
    plain := by
      intro record recordMem
      rw [List.mem_singleton.mp recordMem]
      exact ⟨rfl, rfl⟩
    numbered := by
      intro idx entry found
      cases idx with
      | zero =>
          cases found
          rfl
      | succ idx => cases found
    nextId := rfl
    directories := rfl
    files := rfl
    logical := rfl
    allocated := by
      simp [written, entriesOf, ScanState.start, ObservationRecord.entry?,
        EntryObservation.allocatedBytes, EntryObservation.selfAllocated,
        EntryObservation.fileAllocated]
    gaps := rfl
    tree := fun _ => WellFormed.root rfl rfl rfl
    listed := by
      intro item itemMem
      rw [List.mem_singleton.mp itemMem]
      exact ⟨_, List.mem_singleton_self _, rfl, rfl⟩ }

/-- What a scan that ends has written: nothing about entries, or the root and all facts. -/
inductive Observed (target : ValidatedScanTarget) (root : RootAnswers) (state : ScanState) : Prop
  | nothing (entries : entriesOf state.emitted = []) (visits : state.visits = [])
  | below (data : FindData) (reparseTag : UInt32) (facts : rootFacts root = .ok (data, reparseTag))
      (follows : Follows (.directory (rootDirectory target root data reparseTag))
        (observedFacts state.visits) state.emitted)

/-- Every run in which no record is refused settles a state whose counters are the totals
of its stream; without entries it has not finished. -/
theorem returned_streamed
    (ran : scanDirectory env target root answers = some (.returned term state)) :
    ∃ outcome last, settle env outcome last = .returned term state ∧ Streamed last ∧
      Observed target root last ∧ (entriesOf last.emitted = [] → outcome ≠ .finished) := by
  have ends : ScanEnds env target root (fun state => ∃ data reparseTag,
      rootFacts root = .ok (data, reparseTag) ∧
        Traversed (.directory (rootDirectory target root data reparseTag)) state)
      (.returned term state) := by
    refine scanDirectory_ends ?_ ?_ ran
    · intro data reparseTag state facts entered
      exact ⟨data, reparseTag, facts, recorded_enterRoot entered⟩
    · rintro state currentDir stack handle enumeration next ⟨data, reparseTag, facts, here⟩ top _
        absorbed
      exact ⟨data, reparseTag, facts, here.absorb top absorbed⟩
  rcases (⟨_, rfl⟩ : ∃ ended, ended = ScanEnd.returned term state) with ⟨ended, same⟩
  rw [← same] at ends
  cases ends with
  | cancelled early =>
      refine ⟨.cancelled, _, same, streamed_start, Observed.nothing rfl rfl, ?_⟩
      intro _ impossible
      cases impossible
  | refused errorCode errorMessage goesOn text =>
      unfold refuseTarget at same
      split at same
      · cases same
      · next refused gap =>
          rcases streamed_start.gap gap with ⟨streamed, entries, visits⟩
          refine ⟨.failed, _, same, streamed, Observed.nothing entries visits, ?_⟩
          intro _ impossible
          cases impossible
  | rootRefused goesOn fails => cases same
  | traversed ends =>
      cases ends with
      | finished here exhausted =>
          rcases here with ⟨data, reparseTag, facts, here⟩
          exact ⟨.finished, _, same, here.streamed,
            Observed.below data reparseTag facts here.follows,
            fun empty => absurd empty here.follows.ne_nil⟩
      | cancelledBefore here top =>
          rcases here with ⟨data, reparseTag, facts, here⟩
          exact ⟨.cancelled, _, same, here.streamed.pop top _ _,
            Observed.below data reparseTag facts here.follows,
            fun empty => absurd empty here.follows.ne_nil⟩
      | @cancelledWithin last currentDir stack handle here top =>
          rcases here with ⟨data, reparseTag, facts, here⟩
          have popped : Traversed (.directory (rootDirectory target root data reparseTag))
              (visited last stack currentDir (selectClass last.enumClass handle) .cancelled) :=
            Recorded.visit ⟨here.streamed.pop top _ _, here.follows⟩ rfl rfl
          exact ⟨.cancelled, _, same, popped.streamed,
            Observed.below data reparseTag facts popped.follows,
            fun empty => absurd empty popped.follows.ne_nil⟩
      | refused handle here top fails => cases same

end Runs

/-! ### The builder's side -/

/-- The builder accepts the whole stream, has the totals of the terminal record, and
finishes with a graph that carries this record. -/
def Agreed (rt : Runtime) (rootTarget : String) (term : TerminalObservation)
    (records : List ObservationRecord) : Prop :=
  ∃ builder graph, (GraphBuilder.new rootTarget).ingestAll records = .ok (.ok (), builder) ∧
    GraphBuilder.Reconciled builder term ∧ builder.finish rt = .ok (.ok graph) ∧
      graph.terminal = term

section Agreed

variable {ε : Type} {env : ScanEnv ε} {last : ScanState} {outcome : RunOutcome}
  {term : TerminalObservation} {rootTarget : String} {builder : GraphBuilder}

/-- Counters and totals agree exactly when the sums fit. -/
theorem Streamed.reconciled_iff (streamed : Streamed last)
    (represents : GraphBuilder.Represents rootTarget builder last.emitted)
    (settled : settle env outcome last = .returned term state) :
    GraphBuilder.Reconciled builder term ↔
      Fits ((entriesOf last.emitted).map EntryObservation.logicalBytes).sum ∧
        Fits ((entriesOf last.emitted).map EntryObservation.allocatedBytes).sum := by
  have totals := (settle_returned settled).1
  have tally := represents.tally
  have wraps : ∀ (word stopped : UInt64) (total : ℕ), word = UInt64.ofNat total →
      stopped.toNat = clip total → (word = stopped ↔ Fits total) := by
    intro word stopped total wrapped clipped
    rw [fits_iff, ← clipped, ← UInt64.toNat_inj, wrapped, UInt64.toNat_ofNat']
  have logical := wraps _ _ _ streamed.logical tally.logical_eq
  have allocated := wraps _ _ _ streamed.allocated tally.allocated_eq
  rw [← logical, ← allocated, totals]
  constructor
  · intro reconciled
    exact ⟨reconciled.logical, reconciled.allocated⟩
  · rintro ⟨sameLogical, sameAllocated⟩
    exact {
      directories := streamed.directories.trans tally.dirCount_eq.symm
      files := streamed.files.trans tally.fileCount_eq.symm
      logical := sameLogical
      allocated := sameAllocated
      gaps := by
        rw [represents.gaps_eq]
        exact streamed.gaps }

/-- The stream is accepted as far as its terminal record. -/
theorem Streamed.fed (streamed : Streamed last) (rootTarget : String)
    (short : (entriesOf last.emitted).length < 2 ^ 32) :
    ∃ builder, (GraphBuilder.new rootTarget).ingestAll last.emitted = .ok (.ok (), builder) ∧
      GraphBuilder.Represents rootTarget builder last.emitted ∧ builder.terminal = none := by
  have start := GraphBuilder.Represents.new rootTarget
  rcases start.ingestAll_plain rfl streamed.plain (streamed.tree short) short with
    ⟨builder, fed, represents, unsettled⟩
  exact ⟨builder, fed, represents, unsettled⟩

theorem entriesOf_terminal (records : List ObservationRecord) (term : TerminalObservation) :
    entriesOf (records ++ [.terminal term]) = entriesOf records := by
  rw [GraphBuilder.entriesOf_concat]
  exact List.append_nil _

/-- A settled stream is agreed on exactly when its numbers do not repeat, its sums fit and
its directories can afford what their children have lost. -/
theorem Streamed.agreed_iff (streamed : Streamed last) (rt : Runtime) (rootTarget : String)
    (settled : settle env outcome last = .returned term state)
    (nonempty : entriesOf last.emitted = [] → outcome ≠ .finished) :
    Agreed rt rootTarget term state.emitted ↔
      (entriesOf last.emitted).length < 2 ^ 32 ∧
        Fits ((entriesOf last.emitted).map EntryObservation.logicalBytes).sum ∧
          Fits ((entriesOf last.emitted).map EntryObservation.allocatedBytes).sum ∧
            ∃ s : Snapshot, s.entries = entriesOf last.emitted ∧ GraphBuilder.Affordable s := by
  rcases settle_returned settled with ⟨totals, rfl⟩
  have entries : entriesOf (written (.terminal term) last).emitted = entriesOf last.emitted :=
    entriesOf_terminal last.emitted term
  have notFinished : entriesOf (written (.terminal term) last).emitted = [] →
      term.outcome ≠ .finished := by
    intro none
    rw [totals]
    exact nonempty (entries.symm.trans none)
  have ended : ∀ builder, GraphBuilder.Reached rootTarget builder
      (written (.terminal term) last).emitted → builder.terminal = some term := by
    intro builder reached
    rw [reached.represents.terminal_eq]
    exact congrArg (Option.bind · ObservationRecord.terminal?) List.getLast?_concat
  have delivers : ∀ builder, (reached : GraphBuilder.Reached rootTarget builder
      (written (.terminal term) last).emitted) →
        ((∃ graph, builder.finish rt = .ok (.ok graph) ∧ graph.terminal = term) ↔
          (entriesOf last.emitted).length < 2 ^ 32 ∧ GraphBuilder.Affordable reached.snapshot) := by
    intro builder reached
    rw [reached.delivers_iff rt (ended builder reached) notFinished, entries]
  constructor
  · rintro ⟨builder, graph, fed, _, finished, same⟩
    have reached := GraphBuilder.Reached.of_ingestAll fed
    rcases (delivers builder reached).mp ⟨graph, finished, same⟩ with ⟨short, affordable⟩
    rcases streamed.fed rootTarget short with ⟨before, accepted, represents, unsettled⟩
    have reconciled := (GraphBuilder.ingestAll_terminal_iff unsettled accepted term).mp ⟨_, fed⟩
    rcases (streamed.reconciled_iff represents settled).mp reconciled with ⟨logical, allocated⟩
    exact ⟨short, logical, allocated, reached.snapshot, entries, affordable⟩
  · rintro ⟨short, logical, allocated, s, same, affordable⟩
    rcases streamed.fed rootTarget short with ⟨before, accepted, represents, unsettled⟩
    have reconciled := (streamed.reconciled_iff represents settled).mpr ⟨logical, allocated⟩
    rcases (GraphBuilder.ingestAll_terminal_iff unsettled accepted term).mpr reconciled with
      ⟨builder, fed⟩
    have reached := GraphBuilder.Reached.of_ingestAll fed
    have isSnapshot : s = reached.snapshot :=
      Snapshot.eq_of_entries (same.trans (entries.symm.trans reached.snapshot_entries.symm))
    subst isSnapshot
    rcases (delivers builder reached).mpr ⟨short, affordable⟩ with ⟨graph, finished, carries⟩
    have agrees := reached.represents.reconciled term (ended builder reached)
    exact ⟨builder, graph, fed, agrees, finished, carries⟩

end Agreed

/-! ### Every run -/

section EveryRun

variable {ε : Type} {env : ScanEnv ε} {target : ValidatedScanTarget} {root : RootAnswers}
  {answers : List DirectoryAnswers} {term : TerminalObservation}

/-- The totals of a stream that begins with the root are those of what was observed. -/
theorem Follows.totals {data : FindData} {reparseTag : UInt32} {facts : List EntryFacts}
    {records : List ObservationRecord}
    (follows : Follows (.directory (rootDirectory target root data reparseTag)) facts records) :
    (entriesOf records).length = facts.length + 1 ∧
      ((entriesOf records).map EntryObservation.logicalBytes).sum = (facts.map logicalOf).sum ∧
        ((entriesOf records).map EntryObservation.allocatedBytes).sum =
          ((rootAllocated root reparseTag).getD 0).toNat + (facts.map allocatedOf).sum := by
  rcases follows with ⟨below, split, describes⟩
  have logical := sum_of_describes (fun _ _ => Describes.logicalBytes_eq) describes
  have allocated := sum_of_describes (fun _ _ => Describes.allocatedBytes_eq) describes
  rw [split]
  refine ⟨?_, ?_, ?_⟩
  · rw [List.length_cons, describes.length_eq]
  · rw [List.map_cons, List.sum_cons, logical]
    exact Nat.zero_add _
  · rw [List.map_cons, List.sum_cons, allocated]
    rfl

theorem rootBytes_lt (root : RootAnswers) : rootBytes root < 2 ^ 64 := by
  unfold rootBytes
  split
  · exact UInt64.toNat_lt _
  · exact Nat.two_pow_pos 64

/-- The engine agrees with a run exactly when the worker does not run out of identifiers,
no wrapped total differs from a stopped one, and the allocations stay below `2 ^ 64` or
every directory has the unique bytes its children have lost. -/
theorem engine_agrees_iff (ran : scanDirectory env target root answers = some (.returned term state))
    (rt : Runtime) (rootTarget : String) :
    Agreed rt rootTarget term state.emitted ↔
      (observedFacts state.visits).length + 1 < 2 ^ 32 ∧ Fits (observedLogical state.visits) ∧
        Fits (observedAllocated root state.visits) ∧
          (observedAllocated root state.visits < 2 ^ 64 ∨
            ∃ s : Snapshot, s.entries = entriesOf state.emitted ∧
              ∀ dir ∈ s.entries, dir.kind = .directory →
                2 ^ 64 * ((s.childrenOf dir.entryId).map
                  (fun child => s.uniqueBytes child.entryId / 2 ^ 64)).sum ≤
                    s.uniqueBytes dir.entryId) := by
  rcases returned_streamed ran with ⟨outcome, last, settled, streamed, observed, nonempty⟩
  have agreed := streamed.agreed_iff rt rootTarget settled nonempty
  rcases settle_returned settled with ⟨_, rfl⟩
  have entries : entriesOf (written (.terminal term) last).emitted = entriesOf last.emitted :=
    entriesOf_terminal last.emitted term
  have visits : (written (.terminal term) last).visits = last.visits := rfl
  rw [agreed, entries, visits]
  cases observed with
  | nothing noEntries noVisits =>
      have noFacts : observedFacts last.visits = [] := by
        rw [noVisits]
        rfl
      have allocated : observedAllocated root last.visits = rootBytes root := by
        rw [observedAllocated, noFacts]
        rfl
      have logical : observedLogical last.visits = 0 := by
        rw [observedLogical, noFacts]
        rfl
      have small := rootBytes_lt root
      rw [noEntries, noFacts, allocated, logical]
      constructor
      · intro _
        exact ⟨by decide, Or.inl (by decide), Or.inl small, Or.inl small⟩
      · intro _
        refine ⟨by decide, Or.inl (by decide), Or.inl (by decide), ⟨[], WellFormed.nil⟩, rfl, ?_⟩
        intro idx entry found
        cases found
  | below data reparseTag facts follows =>
      rcases follows.totals with ⟨length, logical, allocated⟩
      have rooted : rootBytes root = ((rootAllocated root reparseTag).getD 0).toNat := by
        rw [rootBytes, facts]
      rw [length, logical, allocated, ← rooted, ← observedAllocated, ← observedLogical]
      constructor
      · rintro ⟨short, fits, alsoFits, s, same, affordable⟩
        exact ⟨short, fits, alsoFits, Or.inr ⟨s, same, s.affordable_iff.mp affordable⟩⟩
      · rintro ⟨short, fits, alsoFits, small | ⟨s, same, affordable⟩⟩
        · have tree : WellFormed (entriesOf last.emitted) := streamed.tree (by omega)
          refine ⟨short, fits, alsoFits, ⟨_, tree⟩, rfl, ?_⟩
          apply Snapshot.affordable_of_lt
          rwa [allocated, ← rooted, ← observedAllocated]
        · exact ⟨short, fits, alsoFits, s, same, s.affordable_iff.mpr affordable⟩

/-- A directory with a file and a subdirectory that is empty. -/
def Sample.nested : Option (ScanEnd Unit) :=
  scanDirectory Sample.env Sample.target (Sample.root 0x10 0)
    [Sample.batched [Sample.fact "file" 0x20 5, Sample.fact "sub" 0x10 0], Sample.batched []]

def Sample.returned : ScanEnd Unit → Bool
  | .returned _ _ => true
  | .failed _ _ => false

theorem engine_agrees_iff_nested : ∃ term state, Sample.nested = some (.returned term state) ∧
    (Agreed GraphBuilder.Sample.runtime "C:\\data" term state.emitted ↔
      (observedFacts state.visits).length + 1 < 2 ^ 32 ∧ Fits (observedLogical state.visits) ∧
        Fits (observedAllocated (Sample.root 0x10 0) state.visits) ∧
          (observedAllocated (Sample.root 0x10 0) state.visits < 2 ^ 64 ∨
            ∃ s : Snapshot, s.entries = entriesOf state.emitted ∧
              ∀ dir ∈ s.entries, dir.kind = .directory →
                2 ^ 64 * ((s.childrenOf dir.entryId).map
                  (fun child => s.uniqueBytes child.entryId / 2 ^ 64)).sum ≤
                    s.uniqueBytes dir.entryId)) := by
  have returns : Sample.nested.map Sample.returned = some true := by
    decide +kernel
  rcases Option.map_eq_some_iff.mp returns with ⟨ended, ran, returned⟩
  cases ended with
  | failed err state => simp [Sample.returned] at returned
  | returned term state =>
      exact ⟨term, state, ran, engine_agrees_iff ran GraphBuilder.Sample.runtime "C:\\data"⟩

/-- Three files of the largest size a signed 64-bit word holds. -/
def Sample.huge : Option (ScanEnd Unit) :=
  scanDirectory Sample.env Sample.target (Sample.root 0x10 0)
    [Sample.batched [Sample.fact "a" 0x20 0x7FFFFFFFFFFFFFFF,
      Sample.fact "b" 0x20 0x7FFFFFFFFFFFFFFF, Sample.fact "c" 0x20 0x7FFFFFFFFFFFFFFF]]

/-- The builder rejects what was emitted, by its logical bytes. -/
def Sample.rejected : ScanEnd Unit → Bool
  | .returned _ state =>
      match (GraphBuilder.new "C:\\data").ingestAll state.emitted with
      | .ok (.error err, _) => err = .aggregateMismatch "total_logical_bytes"
          0x7FFFFFFFFFFFFFFD 0xFFFFFFFFFFFFFFFF
      | _ => false
  | .failed _ _ => false

/-- The worker's total has wrapped, and the builder rejects the terminal record. -/
theorem not_agreed_huge : ∃ term state, Sample.huge = some (.returned term state) ∧
    ¬Agreed GraphBuilder.Sample.runtime "C:\\data" term state.emitted := by
  have rejects : Sample.huge.map Sample.rejected = some true := by
    decide +kernel
  rcases Option.map_eq_some_iff.mp rejects with ⟨ended, ran, rejected⟩
  cases ended with
  | failed err state => simp [Sample.rejected] at rejected
  | returned term state =>
      refine ⟨term, state, ran, ?_⟩
      rintro ⟨builder, graph, fed, _⟩
      simp [Sample.rejected, fed] at rejected

end EveryRun

end Worker

end PigTree
