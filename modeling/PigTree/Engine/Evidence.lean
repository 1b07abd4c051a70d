import PigTree.Engine.Aggregates
import PigTree.Engine.Represents

/-!
# What a snapshot says about each object

The evidence phase 1 condenses into object records, stated over the accepted
entries: the aliases of an identity, the link counts and allocations observed on
them, and the record that stands behind an entry. The folds over the aliases are
then computed by what they have seen, whatever map delivered the aliases.
-/

namespace PigTree

open Foundation EntryObservation

namespace EntryObservation

/-- The link count a file reports; other entries report none. -/
def linkCount : EntryObservation → ValueKnowledge UInt32
  | .directory _ => .notObserved
  | .file seen => seen.totalLinkCount
  | .special _ => .notObserved

/-- The record of a file that has an object of its own. -/
def ownObject (entry : EntryObservation) : ObjectRecord where
  identity := none
  observedAliasCount := 1
  totalLinkCount := entry.linkCount
  externalReferenceStatus := ExternalReferenceStatus.derive entry.linkCount 1
  weight := entry.fileAllocated.getD 0

end EntryObservation

def directoryObject (identity : ObjectIdentity) : ObjectRecord where
  identity := some identity
  observedAliasCount := 1
  totalLinkCount := .notApplicable
  externalReferenceStatus := .notApplicable
  weight := 0

namespace Snapshot

/-- The files with an identity, in order of arrival. -/
def aliases (s : Snapshot) (identity : ObjectIdentity) : List EntryObservation :=
  s.entries.filter (fun entry => entry.fileIdentity = some identity)

/-- The link counts of the aliases, folded in order of arrival. -/
def linkEvidence (s : Snapshot) (identity : ObjectIdentity) : LinkResolution :=
  ((s.aliases identity).map linkCount).foldl LinkResolution.observe .initial

/-- Two aliases were observed with different allocations. -/
def Contradicted (s : Snapshot) (identity : ObjectIdentity) : Prop :=
  ∃ left ∈ s.knownAllocations identity, ∃ right ∈ s.knownAllocations identity, left ≠ right

instance (s : Snapshot) (identity : ObjectIdentity) : Decidable (s.Contradicted identity) := by
  unfold Contradicted
  infer_instance

def linkStatusOf (s : Snapshot) (identity : ObjectIdentity) : ExternalReferenceStatus :=
  GraphBuilder.linkStatus (s.linkEvidence identity) (UInt32.ofNat (s.aliases identity).length)

/-- The record of the object behind an identity. -/
def sharedObject (s : Snapshot) (identity : ObjectIdentity) : ObjectRecord where
  identity := some identity
  observedAliasCount := UInt32.ofNat (s.aliases identity).length
  totalLinkCount := (s.linkEvidence identity).resolvedLink
  externalReferenceStatus := s.linkStatusOf identity
  weight := (s.knownAllocations identity).min?.getD 0

/-- The record behind an entry, if there is one. -/
def objectOf (s : Snapshot) : EntryObservation → Option ObjectRecord
  | .directory seen => seen.objectId.map directoryObject
  | .file seen =>
      match seen.objectId with
      | some identity => some (s.sharedObject identity)
      | none =>
          if seen.totalLinkCount = .notObserved then none
          else some (EntryObservation.ownObject (.file seen))
  | .special _ => none

/-- Whether a file carries an identity whose allocations contradict each other. -/
def disputed (s : Snapshot) (entry : EntryObservation) : Bool :=
  entry.fileIdentity.any (fun identity => s.Contradicted identity)

/-- The size flag of an entry before the sums are taken. -/
def leafKnown (s : Snapshot) (entry : EntryObservation) : Bool :=
  entry.compact.allocatedSizeKnown && !s.disputed entry

variable {s : Snapshot}

theorem mem_aliases {identity : ObjectIdentity} {entry : EntryObservation} :
    entry ∈ s.aliases identity ↔ entry ∈ s.entries ∧ entry.fileIdentity = some identity := by
  simp [aliases]

/-- The known allocations are those of the aliases. -/
theorem knownAllocations_eq (s : Snapshot) (identity : ObjectIdentity) :
    s.knownAllocations identity = (s.aliases identity).filterMap fileAllocated := by
  rw [knownAllocations, aliases, List.filterMap_filter]
  apply List.filterMap_congr
  intro entry _
  simp

/-- Every file with an identity is backed by the record of the identity. -/
theorem objectOf_of_fileIdentity (s : Snapshot) {entry : EntryObservation}
    {identity : ObjectIdentity} (identified : entry.fileIdentity = some identity) :
    s.objectOf entry = some (s.sharedObject identity) := by
  cases entry with
  | directory dir => cases identified
  | special special => cases identified
  | file file =>
      have carried : file.objectId = some identity := identified
      simp [objectOf, carried]

end Snapshot

/-! ### The folds over the aliases -/

/-- The allocations seen so far decide every field of the resolution. -/
structure AllocResolution.Sees (resolution : AllocResolution) (allocs : List UInt64) : Prop where
  minAlloc : resolution.minAlloc = allocs.min?
  firstAlloc : resolution.firstAlloc = allocs.head?
  hasAllocConflict : resolution.hasAllocConflict = true ↔
    ∃ left ∈ allocs, ∃ right ∈ allocs, left ≠ right

namespace AllocResolution

theorem sees_initial : Sees .initial [] where
  minAlloc := rfl
  firstAlloc := rfl
  hasAllocConflict := by simp [initial]

theorem Sees.observe {resolution : AllocResolution} {allocs : List UInt64}
    (sees : resolution.Sees allocs) (alloc : UInt64) :
    (resolution.observe (some alloc)).Sees (allocs ++ [alloc]) where
  minAlloc := by
    simp only [AllocResolution.observe, sees.minAlloc]
    cases allocs with
    | nil => simp
    | cons head tail =>
        simp only [List.cons_append, List.min?_cons', List.foldl_append, Option.elim_some,
          List.foldl_cons, List.foldl_nil]
  firstAlloc := by
    simp only [AllocResolution.observe, sees.firstAlloc]
    cases allocs with
    | nil => rfl
    | cons head tail => rfl
  hasAllocConflict := by
    have conflict := sees.hasAllocConflict
    simp only [AllocResolution.observe, sees.firstAlloc]
    cases allocs with
    | nil => simpa using conflict
    | cons head tail =>
        simp only [List.head?_cons, Bool.or_eq_true, conflict, ne_eq, decide_eq_true_eq]
        constructor
        · rintro (⟨left, leftMem, right, rightMem, differ⟩ | differ)
          · exact ⟨left, List.mem_append_left _ leftMem, right, List.mem_append_left _ rightMem,
              differ⟩
          · exact ⟨head, by simp, alloc, by simp, differ⟩
        · rintro ⟨left, leftMem, right, rightMem, differ⟩
          by_cases same : head = alloc
          · left
            subst same
            have old : ∀ item ∈ head :: tail ++ [head], item ∈ head :: tail := by
              intro item itemMem
              rcases List.mem_append.mp itemMem with mem | mem
              · exact mem
              · simp [List.mem_singleton.mp mem]
            exact ⟨left, old left leftMem, right, old right rightMem, differ⟩
          · right
            exact same

/-- Observing the allocations of some entries sees the known ones among them. -/
theorem sees_foldl (entries : List EntryObservation) :
    ((entries.map fileAllocated).foldl observe .initial).Sees
      (entries.filterMap fileAllocated) := by
  induction entries using List.reverseRecOn with
  | nil => exact sees_initial
  | append_singleton entries entry ih =>
      rw [List.map_append, List.foldl_append, List.filterMap_append]
      cases observed : entry.fileAllocated with
      | none => simpa [observed, AllocResolution.observe] using ih
      | some alloc => simpa [observed] using ih.observe alloc

end AllocResolution

def knownCount : ValueKnowledge UInt32 → Option UInt32
  | .known count => some count
  | .notObserved => none
  | .unavailable => none
  | .notApplicable => none

/-- The link counts known among those observed. -/
def knownLinks (links : List (ValueKnowledge UInt32)) : List UInt32 :=
  links.filterMap knownCount

/-- What remains to be said about links none of which is known. -/
def unknownLink (links : List (ValueKnowledge UInt32)) : ValueKnowledge UInt32 :=
  if .unavailable ∈ links then .unavailable
  else if .notApplicable ∈ links then .notApplicable
  else .notObserved

/-- The link counts seen so far decide every field of the resolution. -/
structure LinkResolution.Sees (resolution : LinkResolution) (links : List (ValueKnowledge UInt32)) :
    Prop where
  firstKnownLink : resolution.firstKnownLink = (knownLinks links).head?
  hasLinkConflict : resolution.hasLinkConflict = true ↔
    ∃ left ∈ knownLinks links, ∃ right ∈ knownLinks links, left ≠ right
  resolvedLink : resolution.resolvedLink =
    match (knownLinks links).head? with
    | some count => .known count
    | none => unknownLink links

namespace LinkResolution

theorem sees_initial : Sees .initial [] where
  firstKnownLink := rfl
  hasLinkConflict := by simp [initial, knownLinks]
  resolvedLink := rfl

theorem knownLinks_concat (links : List (ValueKnowledge UInt32)) (link : ValueKnowledge UInt32) :
    knownLinks (links ++ [link]) = knownLinks links ++ (knownCount link).toList := by
  rw [knownLinks, List.filterMap_append, knownLinks]
  cases counted : knownCount link <;> simp [counted]

theorem Sees.observe {resolution : LinkResolution} {links : List (ValueKnowledge UInt32)}
    (sees : resolution.Sees links) (link : ValueKnowledge UInt32) :
    (resolution.observe link).Sees (links ++ [link]) := by
  have first := sees.firstKnownLink
  have conflict := sees.hasLinkConflict
  have resolved := sees.resolvedLink
  cases known : knownLinks links with
  | nil =>
      rw [known] at first conflict resolved
      simp only [List.head?_nil, List.not_mem_nil, false_and, exists_false, iff_false,
        Bool.not_eq_true] at first conflict resolved
      cases link with
      | known count =>
          have more : knownLinks (links ++ [.known count]) = [count] := by
            simp [knownLinks_concat, known, knownCount]
          constructor
          · simp [LinkResolution.observe, first, more]
          · simp [LinkResolution.observe, first, more, conflict]
          · simp [LinkResolution.observe, first, more]
      | notObserved =>
          have more : knownLinks (links ++ [.notObserved]) = [] := by
            simp [knownLinks_concat, known, knownCount]
          constructor
          · simp [LinkResolution.observe, first, more]
          · simp [LinkResolution.observe, more, conflict]
          · simp [LinkResolution.observe, more, resolved, unknownLink]
      | unavailable =>
          have more : knownLinks (links ++ [.unavailable]) = [] := by
            simp [knownLinks_concat, known, knownCount]
          constructor
          · simp [LinkResolution.observe, first, more]
          · simp [LinkResolution.observe, first, more, conflict]
          · simp [LinkResolution.observe, first, more, unknownLink]
      | notApplicable =>
          have more : knownLinks (links ++ [.notApplicable]) = [] := by
            simp [knownLinks_concat, known, knownCount]
          by_cases unavailable : .unavailable ∈ links
          · have stays : resolution.resolvedLink = .unavailable := by
              simp [resolved, unknownLink, unavailable]
            constructor
            · simp [LinkResolution.observe, first, more, stays]
            · simp [LinkResolution.observe, first, more, stays, conflict]
            · simp [LinkResolution.observe, more, stays, unknownLink, unavailable]
          · have moves : resolution.resolvedLink ≠ .unavailable := by
              rw [resolved, unknownLink, if_neg unavailable]
              split <;> simp
            constructor
            · simp [LinkResolution.observe, first, more, moves]
            · simp [LinkResolution.observe, first, more, moves, conflict]
            · simp [LinkResolution.observe, first, more, moves, unknownLink, unavailable]
  | cons head tail =>
      rw [known] at first conflict resolved
      simp only [List.head?_cons] at first resolved
      cases link with
      | known count =>
          have more : knownLinks (links ++ [.known count]) = head :: tail ++ [count] := by
            simp [knownLinks_concat, known, knownCount]
          have next : resolution.observe (.known count) =
              if head ≠ count then { resolution with hasLinkConflict := true } else resolution := by
            simp [LinkResolution.observe, first]
          rw [next]
          by_cases same : head = count
          · subst same
            rw [if_neg (not_not_intro rfl)]
            have old : ∀ item ∈ head :: tail ++ [head], item ∈ head :: tail := by
              intro item itemMem
              rcases List.mem_append.mp itemMem with mem | mem
              · exact mem
              · simp [List.mem_singleton.mp mem]
            constructor
            · rw [more]
              exact first
            · rw [more, conflict]
              constructor
              · rintro ⟨left, leftMem, right, rightMem, differ⟩
                exact ⟨left, List.mem_append_left _ leftMem, right,
                  List.mem_append_left _ rightMem, differ⟩
              · rintro ⟨left, leftMem, right, rightMem, differ⟩
                exact ⟨left, old left leftMem, right, old right rightMem, differ⟩
            · rw [more]
              exact resolved
          · rw [if_pos same]
            constructor
            · rw [more]
              exact first
            · rw [more]
              simp only [true_iff]
              exact ⟨head, by simp, count, by simp, same⟩
            · rw [more]
              exact resolved
      | notObserved =>
          have more : knownLinks (links ++ [.notObserved]) = head :: tail := by
            simp [knownLinks_concat, known, knownCount]
          constructor
          · simp [LinkResolution.observe, first, more]
          · simpa [LinkResolution.observe, more] using conflict
          · simp [LinkResolution.observe, more, resolved]
      | unavailable =>
          have more : knownLinks (links ++ [.unavailable]) = head :: tail := by
            simp [knownLinks_concat, known, knownCount]
          constructor
          · simp [LinkResolution.observe, first, more]
          · simpa [LinkResolution.observe, first, more] using conflict
          · simp [LinkResolution.observe, first, more, resolved]
      | notApplicable =>
          have more : knownLinks (links ++ [.notApplicable]) = head :: tail := by
            simp [knownLinks_concat, known, knownCount]
          constructor
          · simp [LinkResolution.observe, first, more]
          · simpa [LinkResolution.observe, first, more] using conflict
          · simp [LinkResolution.observe, first, more, resolved]

theorem sees_foldl (links : List (ValueKnowledge UInt32)) :
    (links.foldl observe .initial).Sees links := by
  induction links using List.reverseRecOn with
  | nil => exact sees_initial
  | append_singleton links link ih =>
      rw [List.foldl_append]
      exact ih.observe link

end LinkResolution

/-- The resolved allocations of an identity. -/
def Snapshot.allocEvidence (s : Snapshot) (identity : ObjectIdentity) : AllocResolution :=
  ((s.aliases identity).map fileAllocated).foldl AllocResolution.observe .initial

theorem Snapshot.sees_allocEvidence (s : Snapshot) (identity : ObjectIdentity) :
    (s.allocEvidence identity).Sees (s.knownAllocations identity) := by
  rw [s.knownAllocations_eq]
  exact AllocResolution.sees_foldl _

/-- A conflict is recorded exactly when the identity is contradicted. -/
theorem Snapshot.hasAllocConflict_allocEvidence (s : Snapshot) (identity : ObjectIdentity) :
    (s.allocEvidence identity).hasAllocConflict = decide (s.Contradicted identity) := by
  apply Bool.eq_iff_iff.mpr
  rw [decide_eq_true_iff]
  exact (s.sees_allocEvidence identity).hasAllocConflict

namespace GraphBuilder

variable {builder : GraphBuilder} {s : Snapshot}

/-- The recorded link count of an accepted entry. -/
theorem linkOf_eq (tally : Tally builder s.entries) {entry : EntryObservation}
    (entryMem : entry ∈ s.entries) : builder.linkOf entry.entryId = entry.linkCount := by
  have unique : ∀ file : FileObservation, .file file ∈ s.entries →
      file.entryId = entry.entryId → entry = .file file :=
    fun file fileMem same => (s.wellFormed.eq_of_entryId fileMem entryMem same).symm
  rw [linkOf]
  cases found : builder.fileLinkCounts.lookup entry.entryId with
  | some link =>
      rcases (tally.linkCounts _ _).mp found with ⟨file, fileMem, named, counted, _⟩
      rw [unique file fileMem named]
      exact counted.symm
  | none =>
      cases entry with
      | directory dir => rfl
      | special special => rfl
      | file file =>
          by_cases silent : file.totalLinkCount = .notObserved
          · exact silent.symm
          · have stored := (tally.linkCounts file.entryId file.totalLinkCount).mpr
              ⟨file, entryMem, rfl, rfl, silent⟩
            simp only [EntryObservation.entryId] at found
            rw [found] at stored
            cases stored

theorem fileIds_eq (es : List EntryObservation) (identity : ObjectIdentity) :
    fileIds es identity =
      (es.filter (fun entry => entry.fileIdentity = some identity)).map entryId := by
  rw [fileIds, ← List.filterMap_eq_map, List.filterMap_filter]
  apply List.filterMap_congr
  intro entry _
  simp

/-- The identifiers listed for an identity are those of its aliases. -/
theorem fileIds_aliases (s : Snapshot) (identity : ObjectIdentity) :
    fileIds s.entries identity = (s.aliases identity).map entryId :=
  fileIds_eq s.entries identity

theorem resolveLinks_eq (tally : Tally builder s.entries) (identity : ObjectIdentity) :
    builder.resolveLinks (fileIds s.entries identity) = s.linkEvidence identity := by
  rw [resolveLinks, Snapshot.linkEvidence, fileIds_aliases, List.foldl_map, List.foldl_map]
  apply List.foldl_ext
  intro resolution entry entryMem
  rw [linkOf_eq tally (Snapshot.mem_aliases.mp entryMem).1]

end GraphBuilder

end PigTree
