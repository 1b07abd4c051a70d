import PigTree.Foundation.Checked
import PigTree.Foundation.ParentTree
import PigTree.Foundation.Saturating
import PigTree.Engine.Graph

/-!
# What an observation stream describes

The abstract side of the engine: the entries of a stream as one rooted tree, and
the quantities the finished graph reports, defined by exact sums over subtrees.
A snapshot carries the proof that its entries form a tree; nothing here mentions
the builder.
-/

namespace PigTree

open Foundation

/-- A record that describes an entry of the scanned tree. -/
inductive EntryObservation where
  | directory (dir : DirectoryObservation)
  | file (file : FileObservation)
  | special (special : SpecialObservation)
deriving DecidableEq, Repr

namespace EntryObservation

def entryId : EntryObservation → UInt32
  | .directory seen => seen.entryId
  | .file seen => seen.entryId
  | .special seen => seen.entryId

def parentId : EntryObservation → UInt32
  | .directory seen => seen.parentId
  | .file seen => seen.parentId
  | .special seen => seen.parentId

def name : EntryObservation → String
  | .directory seen => seen.name
  | .file seen => seen.name
  | .special seen => seen.name

def kind : EntryObservation → EntryKind
  | .directory _ => .directory
  | .file _ => .file
  | .special _ => .special

/-- The allocation a directory reports for itself. -/
def selfAllocated : EntryObservation → ℕ
  | .directory seen => (seen.allocatedSize.getD 0).toNat
  | .file _ => 0
  | .special _ => 0

def logicalBytes : EntryObservation → ℕ
  | .directory _ => 0
  | .file seen => seen.logicalSize.toNat
  | .special _ => 0

def fileIdentity : EntryObservation → Option ObjectIdentity
  | .directory _ => none
  | .file seen => seen.objectId
  | .special _ => none

def fileAllocated : EntryObservation → Option UInt64
  | .directory _ => none
  | .file seen => seen.allocatedSize
  | .special _ => none

/-- The allocation observed for an entry itself, a directory's or a file's. -/
def allocatedBytes (entry : EntryObservation) : ℕ :=
  entry.selfAllocated + (entry.fileAllocated.getD 0).toNat

/-- The allocation of a file without identity. -/
def anonymousAllocated (entry : EntryObservation) : ℕ :=
  if entry.fileIdentity = none then (entry.fileAllocated.getD 0).toNat else 0

end EntryObservation

/-- The entry a record describes, if it describes one. -/
def ObservationRecord.entry? : ObservationRecord → Option EntryObservation
  | .directory seen => some (.directory seen)
  | .file seen => some (.file seen)
  | .special seen => some (.special seen)
  | .contentStream _ => none
  | .coverageGap _ => none
  | .terminal _ => none

def entriesOf (records : List ObservationRecord) : List EntryObservation :=
  records.filterMap ObservationRecord.entry?

open EntryObservation

/-- Distinct identifiers, a root directory that comes first, and every later
entry below a directory that came before it. -/
structure WellFormed (entries : List EntryObservation) : Prop where
  nodup_ids : (entries.map entryId).Nodup
  root_first : ∀ root ∈ entries.head?,
    root.entryId = 1 ∧ root.parentId = 0 ∧ root.kind = .directory
  attached : ∀ before entry after, entries = before ++ entry :: after → before ≠ [] →
    entry.parentId ≠ 0 ∧
      ∃ parent ∈ before, parent.entryId = entry.parentId ∧ parent.kind = .directory

namespace WellFormed

variable {entries : List EntryObservation} {entry : EntryObservation}

theorem nil : WellFormed [] where
  nodup_ids := List.nodup_nil
  root_first := by simp
  attached := by
    intro before entry after split
    simp at split

theorem root (identifier : entry.entryId = 1) (above : entry.parentId = 0)
    (directory : entry.kind = .directory) : WellFormed [entry] where
  nodup_ids := by simp
  root_first := by
    intro root rootMem
    simp only [List.head?_cons, Option.mem_def, Option.some.injEq] at rootMem
    subst rootMem
    exact ⟨identifier, above, directory⟩
  attached := by
    intro before other after split notFirst
    cases before with
    | nil => exact absurd rfl notFirst
    | cons head before => simp at split

theorem push (wellFormed : WellFormed entries) (nonempty : entries ≠ [])
    (fresh : entry.entryId ∉ entries.map entryId) (below : entry.parentId ≠ 0)
    {parent : EntryObservation} (parentMem : parent ∈ entries)
    (parentId : parent.entryId = entry.parentId) (directory : parent.kind = .directory) :
    WellFormed (entries ++ [entry]) where
  nodup_ids := by
    rw [List.map_append, List.nodup_append]
    refine ⟨wellFormed.nodup_ids, by simp, ?_⟩
    intro old oldMem new newMem same
    simp only [List.map_cons, List.map_nil, List.mem_singleton] at newMem
    subst newMem
    exact fresh (same ▸ oldMem)
  root_first := by
    intro root rootMem
    apply wellFormed.root_first
    rwa [List.head?_append_of_ne_nil entries nonempty] at rootMem
  attached := by
    intro before other after split notFirst
    rcases List.eq_nil_or_concat after with rfl | ⟨initial, last, rfl⟩
    · have same := List.append_inj' split rfl
      rcases same with ⟨rfl, lastEq⟩
      simp only [List.cons.injEq, and_true] at lastEq
      subst lastEq
      exact ⟨below, parent, parentMem, parentId, directory⟩
    · rw [List.concat_eq_append, ← List.cons_append, ← List.append_assoc] at split
      have same := List.append_inj' split rfl
      exact wellFormed.attached before other initial same.1 notFirst

end WellFormed

/-! ### The tree of a snapshot -/

/-- The position of an identifier. -/
def indexOf (entries : List EntryObservation) (id : UInt32) : ℕ :=
  (entries.map entryId).idxOf id

/-- The position of the parent of the entry at a position; the root is its own parent. -/
def parentIndex (entries : List EntryObservation) (idx : ℕ) : ℕ :=
  match entries[idx]? with
  | some entry => if idx = 0 then 0 else indexOf entries entry.parentId
  | none => 0

namespace WellFormed

variable {entries : List EntryObservation} {entry : EntryObservation} {idx : ℕ}

/-- Positions and identifiers determine each other. -/
theorem indexOf_eq (wellFormed : WellFormed entries) (found : entries[idx]? = some entry) :
    indexOf entries entry.entryId = idx := by
  rcases List.getElem?_eq_some_iff.mp found with ⟨bound, rfl⟩
  have inside : idx < (entries.map entryId).length := by simpa using bound
  have mapped : (entries.map entryId)[idx] = (entries[idx]).entryId := by simp
  rw [indexOf, ← mapped]
  exact wellFormed.nodup_ids.idxOf_getElem idx _

theorem eq_of_entryId (wellFormed : WellFormed entries) {left right : EntryObservation}
    (leftMem : left ∈ entries) (rightMem : right ∈ entries)
    (same : left.entryId = right.entryId) : left = right :=
  List.inj_on_of_nodup_map wellFormed.nodup_ids leftMem rightMem same

/-- The parent of an entry below the root, with its position. -/
theorem parent (wellFormed : WellFormed entries) (found : entries[idx]? = some entry)
    (positive : 0 < idx) : entry.parentId ≠ 0 ∧ parentIndex entries idx < idx ∧
      ∃ parent, entries[parentIndex entries idx]? = some parent ∧
        parent.entryId = entry.parentId ∧ parent.kind = .directory := by
  rcases List.getElem?_eq_some_iff.mp found with ⟨bound, rfl⟩
  have split : entries = entries.take idx ++ entries[idx] :: entries.drop (idx + 1) := by
    rw [← List.drop_eq_getElem_cons bound, List.take_append_drop]
  have notFirst : entries.take idx ≠ [] := by
    apply List.ne_nil_of_length_pos
    rw [List.length_take]
    omega
  rcases wellFormed.attached _ _ _ split notFirst with ⟨below, parent, parentMem, named, directory⟩
  rcases List.mem_take_iff_getElem.mp parentMem with ⟨position, inside, rfl⟩
  have parentFound : entries[position]? = some entries[position] :=
    List.getElem?_eq_getElem (by omega)
  have located : parentIndex entries idx = position := by
    rw [parentIndex, found]
    simp only [Nat.ne_of_gt positive, if_false]
    rw [← named]
    exact wellFormed.indexOf_eq parentFound
  rw [located]
  exact ⟨below, by omega, _, parentFound, named, directory⟩

theorem parentIndex_lt (wellFormed : WellFormed entries) (positive : 0 < idx) :
    parentIndex entries idx < idx := by
  cases found : entries[idx]? with
  | none =>
      rw [parentIndex, found]
      exact positive
  | some entry => exact (wellFormed.parent found positive).2.1

/-- Later entries do not change the parents of earlier ones. -/
theorem parentIndex_append (wellFormed : WellFormed entries) (more : List EntryObservation)
    (inside : idx < entries.length) :
    parentIndex (entries ++ more) idx = parentIndex entries idx := by
  have found := List.getElem?_eq_getElem inside
  rw [parentIndex, parentIndex, List.getElem?_append_left inside, found]
  simp only
  split
  · rfl
  · next notRoot =>
      rcases wellFormed.parent found (Nat.pos_of_ne_zero notRoot) with ⟨_, _, parent, at_, named, _⟩
      have mem : (entries[idx]).parentId ∈ entries.map entryId := by
        rw [← named]
        exact List.mem_map_of_mem (List.mem_of_getElem? at_)
      rw [indexOf, indexOf, List.map_append, List.idxOf_append_of_mem mem]

theorem parentIndex_last (nonempty : entries ≠ []) (entry : EntryObservation)
    (known : entry.parentId ∈ entries.map entryId) :
    parentIndex (entries ++ [entry]) entries.length = indexOf entries entry.parentId := by
  rw [parentIndex, List.getElem?_concat_length]
  simp only [List.length_eq_zero_iff, nonempty, if_false]
  rw [indexOf, indexOf, List.map_append, List.idxOf_append_of_mem known]

end WellFormed

/-- The entries of a stream, with the proof that they form a tree. -/
structure Snapshot where
  entries : List EntryObservation
  wellFormed : WellFormed entries

namespace Snapshot

def tree (s : Snapshot) : ParentTree where
  size := s.entries.length
  parent := parentIndex s.entries
  parent_zero := by
    rw [parentIndex]
    split <;> simp
  parent_lt := fun _ positive => s.wellFormed.parentIndex_lt positive

variable {s : Snapshot}

@[simp]
theorem tree_size : s.tree.size = s.entries.length := rfl

@[simp]
theorem tree_parent : s.tree.parent = parentIndex s.entries := rfl

/-- Only directories have children. -/
theorem kind_of_mem_children {node child : ℕ} (childMem : child ∈ s.tree.children node) :
    ∃ entry, s.entries[node]? = some entry ∧ entry.kind = .directory := by
  rcases ParentTree.mem_children.mp childMem with ⟨inside, positive, rfl⟩
  rcases s.wellFormed.parent (List.getElem?_eq_getElem inside) positive with
    ⟨_, _, parent, found, _, directory⟩
  exact ⟨parent, found, directory⟩

/-- The entries at or below the entry with an identifier. -/
def subtree (s : Snapshot) (id : UInt32) : List EntryObservation :=
  ((List.range s.entries.length).filter
    (fun idx => s.tree.IsAncestor (indexOf s.entries id) idx)).filterMap (fun idx => s.entries[idx]?)

/-- The value of an entry, by position. -/
def valueAt {M : Type} [Zero M] (s : Snapshot) (value : EntryObservation → M) (idx : ℕ) : M :=
  (s.entries[idx]?).elim 0 value

theorem valueAt_of_found {M : Type} [Zero M] {value : EntryObservation → M} {idx : ℕ}
    {entry : EntryObservation} (found : s.entries[idx]? = some entry) :
    s.valueAt value idx = value entry := by
  simp [valueAt, found]

theorem mem_subtree_at {top idx : ℕ} {topEntry entry : EntryObservation}
    (topFound : s.entries[top]? = some topEntry) (found : s.entries[idx]? = some entry) :
    entry ∈ s.subtree topEntry.entryId ↔ s.tree.IsAncestor top idx := by
  rw [subtree, s.wellFormed.indexOf_eq topFound]
  simp only [List.mem_filterMap, List.mem_filter, List.mem_range, decide_eq_true_eq]
  constructor
  · rintro ⟨other, ⟨_, above⟩, otherFound⟩
    have same := (s.wellFormed.indexOf_eq otherFound).symm.trans (s.wellFormed.indexOf_eq found)
    exact same ▸ above
  · intro above
    exact ⟨idx, ⟨(List.getElem?_eq_some_iff.mp found).1, above⟩, found⟩

theorem mem_entries_of_mem_subtree {id : UInt32} {entry : EntryObservation}
    (mem : entry ∈ s.subtree id) : entry ∈ s.entries := by
  rcases List.mem_filterMap.mp mem with ⟨idx, _, found⟩
  exact List.mem_of_getElem? found

/-- Sums over the entries of a subtree are sums over its positions. -/
theorem sum_subtree {M : Type} [AddCommMonoid M] {top : ℕ} {topEntry : EntryObservation}
    (topFound : s.entries[top]? = some topEntry) (value : EntryObservation → M) :
    ((s.subtree topEntry.entryId).map value).sum =
      ∑ idx ∈ s.tree.subtree top, s.valueAt value idx := by
  have summed : ∀ positions : List ℕ, (∀ idx ∈ positions, idx < s.entries.length) →
      ((positions.filterMap (fun idx => s.entries[idx]?)).map value).sum =
        (positions.map (s.valueAt value)).sum := by
    intro positions inside
    induction positions with
    | nil => rfl
    | cons idx positions ih =>
        have found := List.getElem?_eq_getElem (inside idx List.mem_cons_self)
        rw [List.filterMap_cons_some found, List.map_cons, List.map_cons, List.sum_cons,
          List.sum_cons, valueAt_of_found found]
        rw [ih (fun other otherMem => inside other (List.mem_cons_of_mem _ otherMem))]
  rw [subtree, s.wellFormed.indexOf_eq topFound, summed]
  · have nodup : ((List.range s.entries.length).filter
        (fun idx => s.tree.IsAncestor top idx)).Nodup := List.nodup_range.filter _
    rw [← List.sum_toFinset _ nodup]
    apply Finset.sum_congr _ (fun _ _ => rfl)
    ext idx
    simp
  · intro idx idxMem
    exact List.mem_range.mp (List.mem_filter.mp idxMem).1

/-! ### Reported quantities -/

/-- Logical bytes of the files in a subtree. -/
def logicalBytes (s : Snapshot) (id : UInt32) : ℕ :=
  ((s.subtree id).map EntryObservation.logicalBytes).sum

/-- Observed allocations of the files and directories in a subtree. -/
def referencedBytes (s : Snapshot) (id : UInt32) : ℕ :=
  ((s.subtree id).map EntryObservation.allocatedBytes).sum

/-- The known allocations of all files with an identity. -/
def knownAllocations (s : Snapshot) (identity : ObjectIdentity) : List UInt64 :=
  s.entries.filterMap
    (fun entry => if entry.fileIdentity = some identity then entry.fileAllocated else none)

/-- The smallest known allocation of a file object, zero when none is known. -/
def weight (s : Snapshot) (identity : ObjectIdentity) : ℕ :=
  ((s.knownAllocations identity).min?.getD 0).toNat

/-- The distinct file objects in a subtree. -/
def identities (s : Snapshot) (id : UInt32) : Finset ObjectIdentity :=
  ((s.subtree id).filterMap fileIdentity).toFinset

/-- Self allocations, every distinct file object once, and the files without identity. -/
def uniqueBytes (s : Snapshot) (id : UInt32) : ℕ :=
  ((s.subtree id).map selfAllocated).sum + ∑ identity ∈ s.identities id, s.weight identity +
    ((s.subtree id).map anonymousAllocated).sum

/-- The entries directly below the entry with an identifier. -/
def childrenOf (s : Snapshot) (id : UInt32) : List EntryObservation :=
  s.entries.filter (fun entry => entry.parentId ≠ 0 ∧ entry.parentId = id)

end Snapshot

end PigTree
