import PigTree.Foundation.Checked
import PigTree.Foundation.HashMap
import PigTree.Foundation.Lru

/-!
# The client's page cache

The client keeps the pages of children it has fetched, in a dictionary and in a linked
list ordered by use. The dictionary holds the nodes of the list, so that a node is removed
without a search; removing a node that the list does not hold is an abort.
-/

namespace PigTree

open Foundation

namespace Client

variable {Node : Type}

/-- A page of children. -/
structure PagedChildrenResult (Node : Type) where
  operationId : String
  parentId : UInt32
  totalChildren : UInt32
  offset : UInt32
  nodes : List Node
deriving DecidableEq, Repr

structure PageKey where
  opId : String
  parentId : UInt32
  offset : UInt32
deriving DecidableEq, Repr

def PagedChildrenResult.key (result : PagedChildrenResult Node) : PageKey where
  opId := result.operationId
  parentId := result.parentId
  offset := result.offset

structure CacheEntry (Node : Type) where
  key : PageKey
  value : PagedChildrenResult Node

/-- A node of the linked list. Its number tells it from other nodes with the same
contents. -/
structure LinkedListNode (Node : Type) where
  id : ℕ
  entry : CacheEntry Node

/-- The linked list runs from the least to the most recently used entry. -/
structure BoundedPageCache (Node : Type) where
  maxPages : ℕ
  map : HashMap PageKey (LinkedListNode Node)
  lruList : List (LinkedListNode Node)
  nextId : ℕ

namespace BoundedPageCache

def new (maxPages : ℤ) : BoundedPageCache Node where
  maxPages := (max 1 maxPages).toNat
  map := ∅
  lruList := []
  nextId := 0

/-- Take a node out of the list it belongs to. -/
def remove (lruList : List (LinkedListNode Node)) (node : LinkedListNode Node) :
    Checked (List (LinkedListNode Node)) :=
  if lruList.any (·.id = node.id) then .ok (lruList.filter (·.id ≠ node.id))
  else .error (.expectFailed "The LinkedList node does not belong to current LinkedList.")

def tryGetPage (cache : BoundedPageCache Node) (opId : String) (parentId offset : UInt32) :
    Checked (BoundedPageCache Node × Option (PagedChildrenResult Node)) :=
  let key : PageKey := { opId, parentId, offset }
  match cache.map.lookup key with
  | some node => do
      let lruList ← remove cache.lruList node
      .ok ({ cache with lruList := lruList ++ [node] }, some node.entry.value)
  | none => .ok (cache, none)

/-- Drop the oldest entries until there is room for one more. -/
def evict (maxPages : ℕ) (map : HashMap PageKey (LinkedListNode Node)) :
    List (LinkedListNode Node) →
      HashMap PageKey (LinkedListNode Node) × List (LinkedListNode Node)
  | [] => (map, [])
  | oldest :: lruList =>
      if map.keys.length ≥ maxPages then evict maxPages (map.erase oldest.entry.key) lruList
      else (map, oldest :: lruList)

/-- Remove the entry that a new one replaces. -/
def removeExisting (cache : BoundedPageCache Node) (key : PageKey) :
    Checked (BoundedPageCache Node) :=
  match cache.map.lookup key with
  | some existingNode => do
      let lruList ← remove cache.lruList existingNode
      .ok { cache with lruList, map := cache.map.erase key }
  | none => .ok cache

def putPage (cache : BoundedPageCache Node) (result : PagedChildrenResult Node) :
    Checked (BoundedPageCache Node) := do
  let key := result.key
  let cache ← removeExisting cache key
  let (map, lruList) := evict cache.maxPages cache.map cache.lruList
  let newNode := { id := cache.nextId, entry := { key, value := result } }
  .ok { cache with
        map := map.insert key newNode
        lruList := lruList ++ [newNode]
        nextId := cache.nextId + 1 }

def clear (cache : BoundedPageCache Node) : BoundedPageCache Node :=
  { cache with map := ∅, lruList := [] }

/-! ### Calls -/

inductive Call (Node : Type) where
  | putPage (result : PagedChildrenResult Node)
  | tryGetPage (opId : String) (parentId offset : UInt32)
  | clear

/-- A call and the page it answers, if it is a read that finds one. -/
def perform (cache : BoundedPageCache Node) :
    Call Node → Checked (BoundedPageCache Node × Option (PagedChildrenResult Node))
  | .putPage result => do
      let cache ← cache.putPage result
      .ok (cache, none)
  | .tryGetPage opId parentId offset => cache.tryGetPage opId parentId offset
  | .clear => .ok (cache.clear, none)

/-- Calls in sequence, with their answers. -/
def performAll (cache : BoundedPageCache Node) :
    List (Call Node) → Checked (BoundedPageCache Node × List (Option (PagedChildrenResult Node)))
  | [] => .ok (cache, [])
  | call :: calls => do
      let (cache, answer) ← cache.perform call
      let (cache, answers) ← cache.performAll calls
      .ok (cache, answer :: answers)

/-! ### What the calls should answer -/

/-- A sequence of pages put and read, without the cache: the latest event first. -/
abbrev Past (Node : Type) : Type := List (Lru.Event PageKey (PagedChildrenResult Node))

/-- The answer that the past determines. -/
def Call.answer (capacity : ℕ) (past : Past Node) : Call Node → Option (PagedChildrenResult Node)
  | .putPage _ => none
  | .tryGetPage opId parentId offset => Lru.answer capacity past { opId, parentId, offset }
  | .clear => none

/-- What a call adds to the past. -/
def Call.event (capacity : ℕ) (past : Past Node) :
    Call Node → Lru.Event PageKey (PagedChildrenResult Node)
  | .putPage result => .put result.key result
  | .tryGetPage opId parentId offset =>
      if (Lru.answer capacity past { opId, parentId, offset }).isSome then
        .hit { opId, parentId, offset }
      else .miss { opId, parentId, offset }
  | .clear => .clear

/-- The past after a sequence of calls. -/
def history (capacity : ℕ) (past : Past Node) : List (Call Node) → Past Node
  | [] => past
  | call :: calls => history capacity (call.event capacity past :: past) calls

/-- The answers to a sequence of calls. -/
def answersTo (capacity : ℕ) (past : Past Node) :
    List (Call Node) → List (Option (PagedChildrenResult Node))
  | [] => []
  | call :: calls =>
      call.answer capacity past :: answersTo capacity (call.event capacity past :: past) calls

/-! ### What the two structures hold -/

/-- The entries, the most recently used one first. -/
def contents (cache : BoundedPageCache Node) : List (PageKey × PagedChildrenResult Node) :=
  cache.lruList.reverse.map fun node => (node.entry.key, node.entry.value)

/-- The dictionary holds exactly the nodes of the list, each under its own key. -/
structure Indexed (map : HashMap PageKey (LinkedListNode Node))
    (lruList : List (LinkedListNode Node)) : Prop where
  distinctKeys : (lruList.map (·.entry.key)).Nodup
  lookup : ∀ key node, map.lookup key = some node ↔ node ∈ lruList ∧ node.entry.key = key

structure Consistent (cache : BoundedPageCache Node) : Prop where
  indexed : Indexed cache.map cache.lruList
  distinctIds : (cache.lruList.map (·.id)).Nodup
  fresh : ∀ node ∈ cache.lruList, node.id < cache.nextId
  bounded : cache.lruList.length ≤ cache.maxPages
  positive : 0 < cache.maxPages

namespace Indexed

variable {map : HashMap PageKey (LinkedListNode Node)} {lruList : List (LinkedListNode Node)}

theorem keys_perm (indexed : Indexed map lruList) :
    map.keys.Perm (lruList.map (·.entry.key)) := by
  apply (List.perm_ext_iff_of_nodup map.keys_nodup indexed.distinctKeys).mpr
  intro key
  rw [← AList.mem_keys, ← AList.lookup_isSome, Option.isSome_iff_exists, List.mem_map]
  simp only [indexed.lookup]

theorem length_keys (indexed : Indexed map lruList) : map.keys.length = lruList.length := by
  rw [indexed.keys_perm.length_eq, List.length_map]

/-- Entries of one key are removed from both structures. -/
theorem erase (indexed : Indexed map lruList) (key : PageKey) :
    Indexed (map.erase key) (lruList.filter (·.entry.key ≠ key)) where
  distinctKeys := indexed.distinctKeys.sublist (List.filter_sublist.map _)
  lookup := by
    intro other node
    rw [List.mem_filter]
    by_cases same : other = key
    · rw [same, AList.lookup_erase]
      simp
    · rw [AList.lookup_erase_ne same, indexed.lookup]
      constructor
      · rintro ⟨among, rfl⟩
        exact ⟨⟨among, by simpa using same⟩, rfl⟩
      · rintro ⟨⟨among, -⟩, named⟩
        exact ⟨among, named⟩

/-- An entry with a new key is added to both structures. -/
theorem insert (indexed : Indexed map lruList) {node : LinkedListNode Node}
    (absent : node.entry.key ∉ lruList.map (·.entry.key)) :
    Indexed (map.insert node.entry.key node) (lruList ++ [node]) where
  distinctKeys := by
    rw [List.map_append, List.map_singleton]
    exact List.nodup_append.mpr ⟨indexed.distinctKeys, List.nodup_singleton _, by
      intro left leftMem right rightMem same
      rw [List.mem_singleton.mp rightMem] at same
      exact absent (same ▸ leftMem)⟩
  lookup := by
    intro key other
    rw [List.mem_append, List.mem_singleton]
    by_cases same : key = node.entry.key
    · rw [same, AList.lookup_insert]
      constructor
      · rintro ⟨⟩
        exact ⟨Or.inr rfl, rfl⟩
      · rintro ⟨among | rfl, named⟩
        · exact absurd (List.mem_map.mpr ⟨other, among, named⟩) absent
        · rfl
    · rw [AList.lookup_insert_ne same, indexed.lookup]
      constructor
      · rintro ⟨among, named⟩
        exact ⟨Or.inl among, named⟩
      · rintro ⟨among | rfl, named⟩
        · exact ⟨among, named⟩
        · exact absurd named.symm same

/-- Eviction keeps the most recently used entries. -/
theorem evict (indexed : Indexed map lruList) {maxPages : ℕ} (positive : 0 < maxPages) :
    Indexed (BoundedPageCache.evict maxPages map lruList).1
        (BoundedPageCache.evict maxPages map lruList).2 ∧
      (BoundedPageCache.evict maxPages map lruList).2 =
        lruList.drop (lruList.length - (maxPages - 1)) := by
  induction lruList generalizing map with
  | nil => exact ⟨indexed, by simp [BoundedPageCache.evict]⟩
  | cons oldest lruList ih =>
      have count := indexed.length_keys
      rw [List.length_cons] at count
      rw [BoundedPageCache.evict, List.length_cons]
      split
      · next full =>
          have alone : ∀ node ∈ lruList, node.entry.key ≠ oldest.entry.key := by
            intro node among same
            have distinct := indexed.distinctKeys
            rw [List.map_cons, List.nodup_cons] at distinct
            exact distinct.1 (List.mem_map.mpr ⟨node, among, same⟩)
          have rest : Indexed (map.erase oldest.entry.key) lruList := by
            have erased := indexed.erase oldest.entry.key
            rwa [List.filter_cons_of_neg (by simp),
              List.filter_eq_self.mpr (by simpa using alone)] at erased
          rcases ih rest with ⟨kept, dropped⟩
          refine ⟨kept, dropped.trans ?_⟩
          have later : lruList.length + 1 - (maxPages - 1) =
              lruList.length - (maxPages - 1) + 1 := by omega
          rw [later, List.drop_succ_cons]
      · next room =>
          have all : lruList.length + 1 - (maxPages - 1) = 0 := by omega
          rw [all]
          exact ⟨indexed, rfl⟩

end Indexed

namespace Consistent

variable {cache : BoundedPageCache Node}

theorem new (maxPages : ℤ) : Consistent (BoundedPageCache.new maxPages : BoundedPageCache Node) where
  indexed := ⟨List.nodup_nil, by simp [BoundedPageCache.new]⟩
  distinctIds := List.nodup_nil
  fresh := by simp [BoundedPageCache.new]
  bounded := Nat.zero_le _
  positive := by
    simp only [BoundedPageCache.new]
    omega

/-- Removing a node of the list removes the entries of its key. -/
theorem remove (consistent : Consistent cache) {node : LinkedListNode Node}
    (among : node ∈ cache.lruList) :
    BoundedPageCache.remove cache.lruList node =
      .ok (cache.lruList.filter (·.entry.key ≠ node.entry.key)) := by
  have present : cache.lruList.any (·.id = node.id) = true :=
    List.any_eq_true.mpr ⟨node, among, by simp⟩
  rw [BoundedPageCache.remove, if_pos present]
  congr 1
  apply List.filter_congr
  intro other otherMem
  have sameNode : other.id = node.id ↔ other.entry.key = node.entry.key :=
    ⟨fun same => by rw [List.inj_on_of_nodup_map consistent.distinctIds otherMem among same],
      fun same => by
        rw [List.inj_on_of_nodup_map consistent.indexed.distinctKeys otherMem among same]⟩
  simp only [ne_eq, sameNode]

theorem contents_filter (cache : BoundedPageCache Node) (key : PageKey) :
    ((cache.lruList.filter (·.entry.key ≠ key)).reverse.map
        fun node => (node.entry.key, node.entry.value)) =
      cache.contents.filter (·.1 ≠ key) := by
  rw [contents, ← List.filter_reverse, List.filter_map]
  rfl

theorem distinct_contents (consistent : Consistent cache) :
    (cache.contents.map Prod.fst).Nodup := by
  have keys : cache.contents.map Prod.fst = (cache.lruList.map (·.entry.key)).reverse := by
    simp [contents, Function.comp_def]
  rw [keys]
  exact List.nodup_reverse.mpr consistent.indexed.distinctKeys

theorem lookup_contents (consistent : Consistent cache) (key : PageKey) :
    cache.contents.lookup key = (cache.map.lookup key).map (·.entry.value) := by
  apply Option.ext
  intro value
  rw [Lru.lookup_eq_some_iff_mem consistent.distinct_contents, Option.map_eq_some_iff]
  simp only [contents, List.mem_map, List.mem_reverse, Prod.mk.injEq, consistent.indexed.lookup]
  constructor
  · rintro ⟨node, among, named, holds⟩
    exact ⟨node, ⟨among, named⟩, holds⟩
  · rintro ⟨node, ⟨among, named⟩, holds⟩
    exact ⟨node, among, named, holds⟩

/-- The order of the list does not matter for what is held. -/
theorem perm (consistent : Consistent cache) {lruList : List (LinkedListNode Node)}
    (same : lruList.Perm cache.lruList) : Consistent { cache with lruList } where
  indexed :=
    { distinctKeys := (same.map _).nodup_iff.mpr consistent.indexed.distinctKeys
      lookup := fun key node => by
        rw [same.mem_iff]
        exact consistent.indexed.lookup key node }
  distinctIds := (same.map _).nodup_iff.mpr consistent.distinctIds
  fresh := fun node among => consistent.fresh node (same.mem_iff.mp among)
  bounded := same.length_eq.trans_le consistent.bounded
  positive := consistent.positive

theorem move_perm (consistent : Consistent cache) {node : LinkedListNode Node}
    (among : node ∈ cache.lruList) :
    (cache.lruList.filter (·.entry.key ≠ node.entry.key) ++ [node]).Perm cache.lruList := by
  have distinct : cache.lruList.Nodup := consistent.indexed.distinctKeys.of_map
  have apart : node ∉ cache.lruList.filter (·.entry.key ≠ node.entry.key) := by simp
  have moved : (cache.lruList.filter (·.entry.key ≠ node.entry.key) ++ [node]).Nodup :=
    List.nodup_append.mpr ⟨distinct.filter _, List.nodup_singleton _, by
      intro left leftMem right rightMem same
      rw [List.mem_singleton.mp rightMem] at same
      exact apart (same ▸ leftMem)⟩
  apply (List.perm_ext_iff_of_nodup moved distinct).mpr
  intro other
  rw [List.mem_append, List.mem_filter, List.mem_singleton]
  constructor
  · rintro (⟨otherMem, -⟩ | rfl)
    · exact otherMem
    · exact among
  · intro otherMem
    by_cases same : other.entry.key = node.entry.key
    · exact Or.inr
        (List.inj_on_of_nodup_map consistent.indexed.distinctKeys otherMem among same)
    · exact Or.inl ⟨otherMem, by simpa using same⟩

/-- A read answers from the contents, and uses what it finds. -/
theorem tryGetPage (consistent : Consistent cache) (key : PageKey) :
    ∃ after, cache.tryGetPage key.opId key.parentId key.offset =
        .ok (after, cache.contents.lookup key) ∧
      Consistent after ∧ after.maxPages = cache.maxPages ∧
      after.contents =
        match cache.contents.lookup key with
        | some value => Lru.use cache.maxPages cache.contents key value
        | none => cache.contents := by
  rw [consistent.lookup_contents key, BoundedPageCache.tryGetPage]
  cases found : cache.map.lookup key with
  | none => exact ⟨cache, rfl, consistent, rfl, rfl⟩
  | some node =>
      rcases (consistent.indexed.lookup _ _).mp found with ⟨among, named⟩
      have same := consistent.move_perm among
      simp only [consistent.remove among, Checked.ok_bind]
      refine ⟨_, rfl, consistent.perm same, rfl, ?_⟩
      have room := same.length_eq.trans_le consistent.bounded
      have rest := contents_filter cache node.entry.key
      have short : (cache.contents.filter (·.1 ≠ node.entry.key)).length ≤
          cache.maxPages - 1 := by
        rw [List.length_append, List.length_singleton] at room
        rw [← rest, List.length_map, List.length_reverse]
        omega
      simp only [Option.map_some, Lru.use, ← named]
      rw [List.take_of_length_le short, ← rest, contents]
      simp

/-- What a put replaces is removed from both structures. -/
theorem removeExisting (consistent : Consistent cache) (key : PageKey) :
    ∃ map, cache.removeExisting key =
        .ok { cache with map, lruList := cache.lruList.filter (·.entry.key ≠ key) } ∧
      Indexed map (cache.lruList.filter (·.entry.key ≠ key)) := by
  rw [BoundedPageCache.removeExisting]
  cases found : cache.map.lookup key with
  | none =>
      have absent : cache.lruList.filter (·.entry.key ≠ key) = cache.lruList := by
        apply List.filter_eq_self.mpr
        intro node among
        have different : node.entry.key ≠ key := fun named => by
          have present := (consistent.indexed.lookup key node).mpr ⟨among, named⟩
          rw [found] at present
          cases present
        simpa using different
      rw [absent]
      exact ⟨cache.map, rfl, consistent.indexed⟩
  | some node =>
      rcases (consistent.indexed.lookup _ _).mp found with ⟨among, named⟩
      simp only [consistent.remove among, Checked.ok_bind, named]
      exact ⟨_, rfl, consistent.indexed.erase key⟩

/-- A page that is put becomes the most recently used entry. -/
theorem putPage (consistent : Consistent cache) (result : PagedChildrenResult Node) :
    ∃ after, cache.putPage result = .ok after ∧ Consistent after ∧
      after.maxPages = cache.maxPages ∧
      after.contents = Lru.use cache.maxPages cache.contents result.key result := by
  have positive := consistent.positive
  rcases consistent.removeExisting result.key with ⟨others, removed, indexed⟩
  rcases indexed.evict positive with ⟨kept, dropped⟩
  rw [BoundedPageCache.putPage, removed, Checked.ok_bind]
  generalize evict cache.maxPages others (cache.lruList.filter (·.entry.key ≠ result.key)) =
    evicted at kept dropped ⊢
  rcases evicted with ⟨map, survivors⟩
  simp only at kept dropped
  have part : survivors.Sublist cache.lruList := by
    rw [dropped]
    exact (List.drop_sublist _ _).trans List.filter_sublist
  have absent : result.key ∉ survivors.map (·.entry.key) := by
    rw [dropped, List.mem_map]
    rintro ⟨node, among, named⟩
    have other := (List.mem_filter.mp (List.mem_of_mem_drop among)).2
    exact (of_decide_eq_true other) named
  let newNode : LinkedListNode Node :=
    { id := cache.nextId, entry := { key := result.key, value := result } }
  have added : Indexed (map.insert result.key newNode) (survivors ++ [newNode]) :=
    kept.insert (show newNode.entry.key ∉ survivors.map (·.entry.key) from absent)
  refine ⟨_, rfl, ⟨added, ?_, ?_, ?_, positive⟩, rfl, ?_⟩
  · rw [List.map_append, List.map_singleton]
    refine List.nodup_append.mpr ⟨consistent.distinctIds.sublist (part.map _),
      List.nodup_singleton _, ?_⟩
    intro left leftMem right rightMem same
    rcases List.mem_map.mp leftMem with ⟨node, among, rfl⟩
    have older := consistent.fresh node (part.subset among)
    rw [List.mem_singleton.mp rightMem] at same
    exact absurd same older.ne
  · intro node among
    rcases List.mem_append.mp among with among | new
    · exact Nat.lt_succ_of_lt (consistent.fresh node (part.subset among))
    · rw [List.mem_singleton.mp new]
      exact Nat.lt_succ_self _
  · have short : survivors.length ≤ cache.maxPages - 1 := by
      rw [dropped, List.length_drop]
      omega
    rw [List.length_append, List.length_singleton]
    exact Nat.add_le_of_le_sub positive short
  · rw [Lru.use, ← contents_filter cache result.key, ← List.map_take, List.take_reverse, ← dropped]
    simp [contents]

theorem clear (consistent : Consistent cache) : Consistent cache.clear where
  indexed := ⟨List.nodup_nil, by simp [BoundedPageCache.clear]⟩
  distinctIds := List.nodup_nil
  fresh := by simp [BoundedPageCache.clear]
  bounded := Nat.zero_le _
  positive := consistent.positive

end Consistent

/-! ### The cache against its past -/

/-- After any past that the cache can have, its contents are the entries of an abstract
cache. -/
structure Refines (cache : BoundedPageCache Node) (capacity : ℕ) (past : Past Node) : Prop where
  consistent : Consistent cache
  room : cache.maxPages = capacity
  contents : cache.contents = Lru.entries capacity past
  possible : Lru.Possible capacity past

theorem Refines.read {cache : BoundedPageCache Node} {capacity : ℕ} {past : Past Node}
    (refines : Refines cache capacity past) (key : PageKey) :
    cache.contents.lookup key = Lru.answer capacity past key := by
  rw [refines.contents]
  exact Lru.lookup_entries (refines.room ▸ refines.consistent.positive) refines.possible key

/-- One call runs without an abort and answers what the past determines, and the cache
follows its past. -/
theorem Refines.perform {cache : BoundedPageCache Node} {capacity : ℕ} {past : Past Node}
    (refines : Refines cache capacity past) (call : Call Node) :
    ∃ after, cache.perform call = .ok (after, call.answer capacity past) ∧
      Refines after capacity (call.event capacity past :: past) := by
  have read := refines.read
  rcases refines with ⟨consistent, rfl, contents, possible⟩
  cases call with
  | putPage result =>
      rcases consistent.putPage result with ⟨after, ran, kept, same, held⟩
      refine ⟨after, by rw [BoundedPageCache.perform, ran]; rfl, kept, same, ?_, possible⟩
      rw [held, contents, Call.event, Lru.entries]
  | tryGetPage opId parentId offset =>
      have known := read { opId, parentId, offset }
      rcases consistent.tryGetPage { opId, parentId, offset } with
        ⟨after, ran, kept, same, held⟩
      have answered : cache.perform (.tryGetPage opId parentId offset) =
          .ok (after, Call.answer cache.maxPages past (.tryGetPage opId parentId offset)) := by
        rw [BoundedPageCache.perform, ran, known]
        rfl
      cases found : cache.contents.lookup { opId, parentId, offset } with
      | none =>
          rw [found] at held known
          have missed : Call.event cache.maxPages past (.tryGetPage opId parentId offset) =
              .miss { opId, parentId, offset } := by
            rw [Call.event, ← known, Option.isSome_none, if_neg Bool.false_ne_true]
          rw [missed]
          refine ⟨after, answered, kept, same, ?_, possible⟩
          rw [held, contents, Lru.entries]
      | some value =>
          rw [found] at held known
          have hit : Call.event cache.maxPages past (.tryGetPage opId parentId offset) =
              .hit { opId, parentId, offset } := by
            rw [Call.event, ← known, Option.isSome_some, if_pos rfl]
          rw [contents] at found
          rw [hit]
          refine ⟨after, answered, kept, same, ?_, ?_, possible⟩
          · rw [held, contents, Lru.entries, found]
          · rw [found]
            rfl
  | clear =>
      exact ⟨cache.clear, rfl, consistent.clear, rfl, rfl, possible⟩

theorem Refines.performAll {capacity : ℕ} (calls : List (Call Node))
    {cache : BoundedPageCache Node} {past : Past Node} (refines : Refines cache capacity past) :
    ∃ after, cache.performAll calls = .ok (after, answersTo capacity past calls) ∧
      Refines after capacity (history capacity past calls) := by
  induction calls generalizing cache past with
  | nil => exact ⟨cache, rfl, refines⟩
  | cons call calls ih =>
      rcases refines.perform call with ⟨next, ran, kept⟩
      rcases ih kept with ⟨after, rest, refined⟩
      refine ⟨after, ?_, refined⟩
      rw [BoundedPageCache.performAll, ran, Checked.ok_bind]
      dsimp only
      rw [rest]
      rfl

/-- After any calls the dictionary and the list hold the same distinct keys, at most as
many as there is room for; every read among the calls, and any read after them, answers
what the calls before it determine. -/
theorem performAll_refines_lru (maxPages : ℤ) (calls : List (Call Node)) :
    ∃ cache, (new maxPages).performAll calls =
        .ok (cache, answersTo (max 1 maxPages).toNat [] calls) ∧
      cache.map.keys.Perm (cache.lruList.map (·.entry.key)) ∧
      (cache.lruList.map (·.entry.key)).Nodup ∧
      cache.map.keys.length ≤ (max 1 maxPages).toNat ∧
      ∀ key : PageKey, ∃ after, cache.tryGetPage key.opId key.parentId key.offset =
        .ok (after, Lru.answer (max 1 maxPages).toNat
          (history (max 1 maxPages).toNat [] calls) key) := by
  have start : Refines (new maxPages : BoundedPageCache Node) (max 1 maxPages).toNat [] :=
    ⟨Consistent.new maxPages, rfl, rfl, trivial⟩
  rcases start.performAll calls with ⟨cache, ran, refines⟩
  have consistent := refines.consistent
  refine ⟨cache, ran, consistent.indexed.keys_perm, consistent.indexed.distinctKeys, ?_,
    fun key => ?_⟩
  · rw [consistent.indexed.length_keys, ← refines.room]
    exact consistent.bounded
  · rcases consistent.tryGetPage key with ⟨after, ran, -⟩
    exact ⟨after, by rw [ran, refines.read key]⟩

end BoundedPageCache

end Client

end PigTree
