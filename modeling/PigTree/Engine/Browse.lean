import PigTree.Engine.Hierarchy

/-!
# Browsing the finished graph

A client starts at the parent `0` and requests the pages of every directory it
is shown. It sees every accepted entry exactly once, unless an entry has the
identifier `0`: the builder admits it below the root, the store never resolves it.
-/

namespace PigTree

open Foundation ParentTree EntryObservation

namespace DirectoryGraph

/-- The remaining pages of a parent: offsets advance by the page sizes until the
number of children is reached. -/
def pagesFrom (graph : DirectoryGraph) (parentId : UInt32) (size : ℕ → ℕ) :
    ℕ → ℕ → ℕ → Checked (Except GraphQueryError (List DirectoryEntryNode))
  | 0, _, _ => .error .outOfFuel
  | fuel + 1, page, offset => do
      match ← graph.getChildrenPage parentId offset (size page) with
      | .error err => return .error err
      | .ok (total, nodes) =>
          if total ≤ offset + size page then return .ok nodes
          else
            match ← graph.pagesFrom parentId size fuel (page + 1) (offset + size page) with
            | .error err => return .error err
            | .ok more => return .ok (nodes ++ more)

/-- All pages of a parent. -/
def pages (graph : DirectoryGraph) (parentId : UInt32) (size : ℕ → ℕ) :
    Checked (Except GraphQueryError (List DirectoryEntryNode)) :=
  graph.pagesFrom parentId size (graph.totalEntries + 2) 0 0

/-- The identifiers of the directories among some nodes. -/
def directoryIds (nodes : List DirectoryEntryNode) : List UInt32 :=
  (nodes.filter (fun node => node.entryKind = entryKindCode .directory)).map (·.id)

/-- Request the pages of the pending parents and of every directory they show. -/
def browseFrom (graph : DirectoryGraph) (size : UInt32 → ℕ → ℕ) :
    ℕ → List UInt32 → Checked (Except GraphQueryError (List DirectoryEntryNode))
  | _, [] => .ok (.ok [])
  | 0, _ :: _ => .error .outOfFuel
  | fuel + 1, parentId :: pending => do
      match ← graph.pages parentId (size parentId) with
      | .error err => return .error err
      | .ok nodes =>
          match ← graph.browseFrom size fuel (pending ++ directoryIds nodes) with
          | .error err => return .error err
          | .ok more => return .ok (nodes ++ more)

/-- Everything a client is shown that starts at the parent `0`. -/
def browse (graph : DirectoryGraph) (size : UInt32 → ℕ → ℕ) :
    Checked (Except GraphQueryError (List DirectoryEntryNode)) :=
  graph.browseFrom size (graph.totalEntries + 2) [0]

end DirectoryGraph

/-- What a page shows of an entry. -/
def DirectoryEntryNode.shown (node : DirectoryEntryNode) : UInt32 × UInt32 × String × UInt32 :=
  (node.id, node.parentId, node.name, node.entryKind)

def EntryObservation.shown (entry : EntryObservation) : UInt32 × UInt32 × String × UInt32 :=
  (entry.entryId, entry.parentId, entry.name, DirectoryGraph.entryKindCode entry.kind)

/-- Page sizes a client may ask for. -/
def PageSizes (size : ℕ → ℕ) : Prop := ∀ page, 1 ≤ size page ∧ size page ≤ 500

/-- Every entry is shown exactly once, the pages of a directory add up to its
number of children, and every entry is resolved. -/
structure Browsable (graph : DirectoryGraph) (entries : List EntryObservation) : Prop where
  shown : ∀ size : UInt32 → ℕ → ℕ, (∀ parentId, PageSizes (size parentId)) →
    ∃ nodes, graph.browse size = .ok (.ok nodes) ∧
      (nodes.map DirectoryEntryNode.shown).Perm (entries.map EntryObservation.shown)
  totals : ∀ dir ∈ entries, dir.kind = .directory → ∀ size, PageSizes size →
    ∃ nodes total page, graph.pages dir.entryId size = .ok (.ok nodes) ∧
      graph.getChildrenPage dir.entryId 0 (size 0) = .ok (.ok (total, page)) ∧
        nodes.length = total
  resolved : ∀ entry ∈ entries, ∃ projected, graph.entry entry.entryId = .ok (some projected)

namespace GraphBuilder

variable {rt : Runtime} {builder : GraphBuilder} {target : String}
  {records : List ObservationRecord} {graph : DirectoryGraph} {s : Snapshot}
  {size : ℕ → ℕ}

/-! ### Nodes -/

/-- The entries at some positions. -/
def entriesAt (s : Snapshot) (positions : List ℕ) : List EntryObservation :=
  positions.filterMap (fun idx => s.entries[idx]?)

def isDirectoryAt (s : Snapshot) (idx : ℕ) : Bool :=
  (s.entries[idx]?).elim false (fun entry => entry.kind = .directory)

/-- The positions strictly below a position, children's subtrees one after the other. -/
def below (s : Snapshot) (idx : ℕ) : List ℕ := (s.tree.children idx).flatMap s.tree.postorder

/-- The nodes present the entries at the positions, in this order. -/
def Presents (s : Snapshot) (positions : List ℕ) (nodes : List DirectoryEntryNode) : Prop :=
  nodes.map DirectoryEntryNode.shown = (entriesAt s positions).map EntryObservation.shown

theorem entriesAt_cons {idx : ℕ} {entry : EntryObservation} (found : s.entries[idx]? = some entry)
    (positions : List ℕ) : entriesAt s (idx :: positions) = entry :: entriesAt s positions :=
  List.filterMap_cons_some found

theorem entriesAt_append (left right : List ℕ) :
    entriesAt s (left ++ right) = entriesAt s left ++ entriesAt s right :=
  List.filterMap_append

theorem Presents.append {left right : List ℕ} {first second : List DirectoryEntryNode}
    (shows : Presents s left first) (more : Presents s right second) :
    Presents s (left ++ right) (first ++ second) := by
  unfold Presents at shows more ⊢
  rw [List.map_append, shows, more, entriesAt_append, List.map_append]

theorem Presents.length_eq {positions : List ℕ} {nodes : List DirectoryEntryNode}
    (shows : Presents s positions nodes) (inside : ∀ idx ∈ positions, idx < s.entries.length) :
    nodes.length = positions.length := by
  have counted : (entriesAt s positions).length = positions.length := by
    have values : (entriesAt s positions).map (fun _ => ()) = positions.map (fun _ => ()) := by
      apply map_filterMap_getElem?
      intro idx mem
      rcases exists_getElem? (inside idx mem) with ⟨entry, found⟩
      exact ⟨entry, found, rfl⟩
    have lengths := congrArg List.length values
    rw [List.length_map, List.length_map] at lengths
    exact lengths
  have lengths := congrArg List.length shows
  rw [List.length_map, List.length_map, counted] at lengths
  exact lengths

theorem length_children_le (s : Snapshot) (idx : ℕ) :
    (s.tree.children idx).length ≤ s.entries.length := by
  have short : (kids (parentIndex s.entries) s.entries.length idx).length ≤ s.entries.length :=
    length_kids_le
  exact short

namespace Finished

variable (finished : Finished rt s graph)

include finished

/-- No lookup of an object fails. -/
theorem nodeEvidence_ok {compact : CompactEntry} (mem : compact ∈ graph.storage.entries) :
    ∃ evidence, graph.nodeEvidence compact = .ok evidence := by
  unfold DirectoryGraph.nodeEvidence
  split
  · next used =>
      rcases exists_getElem? (finished.owned compact mem used) with ⟨obj, found⟩
      rw [getAt_of_getElem? found, Checked.ok_bind]
      exact ⟨_, rfl⟩
  · split <;> exact ⟨_, rfl⟩

theorem entryEvidence_ok {compact : CompactEntry} (mem : compact ∈ graph.storage.entries) :
    ∃ evidence, graph.entryEvidence compact = .ok evidence := by
  unfold DirectoryGraph.entryEvidence
  split
  · next used =>
      rcases exists_getElem? (finished.owned compact mem used) with ⟨obj, found⟩
      rw [getAt_of_getElem? found, Checked.ok_bind]
      exact ⟨_, rfl⟩
  · split <;> exact ⟨_, rfl⟩

theorem childrenOf_ok {compact : CompactEntry} (mem : compact ∈ graph.storage.entries) :
    ∃ children, graph.childrenOf compact = .ok children := by
  unfold DirectoryGraph.childrenOf
  split
  · exact ⟨_, rfl⟩
  · next some =>
      rcases finished.found mem with ⟨idx, _, stored, _, _⟩
      rcases finished.slice idx compact stored with ⟨slice, _, _, sliced⟩
      refine ⟨slice, sliced ?_⟩
      by_contra plain
      exact some (finished.childCount_eq_zero mem plain)

/-- The public projection of a stored entry. -/
theorem projectGraphEntry_ok {compact : CompactEntry} (mem : compact ∈ graph.storage.entries) :
    ∃ projected, graph.projectGraphEntry compact = .ok projected := by
  rcases finished.childrenOf_ok mem with ⟨children, childrenRan⟩
  rcases finished.entryEvidence_ok mem with ⟨evidence, evidenceRan⟩
  rw [DirectoryGraph.projectGraphEntry, childrenRan, Checked.ok_bind, evidenceRan, Checked.ok_bind]
  exact ⟨_, rfl⟩

theorem directoryEntryNode_ok {idx : ℕ} {compact : CompactEntry} {entry : EntryObservation}
    (mem : compact ∈ graph.storage.entries) (delivered : Delivered s idx entry compact) :
    ∃ node, graph.directoryEntryNode compact = .ok node ∧ node.shown = entry.shown := by
  rcases finished.nodeEvidence_ok mem with ⟨evidence, ran⟩
  rw [DirectoryGraph.directoryEntryNode, ran, Checked.ok_bind]
  refine ⟨_, rfl, ?_⟩
  simp only [DirectoryEntryNode.shown, EntryObservation.shown, delivered.id_eq,
    delivered.parentId_eq, delivered.name_eq, delivered.kind_eq]

variable (addressable : ∀ entry ∈ s.entries, entry.entryId ≠ 0)

include addressable

theorem get_ok {idx : ℕ} {entry : EntryObservation} (found : s.entries[idx]? = some entry) :
    ∃ compact, graph.storage.get entry.entryId = some compact ∧
      graph.storage.entries[idx]? = some compact ∧ Delivered s idx entry compact := by
  rcases finished.delivered idx entry found with ⟨compact, stored, delivered⟩
  refine ⟨compact, ?_, stored, delivered⟩
  exact (finished.get_iff _ _).mpr ⟨addressable entry (List.mem_of_getElem? found),
    List.mem_of_getElem? stored, delivered.id_eq⟩

/-- A page of resolved identifiers has one node for each of them. -/
theorem pageNodes_ok {positions : List ℕ} (inside : ∀ idx ∈ positions, idx < s.entries.length) :
    ∃ nodes, graph.pageNodes (positions.map (s.valueAt entryId)) = .ok nodes ∧
      Presents s positions nodes := by
  induction positions with
  | nil => exact ⟨[], rfl, rfl⟩
  | cons idx positions ih =>
      rcases exists_getElem? (inside idx List.mem_cons_self) with ⟨entry, found⟩
      rcases finished.get_ok addressable found with ⟨compact, resolved, stored, delivered⟩
      rcases finished.directoryEntryNode_ok (List.mem_of_getElem? stored) delivered with
        ⟨node, nodeRan, shows⟩
      rcases ih (fun other mem => inside other (List.mem_cons_of_mem _ mem)) with
        ⟨nodes, nodesRan, rest⟩
      refine ⟨node :: nodes, ?_, ?_⟩
      · rw [List.map_cons, Snapshot.valueAt_of_found found, DirectoryGraph.pageNodes, resolved]
        simp only [nodeRan, nodesRan, Checked.ok_bind, Checked.pure_eq_ok]
      · unfold Presents at rest ⊢
        rw [entriesAt_cons found, List.map_cons, List.map_cons, shows, rest]

/-! ### The pages of one parent -/

/-- One page of a parent whose children are at the positions. -/
theorem getChildrenPage_ok {parentId : UInt32} {positions : List ℕ}
    (inside : ∀ idx ∈ positions, idx < s.entries.length)
    (ids : graph.childIds parentId = .ok (.ok (positions.map (s.valueAt entryId))))
    (offset limit : ℕ) :
    ∃ nodes, graph.getChildrenPage parentId offset limit = .ok (.ok (positions.length, nodes)) ∧
      Presents s ((positions.drop offset).take limit) nodes := by
  rw [DirectoryGraph.getChildrenPage, ids]
  simp only [Checked.ok_bind, List.length_map]
  split
  · next beyond =>
      refine ⟨[], rfl, ?_⟩
      rw [List.drop_eq_nil_of_le beyond, List.take_nil]
      rfl
  · next within =>
      have bounded : (positions.drop offset).take (min (offset + limit) positions.length - offset) =
          (positions.drop offset).take limit := by
        rcases Nat.le_total (offset + limit) positions.length with fits | exceeds
        · rw [Nat.min_eq_left fits, Nat.add_sub_cancel_left]
        · have short : (positions.drop offset).length ≤ limit := by
            rw [List.length_drop]
            omega
          rw [Nat.min_eq_right exceeds, ← List.length_drop, List.take_length,
            List.take_of_length_le short]
      have below : ∀ idx ∈ (positions.drop offset).take limit, idx < s.entries.length :=
        fun idx mem => inside idx (List.mem_of_mem_drop (List.mem_of_mem_take mem))
      rcases finished.pageNodes_ok addressable below with ⟨nodes, ran, shows⟩
      refine ⟨nodes, ?_, shows⟩
      rw [← List.map_drop, ← List.map_take, bounded, ran]
      rfl

/-- Consecutive pages show all children from an offset on. -/
theorem pagesFrom_ok {parentId : UInt32} {positions : List ℕ}
    (inside : ∀ idx ∈ positions, idx < s.entries.length)
    (ids : graph.childIds parentId = .ok (.ok (positions.map (s.valueAt entryId))))
    (sizes : PageSizes size) {fuel : ℕ} (page offset : ℕ)
    (enough : positions.length - offset < fuel) :
    ∃ nodes, graph.pagesFrom parentId size fuel page offset = .ok (.ok nodes) ∧
      Presents s (positions.drop offset) nodes := by
  induction fuel generalizing page offset with
  | zero => exact absurd enough (Nat.not_lt_zero _)
  | succ fuel ih =>
      rcases finished.getChildrenPage_ok addressable inside ids offset (size page) with
        ⟨nodes, ran, shows⟩
      have positive := (sizes page).1
      rw [DirectoryGraph.pagesFrom, ran]
      simp only [Checked.ok_bind]
      split
      · next last =>
          refine ⟨nodes, rfl, ?_⟩
          have all : (positions.drop offset).length ≤ size page := by
            rw [List.length_drop]
            omega
          rw [List.take_of_length_le all] at shows
          exact shows
      · next remaining =>
          rcases ih (page + 1) (offset + size page) (by omega) with ⟨more, moreRan, moreShows⟩
          simp only [moreRan, Checked.ok_bind]
          refine ⟨nodes ++ more, rfl, ?_⟩
          have both := shows.append moreShows
          rw [← List.drop_drop, List.take_append_drop] at both
          exact both

theorem pages_ok {parentId : UInt32} {positions : List ℕ}
    (inside : ∀ idx ∈ positions, idx < s.entries.length)
    (few : positions.length ≤ s.entries.length + 1)
    (ids : graph.childIds parentId = .ok (.ok (positions.map (s.valueAt entryId))))
    (sizes : PageSizes size) :
    ∃ nodes, graph.pages parentId size = .ok (.ok nodes) ∧ Presents s positions nodes := by
  have total : graph.totalEntries = s.entries.length := finished.length_eq
  exact finished.pagesFrom_ok addressable inside ids sizes 0 0 (by omega)

/-- The children of a directory, as the store lists them. -/
theorem childIds_directory {idx : ℕ} {entry : EntryObservation}
    (found : s.entries[idx]? = some entry) (directory : entry.kind = .directory) :
    ∃ positions : List ℕ, positions.Perm (s.tree.children idx) ∧
      graph.childIds entry.entryId = .ok (.ok (positions.map (s.valueAt entryId))) := by
  rcases finished.get_ok addressable found with ⟨compact, resolved, stored, delivered⟩
  have isDirectory : compact.kind = .directory := delivered.kind_eq.trans directory
  rcases finished.slice idx compact stored with ⟨slice, isSlice, _, sliced⟩
  have position : ∀ child ∈ s.tree.children idx,
      indexOf s.entries (s.valueAt entryId child) = child := by
    intro child childMem
    rcases exists_getElem? (mem_children.mp childMem).1 with ⟨other, otherFound⟩
    rw [Snapshot.valueAt_of_found otherFound, s.wellFormed.indexOf_eq otherFound]
  refine ⟨slice.map (indexOf s.entries), ?_, ?_⟩
  · have located := isSlice.perm.map (indexOf s.entries)
    have back : (childIdsAt s idx).map (indexOf s.entries) = s.tree.children idx := by
      rw [childIdsAt, List.map_map]
      exact (List.map_congr_left position).trans (List.map_id' _)
    exact back ▸ located
  · have back : (slice.map (indexOf s.entries)).map (s.valueAt entryId) = slice := by
      have same : ∀ id ∈ slice, (s.valueAt entryId ∘ indexOf s.entries) id = id := by
        intro id idMem
        rcases List.mem_map.mp (isSlice.perm.mem_iff.mp idMem) with ⟨child, childMem, rfl⟩
        rw [Function.comp_apply, position child childMem]
      rw [List.map_map]
      exact (List.map_congr_left same).trans (List.map_id' _)
    have nonzero := addressable entry (List.mem_of_getElem? found)
    rw [back, DirectoryGraph.childIds, if_neg nonzero, resolved]
    simp only [isDirectory, ne_eq, not_true_eq_false, if_false, sliced isDirectory, Checked.ok_bind,
      Checked.pure_eq_ok]

/-! ### The whole tree -/

omit finished addressable in
/-- The directories among the nodes are those among the positions. -/
theorem directoryIds_eq {positions : List ℕ} {nodes : List DirectoryEntryNode}
    (shows : Presents s positions nodes) (inside : ∀ idx ∈ positions, idx < s.entries.length) :
    DirectoryGraph.directoryIds nodes =
      (positions.filter (fun idx => isDirectoryAt s idx)).map (s.valueAt entryId) := by
  induction positions generalizing nodes with
  | nil =>
      have none : nodes = [] := List.map_eq_nil_iff.mp shows
      rw [none]
      rfl
  | cons idx positions ih =>
      rcases exists_getElem? (inside idx List.mem_cons_self) with ⟨entry, found⟩
      unfold Presents at shows
      rw [entriesAt_cons found, List.map_cons] at shows
      rcases List.map_eq_cons_iff.mp shows with ⟨node, others, rfl, first, rest⟩
      have tail := ih rest (fun other mem => inside other (List.mem_cons_of_mem _ mem))
      have same : node.id = entry.entryId ∧
          node.entryKind = DirectoryGraph.entryKindCode entry.kind := by
        simp only [DirectoryEntryNode.shown, EntryObservation.shown, Prod.mk.injEq] at first
        exact ⟨first.1, first.2.2.2⟩
      unfold DirectoryGraph.directoryIds at tail ⊢
      cases kind : entry.kind with
      | directory =>
          have isDirectory : isDirectoryAt s idx = true := by simp [isDirectoryAt, found, kind]
          rw [List.filter_cons_of_pos (by simp [same.2, kind]), List.map_cons, tail,
            List.filter_cons_of_pos isDirectory, List.map_cons, Snapshot.valueAt_of_found found,
            same.1]
      | file =>
          have plain : isDirectoryAt s idx = false := by simp [isDirectoryAt, found, kind]
          rw [List.filter_cons_of_neg (by simp [same.2, kind, DirectoryGraph.entryKindCode]), tail,
            List.filter_cons_of_neg (by simp [plain])]
      | special =>
          have plain : isDirectoryAt s idx = false := by simp [isDirectoryAt, found, kind]
          rw [List.filter_cons_of_neg (by simp [same.2, kind, DirectoryGraph.entryKindCode]), tail,
            List.filter_cons_of_neg (by simp [plain])]

omit finished addressable in
theorem below_of_not_directory {idx : ℕ} (inside : idx < s.entries.length)
    (plain : isDirectoryAt s idx = false) : below s idx = [] := by
  rcases exists_getElem? inside with ⟨entry, found⟩
  have notDirectory : entry.kind ≠ .directory := by
    intro directory
    simp [isDirectoryAt, found, directory] at plain
  rw [below, s.children_eq_nil found notDirectory]
  rfl

omit finished addressable in
/-- Children, and what lies below the directories among them, are all that lies below. -/
theorem below_perm {idx : ℕ} {positions : List ℕ} (perm : positions.Perm (s.tree.children idx)) :
    (positions ++ (positions.filter (fun child => isDirectoryAt s child)).flatMap (below s)).Perm
      (below s idx) := by
  have inside : ∀ child ∈ positions, child < s.entries.length :=
    fun child mem => (mem_children.mp (perm.mem_iff.mp mem)).1
  have skipped : (positions.filter (fun child => isDirectoryAt s child)).flatMap (below s) =
      positions.flatMap (below s) := by
    clear perm
    induction positions with
    | nil => rfl
    | cons child positions ih =>
        have rest := ih (fun other mem => inside other (List.mem_cons_of_mem _ mem))
        cases directory : isDirectoryAt s child with
        | true =>
            rw [List.filter_cons_of_pos directory, List.flatMap_cons, List.flatMap_cons, rest]
        | false =>
            rw [List.filter_cons_of_neg (by simp [directory]), rest, List.flatMap_cons,
              below_of_not_directory (inside child List.mem_cons_self) directory, List.nil_append]
  have spread : ∀ children : List ℕ, (children ++ children.flatMap (below s)).Perm
      (children.flatMap s.tree.postorder) := by
    intro children
    induction children with
    | nil => exact List.Perm.refl _
    | cons child children ih =>
        have split : s.tree.postorder child = below s child ++ [child] := s.tree.postorder_eq child
        rw [List.flatMap_cons, List.flatMap_cons, split, List.cons_append]
        have moved : (child :: (children ++ (below s child ++ children.flatMap (below s)))).Perm
            (below s child ++ (child :: (children ++ children.flatMap (below s)))) :=
          (List.Perm.cons child (List.perm_append_comm_assoc _ _ _)).trans List.perm_middle.symm
        rw [List.append_assoc]
        exact moved.trans ((ih.cons child).append_left _)
  rw [skipped]
  exact (spread positions).trans (perm.flatMap_right _)

/-- Browsing some directories shows everything below them. -/
theorem browseFrom_ok {size : UInt32 → ℕ → ℕ} (sizes : ∀ parentId, PageSizes (size parentId))
    {fuel : ℕ} {pending : List ℕ}
    (directories : ∀ idx ∈ pending, idx < s.entries.length ∧ isDirectoryAt s idx = true)
    (enough : (pending.flatMap s.tree.postorder).length ≤ fuel) :
    ∃ nodes shownAt, graph.browseFrom size fuel (pending.map (s.valueAt entryId)) =
        .ok (.ok nodes) ∧ Presents s shownAt nodes ∧ shownAt.Perm (pending.flatMap (below s)) := by
  induction fuel generalizing pending with
  | zero =>
      cases pending with
      | nil => exact ⟨[], [], rfl, rfl, List.Perm.refl _⟩
      | cons idx pending =>
          have split : s.tree.postorder idx = below s idx ++ [idx] := s.tree.postorder_eq idx
          simp [List.flatMap_cons, split] at enough
  | succ fuel ih =>
      cases pending with
      | nil => exact ⟨[], [], rfl, rfl, List.Perm.refl _⟩
      | cons idx pending =>
          have current := directories idx List.mem_cons_self
          rcases exists_getElem? current.1 with ⟨entry, found⟩
          have directory : entry.kind = .directory := by
            simpa [isDirectoryAt, found] using current.2
          rcases finished.childIds_directory addressable found directory with
            ⟨positions, perm, ids⟩
          have inside : ∀ child ∈ positions, child < s.entries.length :=
            fun child mem => (mem_children.mp (perm.mem_iff.mp mem)).1
          have few : positions.length ≤ s.entries.length + 1 := by
            rw [perm.length_eq]
            exact (length_children_le s idx).trans (Nat.le_succ _)
          rcases finished.pages_ok addressable inside few ids (sizes entry.entryId) with
            ⟨nodes, ran, shows⟩
          have whole := below_perm perm
          have split : s.tree.postorder idx = below s idx ++ [idx] := s.tree.postorder_eq idx
          have budget : ((pending ++ positions.filter (fun child => isDirectoryAt s child)).flatMap
              s.tree.postorder).length ≤ fuel := by
            have lower : ((positions.filter (fun child => isDirectoryAt s child)).flatMap
                s.tree.postorder).length ≤ (below s idx).length := by
              have sub : ((positions.filter (fun child => isDirectoryAt s child)).flatMap
                  s.tree.postorder).length ≤ (positions.flatMap s.tree.postorder).length :=
                (List.filter_sublist.flatMap _).length_le
              rw [(perm.flatMap_right s.tree.postorder).length_eq] at sub
              exact sub
            rw [List.flatMap_cons, split] at enough
            simp only [List.length_append, List.length_singleton, List.flatMap_append]
              at enough lower ⊢
            omega
          have stillDirectories : ∀ other ∈ pending ++
              positions.filter (fun child => isDirectoryAt s child),
              other < s.entries.length ∧ isDirectoryAt s other = true := by
            intro other mem
            rcases List.mem_append.mp mem with old | new
            · exact directories other (List.mem_cons_of_mem _ old)
            · have filtered := List.mem_filter.mp new
              exact ⟨inside other filtered.1, filtered.2⟩
          rcases ih stillDirectories budget with ⟨more, moreAt, moreRan, moreShows, morePerm⟩
          refine ⟨nodes ++ more, positions ++ moreAt, ?_, shows.append moreShows, ?_⟩
          · rw [List.map_append] at moreRan
            rw [List.map_cons, DirectoryGraph.browseFrom, Snapshot.valueAt_of_found found, ran]
            simp only [Checked.ok_bind, directoryIds_eq shows inside, moreRan, Checked.pure_eq_ok]
          · rw [List.flatMap_cons]
            rw [List.flatMap_append] at morePerm
            refine (morePerm.append_left positions).trans ?_
            rw [← List.append_assoc]
            refine (List.perm_append_comm.append_right _).trans ?_
            rw [List.append_assoc]
            exact (List.Perm.append_left _ whole).trans List.perm_append_comm

/-- Browsing from parent `0` shows every entry once. -/
theorem browse_ok (nonempty : s.entries ≠ []) {size : UInt32 → ℕ → ℕ}
    (sizes : ∀ parentId, PageSizes (size parentId)) :
    ∃ nodes, graph.browse size = .ok (.ok nodes) ∧
      (nodes.map DirectoryEntryNode.shown).Perm (s.entries.map EntryObservation.shown) := by
  rcases List.exists_cons_of_ne_nil nonempty with ⟨root, others, split⟩
  have found : s.entries[0]? = some root := by simp [split]
  have positive : 0 < s.entries.length := List.length_pos_iff.mpr nonempty
  have facts := s.wellFormed.root_first root (by simp [split])
  have rootDirectory : isDirectoryAt s 0 = true := by simp [isDirectoryAt, found, facts.2.2]
  have inside : ∀ idx ∈ [0], idx < s.entries.length := by simpa using positive
  have ids : graph.childIds 0 = .ok (.ok ([0].map (s.valueAt entryId))) := by
    rcases finished.get_ok addressable found with ⟨compact, resolved, _, _⟩
    have rootId : graph.rootId = root.entryId := by
      rw [finished.rootId_eq, if_neg nonempty, facts.1]
    have nonzero : graph.rootId ≠ 0 := by rw [rootId, facts.1]; decide
    rw [DirectoryGraph.childIds, if_pos rfl, if_pos ⟨nonzero, by rw [rootId, resolved]; rfl⟩,
      List.map_singleton, Snapshot.valueAt_of_found found, rootId]
  rcases finished.pages_ok addressable inside (by simp) ids (sizes 0) with ⟨nodes, ran, shows⟩
  have total : graph.totalEntries = s.entries.length := finished.length_eq
  have order : (s.tree.postorder 0).length = s.entries.length := length_postorder positive
  have directories : ∀ idx ∈ [0], idx < s.entries.length ∧ isDirectoryAt s idx = true := by
    simpa using ⟨positive, rootDirectory⟩
  have budget : ([0].flatMap s.tree.postorder).length ≤ graph.totalEntries + 1 := by
    simp [order, total]
  rcases finished.browseFrom_ok addressable sizes directories budget with
    ⟨more, moreAt, moreRan, moreShows, morePerm⟩
  refine ⟨nodes ++ more, ?_, ?_⟩
  · have rootIds : DirectoryGraph.directoryIds nodes = [0].map (s.valueAt entryId) := by
      rw [directoryIds_eq shows inside]
      simp [rootDirectory]
    rw [DirectoryGraph.browse, DirectoryGraph.browseFrom, ran]
    simp only [Checked.ok_bind, rootIds, List.nil_append, moreRan, Checked.pure_eq_ok]
  · have shownAll := shows.append moreShows
    unfold Presents at shownAll
    rw [shownAll]
    apply List.Perm.map
    have listed : ([0] ++ moreAt).Perm (List.range s.entries.length) := by
      have postordered : s.tree.postorder 0 = below s 0 ++ [0] := s.tree.postorder_eq 0
      have everything : ([0] ++ moreAt).Perm (s.tree.postorder 0) := by
        rw [postordered]
        simp only [List.flatMap_cons, List.flatMap_nil, List.append_nil] at morePerm
        exact (morePerm.append_left [0]).trans List.perm_append_comm
      refine everything.trans ?_
      apply (List.perm_ext_iff_of_nodup (nodup_postorder positive) List.nodup_range).mpr
      intro idx
      rw [mem_postorder positive, List.mem_range]
      exact ⟨fun both => both.1, fun bound => ⟨bound, s.tree.isAncestor_zero idx⟩⟩
    have all := listed.filterMap (fun idx => s.entries[idx]?)
    rw [filterMap_range_getElem?] at all
    exact all

/-- Without the identifier `0` the whole graph can be browsed. -/
theorem browsable (nonempty : s.entries ≠ []) : Browsable graph s.entries where
  shown := fun _ sizes => finished.browse_ok addressable nonempty sizes
  totals := by
    intro dir dirMem directory size sizes
    rcases List.mem_iff_getElem?.mp dirMem with ⟨idx, found⟩
    rcases finished.childIds_directory addressable found directory with ⟨positions, perm, ids⟩
    have inside : ∀ child ∈ positions, child < s.entries.length :=
      fun child mem => (mem_children.mp (perm.mem_iff.mp mem)).1
    have few : positions.length ≤ s.entries.length + 1 := by
      rw [perm.length_eq]
      exact (length_children_le s idx).trans (Nat.le_succ _)
    rcases finished.pages_ok addressable inside few ids sizes with ⟨nodes, ran, shows⟩
    rcases finished.getChildrenPage_ok addressable inside ids 0 (size 0) with ⟨page, pageRan, _⟩
    exact ⟨nodes, positions.length, page, ran, pageRan, shows.length_eq inside⟩
  resolved := by
    intro entry entryMem
    rcases List.mem_iff_getElem?.mp entryMem with ⟨idx, found⟩
    rcases finished.get_ok addressable found with ⟨compact, resolved, stored, _⟩
    rcases finished.projectGraphEntry_ok (List.mem_of_getElem? stored) with ⟨projected, ran⟩
    refine ⟨projected, ?_⟩
    rw [DirectoryGraph.entry, resolved]
    simp only [ran, Checked.ok_bind, Checked.pure_eq_ok]

end Finished

/-- The accepted entries can all be browsed exactly when none has identifier `0`. -/
theorem browsable_iff (reached : Reached target builder records)
    (ran : builder.finish rt = .ok (.ok graph)) (nonempty : entriesOf records ≠ []) :
    Browsable graph (entriesOf records) ↔ ∀ entry ∈ entriesOf records, entry.entryId ≠ 0 := by
  have finished := (reached.finished ran).1
  constructor
  · intro browsable entry entryMem zero
    rcases browsable.resolved entry entryMem with ⟨projected, resolved⟩
    have unresolved : graph.storage.get 0 = none := by
      cases found : graph.storage.get 0 with
      | none => rfl
      | some compact => exact absurd rfl ((finished.get_iff 0 compact).mp found).1
    rw [zero, DirectoryGraph.entry, unresolved] at resolved
    cases resolved
  · intro addressable
    exact finished.browsable addressable nonempty

theorem browsable_iff_shared : ∃ builder graph, Reached "c:" builder Sample.shared ∧
    builder.finish Sample.runtime = .ok (.ok graph) ∧
      (Browsable graph (entriesOf Sample.shared) ↔
        ∀ entry ∈ entriesOf Sample.shared, entry.entryId ≠ 0) := by
  rcases exists_of_isBuilt Sample.isBuilt_shared with ⟨builder, graph, reached, ran⟩
  exact ⟨builder, graph, reached, ran, browsable_iff reached ran (by decide)⟩

/-- A root with one file that carries the identifier `0`. -/
def Sample.zeroFile : List ObservationRecord := [
  Sample.directory 1 0 "c:", Sample.file 0 1 "lost" 5 8 none, .terminal (Sample.terminal 1 1 5 8)]

/-- The stream is accepted, and the file is shown nowhere. -/
theorem not_browsable_zeroFile : ∃ builder graph, Reached "c:" builder Sample.zeroFile ∧
    builder.finish Sample.runtime = .ok (.ok graph) ∧
      ¬Browsable graph (entriesOf Sample.zeroFile) := by
  have built : isBuilt (buildFromReader Sample.runtime "c:" Sample.zeroFile) = true := by
    decide +kernel
  rcases exists_of_isBuilt built with ⟨builder, graph, reached, ran⟩
  refine ⟨builder, graph, reached, ran, ?_⟩
  intro browsable
  have mem : EntryObservation.file {
      entryId := 0, parentId := 1, name := "lost", logicalSize := 5, allocatedSize := some 8
      fileAttributes := 32, reparseTag := 0, creationTimeUtcMs := 0, lastWriteTimeUtcMs := 0
      lastAccessTimeUtcMs := 0, objectId := none, totalLinkCount := .notObserved } ∈
      entriesOf Sample.zeroFile := by decide
  rcases browsable.resolved _ mem with ⟨projected, resolved⟩
  cases resolved

end GraphBuilder

end PigTree
