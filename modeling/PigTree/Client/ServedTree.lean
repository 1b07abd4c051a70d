import PigTree.Client.ExpandedTree
import PigTree.Client.EngineClient
import PigTree.Engine.ServedPages

/-!
# The tree against the engine's pages

The projection asks for the first page of an item and keeps what arrives. Whatever happens
in between, an item that is visible and expanded shows the answer to its own request under
the operation that is current, even if the answer came from the cache. Served by the
engine, that is the first 500 children of the directory, and the rest of a larger
directory is never shown.
-/

namespace PigTree.Client.FlattenedTreeProjection

open Foundation

variable {projection next : FlattenedTreeProjection} {started : Prop} {item : ℕ}
  {answer : String → UInt32 → List TreeNodeData → Prop}

/-- The node an item was made of. -/
def data (projection : FlattenedTreeProjection) (item : ℕ) : TreeNodeData where
  id := (projection.items item).id
  name := (projection.items item).name
  entryKind := (projection.items item).entryKind
  hasChildren := (projection.items item).hasChildren

/-- What is cached and what is shown are answers, and what is awaited and visible was asked
for under the current operation. -/
structure Served (answer : String → UInt32 → List TreeNodeData → Prop)
    (projection : FlattenedTreeProjection) : Prop where
  cache : projection.cache.Consistent
  cached : ∀ key page, (key, page) ∈ projection.cache.contents →
    answer key.opId key.parentId page.nodes
  expanded : ∀ item ∈ projection.visibleItems, (projection.items item).isExpanded = true →
    answer projection.currentOperationId (projection.items item).id
      ((projection.items item).children.map projection.data)
  waiting : ∀ expansion ∈ projection.pending, expansion.item ∈ projection.visibleItems →
    expansion.operationId = projection.currentOperationId

/-- What an action may bring: a page is the answer to the request that was sent. -/
def Delivers (answer : String → UInt32 → List TreeNodeData → Prop)
    (projection : FlattenedTreeProjection) : Action → Prop
  | .complete index (.page page) => ∀ expansion, projection.pending[index]? = some expansion →
      page.operationId = expansion.operationId ∧
        page.parentId = (projection.items expansion.item).id ∧
          answer page.operationId page.parentId page.nodes
  | _ => True

/-- Every action of a run is allowed where it happens. -/
def Throughout (allowed : FlattenedTreeProjection → Action → Prop) :
    FlattenedTreeProjection → List Action → Prop
  | _, [] => True
  | projection, action :: actions => allowed projection action ∧
      ∀ next, projection.step action = some next → Throughout allowed next actions

/-! ### Steps that show nothing new -/

/-- The step shows nothing that was not shown before, and leaves the cache as it is. -/
structure Hides (projection next : FlattenedTreeProjection) : Prop where
  visibleItems : next.visibleItems ⊆ projection.visibleItems
  data : next.data = projection.data
  opened : ∀ item ∈ next.visibleItems, (next.items item).isExpanded = true →
    (projection.items item).isExpanded = true ∧
      (next.items item).children = (projection.items item).children
  operation : next.currentOperationId = projection.currentOperationId
  pending : next.pending ⊆ projection.pending
  cache : next.cache = projection.cache

namespace Hides

theorem refl (projection : FlattenedTreeProjection) : Hides projection projection :=
  ⟨List.Subset.refl _, rfl, fun _ _ expanded => ⟨expanded, rfl⟩, rfl, List.Subset.refl _, rfl⟩

theorem trans {last : FlattenedTreeProjection} (first : Hides projection next)
    (second : Hides next last) : Hides projection last where
  visibleItems := List.Subset.trans second.visibleItems first.visibleItems
  data := second.data.trans first.data
  opened item mem expanded := by
    rcases second.opened item mem expanded with ⟨before, same⟩
    rcases first.opened item (second.visibleItems mem) before with ⟨earlier, sameToo⟩
    exact ⟨earlier, same.trans sameToo⟩
  operation := second.operation.trans first.operation
  pending := List.Subset.trans second.pending first.pending
  cache := second.cache.trans first.cache

theorem served (hides : Hides projection next) (served : Served answer projection) :
    Served answer next where
  cache := hides.cache ▸ served.cache
  cached := hides.cache ▸ served.cached
  expanded item visible expanded := by
    rcases hides.opened item visible expanded with ⟨before, same⟩
    have id : (next.items item).id = (projection.items item).id :=
      congrArg TreeNodeData.id (congrFun hides.data item)
    rw [hides.operation, id, same, hides.data]
    exact served.expanded item (hides.visibleItems visible) before
  waiting expansion mem visible := by
    rw [hides.operation]
    exact served.waiting expansion (hides.pending mem) (hides.visibleItems visible)

end Hides

theorem data_modifyItem (projection : FlattenedTreeProjection) (item : ℕ)
    (update : TreeItemViewModel → TreeItemViewModel)
    (node : ∀ vm, (update vm).id = vm.id ∧ (update vm).name = vm.name ∧
      (update vm).entryKind = vm.entryKind ∧ (update vm).hasChildren = vm.hasChildren) :
    (projection.modifyItem item update).data = projection.data := by
  funext other
  by_cases same : other = item
  · rcases node (projection.items item) with ⟨id, name, entryKind, hasChildren⟩
    rw [same, data, data, items_modifyItem_self, id, name, entryKind, hasChildren]
  · rw [data, data, items_modifyItem_of_ne _ same]

/-- An update of an item that leaves its node alone, and does not expand it. -/
theorem hides_modifyItem (projection : FlattenedTreeProjection) (item : ℕ)
    (update : TreeItemViewModel → TreeItemViewModel)
    (node : ∀ vm, (update vm).id = vm.id ∧ (update vm).name = vm.name ∧
      (update vm).entryKind = vm.entryKind ∧ (update vm).hasChildren = vm.hasChildren)
    (opened : ∀ vm, (update vm).isExpanded = true →
      vm.isExpanded = true ∧ (update vm).children = vm.children) :
    Hides projection (projection.modifyItem item update) := by
  refine ⟨List.Subset.refl _, data_modifyItem projection item update node, ?_, rfl,
    List.Subset.refl _, rfl⟩
  intro other _ expanded
  by_cases same : other = item
  · rw [same, items_modifyItem_self] at expanded ⊢
    exact opened _ expanded
  · rw [items_modifyItem_of_ne _ same] at expanded ⊢
    exact ⟨expanded, rfl⟩

theorem hides_mark (projection : FlattenedTreeProjection) (item : Option ℕ) (isSelected : Bool) :
    Hides projection (projection.mark item isSelected) := by
  cases item with
  | none => exact .refl projection
  | some item =>
      exact hides_modifyItem projection item ({ · with isSelected })
        (fun _ => ⟨rfl, rfl, rfl, rfl⟩) fun _ expanded => ⟨expanded, rfl⟩

theorem hides_setSelectedItem (projection : FlattenedTreeProjection) (value : Option ℕ) :
    Hides projection (projection.setSelectedItem value) := by
  have unmarked := hides_mark projection projection.selectedItem false
  unfold setSelectedItem
  dsimp only
  split
  · exact unmarked
  · have marked := unmarked.trans (hides_mark _ value true)
    exact ⟨marked.visibleItems, marked.data, marked.opened, marked.operation, marked.pending,
      marked.cache⟩

theorem hides_setSelectedIndex (projection : FlattenedTreeProjection) (value : ℤ) :
    Hides projection (projection.setSelectedIndex value) := by
  unfold setSelectedIndex
  split
  · exact hides_setSelectedItem projection _
  · exact hides_setSelectedItem projection _

theorem hides_endLoading (projection : FlattenedTreeProjection) (item : ℕ) :
    Hides projection (projection.endLoading item) :=
  hides_modifyItem projection item _ (fun _ => ⟨rfl, rfl, rfl, rfl⟩)
    fun _ expanded => ⟨expanded, rfl⟩

theorem hides_startLoading (projection : FlattenedTreeProjection) (item : ℕ) :
    Hides projection (projection.modifyItem item ({ · with isLoading := true })) :=
  hides_modifyItem projection item _ (fun _ => ⟨rfl, rfl, rfl, rfl⟩)
    fun _ expanded => ⟨expanded, rfl⟩

theorem hides_report (projection : FlattenedTreeProjection) (message : String) :
    Hides projection (projection.report message) :=
  ⟨List.Subset.refl _, rfl, fun _ _ expanded => ⟨expanded, rfl⟩, rfl, List.Subset.refl _, rfl⟩

theorem hides_fail (projection : FlattenedTreeProjection) (item : ℕ) (caller : Caller)
    (message : String) : Hides projection (projection.fail item caller message) := by
  have reported := (hides_report projection _).trans (hides_endLoading (projection.report
    s!"Failed to expand '{(projection.items item).name}': {message}") item)
  cases caller with
  | expand => exact reported
  | toggleExpand => exact reported.trans (hides_report _ _)
  | navigateRight => exact reported.trans (hides_report _ _)

theorem removeDeeper_subset (items : ℕ → TreeItemViewModel) (level : ℕ) (selected : Option ℕ)
    (candidates : List ℕ) : (removeDeeper items level selected candidates).2 ⊆ candidates := by
  induction candidates with
  | nil => exact List.Subset.refl _
  | cons candidate rest ih =>
      rw [removeDeeper]
      split
      · exact List.subset_cons_of_subset candidate ih
      · exact List.Subset.refl _

theorem hides_collapse (projection : FlattenedTreeProjection) (item : ℕ) :
    Hides projection (projection.collapse item) := by
  unfold collapse
  split
  · exact .refl projection
  · split
    · exact .refl projection
    · next index found =>
        have kept := removeDeeper_subset projection.items (projection.items item).level
          projection.selectedItem (projection.visibleItems.drop (index + 1))
        generalize removeDeeper projection.items (projection.items item).level
          projection.selectedItem (projection.visibleItems.drop (index + 1)) = removed at kept ⊢
        rcases removed with ⟨selectionRemoved, rest⟩
        have shorter : Hides projection
            { projection with
              visibleItems := projection.visibleItems.take (index + 1) ++ rest } := by
          refine ⟨?_, rfl, fun _ _ expanded => ⟨expanded, rfl⟩, rfl, List.Subset.refl _, rfl⟩
          apply List.append_subset.mpr
          exact ⟨List.take_subset _ _, List.Subset.trans kept (List.drop_subset _ _)⟩
        have closed := shorter.trans (hides_modifyItem _ item ({ · with isExpanded := false })
          (fun _ => ⟨rfl, rfl, rfl, rfl⟩) nofun)
        dsimp only
        split
        · exact closed.trans (hides_setSelectedItem _ _)
        · exact closed

/-! ### Expansion -/

theorem mem_contents_use {cache after : BoundedPageCache TreeNodeData} {key other : PageKey}
    {page value : PagedChildrenResult TreeNodeData}
    (used : after.contents = Lru.use cache.maxPages cache.contents key value)
    (mem : (other, page) ∈ after.contents) :
    (other, page) = (key, value) ∨ (other, page) ∈ cache.contents := by
  rw [used, Lru.use, List.mem_cons] at mem
  rcases mem with new | old
  · exact Or.inl new
  · exact Or.inr (List.mem_of_mem_filter (List.mem_of_mem_take old))

/-- What a lookup finds is an answer, and the cache still holds nothing else. -/
theorem Served.tryGetPage (served : Served answer projection) (key : PageKey) :
    ∃ cache found,
      projection.cache.tryGetPage key.opId key.parentId key.offset = .ok (cache, found) ∧
      Served answer { projection with cache } ∧
        ∀ page, found = some page → answer key.opId key.parentId page.nodes := by
  rcases served.cache.tryGetPage key with ⟨after, read, consistent, -, contents⟩
  have known : ∀ page, projection.cache.contents.lookup key = some page →
      answer key.opId key.parentId page.nodes := by
    intro page found
    exact served.cached key page
      (Lru.lookup_eq_some_iff_mem served.cache.distinct_contents |>.mp found)
  refine ⟨after, _, read, ⟨consistent, ?_, served.expanded, served.waiting⟩, known⟩
  intro other page mem
  cases found : projection.cache.contents.lookup key with
  | none =>
      simp only [found] at contents
      exact served.cached other page (contents ▸ mem)
  | some value =>
      simp only [found] at contents
      rcases mem_contents_use contents mem with new | old
      · cases new
        exact known page found
      · exact served.cached other page old

/-- A page that answers its key is cached. -/
theorem Served.putPage (served : Served answer projection)
    {page : PagedChildrenResult TreeNodeData}
    (answers : answer page.operationId page.parentId page.nodes) :
    ∃ cache, projection.cache.putPage page = .ok cache ∧
      Served answer { projection with cache } := by
  rcases served.cache.putPage page with ⟨after, put, consistent, -, contents⟩
  refine ⟨after, put, consistent, ?_, served.expanded, served.waiting⟩
  intro other value mem
  rcases mem_contents_use contents mem with new | old
  · cases new
    exact answers
  · exact served.cached other value old

/-- The new items are made of the nodes of the page, in their order. -/
theorem data_addChildren (nodes : List TreeNodeData) (insertIndex : ℕ)
    (exists_ : item < projection.allocated) :
    (∀ other < projection.allocated,
        (addChildren item insertIndex nodes projection).data other = projection.data other) ∧
      (List.range' projection.allocated nodes.length).map
        (addChildren item insertIndex nodes projection).data = nodes := by
  induction nodes generalizing projection insertIndex with
  | nil => exact ⟨fun _ _ => rfl, rfl⟩
  | cons node nodes ih =>
      have differs : item ≠ projection.allocated := Nat.ne_of_lt exists_
      rw [addChildren]
      generalize linkedIs : (projection.create (.new node ((projection.items item).level + 1)
        (some item))).modifyItem item
          (fun vm => { vm with children := vm.children ++ [projection.allocated] }) = linked
      have allocated : linked.allocated = projection.allocated + 1 := by
        rw [← linkedIs]
        rfl
      have kept : ∀ other < projection.allocated, linked.data other = projection.data other := by
        intro other earlier
        rw [← linkedIs]
        by_cases same : other = item
        · simp [data, same, modifyItem, create, differs]
        · simp [data, same, modifyItem, create, Nat.ne_of_lt earlier]
      have new : linked.data projection.allocated = node := by
        rw [← linkedIs]
        simp [data, modifyItem, create, Ne.symm differs, TreeItemViewModel.new]
      rcases @ih { linked with
          visibleItems := linked.visibleItems.insertIdx insertIndex projection.allocated }
        (insertIndex + 1) (allocated ▸ Nat.lt_succ_of_lt exists_) with ⟨old, fresh⟩
      constructor
      · intro other earlier
        rw [old other (allocated ▸ Nat.lt_succ_of_lt earlier)]
        exact kept other earlier
      · rw [List.length_cons, List.range'_succ, List.map_cons]
        congr 1
        · rw [old _ (allocated ▸ Nat.lt_succ_self _)]
          exact new
        · rw [← allocated]
          exact fresh

theorem addChildren_session (nodes : List TreeNodeData) (insertIndex : ℕ) :
    (addChildren item insertIndex nodes projection).currentOperationId =
        projection.currentOperationId ∧
      (addChildren item insertIndex nodes projection).cache = projection.cache := by
  induction nodes generalizing projection insertIndex with
  | nil => exact ⟨rfl, rfl⟩
  | cons node nodes ih =>
      rw [addChildren]
      exact ih (insertIndex + 1)

/-- What a page that is shown leaves as it was, and the nodes of the new items. -/
theorem showPage_data (page : PagedChildrenResult TreeNodeData)
    {index : ℕ} (found : projection.visibleItems.idxOf? item = some index)
    (exists_ : item < projection.allocated) :
    (projection.showPage item page).currentOperationId = projection.currentOperationId ∧
      (projection.showPage item page).cache = projection.cache ∧
      (∀ other < projection.allocated,
        (projection.showPage item page).data other = projection.data other) ∧
      (List.range' projection.allocated page.nodes.length).map
        (projection.showPage item page).data = page.nodes := by
  let cleared := projection.modifyItem item ({ · with children := [] })
  have clearedData : cleared.data = projection.data :=
    data_modifyItem projection item ({ · with children := [] }) fun _ => ⟨rfl, rfl, rfl, rfl⟩
  rcases @data_addChildren cleared item page.nodes (index + 1) exists_ with ⟨old, fresh⟩
  have session := @addChildren_session cleared item page.nodes (index + 1)
  have shownData : (projection.showPage item page).data =
      (addChildren item (index + 1) page.nodes cleared).data := by
    simp only [FlattenedTreeProjection.showPage, found]
    exact data_modifyItem _ item ({ · with isExpanded := true }) fun _ => ⟨rfl, rfl, rfl, rfl⟩
  rw [shownData]
  refine ⟨?_, ?_, ?_, fresh⟩
  · simp only [FlattenedTreeProjection.showPage, found]
    exact session.1
  · simp only [FlattenedTreeProjection.showPage, found]
    exact session.2
  · intro other earlier
    rw [old other earlier, clearedData]

/-- A page that answers the item is shown. -/
theorem Served.showPage (served : Served answer projection)
    (consistent : projection.Consistent started) {page : PagedChildrenResult TreeNodeData}
    (answers : item ∈ projection.visibleItems →
      answer projection.currentOperationId (projection.items item).id page.nodes)
    (closed : (projection.items item).isExpanded = false) :
    Served answer (projection.showPage item page) := by
  by_cases visible : item ∈ projection.visibleItems
  · rcases consistent.around visible with ⟨before, below, after, around⟩
    have empty := around.below_nil closed
    subst empty
    have exists_ := consistent.allocated item visible
    have opened := showPage_spec page around.visibleItems consistent.distinct exists_
    have distinct := consistent.distinct
    rw [around.visibleItems] at distinct
    have found : projection.visibleItems.idxOf? item = some before.length := by
      rw [around.visibleItems]
      exact idxOf?_of_nodup distinct
    rcases showPage_data page found exists_ with ⟨operation, cache, old, fresh⟩
    generalize projection.showPage item page = next at opened operation cache old fresh ⊢
    have wasVisible : ∀ other ∈ next.visibleItems,
        other ∈ List.range' projection.allocated page.nodes.length ∨
          other ∈ projection.visibleItems := by
      intro other mem
      rw [opened.visibleItems] at mem
      rw [around.visibleItems]
      simp only [List.nil_append, List.mem_append, List.mem_cons] at mem ⊢
      rcases mem with front | itself | new | behind
      · exact Or.inr (Or.inl front)
      · exact Or.inr (Or.inr (Or.inl itself))
      · exact Or.inl new
      · exact Or.inr (Or.inr (Or.inr behind))
    have notFresh : ∀ other < projection.allocated,
        other ∉ List.range' projection.allocated page.nodes.length := by
      intro other earlier mem
      exact absurd (List.mem_range'_1.mp mem).1 (Nat.not_le.mpr earlier)
    refine ⟨cache ▸ served.cache, cache ▸ served.cached, ?_, ?_⟩
    · intro other mem expanded
      rw [operation]
      by_cases same : other = item
      · rw [same, opened.itself, fresh]
        exact answers visible
      · rcases wasVisible other mem with new | before
        · rcases opened.fresh other new with ⟨node, created⟩
          rw [created] at expanded
          cases expanded
        · have kept := opened.other other same
            (notFresh other (consistent.allocated other before))
          rw [kept] at expanded ⊢
          have sameNodes : (projection.items other).children.map next.data =
              (projection.items other).children.map projection.data := by
            apply List.map_congr_left
            intro child among
            exact old child (consistent.childAllocated other child among)
          rw [sameNodes]
          exact served.expanded other before expanded
    · intro expansion mem showing
      rw [operation]
      rw [opened.pending] at mem
      rcases wasVisible _ showing with new | before
      · exact absurd new (notFresh _ (consistent.waiting expansion mem).2.2)
      · exact served.waiting expansion mem before
  · have absent := List.idxOf?_eq_none_iff.mpr visible
    simp only [FlattenedTreeProjection.showPage, absent]
    exact served

/-- An expansion that finds its page shows it, and one that does not asks for it. -/
theorem Served.expandAsync (served : Served answer projection)
    (consistent : projection.Consistent started) (caller : Caller) :
    Served answer (projection.expandAsync item caller) := by
  simp only [FlattenedTreeProjection.expandAsync]
  split
  · exact served
  · next free =>
      simp only [Bool.or_eq_true, Bool.not_eq_true', not_or, Bool.not_eq_true] at free
      rcases free with ⟨⟨-, closed⟩, idle⟩
      have consistentLoading := consistent.startLoading idle
      have loads := (hides_startLoading projection item).served served
      generalize loadingIs : projection.modifyItem item ({ · with isLoading := true }) = loading
        at consistentLoading loads
      have sameId : (loading.items item).id = (projection.items item).id := by
        rw [← loadingIs, items_modifyItem_self]
      have stillClosed : (loading.items item).isExpanded = false := by
        rw [← loadingIs, items_modifyItem_self, closed]
      have operation : loading.currentOperationId = projection.currentOperationId := by
        rw [← loadingIs]
        rfl
      have visibleItems : loading.visibleItems = projection.visibleItems := by
        rw [← loadingIs]
        rfl
      have sameCache : loading.cache = projection.cache := by
        rw [← loadingIs]
        rfl
      rcases loads.tryGetPage ⟨projection.currentOperationId, (projection.items item).id, 0⟩ with
        ⟨cache, found, read, readServed, answers⟩
      rw [sameCache] at read
      simp only [read]
      cases found with
      | none =>
          refine ⟨readServed.cache, readServed.cached, readServed.expanded, ?_⟩
          intro expansion mem visible
          change expansion.item ∈ loading.visibleItems at visible
          change expansion.operationId = loading.currentOperationId
          rw [visibleItems] at visible
          rw [operation]
          rcases List.mem_append.mp mem with earlier | new
          · exact served.waiting expansion earlier visible
          · rw [List.mem_singleton.mp new]
      | some page =>
          apply (hides_endLoading _ item).served
          apply readServed.showPage (consistentLoading.withCache cache)
          · intro _
            change answer loading.currentOperationId (loading.items item).id page.nodes
            rw [sameId, operation]
            exact answers page rfl
          · exact stillClosed

/-- The fetch of an expansion ends. -/
theorem Served.complete (served : Served answer projection)
    (consistent : projection.Consistent started) {index : ℕ} {expansion : Expansion}
    (waits : projection.pending[index]? = some expansion) {fetched : Fetched}
    (delivers : Delivers answer projection (.complete index fetched)) :
    Served answer ({ projection with pending := projection.pending.eraseIdx index }.resume
      expansion fetched) := by
  have dequeued : Hides projection
      { projection with pending := projection.pending.eraseIdx index } :=
    ⟨List.Subset.refl _, rfl, fun _ _ expanded => ⟨expanded, rfl⟩, rfl,
      (List.eraseIdx_sublist ..).subset, rfl⟩
  cases fetched with
  | cancelled => exact (dequeued.trans (hides_endLoading _ _)).served served
  | failed message => exact (dequeued.trans (hides_fail _ _ _ _)).served served
  | page page =>
      rcases delivers expansion waits with ⟨operation, parent, answers⟩
      rcases (dequeued.served served).putPage answers with ⟨cache, put, cached⟩
      have mem := List.mem_of_getElem? waits
      have resumed := (consistent.dequeue waits).1
      change projection.cache.putPage page = .ok cache at put
      simp only [resume, put]
      apply (hides_endLoading _ _).served
      apply cached.showPage (resumed.withCache cache)
      · intro visible
        change answer projection.currentOperationId (projection.items expansion.item).id page.nodes
        rw [← served.waiting expansion mem visible, ← operation, ← parent]
        exact answers
      · exact (consistent.waiting expansion mem).2.1

theorem Served.initializeRootAsync (served : Served answer projection)
    (consistent : projection.Consistent started) (operationId : String) (rootNode : TreeNodeData) :
    Served answer (projection.initializeRootAsync operationId rootNode) := by
  unfold FlattenedTreeProjection.initializeRootAsync
  apply (hides_setSelectedItem _ _).served
  refine ⟨served.cache.clear, ?_, ?_, ?_⟩
  · intro key page mem
    cases mem
  · intro item visible expanded
    cases List.mem_singleton.mp visible
    simp [create, TreeItemViewModel.new] at expanded
  · intro expansion mem visible
    have earlier := (consistent.waiting expansion mem).2.2
    rw [List.mem_singleton.mp visible] at earlier
    exact absurd earlier (Nat.lt_irrefl _)

/-! ### Runs -/

theorem Served.step (served : Served answer projection) (consistent : projection.Consistent started)
    {action : Action} (delivers : Delivers answer projection action)
    (steps : projection.step action = some next) : Served answer next := by
  have selects : ∀ value, Served answer (projection.setSelectedIndex value) :=
    fun value => (hides_setSelectedIndex projection value).served served
  cases action with
  | initializeRoot operationId rootNode =>
      rw [← Option.some.inj steps]
      exact served.initializeRootAsync consistent operationId rootNode
  | expand item =>
      simp only [FlattenedTreeProjection.step, Option.ite_none_right_eq_some,
        Option.some.injEq] at steps
      rw [← steps.2]
      exact served.expandAsync consistent _
  | collapse item =>
      simp only [FlattenedTreeProjection.step, Option.ite_none_right_eq_some,
        Option.some.injEq] at steps
      rw [← steps.2]
      exact (hides_collapse _ _).served served
  | toggleExpand item =>
      simp only [FlattenedTreeProjection.step, Option.ite_none_right_eq_some,
        Option.some.injEq] at steps
      rw [← steps.2]
      unfold FlattenedTreeProjection.toggleExpandAsync
      split
      · exact served
      · split
        · exact served
        · split
          · exact (hides_collapse _ _).served served
          · exact served.expandAsync consistent _
  | navigateUp =>
      rw [← Option.some.inj steps]
      simp only [FlattenedTreeProjection.navigateUp]
      split
      · exact selects _
      · exact served
  | navigateDown =>
      rw [← Option.some.inj steps]
      simp only [FlattenedTreeProjection.navigateDown]
      split
      · exact selects _
      · exact served
  | navigateRight =>
      rw [← Option.some.inj steps]
      unfold FlattenedTreeProjection.navigateRightAsync
      split
      · exact served
      · dsimp only
        split
        · exact served.expandAsync consistent _
        · split
          · split
            · split
              · exact selects _
              · exact served
            · exact served
          · exact served
  | navigateLeft =>
      rw [← Option.some.inj steps]
      unfold FlattenedTreeProjection.navigateLeft
      split
      · exact served
      · split
        · exact (hides_collapse _ _).served served
        · split
          · exact (hides_setSelectedItem _ _).served served
          · exact served
  | navigateHome =>
      rw [← Option.some.inj steps]
      simp only [FlattenedTreeProjection.navigateHome]
      split
      · exact selects _
      · exact served
  | navigateEnd =>
      rw [← Option.some.inj steps]
      simp only [FlattenedTreeProjection.navigateEnd]
      split
      · exact selects _
      · exact served
  | navigatePageUp count =>
      rw [← Option.some.inj steps]
      exact selects _
  | navigatePageDown count =>
      rw [← Option.some.inj steps]
      exact selects _
  | select item =>
      simp only [FlattenedTreeProjection.step, Option.ite_none_right_eq_some,
        Option.some.injEq] at steps
      rw [← steps.2]
      exact (hides_setSelectedItem _ _).served served
  | complete index fetched =>
      simp only [FlattenedTreeProjection.step] at steps
      split at steps
      · next expansion waits =>
          rw [← Option.some.inj steps]
          exact served.complete consistent waits delivers
      · simp at steps

theorem Served.run (served : Served answer projection) (consistent : projection.Consistent started)
    {actions : List Action} (delivered : Throughout (Delivers answer) projection actions)
    (ran : projection.run actions = some next) : Served answer next := by
  induction actions generalizing projection with
  | nil =>
      rw [← Option.some.inj ran]
      exact served
  | cons action actions ih =>
      rcases Option.bind_eq_some_iff.mp ran with ⟨after, steps, rest⟩
      rcases delivered with ⟨delivers, later⟩
      exact ih (served.step consistent delivers steps) (consistent.step steps)
        (later after steps) rest

theorem served_new (answer : String → UInt32 → List TreeNodeData → Prop) (maxCachedPages : ℤ) :
    Served answer (new maxCachedPages) where
  cache := .new maxCachedPages
  cached := by simp [new, BoundedPageCache.contents, BoundedPageCache.new]
  expanded := by simp [new]
  waiting := by simp [new]

theorem Throughout.mono {allowed weaker : FlattenedTreeProjection → Action → Prop}
    (implies : ∀ projection action, allowed projection action → weaker projection action)
    {actions : List Action} (throughout : Throughout allowed projection actions) :
    Throughout weaker projection actions := by
  induction actions generalizing projection with
  | nil => trivial
  | cons action actions ih =>
      rcases throughout with ⟨first, later⟩
      exact ⟨implies projection action first, fun next steps => ih (later next steps)⟩

end PigTree.Client.FlattenedTreeProjection

namespace PigTree.Client

open Foundation GraphBuilder

/-! ### Pages from the engine -/

namespace EngineSessionTreePageProviderAdapter

def mapToTreeNodeData (entry : DirectoryEntryInfo) : TreeNodeData where
  id := entry.id
  name := entry.name
  entryKind := entry.entryKind
  hasChildren := entry.hasChildren

/-- The total of the engine's page is not used. -/
def getChildren (operationId : String) (parentId offset : UInt32)
    (entries : List DirectoryEntryInfo) : PagedChildrenResult TreeNodeData where
  operationId := operationId
  parentId := parentId
  totalChildren := UInt32.ofNat (entries.map mapToTreeNodeData).length
  offset := offset
  nodes := entries.map mapToTreeNodeData

end EngineSessionTreePageProviderAdapter

/-- The reply of the engine to a request for children, as the call that asked reads it. -/
def engineChildren (settledScan : Option SettledScan) (requestId : String)
    (request : GetChildrenRequest) : Checked (Except SessionError (List DirectoryEntryInfo)) := do
  let reply ← Engine.getChildren settledScan requestId request
  return receiveChildren (.ofOutput (.reply reply))

/-- A graph, and the accepted records it was built from. -/
structure ScannedGraph where
  rt : Runtime
  target : String
  builder : GraphBuilder
  records : List ObservationRecord
  graph : DirectoryGraph
  reached : Reached target builder records
  built : builder.finish rt = .ok (.ok graph)

/-- The first children of a directory as items show them. -/
def ScannedGraph.firstChildren (scan : ScannedGraph) (ids : List UInt32) (limit : ℕ) :
    List TreeNodeData :=
  ((ids.take limit).filterMap (scan.reached.snapshot.nodeAt (streamsOf scan.records))).map
    fun node => EngineSessionTreePageProviderAdapter.mapToTreeNodeData (.ofNode node)

/-- What the call returns is the first page of the graph behind the operation. -/
theorem engineChildren_ok {settledScan : Option SettledScan} {requestId : String}
    {request : GetChildrenRequest} {entries : List DirectoryEntryInfo} {scan : ScannedGraph}
    (behind : ∀ settled, settledScan = some settled → settled.operationId = request.operationId →
      settled.graph = scan.graph)
    (ran : engineChildren settledScan requestId request = .ok (.ok entries))
    (first : request.offset = 0) :
    (Engine.pageLimit request).toNat ≤ 500 ∧
      ∃ ids, scan.reached.snapshot.childIds scan.rt request.parentId = .ok ids ∧
        entries.map EngineSessionTreePageProviderAdapter.mapToTreeNodeData =
          scan.firstChildren ids (Engine.pageLimit request).toNat := by
  rcases Checked.bind_eq_ok.mp ran with ⟨reply, replied, received⟩
  unfold Engine.getChildren at replied
  split at replied
  · cases replied
    cases received
  · next settled =>
      split at replied
      · cases replied
        cases received
      next same =>
      split at replied
      · cases replied
        cases received
      · next within =>
          refine ⟨(Engine.pageLimit_bounds within).2, ?_⟩
          rw [behind settled rfl (not_not.mp same),
            scan.reached.getChildrenPage_eq scan.built, Checked.ok_bind, first] at replied
          cases answer : scan.reached.snapshot.page scan.rt (streamsOf scan.records)
              request.parentId (0 : UInt32).toNat (Engine.pageLimit request).toNat with
          | error err =>
              rw [answer] at replied
              cases replied
              cases received
          | ok listed =>
              rw [answer] at replied
              cases replied
              cases received
              rw [Snapshot.page] at answer
              cases children : scan.reached.snapshot.childIds scan.rt request.parentId with
              | error err =>
                  rw [children] at answer
                  cases answer
              | ok ids =>
                  rw [children] at answer
                  cases answer
                  refine ⟨ids, rfl, ?_⟩
                  simp [ScannedGraph.firstChildren, mapDirectoryEntries]

/-- The request of an expansion. -/
def FlattenedTreeProjection.request (projection : FlattenedTreeProjection) (pageSize : UInt32)
    (expansion : Expansion) : GetChildrenRequest where
  operationId := expansion.operationId
  parentId := (projection.items expansion.item).id
  offset := 0
  limit := pageSize

/-- A fetch brings the reply of the engine to its own request, made from the graph of whatever
scan has settled by then, and an operation names one graph. The client session sees to
neither. -/
def FromEngine (scans : String → ScannedGraph) (pageSize : UInt32)
    (projection : FlattenedTreeProjection) : FlattenedTreeProjection.Action → Prop
  | .complete index (.page page) => ∀ expansion, projection.pending[index]? = some expansion →
      ∃ settledScan requestId entries,
        (∀ settled, settledScan = some settled →
          settled.graph = (scans settled.operationId).graph) ∧
        engineChildren settledScan requestId (projection.request pageSize expansion) =
          .ok (.ok entries) ∧
        page = EngineSessionTreePageProviderAdapter.getChildren expansion.operationId
          (projection.items expansion.item).id 0 entries
  | _ => True

/-- The nodes are the first children of a directory. -/
def FirstChildren (scans : String → ScannedGraph) (pageSize : UInt32) (operationId : String)
    (parentId : UInt32) (nodes : List TreeNodeData) : Prop :=
  (if pageSize = 0 then 100 else pageSize) ≤ 500 ∧
    ∃ ids, (scans operationId).reached.snapshot.childIds (scans operationId).rt parentId = .ok ids ∧
      nodes = (scans operationId).firstChildren ids (if pageSize = 0 then 100 else pageSize).toNat

theorem delivers_of_fromEngine {scans : String → ScannedGraph} {pageSize : UInt32}
    (projection : FlattenedTreeProjection) (action : FlattenedTreeProjection.Action)
    (served : FromEngine scans pageSize projection action) :
    FlattenedTreeProjection.Delivers (FirstChildren scans pageSize) projection action := by
  cases action with
  | complete index fetched =>
      cases fetched with
      | page page =>
          intro expansion waits
          rcases served expansion waits with ⟨settledScan, requestId, entries, behind, ran, rfl⟩
          refine ⟨rfl, rfl, ?_⟩
          have known : ∀ settled, settledScan = some settled →
              settled.operationId = expansion.operationId →
                settled.graph = (scans expansion.operationId).graph := by
            intro settled present same
            rw [← same]
            exact behind settled present
          exact engineChildren_ok known ran rfl
      | cancelled => trivial
      | failed message => trivial
  | _ => trivial

theorem expanded_first {scans : String → ScannedGraph} {pageSize : UInt32} {maxCachedPages : ℤ}
    {operationId : String} {rootNode : TreeNodeData}
    {actions : List FlattenedTreeProjection.Action} {final : FlattenedTreeProjection}
    (served : FlattenedTreeProjection.Throughout (FromEngine scans pageSize)
      ((FlattenedTreeProjection.new maxCachedPages).initializeRootAsync operationId rootNode) actions)
    (ran : ((FlattenedTreeProjection.new maxCachedPages).initializeRootAsync operationId
      rootNode).run actions = some final) :
    ∀ item ∈ final.visibleItems, (final.items item).isExpanded = true →
      FirstChildren scans pageSize final.currentOperationId (final.items item).id
        ((final.items item).children.map final.data) := by
  have consistent := (FlattenedTreeProjection.consistent_new maxCachedPages)
  have start := (FlattenedTreeProjection.served_new (FirstChildren scans pageSize)
    maxCachedPages).initializeRootAsync consistent operationId rootNode
  have rooted := consistent.initializeRootAsync operationId rootNode True
  exact (start.run rooted (served.mono delivers_of_fromEngine) ran).expanded

/-- As long as each fetch brings the reply to its own request, whatever else happens after the
root is initialized and whatever scans settle under other names, an item that is visible and
expanded shows the first children of its directory, in the engine's order and no more than
500 of them. -/
theorem expanded_children {scans : String → ScannedGraph} {pageSize : UInt32} {maxCachedPages : ℤ}
    {operationId : String} {rootNode : TreeNodeData}
    {actions : List FlattenedTreeProjection.Action} {final : FlattenedTreeProjection}
    (served : FlattenedTreeProjection.Throughout (FromEngine scans pageSize)
      ((FlattenedTreeProjection.new maxCachedPages).initializeRootAsync operationId rootNode) actions)
    (ran : ((FlattenedTreeProjection.new maxCachedPages).initializeRootAsync operationId
      rootNode).run actions = some final) :
    ∀ item ∈ final.visibleItems, (final.items item).isExpanded = true →
      FirstChildren scans pageSize final.currentOperationId (final.items item).id
        ((final.items item).children.map final.data) := by
  exact expanded_first served ran

def Sample.snapshot : Snapshot where
  entries := entriesOf GraphBuilder.Sample.shared
  wellFormed := by
    rcases exists_of_isBuilt GraphBuilder.Sample.isBuilt_shared with ⟨builder, graph, reached, -⟩
    exact reached.snapshot.wellFormed

/-- The first directories below the root. -/
def Sample.nodes (limit : ℕ) : List DirectoryEntryNode :=
  ([3, 2].take limit).filterMap (Sample.snapshot.nodeAt (streamsOf GraphBuilder.Sample.shared))

def Sample.rooted : FlattenedTreeProjection :=
  (FlattenedTreeProjection.new 1).initializeRootAsync "scan-1"
    { id := 1, name := "c:", entryKind := 1, hasChildren := true }

def Sample.fetched (limit : ℕ) : PagedChildrenResult TreeNodeData :=
  EngineSessionTreePageProviderAdapter.getChildren "scan-1" 1 0
    (mapDirectoryEntries (Sample.nodes limit))

/-- The root is expanded. -/
def Sample.expansion (limit : ℕ) : List FlattenedTreeProjection.Action :=
  [.expand 0, .complete 0 (.page (Sample.fetched limit))]

section Expansion

variable {builder : GraphBuilder} {graph : DirectoryGraph}

def Sample.scanned (reached : Reached "c:" builder GraphBuilder.Sample.shared)
    (built : builder.finish GraphBuilder.Sample.runtime = .ok (.ok graph)) : ScannedGraph :=
  ⟨GraphBuilder.Sample.runtime, "c:", builder, GraphBuilder.Sample.shared, graph, reached, built⟩

theorem Sample.children : Sample.snapshot.childIds GraphBuilder.Sample.runtime 1 = .ok [3, 2] := by
  decide +kernel

/-- The engine's reply to the request of the expansion. -/
theorem Sample.answered (reached : Reached "c:" builder GraphBuilder.Sample.shared)
    (built : builder.finish GraphBuilder.Sample.runtime = .ok (.ok graph)) {limit : UInt32}
    (given : limit ≠ 0) (within : ¬500 < limit) :
    engineChildren (some ⟨"scan-1", graph⟩) "1"
      { operationId := "scan-1", parentId := 1, offset := 0, limit } =
        .ok (.ok (mapDirectoryEntries (Sample.nodes limit.toNat))) := by
  have page : Sample.snapshot.page GraphBuilder.Sample.runtime
      (streamsOf GraphBuilder.Sample.shared) 1 0 limit.toNat =
        .ok (2, Sample.nodes limit.toNat) := by
    rw [Snapshot.page, Sample.children]
    rfl
  have paged : graph.getChildrenPage 1 (0 : UInt32).toNat limit.toNat =
      .ok (.ok (2, Sample.nodes limit.toNat)) := by
    rw [reached.getChildrenPage_eq built]
    exact congrArg Except.ok page
  have replied : Engine.getChildren (some ⟨"scan-1", graph⟩) "1"
      { operationId := "scan-1", parentId := 1, offset := 0, limit } =
        .ok (.ok "1" (.command (.getChildren {
          operationId := "scan-1", parentId := 1, totalChildren := 2, offset := 0
          nodes := Sample.nodes limit.toNat }))) := by
    simp only [Engine.getChildren, Engine.pageLimit, ne_eq, not_true_eq_false, if_false,
      if_neg given, if_neg within, paged]
    rfl
  rw [engineChildren, replied]
  rfl

theorem Sample.served (reached : Reached "c:" builder GraphBuilder.Sample.shared)
    (built : builder.finish GraphBuilder.Sample.runtime = .ok (.ok graph)) {limit : UInt32}
    (given : limit ≠ 0) (within : ¬500 < limit) :
    FlattenedTreeProjection.Throughout (FromEngine (fun _ => Sample.scanned reached built) limit)
      Sample.rooted (Sample.expansion limit.toNat) := by
  have asked : (Sample.rooted.step (.expand 0)).map (fun next => (next.pending, (next.items 0).id)) =
      some ([⟨0, "scan-1", .expand⟩], 1) := by
    decide +kernel
  refine ⟨trivial, fun next steps => ⟨?_, fun _ _ => trivial⟩⟩
  rw [steps, Option.map_some, Option.some.injEq, Prod.mk.injEq] at asked
  rcases asked with ⟨pending, itemId⟩
  intro expansion waits
  rw [pending] at waits
  cases waits
  refine ⟨some ⟨"scan-1", graph⟩, "1", mapDirectoryEntries (Sample.nodes limit.toNat), ?_, ?_, ?_⟩
  · rintro settled ⟨⟩
    rfl
  · rw [FlattenedTreeProjection.request, itemId]
    exact Sample.answered reached built given within
  · rw [itemId]
    rfl

end Expansion

/-- The root is expanded. -/
theorem expanded_children_root : ∃ (scan : ScannedGraph) (final : FlattenedTreeProjection),
    final.visibleItems = [0, 1, 2] ∧
      FirstChildren (fun _ => scan) 500 "scan-1" 1 ((final.items 0).children.map final.data) := by
  rcases exists_of_isBuilt GraphBuilder.Sample.isBuilt_shared with ⟨builder, graph, reached, built⟩
  have shape : (Sample.rooted.run (Sample.expansion 500)).map (fun final => (final.visibleItems,
      (final.items 0).isExpanded, final.currentOperationId, (final.items 0).id)) =
        some ([0, 1, 2], true, "scan-1", 1) := by
    decide +kernel
  rcases Option.map_eq_some_iff.mp shape with ⟨final, ran, shown⟩
  simp only [Prod.mk.injEq] at shown
  rcases shown with ⟨visibleItems, expanded, operation, id⟩
  have served := @Sample.served builder graph reached built 500 (by decide) (by decide)
  have first := expanded_children served ran 0 (by simp [visibleItems]) expanded
  rw [operation, id] at first
  exact ⟨Sample.scanned reached built, final, visibleItems, first⟩

/-! ### All children of a directory -/

end PigTree.Client
