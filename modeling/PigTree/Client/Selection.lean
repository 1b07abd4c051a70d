import PigTree.Client.ExpandedTree

/-!
# The selected item and its mark

The selection is kept twice, in the projection and as a mark on the item. The setter
unmarks the old item before it compares it with the new one, so an assignment of the
item that is selected already takes its mark away.
-/

namespace PigTree.Client.FlattenedTreeProjection

open Foundation

variable {projection next : FlattenedTreeProjection} {started : Prop} {item : ℕ}

/-- Of the items ever created exactly the selected one is marked. -/
def Marked (projection : FlattenedTreeProjection) : Prop :=
  ∀ item < projection.allocated,
    (projection.items item).isSelected = true ↔ projection.selectedItem = some item

/-- The item at an index, if there is one. -/
def atIndex (projection : FlattenedTreeProjection) (index : ℤ) : Option ℕ :=
  if 0 ≤ index ∧ index < projection.visibleItems.length then
    projection.visibleItems[index.toNat]?
  else none

/-- The item that an action assigns to the selection whatever is selected. -/
def assigned (projection : FlattenedTreeProjection) : Action → Option ℕ
  | .select item => item
  | .navigateHome => projection.visibleItems.head?
  | .navigateEnd => projection.visibleItems.getLast?
  | .navigatePageUp count => projection.atIndex (projection.pageUpIndex count)
  | .navigatePageDown count => projection.atIndex (projection.pageDownIndex count)
  | _ => none

/-- An action assigns the item that is selected already. -/
def Reselects (projection : FlattenedTreeProjection) (action : Action) : Prop :=
  projection.selectedItem ≠ none ∧ projection.assigned action = projection.selectedItem

/-! ### The setter -/

theorem mark_isSelected (item : Option ℕ) (isSelected : Bool) (other : ℕ) :
    ((projection.mark item isSelected).items other).isSelected
      = if item = some other then isSelected else (projection.items other).isSelected := by
  cases item with
  | none => simp [mark]
  | some item =>
      by_cases same : other = item
      · simp [mark, same]
      · simp [mark, items_modifyItem_of_ne _ same, Ne.symm same]

theorem setSelectedItem_isSelected (value : Option ℕ) (other : ℕ) :
    ((projection.setSelectedItem value).items other).isSelected
      = if projection.selectedItem ≠ value ∧ value = some other then true
        else if projection.selectedItem = some other then false
        else (projection.items other).isSelected := by
  by_cases unchanged : projection.selectedItem = value
  · simp [setSelectedItem, unchanged, mark_isSelected]
  · simp [setSelectedItem, unchanged, mark_isSelected]

theorem Marked.setSelectedItem (marked : projection.Marked) {value : Option ℕ}
    (changes : projection.selectedItem = value → value = none) :
    (projection.setSelectedItem value).Marked := by
  intro item earlier
  rw [(sameTree_setSelectedItem projection value).allocated] at earlier
  rw [setSelectedItem_isSelected, setSelectedItem_selectedItem]
  by_cases same : projection.selectedItem = value
  · have none_ := changes same
    simpa [same, none_] using marked item earlier
  · by_cases new : value = some item
    · rw [new] at same
      simp [same, new]
    · by_cases old : projection.selectedItem = some item
      · simp [new, old]
      · simpa [new, old] using marked item earlier

/-- The item that is assigned again loses its mark. -/
theorem not_marked_setSelectedItem (selected : projection.selectedItem = some item)
    (exists_ : item < projection.allocated) :
    ¬ (projection.setSelectedItem (some item)).Marked := by
  intro marked
  have wrong := marked item (by
    rw [(sameTree_setSelectedItem projection (some item)).allocated]
    exact exists_)
  simp [setSelectedItem_isSelected, selected] at wrong

theorem setSelectedIndex_eq (index : ℤ) :
    projection.setSelectedIndex index = projection.setSelectedItem (projection.atIndex index) := by
  unfold setSelectedIndex atIndex
  split <;> rfl

/-! ### Steps that leave the marks -/

/-- The selection and the marks are the same, and new items are not marked. -/
structure SameMarks (projection next : FlattenedTreeProjection) : Prop where
  selectedItem : next.selectedItem = projection.selectedItem
  allocated_le : projection.allocated ≤ next.allocated
  old : ∀ item < projection.allocated,
    (next.items item).isSelected = (projection.items item).isSelected
  new : ∀ item, projection.allocated ≤ item → item < next.allocated →
    (next.items item).isSelected = false

namespace SameMarks

theorem trans {last : FlattenedTreeProjection} (first : SameMarks projection next)
    (second : SameMarks next last) : SameMarks projection last where
  selectedItem := second.selectedItem.trans first.selectedItem
  allocated_le := first.allocated_le.trans second.allocated_le
  old item earlier :=
    (second.old item (earlier.trans_le first.allocated_le)).trans (first.old item earlier)
  new item later before := by
    rcases Nat.lt_or_ge item next.allocated with earlier | new
    · rw [second.old item earlier, first.new item later earlier]
    · exact second.new item new before

theorem of_same (selectedItem : next.selectedItem = projection.selectedItem)
    (allocated : next.allocated = projection.allocated)
    (same : ∀ item, (next.items item).isSelected = (projection.items item).isSelected) :
    SameMarks projection next where
  selectedItem := selectedItem
  allocated_le := allocated.ge
  old item _ := same item
  new item later before := by omega

theorem modifyItem (update : TreeItemViewModel → TreeItemViewModel)
    (keeps : ∀ vm, (update vm).isSelected = vm.isSelected) :
    SameMarks projection (projection.modifyItem item update) :=
  of_same rfl rfl (modifyItem_keeps (·.isSelected) update keeps)

theorem marked (same : SameMarks projection next) (marked : projection.Marked)
    (selected : ∀ item ∈ projection.selectedItem, item < projection.allocated) : next.Marked := by
  intro item before
  rw [same.selectedItem]
  rcases Nat.lt_or_ge item projection.allocated with earlier | later
  · rw [same.old item earlier]
    exact marked item earlier
  · rw [same.new item later before]
    constructor
    · simp
    · intro itself
      have := selected item itself
      omega

theorem opened {count : ℕ} {before after : List ℕ}
    (opened : Opened projection next item count before after) : SameMarks projection next where
  selectedItem := opened.selectedItem
  allocated_le := by
    rw [opened.allocated]
    omega
  old other earlier := by
    by_cases same : other = item
    · rw [same, opened.itself]
    · rw [opened.other other same]
      rw [List.mem_range'_1]
      omega
  new other later before := by
    rcases opened.fresh other (by
      rw [List.mem_range'_1, ← opened.allocated]
      exact ⟨later, before⟩) with ⟨data, created⟩
    rw [created]
    rfl

end SameMarks

theorem sameMarks_endLoading : SameMarks projection (projection.endLoading item) :=
  .modifyItem ({ · with isLoading := false }) fun _ => rfl

theorem sameMarks_report (message : String) :
    SameMarks projection (projection.report message) :=
  .of_same rfl rfl fun _ => rfl

theorem sameMarks_fail (caller : Caller) (message : String) :
    SameMarks projection (projection.fail item caller message) := by
  unfold fail
  cases caller with
  | expand => exact (sameMarks_report _).trans sameMarks_endLoading
  | toggleExpand =>
      exact ((sameMarks_report _).trans sameMarks_endLoading).trans (sameMarks_report _)
  | navigateRight =>
      exact ((sameMarks_report _).trans sameMarks_endLoading).trans (sameMarks_report _)

theorem Consistent.sameMarks_showPage (consistent : projection.Consistent started)
    (page : PagedChildrenResult TreeNodeData)
    (closed : (projection.items item).isExpanded = false) :
    SameMarks projection (projection.showPage item page) := by
  by_cases visible : item ∈ projection.visibleItems
  · rcases consistent.around visible with ⟨before, below, after, around⟩
    have empty := around.below_nil closed
    subst empty
    exact .opened (showPage_spec page around.visibleItems consistent.distinct
      (consistent.allocated item visible))
  · have absent := List.idxOf?_eq_none_iff.mpr visible
    simp only [FlattenedTreeProjection.showPage, absent]
    exact .of_same rfl rfl fun _ => rfl

theorem Consistent.sameMarks_finish (consistent : projection.Consistent started)
    (cache : BoundedPageCache TreeNodeData) (page : PagedChildrenResult TreeNodeData)
    (closed : (projection.items item).isExpanded = false) :
    SameMarks projection (({ projection with cache }.showPage item page).endLoading item) := by
  have cached : SameMarks projection { projection with cache } := .of_same rfl rfl fun _ => rfl
  exact (cached.trans ((consistent.withCache cache).sameMarks_showPage page closed)).trans
    sameMarks_endLoading

theorem Consistent.sameMarks_expandAsync (consistent : projection.Consistent started)
    (caller : Caller) : SameMarks projection (projection.expandAsync item caller) := by
  simp only [FlattenedTreeProjection.expandAsync]
  split
  · exact .of_same rfl rfl fun _ => rfl
  · rename_i free
    simp only [Bool.or_eq_true, Bool.not_eq_true', not_or, Bool.not_eq_true] at free
    rcases free with ⟨⟨-, closed⟩, idle⟩
    have consistentLoading := consistent.startLoading idle
    have loads : SameMarks projection (projection.modifyItem item ({ · with isLoading := true })) :=
      .modifyItem ({ · with isLoading := true }) fun _ => rfl
    have stillClosed :
        ((projection.modifyItem item ({ · with isLoading := true })).items item).isExpanded
          = false := by
      rw [items_modifyItem_self, closed]
    rcases projection.cache.tryGetPage projection.currentOperationId (projection.items item).id 0
      with fault | ⟨cache, _ | page⟩
    · exact loads.trans (sameMarks_fail caller _)
    · exact loads.trans (.of_same rfl rfl fun _ => rfl)
    · exact loads.trans (consistentLoading.sameMarks_finish cache page stillClosed)

theorem Consistent.sameMarks_complete (consistent : projection.Consistent started) {index : ℕ}
    {expansion : Expansion} (waits : projection.pending[index]? = some expansion)
    (fetched : Fetched) :
    SameMarks projection ({ projection with pending := projection.pending.eraseIdx index }.resume
      expansion fetched) := by
  have resumed := (consistent.dequeue waits).1
  have closed := (consistent.waiting expansion (List.mem_of_getElem? waits)).2.1
  have dequeued : SameMarks projection
      { projection with pending := projection.pending.eraseIdx index } :=
    .of_same rfl rfl fun _ => rfl
  cases fetched with
  | page page =>
      simp only [resume]
      rcases projection.cache.putPage page with fault | cache
      · exact dequeued.trans (sameMarks_fail _ _)
      · exact dequeued.trans (resumed.sameMarks_finish cache page closed)
  | cancelled => exact dequeued.trans sameMarks_endLoading
  | failed message => exact dequeued.trans (sameMarks_fail _ message)

/-! ### One step -/

theorem Consistent.selected_allocated (consistent : projection.Consistent started) :
    ∀ item ∈ projection.selectedItem, item < projection.allocated :=
  fun item selected => consistent.allocated item (consistent.selected item selected)

/-- The selection moves to an item that collapses from one below it. -/
theorem Marked.collapse (marked : projection.Marked) (consistent : projection.Consistent started)
    (item : ℕ) : (projection.collapse item).Marked := by
  by_cases expanded : (projection.items item).isExpanded = true
  · by_cases visible : item ∈ projection.visibleItems
    · rcases consistent.around visible with ⟨before, below, after, around⟩
      rw [collapse_eq consistent.toWellFormed around expanded]
      generalize collapsedIs : ({ projection with visibleItems := before ++ item :: after }.modifyItem
        item ({ · with isExpanded := false })) = collapsed
      have same : SameMarks projection collapsed := by
        rw [← collapsedIs]
        exact .of_same rfl rfl (modifyItem_keeps (·.isSelected)
          ({ · with isExpanded := false }) fun _ => rfl)
      have stillMarked := same.marked marked consistent.selected_allocated
      simp only
      split
      · rename_i hidden
        apply stillMarked.setSelectedItem
        rw [same.selectedItem]
        intro itself
        rcases List.any_eq_true.mp hidden with ⟨other, isBelow, selected⟩
        rw [itself] at selected
        have twice : other = item := by simpa using (of_decide_eq_true selected).symm
        have deeper := around.deeper other isBelow
        rw [twice] at deeper
        omega
      · exact stillMarked
    · have absent := List.idxOf?_eq_none_iff.mpr visible
      simp only [FlattenedTreeProjection.collapse, expanded, absent]
      exact marked
  · simp only [FlattenedTreeProjection.collapse, expanded]
    exact marked

theorem Marked.initializeRootAsync (marked : projection.Marked)
    (consistent : projection.Consistent started) (operationId : String) (rootNode : TreeNodeData) :
    (projection.initializeRootAsync operationId rootNode).Marked := by
  simp only [FlattenedTreeProjection.initializeRootAsync]
  have created : SameMarks projection { projection.create (.new rootNode 0 none) with
      currentOperationId := operationId
      cache := projection.cache.clear
      visibleItems := [projection.allocated] } := by
    constructor
    · rfl
    · exact Nat.le_succ _
    · intro item earlier
      simp [create, Nat.ne_of_lt earlier]
    · intro item later before
      have same : item = projection.allocated := by
        simp only [create] at before
        omega
      simp [create, same, TreeItemViewModel.new]
  apply (created.marked marked consistent.selected_allocated).setSelectedItem
  intro itself
  have earlier := consistent.selected_allocated projection.allocated itself
  omega

/-- The index of the selection leads back to it, and no other index does. -/
theorem Consistent.atIndex_ne (consistent : projection.Consistent started) {index : ℤ}
    (differs : index ≠ projection.selectedIndex) :
    projection.selectedItem = projection.atIndex index → projection.atIndex index = none := by
  intro same
  by_contra some_
  rcases Option.ne_none_iff_exists'.mp some_ with ⟨item, itemIs⟩
  rw [itemIs] at same
  have visible := consistent.selected item same
  rcases List.append_of_mem visible with ⟨before, after, split⟩
  have distinct := consistent.distinct
  rw [split] at distinct
  have found : projection.selectedIndex = before.length := by
    simp only [selectedIndex, same, split, idxOf?_of_nodup distinct]
  rw [atIndex] at itemIs
  split at itemIs
  · rename_i inside
    have other : before.length ≠ index.toNat := by omega
    have atOther : projection.visibleItems[before.length]? = some item := by
      rw [split]
      simp
    rcases List.getElem?_eq_some_iff.mp itemIs with ⟨bound, isItem⟩
    rcases List.getElem?_eq_some_iff.mp atOther with ⟨bound', isItem'⟩
    apply other
    exact (consistent.distinct.getElem_inj_iff).mp (isItem'.trans isItem.symm)
  · simp at itemIs

theorem Marked.setSelectedIndex (marked : projection.Marked) {index : ℤ}
    (changes : projection.selectedItem = projection.atIndex index →
      projection.atIndex index = none) : (projection.setSelectedIndex index).Marked := by
  rw [setSelectedIndex_eq]
  exact marked.setSelectedItem changes

theorem Marked.expandAsync (marked : projection.Marked)
    (consistent : projection.Consistent started) (caller : Caller) :
    (projection.expandAsync item caller).Marked :=
  (consistent.sameMarks_expandAsync caller).marked marked consistent.selected_allocated

theorem Marked.toggleExpandAsync (marked : projection.Marked)
    (consistent : projection.Consistent started) (target : Option ℕ) :
    (projection.toggleExpandAsync target).Marked := by
  unfold FlattenedTreeProjection.toggleExpandAsync
  split
  · exact marked
  · split
    · exact marked
    · split
      · exact marked.collapse consistent _
      · exact marked.expandAsync consistent _

theorem Marked.navigateRightAsync (marked : projection.Marked)
    (consistent : projection.Consistent started) : projection.navigateRightAsync.Marked := by
  unfold FlattenedTreeProjection.navigateRightAsync
  split
  · exact marked
  · simp only
    split
    · exact marked.expandAsync consistent _
    · split
      · split
        · split
          · rename_i inside
            exact marked.setSelectedIndex (consistent.atIndex_ne (by omega))
          · exact marked
        · exact marked
      · exact marked

theorem Marked.navigateLeft (marked : projection.Marked)
    (consistent : projection.Consistent started) : projection.navigateLeft.Marked := by
  unfold FlattenedTreeProjection.navigateLeft
  split
  · exact marked
  · rename_i item selected
    split
    · exact marked.collapse consistent item
    · split
      · rename_i parent parentIs
        apply marked.setSelectedItem
        intro itself
        rw [selected] at itself
        have before := consistent.parentBefore item parent parentIs
        have same := Option.some.inj itself
        omega
      · exact marked

/-- An index of a list of items is the first, or the last. -/
theorem atIndex_zero : projection.atIndex 0 = projection.visibleItems.head? := by
  unfold atIndex
  cases projection.visibleItems with
  | nil => simp
  | cons first rest => simp

theorem atIndex_last :
    projection.atIndex ((projection.visibleItems.length : ℤ) - 1)
      = projection.visibleItems.getLast? := by
  unfold atIndex
  rw [List.getLast?_eq_getElem?]
  split
  · congr 1
    omega
  · rename_i outside
    symm
    apply List.getElem?_eq_none
    omega

/-- A step that does not select what is selected leaves exactly the selected item marked. -/
theorem Marked.step (marked : projection.Marked) (consistent : projection.Consistent started)
    {action : Action} (steps : projection.step action = some next)
    (changes : ¬ projection.Reselects action) : next.Marked := by
  have moves : projection.selectedItem = projection.assigned action →
      projection.assigned action = none := by
    intro same
    by_contra some_
    exact changes ⟨same ▸ some_, same.symm⟩
  cases action with
  | initializeRoot operationId rootNode =>
      rw [← Option.some.inj steps]
      exact marked.initializeRootAsync consistent operationId rootNode
  | expand item =>
      simp only [FlattenedTreeProjection.step, Option.ite_none_right_eq_some,
        Option.some.injEq] at steps
      rw [← steps.2]
      exact marked.expandAsync consistent _
  | collapse item =>
      simp only [FlattenedTreeProjection.step, Option.ite_none_right_eq_some,
        Option.some.injEq] at steps
      rw [← steps.2]
      exact marked.collapse consistent item
  | toggleExpand item =>
      simp only [FlattenedTreeProjection.step, Option.ite_none_right_eq_some,
        Option.some.injEq] at steps
      rw [← steps.2]
      exact marked.toggleExpandAsync consistent item
  | navigateUp =>
      rw [← Option.some.inj steps]
      simp only [navigateUp]
      split
      · rename_i inside
        exact marked.setSelectedIndex (consistent.atIndex_ne (by omega))
      · exact marked
  | navigateDown =>
      rw [← Option.some.inj steps]
      simp only [navigateDown]
      split
      · rename_i inside
        exact marked.setSelectedIndex (consistent.atIndex_ne (by omega))
      · exact marked
  | navigateRight =>
      rw [← Option.some.inj steps]
      exact marked.navigateRightAsync consistent
  | navigateLeft =>
      rw [← Option.some.inj steps]
      exact marked.navigateLeft consistent
  | navigateHome =>
      rw [← Option.some.inj steps]
      simp only [navigateHome]
      split
      · apply marked.setSelectedIndex
        rw [atIndex_zero]
        exact moves
      · exact marked
  | navigateEnd =>
      rw [← Option.some.inj steps]
      simp only [navigateEnd]
      split
      · apply marked.setSelectedIndex
        rw [atIndex_last]
        exact moves
      · exact marked
  | navigatePageUp count =>
      rw [← Option.some.inj steps]
      exact marked.setSelectedIndex moves
  | navigatePageDown count =>
      rw [← Option.some.inj steps]
      exact marked.setSelectedIndex moves
  | select item =>
      simp only [FlattenedTreeProjection.step, Option.ite_none_right_eq_some,
        Option.some.injEq] at steps
      rw [← steps.2]
      exact marked.setSelectedItem moves
  | complete index fetched =>
      simp only [FlattenedTreeProjection.step] at steps
      split at steps
      · rename_i expansion waits
        rw [← Option.some.inj steps]
        exact (consistent.sameMarks_complete waits fetched).marked marked
          consistent.selected_allocated
      · simp at steps

/-- A step that selects what is selected is possible, and takes its mark away. -/
theorem Consistent.reselects (consistent : projection.Consistent started) {action : Action}
    (again : projection.Reselects action) :
    ∃ next, projection.step action = some next ∧ ¬ next.Marked := by
  rcases again with ⟨some_, same⟩
  rcases Option.ne_none_iff_exists'.mp some_ with ⟨item, selected⟩
  have visible := consistent.selected item selected
  have loses := not_marked_setSelectedItem selected (consistent.allocated item visible)
  have nonempty : projection.visibleItems.length > 0 := List.length_pos_of_mem visible
  rw [selected] at same
  rw [← same] at loses
  cases action with
  | navigateHome =>
      refine ⟨_, rfl, ?_⟩
      rw [navigateHome, if_pos nonempty, setSelectedIndex_eq, atIndex_zero]
      exact loses
  | navigateEnd =>
      refine ⟨_, rfl, ?_⟩
      rw [navigateEnd, if_pos nonempty, setSelectedIndex_eq, atIndex_last]
      exact loses
  | navigatePageUp count =>
      refine ⟨_, rfl, ?_⟩
      rw [navigatePageUp, setSelectedIndex_eq]
      exact loses
  | navigatePageDown count =>
      refine ⟨_, rfl, ?_⟩
      rw [navigatePageDown, setSelectedIndex_eq]
      exact loses
  | select value =>
      refine ⟨projection.setSelectedItem value, ?_, loses⟩
      have valueIs : value = some item := same
      simp [FlattenedTreeProjection.step, valueIs, visible]
  | _ => simp [assigned] at same

/-! ### Runs -/

theorem marked_new (maxCachedPages : ℤ) : (new maxCachedPages).Marked := by
  intro item earlier
  simp [new] at earlier

/-- Exactly the selected item is marked in every state of a run if and only if no step of
the run selects the item that is selected already. -/
theorem marked_iff_no_reselection (maxCachedPages : ℤ) (actions : List Action) :
    (∀ before, before <+: actions → ∀ projection ∈ (new maxCachedPages).run before,
        projection.Marked)
      ↔ ∀ before action, before ++ [action] <+: actions →
          ∀ projection ∈ (new maxCachedPages).run before, ¬ projection.Reselects action := by
  constructor
  · intro always before action isPrefix projection ran again
    have consistent := (consistent_new maxCachedPages).run ran
    rcases consistent.reselects again with ⟨next, steps, notMarked⟩
    apply notMarked
    apply always _ isPrefix
    have unfolded : (new maxCachedPages).run (before ++ [action]) = some next := by
      rw [run_append, ran]
      simp [run, steps]
    exact unfolded
  · intro never before
    induction before using List.reverseRecOn with
    | nil =>
        intro _ projection ran
        rw [← Option.some.inj ran]
        exact marked_new maxCachedPages
    | append_singleton before action ih =>
        intro isPrefix next ran
        rw [Option.mem_def, run_append] at ran
        rcases Option.bind_eq_some_iff.mp ran with ⟨projection, earlier, rest⟩
        rcases Option.bind_eq_some_iff.mp rest with ⟨after, steps, same⟩
        rw [← Option.some.inj same]
        have shorter := (List.prefix_append before [action]).trans isPrefix
        exact (ih shorter projection earlier).step ((consistent_new maxCachedPages).run earlier)
          steps (never before action isPrefix projection earlier)

/-- `NavigateHome` on the root, which `InitializeRootAsync` has selected. -/
theorem navigateHome_unmarks :
    ∃ projection, (new 500).run [.initializeRoot "scan"
        { id := 0, name := "root", entryKind := 1, hasChildren := true }, .navigateHome]
        = some projection ∧ ¬ projection.Marked := by
  refine ⟨_, rfl, ?_⟩
  intro marked
  exact absurd (marked 0 (by decide)) (by decide)

end PigTree.Client.FlattenedTreeProjection
