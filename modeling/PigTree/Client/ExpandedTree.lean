import PigTree.Client.TreeProjection
import PigTree.Foundation.Preorder

/-!
# The tree projection is a preorder

What is visible is the preorder of the expanded tree, between any two steps. An
expansion that has waited for its page finds its item closed or not visible at all,
whatever has happened in the meantime.
-/

namespace PigTree.Client.FlattenedTreeProjection

open Foundation

variable {projection next : FlattenedTreeProjection} {started : Prop} {item : ℕ}

/-- An item shows its children if it is expanded. -/
def shown (projection : FlattenedTreeProjection) (item : ℕ) : List ℕ :=
  if (projection.items item).isExpanded then (projection.items item).children else []

/-- The visible items with their levels. -/
def listing (projection : FlattenedTreeProjection) : List (ℕ × ℕ) :=
  projection.visibleItems.map fun item => (item, (projection.items item).level)

/-- The first visible item is a root, and the visible items are the preorder of its tree. -/
def IsTree (projection : FlattenedTreeProjection) : Prop :=
  ∃ root, projection.visibleItems.head? = some root
    ∧ (projection.items root).parentItem = none
    ∧ Preorder projection.shown 0 [root] projection.listing

/-- What holds between steps, the selection apart; nothing is visible until the projection
has started. -/
structure WellFormed (projection : FlattenedTreeProjection) (started : Prop) : Prop where
  tree : (¬ started ∧ projection.visibleItems = []) ∨ projection.IsTree
  distinct : projection.visibleItems.Nodup
  allocated : ∀ item ∈ projection.visibleItems, item < projection.allocated
  childAllocated : ∀ parent, ∀ child ∈ (projection.items parent).children,
    child < projection.allocated
  childParent : ∀ parent, ∀ child ∈ (projection.items parent).children,
    (projection.items child).parentItem = some parent
  parentBefore : ∀ child parent, (projection.items child).parentItem = some parent →
    parent < child
  waiting : ∀ expansion ∈ projection.pending,
    (projection.items expansion.item).isLoading = true
      ∧ (projection.items expansion.item).isExpanded = false
      ∧ expansion.item < projection.allocated
  waitingOnce : (projection.pending.map (·.item)).Nodup

/-- What holds between steps. -/
structure Consistent (projection : FlattenedTreeProjection) (started : Prop) : Prop
    extends projection.WellFormed started where
  selected : ∀ item ∈ projection.selectedItem, item ∈ projection.visibleItems

/-! ### Steps that keep the tree -/

/-- The same items are visible, in the same tree. -/
structure SameTree (projection next : FlattenedTreeProjection) : Prop where
  visibleItems : next.visibleItems = projection.visibleItems
  allocated : next.allocated = projection.allocated
  level : ∀ item, (next.items item).level = (projection.items item).level
  parentItem : ∀ item, (next.items item).parentItem = (projection.items item).parentItem
  children : ∀ item, (next.items item).children = (projection.items item).children
  isExpanded : ∀ item, (next.items item).isExpanded = (projection.items item).isExpanded

namespace SameTree

theorem shown (same : SameTree projection next) : next.shown = projection.shown := by
  funext item
  simp only [FlattenedTreeProjection.shown, same.children, same.isExpanded]

theorem listing (same : SameTree projection next) : next.listing = projection.listing := by
  simp only [FlattenedTreeProjection.listing, same.visibleItems, same.level]

theorem isTree (same : SameTree projection next) (tree : projection.IsTree) : next.IsTree := by
  rcases tree with ⟨root, first, top, preorder⟩
  refine ⟨root, ?_, ?_, ?_⟩
  · rw [same.visibleItems, first]
  · rw [same.parentItem, top]
  · rw [same.shown, same.listing]
    exact preorder

/-- A step that keeps the tree needs to be checked for its waiting expansions only. -/
theorem wellFormed (same : SameTree projection next) (wellFormed : projection.WellFormed started)
    (waiting : ∀ expansion ∈ next.pending,
      (next.items expansion.item).isLoading = true
        ∧ (next.items expansion.item).isExpanded = false ∧ expansion.item < next.allocated)
    (waitingOnce : (next.pending.map (·.item)).Nodup) : next.WellFormed started where
  tree := by
    rw [same.visibleItems]
    exact wellFormed.tree.imp_right same.isTree
  distinct := by
    rw [same.visibleItems]
    exact wellFormed.distinct
  allocated := by
    rw [same.visibleItems, same.allocated]
    exact wellFormed.allocated
  childAllocated := by
    intro parent child
    rw [same.children, same.allocated]
    exact wellFormed.childAllocated parent child
  childParent := by
    intro parent child
    rw [same.children, same.parentItem]
    exact wellFormed.childParent parent child
  parentBefore := by
    intro child parent
    rw [same.parentItem]
    exact wellFormed.parentBefore child parent
  waiting := waiting
  waitingOnce := waitingOnce

end SameTree

@[simp]
theorem items_modifyItem_self (update : TreeItemViewModel → TreeItemViewModel) :
    (projection.modifyItem item update).items item = update (projection.items item) :=
  Function.update_self ..

theorem items_modifyItem_of_ne (update : TreeItemViewModel → TreeItemViewModel) {other : ℕ}
    (differs : other ≠ item) :
    (projection.modifyItem item update).items other = projection.items other :=
  Function.update_of_ne differs ..

/-- What an update keeps of every item stays as it is. -/
theorem modifyItem_keeps {β : Type} (field : TreeItemViewModel → β)
    (update : TreeItemViewModel → TreeItemViewModel)
    (keeps : ∀ vm, field (update vm) = field vm) (other : ℕ) :
    field ((projection.modifyItem item update).items other) = field (projection.items other) := by
  by_cases same : other = item
  · rw [same, items_modifyItem_self, keeps]
  · rw [items_modifyItem_of_ne update same]

/-- An update of one item that changes neither its place nor what it shows. -/
theorem sameTree_modifyItem (update : TreeItemViewModel → TreeItemViewModel)
    (level : ∀ vm, (update vm).level = vm.level)
    (parentItem : ∀ vm, (update vm).parentItem = vm.parentItem)
    (children : ∀ vm, (update vm).children = vm.children)
    (isExpanded : ∀ vm, (update vm).isExpanded = vm.isExpanded) :
    SameTree projection (projection.modifyItem item update) where
  visibleItems := rfl
  allocated := rfl
  level := modifyItem_keeps (·.level) update level
  parentItem := modifyItem_keeps (·.parentItem) update parentItem
  children := modifyItem_keeps (·.children) update children
  isExpanded := modifyItem_keeps (·.isExpanded) update isExpanded

/-! ### Flags -/

theorem SameTree.trans {last : FlattenedTreeProjection} (first : SameTree projection next)
    (second : SameTree next last) : SameTree projection last where
  visibleItems := second.visibleItems.trans first.visibleItems
  allocated := second.allocated.trans first.allocated
  level item := (second.level item).trans (first.level item)
  parentItem item := (second.parentItem item).trans (first.parentItem item)
  children item := (second.children item).trans (first.children item)
  isExpanded item := (second.isExpanded item).trans (first.isExpanded item)

theorem sameTree_mark (projection : FlattenedTreeProjection) (item : Option ℕ)
    (isSelected : Bool) : SameTree projection (projection.mark item isSelected) := by
  cases item with
  | none => constructor <;> intros <;> rfl
  | some item =>
      exact sameTree_modifyItem ({ · with isSelected }) (fun _ => rfl) (fun _ => rfl)
        (fun _ => rfl) fun _ => rfl

theorem sameTree_setSelectedItem (projection : FlattenedTreeProjection) (value : Option ℕ) :
    SameTree projection (projection.setSelectedItem value) := by
  unfold setSelectedItem
  have unmarked := sameTree_mark projection projection.selectedItem false
  split
  · exact unmarked
  · have marked := unmarked.trans (sameTree_mark _ value true)
    constructor
    · exact marked.visibleItems
    · exact marked.allocated
    · exact marked.level
    · exact marked.parentItem
    · exact marked.children
    · exact marked.isExpanded

@[simp]
theorem mark_selectedItem (item : Option ℕ) (isSelected : Bool) :
    (projection.mark item isSelected).selectedItem = projection.selectedItem := by
  cases item <;> rfl

@[simp]
theorem mark_pending (item : Option ℕ) (isSelected : Bool) :
    (projection.mark item isSelected).pending = projection.pending := by
  cases item <;> rfl

@[simp]
theorem mark_isLoading (item : Option ℕ) (isSelected : Bool) (other : ℕ) :
    ((projection.mark item isSelected).items other).isLoading
      = (projection.items other).isLoading := by
  cases item with
  | none => rfl
  | some item =>
      by_cases same : other = item
      · subst same
        simp [mark, modifyItem]
      · simp [mark, modifyItem, same]

@[simp]
theorem setSelectedItem_selectedItem (value : Option ℕ) :
    (projection.setSelectedItem value).selectedItem = value := by
  unfold setSelectedItem
  split
  · rename_i unchanged
    simpa using unchanged
  · rfl

@[simp]
theorem setSelectedItem_pending (value : Option ℕ) :
    (projection.setSelectedItem value).pending = projection.pending := by
  unfold setSelectedItem
  split <;> simp

@[simp]
theorem setSelectedItem_isLoading (value : Option ℕ) (other : ℕ) :
    ((projection.setSelectedItem value).items other).isLoading
      = (projection.items other).isLoading := by
  unfold setSelectedItem
  split <;> simp

/-- A visible item can be selected, whatever was selected before. -/
theorem WellFormed.setSelectedItem (wellFormed : projection.WellFormed started) {value : Option ℕ}
    (visible : ∀ item ∈ value, item ∈ projection.visibleItems) :
    (projection.setSelectedItem value).Consistent started := by
  have same := sameTree_setSelectedItem projection value
  refine ⟨same.wellFormed wellFormed ?_ ?_, ?_⟩
  · rw [setSelectedItem_pending]
    intro expansion mem
    rw [setSelectedItem_isLoading, same.isExpanded, same.allocated]
    exact wellFormed.waiting expansion mem
  · rw [setSelectedItem_pending]
    exact wellFormed.waitingOnce
  · rw [setSelectedItem_selectedItem, same.visibleItems]
    exact visible

theorem Consistent.setSelectedIndex (consistent : projection.Consistent started) (value : ℤ) :
    (projection.setSelectedIndex value).Consistent started := by
  unfold FlattenedTreeProjection.setSelectedIndex
  split
  · apply consistent.setSelectedItem
    intro item mem
    exact List.mem_of_getElem? mem
  · exact consistent.setSelectedItem (by simp)

theorem Consistent.report (consistent : projection.Consistent started) (message : String) :
    (projection.report message).Consistent started := by
  have same : SameTree projection (projection.report message) := by
    constructor <;> intros <;> rfl
  exact ⟨same.wellFormed consistent.toWellFormed consistent.waiting consistent.waitingOnce,
    consistent.selected⟩

/-- An item that no expansion waits for can stop loading. -/
theorem Consistent.endLoading (consistent : projection.Consistent started)
    (ended : ∀ expansion ∈ projection.pending, expansion.item ≠ item) :
    (projection.endLoading item).Consistent started := by
  have same : SameTree projection (projection.endLoading item) :=
    sameTree_modifyItem ({ · with isLoading := false }) (fun _ => rfl) (fun _ => rfl)
      (fun _ => rfl) fun _ => rfl
  refine ⟨same.wellFormed consistent.toWellFormed ?_ consistent.waitingOnce, consistent.selected⟩
  intro expansion mem
  rw [same.isExpanded, same.allocated]
  simpa [FlattenedTreeProjection.endLoading, modifyItem, ended expansion mem]
    using consistent.waiting expansion mem

theorem Consistent.fail (consistent : projection.Consistent started) (caller : Caller)
    (message : String) (ended : ∀ expansion ∈ projection.pending, expansion.item ≠ item) :
    (projection.fail item caller message).Consistent started := by
  unfold FlattenedTreeProjection.fail
  cases caller with
  | expand => exact (consistent.report _).endLoading ended
  | toggleExpand => exact ((consistent.report _).endLoading ended).report _
  | navigateRight => exact ((consistent.report _).endLoading ended).report _

/-! ### Around an item -/

/-- A visible item with the items below it; the rest stays a tree with anything else below. -/
structure Around (projection : FlattenedTreeProjection) (item : ℕ)
    (before below after : List ℕ) : Prop where
  visibleItems : projection.visibleItems = before ++ item :: (below ++ after)
  deeper : ∀ other ∈ below, (projection.items item).level < (projection.items other).level
  stops : ∀ other, after.head? = some other →
    (projection.items other).level ≤ (projection.items item).level
  inside : Preorder projection.shown ((projection.items item).level + 1) (projection.shown item)
    (below.map fun other => (other, (projection.items other).level))
  exchange : ∀ (next : FlattenedTreeProjection) (below' : List ℕ),
    next.visibleItems = before ++ item :: (below' ++ after) →
    (∀ other ∈ before ++ item :: after, (next.items other).level = (projection.items other).level
      ∧ (next.items other).parentItem = (projection.items other).parentItem) →
    (∀ other ∈ before ++ after, next.shown other = projection.shown other) →
    Preorder next.shown ((projection.items item).level + 1) (next.shown item)
      (below'.map fun other => (other, (next.items other).level)) →
    next.IsTree

theorem WellFormed.around (wellFormed : projection.WellFormed started)
    (visible : item ∈ projection.visibleItems) :
    ∃ before below after, projection.Around item before below after := by
  rcases wellFormed.tree with ⟨-, empty⟩ | ⟨root, first, top, preorder⟩
  · rw [empty] at visible
    simp at visible
  · have mem : (item, (projection.items item).level) ∈ projection.listing :=
      List.mem_map.mpr ⟨item, visible, rfl⟩
    rcases preorder.exchange mem with ⟨before, below, after, split, inside, stops, exchange⟩
    rw [listing, List.map_eq_append_iff] at split
    rcases split with ⟨front, tail, visibleItems, rfl, tailIs⟩
    rcases List.map_eq_cons_iff.mp tailIs with ⟨itself, behind, rfl, itselfIs, behindIs⟩
    rcases List.map_eq_append_iff.mp behindIs with ⟨under, rest, rfl, rfl, rfl⟩
    have same : itself = item := congrArg Prod.fst itselfIs
    subst same
    refine ⟨front, under, rest, ⟨visibleItems, ?_, ?_, inside, ?_⟩⟩
    · intro other below
      have := inside.depth_le (List.mem_map_of_mem below)
      omega
    · intro other head
      apply stops (other, _)
      rw [List.head?_map, head]
      rfl
    · intro next below' shownItems places shown inside'
      refine ⟨root, ?_, ?_, ?_⟩
      · rw [shownItems, ← first, visibleItems]
        cases front <;> rfl
      · have member : root ∈ front ++ itself :: rest := by
          rw [visibleItems] at first
          cases front <;> simp_all
        rw [(places root member).2, top]
      · have levels (others : List ℕ) (among : ∀ other ∈ others, other ∈ front ++ itself :: rest) :
            (others.map fun other => (other, (next.items other).level))
              = others.map fun other => (other, (projection.items other).level) := by
          apply List.map_congr_left
          intro other mem
          rw [(places other (among other mem)).1]
        have exchanged := exchange next.shown
          (below'.map fun other => (other, (next.items other).level)) (by
            intro entry mem
            rw [← List.map_append] at mem
            rcases List.mem_map.mp mem with ⟨other, among, rfl⟩
            exact shown other among) inside'
        rw [listing, shownItems, List.map_append, List.map_cons, List.map_append,
          levels front (by simp +contextual), levels rest (by simp +contextual),
          (places itself (by simp)).1]
        exact exchanged

/-! ### Collapse -/

theorem removeDeeper_eq (items : ℕ → TreeItemViewModel) (level : ℕ)
    (selected : Option ℕ) {below after : List ℕ}
    (deeper : ∀ other ∈ below, level < (items other).level)
    (stops : ∀ other, after.head? = some other → (items other).level ≤ level) :
    removeDeeper items level selected (below ++ after)
      = (below.any fun other => selected = some other, after) := by
  induction below with
  | nil =>
      cases after with
      | nil => rfl
      | cons other after =>
          have := stops other rfl
          rw [List.nil_append, removeDeeper, if_neg (by omega)]
          rfl
  | cons other below ih =>
      have := deeper other List.mem_cons_self
      rw [List.cons_append, removeDeeper, if_pos (by omega),
        ih fun other mem => deeper other (List.mem_cons_of_mem _ mem)]
      rfl

theorem idxOf?_of_nodup {before after : List ℕ} (distinct : (before ++ item :: after).Nodup) :
    (before ++ item :: after).idxOf? item = some before.length := by
  rw [List.idxOf?_eq_some_iff]
  have notBefore : item ∉ before := fun mem =>
    (List.nodup_append.mp distinct).2.2 item mem item List.mem_cons_self rfl
  refine ⟨by simp, by simp, ?_⟩
  intro index earlier same
  apply notBefore
  rw [← same, List.getElem_append_left earlier]
  exact List.getElem_mem _

/-- What `Collapse` does to a visible item before it moves the selection. -/
theorem collapse_eq (wellFormed : projection.WellFormed started) {before below after : List ℕ}
    (around : projection.Around item before below after)
    (expanded : (projection.items item).isExpanded = true) :
    projection.collapse item =
      let collapsed := { projection with visibleItems := before ++ item :: after }.modifyItem item
        ({ · with isExpanded := false })
      if below.any fun other => projection.selectedItem = some other then
        collapsed.setSelectedItem (some item)
      else collapsed := by
  have distinct := wellFormed.distinct
  rw [around.visibleItems] at distinct
  have found := idxOf?_of_nodup distinct
  have behind : (before ++ item :: (below ++ after)).drop (before.length + 1) = below ++ after := by
    simp
  have front : (before ++ item :: (below ++ after)).take (before.length + 1) = before ++ [item] := by
    simp [List.take_append]
  have removed := removeDeeper_eq projection.items (projection.items item).level
    projection.selectedItem around.deeper around.stops
  simp only [FlattenedTreeProjection.collapse, expanded, around.visibleItems, found, behind, front,
    removed]
  simp

/-- A visible item can close. -/
theorem WellFormed.close (wellFormed : projection.WellFormed started) {before below after : List ℕ}
    (around : projection.Around item before below after) :
    ({ projection with visibleItems := before ++ item :: after }.modifyItem item
      ({ · with isExpanded := false })).WellFormed started := by
  have distinct := wellFormed.distinct
  rw [around.visibleItems] at distinct
  have fewer : (before ++ item :: after).Sublist projection.visibleItems := by
    rw [around.visibleItems]
    exact ((List.sublist_append_right below after).cons_cons item).append_left before
  have others : ∀ other ∈ before ++ after, other ≠ item := by
    intro other mem same
    subst same
    simp only [List.nodup_append, List.nodup_cons, List.mem_append, List.mem_cons] at distinct mem
    rcases mem with inBefore | inAfter
    · exact distinct.2.2 other inBefore other (.inl rfl) rfl
    · exact distinct.2.1.1 (.inr inAfter)
  generalize nextIs : ({ projection with visibleItems := before ++ item :: after }.modifyItem item
    ({ · with isExpanded := false })) = next
  have visibleItems : next.visibleItems = before ++ item :: after := by rw [← nextIs]; rfl
  have allocated : next.allocated = projection.allocated := by rw [← nextIs]; rfl
  have pending : next.pending = projection.pending := by rw [← nextIs]; rfl
  have closed : (next.items item).isExpanded = false := by rw [← nextIs]; simp
  have other : ∀ other, other ≠ item → next.items other = projection.items other := by
    intro other differs
    rw [← nextIs, items_modifyItem_of_ne _ differs]
  have level (item : ℕ) : (next.items item).level = (projection.items item).level := by
    rw [← nextIs]
    exact modifyItem_keeps (·.level) ({ · with isExpanded := false }) (fun _ => rfl) item
  have parentItem (item : ℕ) :
      (next.items item).parentItem = (projection.items item).parentItem := by
    rw [← nextIs]
    exact modifyItem_keeps (·.parentItem) ({ · with isExpanded := false }) (fun _ => rfl) item
  have children (item : ℕ) :
      (next.items item).children = (projection.items item).children := by
    rw [← nextIs]
    exact modifyItem_keeps (·.children) ({ · with isExpanded := false }) (fun _ => rfl) item
  have isLoading (item : ℕ) :
      (next.items item).isLoading = (projection.items item).isLoading := by
    rw [← nextIs]
    exact modifyItem_keeps (·.isLoading) ({ · with isExpanded := false }) (fun _ => rfl) item
  constructor
  · right
    apply around.exchange next [] visibleItems fun other _ => ⟨level other, parentItem other⟩
    · intro shown mem
      rw [FlattenedTreeProjection.shown, other shown (others shown mem),
        FlattenedTreeProjection.shown]
    · rw [shown, closed]
      exact .nil _
  · rw [visibleItems]
    exact wellFormed.distinct.sublist fewer
  · rw [visibleItems, allocated]
    exact fun other mem => wellFormed.allocated other (fewer.subset mem)
  · intro parent child
    rw [children, allocated]
    exact wellFormed.childAllocated parent child
  · intro parent child
    rw [children, parentItem]
    exact wellFormed.childParent parent child
  · intro child parent
    rw [parentItem]
    exact wellFormed.parentBefore child parent
  · intro expansion mem
    rw [pending] at mem
    rw [isLoading, allocated]
    rcases wellFormed.waiting expansion mem with ⟨loading, unexpanded, exists_⟩
    refine ⟨loading, ?_, exists_⟩
    by_cases same : expansion.item = item
    · rw [same, closed]
    · rw [other _ same, unexpanded]
  · rw [pending]
    exact wellFormed.waitingOnce

theorem Consistent.collapse (consistent : projection.Consistent started) (item : ℕ) :
    (projection.collapse item).Consistent started := by
  by_cases expanded : (projection.items item).isExpanded = true
  · by_cases visible : item ∈ projection.visibleItems
    · rcases consistent.around visible with ⟨before, below, after, around⟩
      have closed := consistent.close around
      rw [collapse_eq consistent.toWellFormed around expanded]
      split
      · apply closed.setSelectedItem
        intro other mem
        simp only [Option.mem_def, Option.some.injEq] at mem
        subst mem
        simp [modifyItem]
      · rename_i kept
        refine ⟨closed, ?_⟩
        intro other mem
        have wasVisible := consistent.selected other mem
        have selected : projection.selectedItem = some other := mem
        simp only [around.visibleItems, List.mem_append, List.mem_cons] at wasVisible
        simp only [selected, List.any_eq_true, decide_eq_true_eq] at kept
        simp only [modifyItem, List.mem_append, List.mem_cons]
        rcases wasVisible with front | itself | hidden | behind
        · exact .inl front
        · exact .inr (.inl itself)
        · exact absurd ⟨other, hidden, rfl⟩ kept
        · exact .inr (.inr behind)
    · have absent := List.idxOf?_eq_none_iff.mpr visible
      simp only [FlattenedTreeProjection.collapse, expanded, absent]
      exact consistent
  · simp only [FlattenedTreeProjection.collapse, expanded]
    exact consistent

/-! ### Expansion -/

/-- What `addChildren` does. -/
structure Added (projection next : FlattenedTreeProjection) (item : ℕ) (count : ℕ) :
    Prop where
  allocated : next.allocated = projection.allocated + count
  pending : next.pending = projection.pending
  selectedItem : next.selectedItem = projection.selectedItem
  other : ∀ other, other < projection.allocated → other ≠ item →
    next.items other = projection.items other
  itself : next.items item = { projection.items item with
    children := (projection.items item).children ++ List.range' projection.allocated count }
  fresh : ∀ child, projection.allocated ≤ child → child < projection.allocated + count →
    ∃ data, next.items child = .new data ((projection.items item).level + 1) (some item)
  beyond : ∀ other, projection.allocated + count ≤ other →
    next.items other = projection.items other

/-- An item opens: new items without children appear right after it. -/
structure Opened (projection next : FlattenedTreeProjection) (item : ℕ) (count : ℕ)
    (before after : List ℕ) : Prop where
  visibleItems : next.visibleItems
    = before ++ item :: (List.range' projection.allocated count ++ after)
  allocated : next.allocated = projection.allocated + count
  pending : next.pending = projection.pending
  selectedItem : next.selectedItem = projection.selectedItem
  itself : next.items item = { projection.items item with
    children := List.range' projection.allocated count, isExpanded := true }
  fresh : ∀ child ∈ List.range' projection.allocated count,
    ∃ data, next.items child = .new data ((projection.items item).level + 1) (some item)
  other : ∀ other, other ≠ item → other ∉ List.range' projection.allocated count →
    next.items other = projection.items other

theorem insertIdx_append (front back : List ℕ) (child : ℕ) :
    (front ++ back).insertIdx front.length child = front ++ child :: back := by
  induction front with
  | nil => rfl
  | cons first front ih =>
      rw [List.cons_append, List.length_cons, List.insertIdx_succ_cons, ih, List.cons_append]

theorem addChildren_spec (nodes : List TreeNodeData) {front back : List ℕ}
    (visibleItems : projection.visibleItems = front ++ back) (exists_ : item < projection.allocated) :
    (addChildren item front.length nodes projection).visibleItems
        = front ++ List.range' projection.allocated nodes.length ++ back
      ∧ Added projection (addChildren item front.length nodes projection) item nodes.length := by
  induction nodes generalizing projection front with
  | nil =>
      simp only [addChildren, List.length_nil, List.range'_zero, List.append_nil]
      refine ⟨visibleItems, ?_⟩
      constructor <;> try simp
      intro child above below
      omega
  | cons node nodes ih =>
      generalize stepIs : ({ (projection.create (.new node ((projection.items item).level + 1)
          (some item))).modifyItem item
            (fun vm => { vm with children := vm.children ++ [projection.allocated] }) with
          visibleItems := projection.visibleItems.insertIdx front.length projection.allocated } :
        FlattenedTreeProjection) = step
      have unfolded : addChildren item front.length (node :: nodes) projection
          = addChildren item (front ++ [projection.allocated]).length nodes step := by
        rw [← stepIs, List.length_append]
        rfl
      have differs : item ≠ projection.allocated := Nat.ne_of_lt exists_
      have shown : step.visibleItems = (front ++ [projection.allocated]) ++ back := by
        rw [← stepIs]
        simp [visibleItems, insertIdx_append]
      have allocated : step.allocated = projection.allocated + 1 := by rw [← stepIs]; rfl
      have pending : step.pending = projection.pending := by rw [← stepIs]; rfl
      have selectedItem : step.selectedItem = projection.selectedItem := by rw [← stepIs]; rfl
      have itself : step.items item = { projection.items item with
          children := (projection.items item).children ++ [projection.allocated] } := by
        rw [← stepIs]
        simp [modifyItem, create, differs]
      have child : step.items projection.allocated
          = .new node ((projection.items item).level + 1) (some item) := by
        rw [← stepIs]
        simp [modifyItem, create, Ne.symm differs]
      have other : ∀ other, other ≠ projection.allocated → other ≠ item →
          step.items other = projection.items other := by
        intro other notChild notItem
        rw [← stepIs]
        simp [modifyItem, create, notChild, notItem]
      rcases ih shown (allocated ▸ Nat.lt_succ_of_lt exists_) with ⟨restShown, added⟩
      rw [unfolded]
      constructor
      · rw [restShown, allocated, List.length_cons, List.range'_succ]
        simp
      · constructor
        · rw [added.allocated, allocated, List.length_cons]
          omega
        · rw [added.pending, pending]
        · rw [added.selectedItem, selectedItem]
        · intro earlier before notItem
          rw [added.other earlier (by omega) notItem, other earlier (Nat.ne_of_lt before) notItem]
        · rw [added.itself, itself, allocated, List.length_cons, List.range'_succ]
          simp
        · intro later above below
          rw [List.length_cons] at below
          rcases Nat.eq_or_lt_of_le above with same | above
          · subst same
            rw [added.other _ (by omega) (Ne.symm differs)]
            exact ⟨node, child⟩
          · have level : (step.items item).level = (projection.items item).level := by rw [itself]
            rw [← level]
            exact added.fresh later (by omega) (by omega)
        · intro later above
          rw [List.length_cons] at above
          have new : projection.allocated < later := by omega
          rw [added.beyond later (by omega),
            other later (Nat.ne_of_gt new) (Nat.ne_of_gt (Nat.lt_trans exists_ new))]

theorem showPage_spec (page : PagedChildrenResult TreeNodeData) {before after : List ℕ}
    (visibleItems : projection.visibleItems = before ++ item :: after)
    (distinct : projection.visibleItems.Nodup) (exists_ : item < projection.allocated) :
    Opened projection (projection.showPage item page) item page.nodes.length before after := by
  have found : projection.visibleItems.idxOf? item = some before.length := by
    rw [visibleItems] at distinct ⊢
    exact idxOf?_of_nodup distinct
  generalize clearedIs : projection.modifyItem item ({ · with children := [] }) = cleared
  have clearedItems : cleared.visibleItems = (before ++ [item]) ++ after := by
    rw [← clearedIs]
    simp [modifyItem, visibleItems]
  have clearedAllocated : cleared.allocated = projection.allocated := by rw [← clearedIs]; rfl
  have clearedItself : cleared.items item = { projection.items item with children := [] } := by
    rw [← clearedIs, items_modifyItem_self]
  have clearedOther : ∀ other, other ≠ item → cleared.items other = projection.items other := by
    intro other differs
    rw [← clearedIs, items_modifyItem_of_ne _ differs]
  rcases addChildren_spec page.nodes clearedItems (by rw [clearedAllocated]; exact exists_) with
    ⟨shown, added⟩
  have resultIs : projection.showPage item page
      = (addChildren item (before ++ [item]).length page.nodes cleared).modifyItem item
        ({ · with isExpanded := true }) := by
    rw [showPage, found, ← clearedIs, List.length_append]
    rfl
  rw [resultIs]
  generalize addChildren item (before ++ [item]).length page.nodes cleared = result at *
  rw [clearedAllocated] at shown
  constructor
  · simp [modifyItem, shown]
  · exact added.allocated.trans (by rw [clearedAllocated])
  · exact added.pending.trans (by rw [← clearedIs]; rfl)
  · exact added.selectedItem.trans (by rw [← clearedIs]; rfl)
  · rw [items_modifyItem_self, added.itself, clearedItself, clearedAllocated]
    rfl
  · intro child mem
    rcases List.mem_range'_1.mp mem with ⟨above, below⟩
    have differs : child ≠ item := Nat.ne_of_gt (Nat.lt_of_lt_of_le exists_ above)
    rw [items_modifyItem_of_ne _ differs]
    have level : (cleared.items item).level = (projection.items item).level := by
      rw [clearedItself]
    rw [← level]
    exact added.fresh child (by omega) (by omega)
  · intro other differs notFresh
    rw [items_modifyItem_of_ne _ differs, ← clearedOther other differs]
    rw [List.mem_range'_1] at notFresh
    rcases Nat.lt_or_ge other projection.allocated with earlier | later
    · exact added.other other (by omega) differs
    · exact added.beyond other (by omega)

/-- The children of an item that opens are the new ones; other items keep theirs. -/
theorem Opened.children_cases {count parent child : ℕ} {before after : List ℕ}
    (opened : Opened projection next item count before after)
    (mem : child ∈ (next.items parent).children) :
    (parent = item ∧ child ∈ List.range' projection.allocated count)
      ∨ child ∈ (projection.items parent).children := by
  by_cases same : parent = item
  · rw [same, opened.itself] at mem
    exact .inl ⟨same, mem⟩
  · by_cases new : parent ∈ List.range' projection.allocated count
    · rcases opened.fresh parent new with ⟨data, created⟩
      rw [created] at mem
      simp [TreeItemViewModel.new] at mem
    · rw [opened.other parent same new] at mem
      exact .inr mem

/-- A closed item that no expansion waits for can open. -/
theorem Consistent.open_ (consistent : projection.Consistent started) {count : ℕ}
    {before after : List ℕ} (around : projection.Around item before [] after)
    (opened : Opened projection next item count before after)
    (ended : ∀ expansion ∈ projection.pending, expansion.item ≠ item) : next.Consistent started := by
  have old : ∀ other ∈ before ++ item :: after, other < projection.allocated := by
    intro other mem
    apply consistent.allocated
    rw [around.visibleItems]
    exact mem
  have notFresh (other : ℕ) (earlier : other < projection.allocated) :
      other ∉ List.range' projection.allocated count := by
    rw [List.mem_range'_1]
    omega
  have exists_ := old item (by simp)
  have distinct := consistent.distinct
  rw [around.visibleItems] at distinct
  have place (other : ℕ) (earlier : other < projection.allocated) :
      (next.items other).level = (projection.items other).level
        ∧ (next.items other).parentItem = (projection.items other).parentItem := by
    by_cases same : other = item
    · rw [same, opened.itself]
      exact ⟨rfl, rfl⟩
    · rw [opened.other other same (notFresh other earlier)]
      exact ⟨rfl, rfl⟩
  have shownItem : next.shown item = List.range' projection.allocated count := by
    rw [shown, opened.itself]
    rfl
  have others : ∀ other ∈ before ++ after, other ≠ item := by
    intro other mem same
    subst same
    simp only [List.nodup_append, List.nodup_cons, List.mem_append, List.mem_cons] at distinct mem
    rcases mem with inBefore | inAfter
    · exact distinct.2.2 other inBefore other (.inl rfl) rfl
    · exact distinct.2.1.1 (.inr inAfter)
  refine ⟨?_, ?_⟩
  · constructor
    · right
      refine around.exchange next _ opened.visibleItems ?_ ?_ ?_
      · exact fun other mem => place other (old other mem)
      · intro other mem
        have earlier : other < projection.allocated := old other (by
          rcases List.mem_append.mp mem with mem | mem <;> simp [mem])
        simp only [FlattenedTreeProjection.shown,
          opened.other other (others other mem) (notFresh other earlier)]
      · rw [shownItem]
        have levels : (List.range' projection.allocated count).map
              (fun other => (other, (next.items other).level))
            = (List.range' projection.allocated count).map
              fun other => (other, (projection.items item).level + 1) := by
          apply List.map_congr_left
          intro child mem
          rcases opened.fresh child mem with ⟨data, created⟩
          rw [created]
          rfl
        rw [levels]
        apply Preorder.of_closed
        intro child mem
        rcases opened.fresh child mem with ⟨data, created⟩
        rw [shown, created]
        rfl
    · rw [opened.visibleItems]
      have rearranged : (before ++ item :: (List.range' projection.allocated count ++ after)).Perm
          (List.range' projection.allocated count ++ (before ++ item :: after)) := by
        have moved := List.perm_append_comm_assoc (before ++ [item])
          (List.range' projection.allocated count) after
        simpa using moved
      rw [rearranged.nodup_iff, List.nodup_append]
      refine ⟨List.nodup_range', distinct, ?_⟩
      intro child mem other among same
      subst same
      exact notFresh child (old child among) mem
    · rw [opened.visibleItems, opened.allocated]
      intro other mem
      simp only [List.mem_append, List.mem_cons] at mem
      have earlier := old other
      simp only [List.mem_append, List.mem_cons] at earlier
      rcases mem with front | itself | new | behind
      · exact Nat.lt_add_right _ (earlier (.inl front))
      · exact Nat.lt_add_right _ (earlier (.inr (.inl itself)))
      · exact (List.mem_range'_1.mp new).2
      · exact Nat.lt_add_right _ (earlier (.inr (.inr behind)))
    · intro parent child mem
      rw [opened.allocated]
      rcases opened.children_cases mem with ⟨-, new⟩ | former
      · exact (List.mem_range'_1.mp new).2
      · exact Nat.lt_add_right _ (consistent.childAllocated parent child former)
    · intro parent child mem
      rcases opened.children_cases mem with ⟨rfl, new⟩ | former
      · rcases opened.fresh child new with ⟨data, created⟩
        rw [created]
        rfl
      · have earlier := consistent.childAllocated parent child former
        rw [(place child earlier).2]
        exact consistent.childParent parent child former
    · intro child parent parentIs
      by_cases new : child ∈ List.range' projection.allocated count
      · rcases opened.fresh child new with ⟨data, created⟩
        rw [created] at parentIs
        have parentItem : item = parent := Option.some.inj parentIs
        have above := (List.mem_range'_1.mp new).1
        omega
      · apply consistent.parentBefore
        rw [← parentIs]
        by_cases same : child = item
        · rw [same, opened.itself]
        · rw [opened.other child same new]
    · intro expansion mem
      rw [opened.pending] at mem
      rcases consistent.waiting expansion mem with ⟨loading, closed, earlier⟩
      rw [opened.other _ (ended expansion mem) (notFresh _ earlier), opened.allocated]
      exact ⟨loading, closed, Nat.lt_add_right _ earlier⟩
    · rw [opened.pending]
      exact consistent.waitingOnce
  · intro other mem
    rw [opened.selectedItem] at mem
    have wasVisible := consistent.selected other mem
    simp only [around.visibleItems, List.nil_append, List.mem_append, List.mem_cons] at wasVisible
    simp only [opened.visibleItems, List.mem_append, List.mem_cons]
    rcases wasVisible with front | itself | behind
    · exact .inl front
    · exact .inr (.inl itself)
    · exact .inr (.inr (.inr behind))

/-- Nothing is below a closed item. -/
theorem Around.below_nil {before below after : List ℕ}
    (around : projection.Around item before below after)
    (closed : (projection.items item).isExpanded = false) : below = [] := by
  have inside := around.inside
  rw [shown, closed] at inside
  generalize listingIs : (below.map fun other => (other, (projection.items other).level))
    = listing at inside
  cases inside with
  | nil => exact List.map_eq_nil_iff.mp listingIs

theorem Consistent.showPage (consistent : projection.Consistent started)
    (page : PagedChildrenResult TreeNodeData)
    (closed : (projection.items item).isExpanded = false)
    (ended : ∀ expansion ∈ projection.pending, expansion.item ≠ item) :
    (projection.showPage item page).Consistent started
      ∧ (projection.showPage item page).pending = projection.pending := by
  by_cases visible : item ∈ projection.visibleItems
  · rcases consistent.around visible with ⟨before, below, after, around⟩
    have empty := around.below_nil closed
    subst empty
    have opened := showPage_spec page around.visibleItems consistent.distinct
      (consistent.allocated item visible)
    exact ⟨consistent.open_ around opened ended, opened.pending⟩
  · have absent := List.idxOf?_eq_none_iff.mpr visible
    simp only [FlattenedTreeProjection.showPage, absent]
    exact ⟨consistent, trivial⟩

/-- Only the cache and what waits change. -/
theorem sameTree_of_items (visibleItems : next.visibleItems = projection.visibleItems)
    (items : next.items = projection.items) (allocated : next.allocated = projection.allocated) :
    SameTree projection next := by
  constructor
  · exact visibleItems
  · exact allocated
  all_goals
    intro item
    rw [items]

theorem Consistent.withCache (consistent : projection.Consistent started)
    (cache : BoundedPageCache TreeNodeData) :
    ({ projection with cache } : FlattenedTreeProjection).Consistent started := by
  have same : SameTree projection { projection with cache } := sameTree_of_items rfl rfl rfl
  exact ⟨same.wellFormed consistent.toWellFormed consistent.waiting consistent.waitingOnce,
    consistent.selected⟩

/-- The page of an expansion is shown, and the expansion ends. -/
theorem Consistent.finish (consistent : projection.Consistent started)
    (cache : BoundedPageCache TreeNodeData) (page : PagedChildrenResult TreeNodeData)
    (closed : (projection.items item).isExpanded = false)
    (ended : ∀ expansion ∈ projection.pending, expansion.item ≠ item) :
    (({ projection with cache }.showPage item page).endLoading item).Consistent started := by
  rcases (consistent.withCache cache).showPage page closed ended with ⟨shown, pending⟩
  apply shown.endLoading
  rw [pending]
  exact ended

/-- No expansion waits for an item that does not load. -/
theorem WellFormed.idle (wellFormed : projection.WellFormed started)
    (idle : (projection.items item).isLoading = false) :
    ∀ expansion ∈ projection.pending, expansion.item ≠ item := by
  intro expansion mem same
  have loading := (wellFormed.waiting expansion mem).1
  rw [same, idle] at loading
  simp at loading

theorem Consistent.startLoading (consistent : projection.Consistent started)
    (idle : (projection.items item).isLoading = false) :
    (projection.modifyItem item ({ · with isLoading := true })).Consistent started := by
  have same : SameTree projection (projection.modifyItem item ({ · with isLoading := true })) :=
    sameTree_modifyItem ({ · with isLoading := true }) (fun _ => rfl) (fun _ => rfl)
      (fun _ => rfl) fun _ => rfl
  refine ⟨same.wellFormed consistent.toWellFormed ?_ consistent.waitingOnce, consistent.selected⟩
  intro expansion mem
  rw [items_modifyItem_of_ne _ (consistent.idle idle expansion mem), same.allocated]
  exact consistent.waiting expansion mem

theorem Consistent.expandAsync (consistent : projection.Consistent started) (caller : Caller)
    (exists_ : item < projection.allocated) :
    (projection.expandAsync item caller).Consistent started := by
  simp only [FlattenedTreeProjection.expandAsync]
  split
  · exact consistent
  · rename_i free
    simp only [Bool.or_eq_true, Bool.not_eq_true', not_or, Bool.not_eq_true] at free
    rcases free with ⟨⟨-, closed⟩, idle⟩
    have ended := consistent.idle idle
    have consistentLoading := consistent.startLoading idle
    generalize loadingIs : projection.modifyItem item ({ · with isLoading := true }) = loading
      at consistentLoading
    have pending : loading.pending = projection.pending := by rw [← loadingIs]; rfl
    have loads : (loading.items item).isLoading = true := by
      rw [← loadingIs, items_modifyItem_self]
    have stillClosed : (loading.items item).isExpanded = false := by
      rw [← loadingIs, items_modifyItem_self, closed]
    have earlier : item < loading.allocated := by
      rw [← loadingIs]
      exact exists_
    rw [← pending] at ended
    rcases projection.cache.tryGetPage projection.currentOperationId (projection.items item).id 0
      with fault | ⟨cache, _ | page⟩
    · exact consistentLoading.fail caller _ ended
    · have unchanged : SameTree loading { loading with
          cache
          pending := projection.pending ++
            [{ item, operationId := projection.currentOperationId, caller }] } :=
        sameTree_of_items rfl rfl rfl
      refine ⟨unchanged.wellFormed consistentLoading.toWellFormed ?_ ?_,
        consistentLoading.selected⟩
      · intro expansion mem
        rcases List.mem_append.mp mem with mem | mem
        · rw [← pending] at mem
          exact consistentLoading.waiting expansion mem
        · rw [List.mem_singleton.mp mem]
          exact ⟨loads, stillClosed, earlier⟩
      · rw [List.map_append, List.nodup_append, ← pending]
        refine ⟨consistentLoading.waitingOnce, List.nodup_singleton _, ?_⟩
        intro one mem two mem' equal
        rcases List.mem_map.mp mem with ⟨expansion, waits, rfl⟩
        rw [List.map_singleton, List.mem_singleton] at mem'
        exact ended expansion waits (equal.trans mem')
    · exact consistentLoading.finish cache page stillClosed ended

/-- An expansion no longer waits; nothing else waits for its item. -/
theorem Consistent.dequeue (consistent : projection.Consistent started) {index : ℕ}
    {expansion : Expansion} (waits : projection.pending[index]? = some expansion) :
    ({ projection with pending := projection.pending.eraseIdx index } :
        FlattenedTreeProjection).Consistent started
      ∧ ∀ other ∈ projection.pending.eraseIdx index, other.item ≠ expansion.item := by
  have fewer : (projection.pending.eraseIdx index).Sublist projection.pending :=
    List.eraseIdx_sublist ..
  have same : SameTree projection
      { projection with pending := projection.pending.eraseIdx index } :=
    sameTree_of_items rfl rfl rfl
  have waitingOnce := consistent.waitingOnce
  refine ⟨⟨same.wellFormed consistent.toWellFormed ?_ ?_, consistent.selected⟩, ?_⟩
  · exact fun other mem => consistent.waiting other (fewer.subset mem)
  · exact waitingOnce.sublist (fewer.map _)
  · rcases List.getElem?_eq_some_iff.mp waits with ⟨bound, expansionIs⟩
    have rearranged := (List.getElem_cons_eraseIdx_perm bound).map (·.item)
    rw [← rearranged.nodup_iff, expansionIs, List.map_cons, List.nodup_cons] at waitingOnce
    intro other mem equal
    exact waitingOnce.1 (List.mem_map.mpr ⟨other, mem, equal⟩)

theorem Consistent.complete (consistent : projection.Consistent started) {index : ℕ}
    {expansion : Expansion} (waits : projection.pending[index]? = some expansion)
    (fetched : Fetched) :
    ({ projection with pending := projection.pending.eraseIdx index }.resume
      expansion fetched).Consistent started := by
  rcases consistent.dequeue waits with ⟨resumed, ended⟩
  have closed := (consistent.waiting expansion (List.mem_of_getElem? waits)).2.1
  cases fetched with
  | page page =>
      simp only [resume]
      rcases projection.cache.putPage page with fault | cache
      · exact resumed.fail _ _ ended
      · exact resumed.finish cache page closed ended
  | cancelled => exact resumed.endLoading ended
  | failed message => exact resumed.fail _ message ended

/-! ### The root -/

/-- Whether or not the projection has started, it has afterwards. -/
theorem Consistent.initializeRootAsync (consistent : projection.Consistent started)
    (operationId : String) (rootNode : TreeNodeData) (after : Prop) :
    (projection.initializeRootAsync operationId rootNode).Consistent after := by
  simp only [FlattenedTreeProjection.initializeRootAsync]
  generalize createdIs : ({ projection.create (.new rootNode 0 none) with
    currentOperationId := operationId
    cache := projection.cache.clear
    visibleItems := [projection.allocated] } : FlattenedTreeProjection) = created
  have visibleItems : created.visibleItems = [projection.allocated] := by rw [← createdIs]
  have allocated : created.allocated = projection.allocated + 1 := by rw [← createdIs]; rfl
  have pending : created.pending = projection.pending := by rw [← createdIs]; rfl
  have root : created.items projection.allocated = .new rootNode 0 none := by
    rw [← createdIs]
    simp [create]
  have other : ∀ other, other ≠ projection.allocated →
      created.items other = projection.items other := by
    intro other differs
    rw [← createdIs]
    simp [create, differs]
  have notRoot (parent child : ℕ) (mem : child ∈ (created.items parent).children) :
      child ∈ (projection.items parent).children := by
    by_cases same : parent = projection.allocated
    · rw [same, root] at mem
      simp [TreeItemViewModel.new] at mem
    · rwa [other parent same] at mem
  apply WellFormed.setSelectedItem
  · constructor
    · right
      refine ⟨projection.allocated, by rw [visibleItems]; rfl, by rw [root]; rfl, ?_⟩
      have closed : created.shown projection.allocated = [] := by
        rw [shown, root]
        rfl
      have listed : created.listing = [projection.allocated].map fun item => (item, 0) := by
        rw [listing, visibleItems, List.map_singleton, root]
        rfl
      rw [listed]
      apply Preorder.of_closed
      intro item mem
      rw [List.mem_singleton.mp mem, closed]
    · rw [visibleItems]
      exact List.nodup_singleton _
    · rw [visibleItems, allocated]
      intro item mem
      rw [List.mem_singleton.mp mem]
      exact Nat.lt_succ_self _
    · intro parent child mem
      rw [allocated]
      exact Nat.lt_succ_of_lt (consistent.childAllocated parent child (notRoot parent child mem))
    · intro parent child mem
      have former := notRoot parent child mem
      rw [other child (Nat.ne_of_lt (consistent.childAllocated parent child former))]
      exact consistent.childParent parent child former
    · intro child parent parentIs
      by_cases same : child = projection.allocated
      · rw [same, root] at parentIs
        simp [TreeItemViewModel.new] at parentIs
      · rw [other child same] at parentIs
        exact consistent.parentBefore child parent parentIs
    · intro expansion mem
      rw [pending] at mem
      rcases consistent.waiting expansion mem with ⟨loading, closed, earlier⟩
      rw [other _ (Nat.ne_of_lt earlier), allocated]
      exact ⟨loading, closed, Nat.lt_succ_of_lt earlier⟩
    · rw [pending]
      exact consistent.waitingOnce
  · intro item mem
    simp only [Option.mem_def, Option.some.injEq] at mem
    rw [visibleItems, ← mem]
    exact List.mem_singleton_self _

/-! ### Navigation -/

/-- The parent of a visible item is visible. -/
theorem Consistent.parent_visible (consistent : projection.Consistent started)
    (visible : item ∈ projection.visibleItems) {parent : ℕ}
    (parentIs : (projection.items item).parentItem = some parent) :
    parent ∈ projection.visibleItems := by
  rcases consistent.tree with ⟨-, empty⟩ | ⟨root, _, top, preorder⟩
  · rw [empty] at visible
    simp at visible
  · have listed : (item, (projection.items item).level) ∈ projection.listing :=
      List.mem_map.mpr ⟨item, visible, rfl⟩
    rcases preorder.mem_cases listed with isRoot | ⟨holder, holderListed, shows⟩
    · have same : item = root := List.mem_singleton.mp isRoot
      rw [same, top] at parentIs
      simp at parentIs
    · rcases List.mem_map.mp holderListed with ⟨other, otherVisible, rfl⟩
      have child : item ∈ (projection.items other).children := by
        rw [shown] at shows
        split at shows
        · exact shows
        · simp at shows
      have parents := consistent.childParent other item child
      rw [parentIs] at parents
      rw [Option.some.inj parents]
      exact otherVisible

theorem Consistent.toggleExpandAsync (consistent : projection.Consistent started) {target : Option ℕ}
    (exists_ : ∀ given ∈ target, given < projection.allocated) :
    (projection.toggleExpandAsync target).Consistent started := by
  unfold FlattenedTreeProjection.toggleExpandAsync
  split
  · exact consistent
  · rename_i item itemIs
    have earlier : item < projection.allocated := by
      cases target with
      | none => exact consistent.allocated item (consistent.selected item (by simpa using itemIs))
      | some given => exact exists_ item (by simpa using itemIs)
    split
    · exact consistent
    · split
      · exact consistent.collapse item
      · exact consistent.expandAsync _ earlier

theorem Consistent.navigateRightAsync (consistent : projection.Consistent started) :
    projection.navigateRightAsync.Consistent started := by
  unfold FlattenedTreeProjection.navigateRightAsync
  split
  · exact consistent
  · rename_i item selected
    have earlier := consistent.allocated item (consistent.selected item selected)
    simp only
    split
    · exact consistent.expandAsync _ earlier
    · split
      · split
        · split
          · exact consistent.setSelectedIndex _
          · exact consistent
        · exact consistent
      · exact consistent

theorem Consistent.navigateLeft (consistent : projection.Consistent started) :
    projection.navigateLeft.Consistent started := by
  unfold FlattenedTreeProjection.navigateLeft
  split
  · exact consistent
  · rename_i item selected
    split
    · exact consistent.collapse item
    · split
      · rename_i parent parentIs
        apply consistent.setSelectedItem
        intro other mem
        simp only [Option.mem_def, Option.some.injEq] at mem
        rw [← mem]
        exact consistent.parent_visible (consistent.selected item selected) parentIs
      · exact consistent

/-! ### Runs -/

theorem Consistent.step (consistent : projection.Consistent started) {action : Action}
    (steps : projection.step action = some next) : next.Consistent started := by
  cases action with
  | initializeRoot operationId rootNode =>
      rw [← Option.some.inj steps]
      exact consistent.initializeRootAsync operationId rootNode started
  | expand item =>
      simp only [FlattenedTreeProjection.step, Option.ite_none_right_eq_some,
        Option.some.injEq] at steps
      rw [← steps.2]
      exact consistent.expandAsync _ steps.1
  | collapse item =>
      simp only [FlattenedTreeProjection.step, Option.ite_none_right_eq_some,
        Option.some.injEq] at steps
      rw [← steps.2]
      exact consistent.collapse item
  | toggleExpand item =>
      simp only [FlattenedTreeProjection.step, Option.ite_none_right_eq_some,
        Option.some.injEq] at steps
      rw [← steps.2]
      exact consistent.toggleExpandAsync steps.1
  | navigateUp =>
      rw [← Option.some.inj steps]
      simp only [FlattenedTreeProjection.navigateUp]
      split
      · exact consistent.setSelectedIndex _
      · exact consistent
  | navigateDown =>
      rw [← Option.some.inj steps]
      simp only [FlattenedTreeProjection.navigateDown]
      split
      · exact consistent.setSelectedIndex _
      · exact consistent
  | navigateRight =>
      rw [← Option.some.inj steps]
      exact consistent.navigateRightAsync
  | navigateLeft =>
      rw [← Option.some.inj steps]
      exact consistent.navigateLeft
  | navigateHome =>
      rw [← Option.some.inj steps]
      simp only [FlattenedTreeProjection.navigateHome]
      split
      · exact consistent.setSelectedIndex _
      · exact consistent
  | navigateEnd =>
      rw [← Option.some.inj steps]
      simp only [FlattenedTreeProjection.navigateEnd]
      split
      · exact consistent.setSelectedIndex _
      · exact consistent
  | navigatePageUp count =>
      rw [← Option.some.inj steps]
      exact consistent.setSelectedIndex _
  | navigatePageDown count =>
      rw [← Option.some.inj steps]
      exact consistent.setSelectedIndex _
  | select item =>
      simp only [FlattenedTreeProjection.step, Option.ite_none_right_eq_some,
        Option.some.injEq] at steps
      rw [← steps.2]
      exact consistent.setSelectedItem steps.1
  | complete index fetched =>
      simp only [FlattenedTreeProjection.step] at steps
      split at steps
      · rename_i expansion waits
        rw [← Option.some.inj steps]
        exact consistent.complete waits fetched
      · simp at steps

theorem Consistent.run (consistent : projection.Consistent started) {actions : List Action}
    (ran : projection.run actions = some next) : next.Consistent started := by
  induction actions generalizing projection with
  | nil =>
      rw [← Option.some.inj ran]
      exact consistent
  | cons action actions ih =>
      rcases Option.bind_eq_some_iff.mp ran with ⟨after, steps, rest⟩
      exact ih (consistent.step steps) rest

theorem consistent_new (maxCachedPages : ℤ) : (new maxCachedPages).Consistent False := by
  refine ⟨?_, by simp [new]⟩
  constructor <;> simp [new, TreeItemViewModel.new]

theorem run_append (projection : FlattenedTreeProjection) (actions others : List Action) :
    projection.run (actions ++ others) =
      (projection.run actions).bind fun next => next.run others := by
  induction actions generalizing projection with
  | nil => rfl
  | cons action actions ih =>
      rw [List.cons_append, run, run]
      cases projection.step action with
      | none => rfl
      | some next => exact ih next

/-- Between steps, once a root is initialized. -/
theorem Consistent.preorder (consistent : projection.Consistent True) :
    projection.IsTree ∧ projection.visibleItems.Nodup
      ∧ ∀ item ∈ projection.selectedItem, item ∈ projection.visibleItems := by
  refine ⟨?_, consistent.distinct, consistent.selected⟩
  rcases consistent.tree with ⟨notStarted, _⟩ | tree
  · exact absurd trivial notStarted
  · exact tree

/-- Whatever happens after the root is initialized, and in whatever order pages arrive,
the visible items are the preorder of the expanded tree with their depths as levels, none
twice, and the selection is among them. -/
theorem visibleItems_preorder {maxCachedPages : ℤ} {operationId : String}
    {rootNode : TreeNodeData} {actions : List Action}
    (ran : (new maxCachedPages).run (.initializeRoot operationId rootNode :: actions)
      = some projection) :
    projection.IsTree ∧ projection.visibleItems.Nodup
      ∧ ∀ item ∈ projection.selectedItem, item ∈ projection.visibleItems := by
  have first := (consistent_new maxCachedPages).initializeRootAsync operationId rootNode True
  have consistent : projection.Consistent True := first.run ran
  exact consistent.preorder

namespace Sample

def root : TreeNodeData := { id := 1, name := "c:", entryKind := 1, hasChildren := true }

def rootPage : PagedChildrenResult TreeNodeData where
  operationId := "scan-1"
  parentId := 1
  totalChildren := 2
  offset := 0
  nodes := [
    { id := 2, name := "left", entryKind := 1, hasChildren := true },
    { id := 3, name := "file", entryKind := 2, hasChildren := false }]

def leftPage : PagedChildrenResult TreeNodeData where
  operationId := "scan-1"
  parentId := 2
  totalChildren := 1
  offset := 0
  nodes := [{ id := 4, name := "inner", entryKind := 2, hasChildren := false }]

/-- The root and the directory below it are expanded, and what the directory holds is
selected. -/
def expansions : List Action := [
  .initializeRoot "scan-1" root, .expand 0, .complete 0 (.page rootPage),
  .expand 1, .complete 0 (.page leftPage), .select (some 3)]

end Sample

theorem visibleItems_preorder_expanded : ∃ final : FlattenedTreeProjection, final.IsTree
    ∧ final.visibleItems = [0, 1, 3, 2] ∧ final.selectedItem = some 3
      ∧ final.visibleItems.map (fun item => (final.items item).level) = [0, 1, 2, 1]
      ∧ final.visibleItems.Nodup ∧ ∀ item ∈ final.selectedItem, item ∈ final.visibleItems := by
  have shape : ((new 1).run Sample.expansions).map (fun final => (final.visibleItems,
      final.selectedItem, final.visibleItems.map (fun item => (final.items item).level))) =
        some ([0, 1, 3, 2], some 3, [0, 1, 2, 1]) := by
    decide +kernel
  rcases Option.map_eq_some_iff.mp shape with ⟨final, ran, shown⟩
  rcases Prod.mk.inj shown with ⟨visibleItems, shown⟩
  rcases Prod.mk.inj shown with ⟨selectedItem, levels⟩
  rcases visibleItems_preorder ran with ⟨tree, distinct, selected⟩
  exact ⟨final, tree, visibleItems, selectedItem, levels, distinct, selected⟩

/-- The same holds of every later root: whatever was expanded before it is initialized, and
whatever fetch for an item of an earlier tree still ends, the visible items are the preorder
of its expanded tree. -/
theorem initializeRoot_preorder {maxCachedPages : ℤ} {earlier later : List Action}
    {operationId : String} {rootNode : TreeNodeData}
    (ran : (new maxCachedPages).run (earlier ++ .initializeRoot operationId rootNode :: later)
      = some projection) :
    projection.IsTree ∧ projection.visibleItems.Nodup
      ∧ ∀ item ∈ projection.selectedItem, item ∈ projection.visibleItems := by
  rw [run_append] at ran
  rcases Option.bind_eq_some_iff.mp ran with ⟨before, ranEarlier, ranLater⟩
  have consistent := (consistent_new maxCachedPages).run ranEarlier
  have first := consistent.initializeRootAsync operationId rootNode True
  have rest : projection.Consistent True := first.run ranLater
  exact rest.preorder

/-- The root of a second scan arrives while the first root waits for its children, which come
afterwards. -/
theorem initializeRoot_preorder_again : ∃ final : FlattenedTreeProjection, final.IsTree
    ∧ final.visibleItems = [1, 2, 3] ∧ final.selectedItem = some 1
      ∧ final.visibleItems.Nodup ∧ ∀ item ∈ final.selectedItem, item ∈ final.visibleItems := by
  have shape : ((new 1).run ([.initializeRoot "scan-1" Sample.root, .expand 0]
      ++ .initializeRoot "scan-2" Sample.root
        :: [.expand 1, .complete 0 (.page Sample.rootPage), .complete 0 (.page Sample.rootPage)])).map
      (fun final => (final.visibleItems, final.selectedItem)) = some ([1, 2, 3], some 1) := by
    decide +kernel
  rcases Option.map_eq_some_iff.mp shape with ⟨final, ran, shown⟩
  rcases Prod.mk.inj shown with ⟨visibleItems, selectedItem⟩
  rcases initializeRoot_preorder ran with ⟨tree, distinct, selected⟩
  exact ⟨final, tree, visibleItems, selectedItem, distinct, selected⟩

end PigTree.Client.FlattenedTreeProjection
