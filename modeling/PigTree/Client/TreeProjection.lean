import PigTree.Client.BoundedPageCache

/-!
# The tree projection

`FlattenedTreeProjection` shows a tree as a flat list of items. Items are objects that
refer to each other, so they live in a heap; a reference is the number under which the
object was created. Expanding an item may wait for a page; what
follows the wait is a step of its own, and other operations happen in between. An exception
and a cancellation end an operation after its `finally` block; what the error reporter
is told is kept.
-/

namespace PigTree.Client

open Foundation

/-- The fields of a node that the projection reads. -/
structure TreeNodeData where
  id : UInt32
  name : String
  entryKind : UInt32
  hasChildren : Bool
deriving DecidableEq, Repr

structure TreeItemViewModel where
  id : UInt32
  name : String
  entryKind : UInt32
  hasChildren : Bool
  level : ℕ
  parentItem : Option ℕ
  children : List ℕ
  isExpanded : Bool
  isLoading : Bool
  isSelected : Bool
deriving DecidableEq, Repr

namespace TreeItemViewModel

def new (data : TreeNodeData) (level : ℕ) (parentItem : Option ℕ) : TreeItemViewModel where
  id := data.id
  name := data.name
  entryKind := data.entryKind
  hasChildren := data.hasChildren
  level := level
  parentItem := parentItem
  children := []
  isExpanded := false
  isLoading := false
  isSelected := false

def isDirectory (item : TreeItemViewModel) : Bool := item.entryKind = 1

end TreeItemViewModel

/-- Who waits for an expansion, and so handles its exception. -/
inductive Caller where
  | expand
  | toggleExpand
  | navigateRight
deriving DecidableEq, Repr

/-- An expansion that waits for its page. -/
structure Expansion where
  item : ℕ
  operationId : String
  caller : Caller
deriving DecidableEq, Repr

/-- How a fetch ends. -/
inductive Fetched where
  | page (result : PagedChildrenResult TreeNodeData)
  | cancelled
  | failed (message : String)

structure FlattenedTreeProjection where
  currentOperationId : String
  cache : BoundedPageCache TreeNodeData
  visibleItems : List ℕ
  selectedItem : Option ℕ
  /-- The objects, and how many have been created. -/
  items : ℕ → TreeItemViewModel
  allocated : ℕ
  pending : List Expansion
  reports : List String

namespace FlattenedTreeProjection

variable (projection : FlattenedTreeProjection)

def new (maxCachedPages : ℤ) : FlattenedTreeProjection where
  currentOperationId := ""
  cache := BoundedPageCache.new maxCachedPages
  visibleItems := []
  selectedItem := none
  items := fun _ => TreeItemViewModel.new { id := 0, name := "", entryKind := 0, hasChildren := false } 0 none
  allocated := 0
  pending := []
  reports := []

def modifyItem (item : ℕ) (update : TreeItemViewModel → TreeItemViewModel) :
    FlattenedTreeProjection :=
  { projection with
    items := Function.update projection.items item (update (projection.items item)) }

/-- A new object. -/
def create (item : TreeItemViewModel) : FlattenedTreeProjection :=
  { projection with
    items := Function.update projection.items projection.allocated item
    allocated := projection.allocated + 1 }

def report (message : String) : FlattenedTreeProjection :=
  { projection with reports := projection.reports ++ [message] }

/-! ### The selection -/

def mark (item : Option ℕ) (isSelected : Bool) : FlattenedTreeProjection :=
  match item with
  | some item => projection.modifyItem item ({ · with isSelected })
  | none => projection

/-- The assignment of an equal value ends the setter after the old item is unmarked. -/
def setSelectedItem (value : Option ℕ) : FlattenedTreeProjection :=
  let unmarked := projection.mark projection.selectedItem false
  if projection.selectedItem = value then unmarked
  else { unmarked.mark value true with selectedItem := value }

def selectedIndex : ℤ :=
  match projection.selectedItem with
  | some item => match projection.visibleItems.idxOf? item with
    | some index => index
    | none => -1
  | none => -1

def setSelectedIndex (value : ℤ) : FlattenedTreeProjection :=
  if 0 ≤ value ∧ value < projection.visibleItems.length then
    projection.setSelectedItem projection.visibleItems[value.toNat]?
  else projection.setSelectedItem none

/-! ### The root -/

def initializeRootAsync (operationId : String) (rootNode : TreeNodeData) :
    FlattenedTreeProjection :=
  let rootVm := projection.allocated
  let created := projection.create (TreeItemViewModel.new rootNode 0 none)
  { created with
    currentOperationId := operationId
    cache := projection.cache.clear
    visibleItems := [rootVm] }.setSelectedItem (some rootVm)

/-! ### Expansion -/

/-- The items of a page become children of an item and appear after it. -/
def addChildren (item : ℕ) :
    ℕ → List TreeNodeData → FlattenedTreeProjection → FlattenedTreeProjection
  | _, [], projection => projection
  | insertIndex, node :: nodes, projection =>
      let childVm := projection.allocated
      let level := (projection.items item).level + 1
      let created := projection.create (TreeItemViewModel.new node level (some item))
      let linked := created.modifyItem item fun vm => { vm with children := vm.children ++ [childVm] }
      addChildren item (insertIndex + 1) nodes
        { linked with visibleItems := linked.visibleItems.insertIdx insertIndex childVm }

/-- The page of an expansion is shown if its item is still visible. -/
def showPage (item : ℕ) (page : PagedChildrenResult TreeNodeData) :
    FlattenedTreeProjection :=
  match projection.visibleItems.idxOf? item with
  | some index =>
      let cleared := projection.modifyItem item ({ · with children := [] })
      (addChildren item (index + 1) page.nodes cleared).modifyItem item
        ({ · with isExpanded := true })
  | none => projection

/-- The `finally` block of an expansion. -/
def endLoading (item : ℕ) : FlattenedTreeProjection :=
  projection.modifyItem item ({ · with isLoading := false })

/-- An exception is reported by the expansion and by the operation that waits for it. -/
def fail (item : ℕ) (caller : Caller) (message : String) : FlattenedTreeProjection :=
  let name := (projection.items item).name
  let reported := (projection.report s!"Failed to expand '{name}': {message}").endLoading item
  match caller with
  | .expand => reported
  | .toggleExpand => reported.report s!"Failed to toggle '{name}': {message}"
  | .navigateRight => reported.report s!"Failed to navigate right: {message}"

def messageOf : Fault → String
  | .expectFailed message => message
  | .assertionFailed message => message
  | .indexOutOfBounds | .missingKey | .outOfFuel => ""

def expandAsync (item : ℕ) (caller : Caller) : FlattenedTreeProjection :=
  let vm := projection.items item
  if !vm.hasChildren || vm.isExpanded || vm.isLoading then projection
  else
    let loading := projection.modifyItem item ({ · with isLoading := true })
    match projection.cache.tryGetPage projection.currentOperationId vm.id 0 with
    | .error fault => loading.fail item caller (messageOf fault)
    | .ok (cache, some page) => ({ loading with cache }.showPage item page).endLoading item
    | .ok (cache, none) =>
        { loading with
          cache
          pending := projection.pending ++
            [{ item, operationId := projection.currentOperationId, caller }] }

/-- What follows the wait of an expansion. -/
def resume (expansion : Expansion) : Fetched → FlattenedTreeProjection
  | .page page =>
      match projection.cache.putPage page with
      | .ok cache =>
          ({ projection with cache }.showPage expansion.item page).endLoading expansion.item
      | .error fault => projection.fail expansion.item expansion.caller (messageOf fault)
  | .cancelled => projection.endLoading expansion.item
  | .failed message => projection.fail expansion.item expansion.caller message

/-! ### Collapse -/

/-- Remove the leading items that are deeper than a level; whether the selected one is
among them. -/
def removeDeeper (items : ℕ → TreeItemViewModel) (level : ℕ) (selected : Option ℕ) :
    List ℕ → Bool × List ℕ
  | [] => (false, [])
  | candidate :: rest =>
      if (items candidate).level > level then
        let (selectionRemoved, rest) := removeDeeper items level selected rest
        (selected = some candidate || selectionRemoved, rest)
      else (false, candidate :: rest)

def collapse (item : ℕ) : FlattenedTreeProjection :=
  if !(projection.items item).isExpanded then projection
  else
    match projection.visibleItems.idxOf? item with
    | none => projection
    | some index =>
        let (selectionRemoved, rest) := removeDeeper projection.items
          (projection.items item).level projection.selectedItem
          (projection.visibleItems.drop (index + 1))
        let collapsed :=
          { projection with visibleItems := projection.visibleItems.take (index + 1) ++ rest }.modifyItem
            item ({ · with isExpanded := false })
        if selectionRemoved then collapsed.setSelectedItem (some item) else collapsed

def toggleExpandAsync (item : Option ℕ) : FlattenedTreeProjection :=
  match item.or projection.selectedItem with
  | none => projection
  | some target =>
      if !(projection.items target).isDirectory then projection
      else if (projection.items target).isExpanded then projection.collapse target
      else projection.expandAsync target .toggleExpand

/-! ### Navigation -/

def navigateUp : FlattenedTreeProjection :=
  let index := projection.selectedIndex
  if index > 0 then projection.setSelectedIndex (index - 1) else projection

def navigateDown : FlattenedTreeProjection :=
  let index := projection.selectedIndex
  if index ≥ 0 ∧ index < (projection.visibleItems.length : ℤ) - 1 then
    projection.setSelectedIndex (index + 1)
  else projection

def navigateRightAsync : FlattenedTreeProjection :=
  match projection.selectedItem with
  | none => projection
  | some item =>
      let vm := projection.items item
      if vm.hasChildren && !vm.isExpanded then projection.expandAsync item .navigateRight
      else if vm.isExpanded then
        let index := projection.selectedIndex
        match projection.visibleItems[(index + 1).toNat]? with
        | some next =>
            if index ≥ 0 ∧ (projection.items next).parentItem = some item then
              projection.setSelectedIndex (index + 1)
            else projection
        | none => projection
      else projection

def navigateLeft : FlattenedTreeProjection :=
  match projection.selectedItem with
  | none => projection
  | some item =>
      if (projection.items item).isExpanded then projection.collapse item
      else
        match (projection.items item).parentItem with
        | some parentItem => projection.setSelectedItem (some parentItem)
        | none => projection

def navigateHome : FlattenedTreeProjection :=
  if projection.visibleItems.length > 0 then projection.setSelectedIndex 0 else projection

def navigateEnd : FlattenedTreeProjection :=
  if projection.visibleItems.length > 0 then
    projection.setSelectedIndex ((projection.visibleItems.length : ℤ) - 1)
  else projection

/-- Sums and differences of `int`. -/
def int32 (value : ℤ) : ℤ := value.bmod (2 ^ 32)

/-- The index that `NavigatePageUp` selects. -/
def pageUpIndex (count : Int32) : ℤ := max 0 (int32 (projection.selectedIndex - count.toInt))

/-- The index that `NavigatePageDown` selects. -/
def pageDownIndex (count : Int32) : ℤ :=
  min ((projection.visibleItems.length : ℤ) - 1) (int32 (projection.selectedIndex + count.toInt))

def navigatePageUp (count : Int32) : FlattenedTreeProjection :=
  projection.setSelectedIndex (projection.pageUpIndex count)

def navigatePageDown (count : Int32) : FlattenedTreeProjection :=
  projection.setSelectedIndex (projection.pageDownIndex count)

/-! ### Runs -/

inductive Action where
  | initializeRoot (operationId : String) (rootNode : TreeNodeData)
  | expand (item : ℕ)
  | collapse (item : ℕ)
  | toggleExpand (item : Option ℕ)
  | navigateUp
  | navigateDown
  | navigateRight
  | navigateLeft
  | navigateHome
  | navigateEnd
  | navigatePageUp (count : Int32)
  | navigatePageDown (count : Int32)
  /-- An assignment to `SelectedItem`, of a visible item or of `null`. -/
  | select (item : Option ℕ)
  /-- The fetch of a waiting expansion ends. -/
  | complete (index : ℕ) (fetched : Fetched)

/-- Operations take items that exist; what is awaited is pending. -/
def step : Action → Option FlattenedTreeProjection
  | .initializeRoot operationId rootNode =>
      some (projection.initializeRootAsync operationId rootNode)
  | .expand item =>
      if item < projection.allocated then some (projection.expandAsync item .expand) else none
  | .collapse item =>
      if item < projection.allocated then some (projection.collapse item) else none
  | .toggleExpand item =>
      if ∀ given ∈ item, given < projection.allocated then
        some (projection.toggleExpandAsync item)
      else none
  | .navigateUp => some projection.navigateUp
  | .navigateDown => some projection.navigateDown
  | .navigateRight => some projection.navigateRightAsync
  | .navigateLeft => some projection.navigateLeft
  | .navigateHome => some projection.navigateHome
  | .navigateEnd => some projection.navigateEnd
  | .navigatePageUp count => some (projection.navigatePageUp count)
  | .navigatePageDown count => some (projection.navigatePageDown count)
  | .select item =>
      if ∀ given ∈ item, given ∈ projection.visibleItems then
        some (projection.setSelectedItem item)
      else none
  | .complete index fetched =>
      match projection.pending[index]? with
      | some expansion =>
          some ({ projection with pending := projection.pending.eraseIdx index }.resume
            expansion fetched)
      | none => none

/-- Actions in sequence. -/
def run (projection : FlattenedTreeProjection) : List Action → Option FlattenedTreeProjection
  | [] => some projection
  | action :: actions => do
      let next ← projection.step action
      next.run actions

end FlattenedTreeProjection

end PigTree.Client
