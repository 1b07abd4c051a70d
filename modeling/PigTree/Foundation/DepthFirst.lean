import PigTree.Foundation.ParentTree

/-!
# An explicit stack that walks a tree in postorder

A frame holds a node and those of its children that have not been entered. The
finished nodes followed by what the frames still owe are the postorder of the
tree; entering a child and leaving a node keep this equation, so a walk that has
emptied its stack has finished the postorder.
-/

namespace Foundation

namespace ParentTree

/-- A node being visited, with its children that have not been entered. -/
abbrev Frame : Type := ℕ × List ℕ

/-- The nodes the frames have still to finish, in order; the innermost frame comes first. -/
def pending (tree : ParentTree) (frames : List Frame) : List ℕ :=
  frames.flatMap (fun frame => frame.2.flatMap tree.postorder ++ [frame.1])

/-- The nodes lead from the innermost one up to the root. -/
def IsPath (tree : ParentTree) : List ℕ → Prop
  | [] => True
  | [bottom] => bottom = 0
  | top :: next :: rest => 0 < top ∧ tree.parent top = next ∧ tree.IsPath (next :: rest)

/-- A walk that has finished `done` and is inside `frames`. -/
structure Walk (tree : ParentTree) (frames : List Frame) (done : List ℕ) : Prop where
  order : done ++ tree.pending frames = tree.postorder 0
  path : tree.IsPath (frames.map Prod.fst)
  size_pos : 0 < tree.size

namespace Walk

variable {tree : ParentTree} {frames below : List Frame} {done rest : List ℕ} {node child : ℕ}

theorem start (positive : 0 < tree.size) : tree.Walk [(0, tree.children 0)] [] where
  order := by
    rw [postorder_eq tree 0]
    simp [pending]
  path := rfl
  size_pos := positive

theorem nodup (walk : tree.Walk frames done) : (done ++ tree.pending frames).Nodup := by
  rw [walk.order]
  exact nodup_postorder walk.size_pos

theorem mem_pending_of_mem_frames (mem : node ∈ frames.map Prod.fst) :
    node ∈ tree.pending frames := by
  rcases List.mem_map.mp mem with ⟨frame, frameMem, rfl⟩
  exact List.mem_flatMap.mpr ⟨frame, frameMem, by simp⟩

theorem inside_of_mem_pending (walk : tree.Walk frames done) (mem : node ∈ tree.pending frames) :
    node < tree.size := by
  have inOrder : node ∈ tree.postorder 0 := by
    rw [← walk.order]
    exact List.mem_append_right _ mem
  exact ((mem_postorder walk.size_pos).mp inOrder).1

theorem notMem_done (walk : tree.Walk frames done) (mem : node ∈ tree.pending frames) :
    node ∉ done :=
  fun nodeDone => List.disjoint_of_nodup_append walk.nodup nodeDone mem

/-- The innermost node is open. -/
theorem top_open (walk : tree.Walk ((node, rest) :: below) done) :
    node < tree.size ∧ node ∉ done := by
  have mem : node ∈ tree.pending ((node, rest) :: below) := mem_pending_of_mem_frames (by simp)
  exact ⟨walk.inside_of_mem_pending mem, walk.notMem_done mem⟩

/-- The next child of the innermost node is new, and its frame can be entered. -/
theorem enter (walk : tree.Walk ((node, child :: rest) :: below) done)
    (isChild : child ∈ tree.children node) :
    child ∉ done ∧ child ∉ ((node, child :: rest) :: below).map Prod.fst ∧
      tree.Walk ((child, tree.children child) :: (node, rest) :: below) done := by
  have owed : tree.pending ((node, child :: rest) :: below) =
      tree.pending ((child, tree.children child) :: (node, rest) :: below) := by
    simp [pending, postorder_eq tree child]
  have split : tree.pending ((node, child :: rest) :: below) =
      ((tree.children child).flatMap tree.postorder ++ [child]) ++
        tree.pending ((node, rest) :: below) := by
    rw [owed]
    simp [pending]
  have childMem : child ∈ tree.pending ((node, child :: rest) :: below) := by simp [split]
  refine ⟨walk.notMem_done childMem, ?_, ?_⟩
  · intro mem
    have nodup := List.Nodup.of_append_right walk.nodup
    rw [split] at nodup
    have inBelow : child ∈ tree.pending ((node, rest) :: below) :=
      mem_pending_of_mem_frames (by simpa using mem)
    exact List.disjoint_of_nodup_append nodup (by simp) inBelow
  · exact {
      order := owed ▸ walk.order
      path := ⟨(mem_children.mp isChild).2.1, (mem_children.mp isChild).2.2, walk.path⟩
      size_pos := walk.size_pos }

/-- The innermost node is the next one in postorder. -/
theorem next_eq (walk : tree.Walk ((node, []) :: below) done) :
    tree.postorder 0 = done ++ node :: tree.pending below := by
  rw [← walk.order]
  simp [pending]

/-- Leaving a node whose children have all been entered finishes it. -/
theorem leave (walk : tree.Walk ((node, []) :: below) done) :
    tree.Walk below (done ++ [node]) where
  order := by
    rw [walk.next_eq]
    simp
  path := by
    have path := walk.path
    cases below with
    | nil => trivial
    | cons frame below => exact path.2.2
  size_pos := walk.size_pos

/-- The frame below the innermost one belongs to its parent. -/
theorem parent_below {parent : ℕ} {siblings : List ℕ}
    (walk : tree.Walk ((node, rest) :: (parent, siblings) :: below) done) :
    0 < node ∧ tree.parent node = parent := ⟨walk.path.1, walk.path.2.1⟩

theorem finished (walk : tree.Walk [] done) : done = tree.postorder 0 := by
  simpa [pending] using walk.order

/-- How many steps the walk has still to make. -/
def steps (tree : ParentTree) (frames : List Frame) : ℕ :=
  2 * (tree.pending frames).length - frames.length

theorem steps_eq (walk : tree.Walk frames done) :
    steps tree frames = 2 * (tree.size - done.length) - frames.length := by
  have lengths := congrArg List.length walk.order
  rw [List.length_append, length_postorder walk.size_pos] at lengths
  rw [steps]
  omega

theorem length_le_pending (tree : ParentTree) (frames : List Frame) :
    frames.length ≤ (tree.pending frames).length := by
  induction frames with
  | nil => simp
  | cons frame frames ih =>
      simp only [pending, List.flatMap_cons, List.length_append, List.length_cons] at ih ⊢
      omega

theorem steps_enter (node child : ℕ) (rest : List ℕ) (below : List Frame) :
    steps tree ((child, tree.children child) :: (node, rest) :: below) <
      steps tree ((node, child :: rest) :: below) := by
  have owed : tree.pending ((node, child :: rest) :: below) =
      tree.pending ((child, tree.children child) :: (node, rest) :: below) := by
    simp [pending, postorder_eq tree child]
  have short := length_le_pending tree ((child, tree.children child) :: (node, rest) :: below)
  rw [steps, steps, owed]
  simp only [List.length_cons] at short ⊢
  omega

theorem steps_leave (node : ℕ) (below : List Frame) :
    steps tree below < steps tree ((node, []) :: below) := by
  have short := length_le_pending tree below
  have owed : tree.pending ((node, []) :: below) = node :: tree.pending below := by simp [pending]
  rw [steps, steps, owed]
  simp only [List.length_cons]
  omega

end Walk

end ParentTree

end Foundation
