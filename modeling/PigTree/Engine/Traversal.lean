import PigTree.Foundation.DepthFirst
import PigTree.Foundation.OpenForest
import PigTree.Foundation.SharedWeight
import PigTree.Engine.Normalization

/-!
# Phase 2: the traversal

The explicit stack walks the tree of the snapshot in postorder, the union-find
forest answers the lowest open ancestor of a finished entry, and the corrections
it leaves account for every repeated object. No step of it aborts.
-/

namespace PigTree

open Foundation ParentTree

namespace GraphBuilder

/-! ### Find with path compression -/

/-- The vector of a union-find forest as a function. -/
def pointerOf (parent : List UInt32) (idx : ℕ) : ℕ :=
  (parent[idx]?).elim idx UInt32.toNat

theorem getAt_pointer {parent : List UInt32} {idx : ℕ} (inside : idx < parent.length) :
    ∃ word, getAt parent idx = .ok word ∧ word.toNat = pointerOf parent idx := by
  have found := List.getElem?_eq_getElem inside
  exact ⟨_, getAt_of_getElem? found, by simp [pointerOf, found]⟩

theorem pointerOf_set {parent : List UInt32} {idx value : ℕ} (inside : idx < parent.length)
    (small : value < 2 ^ 32) :
    pointerOf (parent.set idx (UInt32.ofNat value)) =
      Function.update (pointerOf parent) idx value := by
  funext other
  by_cases same : other = idx
  · subst same
    rw [Function.update_self, pointerOf, List.getElem?_set_self inside]
    exact UInt32.toNat_ofNat_of_lt' small
  · rw [Function.update_of_ne same, pointerOf, pointerOf, List.getElem?_set_ne (Ne.symm same)]

section Find

variable {tree : ParentTree} {done : List ℕ} {parent : List UInt32} {idx : ℕ}

/-- One pass of the first loop follows a pointer, or stops at an open node. -/
theorem findRootStep_spec (up : tree.PointsUp done (pointerOf parent))
    (length_eq : parent.length = tree.size) (inside : idx < tree.size) :
    (findRootStep parent idx = .ok none ∧ idx ∉ done) ∨
      (findRootStep parent idx = .ok (some (pointerOf parent idx)) ∧ idx ∈ done) := by
  rcases getAt_pointer (by omega : idx < parent.length) with ⟨word, read, value⟩
  by_cases stays : pointerOf parent idx = idx
  · left
    refine ⟨?_, up.notMem_done stays⟩
    rw [findRootStep, read, Checked.ok_bind, if_neg (by rw [value]; simp [stays])]
    rfl
  · right
    refine ⟨?_, up.mem_done inside stays⟩
    rw [findRootStep, read, Checked.ok_bind, if_pos (by rw [value]; exact stays), value]
    rfl

/-- The first loop ends at the lowest open ancestor. -/
theorem findRoot_ok (up : tree.PointsUp done (pointerOf parent))
    (length_eq : parent.length = tree.size) (inside : idx < tree.size) :
    ∃ root, whileSome (findRootStep parent) (parent.length + 1) idx = .ok root ∧
      root < tree.size ∧ tree.IsLowestOpen done root idx := by
  have pass : ∀ node, (node < tree.size ∧
        ∀ low, tree.IsLowestOpen done low node → tree.IsLowestOpen done low idx) →
      findRootStep parent node = .ok none ∨
        ∃ next, findRootStep parent node = .ok (some next) ∧
          (next < tree.size ∧
            ∀ low, tree.IsLowestOpen done low next → tree.IsLowestOpen done low idx) ∧
          next < node := by
    rintro node ⟨nodeInside, inherits⟩
    rcases findRootStep_spec up length_eq nodeInside with ⟨stops, _⟩ | ⟨follows, nodeDone⟩
    · exact Or.inl stops
    · have below := up.done_lt node nodeDone
      exact Or.inr ⟨_, follows, ⟨by omega, fun low low_is =>
        inherits low (low_is.of_follow up nodeDone)⟩, below⟩
  rcases whileSome_ok _ (fun node => node) pass ⟨inside, fun _ low_is => low_is⟩
    (by omega : idx < parent.length + 1) with ⟨root, ran, ⟨rootInside, inherits⟩, stopped⟩
  refine ⟨root, ran, rootInside, inherits root (IsLowestOpen.self ?_)⟩
  rcases findRootStep_spec up length_eq rootInside with ⟨_, rootOpen⟩ | ⟨follows, _⟩
  · exact rootOpen
  · rw [follows] at stopped
    cases stopped

/-- One pass of the second loop points a finished node at the root. -/
theorem compressStep_spec (up : tree.PointsUp done (pointerOf parent))
    (length_eq : parent.length = tree.size) (inside : idx < tree.size)
    (small : tree.size < 2 ^ 32) {root : ℕ} (low_is : tree.IsLowestOpen done root idx) :
    compressStep root (parent, idx) = .ok none ∨
      ∃ next, compressStep root (parent, idx) = .ok (some next) ∧
        (next.1.length = tree.size ∧ tree.PointsUp done (pointerOf next.1) ∧
          next.2 < tree.size ∧ tree.IsLowestOpen done root next.2) ∧ next.2 < idx := by
  by_cases atRoot : idx = root
  · left
    rw [compressStep, if_neg (by simpa using atRoot)]
    rfl
  · right
    rcases getAt_pointer (by omega : idx < parent.length) with ⟨word, read, value⟩
    have idxDone : idx ∈ done := by
      by_contra idxOpen
      exact atRoot (low_is.eq_of_open idxOpen).symm
    have rootSmall : root < 2 ^ 32 := low_is.above.le.trans_lt (by omega)
    have below := up.done_lt idx idxDone
    refine ⟨(parent.set idx (UInt32.ofNat root), word.toNat), ?_, ⟨?_, ?_, ?_, ?_⟩, ?_⟩
    · rw [compressStep, if_pos (by simpa using atRoot), read, Checked.ok_bind,
        setAt_of_lt (by simpa [length_eq] using inside), Checked.ok_bind]
      rfl
    · simpa using length_eq
    · rw [pointerOf_set (by omega) rootSmall]
      exact up.redirect idxDone low_is
    · rw [value]
      omega
    · rw [value]
      exact low_is.follow up idxDone
    · rw [value]
      exact below

/-- The second loop shortens the path and keeps the forest in form. -/
theorem compress_ok (up : tree.PointsUp done (pointerOf parent))
    (length_eq : parent.length = tree.size) (inside : idx < tree.size)
    (small : tree.size < 2 ^ 32) {root : ℕ} (low_is : tree.IsLowestOpen done root idx) :
    ∃ compressed, whileSome (compressStep root) (parent.length + 1) (parent, idx) = .ok compressed ∧
      compressed.1.length = tree.size ∧ tree.PointsUp done (pointerOf compressed.1) := by
  rcases whileSome_ok
    (fun state : List UInt32 × ℕ => state.1.length = tree.size ∧
      tree.PointsUp done (pointerOf state.1) ∧ state.2 < tree.size ∧
      tree.IsLowestOpen done root state.2)
    (fun state => state.2)
    (fun state holds => compressStep_spec holds.2.1 holds.1 holds.2.2.1 small holds.2.2.2)
    (⟨length_eq, up, inside, low_is⟩ : (parent, idx).1.length = tree.size ∧ _)
    (by simp only; omega : (parent, idx).2 < parent.length + 1)
    with ⟨final, ran, ⟨finalLength, finalUp, _, _⟩, _⟩
  exact ⟨final, ran, finalLength, finalUp⟩

/-- Find answers the lowest open ancestor and keeps the forest in form. -/
theorem findUf_ok (up : tree.PointsUp done (pointerOf parent))
    (length_eq : parent.length = tree.size) (inside : idx < tree.size)
    (small : tree.size < 2 ^ 32) :
    ∃ root compressed, findUf parent idx = .ok (root, compressed) ∧ root < tree.size ∧
      tree.IsLowestOpen done root idx ∧ compressed.length = tree.size ∧
      tree.PointsUp done (pointerOf compressed) := by
  rcases findRoot_ok up length_eq inside with ⟨root, rooted, rootInside, low_is⟩
  rcases compress_ok up length_eq inside small low_is with
    ⟨compressed, ran, compressedLength, compressedUp⟩
  refine ⟨root, compressed.1, ?_, rootInside, low_is, compressedLength, compressedUp⟩
  rw [findUf, rooted, Checked.ok_bind, ran]
  rfl

end Find

/-! ### The books the traversal keeps -/

/-- The shared object of the entry at a position, if its weight has to be
subtracted where it repeats. -/
def shareGroup (entries : List CompactEntry) (objects : List ObjectRecord) (idx : ℕ) : Option ℕ :=
  (entries[idx]?).bind fun compact =>
    if compact.kind = .file ∧ compact.objectIndex ≠ noObject then
      (objects[compact.objectIndex.toNat]?).bind fun obj =>
        if 0 < obj.weight then some compact.objectIndex.toNat else none
    else none

def objectWeight (objects : List ObjectRecord) (owner : ℕ) : ℕ :=
  (objects[owner]?).elim 0 (fun obj => obj.weight.toNat)

def deltaOf (treeDelta : List ℤ) (idx : ℕ) : ℤ := (treeDelta[idx]?).getD 0

def lastOf (lastOccurrence : List (Option ℕ)) (owner : ℕ) : Option ℕ :=
  (lastOccurrence[owner]?).getD none

/-- The vectors of the traversal after it has finished `done`: representatives
are their own lowest common ancestors, and the corrections account for `done`. -/
structure Books (s : Snapshot) (entries : List CompactEntry) (objects : List ObjectRecord)
    (done : List ℕ) (t : Traversal) : Prop where
  uf_length : t.ufParent.length = s.entries.length
  ancestor_eq : t.ancestor = (List.range s.entries.length).map UInt32.ofNat
  delta_length : t.treeDelta.length = s.entries.length
  last_length : t.lastOccurrence.length = objects.length
  accounts : Accounts s.tree (shareGroup entries objects) (objectWeight objects) objects.length
    (2 ^ 64) done (deltaOf t.treeDelta) (lastOf t.lastOccurrence)

variable {s : Snapshot} {entries : List CompactEntry} {objects : List ObjectRecord}
  {done rest : List ℕ} {t : Traversal} {curr : ℕ}

theorem deltaOf_set {treeDelta : List ℤ} {idx : ℕ} (inside : idx < treeDelta.length) (value : ℤ) :
    deltaOf (treeDelta.set idx value) = Function.update (deltaOf treeDelta) idx value := by
  funext other
  by_cases same : other = idx
  · subst same
    simp [deltaOf, inside]
  · rw [Function.update_of_ne same, deltaOf, deltaOf, List.getElem?_set_ne (Ne.symm same)]

theorem lastOf_set {lastOccurrence : List (Option ℕ)} {owner : ℕ}
    (inside : owner < lastOccurrence.length) (value : Option ℕ) :
    lastOf (lastOccurrence.set owner value) =
      Function.update (lastOf lastOccurrence) owner value := by
  funext other
  by_cases same : other = owner
  · subst same
    simp [lastOf, inside]
  · rw [Function.update_of_ne same, lastOf, lastOf, List.getElem?_set_ne (Ne.symm same)]

namespace Books

theorem getAt_ancestor (books : Books s entries objects done t) {idx : ℕ}
    (inside : idx < s.entries.length) : getAt t.ancestor idx = .ok (UInt32.ofNat idx) := by
  apply getAt_of_getElem?
  rw [books.ancestor_eq, List.getElem?_map, List.getElem?_range inside]
  rfl

theorem set_ancestor (books : Books s entries objects done t) {idx : ℕ}
    (inside : idx < s.entries.length) :
    setAt t.ancestor idx (UInt32.ofNat idx) = .ok t.ancestor := by
  rw [setAt_of_lt (by simpa [books.ancestor_eq] using inside)]
  congr 1
  apply List.ext_getElem?
  intro other
  by_cases same : idx = other
  · subst same
    rw [List.getElem?_set_self (by simpa [books.ancestor_eq] using inside), books.ancestor_eq,
      List.getElem?_map, List.getElem?_range inside]
    rfl
  · rw [List.getElem?_set_ne same]

/-- Corrections stay far away from the bounds of a 128-bit number. -/
theorem subtraction_fits (books : Books s entries objects done t)
    (short : done.length < 2 ^ 32) (idx : ℕ) (weight : UInt64) :
    checkedI128 "delta subtraction underflow" (deltaOf t.treeDelta idx - weight.toNat) =
      .ok (deltaOf t.treeDelta idx - weight.toNat) := by
  have nonpos := books.accounts.delta_nonpos idx
  have lower := books.accounts.delta_lower idx
  have word := weight.toNat_lt
  have product : 2 ^ 64 * done.length ≤ 2 ^ 64 * 2 ^ 32 := Nat.mul_le_mul_left _ short.le
  unfold checkedI128
  rw [if_pos]
  constructor <;> omega

end Books

/-- The weight of a repeated object is subtracted at the lowest common ancestor
with its previous alias. -/
theorem subtractShared_ok (books : Books s entries objects done t)
    (up : s.tree.PointsUp done (pointerOf t.ufParent)) (small : s.entries.length < 2 ^ 32)
    (sizePos : 0 < s.tree.size) (split : s.tree.postorder 0 = done ++ curr :: rest) {prev : ℕ} (prevDone : prev ∈ done)
    (weight : UInt64) :
    ∃ low ufParent treeDelta,
      subtractShared t prev weight = .ok { t with ufParent, treeDelta } ∧
        s.tree.IsLca low prev curr ∧
        ufParent.length = s.entries.length ∧ s.tree.PointsUp done (pointerOf ufParent) ∧
        treeDelta.length = s.entries.length ∧
        deltaOf treeDelta = Function.update (deltaOf t.treeDelta) low
          (deltaOf t.treeDelta low - weight.toNat) := by
  have listed : ∀ node ∈ done ++ curr :: rest, node < s.entries.length := by
    intro node mem
    rw [← split] at mem
    exact ((mem_postorder sizePos).mp mem).1
  have prevInside := listed prev (List.mem_append_left _ prevDone)
  have currInside := listed curr (by simp)
  have doneShort : done.length < 2 ^ 32 := by
    have lengths := congrArg List.length split
    rw [length_postorder sizePos, List.length_append, List.length_cons] at lengths
    simp only [Snapshot.tree_size] at lengths
    omega
  rcases findUf_ok up books.uf_length prevInside small with
    ⟨low, compressed, found, lowInside, low_is, compressedLength, compressedUp⟩
  have lowInside' : low < s.entries.length := lowInside
  have word : (UInt32.ofNat low).toNat = low := UInt32.toNat_ofNat_of_lt' (by
    unfold UInt32.size
    omega)
  have lowDelta : low < t.treeDelta.length := by rw [books.delta_length]; exact lowInside
  have read : getAt t.treeDelta low = .ok (deltaOf t.treeDelta low) := by
    apply getAt_of_getElem?
    simp [deltaOf, lowDelta]
  refine ⟨low, compressed, t.treeDelta.set low (deltaOf t.treeDelta low - weight.toNat), ?_,
    isLca_of_lowest_open split currInside prevDone low_is.above low_is.isOpen low_is.lowest,
    compressedLength, compressedUp, by simpa using books.delta_length, deltaOf_set lowDelta _⟩
  simp only [subtractShared, found, Checked.ok_bind, books.getAt_ancestor lowInside, word, read,
    books.subtraction_fits doneShort, setAt_of_lt lowDelta, Checked.pure_eq_ok]

/-- What an entry is to the object table. -/
theorem shareGroup_cases (table : ObjectTable s entries objects) (inside : curr < s.entries.length) :
    ∃ compact, entries[curr]? = some compact ∧
      ((¬(compact.kind = .file ∧ compact.objectIndex ≠ noObject) ∧
          shareGroup entries objects curr = none) ∨
        ((compact.kind = .file ∧ compact.objectIndex ≠ noObject) ∧
          ∃ obj, objects[compact.objectIndex.toNat]? = some obj ∧
            ((¬0 < obj.weight ∧ shareGroup entries objects curr = none) ∨
              (0 < obj.weight ∧
                shareGroup entries objects curr = some compact.objectIndex.toNat)))) := by
  have stored : curr < entries.length := table.tagged.length_eq ▸ inside
  rcases exists_getElem? stored with ⟨compact, found⟩
  refine ⟨compact, found, ?_⟩
  by_cases owned : compact.kind = .file ∧ compact.objectIndex ≠ noObject
  · right
    have bound := table.bounded compact (List.mem_of_getElem? found) owned.2
    rcases exists_getElem? bound with ⟨obj, objFound⟩
    refine ⟨owned, obj, objFound, ?_⟩
    by_cases weighty : 0 < obj.weight
    · right
      refine ⟨weighty, ?_⟩
      simp [shareGroup, found, owned, objFound, weighty]
    · left
      refine ⟨weighty, ?_⟩
      simp [shareGroup, found, owned, objFound, weighty]
  · left
    refine ⟨owned, ?_⟩
    simp only [shareGroup, found, Option.bind_some]
    rw [if_neg owned]

/-- Before an entry is finished its object is noted, and a repeated weight is subtracted. -/
theorem noteOccurrence_ok (table : ObjectTable s entries objects)
    (books : Books s entries objects done t)
    (up : s.tree.PointsUp done (pointerOf t.ufParent)) (small : s.entries.length < 2 ^ 32)
    (sizePos : 0 < s.tree.size) (split : s.tree.postorder 0 = done ++ curr :: rest)
    (inside : curr < s.entries.length) :
    ∃ ufParent treeDelta lastOccurrence,
      noteOccurrence entries objects t curr =
        .ok { t with ufParent, treeDelta, lastOccurrence } ∧
      Books s entries objects (done ++ [curr])
        { t with ufParent, treeDelta, lastOccurrence } ∧
      s.tree.PointsUp done (pointerOf ufParent) := by
  rcases shareGroup_cases table inside with ⟨compact, found, plain | ⟨owned, obj, stored, light | heavy⟩⟩
  · refine ⟨t.ufParent, t.treeDelta, t.lastOccurrence, ?_, ?_, up⟩
    · rw [noteOccurrence, getAt_of_getElem? found, Checked.ok_bind, if_neg plain.1]
      rfl
    · exact { books with accounts := books.accounts.finish_plain plain.2 }
  · refine ⟨t.ufParent, t.treeDelta, t.lastOccurrence, ?_, ?_, up⟩
    · simp only [noteOccurrence, getAt_of_getElem? found, Checked.ok_bind, if_pos owned,
        getAt_of_getElem? stored, if_neg light.1, Checked.pure_eq_ok]
    · exact { books with accounts := books.accounts.finish_plain light.2 }
  · have bound := (List.getElem?_eq_some_iff.mp stored).1
    have lastBound : compact.objectIndex.toNat < t.lastOccurrence.length := by
      rw [books.last_length]
      exact bound
    have read : getAt t.lastOccurrence compact.objectIndex.toNat =
        .ok (lastOf t.lastOccurrence compact.objectIndex.toNat) := by
      apply getAt_of_getElem?
      simp [lastOf, lastBound]
    have weight : objectWeight objects compact.objectIndex.toNat = obj.weight.toNat := by
      simp [objectWeight, stored]
    cases seen : lastOf t.lastOccurrence compact.objectIndex.toNat with
    | none =>
        refine ⟨t.ufParent, t.treeDelta,
          t.lastOccurrence.set compact.objectIndex.toNat (some curr), ?_, ?_, up⟩
        · simp only [noteOccurrence, getAt_of_getElem? found, Checked.ok_bind, if_pos owned,
            getAt_of_getElem? stored, if_pos heavy.1, read, seen, subtractPrevious,
            setAt_of_lt lastBound, Checked.pure_eq_ok]
        · exact {
            uf_length := books.uf_length
            ancestor_eq := books.ancestor_eq
            delta_length := books.delta_length
            last_length := by simpa using books.last_length
            accounts := by
              simp only [lastOf_set lastBound]
              exact books.accounts.finish_first bound heavy.2 seen }
    | some prev =>
        have prevDone := (books.accounts.last_mem bound seen).1
        rcases subtractShared_ok books up small sizePos split prevDone obj.weight with
          ⟨low, ufParent, treeDelta, subtracted, lca, ufLength, ufUp, deltaLength, deltaEq⟩
        refine ⟨ufParent, treeDelta,
          t.lastOccurrence.set compact.objectIndex.toNat (some curr), ?_, ?_, ufUp⟩
        · simp only [noteOccurrence, getAt_of_getElem? found, Checked.ok_bind, if_pos owned,
            getAt_of_getElem? stored, if_pos heavy.1, read, seen, subtractPrevious, subtracted,
            setAt_of_lt lastBound, Checked.pure_eq_ok]
        · exact {
            uf_length := ufLength
            ancestor_eq := books.ancestor_eq
            delta_length := deltaLength
            last_length := by simpa using books.last_length
            accounts := by
              simp only [lastOf_set lastBound, deltaEq, ← weight]
              refine books.accounts.finish_again split inside bound heavy.2 seen lca ?_
              rw [weight]
              exact obj.weight.toNat_lt.le }

/-- A finished entry other than the root is united with its parent, which is
its own representative. -/
theorem mergeIntoParent_ok (books : Books s entries objects (done ++ [curr]) t)
    (up : s.tree.PointsUp done (pointerOf t.ufParent)) (small : s.entries.length < 2 ^ 32)
    {parent : ℕ} {word : UInt32} {below : List (ℕ × UInt32)}
    (stack : t.stack = (parent, word) :: below) (parentOpen : parent ∉ done)
    (parentInside : parent < s.entries.length) (currOpen : curr ∉ done)
    (currInside : curr < s.entries.length) (positive : 0 < curr)
    (owner : s.tree.parent curr = parent) :
    ∃ ufParent, mergeIntoParent t curr = .ok { t with ufParent } ∧
      Books s entries objects (done ++ [curr]) { t with ufParent } ∧
      s.tree.PointsUp (done ++ [curr]) (pointerOf ufParent) := by
  rcases findUf_ok up books.uf_length parentInside small with
    ⟨rootP, first, foundParent, _, parentLow, firstLength, firstUp⟩
  rcases findUf_ok firstUp firstLength currInside small with
    ⟨rootC, second, foundCurr, _, currLow, secondLength, secondUp⟩
  have atParent := parentLow.eq_of_open parentOpen
  have atCurr := currLow.eq_of_open currOpen
  subst atParent
  subst atCurr
  have currSecond : rootC < second.length := by rw [secondLength]; exact currInside
  refine ⟨second.set rootC (UInt32.ofNat rootP), ?_, ?_, ?_⟩
  · simp only [mergeIntoParent, stack, foundParent, foundCurr, Checked.ok_bind,
      setAt_of_lt currSecond, books.set_ancestor parentInside, Checked.pure_eq_ok]
  · exact { books with uf_length := by simpa using secondLength }
  · rw [pointerOf_set currSecond (by omega), ← owner]
    exact secondUp.close positive

/-! ### The walk -/

variable {builder : GraphBuilder}

/-- A slot of the stack is a frame of the walk. -/
def Slot (builder : GraphBuilder) (s : Snapshot) (slot : ℕ × UInt32) (frame : ParentTree.Frame) :
    Prop :=
  slot.1 = frame.1 ∧ ChainFrom u32Max builder.nextSibling slot.2 frame.2 ∧
    ∀ child ∈ frame.2, child ∈ s.tree.children frame.1

/-- The state of the traversal while it is inside `frames`. -/
structure Traversing (builder : GraphBuilder) (s : Snapshot) (entries : List CompactEntry)
    (objects : List ObjectRecord) (frames : List ParentTree.Frame) (t : Traversal) : Prop where
  walk : s.tree.Walk frames t.postOrder
  stack : List.Forall₂ (Slot builder s) t.stack frames
  visited_length : t.visited.length = s.entries.length
  visited : ∀ idx < s.entries.length,
    t.visited[idx]? = some (decide (idx ∈ t.postOrder ∨ idx ∈ frames.map Prod.fst))
  books : Books s entries objects t.postOrder t
  forest : frames ≠ [] → s.tree.PointsUp t.postOrder (pointerOf t.ufParent)

section Step

variable {frames : List ParentTree.Frame}

theorem Core.chain_children (core : Core builder s.entries) (small : s.entries.length < 2 ^ 32)
    {idx : ℕ} (inside : idx < s.entries.length) :
    ∃ start, builder.firstChild[idx]? = some start ∧
      ChainFrom u32Max builder.nextSibling start (s.tree.children idx) :=
  (core.threads small).chain idx inside

/-- Entering the next child of the innermost entry. -/
theorem Traversing.enter (core : Core builder s.entries) (small : s.entries.length < 2 ^ 32)
    {node child : ℕ} {remaining : List ℕ} {below : List ParentTree.Frame}
    (traversing : Traversing builder s entries objects ((node, child :: remaining) :: below) t) :
    ∃ next, builder.traverseStep entries objects t = .ok (some next) ∧
      Traversing builder s entries objects
        ((child, s.tree.children child) :: (node, remaining) :: below) next := by
  have stack := traversing.stack
  generalize stackEq : t.stack = slots at stack
  cases stack with
  | @cons slot _ slots _ head tail =>
      rcases slot with ⟨curr, word⟩
      rcases head with ⟨same, chain, children⟩
      simp only at same chain children
      subst same
      rcases chain with ⟨running, named, after, link, rest⟩
      have childMem := children child List.mem_cons_self
      have childInside : child < s.entries.length := (mem_children.mp childMem).1
      rcases traversing.walk.enter childMem with ⟨childOpen, childNew, walk⟩
      rcases core.chain_children small childInside with ⟨first, firstFound, firstChain⟩
      have unseen : getAt t.visited child = .ok false := by
        apply getAt_of_getElem?
        rw [traversing.visited child childInside]
        simp only [childOpen, childNew, or_self, decide_false]
      have visitedBound : child < t.visited.length := by
        rw [traversing.visited_length]
        exact childInside
      refine ⟨{ t with
        visited := t.visited.set child true
        stack := (child, first) :: (curr, after) :: slots }, ?_, ?_⟩
      · simp only [traverseStep, stackEq, if_pos running, named, getAt_of_getElem? link,
          Checked.ok_bind, unseen, Bool.false_eq_true, if_false, setAt_of_lt visitedBound,
          getAt_of_getElem? firstFound, Checked.pure_eq_ok]
      · exact {
          walk := walk
          stack := by
            refine List.Forall₂.cons ⟨rfl, firstChain, fun _ mem => mem⟩ ?_
            refine List.Forall₂.cons ⟨rfl, rest, ?_⟩ tail
            exact fun other mem => children other (List.mem_cons_of_mem _ mem)
          visited_length := by simpa using traversing.visited_length
          visited := by
            intro idx inside
            by_cases isChild : child = idx
            · subst isChild
              rw [List.getElem?_set_self visitedBound]
              simp
            · rw [List.getElem?_set_ne isChild, traversing.visited idx inside]
              have notChild : ¬idx = child := fun equal => isChild equal.symm
              simp only [List.map_cons, List.mem_cons, notChild, false_or]
          books := { traversing.books with }
          forest := fun _ => traversing.forest (by simp) }

/-- Finishing the innermost entry. -/
theorem Traversing.leave (table : ObjectTable s entries objects)
    (small : s.entries.length < 2 ^ 32) {node : ℕ} {below : List ParentTree.Frame}
    (traversing : Traversing builder s entries objects ((node, []) :: below) t) :
    ∃ next, builder.traverseStep entries objects t = .ok (some next) ∧
      Traversing builder s entries objects below next := by
  have stack := traversing.stack
  generalize stackEq : t.stack = slots at stack
  cases stack with
  | @cons slot _ slots _ head tail =>
      rcases slot with ⟨curr, word⟩
      rcases head with ⟨same, chain, _⟩
      simp only at same chain
      subst same
      have ended : word = u32Max := chain
      have walk := traversing.walk
      rcases walk.top_open with ⟨inside, currOpen⟩
      have books : Books s entries objects t.postOrder { t with stack := slots } :=
        { traversing.books with }
      rcases noteOccurrence_ok table books (traversing.forest (by simp)) small walk.size_pos
        walk.next_eq inside with ⟨ufParent, treeDelta, lastOccurrence, noted, notedBooks, notedUp⟩
      have visited : ∀ idx < s.entries.length, t.visited[idx]? =
          some (decide (idx ∈ t.postOrder ++ [curr] ∨ idx ∈ below.map Prod.fst)) := by
        intro idx idxInside
        rw [traversing.visited idx idxInside]
        simp only [List.map_cons, List.mem_cons, List.mem_append, List.not_mem_nil, or_false]
        congr 2
        exact propext (by rw [or_assoc])
      cases below with
      | nil =>
          have noSlots : slots = [] := List.forall₂_nil_right_iff.mp tail
          subst noSlots
          refine ⟨{ t with
            stack := []
            ufParent, treeDelta, lastOccurrence
            postOrder := t.postOrder ++ [curr] }, ?_, ?_⟩
          · simp only [traverseStep, stackEq, ended, ne_eq, not_true_eq_false, if_false,
              finishEntry, noted, mergeIntoParent, Checked.ok_bind, Checked.pure_eq_ok]
          · exact {
              walk := walk.leave
              stack := List.Forall₂.nil
              visited_length := traversing.visited_length
              visited := visited
              books := { notedBooks with }
              forest := fun nonempty => absurd rfl nonempty }
      | cons frame below =>
          rcases frame with ⟨parent, siblings⟩
          cases tail with
          | @cons parentSlot _ slots _ parentHead parentTail =>
              rcases parentSlot with ⟨parentIdx, parentWord⟩
              rcases parentHead with ⟨sameParent, parentChain, parentChildren⟩
              simp only at sameParent parentChain parentChildren
              subst sameParent
              have leave := walk.leave
              have parentTop := leave.top_open
              have owner := walk.parent_below
              rcases mergeIntoParent_ok (t := { t with
                  stack := (parentIdx, parentWord) :: slots
                  ufParent, treeDelta, lastOccurrence
                  postOrder := t.postOrder ++ [curr] })
                { notedBooks with } notedUp small rfl
                (fun mem => parentTop.2 (List.mem_append_left _ mem)) parentTop.1 currOpen inside
                owner.1 owner.2 with ⟨mergedParent, merged, mergedBooks, mergedUp⟩
              refine ⟨{ t with
                stack := (parentIdx, parentWord) :: slots
                ufParent := mergedParent
                treeDelta, lastOccurrence
                postOrder := t.postOrder ++ [curr] }, ?_, ?_⟩
              · simp only [traverseStep, stackEq, ended, ne_eq, not_true_eq_false, if_false,
                  finishEntry, noted, merged, Checked.ok_bind, Checked.pure_eq_ok]
              · exact {
                  walk := leave
                  stack := List.Forall₂.cons ⟨rfl, parentChain, parentChildren⟩ parentTail
                  visited_length := traversing.visited_length
                  visited := visited
                  books := { mergedBooks with }
                  forest := fun _ => mergedUp }

/-- What one pass of the traversal loop can do. -/
theorem Traversing.step (core : Core builder s.entries) (table : ObjectTable s entries objects)
    (small : s.entries.length < 2 ^ 32)
    (traversing : Traversing builder s entries objects frames t) :
    (frames = [] ∧ builder.traverseStep entries objects t = .ok none) ∨
      ∃ next nextFrames, builder.traverseStep entries objects t = .ok (some next) ∧
        Traversing builder s entries objects nextFrames next ∧
        Walk.steps s.tree nextFrames < Walk.steps s.tree frames := by
  cases frames with
  | nil =>
      left
      have empty : t.stack = [] := List.forall₂_nil_right_iff.mp traversing.stack
      exact ⟨rfl, by rw [traverseStep, empty]⟩
  | cons frame below =>
      right
      rcases frame with ⟨node, remaining⟩
      cases remaining with
      | nil =>
          rcases traversing.leave table small with ⟨next, stepped, carried⟩
          exact ⟨next, below, stepped, carried, Walk.steps_leave node below⟩
      | cons child remaining =>
          rcases traversing.enter core small with ⟨next, stepped, carried⟩
          exact ⟨next, _, stepped, carried, Walk.steps_enter node child remaining below⟩

end Step

/-! ### Runs of the traversal -/

theorem Books.initial (small : s.entries.length < 2 ^ 32) :
    Books s entries objects [] (initialTraversal s.entries.length objects.length) := by
  have word : (UInt32.ofNat s.entries.length).toNat = s.entries.length :=
    UInt32.toNat_ofNat_of_lt' small
  have deltas : deltaOf (List.replicate s.entries.length 0) = fun _ => 0 := by
    funext idx
    by_cases inside : idx < s.entries.length
    · simp [deltaOf, inside]
    · simp [deltaOf]
  have lasts : lastOf (List.replicate objects.length none) = fun _ => none := by
    funext owner
    by_cases inside : owner < objects.length
    · simp [lastOf, inside]
    · simp [lastOf]
  exact {
    uf_length := by simp [initialTraversal, word]
    ancestor_eq := by simp [initialTraversal, word]
    delta_length := by simp [initialTraversal]
    last_length := by simp [initialTraversal]
    accounts := by
      simp only [initialTraversal, deltas, lasts]
      exact Accounts.initial s.tree _ _ objects.length (2 ^ 64) }

theorem Traversing.initial (small : s.entries.length < 2 ^ 32) (positive : 0 < s.entries.length)
    {first : UInt32}
    (chain : ChainFrom u32Max builder.nextSibling first (s.tree.children 0)) :
    Traversing builder s entries objects [(0, s.tree.children 0)]
      { initialTraversal s.entries.length objects.length with
        visited := (List.replicate s.entries.length false).set 0 true
        stack := [(0, first)] } where
  walk := Walk.start positive
  stack := List.Forall₂.cons ⟨rfl, chain, fun _ mem => mem⟩ List.Forall₂.nil
  visited_length := by simp
  visited := by
    intro idx inside
    by_cases atRoot : 0 = idx
    · subst atRoot
      rw [List.getElem?_set_self (by simpa using inside)]
      simp
    · have notRoot : ¬idx = 0 := fun equal => atRoot equal.symm
      rw [List.getElem?_set_ne atRoot]
      simp [inside, notRoot, initialTraversal]
  books := { Books.initial small with }
  forest := by
    intro _
    have word : (UInt32.ofNat s.entries.length).toNat = s.entries.length :=
      UInt32.toNat_ofNat_of_lt' small
    apply PointsUp.initial
    intro node inside
    simp only [Snapshot.tree_size] at inside
    simp only [initialTraversal, pointerOf, word, List.getElem?_map, List.getElem?_range inside,
      Option.map_some, Option.elim_some]
    exact UInt32.toNat_ofNat_of_lt' (by unfold UInt32.size; omega)

/-- The walk from the first entry finishes all entries in postorder. -/
theorem traverseFrom_ok (core : Core builder s.entries) (table : ObjectTable s entries objects)
    (small : s.entries.length < 2 ^ 32) (positive : 0 < s.entries.length) :
    ∃ t, builder.traverseFrom entries objects
        (initialTraversal entries.length objects.length) 0 = .ok t ∧
      t.postOrder = s.tree.postorder 0 ∧ Books s entries objects (s.tree.postorder 0) t := by
  have length_eq := table.tagged.length_eq
  rcases core.chain_children small positive with ⟨first, firstFound, chain⟩
  have start : Traversing builder s entries objects [(0, s.tree.children 0)]
      { initialTraversal s.entries.length objects.length with
        visited := (List.replicate s.entries.length false).set 0 true
        stack := [(0, first)] } := Traversing.initial small positive chain
  have pass : ∀ state : Traversal, (∃ frames, Traversing builder s entries objects frames state) →
      builder.traverseStep entries objects state = .ok none ∨
        ∃ next, builder.traverseStep entries objects state = .ok (some next) ∧
          (∃ frames, Traversing builder s entries objects frames next) ∧
          2 * (s.entries.length - next.postOrder.length) - next.stack.length <
            2 * (s.entries.length - state.postOrder.length) - state.stack.length := by
    rintro state ⟨frames, traversing⟩
    rcases traversing.step core table small with ⟨_, stopped⟩ | ⟨next, nextFrames, stepped, carried, fewer⟩
    · exact Or.inl stopped
    · refine Or.inr ⟨next, stepped, ⟨nextFrames, carried⟩, ?_⟩
      rw [traversing.walk.steps_eq, carried.walk.steps_eq, ← traversing.stack.length_eq,
        ← carried.stack.length_eq] at fewer
      exact fewer
  rcases whileSome_ok _ _ pass ⟨_, start⟩
    (by simp only [initialTraversal, List.length_nil, List.length_singleton]; omega :
      _ < 2 * entries.length + 1) with ⟨t, ran, ⟨frames, traversing⟩, stopped⟩
  have done : t.postOrder = s.tree.postorder 0 := by
    rcases traversing.step core table small with ⟨rfl, _⟩ | ⟨next, _, stepped, _⟩
    · exact traversing.walk.finished
    · rw [stepped] at stopped
      cases stopped
  refine ⟨t, ?_, done, done ▸ traversing.books⟩
  rw [traverseFrom, initialTraversal, setAt_of_lt (by simpa [length_eq] using positive),
    Checked.ok_bind, getAt_of_getElem? firstFound, Checked.ok_bind]
  rw [← length_eq] at ran
  exact ran

/-- The traversal of a builder with less than `2 ^ 32` entries finishes them in
postorder, and its corrections account for every repeated object. -/
theorem traverse_ok (core : Core builder s.entries) (table : ObjectTable s entries objects)
    (small : s.entries.length < 2 ^ 32) (positive : 0 < s.entries.length) :
    ∃ t, builder.traverse entries objects = .ok t ∧ t.postOrder = s.tree.postorder 0 ∧
      Books s entries objects (s.tree.postorder 0) t := by
  rcases traverseFrom_ok core table small positive with ⟨t, fromRoot, done, books⟩
  refine ⟨t, ?_, done, books⟩
  have full : ¬t.postOrder.length < entries.length := by
    rw [done, length_postorder positive, table.tagged.length_eq]
    exact lt_irrefl _
  simp only [traverse, fromRoot, Checked.ok_bind, if_neg full, Checked.pure_eq_ok]

/-! ### The index `2 ^ 32 - 1` -/

theorem findUf_nil (idx : ℕ) : findUf [] idx = .error .indexOutOfBounds := by
  simp [findUf, whileSome, findRootStep]

/-- With an empty union-find vector no object can be subtracted. -/
theorem noteOccurrence_frame {next : Traversal} (empty : t.ufParent = [])
    (noted : noteOccurrence entries objects t curr = .ok next) :
    next.ufParent = [] ∧ next.stack = t.stack := by
  rw [noteOccurrence, Checked.bind_eq_ok] at noted
  rcases noted with ⟨compact, _, noted⟩
  split at noted
  · simp only [Checked.bind_eq_ok] at noted
    rcases noted with ⟨obj, _, noted⟩
    split at noted
    · simp only [Checked.bind_eq_ok] at noted
      rcases noted with ⟨previous, _, subtracted, subtraction, _, _, final⟩
      cases previous with
      | none =>
          simp only [subtractPrevious, Except.ok.injEq] at subtraction
          simp only [Checked.pure_eq_ok, Except.ok.injEq] at final
          rw [← final, ← subtraction]
          exact ⟨empty, rfl⟩
      | some prev =>
          simp [subtractPrevious, subtractShared, empty, findUf_nil] at subtraction
    · simp only [Checked.pure_eq_ok, Except.ok.injEq] at noted
      rw [← noted]
      exact ⟨empty, rfl⟩
  · simp only [Checked.pure_eq_ok, Except.ok.injEq] at noted
    rw [← noted]
    exact ⟨empty, rfl⟩

/-- With an empty union-find vector a stack of two or more never shrinks. -/
theorem traverseStep_stuck {next : Traversal} (empty : t.ufParent = [])
    (deep : 2 ≤ t.stack.length)
    (stepped : builder.traverseStep entries objects t = .ok (some next)) :
    next.ufParent = [] ∧ 2 ≤ next.stack.length := by
  unfold traverseStep at stepped
  split at stepped
  · cases stepped
  · next curr nextChild below stack =>
      rw [stack, List.length_cons] at deep
      split at stepped
      · simp only [Checked.bind_eq_ok] at stepped
        rcases stepped with ⟨sibling, _, seen, _, stepped⟩
        split at stepped
        · simp only [Checked.pure_eq_ok, Except.ok.injEq, Option.some.injEq] at stepped
          rw [← stepped]
          exact ⟨empty, by simpa using deep⟩
        · simp only [Checked.bind_eq_ok, Checked.pure_eq_ok, Except.ok.injEq,
            Option.some.injEq] at stepped
          rcases stepped with ⟨_, _, _, _, stepped⟩
          rw [← stepped]
          exact ⟨empty, by simp⟩
      · simp only [finishEntry, Checked.bind_eq_ok] at stepped
        rcases stepped with ⟨finished, ⟨noted, occurrence, merged⟩, _⟩
        rcases noteOccurrence_frame (t := { t with stack := below }) empty occurrence with
          ⟨notedEmpty, notedStack⟩
        cases below with
        | nil => simp at deep
        | cons frame below => simp [mergeIntoParent, notedStack, notedEmpty, findUf_nil] at merged

theorem traverseStep_stops {next : Option Traversal}
    (stepped : builder.traverseStep entries objects t = .ok next) (stopped : next = none) :
    t.stack = [] := by
  subst stopped
  unfold traverseStep at stepped
  split at stepped
  · next empty => exact empty
  · split at stepped
    · simp only [Checked.bind_eq_ok] at stepped
      rcases stepped with ⟨_, _, _, _, stepped⟩
      split at stepped
      · cases stepped
      · simp [Checked.bind_eq_ok] at stepped
    · simp [Checked.bind_eq_ok] at stepped

/-- A stack of two or more never empties. -/
theorem whileSome_stuck {fuel : ℕ} {final : Traversal} (empty : t.ufParent = [])
    (deep : 2 ≤ t.stack.length) :
    whileSome (builder.traverseStep entries objects) fuel t ≠ .ok final := by
  intro ran
  rcases whileSome_invariant
    (fun state : Traversal => state.ufParent = [] ∧ 2 ≤ state.stack.length)
    (fun _ _ holds stepped => traverseStep_stuck holds.1 holds.2 stepped) ⟨empty, deep⟩ ran
    with ⟨⟨_, finalDeep⟩, stopped⟩
  have noStack := traverseStep_stops stopped rfl
  rw [noStack] at finalDeep
  simp at finalDeep

/-- The entry at index `1` is entered first. -/
theorem traverseStep_first {visited : List Bool} {below : List (ℕ × UInt32)}
    (unseen : visited[1]? = some false) (stack : t.stack = (0, 1) :: below)
    (marks : t.visited = visited) (empty : t.ufParent = []) {next : Option Traversal}
    (stepped : builder.traverseStep entries objects t = .ok next) :
    ∃ entered, next = some entered ∧ entered.ufParent = [] ∧ 2 ≤ entered.stack.length := by
  have running : (1 : UInt32) ≠ u32Max := by decide
  have one : (1 : UInt32).toNat = 1 := rfl
  simp only [traverseStep, stack, if_pos running, one, marks, getAt_of_getElem? unseen,
    Checked.bind_eq_ok, Checked.ok_bind, Bool.false_eq_true, if_false, Checked.pure_eq_ok,
    Except.ok.injEq] at stepped
  rcases stepped with ⟨_, _, _, _, _, _, final⟩
  exact ⟨_, final.symm, empty, by simp⟩

/-- When the number of entries is `0` as a 32-bit word the union-find vector is
empty, and a traversal with something below the root aborts. -/
theorem traverse_full (wrapped : UInt32.ofNat entries.length = 0) (several : 2 ≤ entries.length)
    (rootChild : builder.firstChild[0]? = some 1) (t : Traversal) :
    builder.traverse entries objects ≠ .ok t := by
  intro ran
  rw [traverse, Checked.bind_eq_ok] at ran
  rcases ran with ⟨first, fromRoot, _⟩
  rw [traverseFrom, Checked.bind_eq_ok] at fromRoot
  rcases fromRoot with ⟨visited, marked, fromRoot⟩
  rw [getAt_of_getElem? rootChild, Checked.ok_bind, whileSome] at fromRoot
  have emptyUf : (initialTraversal entries.length objects.length).ufParent = [] := by
    simp [initialTraversal, wrapped]
  have unseen : visited[1]? = some false := by
    rw [initialTraversal, setAt_of_lt (by simp; omega), Except.ok.injEq] at marked
    rw [← marked, List.getElem?_set_ne (by decide), List.getElem?_replicate, if_pos (by omega)]
  split at fromRoot
  · cases fromRoot
  · next stepped =>
      rcases traverseStep_first unseen rfl rfl (by exact emptyUf) stepped with ⟨entered, none, _⟩
      cases none
  · next next stepped =>
      rcases traverseStep_first unseen rfl rfl (by exact emptyUf) stepped with ⟨entered, some, empty, deep⟩
      cases some
      exact whileSome_stuck empty deep fromRoot

end GraphBuilder

end PigTree
