import PigTree.Engine.Accounting

/-!
# The offline lowest common ancestors

What the states of the traversal loop have in common: a find of the union-find forest
ends at the lowest ancestor that is still on the stack, compression does not change where
finds end, and the label found for the last alias of an object is its lowest common
ancestor with the alias that is finished next.
-/

namespace PigTree

open Foundation ParentTree

namespace GraphBuilder

variable {target : String} {builder : GraphBuilder} {records : List ObservationRecord}
  {rt : Runtime} {graph : DirectoryGraph} {s : Snapshot} {entries : List CompactEntry}
  {objects : List ObjectRecord} {t next : Traversal}

/-- A state of the loop that walks down from the first entry. -/
def InLoop (builder : GraphBuilder) (entries : List CompactEntry) (objects : List ObjectRecord)
    (t : Traversal) : Prop :=
  ∃ visited first,
    setAt (initialTraversal entries.length objects.length).visited 0 true = .ok visited ∧
      getAt builder.firstChild 0 = .ok first ∧
      Relation.ReflTransGen
        (fun state next => builder.traverseStep entries objects state = .ok (some next))
        { initialTraversal entries.length objects.length with visited, stack := [(0, first)] } t

/-- The entry is a file of an object. -/
def holdsObject (entries : List CompactEntry) (objectIndex : UInt32) (idx : ℕ) : Bool :=
  (entries[idx]?).any fun compact => compact.kind = .file ∧ compact.objectIndex = objectIndex

/-- Finds one after the other; only the last vector is kept. -/
def findAll (parent : List UInt32) : List ℕ → Checked (List UInt32)
  | [] => .ok parent
  | idx :: rest => do
      let (_, compressed) ← findUf parent idx
      findAll compressed rest

/-- Finds end, and no find changes where another one ends. -/
def FindsStable (size : ℕ) (parent : List UInt32) : Prop :=
  ∀ nodes : List ℕ, (∀ node ∈ nodes, node < size) →
    ∃ compressed, findAll parent nodes = .ok compressed ∧ ∀ idx < size,
      ∃ rep before after, findUf parent idx = .ok (rep, before)
        ∧ findUf compressed idx = .ok (rep, after)

/-- When a file of a heavy object is about to be finished, the file of the object that was
finished last is noted, and the label found for it is their lowest common ancestor. -/
def FindsLca (s : Snapshot) (entries : List CompactEntry) (objects : List ObjectRecord)
    (t : Traversal) : Prop :=
  ∀ curr below, t.stack = (curr, u32Max) :: below →
    ∀ objectIndex ≠ noObject, holdsObject entries objectIndex curr = true →
      ∀ obj, objects[objectIndex.toNat]? = some obj → 0 < obj.weight →
        ∀ prev, (t.postOrder.filter (holdsObject entries objectIndex)).getLast? = some prev →
          t.lastOccurrence[objectIndex.toNat]? = some (some prev) ∧
            ∃ rep compressed low, findUf t.ufParent prev = .ok (rep, compressed) ∧
              t.ancestor[rep]? = some low ∧ s.tree.IsLca low.toNat prev curr

/-- Every entry is finished once, children before their parents, from the first entry alone. -/
def FinishesAll (builder : GraphBuilder) (s : Snapshot) (entries : List CompactEntry)
    (objects : List ObjectRecord) : Prop :=
  ∃ final, builder.traverseFrom entries objects
      (initialTraversal entries.length objects.length) 0 = .ok final ∧
    builder.traverse entries objects = .ok final ∧
      final.postOrder.Perm (List.range entries.length) ∧
        ∀ before parent after, final.postOrder = before ++ parent :: after →
          ∀ child ∈ s.tree.children parent, child ∈ before

/-- The loop stays in the states of the walk. -/
theorem InLoop.traversing (core : Core builder s.entries) (table : ObjectTable s entries objects)
    (small : s.entries.length < 2 ^ 32) (positive : 0 < s.entries.length)
    (inLoop : InLoop builder entries objects t) :
    ∃ frames, Traversing builder s entries objects frames t := by
  rcases inLoop with ⟨visited, first, marked, firstRead, steps⟩
  have length_eq := table.tagged.length_eq
  rcases core.chain_children small positive with ⟨word, firstFound, chain⟩
  have wordIs : first = word := by
    rw [getAt_of_getElem? firstFound] at firstRead
    exact (Except.ok.inj firstRead).symm
  have visitedIs : visited = (List.replicate s.entries.length false).set 0 true := by
    rw [initialTraversal, length_eq, setAt_of_lt (by simpa using positive)] at marked
    exact (Except.ok.inj marked).symm
  subst wordIs visitedIs
  induction steps with
  | refl =>
      rw [length_eq]
      exact ⟨_, .initial small positive chain⟩
  | tail _ stepped ih =>
      rcases ih with ⟨frames, traversing⟩
      rcases traversing.step core table small with ⟨_, stopped⟩ | ⟨other, others, same, carried, _⟩
      · rw [stopped] at stepped
        cases stepped
      · rw [same] at stepped
        cases stepped
        exact ⟨others, carried⟩

theorem IsLowestOpen.unique {tree : ParentTree} {done : List ℕ} {low other node : ℕ}
    (first : tree.IsLowestOpen done low node) (second : tree.IsLowestOpen done other node) :
    low = other :=
  (second.lowest low first.above first.isOpen).antisymm
    (first.lowest other second.above second.isOpen)

theorem findsStable_of_pointsUp {tree : ParentTree} {done : List ℕ} {parent : List UInt32}
    (up : tree.PointsUp done (pointerOf parent)) (length_eq : parent.length = tree.size)
    (small : tree.size < 2 ^ 32) : FindsStable tree.size parent := by
  intro nodes inside
  induction nodes generalizing parent with
  | nil =>
      refine ⟨parent, rfl, ?_⟩
      intro idx idxInside
      rcases findUf_ok up length_eq idxInside small with ⟨rep, after, found, _⟩
      exact ⟨rep, after, after, found, found⟩
  | cons node nodes ih =>
      rcases findUf_ok up length_eq (inside node List.mem_cons_self) small with
        ⟨_, shorter, found, _, _, shorterLength, shorterUp⟩
      rcases ih shorterUp shorterLength fun other mem => inside other (List.mem_cons_of_mem _ mem)
        with ⟨compressed, rest, unchanged⟩
      refine ⟨compressed, ?_, ?_⟩
      · rw [findAll, found, Checked.ok_bind]
        exact rest
      · intro idx idxInside
        rcases findUf_ok up length_eq idxInside small with ⟨rep, before, foundBefore, _, low, _⟩
        rcases findUf_ok shorterUp shorterLength idxInside small with
          ⟨other, _, foundShorter, _, low', _⟩
        rcases unchanged idx idxInside with ⟨last, _, after, foundLast, foundAfter⟩
        rw [foundShorter] at foundLast
        cases foundLast
        have same := IsLowestOpen.unique low low'
        subst same
        exact ⟨_, before, after, foundBefore, foundAfter⟩

/-- The members of the group of a heavy object are its file entries. -/
theorem shareGroup_eq_some_iff {objectIndex : UInt32} (real : objectIndex ≠ noObject)
    {obj : ObjectRecord} (stored : objects[objectIndex.toNat]? = some obj) (heavy : 0 < obj.weight)
    (idx : ℕ) :
    shareGroup entries objects idx = some objectIndex.toNat ↔
      holdsObject entries objectIndex idx = true := by
  unfold shareGroup holdsObject
  cases found : entries[idx]? with
  | none => simp
  | some compact =>
      by_cases isFile : compact.kind = .file
      · by_cases same : compact.objectIndex = objectIndex
        · simp [isFile, same, real, stored, heavy]
        · have differs : compact.objectIndex.toNat ≠ objectIndex.toNat :=
            fun equal => same (UInt32.toNat_inj.mp equal)
          simp only [Option.bind_some, isFile, same, Option.any_some, and_false, decide_false]
          constructor
          · intro group
            split at group
            · rcases Option.bind_eq_some_iff.mp group with ⟨other, _, weighty⟩
              split at weighty
              · exact absurd (Option.some.inj weighty) differs
              · cases weighty
            · cases group
          · intro wrong
            cases wrong
      · simp [isFile]

theorem Traversing.findsLca {frames : List ParentTree.Frame}
    (traversing : Traversing builder s entries objects frames t)
    (small : s.entries.length < 2 ^ 32) : FindsLca s entries objects t := by
  intro curr below stack objectIndex real _ obj stored heavy prev latest
  have slots := traversing.stack
  rw [stack] at slots
  generalize framesIs : frames = framesCopy at slots
  cases slots with
  | @cons _ frame _ below head tail =>
      rcases frame with ⟨node, remaining⟩
      rcases head with ⟨same, chain, _⟩
      simp only at same chain
      subst same
      have finished : remaining = [] := by
        cases remaining with
        | nil => rfl
        | cons child remaining => exact absurd rfl chain.1
      subst finished
      subst framesIs
      have walk := traversing.walk
      rcases walk.top_open with ⟨inside, currOpen⟩
      have owned : objectIndex.toNat < objects.length :=
        (List.getElem?_eq_some_iff.mp stored).1
      have known : lastOf t.lastOccurrence objectIndex.toNat = some prev := by
        rw [traversing.books.accounts.last_eq objectIndex.toNat owned, ← latest]
        congr 1
        apply List.filter_congr
        intro idx _
        rw [Bool.eq_iff_iff, decide_eq_true_eq]
        exact shareGroup_eq_some_iff real stored heavy idx
      have prevDone := (traversing.books.accounts.last_mem owned known).1
      have prevInside : prev < s.tree.size := by
        have mem : prev ∈ s.tree.postorder 0 := by
          rw [← walk.order]
          exact List.mem_append_left _ prevDone
        exact ((mem_postorder walk.size_pos).mp mem).1
      rcases findUf_ok (traversing.forest (by simp)) traversing.books.uf_length prevInside small with
        ⟨low, compressed, found, lowInside, low_is, _⟩
      refine ⟨?_, low, compressed, UInt32.ofNat low, found, ?_, ?_⟩
      · have bound : objectIndex.toNat < t.lastOccurrence.length := by
          rw [traversing.books.last_length]
          exact owned
        simpa [lastOf, bound] using known
      · have labelled : low < s.entries.length := lowInside
        rw [traversing.books.ancestor_eq, List.getElem?_map, List.getElem?_range labelled]
        rfl
      · have word : (UInt32.ofNat low).toNat = low :=
          UInt32.toNat_ofNat_of_lt' (lt_trans lowInside small)
        rw [word]
        exact isLca_of_lowest_open walk.next_eq inside prevDone low_is.above low_is.isOpen
          low_is.lowest

/-- The traversal of an accepted stream: in every state of its loop finds end and do not
disturb each other, and the label found for the previous file of a heavy object is the lowest
common ancestor with the one that is finished next. The loop finishes every entry once,
children before their parents, and leaves nothing for a second component. -/
theorem offlineLca_correct (reached : Reached target builder records)
    (ran : builder.finish rt = .ok (.ok graph)) (nonempty : entriesOf records ≠ []) :
    ∃ normalized, builder.normalizeObjects rt = .ok normalized ∧
      (∀ t, InLoop builder normalized.entries normalized.objects t → t.stack ≠ [] →
        FindsStable normalized.entries.length t.ufParent ∧
          FindsLca reached.snapshot normalized.entries normalized.objects t) ∧
      FinishesAll builder reached.snapshot normalized.entries normalized.objects := by
  have short := (reached.finished ran).1.short
  have core : Core builder reached.snapshot.entries := reached.represents.core
  have tally : Tally builder reached.snapshot.entries := reached.represents.tally
  have positive : 0 < reached.snapshot.entries.length := List.length_pos_iff.mpr nonempty
  rcases normalizeObjects_ok rt core tally short with ⟨normalized, normalizedRan, table⟩
  have length_eq : normalized.entries.length = reached.snapshot.entries.length :=
    table.tagged.length_eq
  refine ⟨normalized, normalizedRan, ?_, ?_⟩
  · intro t inLoop running
    rcases inLoop.traversing core table short positive with ⟨frames, traversing⟩
    have entered : frames ≠ [] := by
      intro empty
      apply running
      have slots := traversing.stack
      rw [empty] at slots
      exact List.forall₂_nil_right_iff.mp slots
    refine ⟨?_, traversing.findsLca short⟩
    rw [length_eq]
    exact findsStable_of_pointsUp (traversing.forest entered) traversing.books.uf_length short
  · rcases traverseFrom_ok core table short positive with ⟨final, fromRoot, ordered, _⟩
    have full : ¬final.postOrder.length < normalized.entries.length := by
      rw [ordered, length_postorder positive, length_eq]
      exact lt_irrefl _
    refine ⟨final, fromRoot, ?_, ?_, ?_⟩
    · simp only [traverse, fromRoot, Checked.ok_bind, if_neg full, Checked.pure_eq_ok]
    · rw [ordered, length_eq]
      apply (List.perm_ext_iff_of_nodup (nodup_postorder positive) List.nodup_range).mpr
      intro idx
      rw [mem_postorder positive, List.mem_range]
      constructor
      · exact fun listed => listed.1
      · exact fun inside => ⟨inside, reached.snapshot.tree.isAncestor_zero idx⟩
    · intro before parent after split child childMem
      rw [ordered] at split
      exact mem_done_of_mem_children positive split childMem

/-- A stream in which files share an object. -/
theorem offlineLca_correct_shared : ∃ (builder : GraphBuilder) (reached : Reached "c:" builder
      Sample.shared) (normalized : Normalized),
    (∀ t, InLoop builder normalized.entries normalized.objects t → t.stack ≠ [] →
      FindsStable normalized.entries.length t.ufParent ∧
        FindsLca reached.snapshot normalized.entries normalized.objects t) ∧
    FinishesAll builder reached.snapshot normalized.entries normalized.objects := by
  rcases exists_of_isBuilt Sample.isBuilt_shared with ⟨builder, graph, reached, ran⟩
  rcases offlineLca_correct reached ran (by decide) with ⟨normalized, _, right⟩
  exact ⟨builder, reached, normalized, right⟩

end GraphBuilder

end PigTree
