import PigTree.Foundation.Checked

/-!
# Child lists threaded through three vectors

For every node, `first` and `last` hold the first and the last of its children,
and `next` the sibling after a child; a sentinel word stands for "none".
`ChainFrom` says which list of nodes a walk along `next` visits, and `Threads`
that the walk from `first` visits the children of each node in increasing order.
-/

namespace Foundation

/-! ### Walks along the links -/

/-- The walk that starts at `start` visits exactly `items` and then stops. -/
def ChainFrom (stop : UInt32) (next : List UInt32) : UInt32 → List ℕ → Prop
  | start, [] => start = stop
  | start, item :: items =>
      start ≠ stop ∧ start.toNat = item ∧
        ∃ after, next[item]? = some after ∧ ChainFrom stop next after items

namespace ChainFrom

variable {stop start : UInt32} {next : List UInt32} {items : List ℕ}

theorem eq_stop_iff (chain : ChainFrom stop next start items) : start = stop ↔ items = [] := by
  cases items with
  | nil => simpa [ChainFrom] using chain
  | cons item items => simpa using chain.1

/-- New links at the end of the vector do not change a walk. -/
theorem append_links (chain : ChainFrom stop next start items) (more : List UInt32) :
    ChainFrom stop (next ++ more) start items := by
  induction items generalizing start with
  | nil => exact chain
  | cons item items ih =>
      rcases chain with ⟨running, named, after, found, rest⟩
      have bound := (List.getElem?_eq_some_iff.mp found).1
      refine ⟨running, named, after, ?_, ih rest⟩
      rw [List.getElem?_append_left bound]
      exact found

/-- A walk does not depend on the links of nodes it does not visit. -/
theorem set_of_notMem (chain : ChainFrom stop next start items) {node : ℕ} (word : UInt32)
    (absent : node ∉ items) : ChainFrom stop (next.set node word) start items := by
  induction items generalizing start with
  | nil => exact chain
  | cons item items ih =>
      simp only [List.mem_cons, not_or] at absent
      rcases chain with ⟨running, named, after, found, rest⟩
      refine ⟨running, named, after, ?_, ih rest absent.2⟩
      rw [List.getElem?_set_ne absent.1]
      exact found

/-- Linking the node that is appended to the vector behind the last node of a walk. -/
theorem extend {last : ℕ} {word : UInt32} (chain : ChainFrom stop next start (items ++ [last]))
    (unique : last ∉ items) (running : word ≠ stop) (named : word.toNat = next.length) :
    ChainFrom stop (next.set last word ++ [stop]) start (items ++ [last] ++ [next.length]) := by
  induction items generalizing start with
  | nil =>
      rcases chain with ⟨startRunning, startNamed, after, found, _⟩
      have bound := (List.getElem?_eq_some_iff.mp found).1
      refine ⟨startRunning, startNamed, word, ?_, running, named, stop, ?_, rfl⟩
      · rw [List.getElem?_append_left (by simpa using bound), List.getElem?_set_self bound]
      · simp
  | cons item items ih =>
      simp only [List.mem_cons, not_or] at unique
      rcases chain with ⟨startRunning, startNamed, after, found, rest⟩
      have bound := (List.getElem?_eq_some_iff.mp found).1
      refine ⟨startRunning, startNamed, after, ?_, ih rest unique.2⟩
      rw [List.getElem?_append_left (by simpa using bound), List.getElem?_set_ne unique.1]
      exact found

/-- A loop along a chain is a loop over the list of its nodes. -/
theorem whileSome_eq {σ : Type} {step : σ × UInt32 → Checked (Option (σ × UInt32))}
    {visit : σ → ℕ → Checked σ} (stops : ∀ state, step (state, stop) = .ok none)
    (goes : ∀ state cursor after, cursor ≠ stop → next[cursor.toNat]? = some after →
      step (state, cursor) =
        visit state cursor.toNat >>= fun reached => .ok (some (reached, after)))
    (chain : ChainFrom stop next start items) {fuel : ℕ} (enough : items.length < fuel)
    (state : σ) :
    whileSome step fuel (state, start) =
      items.foldlM visit state >>= fun reached => .ok (reached, stop) := by
  induction items generalizing start fuel state with
  | nil =>
      cases fuel with
      | zero => omega
      | succ fuel =>
          have ended : start = stop := chain
          simp [whileSome, ended, stops]
  | cons item items ih =>
      cases fuel with
      | zero => omega
      | succ fuel =>
          rcases chain with ⟨running, rfl, after, found, rest⟩
          simp only [whileSome, goes state start after running found, List.foldlM_cons]
          cases visit state start.toNat with
          | error fault => rfl
          | ok reached => exact ih rest (by simpa using enough) reached

end ChainFrom

/-! ### The three vectors -/

/-- The children of a node among the nodes below `count`, in increasing order. -/
def kids (parent : ℕ → ℕ) (count node : ℕ) : List ℕ :=
  (List.range count).filter (fun child => 0 < child ∧ parent child = node)

section Kids

variable {parent : ℕ → ℕ} {count node : ℕ}

@[simp]
theorem mem_kids {child : ℕ} :
    child ∈ kids parent count node ↔ child < count ∧ 0 < child ∧ parent child = node := by
  simp [kids]

theorem nodup_kids : (kids parent count node).Nodup := List.nodup_range.filter _

theorem length_kids_le : (kids parent count node).length ≤ count := by
  have short := List.length_filter_le
    (fun child => decide (0 < child ∧ parent child = node)) (List.range count)
  simpa [kids] using short

theorem kids_succ_self (positive : 0 < count) (owner : parent count = node) :
    kids parent (count + 1) node = kids parent count node ++ [count] := by
  simp [kids, List.range_succ, positive, owner]

theorem kids_succ_of_ne (different : parent count ≠ node) :
    kids parent (count + 1) node = kids parent count node := by
  simp [kids, List.range_succ, different]

theorem kids_congr {parent' : ℕ → ℕ} (same : ∀ child < count, parent child = parent' child) :
    kids parent count node = kids parent' count node := by
  apply List.filter_congr
  intro child childMem
  rw [same child (List.mem_range.mp childMem)]

end Kids

/-- The vectors thread the children of every node below `count`. -/
structure Threads (stop : UInt32) (parent : ℕ → ℕ) (count : ℕ)
    (first last next : List UInt32) : Prop where
  first_length : first.length = count
  last_length : last.length = count
  next_length : next.length = count
  chain : ∀ node < count, ∃ start, first[node]? = some start ∧
    ChainFrom stop next start (kids parent count node)
  tail : ∀ node < count, ∀ initial item, kids parent count node = initial ++ [item] →
    ∃ word, last[node]? = some word ∧ word.toNat = item

namespace Threads

variable {stop word : UInt32} {parent : ℕ → ℕ} {count node : ℕ} {first last next : List UInt32}

/-- A single node without children. -/
theorem single (stop : UInt32) (parent : ℕ → ℕ) : Threads stop parent 1 [stop] [stop] [stop] where
  first_length := rfl
  last_length := rfl
  next_length := rfl
  chain := by
    intro node inside
    have none : kids parent 1 node = [] := by simp [kids, List.range_succ]
    rw [none]
    exact ⟨stop, by simp [Nat.lt_one_iff.mp inside], rfl⟩
  tail := by
    intro node _ initial item split
    have none : kids parent 1 node = [] := by simp [kids, List.range_succ]
    simp [none] at split

/-- Only the parents of the nodes below `count` matter. -/
theorem congr {parent' : ℕ → ℕ} (threads : Threads stop parent count first last next)
    (same : ∀ child < count, parent child = parent' child) :
    Threads stop parent' count first last next where
  first_length := threads.first_length
  last_length := threads.last_length
  next_length := threads.next_length
  chain := by
    intro node inside
    rw [← kids_congr same]
    exact threads.chain node inside
  tail := by
    intro node inside
    rw [← kids_congr same]
    exact threads.tail node inside

variable (threads : Threads stop parent count first last next)
  (parentLt : ∀ child, 0 < child → parent child < child)

include parentLt in
theorem kids_last_empty : kids parent (count + 1) count = [] := by
  apply List.filter_eq_nil_iff.mpr
  intro child childMem
  have below := List.mem_range.mp childMem
  simp only [decide_eq_true_eq, not_and]
  intro positive owner
  have := parentLt child positive
  omega

include threads in
/-- The appended node becomes the last child of its parent. -/
theorem tail_append (parentLt : ∀ child, 0 < child → parent child < child) (positive : 0 < count)
    (named : word.toNat = count) : ∀ node < count + 1, ∀ initial item,
      kids parent (count + 1) node = initial ++ [item] →
        ∃ tailWord, (last.set (parent count) word ++ [stop])[node]? = some tailWord ∧
          tailWord.toNat = item := by
  intro node inside initial item split
  have ownerLt := parentLt count positive
  rcases Nat.lt_succ_iff_lt_or_eq.mp inside with old | rfl
  · by_cases owner : parent count = node
    · subst owner
      rw [kids_succ_self positive rfl] at split
      refine ⟨word, ?_, ?_⟩
      · rw [List.getElem?_append_left (by simpa [threads.last_length] using old),
          List.getElem?_set_self (by simpa [threads.last_length] using old)]
      · rw [named]
        simpa using List.append_inj_right' split rfl
    · rw [kids_succ_of_ne owner] at split
      rcases threads.tail node old initial item split with ⟨tailWord, found, tailNamed⟩
      refine ⟨tailWord, ?_, tailNamed⟩
      rw [List.getElem?_append_left (by simpa [threads.last_length] using old),
        List.getElem?_set_ne owner]
      exact found
  · rw [kids_last_empty parentLt] at split
    simp at split

include threads in
/-- The node about to be appended is the first child of its parent. -/
theorem append_first (parentLt : ∀ child, 0 < child → parent child < child)
    (positive : 0 < count) (running : word ≠ stop) (named : word.toNat = count)
    (childless : kids parent count (parent count) = []) :
    Threads stop parent (count + 1) (first.set (parent count) word ++ [stop])
      (last.set (parent count) word ++ [stop]) (next ++ [stop]) where
  first_length := by simp [threads.first_length]
  last_length := by simp [threads.last_length]
  next_length := by simp [threads.next_length]
  chain := by
    intro node inside
    have ownerLt := parentLt count positive
    rcases Nat.lt_succ_iff_lt_or_eq.mp inside with old | rfl
    · by_cases owner : parent count = node
      · subst owner
        refine ⟨word, ?_, ?_⟩
        · rw [List.getElem?_append_left (by simpa [threads.first_length] using old),
            List.getElem?_set_self (by simpa [threads.first_length] using old)]
        · rw [kids_succ_self positive rfl, childless]
          exact ⟨running, named, stop, by simp [← threads.next_length], rfl⟩
      · rcases threads.chain node old with ⟨start, found, walk⟩
        refine ⟨start, ?_, ?_⟩
        · rw [List.getElem?_append_left (by simpa [threads.first_length] using old),
            List.getElem?_set_ne owner]
          exact found
        · rw [kids_succ_of_ne owner]
          exact walk.append_links [stop]
    · refine ⟨stop, by simp [← threads.first_length], ?_⟩
      rw [kids_last_empty parentLt]
      rfl
  tail := threads.tail_append parentLt positive named

include threads in
/-- The node about to be appended follows the last child of its parent. -/
theorem append_next (parentLt : ∀ child, 0 < child → parent child < child)
    (positive : 0 < count) (running : word ≠ stop) (named : word.toNat = count)
    {initial : List ℕ} {prev : ℕ} (split : kids parent count (parent count) = initial ++ [prev]) :
    Threads stop parent (count + 1) (first ++ [stop])
      (last.set (parent count) word ++ [stop]) (next.set prev word ++ [stop]) where
  first_length := by simp [threads.first_length]
  last_length := by simp [threads.last_length]
  next_length := by simp [threads.next_length]
  chain := by
    intro node inside
    have ownerLt := parentLt count positive
    rcases Nat.lt_succ_iff_lt_or_eq.mp inside with old | rfl
    · rcases threads.chain node old with ⟨start, found, walk⟩
      refine ⟨start, ?_, ?_⟩
      · rw [List.getElem?_append_left (by simpa [threads.first_length] using old)]
        exact found
      · by_cases owner : parent count = node
        · subst owner
          have unique : prev ∉ initial := by
            have nodup : (initial ++ [prev]).Nodup := split ▸ nodup_kids
            intro mem
            exact List.disjoint_of_nodup_append nodup mem (by simp)
          have extended := (split ▸ walk).extend unique running (named.trans threads.next_length.symm)
          rw [kids_succ_self positive rfl, split]
          simpa [threads.next_length] using extended
        · rw [kids_succ_of_ne owner]
          apply ChainFrom.append_links
          apply walk.set_of_notMem
          intro mem
          have prevMem : prev ∈ kids parent count (parent count) := by simp [split]
          exact owner ((mem_kids.mp prevMem).2.2.symm.trans (mem_kids.mp mem).2.2)
    · refine ⟨stop, by simp [← threads.first_length], ?_⟩
      rw [kids_last_empty parentLt]
      rfl
  tail := threads.tail_append parentLt positive named

end Threads

end Foundation
