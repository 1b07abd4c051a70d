import Mathlib

/-!
# Computations that can abort

A small language for code that indexes vectors, looks keys up, asserts and
loops. An abort is a value of type `Fault`, so that "never aborts" is a
statement about the computation and not a convention of the model. Loops that
run while a condition holds take a fuel argument; running out of it is one of
the faults, and the loop rule below discharges it through a decreasing measure.
-/

namespace Foundation

universe u v

/-- The ways a computation can abort. -/
inductive Fault where
  | indexOutOfBounds
  | missingKey
  | expectFailed (message : String)
  | assertionFailed (message : String)
  | outOfFuel
deriving DecidableEq, Repr

abbrev Checked (α : Type u) : Type u := Except Fault α

namespace Checked

variable {α : Type u} {β : Type v}

@[simp]
theorem ok_bind {α β : Type u} (value : α) (next : α → Checked β) :
    ((Except.ok value : Checked α) >>= next) = next value := rfl

@[simp]
theorem error_bind {α β : Type u} (fault : Fault) (next : α → Checked β) :
    ((Except.error fault : Checked α) >>= next) = .error fault := rfl

@[simp]
theorem pure_eq_ok {α : Type u} (value : α) : (pure value : Checked α) = .ok value := rfl

/-- A computation that returns has returned at each of its steps. -/
theorem bind_eq_ok {α β : Type u} {first : Checked α} {next : α → Checked β} {result : β} :
    (first >>= next) = .ok result ↔ ∃ value, first = .ok value ∧ next value = .ok result := by
  cases first with
  | error fault => simp
  | ok value => simp

end Checked

/-! ### Vectors -/

section Vectors

variable {α : Type u}

/-- Bounds-checked read. -/
def getAt (items : List α) (index : ℕ) : Checked α :=
  match items[index]? with
  | some item => .ok item
  | none => .error .indexOutOfBounds

/-- Bounds-checked write. -/
def setAt (items : List α) (index : ℕ) (item : α) : Checked (List α) :=
  if index < items.length then .ok (items.set index item) else .error .indexOutOfBounds

/-- Bounds-checked update in place. -/
def modifyAt (items : List α) (index : ℕ) (update : α → α) : Checked (List α) :=
  if index < items.length then .ok (items.modify index update) else .error .indexOutOfBounds

theorem exists_getElem? {items : List α} {index : ℕ} (bound : index < items.length) :
    ∃ item, items[index]? = some item :=
  ⟨_, List.getElem?_eq_getElem bound⟩

theorem getAt_eq_ok_iff {items : List α} {index : ℕ} {item : α} :
    getAt items index = .ok item ↔ items[index]? = some item := by
  unfold getAt
  cases items[index]? <;> simp

theorem getAt_of_getElem? {items : List α} {index : ℕ} {item : α}
    (found : items[index]? = some item) : getAt items index = .ok item :=
  getAt_eq_ok_iff.mpr found

@[simp]
theorem getAt_nil (index : ℕ) : getAt ([] : List α) index = .error .indexOutOfBounds := rfl

theorem setAt_of_lt {items : List α} {index : ℕ} (bound : index < items.length) (item : α) :
    setAt items index item = .ok (items.set index item) := by
  simp [setAt, bound]

theorem modifyAt_of_lt {items : List α} {index : ℕ} (bound : index < items.length)
    (update : α → α) : modifyAt items index update = .ok (items.modify index update) := by
  simp [modifyAt, bound]

theorem length_modifyAt {items updated : List α} {index : ℕ} {update : α → α}
    (ran : modifyAt items index update = .ok updated) : updated.length = items.length := by
  unfold modifyAt at ran
  split at ran
  · rw [← Except.ok.inj ran, List.length_modify]
  · cases ran

theorem getElem?_modify_self {items : List α} {index : ℕ} {item : α} (update : α → α)
    (found : items[index]? = some item) :
    (items.modify index update)[index]? = some (update item) := by
  simp [found]

theorem getElem?_modify_of_ne {items : List α} {index other : ℕ} (update : α → α)
    (different : index ≠ other) : (items.modify index update)[other]? = items[other]? := by
  simp [different]

/-- Reading a value off the items at some positions. -/
theorem map_filterMap_getElem? {β : Type v} {items : List α} {positions : List ℕ} {read : α → β}
    {value : ℕ → β}
    (holds : ∀ index ∈ positions, ∃ item, items[index]? = some item ∧ read item = value index) :
    (positions.filterMap (fun index => items[index]?)).map read = positions.map value := by
  induction positions with
  | nil => rfl
  | cons index positions ih =>
      rcases holds index List.mem_cons_self with ⟨item, found, same⟩
      rw [List.filterMap_cons_some found, List.map_cons, List.map_cons, same,
        ih (fun other mem => holds other (List.mem_cons_of_mem _ mem))]

/-- Selecting items by position or by value. -/
theorem filterMap_positions {items : List α} {byPosition : ℕ → Prop}
    {byValue : α → Prop} [DecidablePred byPosition] [DecidablePred byValue]
    (agree : ∀ (index : ℕ) (item : α), items[index]? = some item →
      (byPosition index ↔ byValue item)) :
    ((List.range items.length).filter (fun index => byPosition index)).filterMap
        (fun index => items[index]?) = items.filter (fun item => byValue item) := by
  suffices prefixes : ∀ before after, items = before ++ after →
      ((List.range before.length).filter (fun index => byPosition index)).filterMap
        (fun index => items[index]?) = before.filter (fun item => byValue item) from
    prefixes items [] (List.append_nil _).symm
  intro before
  induction before using List.reverseRecOn with
  | nil =>
      intro after _
      rfl
  | append_singleton before item ih =>
      intro after split
      have found : items[before.length]? = some item := by simp [split]
      have earlier := ih (item :: after) (by simp [split])
      rw [List.length_append, List.length_singleton, List.range_succ, List.filter_append,
        List.filterMap_append, earlier, List.filter_append]
      by_cases chosen : byPosition before.length
      · have value := (agree _ _ found).mp chosen
        simp [chosen, value, found]
      · have value : ¬byValue item := fun value => chosen ((agree _ _ found).mpr value)
        simp [chosen, value]

/-- Lists that select alike at every position select the same items. -/
theorem filterMap_eq_of_positions {β : Type v} {γ : Type} {left : List α} {right : List β}
    {selectLeft : α → Option γ} {selectRight : β → Option γ} (lengths : left.length = right.length)
    (agree : ∀ (position : ℕ) (a : α) (b : β), left[position]? = some a →
      right[position]? = some b → selectLeft a = selectRight b) :
    left.filterMap selectLeft = right.filterMap selectRight := by
  have mapped : left.map selectLeft = right.map selectRight := by
    apply List.ext_getElem?
    intro position
    rw [List.getElem?_map, List.getElem?_map]
    by_cases inside : position < left.length
    · rcases exists_getElem? inside with ⟨a, found⟩
      rcases exists_getElem? (lengths ▸ inside) with ⟨b, otherFound⟩
      rw [found, otherFound, Option.map_some, Option.map_some, agree position a b found otherFound]
    · rw [List.getElem?_eq_none (by omega), List.getElem?_eq_none (by omega)]
      rfl
  have joined := congrArg (List.filterMap id) mapped
  simpa [List.filterMap_map] using joined

theorem filterMap_range_getElem? (items : List α) :
    (List.range items.length).filterMap (fun index => items[index]?) = items := by
  have selected : ((List.range items.length).filter (fun _ => True)).filterMap
      (fun index => items[index]?) = items.filter (fun _ => True) :=
    filterMap_positions (by simp)
  simpa using selected

end Vectors

/-! ### Loops over a list -/

section ForLoops

variable {α : Type u} {σ : Type v}

/-- The rule for a loop over a list: an invariant indexed by the part already
visited, established for the empty part and carried by each pass. -/
theorem foldlM_ok {body : σ → α → Checked σ} (items : List α)
    (Inv : List α → σ → Prop) {start : σ} (initial : Inv [] start)
    (pass : ∀ seen item rest state, items = seen ++ item :: rest → Inv seen state →
      ∃ next, body state item = .ok next ∧ Inv (seen ++ [item]) next) :
    ∃ final, items.foldlM body start = .ok final ∧ Inv items final := by
  suffices run : ∀ rest seen state, items = seen ++ rest → Inv seen state →
      ∃ final, rest.foldlM body state = .ok final ∧ Inv items final from
    run items [] start rfl initial
  intro rest
  induction rest with
  | nil =>
      intro seen state split holds
      refine ⟨state, rfl, ?_⟩
      simpa [split] using holds
  | cons item rest ih =>
      intro seen state split holds
      rcases pass seen item rest state split holds with ⟨next, stepped, carried⟩
      rcases ih (seen ++ [item]) next (by simp [split]) carried with ⟨final, ran, reached⟩
      exact ⟨final, by simp [List.foldlM_cons, stepped, ran], reached⟩

/-- The same rule read backwards: whatever a loop that returned has computed
satisfies the invariant. -/
theorem foldlM_invariant {body : σ → α → Checked σ} (items : List α)
    (Inv : List α → σ → Prop) {start final : σ} (initial : Inv [] start)
    (pass : ∀ seen item rest state next, items = seen ++ item :: rest → Inv seen state →
      body state item = .ok next → Inv (seen ++ [item]) next)
    (ran : items.foldlM body start = .ok final) : Inv items final := by
  suffices run : ∀ rest seen state, items = seen ++ rest → Inv seen state →
      rest.foldlM body state = .ok final → Inv items final from
    run items [] start rfl initial ran
  intro rest
  induction rest with
  | nil =>
      intro seen state split holds stopped
      simp only [List.foldlM_nil, Checked.pure_eq_ok, Except.ok.injEq] at stopped
      subst stopped
      simpa [split] using holds
  | cons item rest ih =>
      intro seen state split holds continued
      rw [List.foldlM_cons, Checked.bind_eq_ok] at continued
      rcases continued with ⟨next, stepped, remaining⟩
      exact ih (seen ++ [item]) next (by simp [split])
        (pass seen item rest state next split holds stepped) remaining

/-- The rule for a loop that cannot abort. -/
theorem foldl_invariant {body : σ → α → σ} (items : List α) (Inv : List α → σ → Prop)
    {start : σ} (initial : Inv [] start)
    (pass : ∀ seen item rest state, items = seen ++ item :: rest → Inv seen state →
      Inv (seen ++ [item]) (body state item)) : Inv items (items.foldl body start) := by
  suffices run : ∀ rest seen state, items = seen ++ rest → Inv seen state →
      Inv items (rest.foldl body state) from run items [] start rfl initial
  intro rest
  induction rest with
  | nil =>
      intro seen state split holds
      simpa [split] using holds
  | cons item rest ih =>
      intro seen state split holds
      exact ih (seen ++ [item]) (body state item) (by simp [split])
        (pass seen item rest state split holds)

end ForLoops

/-! ### Loops that run while a step applies -/

section WhileLoops

variable {σ : Type u}

/-- Repeat `step` until it answers `none`. -/
def whileSome (step : σ → Checked (Option σ)) : ℕ → σ → Checked σ
  | 0, _ => .error .outOfFuel
  | fuel + 1, state =>
      match step state with
      | .error fault => .error fault
      | .ok none => .ok state
      | .ok (some next) => whileSome step fuel next

/-- The rule for a terminating loop: each state that satisfies the invariant
either stops the loop or steps to one that satisfies it with a smaller measure. -/
theorem whileSome_ok {step : σ → Checked (Option σ)} (Inv : σ → Prop) (measure : σ → ℕ)
    (pass : ∀ state, Inv state → step state = .ok none ∨
      ∃ next, step state = .ok (some next) ∧ Inv next ∧ measure next < measure state)
    {fuel : ℕ} {start : σ} (initial : Inv start) (enough : measure start < fuel) :
    ∃ final, whileSome step fuel start = .ok final ∧ Inv final ∧ step final = .ok none := by
  induction fuel generalizing start with
  | zero => omega
  | succ fuel ih =>
      rcases pass start initial with stopped | ⟨next, stepped, carried, decreased⟩
      · exact ⟨start, by simp [whileSome, stopped], initial, stopped⟩
      · rcases ih carried (by omega) with ⟨final, ran, reached, halted⟩
        exact ⟨final, by simp [whileSome, stepped, ran], reached, halted⟩

/-- Whatever a loop that returned has computed satisfies the invariant and stops the loop. -/
theorem whileSome_invariant {step : σ → Checked (Option σ)} (Inv : σ → Prop)
    (pass : ∀ state next, Inv state → step state = .ok (some next) → Inv next)
    {fuel : ℕ} {start final : σ} (initial : Inv start)
    (ran : whileSome step fuel start = .ok final) : Inv final ∧ step final = .ok none := by
  induction fuel generalizing start with
  | zero => simp [whileSome] at ran
  | succ fuel ih =>
      simp only [whileSome] at ran
      split at ran
      · cases ran
      · next stopped =>
          cases ran
          exact ⟨initial, stopped⟩
      · next next stepped => exact ih (pass start next initial stepped) ran

end WhileLoops

end Foundation
