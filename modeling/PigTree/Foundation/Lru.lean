import Mathlib.Data.Finset.Card
import Mathlib.Data.List.Dedup

/-!
# Least-recently-used caches

What a cache of bounded size must answer is a function of its past: the value last put
under a key, unless too many other keys have been used since the key was. A list of the
most recently used entries answers that.
-/

namespace Foundation.Lru

variable {κ ν : Type} [DecidableEq κ]

/-! ### Keys by recency -/

/-- The distinct keys of a list, in the order of their first occurrence. -/
def recency : List κ → List κ
  | [] => []
  | key :: rest => key :: (recency rest).filter (· ≠ key)

@[simp]
theorem mem_recency {uses : List κ} {key : κ} : key ∈ recency uses ↔ key ∈ uses := by
  induction uses with
  | nil => simp [recency]
  | cons first uses ih =>
      by_cases same : key = first
      · simp [recency, same]
      · simp [recency, same, ih]

theorem nodup_recency (uses : List κ) : (recency uses).Nodup := by
  induction uses with
  | nil => exact List.nodup_nil
  | cons first uses ih => exact List.nodup_cons.mpr ⟨by simp, ih.filter _⟩

theorem length_recency (uses : List κ) : (recency uses).length = uses.toFinset.card := by
  have same : (recency uses).toFinset = uses.toFinset := by
    ext key
    simp
  rw [← List.toFinset_card_of_nodup (nodup_recency uses), same]

/-- The more recent keys are those used since the key itself was. -/
theorem takeWhile_recency (uses : List κ) (key : κ) :
    (recency uses).takeWhile (· ≠ key) = recency (uses.takeWhile (· ≠ key)) := by
  induction uses with
  | nil => rfl
  | cons first uses ih =>
      by_cases same : first = key
      · simp [recency, same]
      · have others : ((recency uses).filter (· ≠ first)).takeWhile (· ≠ key) =
            ((recency uses).takeWhile (· ≠ key)).filter (· ≠ first) := by
          rw [List.takeWhile_filter]
          congr 2
          funext other
          by_cases stop : other = key
          · simp [stop, Ne.symm same]
          · simp [stop]
        have goesOn (rest : List κ) :
            (first :: rest).takeWhile (· ≠ key) = first :: rest.takeWhile (· ≠ key) :=
          List.takeWhile_cons_of_pos (by simpa using same)
        rw [recency, goesOn, goesOn, others, ih, recency]

theorem mem_take_iff {keys : List κ} {key : κ} (among : key ∈ keys) (count : ℕ) :
    key ∈ keys.take count ↔ (keys.takeWhile (· ≠ key)).length < count := by
  induction keys generalizing count with
  | nil => cases among
  | cons first keys ih =>
      cases count with
      | zero => simp
      | succ count =>
          by_cases same : first = key
          · simp [same]
          · have later : key ∈ keys := (List.mem_cons.mp among).resolve_left (Ne.symm same)
            simp [same, Ne.symm same, ih later]

/-- A key is among the most recent ones when few others have been used since. -/
theorem mem_take_recency {uses : List κ} {key : κ} (among : key ∈ uses) (count : ℕ) :
    key ∈ (recency uses).take count ↔
      ((uses.takeWhile (· ≠ key)).toFinset).card < count := by
  rw [mem_take_iff (mem_recency.mpr among), takeWhile_recency, length_recency]

theorem take_filter_take {keys : List κ} (distinct : keys.Nodup) (key : κ) (count : ℕ) :
    ((keys.take (count + 1)).filter (· ≠ key)).take count =
      (keys.filter (· ≠ key)).take count := by
  induction keys generalizing count with
  | nil => simp
  | cons first keys ih =>
      rcases List.nodup_cons.mp distinct with ⟨fresh, rest⟩
      by_cases same : first = key
      · subst same
        have kept (some : List κ) (part : some ⊆ keys) : some.filter (· ≠ first) = some := by
          apply List.filter_eq_self.mpr
          intro other among
          have different : other ≠ first := fun equal => fresh (equal ▸ part among)
          simpa using different
        have gone (some : List κ) :
            (first :: some).filter (· ≠ first) = some.filter (· ≠ first) :=
          List.filter_cons_of_neg (by simp)
        rw [List.take_succ_cons, gone, gone, kept _ (List.take_subset _ _),
          kept keys (List.Subset.refl _), List.take_take, Nat.min_self]
      · cases count with
        | zero => simp
        | succ count => simpa [same] using ih rest count

/-! ### Caches and their past -/

/-- What happened to a cache; a read finds its key or misses it. -/
inductive Event (κ ν : Type) where
  | put (key : κ) (value : ν)
  | hit (key : κ)
  | miss (key : κ)
  | clear
deriving DecidableEq, Repr

/-- The keys put or found since the cache was cleared, latest first. -/
def uses : List (Event κ ν) → List κ
  | [] => []
  | .put key _ :: past => key :: uses past
  | .hit key :: past => key :: uses past
  | .miss _ :: past => uses past
  | .clear :: _ => []

/-- The value last put under a key since the cache was cleared. -/
def lastPut : List (Event κ ν) → κ → Option ν
  | [], _ => none
  | .put other value :: past, key => if other = key then some value else lastPut past key
  | .hit _ :: past, key => lastPut past key
  | .miss _ :: past, key => lastPut past key
  | .clear :: _, _ => none

/-- The answer to a read: the value last put under the key, if fewer than `capacity`
distinct other keys have been used since the key was. -/
def answer (capacity : ℕ) (past : List (Event κ ν)) (key : κ) : Option ν :=
  if ((uses past).takeWhile (· ≠ key)).toFinset.card < capacity then lastPut past key else none

/-- The entry of a key comes first, and the oldest entries beyond the capacity go. -/
def use (capacity : ℕ) (entries : List (κ × ν)) (key : κ) (value : ν) : List (κ × ν) :=
  (key, value) :: (entries.filter (·.1 ≠ key)).take (capacity - 1)

/-- The entries after a past, the most recently used one first. -/
def entries (capacity : ℕ) : List (Event κ ν) → List (κ × ν)
  | [] => []
  | .put key value :: past => use capacity (entries capacity past) key value
  | .hit key :: past =>
      match (entries capacity past).lookup key with
      | some value => use capacity (entries capacity past) key value
      | none => entries capacity past
  | .miss _ :: past => entries capacity past
  | .clear :: _ => []

/-- Only keys that are present are found. -/
def Possible (capacity : ℕ) : List (Event κ ν) → Prop
  | [] => True
  | .hit key :: past => ((entries capacity past).lookup key).isSome ∧ Possible capacity past
  | _ :: past => Possible capacity past

section Past

variable {capacity : ℕ} {past : List (Event κ ν)}

theorem keys_use (entries : List (κ × ν)) (key : κ) (value : ν) :
    (use capacity entries key value).map Prod.fst =
      key :: ((entries.map Prod.fst).filter (· ≠ key)).take (capacity - 1) := by
  simp [use, List.map_take, List.filter_map, Function.comp_def]

/-- The entries are those of the most recently used keys. -/
theorem keys_entries (positive : 0 < capacity) (possible : Possible capacity past) :
    (entries capacity past).map Prod.fst = (recency (uses past)).take capacity := by
  have step (key : κ) (keys : List κ) (distinct : keys.Nodup) :
      key :: ((keys.take capacity).filter (· ≠ key)).take (capacity - 1) =
        (key :: keys.filter (· ≠ key)).take capacity := by
    rcases capacity with _ | count
    · cases positive
    · rw [List.take_succ_cons, Nat.add_sub_cancel, take_filter_take distinct]
  induction past with
  | nil => simp [entries, uses, recency]
  | cons event past ih =>
      cases event with
      | put key value =>
          rw [entries, keys_use, ih possible, uses, recency, step key _ (nodup_recency _)]
      | hit key =>
          rcases Option.isSome_iff_exists.mp possible.1 with ⟨value, found⟩
          rw [entries, found, uses, recency]
          simp only
          rw [keys_use, ih possible.2, step key _ (nodup_recency _)]
      | miss key => exact ih possible
      | clear => simp [entries, uses, recency]

theorem isSome_lookup_iff {entries : List (κ × ν)} {key : κ} :
    (entries.lookup key).isSome ↔ key ∈ entries.map Prod.fst := by
  rw [List.lookup_isSome_iff, List.mem_map]
  simp only [beq_iff_eq, @eq_comm _ key]

/-- Where the keys are distinct, looking one up finds the entry that is there. -/
theorem lookup_eq_some_iff_mem {entries : List (κ × ν)} (distinct : (entries.map Prod.fst).Nodup)
    {key : κ} {value : ν} : entries.lookup key = some value ↔ (key, value) ∈ entries := by
  induction entries with
  | nil => simp
  | cons entry entries ih =>
      rcases entry with ⟨first, stored⟩
      rw [List.map_cons, List.nodup_cons] at distinct
      rw [List.mem_cons, Prod.mk.injEq]
      by_cases same : key = first
      · have absent : (first, value) ∉ entries := fun among =>
          distinct.1 (List.mem_map.mpr ⟨_, among, rfl⟩)
        rw [same, List.lookup_cons_self, Option.some.injEq]
        constructor
        · rintro rfl
          exact Or.inl ⟨rfl, rfl⟩
        · rintro (⟨-, found⟩ | among)
          · exact found.symm
          · exact absurd among absent
      · have noMatch : (key == first) = false := by simpa using same
        rw [List.lookup_cons, noMatch, ih distinct.2]
        simp [same]

theorem lookup_use (entries : List (κ × ν)) (key other : κ) (value : ν) {found : ν}
    (present : (use capacity entries key value).lookup other = some found) :
    (other = key ∧ found = value) ∨ (other ≠ key ∧ entries.lookup other = some found) := by
  by_cases same : other = key
  · rw [use, same, List.lookup_cons_self] at present
    exact Or.inl ⟨same, (Option.some.inj present).symm⟩
  · have filtered : (entries.filter (·.1 ≠ key)).lookup other = entries.lookup other := by
      clear present
      induction entries with
      | nil => rfl
      | cons entry entries ih =>
          by_cases gone : entry.1 = key
          · have noMatch : (other == entry.1) = false := by simpa [gone] using same
            rw [List.filter_cons_of_neg (by simpa using gone), ih, List.lookup_cons, noMatch]
          · rw [List.filter_cons_of_pos (by simpa using gone), List.lookup_cons, List.lookup_cons, ih]
    have noMatch : (other == key) = false := by simpa using same
    rw [use, List.lookup_cons, noMatch] at present
    refine Or.inr ⟨same, ?_⟩
    rw [← filtered, ← List.take_append_drop (capacity - 1) (entries.filter (·.1 ≠ key)),
      List.lookup_append, show List.lookup other _ = some found from present]
    rfl

/-- An entry holds the value last put under its key. -/
theorem lastPut_of_lookup {key : κ} {value : ν}
    (present : (entries capacity past).lookup key = some value) : lastPut past key = some value := by
  induction past generalizing key value with
  | nil => cases present
  | cons event past ih =>
      cases event with
      | put other stored =>
          rcases lookup_use _ _ _ _ present with ⟨same, found⟩ | ⟨different, found⟩
          · simp [lastPut, same, found]
          · simp [lastPut, Ne.symm different, ih found]
      | hit other =>
          rw [entries] at present
          cases found : (entries capacity past).lookup other with
          | none =>
              rw [found] at present
              exact ih present
          | some stored =>
              rw [found] at present
              rcases lookup_use _ _ _ _ present with ⟨rfl, rfl⟩ | ⟨-, older⟩
              · exact ih found
              · exact ih older
      | miss other => exact ih present
      | clear => cases present

theorem mem_uses_of_lastPut {key : κ} {value : ν} (found : lastPut past key = some value) :
    key ∈ uses past := by
  induction past with
  | nil => cases found
  | cons event past ih =>
      cases event with
      | put other stored =>
          by_cases same : other = key
          · simp [uses, same]
          · rw [lastPut, if_neg same] at found
            exact List.mem_cons_of_mem _ (ih found)
      | hit other => exact List.mem_cons_of_mem _ (ih found)
      | miss other => exact ih found
      | clear => cases found

/-- Looking a key up in the entries answers a read. -/
theorem lookup_entries (positive : 0 < capacity) (possible : Possible capacity past) (key : κ) :
    (entries capacity past).lookup key = answer capacity past key := by
  have keys := keys_entries positive possible
  have present : ((entries capacity past).lookup key).isSome ↔
      key ∈ (recency (uses past)).take capacity := by
    rw [← keys]
    exact isSome_lookup_iff
  cases found : (entries capacity past).lookup key with
  | some value =>
      have put := lastPut_of_lookup found
      have recent := (mem_take_recency (mem_uses_of_lastPut put) capacity).mp
        (present.mp (by rw [found]; rfl))
      rw [answer, if_pos recent, put]
  | none =>
      rw [found] at present
      rw [answer]
      split
      · next recent =>
          cases put : lastPut past key with
          | none => rfl
          | some value =>
              have among := (mem_take_recency (mem_uses_of_lastPut put) capacity).mpr recent
              cases present.mpr among
      · rfl

end Past

end Foundation.Lru
