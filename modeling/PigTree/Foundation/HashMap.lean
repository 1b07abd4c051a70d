import Mathlib

/-!
# Hash maps and their iteration order

A hash map is an association list with distinct keys; the order in which a loop
visits it is not determined by its contents. `IterationOrder` is that order as
a parameter: any enumeration of the key-value pairs.
-/

namespace Foundation

abbrev HashMap (κ ν : Type) : Type := AList (fun _ : κ => ν)

section HashMap

variable {κ ν : Type} [DecidableEq κ]

/-- The key-value pairs of a map. -/
def pairs {κ ν : Type} (map : HashMap κ ν) : List (κ × ν) :=
  map.entries.map (fun entry => (entry.1, entry.2))

@[simp]
theorem mem_pairs {map : HashMap κ ν} {key : κ} {value : ν} :
    (key, value) ∈ pairs map ↔ map.lookup key = some value := by
  rw [← Option.mem_def, AList.mem_lookup_iff]
  simp only [pairs, List.mem_map, Prod.mk.injEq, Sigma.exists, exists_eq_right_right]
  constructor
  · rintro ⟨key', mem, rfl⟩
    exact mem
  · intro mem
    exact ⟨key, mem, rfl⟩

omit [DecidableEq κ] in
theorem nodup_keys_pairs (map : HashMap κ ν) : ((pairs map).map Prod.fst).Nodup := by
  have nodup : map.entries.keys.Nodup := map.nodupKeys
  simpa [pairs, List.keys, Function.comp_def] using nodup

/-- Append a value to the list stored under a key, starting from the empty list. -/
def pushAt (map : HashMap κ (List ν)) (key : κ) (value : ν) : HashMap κ (List ν) :=
  map.insert key ((map.lookup key).getD [] ++ [value])

@[simp]
theorem lookup_pushAt_self (map : HashMap κ (List ν)) (key : κ) (value : ν) :
    (pushAt map key value).lookup key = some ((map.lookup key).getD [] ++ [value]) :=
  AList.lookup_insert map

theorem lookup_pushAt_of_ne (map : HashMap κ (List ν)) {key other : κ} (value : ν)
    (different : other ≠ key) : (pushAt map key value).lookup other = map.lookup other :=
  AList.lookup_insert_ne different

/-- The values of each key, in the order of the items. -/
def groups (items : List (κ × ν)) : HashMap κ (List ν) :=
  items.foldl (fun map item => pushAt map item.1 item.2) ∅

theorem groups_concat (items : List (κ × ν)) (item : κ × ν) :
    groups (items ++ [item]) = pushAt (groups items) item.1 item.2 := by
  simp [groups]

/-- A key of some item has the values of its items, other keys are absent. -/
theorem lookup_groups (items : List (κ × ν)) (key : κ) :
    (groups items).lookup key =
      if key ∈ items.map Prod.fst then
        some ((items.filter (fun item => item.1 = key)).map Prod.snd)
      else none := by
  induction items using List.reverseRecOn with
  | nil => rfl
  | append_singleton items item ih =>
      rw [groups_concat]
      by_cases same : key = item.1
      · subst same
        rw [lookup_pushAt_self, ih]
        by_cases seen : item.1 ∈ items.map Prod.fst
        · rw [if_pos seen]
          simp
        · rw [if_neg seen]
          have none : items.filter (fun other => other.1 = item.1) = [] := by
            apply List.filter_eq_nil_iff.mpr
            intro other otherMem equal
            apply seen
            exact List.mem_map.mpr ⟨other, otherMem, of_decide_eq_true equal⟩
          simp [none]
      · have other : ¬item.1 = key := fun equal => same equal.symm
        have keys : key ∈ (items ++ [item]).map Prod.fst ↔ key ∈ items.map Prod.fst := by
          simp [same]
        have values : (items ++ [item]).filter (fun item => item.1 = key) =
            items.filter (fun item => item.1 = key) := by
          simp [other]
        rw [lookup_pushAt_of_ne _ _ same, ih, values]
        exact if_congr keys.symm rfl rfl

theorem getD_lookup_groups (items : List (κ × ν)) (key : κ) :
    ((groups items).lookup key).getD [] =
      (items.filter (fun item => item.1 = key)).map Prod.snd := by
  rw [lookup_groups]
  split
  · rfl
  · next absent =>
      have none : items.filter (fun item => item.1 = key) = [] := by
        apply List.filter_eq_nil_iff.mpr
        intro item itemMem equal
        exact absent (List.mem_map.mpr ⟨item, itemMem, of_decide_eq_true equal⟩)
      rw [none]
      rfl

end HashMap

section Firsts

variable {α β : Type} [DecidableEq α] [DecidableEq β]

/-- The distinct items of a list, in the order of their first occurrence. -/
def firsts (items : List α) : List α :=
  items.foldl (fun seen item => if item ∈ seen then seen else seen ++ [item]) []

theorem firsts_concat (items : List α) (item : α) :
    firsts (items ++ [item]) = if item ∈ firsts items then firsts items
      else firsts items ++ [item] := by
  rw [firsts, List.foldl_append]
  rfl

@[simp]
theorem mem_firsts {items : List α} {item : α} : item ∈ firsts items ↔ item ∈ items := by
  induction items using List.reverseRecOn with
  | nil => simp [firsts]
  | append_singleton items last ih =>
      rw [firsts_concat]
      split
      · next seen =>
          rw [ih, List.mem_append, List.mem_singleton]
          constructor
          · exact Or.inl
          · rintro (mem | rfl)
            · exact mem
            · exact ih.mp seen
      · rw [List.mem_append, List.mem_append, ih]

theorem nodup_firsts (items : List α) : (firsts items).Nodup := by
  induction items using List.reverseRecOn with
  | nil => exact List.nodup_nil
  | append_singleton items last ih =>
      rw [firsts_concat]
      split
      · exact ih
      · next fresh => exact List.nodup_append.mpr ⟨ih, by simp, by
          intro left leftMem right rightMem same
          rw [List.mem_singleton.mp rightMem] at same
          exact fresh (same ▸ leftMem)⟩

/-- Translating items one to one, some of them to nothing, keeps the first occurrences. -/
theorem filterMap_firsts {items : List α} {translate : α → Option β}
    (apart : ∀ left ∈ items, ∀ right ∈ items, ∀ image, translate left = some image →
      translate right = some image → left = right) :
    (firsts items).filterMap translate = firsts (items.filterMap translate) := by
  induction items using List.reverseRecOn with
  | nil => rfl
  | append_singleton items last ih =>
      have earlier := ih (fun left leftMem right rightMem =>
        apart left (List.mem_append_left _ leftMem) right (List.mem_append_left _ rightMem))
      have lastMem : last ∈ items ++ [last] := by simp
      rw [firsts_concat, List.filterMap_append]
      cases image : translate last with
      | none =>
          rw [List.filterMap_cons_none image, List.filterMap_nil, List.append_nil, ← earlier]
          split
          · rfl
          · rw [List.filterMap_append, List.filterMap_cons_none image, List.filterMap_nil,
              List.append_nil]
      | some value =>
          have seen : last ∈ firsts items ↔ value ∈ firsts (items.filterMap translate) := by
            rw [mem_firsts, mem_firsts, List.mem_filterMap]
            constructor
            · intro mem
              exact ⟨last, mem, image⟩
            · rintro ⟨other, otherMem, same⟩
              rwa [apart last lastMem other (List.mem_append_left _ otherMem) value image same]
          rw [List.filterMap_cons_some image, List.filterMap_nil, firsts_concat, ← earlier]
          rw [← earlier] at seen
          by_cases mem : last ∈ firsts items
          · rw [if_pos mem, if_pos (seen.mp mem)]
          · rw [if_neg mem, if_neg (fun other => mem (seen.mpr other)), List.filterMap_append,
              List.filterMap_cons_some image, List.filterMap_nil]

/-- Filtering by a translated key is filtering by the key. -/
theorem filter_translated {γ : Type} {items : List (α × γ)}
    {translate : α → Option β} {key : α} {image : β}
    (agree : ∀ item ∈ items, translate item.1 = some image ↔ item.1 = key) :
    ((items.filterMap (fun item => (translate item.1).map (fun named => (named, item.2)))).filter
        (fun item => item.1 = image)).map Prod.snd =
      (items.filter (fun item => item.1 = key)).map Prod.snd := by
  induction items with
  | nil => rfl
  | cons item items ih =>
      have rest := ih (fun other otherMem => agree other (List.mem_cons_of_mem _ otherMem))
      have here := agree item List.mem_cons_self
      cases named : translate item.1 with
      | none =>
          have other : ¬item.1 = key := by
            intro same
            rw [here.mpr same] at named
            cases named
          rw [List.filterMap_cons_none (by simp [named]), rest]
          simp [other]
      | some name =>
          rw [List.filterMap_cons_some (b := (name, item.2)) (by simp [named])]
          rw [named, Option.some.injEq] at here
          by_cases same : item.1 = key
          · simp [same, here.mpr same, rest]
          · have other : ¬name = image := fun equal => same (here.mp equal)
            simp [same, other, rest]

end Firsts

/-- An order in which loops over maps of one type visit the key-value pairs. -/
structure IterationOrder (κ ν : Type) where
  visit : HashMap κ ν → List (κ × ν)
  visit_perm : ∀ map, (visit map).Perm (pairs map)

namespace IterationOrder

variable {κ ν : Type}

/-- The order that follows the association list. -/
def listed : IterationOrder κ ν where
  visit := pairs
  visit_perm := fun _ => List.Perm.refl _

theorem mem_visit [DecidableEq κ] (order : IterationOrder κ ν) {map : HashMap κ ν} {key : κ}
    {value : ν} : (key, value) ∈ order.visit map ↔ map.lookup key = some value := by
  rw [(order.visit_perm map).mem_iff, mem_pairs]

theorem nodup_keys_visit (order : IterationOrder κ ν) (map : HashMap κ ν) :
    ((order.visit map).map Prod.fst).Nodup :=
  ((order.visit_perm map).map Prod.fst).nodup_iff.mpr (nodup_keys_pairs map)

end IterationOrder

end Foundation
