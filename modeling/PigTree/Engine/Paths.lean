import PigTree.Engine.HardLinks

/-!
# The two path renderers

The builder renders the path of the directory it is visiting, the graph renders the
paths of hard links. Both join the names from the root down, but they place the
separators by different rules, and the builder stops after ten thousand names.
-/

namespace PigTree

open Foundation ParentTree EntryObservation

namespace GraphBuilder

/-! ### The path of a directory in the builder -/

/-- The entry a walk towards the root is at. -/
def walkedEntry (builder : GraphBuilder) (curr : UInt32) : Checked (Option CompactEntry) :=
  if builder.isDense then
    if 1 ≤ curr ∧ curr ≤ UInt32.ofNat builder.entries.length then do
      let entry ← getAt builder.entries (curr - 1).toNat
      return some entry
    else .ok none
  else
    match builder.idToIdx.lookup curr with
    | some idx => do
        let entry ← getAt builder.entries idx.toNat
        return some entry
    | none => .ok none

/-- The names from an identifier up, at most `depth` of them. -/
def collectComponents (builder : GraphBuilder) : ℕ → UInt32 → Checked (List String)
  | 0, _ => .ok []
  | depth + 1, curr =>
      if curr = 0 then .ok []
      else do
        match ← builder.walkedEntry curr with
        | none => return []
        | some entry =>
            let above ← builder.collectComponents depth entry.parentId
            return entry.name :: above

def endsWithSlash (text : String) : Bool := text.toList.getLast? = some '/'

def appendComponent (result comp : String) : String :=
  if ¬DirectoryGraph.endsWithBackslash result ∧ ¬endsWithSlash result then result.push '\\' ++ comp
  else result ++ comp

/-- The components, given from the root down. -/
def joinComponents : List String → Option String
  | [] => none
  | first :: rest => some (rest.foldl appendComponent first)

def maxPathDepth : ℕ := 10000

def reconstructPath (builder : GraphBuilder) (dirId : UInt32) : Checked String :=
  if dirId = 0 ∨ builder.entries = [] then .ok builder.rootTarget
  else do
    let components ← builder.collectComponents maxPathDepth dirId
    return (joinComponents components.reverse).getD builder.rootTarget

def currentDirectoryPath (builder : GraphBuilder) : Checked String :=
  builder.reconstructPath builder.currentDirId

end GraphBuilder

/-! ### Names and separators -/

section Separators

open DirectoryGraph GraphBuilder

/-- The text with a separator after it, unless one is there. -/
def separated (text : String) : String :=
  if ¬endsWithBackslash text ∧ ¬endsWithSlash text then text.push '\\' else text

theorem appendComponent_eq (result comp : String) :
    appendComponent result comp = separated result ++ comp := by
  unfold appendComponent separated
  split
  · rfl
  · rfl

/-- What the graph has rendered before the last name. -/
def renderedAbove (root : String) (between : List String) : String :=
  between.foldl (fun path name => (path ++ name).push '\\')
    (if endsWithBackslash root then root else root.push '\\')

/-- What the builder has rendered before the last name. -/
def reconstructedAbove (root : String) (between : List String) : String :=
  separated (between.foldl appendComponent root)

/-- A name after which both renderers place a separator. -/
def IsOrdinary (name : String) : Prop :=
  name ≠ "" ∧ ¬endsWithBackslash name ∧ ¬endsWithSlash name

theorem joinNames_concat (root : String) (between : List String) (name : String) :
    joinNames (root :: (between ++ [name])).reverse =
      some (renderedAbove root between ++ name) := by
  have folded : (between ++ [name]).foldl (fun path name => (path ++ name).push '\\')
      (if endsWithBackslash root then root else root.push '\\') =
        (renderedAbove root between ++ name).push '\\' := by
    rw [List.foldl_append]
    rfl
  rw [joinNames, List.reverse_reverse]
  dsimp only
  rw [folded, String.toList_push, List.dropLast_concat, String.ofList_toList]

theorem joinNames_root (root : String) : joinNames [root] =
    some (if endsWithBackslash root then String.ofList root.toList.dropLast else root) := by
  rw [joinNames, List.reverse_singleton]
  dsimp only [List.foldl_nil]
  split
  · rfl
  · rw [String.toList_push, List.dropLast_concat, String.ofList_toList]

theorem joinComponents_concat (root : String) (between : List String) (name : String) :
    joinComponents (root :: (between ++ [name])) =
      some (reconstructedAbove root between ++ name) := by
  rw [joinComponents, List.foldl_append, List.foldl_cons, List.foldl_nil, appendComponent_eq]
  rfl

theorem getLast?_append_of_ne_empty {text name : String} (named : name ≠ "") :
    (text ++ name).toList.getLast? = name.toList.getLast? := by
  have some : name.toList ≠ [] := fun none => named (String.toList_eq_nil_iff.mp none)
  rw [String.toList_append, List.getLast?_append_of_ne_nil _ some]

/-- A separator follows exactly the ordinary names. -/
theorem separated_append {text : String} (closed : separated text = text) (name : String) :
    (IsOrdinary name ∧ separated (text ++ name) = (text ++ name).push '\\') ∨
      (¬IsOrdinary name ∧ separated (text ++ name) = text ++ name) := by
  by_cases named : name = ""
  · right
    subst named
    rw [String.append_empty]
    exact ⟨fun ordinary => ordinary.1 rfl, closed⟩
  · unfold separated IsOrdinary endsWithBackslash endsWithSlash
    rw [getLast?_append_of_ne_empty named]
    split
    · next open_ => exact Or.inl ⟨⟨named, open_⟩, rfl⟩
    · next shut => exact Or.inr ⟨fun ordinary => shut ordinary.2, rfl⟩

theorem separated_separated (text : String) : separated (separated text) = separated text := by
  have pushed : endsWithBackslash (text.push '\\') = true := by
    simp [endsWithBackslash]
  by_cases open_ : ¬endsWithBackslash text ∧ ¬endsWithSlash text
  · have once : separated text = text.push '\\' := if_pos open_
    rw [once]
    exact if_neg (fun both => both.1 pushed)
  · have once : separated text = text := if_neg open_
    rw [once, once]

/-- The renderers agree above the last name as long as the root ends in no slash and
every name in between is ordinary; otherwise the builder leaves a separator out. -/
theorem reconstructedAbove_cases (root : String) (between : List String) :
    (endsWithSlash root = false ∧ (∀ name ∈ between, IsOrdinary name) ∧
        reconstructedAbove root between = renderedAbove root between) ∨
      (¬(endsWithSlash root = false ∧ ∀ name ∈ between, IsOrdinary name) ∧
        (reconstructedAbove root between).length < (renderedAbove root between).length) := by
  induction between using List.reverseRecOn with
  | nil =>
      simp only [reconstructedAbove, renderedAbove, List.foldl_nil, List.not_mem_nil,
        false_implies, implies_true, true_and, and_true, separated]
      by_cases slash : endsWithSlash root = true
      · have last : root.toList.getLast? = some '/' := of_decide_eq_true slash
        have other : endsWithBackslash root = false := by simp [endsWithBackslash, last]
        simp [slash, other]
      · by_cases back : endsWithBackslash root = true
        · simp [slash, back]
        · simp [slash, back]
  | append_singleton between name ih =>
      have rendered : renderedAbove root (between ++ [name]) =
          (renderedAbove root between ++ name).push '\\' := by
        rw [renderedAbove, List.foldl_append]
        rfl
      have reconstructed : reconstructedAbove root (between ++ [name]) =
          separated (reconstructedAbove root between ++ name) := by
        rw [reconstructedAbove, List.foldl_append, List.foldl_cons, List.foldl_nil,
          appendComponent_eq]
        rfl
      have closed : separated (reconstructedAbove root between) =
          reconstructedAbove root between := separated_separated _
      rw [rendered, reconstructed]
      simp only [List.mem_append, List.mem_singleton, or_imp, forall_and, forall_eq]
      rcases separated_append closed name with ⟨ordinary, pushed⟩ | ⟨odd, kept⟩
      · rw [pushed]
        rcases ih with ⟨noSlash, all, same⟩ | ⟨broken, shorter⟩
        · left
          exact ⟨noSlash, ⟨all, ordinary⟩, by rw [same]⟩
        · right
          refine ⟨fun both => broken ⟨both.1, both.2.1⟩, ?_⟩
          simp only [String.length_push, String.length_append]
          omega
      · rw [kept]
        right
        refine ⟨fun both => odd both.2.2, ?_⟩
        simp only [String.length_push, String.length_append]
        rcases ih with ⟨_, _, same⟩ | ⟨_, shorter⟩
        · rw [same]
          omega
        · omega

/-- A chain of names, from the root down, that both renderers join alike when one of them
goes up at most `depth` names. -/
def RendersAlike (depth : ℕ) (names : List String) : Prop :=
  names.length ≤ depth ∧
    match names with
    | [] => False
    | root :: below =>
        if below = [] then endsWithBackslash root = false
        else endsWithSlash root = false ∧ ∀ name ∈ below.dropLast, IsOrdinary name

theorem length_reconstructedAbove (root : String) (between : List String) :
    (reconstructedAbove root between).length ≤
      ((root :: between).map String.length).sum + (between.length + 1) := by
  induction between using List.reverseRecOn with
  | nil =>
      unfold reconstructedAbove separated
      split <;> simp
  | append_singleton between name ih =>
      have reconstructed : reconstructedAbove root (between ++ [name]) =
          separated (reconstructedAbove root between ++ name) := by
        rw [reconstructedAbove, List.foldl_append, List.foldl_cons, List.foldl_nil,
          appendComponent_eq]
        rfl
      have most : ∀ text : String, (separated text).length ≤ text.length + 1 := by
        intro text
        unfold separated
        split <;> simp
      have last := most (reconstructedAbove root between ++ name)
      rw [reconstructed]
      simp only [String.length_append, List.map_cons, List.map_append, List.sum_cons,
        List.sum_append, List.map_nil, List.sum_nil, List.length_append, List.length_singleton]
        at last ih ⊢
      omega

theorem le_length_renderedAbove (root : String) (between : List String) :
    (between.map String.length).sum + (between.length + 1) ≤
      (renderedAbove root between).length := by
  induction between using List.reverseRecOn with
  | nil =>
      show 1 ≤ (if endsWithBackslash root then root else root.push '\\').length
      split
      · next back =>
          apply Nat.pos_of_ne_zero
          intro none
          rw [String.length_eq_zero_iff.mp none] at back
          cases back
      · simp
  | append_singleton between name ih =>
      have rendered : renderedAbove root (between ++ [name]) =
          (renderedAbove root between ++ name).push '\\' := by
        rw [renderedAbove, List.foldl_append]
        rfl
      rw [rendered]
      simp only [String.length_push, String.length_append, List.map_cons, List.map_append,
        List.sum_cons, List.sum_append, List.map_nil, List.sum_nil, List.length_append,
        List.length_singleton] at ih ⊢
      omega

/-- Names further up than the builder looks are missing from its text. -/
theorem cut_ne {root first last : String} {between below : List String}
    (suffix : first :: below <:+ between) :
    reconstructedAbove first below ++ last ≠ renderedAbove root between ++ last := by
  intro same
  rw [String.append_left_inj] at same
  have shorter := length_reconstructedAbove first below
  have longer := le_length_renderedAbove root between
  rcases suffix with ⟨above, rfl⟩
  rw [same] at shorter
  simp only [List.map_append, List.sum_append, List.length_append, List.length_cons] at longer
  omega

/-- Both renderers agree exactly on the chains that they join alike. -/
theorem joinComponents_eq_joinNames_iff {depth : ℕ} (least : 2 ≤ depth) (root : String)
    (below : List String) :
    joinComponents ((root :: below).drop ((root :: below).length - depth)) =
      joinNames (root :: below).reverse ↔ RendersAlike depth (root :: below) := by
  rcases List.eq_nil_or_concat below with rfl | ⟨between, last, rfl⟩
  · have shallow : [root].length ≤ depth := Nat.le_of_succ_le least
    rw [Nat.sub_eq_zero_of_le shallow, List.drop_zero, List.reverse_singleton, joinNames_root,
      joinComponents, List.foldl_nil, Option.some.injEq, RendersAlike, and_iff_right shallow,
      if_pos rfl]
    cases back : endsWithBackslash root with
    | false => simp
    | true =>
        simp only [if_true, Bool.true_eq_false, iff_false]
        intro same
        have shorter := congrArg (fun text => text.toList.length) same
        simp only [String.toList_ofList, List.length_dropLast] at shorter
        have some : root.toList ≠ [] := by
          intro none
          rw [endsWithBackslash, none] at back
          cases back
        have positive := List.length_pos_iff.mpr some
        omega
  · have several : between ++ [last] ≠ [] := List.concat_ne_nil last between
    rw [List.concat_eq_append, joinNames_concat, RendersAlike, if_neg several,
      List.dropLast_concat]
    by_cases shallow : (root :: (between ++ [last])).length ≤ depth
    · rw [Nat.sub_eq_zero_of_le shallow, List.drop_zero, joinComponents_concat, Option.some.injEq,
        String.append_left_inj, and_iff_right shallow]
      rcases reconstructedAbove_cases root between with ⟨noSlash, all, same⟩ | ⟨broken, shorter⟩
      · exact iff_of_true same ⟨noSlash, all⟩
      · apply iff_of_false _ broken
        intro same
        rw [same] at shorter
        exact absurd shorter (Nat.lt_irrefl _)
    · apply iff_of_false _ (fun both => shallow both.1)
      -- the root is beyond the depth, so the text starts at a later name
      have long : depth ≤ between.length + 1 := by simpa using shallow
      obtain ⟨cut, cut_eq⟩ : ∃ cut, (root :: (between ++ [last])).length - depth = cut + 1 :=
        ⟨between.length + 1 - depth, by simp; omega⟩
      have within : cut ≤ between.length := by
        simp only [List.length_cons, List.length_append, List.length_nil] at cut_eq
        omega
      rw [cut_eq, List.drop_succ_cons, List.drop_append_of_le_length within]
      cases kept : between.drop cut with
      | nil =>
          have none := congrArg List.length kept
          simp only [List.length_drop, List.length_nil, List.length_cons, List.length_append]
            at none cut_eq
          omega
      | cons first below =>
          rw [List.cons_append, joinComponents_concat, Option.some.injEq]
          exact cut_ne (kept ▸ List.drop_suffix cut between)

theorem exists_joinComponents {names : List String} (some : names ≠ []) :
    ∃ text, joinComponents names = .some text := by
  cases names with
  | nil => exact absurd rfl some
  | cons first rest => exact ⟨_, rfl⟩

theorem exists_joinNames {names : List String} (some : names ≠ []) :
    ∃ text, joinNames names = .some text := by
  rcases List.eq_nil_or_concat names with rfl | ⟨between, root, rfl⟩
  · exact absurd rfl some
  · rw [List.concat_eq_append, joinNames, List.reverse_append, List.reverse_singleton]
    exact ⟨_, rfl⟩

theorem drop_ne_nil {depth : ℕ} (least : 2 ≤ depth) (root : String) (below : List String) :
    (root :: below).drop ((root :: below).length - depth) ≠ [] := by
  apply List.ne_nil_of_length_pos
  rw [List.length_drop, List.length_cons]
  omega

end Separators

namespace Snapshot

variable {s : Snapshot} {idx : ℕ} {entry : EntryObservation}

/-- A walk up finds nothing more after as many steps as there are entries. -/
theorem namesToRoot_of_lt {fuel more : ℕ} (found : s.entries[idx]? = some entry)
    (enough : idx < fuel) (plenty : idx < more) :
    s.namesToRoot fuel entry = s.namesToRoot more entry := by
  induction fuel generalizing idx entry more with
  | zero => omega
  | succ fuel ih =>
      rcases Nat.exists_eq_succ_of_ne_zero (Nat.ne_of_gt (Nat.zero_lt_of_lt plenty)) with
        ⟨more, rfl⟩
      rw [namesToRoot, namesToRoot]
      split
      · rfl
      · next below =>
          have positive : 0 < idx := by
            apply Nat.pos_of_ne_zero
            exact fun first => below ((parentId_eq_zero_iff found).mpr first)
          rcases s.wellFormed.parent found positive with ⟨_, smaller, parent, at_, named, _⟩
          rw [find_eq_some_iff.mpr ⟨List.mem_of_getElem? at_, named⟩]
          have above : s.namesToRoot fuel parent = s.namesToRoot more parent :=
            ih at_ (by omega) (by omega)
          dsimp only
          rw [above]

/-- The names on the way from an entry up to the root. -/
def namesUp (s : Snapshot) (entry : EntryObservation) : List String :=
  s.namesToRoot (s.entries.length + 1) entry

/-- The names on the way from the root down to an entry. -/
def lineage (s : Snapshot) (entry : EntryObservation) : List String := (s.namesUp entry).reverse

theorem namesUp_root (above : entry.parentId = 0) : s.namesUp entry = [entry.name] := by
  rw [namesUp, namesToRoot, if_pos above]

theorem namesUp_below {parent : EntryObservation} (found : s.entries[idx]? = some entry)
    (below : entry.parentId ≠ 0) (parentMem : parent ∈ s.entries)
    (named : parent.entryId = entry.parentId) :
    s.namesUp entry = entry.name :: s.namesUp parent := by
  have positive : 0 < idx := by
    apply Nat.pos_of_ne_zero
    exact fun first => below ((parentId_eq_zero_iff found).mpr first)
  rcases s.wellFormed.parent found positive with ⟨_, smaller, other, at_, otherNamed, _⟩
  have same := s.wellFormed.eq_of_entryId (List.mem_of_getElem? at_) parentMem
    (otherNamed.trans named.symm)
  subst same
  have inside := (List.getElem?_eq_some_iff.mp found).1
  have above : s.namesToRoot s.entries.length other = s.namesUp other :=
    namesToRoot_of_lt at_ (by omega) (by omega)
  rw [namesUp, namesToRoot, if_neg below, find_eq_some_iff.mpr ⟨parentMem, named⟩, ← above]

end Snapshot

namespace GraphBuilder

variable {rt : Runtime} {builder : GraphBuilder} {target : String}
  {records : List ObservationRecord} {graph : DirectoryGraph} {idx : ℕ}
  {entry : EntryObservation}

/-- An accepted identifier leads to its entry, whatever resolves it. -/
theorem Core.walkedEntry_eq {entries : List EntryObservation} (core : Core builder entries)
    (found : entries[idx]? = some entry) :
    builder.walkedEntry entry.entryId = .ok (some entry.compact) := by
  have stored := core.getElem?_entries found
  have inside := (List.getElem?_eq_some_iff.mp found).1
  have room := core.wellFormed.length_le
  unfold walkedEntry
  by_cases dense : builder.isDense = true
  · have number := core.indexed.dense dense idx entry found
    have word : (UInt32.ofNat builder.entries.length).toNat = entries.length := by
      rw [core.length_entries]
      exact UInt32.toNat_ofNat_of_lt' (Indexed.length_lt (dense ▸ core.indexed))
    have within : 1 ≤ entry.entryId ∧ entry.entryId ≤ UInt32.ofNat builder.entries.length := by
      rw [UInt32.le_iff_toNat_le, UInt32.le_iff_toNat_le, word, number]
      exact ⟨Nat.succ_le_succ (Nat.zero_le _), inside⟩
    have position : (entry.entryId - 1).toNat = idx := by
      rw [UInt32.toNat_sub_of_le _ _ within.1, number]
      rfl
    rw [if_pos dense, if_pos within, position, getAt_of_getElem? stored]
    rfl
  · have located := (core.indexed.sparse (Bool.eq_false_iff.mpr dense)).lookup_eq room found
    have position : (UInt32.ofNat idx).toNat = idx :=
      UInt32.toNat_ofNat_of_lt' (Nat.lt_of_lt_of_le inside room)
    rw [if_neg dense, located]
    dsimp only
    rw [position, getAt_of_getElem? stored]
    rfl

/-- A walk finds an entry or nothing, wherever it starts. -/
theorem Core.walkedEntry_ok {entries : List EntryObservation} (core : Core builder entries)
    (curr : UInt32) : ∃ found, builder.walkedEntry curr = .ok found := by
  unfold walkedEntry
  by_cases dense : builder.isDense = true
  · rw [if_pos dense]
    by_cases within : 1 ≤ curr ∧ curr ≤ UInt32.ofNat builder.entries.length
    · have inside : (curr - 1).toNat < builder.entries.length := by
        have least := UInt32.le_iff_toNat_le.mp within.1
        have most := UInt32.le_iff_toNat_le.mp within.2
        have wrapped : (UInt32.ofNat builder.entries.length).toNat ≤ builder.entries.length := by
          rw [UInt32.toNat_ofNat']
          exact Nat.mod_le _ _
        have one : (1 : UInt32).toNat = 1 := rfl
        rw [UInt32.toNat_sub_of_le _ _ within.1]
        omega
      rw [if_pos within, getAt_of_getElem? (List.getElem?_eq_getElem inside)]
      exact ⟨_, rfl⟩
    · rw [if_neg within]
      exact ⟨_, rfl⟩
  · rw [if_neg dense]
    cases located : builder.idToIdx.lookup curr with
    | none => exact ⟨_, rfl⟩
    | some idx =>
        have locates := core.indexed.sparse (Bool.eq_false_iff.mpr dense)
        rcases (locates curr idx).mp located with ⟨entry, found, _⟩
        dsimp only
        rw [getAt_of_getElem? (core.getElem?_entries found)]
        exact ⟨_, rfl⟩

/-- The directory the builder is at always has a path. -/
theorem Core.currentDirectoryPath_ok {entries : List EntryObservation}
    (core : Core builder entries) : ∃ path, builder.currentDirectoryPath = .ok path := by
  have collected : ∀ depth curr, ∃ names, builder.collectComponents depth curr = .ok names := by
    intro depth
    induction depth with
    | zero =>
        intro curr
        exact ⟨[], rfl⟩
    | succ depth ih =>
        intro curr
        unfold collectComponents
        by_cases root : curr = 0
        · rw [if_pos root]
          exact ⟨[], rfl⟩
        rw [if_neg root]
        rcases core.walkedEntry_ok curr with ⟨found, walked⟩
        rw [walked, Checked.ok_bind]
        cases found with
        | none => exact ⟨[], rfl⟩
        | some entry =>
            rcases ih entry.parentId with ⟨above, walkedOn⟩
            dsimp only
            rw [walkedOn]
            exact ⟨_, rfl⟩
  unfold currentDirectoryPath reconstructPath
  by_cases root : builder.currentDirId = 0 ∨ builder.entries = []
  · rw [if_pos root]
    exact ⟨_, rfl⟩
  · rw [if_neg root]
    rcases collected maxPathDepth builder.currentDirId with ⟨names, walked⟩
    rw [walked]
    exact ⟨_, rfl⟩

/-- The builder collects the first names on the way up. -/
theorem Reached.collectComponents_eq (reached : Reached target builder records) (depth : ℕ)
    (found : (entriesOf records)[idx]? = some entry) (addressable : entry.entryId ≠ 0) :
    builder.collectComponents depth entry.entryId =
      .ok ((reached.snapshot.namesUp entry).take depth) := by
  have core := reached.represents.core
  induction depth generalizing idx entry with
  | zero => rfl
  | succ depth ih =>
      rw [collectComponents, if_neg addressable, core.walkedEntry_eq found,
        Checked.ok_bind]
      dsimp only
      rw [compact_parentId, compact_name]
      have snapshotFound : reached.snapshot.entries[idx]? = some entry := found
      by_cases above : entry.parentId = 0
      · rw [Snapshot.namesUp_root above, above]
        cases depth with
        | zero => rfl
        | succ depth => rfl
      · have positive : 0 < idx := by
          apply Nat.pos_of_ne_zero
          exact fun first => above ((Snapshot.parentId_eq_zero_iff snapshotFound).mpr first)
        rcases core.wellFormed.parent found positive with ⟨_, _, parent, at_, named, _⟩
        have walked := ih at_ (named ▸ above)
        rw [named] at walked
        rw [Snapshot.namesUp_below snapshotFound above (List.mem_of_getElem? at_) named, walked]
        rfl

/-- What the builder renders for an entry. -/
theorem Reached.reconstructPath_eq (reached : Reached target builder records)
    (entryMem : entry ∈ entriesOf records) (addressable : entry.entryId ≠ 0) :
    builder.reconstructPath entry.entryId =
      .ok ((joinComponents ((reached.snapshot.lineage entry).drop
        ((reached.snapshot.lineage entry).length - maxPathDepth))).getD target) := by
  rcases List.mem_iff_getElem?.mp entryMem with ⟨idx, found⟩
  have some : builder.entries ≠ [] := by
    rw [Ne, reached.builder_entries_eq_nil_iff]
    exact List.ne_nil_of_mem entryMem
  rw [reconstructPath, if_neg (not_or.mpr ⟨addressable, some⟩),
    reached.collectComponents_eq maxPathDepth found addressable, Checked.ok_bind, List.reverse_take,
    reached.represents.rootTarget_eq, Snapshot.lineage, List.length_reverse]
  rfl

theorem namesUp_ne_nil {s : Snapshot} (entryMem : entry ∈ s.entries) : s.namesUp entry ≠ [] := by
  rcases List.mem_iff_getElem?.mp entryMem with ⟨idx, found⟩
  by_cases above : entry.parentId = 0
  · rw [Snapshot.namesUp_root above]
    exact List.cons_ne_nil _ _
  · have positive : 0 < idx := by
      apply Nat.pos_of_ne_zero
      exact fun first => above ((Snapshot.parentId_eq_zero_iff found).mpr first)
    rcases s.wellFormed.parent found positive with ⟨_, _, parent, at_, named, _⟩
    rw [Snapshot.namesUp_below found above (List.mem_of_getElem? at_) named]
    exact List.cons_ne_nil _ _

/-- The builder and its graph render the same path for an entry exactly when the entry is
at most ten thousand names deep and separators fall alike: the name of a root on its own
ends in no backslash, and above another entry the root's name ends in no slash and every
name between them is not empty and ends in neither. -/
theorem renderers_agree_iff (reached : Reached target builder records)
    (ran : builder.finish rt = .ok (.ok graph)) (entryMem : entry ∈ entriesOf records)
    (addressable : entry.entryId ≠ 0) :
    (∃ path, builder.reconstructPath entry.entryId = .ok path ∧
        graph.displayPath entry.entryId = .ok (some path)) ↔
      RendersAlike maxPathDepth (reached.snapshot.lineage entry) := by
  have presented := reached.presented ran
  rcases List.mem_iff_getElem?.mp entryMem with ⟨idx, found⟩
  have snapshotFound : reached.snapshot.entries[idx]? = some entry := found
  rcases presented.finished.delivered idx entry snapshotFound with ⟨compact, stored, delivered⟩
  have displayed := presented.displayPath_eq snapshotFound stored
  rw [delivered.id_eq, if_neg addressable, Snapshot.path, ← Snapshot.namesUp] at displayed
  rw [reached.reconstructPath_eq entryMem addressable, displayed]
  have someNames := namesUp_ne_nil (s := reached.snapshot) entryMem
  have upwards : (reached.snapshot.lineage entry).reverse = reached.snapshot.namesUp entry :=
    List.reverse_reverse _
  cases chain : reached.snapshot.lineage entry with
  | nil =>
      rw [chain] at upwards
      exact absurd upwards.symm someNames
  | cons root below =>
      rw [chain] at upwards
      have least : 2 ≤ maxPathDepth := by decide
      rcases exists_joinNames someNames with ⟨displayed, joined⟩
      rcases exists_joinComponents (drop_ne_nil least root below) with ⟨reconstructed, collected⟩
      rw [← joinComponents_eq_joinNames_iff least, upwards, joined, collected, Option.getD_some]
      constructor
      · rintro ⟨path, first, second⟩
        rw [Except.ok.inj first, ← Except.ok.inj second]
      · intro same
        exact ⟨reconstructed, rfl, by rw [same]⟩

/-- A drive as the target, whose own path the graph shows without its separator. -/
def Sample.driveRoot : List ObservationRecord := [
  Sample.directory 1 0 "C:\\", Sample.directory 2 1 "left", .terminal (Sample.terminal 2 0 0 0)]

def Sample.leftDirectory : EntryObservation := .directory {
  entryId := 2, parentId := 1, name := "left", fileAttributes := 16, reparseTag := 0
  creationTimeUtcMs := 0, lastWriteTimeUtcMs := 0, lastAccessTimeUtcMs := 0
  objectId := none, allocatedSize := none, totalLinkCount := .notApplicable }

def Sample.driveDirectory : EntryObservation := .directory {
  entryId := 1, parentId := 0, name := "C:\\", fileAttributes := 16, reparseTag := 0
  creationTimeUtcMs := 0, lastWriteTimeUtcMs := 0, lastAccessTimeUtcMs := 0
  objectId := none, allocatedSize := none, totalLinkCount := .notApplicable }

theorem renderers_agree_iff_drive : ∃ builder graph, ∃ reached : Reached "C:\\" builder
    Sample.driveRoot, builder.finish Sample.runtime = .ok (.ok graph) ∧
      ((∃ path, builder.reconstructPath 2 = .ok path ∧ graph.displayPath 2 = .ok (some path)) ↔
        RendersAlike maxPathDepth (reached.snapshot.lineage Sample.leftDirectory)) := by
  have built : isBuilt (buildFromReader Sample.runtime "C:\\" Sample.driveRoot) = true := by
    decide +kernel
  rcases exists_of_isBuilt built with ⟨builder, graph, reached, ran⟩
  have mem : Sample.leftDirectory ∈ entriesOf Sample.driveRoot := by decide
  exact ⟨builder, graph, reached, ran, renderers_agree_iff reached ran mem (by decide)⟩

/-- The builder renders the drive as it is, the graph without its backslash. -/
theorem not_agreeing_drive : ∃ builder graph, Reached "C:\\" builder Sample.driveRoot ∧
    builder.finish Sample.runtime = .ok (.ok graph) ∧
      (∀ entry ∈ entriesOf Sample.driveRoot, entry.entryId ≠ 0) ∧
        Sample.driveDirectory ∈ entriesOf Sample.driveRoot ∧
          ¬∃ path, builder.reconstructPath 1 = .ok path ∧
            graph.displayPath 1 = .ok (some path) := by
  have built : isBuilt (buildFromReader Sample.runtime "C:\\" Sample.driveRoot) = true := by
    decide +kernel
  rcases exists_of_isBuilt built with ⟨builder, graph, reached, ran⟩
  have mem : Sample.driveDirectory ∈ entriesOf Sample.driveRoot := by decide
  refine ⟨builder, graph, reached, ran, by decide, mem, ?_⟩
  have rendered := reached.reconstructPath_eq mem (by decide)
  have presented := reached.presented ran
  have found : reached.snapshot.entries[0]? = some Sample.driveDirectory := rfl
  rcases presented.finished.delivered 0 _ found with ⟨compact, stored, delivered⟩
  have displayed := presented.displayPath_eq found stored
  rw [delivered.id_eq] at displayed
  have alone : reached.snapshot.namesUp Sample.driveDirectory = ["C:\\"] :=
    Snapshot.namesUp_root rfl
  have shallow : ["C:\\"].length ≤ maxPathDepth := by decide
  have reconstructed : builder.reconstructPath 1 = .ok "C:\\" := by
    rw [Snapshot.lineage, alone, List.reverse_singleton, Nat.sub_eq_zero_of_le shallow] at rendered
    exact rendered
  have shown : graph.displayPath 1 = .ok (some "C:") := by
    rw [Snapshot.path, ← Snapshot.namesUp, alone, joinNames_root] at displayed
    exact displayed
  rintro ⟨path, first, second⟩
  rw [reconstructed] at first
  rw [shown, ← Except.ok.inj first] at second
  exact absurd (Option.some.inj (Except.ok.inj second)) (by decide)

end GraphBuilder

end PigTree
