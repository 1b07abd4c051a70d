import Mathlib
import PigTree.Foundation.Text

/-!
# Who may open a pipe

The access list of a pipe is written as text: one entry for the user, and one for each
restricted identifier of the token that is exact enough. The broad groups are refused by
two tables, one of abbreviations and one of numeric identifiers; the well-known groups
say what the two tables ought to agree on.
-/

namespace PigTree

open Foundation.Text

namespace PipeSecurity

def sddlAbbreviations : List String :=
  ["WD", "AU", "BU", "BA", "BG", "NU", "IU", "RC", "AN", "ED"]

def broadStringSids : List String :=
  ["S-1-1-0", "S-1-5-11", "S-1-5-32-545", "S-1-5-32-544", "S-1-5-32-546", "S-1-5-7", "S-1-5-2",
    "S-1-5-4", "S-1-5-15"]

def isBroadSid (sid : String) : Bool :=
  let s := trim sid
  if s.isEmpty then true
  else if s ∈ sddlAbbreviations then true
  else if s ∈ broadStringSids then true
  else false

/-- An entry that allows everything to one identifier. -/
def allowEntry (sid : String) : String := "(A;;GA;;;" ++ sid ++ ")"

def dropsRestricted (userSid rsid : String) : Bool :=
  let trimmed := trim rsid
  trimmed.isEmpty || trimmed = userSid || isBroadSid trimmed

def pushRestricted (userSid : String) (daclEntries rsid : String) : String :=
  if dropsRestricted userSid rsid then daclEntries else daclEntries ++ allowEntry (trim rsid)

def buildPipeSddl (userSid : String) (restrictedSids : List String) : String :=
  "D:" ++ restrictedSids.foldl (pushRestricted userSid) (allowEntry userSid) ++
    "S:(ML;;NW;;;ME)"

end PipeSecurity

/-! ### What the list of entries is for -/

/-- The groups that are too broad for the access list of a private pipe. -/
inductive BroadGroup where
  | everyone
  | authenticatedUsers
  | builtinUsers
  | builtinAdministrators
  | builtinGuests
  | network
  | interactive
  | restrictedCode
  | anonymous
  | enterpriseDomainControllers
  | thisOrganization
deriving DecidableEq, Repr

namespace BroadGroup

/-- The abbreviation of the group in an access list, where it has one. -/
def abbreviation : BroadGroup → Option String
  | everyone => some "WD"
  | authenticatedUsers => some "AU"
  | builtinUsers => some "BU"
  | builtinAdministrators => some "BA"
  | builtinGuests => some "BG"
  | network => some "NU"
  | interactive => some "IU"
  | restrictedCode => some "RC"
  | anonymous => some "AN"
  | enterpriseDomainControllers => some "ED"
  | thisOrganization => none

/-- The well-known numeric identifier of the group. -/
def wellKnownSid : BroadGroup → String
  | everyone => "S-1-1-0"
  | authenticatedUsers => "S-1-5-11"
  | builtinUsers => "S-1-5-32-545"
  | builtinAdministrators => "S-1-5-32-544"
  | builtinGuests => "S-1-5-32-546"
  | network => "S-1-5-2"
  | interactive => "S-1-5-4"
  | restrictedCode => "S-1-5-12"
  | anonymous => "S-1-5-7"
  | enterpriseDomainControllers => "S-1-5-9"
  | thisOrganization => "S-1-5-15"

def all : List BroadGroup :=
  [everyone, authenticatedUsers, builtinUsers, builtinAdministrators, builtinGuests, network,
    interactive, restrictedCode, anonymous, enterpriseDomainControllers, thisOrganization]

end BroadGroup

namespace PipeSecurity

/-- A string names a broad group by its abbreviation or by its numeric identifier. -/
def NamesBroadGroup (sid : String) : Prop :=
  ∃ group ∈ BroadGroup.all, group.abbreviation = some sid ∨ group.wellKnownSid = sid

instance (sid : String) : Decidable (NamesBroadGroup sid) :=
  inferInstanceAs (Decidable (∃ group ∈ BroadGroup.all, _))

/-- An element of the restricted list that deserves an entry of its own. -/
def Deserves (userSid rsid : String) : Prop :=
  trim rsid ≠ "" ∧ trim rsid ≠ userSid ∧ ¬NamesBroadGroup (trim rsid)

instance (userSid rsid : String) : Decidable (Deserves userSid rsid) :=
  inferInstanceAs (Decidable (_ ∧ _ ∧ ¬_))

/-- The identifiers of the wanted entries, in the order of the list. -/
def wantedSids (userSid : String) (restrictedSids : List String) : List String :=
  userSid :: (restrictedSids.filter fun rsid => Deserves userSid rsid).map trim

/-- The text of an access list with these allow entries and no other. -/
def sddlOf (sids : List String) : String :=
  "D:" ++ String.join (sids.map allowEntry) ++ "S:(ML;;NW;;;ME)"

/-- The numeric identifiers of the two groups that only the abbreviations cover. -/
def uncoveredSids : List String :=
  [BroadGroup.restrictedCode.wellKnownSid, BroadGroup.enterpriseDomainControllers.wellKnownSid]

theorem tables_sound :
    ∀ sid ∈ sddlAbbreviations ++ broadStringSids,
      NamesBroadGroup sid ∧ sid ∉ uncoveredSids := by
  decide

theorem tables_complete :
    ∀ group ∈ BroadGroup.all,
      (∀ sid ∈ group.abbreviation, sid ∈ sddlAbbreviations) ∧
        (group.wellKnownSid ∈ broadStringSids ∨ group.wellKnownSid ∈ uncoveredSids) := by
  decide

theorem namesBroadGroup_of_mem_uncoveredSids :
    ∀ sid ∈ uncoveredSids, NamesBroadGroup sid ∧ sid ≠ "" ∧ trim sid = sid := by
  decide

/-- The two tables of the code name every broad group, but for two numeric
identifiers. -/
theorem isBroadSid_iff (sid : String) :
    isBroadSid sid = true ↔
      trim sid = "" ∨ (NamesBroadGroup (trim sid) ∧ trim sid ∉ uncoveredSids) := by
  have listed : isBroadSid sid = true ↔
      trim sid = "" ∨ trim sid ∈ sddlAbbreviations ++ broadStringSids := by
    simp only [isBroadSid, String.isEmpty_iff, List.mem_append]
    split_ifs <;> simp_all
  rw [listed]
  apply or_congr_right
  constructor
  · exact tables_sound (trim sid)
  · rintro ⟨⟨group, known, named⟩, covered⟩
    rcases tables_complete group known with ⟨short, numeric⟩
    rw [List.mem_append]
    rcases named with abbreviated | spelled
    · exact Or.inl (short _ abbreviated)
    · exact Or.inr (spelled ▸ numeric.resolve_right (spelled.symm ▸ covered))

/-- The code drops an element exactly when it does not deserve an entry, or is one of
the two identifiers its tables miss. -/
theorem dropsRestricted_eq_false_iff (userSid rsid : String) :
    dropsRestricted userSid rsid = false ↔
      Deserves userSid rsid ∨ (trim rsid ∈ uncoveredSids ∧ trim rsid ≠ userSid) := by
  have broad := isBroadSid_iff (trim rsid)
  rw [trim_trim] at broad
  have dropped : dropsRestricted userSid rsid = true ↔ trim rsid = "" ∨ trim rsid = userSid ∨
      (NamesBroadGroup (trim rsid) ∧ trim rsid ∉ uncoveredSids) := by
    simp only [dropsRestricted, Bool.or_eq_true, String.isEmpty_iff, decide_eq_true_eq, broad]
    constructor
    · rintro ((blank | same) | blank | group)
      · exact Or.inl blank
      · exact Or.inr (Or.inl same)
      · exact Or.inl blank
      · exact Or.inr (Or.inr group)
    · rintro (blank | same | group)
      · exact Or.inl (Or.inl blank)
      · exact Or.inl (Or.inr same)
      · exact Or.inr (Or.inr group)
  rw [← Bool.not_eq_true, dropped, Deserves]
  by_cases missed : trim rsid ∈ uncoveredSids
  · rcases namesBroadGroup_of_mem_uncoveredSids _ missed with ⟨named, visible, -⟩
    simp [missed, named, visible]
  · simp [missed]

/-! ### The text the code writes -/

theorem foldl_pushRestricted (userSid : String) (restrictedSids : List String)
    (entries : String) :
    restrictedSids.foldl (pushRestricted userSid) entries =
      entries ++ String.join
        (((restrictedSids.filter fun rsid => !dropsRestricted userSid rsid).map trim).map
          allowEntry) := by
  induction restrictedSids generalizing entries with
  | nil => simp
  | cons rsid rest ih =>
      rw [List.foldl_cons, ih, pushRestricted]
      cases dropped : dropsRestricted userSid rsid with
      | true => simp [dropped]
      | false => simp [dropped, String.append_assoc]

theorem buildPipeSddl_eq (userSid : String) (restrictedSids : List String) :
    buildPipeSddl userSid restrictedSids =
      sddlOf (userSid ::
        (restrictedSids.filter fun rsid => !dropsRestricted userSid rsid).map trim) := by
  rw [buildPipeSddl, foldl_pushRestricted]
  simp [sddlOf, String.append_assoc]

theorem length_sddlOf (sids : List String) :
    (sddlOf sids).length = 17 + (sids.map fun sid => (allowEntry sid).length).sum := by
  have entries : (String.join (sids.map allowEntry)).length =
      (sids.map fun sid => (allowEntry sid).length).sum := by
    induction sids with
    | nil => rfl
    | cons sid rest ih => simp [ih]
  have head : "D:".length = 2 := rfl
  have tail : "S:(ML;;NW;;;ME)".length = 15 := rfl
  simp only [sddlOf, String.length_append, entries, head, tail]
  omega

/-- The longer list has the longer text. -/
theorem length_sddlOf_lt {userSid : String} {kept wanted : List String}
    (part : wanted.Sublist kept) (proper : wanted.length < kept.length) :
    (sddlOf (userSid :: wanted)).length < (sddlOf (userSid :: kept)).length := by
  have visible (sid : String) : 0 < (allowEntry sid).length := by
    have opening : "(A;;GA;;;".length = 9 := rfl
    simp only [allowEntry, String.length_append, opening]
    omega
  simp only [length_sddlOf, List.map_cons, List.sum_cons]
  suffices (wanted.map fun sid => (allowEntry sid).length).sum <
      (kept.map fun sid => (allowEntry sid).length).sum by omega
  induction part with
  | slnil => cases proper
  | @cons shorter longer sid part ih =>
      have rest := (part.map fun sid => (allowEntry sid).length).sum_le_sum (by simp)
      simp only [List.map_cons, List.sum_cons]
      have := visible sid
      omega
  | @cons_cons shorter longer sid part ih =>
      have rest := ih (by simpa using proper)
      simp only [List.map_cons, List.sum_cons]
      omega

theorem not_dropsRestricted_of_deserves (userSid rsid : String) (wanted : decide (Deserves userSid rsid) = true) :
    (!dropsRestricted userSid rsid) = true := by
  rw [Bool.not_eq_true', dropsRestricted_eq_false_iff]
  exact Or.inl (of_decide_eq_true wanted)

/-- The pipe's text has an allow entry for the user and for every element of the list
that deserves one, and no other, exactly when the list holds neither of the two numeric
identifiers that the tables miss. -/
theorem buildPipeSddl_allows_wanted (userSid : String) (exact : ¬NamesBroadGroup userSid)
    (restrictedSids : List String) :
    buildPipeSddl userSid restrictedSids = sddlOf (wantedSids userSid restrictedSids) ↔
      ∀ rsid ∈ restrictedSids, trim rsid ≠ "S-1-5-12" ∧ trim rsid ≠ "S-1-5-9" := by
  have missed (rsid : String) : trim rsid ∈ uncoveredSids ↔
      ¬(trim rsid ≠ "S-1-5-12" ∧ trim rsid ≠ "S-1-5-9") := by
    simp [uncoveredSids, BroadGroup.wellKnownSid, Classical.or_iff_not_imp_left]
  rw [buildPipeSddl_eq, wantedSids]
  constructor
  · intro same rsid listed
    by_contra uncovered
    have part := List.monotone_filter_right restrictedSids (not_dropsRestricted_of_deserves userSid)
    have lengths : ¬(_ : ℕ) < _ := fun proper =>
      (length_sddlOf_lt (part.map trim) proper).ne' (congrArg String.length same)
    have filters := part.eq_of_length_le (by simpa using lengths)
    have missing := (missed rsid).mpr uncovered
    have named := (namesBroadGroup_of_mem_uncoveredSids _ missing).1
    have kept : dropsRestricted userSid rsid = false :=
      (dropsRestricted_eq_false_iff userSid rsid).mpr
        (Or.inr ⟨missing, fun user => exact (user ▸ named)⟩)
    have inKept : rsid ∈ restrictedSids.filter fun rsid => !dropsRestricted userSid rsid :=
      List.mem_filter.mpr ⟨listed, by simp [kept]⟩
    rw [← filters] at inKept
    exact (of_decide_eq_true (List.mem_filter.mp inKept).2).2.2 named
  · intro covered
    congr 3
    apply List.filter_congr
    intro rsid listed
    have present : trim rsid ∉ uncoveredSids := fun missing =>
      (missed rsid).mp missing (covered rsid listed)
    rw [Bool.eq_iff_iff, Bool.not_eq_true', dropsRestricted_eq_false_iff, decide_eq_true_eq]
    simp [present]

theorem buildPipeSddl_allows_wanted_groups :
    buildPipeSddl "S-1-5-21-7-8-9-1001" ["WD", " S-1-5-5-0-515154", "S-1-5-11"] =
      sddlOf (wantedSids "S-1-5-21-7-8-9-1001" ["WD", " S-1-5-5-0-515154", "S-1-5-11"]) :=
  (buildPipeSddl_allows_wanted _ (by decide) _).mpr (by decide)

/-- A token restricted to restricted code: its numeric identifier gets an entry. -/
theorem buildPipeSddl_grants_restricted_code :
    ¬∀ userSid, trim userSid = userSid → ¬NamesBroadGroup userSid → ∀ restrictedSids,
      buildPipeSddl userSid restrictedSids = sddlOf (wantedSids userSid restrictedSids) := by
  intro claim
  have entries := claim "S-1-5-21-7-8-9-1001" (by decide) (by decide) ["S-1-5-12"]
  revert entries
  decide

end PipeSecurity

end PigTree
