import PigTree.Foundation.JsonText
import PigTree.Protocol.Json

/-!
# What the printed documents say

The value each printed line stands for, member by member, and the proof that a reader of
JSON gets it back from the text.
-/

namespace PigTree

open Foundation Foundation.JsonText

namespace Json

/-! ### Texts of the printers -/

/-- A text without control characters that is read as a value without duplicate keys. -/
structure Renders (text : String) (read : JsonValue) : Prop where
  isText : IsText text.toList read
  printable : ∀ c ∈ text.toList, 0x20 ≤ c.toNat
  distinct : read.Distinct

theorem hexNumber_hexByte (value : ℕ) (control : value < 32) :
    hexNumber ['0', '0', hexDigit (value / 16), hexDigit (value % 16)] = some value := by
  have each : ∀ value < 32,
      hexNumber ['0', '0', hexDigit (value / 16), hexDigit (value % 16)] = some value := by
    decide
  exact each value control

theorem toList_escapeChar_control (c : Char) :
    ("\\u00" ++ hexByte c.toNat).toList =
      ['\\', 'u', '0', '0', hexDigit (c.toNat / 16), hexDigit (c.toNat % 16)] := by
  simp [hexByte]

theorem spells_escapeChar (c : Char) : Spells (escapeChar c).toList c := by
  unfold escapeChar
  split
  · next quote =>
      subst quote
      exact spells_short rfl (by decide)
  split
  · next backslash =>
      subst backslash
      exact spells_short rfl (by decide)
  split
  · next newline =>
      subst newline
      exact spells_short rfl (by decide)
  split
  · next carriage =>
      subst carriage
      exact spells_short rfl (by decide)
  split
  · next tab =>
      subst tab
      exact spells_short rfl (by decide)
  split
  · next backspace =>
      subst backspace
      exact spells_short rfl (by decide)
  split
  · next feed =>
      subst feed
      exact spells_short rfl (by decide)
  split
  · next control =>
      have spelled := spells_codeUnit (hexNumber_hexByte c.toNat control) (by omega)
      rw [Char.ofNat_toNat] at spelled
      rw [toList_escapeChar_control c]
      exact spelled
  · next quote backslash _ _ _ _ _ visible =>
      rw [Char.toString, String.toList_singleton]
      exact spells_plain quote backslash visible

theorem printable_escapeChar (c : Char) : ∀ d ∈ (escapeChar c).toList, 0x20 ≤ d.toNat := by
  unfold escapeChar
  split
  · simp
  split
  · simp
  split
  · simp
  split
  · simp
  split
  · simp
  split
  · simp
  split
  · simp
  split
  · next control =>
      have each : ∀ value < 32, 0x20 ≤ (hexDigit (value / 16)).toNat ∧
          0x20 ≤ (hexDigit (value % 16)).toNat := by decide
      have digits := each c.toNat control
      rw [toList_escapeChar_control c]
      simp [digits.1, digits.2]
  · next visible =>
      rw [Char.toString, String.toList_singleton]
      simpa using visible

theorem toList_escapeJsonString (s : String) : (escapeJsonString s).toList =
    '"' :: (s.toList.flatMap (fun c => (escapeChar c).toList) ++ ['"']) := by
  rw [escapeJsonString, String.toList_append, String.toList_append, String.toList_join,
    List.flatMap_map]
  rfl

theorem renders_string (s : String) : Renders (escapeJsonString s) (.string s) where
  isText := by
    rw [toList_escapeJsonString]
    exact isText_string (isQuoted_spelled (fun c _ => spells_escapeChar c))
  printable := by
    rw [toList_escapeJsonString]
    intro c mem
    simp only [List.mem_cons, List.mem_append, List.mem_flatMap, List.not_mem_nil, or_false] at mem
    rcases mem with rfl | ⟨source, _, spelled⟩ | rfl
    · decide
    · exact printable_escapeChar source c spelled
    · decide
  distinct := .string s

theorem renders_nat (n : ℕ) : Renders (toString n) (.number n) where
  isText := by
    rw [Nat.toString_eq_ofList_toDigits, String.toList_ofList]
    exact isText_number n
  printable := by
    rw [Nat.toString_eq_ofList_toDigits, String.toList_ofList]
    intro c mem
    have digit := Nat.isDigit_of_mem_toDigits (b := 10) (by decide) (by decide) mem
    simp only [Char.isDigit, Bool.and_eq_true, decide_eq_true_eq] at digit
    have least : (48 : UInt32).toNat ≤ c.val.toNat := UInt32.le_iff_toNat_le.mp digit.1
    exact Nat.le_trans (by decide) least
  distinct := .number _

theorem renders_bool (b : Bool) : Renders (toString b) (.bool b) where
  isText := isText_bool b
  printable := by
    cases b with
    | false =>
        show ∀ c ∈ "false".toList, 0x20 ≤ c.toNat
        simp
    | true =>
        show ∀ c ∈ "true".toList, 0x20 ≤ c.toNat
        simp
  distinct := .bool b

theorem renders_null : Renders "null" .null where
  isText := isText_null
  printable := by simp
  distinct := .null

theorem toList_intercalate_comma (texts : List String) :
    (String.intercalate "," texts).toList = [','].intercalate (texts.map String.toList) :=
  String.toList_intercalate

theorem printable_intercalate {texts : List String}
    (each : ∀ text ∈ texts, ∀ c ∈ text.toList, 0x20 ≤ c.toNat) :
    ∀ c ∈ (String.intercalate "," texts).toList, 0x20 ≤ c.toNat := by
  rw [toList_intercalate_comma]
  induction texts with
  | nil => simp
  | cons text texts ih =>
      have rest := ih (fun other otherMem => each other (List.mem_cons_of_mem _ otherMem))
      have here := each text List.mem_cons_self
      cases texts with
      | nil => simpa using here
      | cons next texts =>
          intro c mem
          rw [List.map_cons, List.map_cons, List.intercalate_cons_cons, List.mem_append,
            List.mem_append] at mem
          rcases mem with (mem | mem) | mem
          · exact here c mem
          · rw [List.mem_singleton.mp mem]
            decide
          · exact rest c mem

/-- What holds of related elements one by one holds of the elements of one list. -/
theorem forall_left {α β : Type} {R : α → β → Prop} {P : α → Prop} {left : List α}
    {right : List β} (each : List.Forall₂ R left right) (holds : ∀ a b, R a b → P a) :
    ∀ a ∈ left, P a := by
  induction each with
  | nil => simp
  | cons related _ ih =>
      rw [List.forall_mem_cons]
      exact ⟨holds _ _ related, ih⟩

theorem forall_right {α β : Type} {R : α → β → Prop} {P : β → Prop} {left : List α}
    {right : List β} (each : List.Forall₂ R left right) (holds : ∀ a b, R a b → P b) :
    ∀ b ∈ right, P b := forall_left each.flip (fun b a related => holds a b related)

theorem renders_array {texts : List String} {values : List JsonValue}
    (each : List.Forall₂ Renders texts values) : Renders (array texts) (.array values) := by
  have shape : (array texts).toList =
      '[' :: ([','].intercalate (texts.map String.toList) ++ [']']) := by
    rw [array, String.toList_append, String.toList_append, toList_intercalate_comma]
    rfl
  constructor
  · rw [shape]
    apply isText_array
    rw [List.forall₂_map_left_iff]
    exact each.imp (fun _ _ renders => renders.isText)
  · have inside := printable_intercalate (forall_left each (fun _ _ renders => renders.printable))
    rw [shape, ← toList_intercalate_comma]
    intro c mem
    simp only [List.mem_cons, List.mem_append, List.not_mem_nil, or_false] at mem
    rcases mem with rfl | mem | rfl
    · decide
    · exact inside c mem
    · decide
  · exact .array (forall_right each (fun _ _ renders => renders.distinct))

/-- A key that is printed as it is. -/
def plainKey (key : String) : Bool :=
  key.toList.all (fun c => c ≠ '"' && c ≠ '\\' && 0x20 ≤ c.toNat)

/-- A key with a printed value, and the member it is read as. -/
structure RendersMember (field : String × String) (member : String × JsonValue) : Prop where
  key : field.1 = member.1
  plain : plainKey field.1 = true
  body : Renders field.2 member.2

theorem plainKey_iff {key : String} : plainKey key = true ↔
    ∀ c ∈ key.toList, c ≠ '"' ∧ c ≠ '\\' ∧ 0x20 ≤ c.toNat := by
  simp [plainKey, and_assoc]

theorem isQuoted_plainKey {key : String} (plain : plainKey key = true) :
    IsQuoted key.toList key := by
  have itself : key.toList.flatMap (fun c => [c]) = key.toList := List.flatMap_singleton' _
  rw [plainKey_iff] at plain
  rw [← itself]
  apply isQuoted_spelled
  intro c mem
  rcases plain c mem with ⟨notQuote, notBackslash, visible⟩
  exact spells_plain notQuote notBackslash (Nat.not_lt.mpr visible)

def fieldText (field : String × String) : String := "\"" ++ field.1 ++ "\":" ++ field.2

theorem printable_fieldText {field : String × String} {member : String × JsonValue}
    (renders : RendersMember field member) : ∀ c ∈ (fieldText field).toList, 0x20 ≤ c.toNat := by
  have plain := plainKey_iff.mp renders.plain
  intro c mem
  simp only [fieldText, String.toList_append, List.mem_append] at mem
  rcases mem with ((mem | mem) | mem) | mem
  · revert c
    simp
  · exact (plain c mem).2.2
  · revert c
    simp
  · exact renders.body.printable c mem

theorem renders_object {fields : List (String × String)} {members : List (String × JsonValue)}
    (each : List.Forall₂ RendersMember fields members) (keys : (fields.map Prod.fst).Nodup) :
    Renders (object fields) (.object members) := by
  have shape : (object fields).toList =
      '\x7b' :: ([','].intercalate ((fields.map fieldText).map String.toList) ++ ['\x7d']) := by
    rw [object, String.toList_append, String.toList_append, toList_intercalate_comma]
    rfl
  constructor
  · rw [shape]
    apply isText_object
    rw [List.map_map, List.forall₂_map_left_iff]
    refine each.imp ?_
    intro field member renders
    refine ⟨field.1.toList, field.2.toList, ?_, ?_, renders.body.isText⟩
    · simp [fieldText]
    · rw [← renders.key]
      exact isQuoted_plainKey renders.plain
  · have printed : ∀ text ∈ fields.map fieldText, ∀ c ∈ text.toList, 0x20 ≤ c.toNat := by
      rw [List.forall_mem_map]
      exact forall_left each (fun _ _ renders => printable_fieldText renders)
    have inside := printable_intercalate printed
    rw [shape, ← toList_intercalate_comma]
    intro c mem
    simp only [List.mem_cons, List.mem_append, List.not_mem_nil, or_false] at mem
    rcases mem with rfl | mem | rfl
    · decide
    · exact inside c mem
    · decide
  · have same : fields.map Prod.fst = members.map Prod.fst := by
      rw [← List.forall₂_eq_eq_eq, List.forall₂_map_left_iff, List.forall₂_map_right_iff]
      exact each.imp (fun _ _ renders => renders.key)
    apply JsonValue.Distinct.object
    · rw [← same]
      exact keys
    · exact forall_right each (fun _ _ renders => renders.body.distinct)

theorem member {key text : String} {read : JsonValue} (plain : plainKey key = true)
    (body : Renders text read) : RendersMember (key, text) (key, read) := ⟨rfl, plain, body⟩

/-! ### The documents -/

def linkCountValue : Option LinkCountKnowledgeProto → JsonValue
  | some proto =>
      if proto.status = LinkCountKnowledgeStatus.known.number then
        .object [("value", .number proto.count.toNat), ("knowledge", .string "known")]
      else
        .object [("value", .null), ("knowledge", .string (linkCountKnowledgeToStr proto.status))]
  | none => .object [("value", .null), ("knowledge", .string "not_observed")]

def gapValue (gap : CoverageGapReport) : JsonValue :=
  .object [
    ("path", .string gap.displayPath),
    ("status", .string gap.statusCode),
    ("native_error", .number gap.nativeError.toNat),
    ("message", .string gap.errorMessage)]

/-- Bytes in hexadecimal, two digits each. -/
def lowercaseHex (bytes : List UInt8) : String :=
  String.ofList (bytes.flatMap
    (fun byte => [Nat.digitChar (byte.toNat / 16), Nat.digitChar (byte.toNat % 16)]))

def hardLinkValue (report : HardLinkObjectReport) : JsonValue :=
  .object [
    ("volume_guid", .string (lowercaseHex report.volumeGuid)),
    ("file_id", .string (toString (report.fileIdHi.toNat * 2 ^ 64 + report.fileIdLo.toNat))),
    ("observed_alias_count", .number report.observedAliasCount.toNat),
    ("total_link_count", linkCountValue report.totalLinkCount),
    ("external_reference_status",
      .string (externalReferenceStatusToStr report.externalReferenceStatus)),
    ("entry_paths", .array (report.entryPaths.map .string))]

def knownTotalValue (bytes : UInt64) (known : Bool) : JsonValue :=
  .object [("value", .number bytes.toNat), ("knowledge", .string (allocationKnowledgeStr known))]

/-- What both terminal documents say about the scan. -/
def scanResultMembers (resp : ScanResponse) : List (String × JsonValue) := [
  ("run_outcome", .string (scanRunOutcomeToStr resp.runOutcome)),
  ("observation_interval", .object [
    ("started_at", .string resp.observationStartedIso),
    ("completed_at", .string resp.observationCompletedIso)]),
  ("scope_coverage", .string (scopeCoverageToStr resp.scopeCoverage)),
  ("directory_entries", .number ((resp.directoryCount.toNat + resp.fileCount.toNat +
    resp.specialCount.toNat : ℕ) : ℚ)),
  ("directories", .number resp.directoryCount.toNat),
  ("files", .number resp.fileCount.toNat),
  ("special_objects", .number resp.specialCount.toNat),
  ("logical_bytes", .number resp.logicalBytes.toNat),
  ("referenced_allocated_bytes",
    knownTotalValue resp.referencedAllocatedBytes resp.allocatedBytesKnown),
  ("unique_allocated_bytes", knownTotalValue resp.uniqueAllocatedBytes resp.allocatedBytesKnown),
  ("known_subtotal_allocated_bytes", .number resp.knownSubtotalAllocatedBytes.toNat),
  ("indeterminate_external_reference_objects",
    .number resp.indeterminateExternalReferenceObjects.toNat),
  ("hard_links", .array (resp.hardLinks.map hardLinkValue)),
  ("coverage_gaps", .array (resp.coverageGaps.map gapValue))]

def scanTerminalMembers (resp : ScanResponse) : List (String × JsonValue) :=
  [("operation_id", .string resp.operationId), ("schema_version", .string "2.0")] ++
    scanResultMembers resp

/-- The envelope of an event. -/
def eventMembers (operationId : String) (sequenceNumber : UInt64) (timestamp phase channel : String)
    (payload : List (String × JsonValue)) : List (String × JsonValue) := [
  ("operation_id", .string operationId),
  ("sequence_number", .number sequenceNumber.toNat),
  ("timestamp", .string timestamp),
  ("schema_version", .string "2.0"),
  ("phase", .string phase),
  ("channel", .string channel),
  ("provenance", .string "win32_directory_traversal"),
  ("payload", .object payload)]

def scanTerminalEventMembers (resp : ScanResponse) (sequenceNumber : UInt64) :
    List (String × JsonValue) :=
  eventMembers resp.operationId sequenceNumber resp.observationCompletedIso "finalizing" "data"
    (scanResultMembers resp)

def scanProgressMembers (p : ScanProgress) : List (String × JsonValue) :=
  eventMembers p.operationId p.sequenceNumber p.timestampIso p.currentPhase "progress" [
    ("observed_directories", .number p.observedDirectories.toNat),
    ("observed_files", .number p.observedFiles.toNat),
    ("observed_logical_bytes", .number p.observedLogicalBytes.toNat),
    ("observed_referenced_allocated_bytes", .number p.observedReferencedAllocatedBytes.toNat),
    ("coverage_gaps", .number p.coverageGaps.toNat),
    ("current_directory", .string p.currentDirectory)]

def contentStreamValue (stream : ContentStreamProto) : JsonValue :=
  .object [
    ("name", .string stream.name),
    ("logical_bytes", .number stream.logicalBytes.toNat),
    ("allocated_bytes", .number stream.allocatedBytes.toNat),
    ("allocated_size_known", .bool stream.allocatedSizeKnown)]

def contentStreamMembers (node : DirectoryEntryNode) : List (String × JsonValue) :=
  if node.contentStreams = [] then []
  else [("content_streams", .array (node.contentStreams.map contentStreamValue))]

def directoryEntryMembers (node : DirectoryEntryNode) : List (String × JsonValue) :=
  [
    ("schema_version", .string "2.0"),
    ("id", .number node.id.toNat),
    ("parent_id", .number node.parentId.toNat),
    ("name", .string node.name),
    ("entry_kind", .string (entryKindToStr node.entryKind)),
    ("logical_bytes", .number node.logicalBytes.toNat),
    ("referenced_allocated_bytes", .number node.referencedAllocatedBytes.toNat),
    ("unique_allocated_bytes", .number node.uniqueAllocatedBytes.toNat),
    ("allocated_size_known", .bool node.allocatedSizeKnown),
    ("known_subtotal_allocated_bytes", .number node.knownSubtotalAllocatedBytes.toNat),
    ("child_count", .number node.childCount.toNat),
    ("has_children", .bool node.hasChildren),
    ("observed_alias_count", .number node.observedAliasCount.toNat),
    ("total_link_count", linkCountValue node.totalLinkCount),
    ("external_reference_status",
      .string (externalReferenceStatusToStr node.externalReferenceStatus))] ++
    contentStreamMembers node

def directoryEntryEventMembers (operationId : String) (sequenceNumber : UInt64)
    (timestampIso : String) (node : DirectoryEntryNode) : List (String × JsonValue) :=
  eventMembers operationId sequenceNumber timestampIso "finalizing" "data"
    (directoryEntryMembers node)

/-! ### The printers print the documents -/

theorem renders_quoted {text word : String} (quotes : text = escapeJsonString word) :
    Renders text (.string word) := quotes ▸ renders_string word

theorem renders_event {operationId timestamp payload phaseText phase channelText channel : String}
    {sequenceNumber : UInt64} {members : List (String × JsonValue)}
    (inPhase : Renders phaseText (.string phase)) (onChannel : Renders channelText (.string channel))
    (body : Renders payload (.object members)) :
    Renders (object [
      ("operation_id", escapeJsonString operationId),
      ("sequence_number", toString sequenceNumber),
      ("timestamp", escapeJsonString timestamp),
      ("schema_version", "\"2.0\""),
      ("phase", phaseText),
      ("channel", channelText),
      ("provenance", "\"win32_directory_traversal\""),
      ("payload", payload)])
      (.object (eventMembers operationId sequenceNumber timestamp phase channel members)) := by
  refine renders_object
    (.cons (member rfl (renders_string _))
    (.cons (member rfl (renders_nat _))
    (.cons (member rfl (renders_string _))
    (.cons (member rfl (renders_quoted rfl))
    (.cons (member rfl inPhase)
    (.cons (member rfl onChannel)
    (.cons (member rfl (renders_quoted rfl))
    (.cons (member rfl body) .nil)))))))) ?_
  simp only [List.map_cons, List.map_nil]
  decide

theorem renders_progress (p : ScanProgress) :
    Renders (formatScanProgressNdjsonEvent p) (.object (scanProgressMembers p)) := by
  refine renders_event (renders_string _) (renders_quoted rfl) (renders_object
    (.cons (member rfl (renders_nat _))
    (.cons (member rfl (renders_nat _))
    (.cons (member rfl (renders_nat _))
    (.cons (member rfl (renders_nat _))
    (.cons (member rfl (renders_nat _))
    (.cons (member rfl (renders_string _)) .nil)))))) ?_)
  simp only [List.map_cons, List.map_nil]
  decide

theorem renders_each {α : Type} {print : α → String} {read : α → JsonValue} (items : List α)
    (each : ∀ item, Renders (print item) (read item)) :
    Renders (array (items.map print)) (.array (items.map read)) := by
  apply renders_array
  rw [List.forall₂_map_left_iff, List.forall₂_map_right_iff, List.forall₂_same]
  exact fun item _ => each item

theorem renders_linkCount (proto : Option LinkCountKnowledgeProto) :
    Renders (formatLinkCountKnowledge proto) (linkCountValue proto) := by
  have knowledge : ∀ {valueText text word : String} {value : JsonValue},
      Renders valueText value → Renders text (.string word) →
        Renders (object [("value", valueText), ("knowledge", text)])
          (.object [("value", value), ("knowledge", .string word)]) := by
    intro valueText text word value valueRenders renders
    refine renders_object (.cons (member rfl valueRenders) (.cons (member rfl renders) .nil)) ?_
    simp only [List.map_cons, List.map_nil]
    decide
  cases proto with
  | none => exact knowledge renders_null (renders_quoted rfl)
  | some proto =>
      rw [formatLinkCountKnowledge, linkCountValue]
      split
      · exact knowledge (renders_nat _) (renders_quoted rfl)
      · exact knowledge renders_null (renders_string _)

theorem renders_gaps (gaps : List CoverageGapReport) :
    Renders (formatCoverageGapsArray gaps) (.array (gaps.map gapValue)) := by
  apply renders_each
  intro gap
  refine renders_object
    (.cons (member rfl (renders_string _))
    (.cons (member rfl (renders_string _))
    (.cons (member rfl (renders_nat _))
    (.cons (member rfl (renders_string _)) .nil)))) ?_
  simp only [List.map_cons, List.map_nil]
  decide

theorem hexDigit_eq (value : ℕ) (small : value < 16) : hexDigit value = Nat.digitChar value := by
  have each : ∀ value < 16, hexDigit value = Nat.digitChar value := by decide
  exact each value small

theorem join_hexByte (bytes : List UInt8) :
    String.join (bytes.map (fun byte => hexByte byte.toNat)) = lowercaseHex bytes := by
  apply String.toList_inj.mp
  rw [String.toList_join, List.flatMap_map, lowercaseHex, String.toList_ofList]
  apply List.flatMap_congr
  intro byte _
  have small := byte.toNat_lt
  rw [hexByte, String.toList_ofList, hexDigit_eq _ (by omega), hexDigit_eq _ (by omega)]

theorem renders_hardLinks (reports : List HardLinkObjectReport) :
    Renders (formatHardLinksArray reports) (.array (reports.map hardLinkValue)) := by
  apply renders_each
  intro report
  rw [join_hexByte]
  refine renders_object
    (.cons (member rfl (renders_string _))
    (.cons (member rfl (renders_string _))
    (.cons (member rfl (renders_nat _))
    (.cons (member rfl (renders_linkCount _))
    (.cons (member rfl (renders_string _))
    (.cons (member rfl (renders_each _ renders_string)) .nil)))))) ?_
  simp only [List.map_cons, List.map_nil]
  decide

theorem renders_knownTotal (bytes : UInt64) (known : Bool) :
    Renders (knownTotal bytes known) (knownTotalValue bytes known) := by
  refine renders_object
    (.cons (member rfl (renders_nat _)) (.cons (member rfl (renders_string _)) .nil)) ?_
  simp only [List.map_cons, List.map_nil]
  decide

theorem renders_interval (resp : ScanResponse) :
    Renders (object [
      ("started_at", escapeJsonString resp.observationStartedIso),
      ("completed_at", escapeJsonString resp.observationCompletedIso)])
      (.object [
        ("started_at", .string resp.observationStartedIso),
        ("completed_at", .string resp.observationCompletedIso)]) := by
  refine renders_object
    (.cons (member rfl (renders_string _)) (.cons (member rfl (renders_string _)) .nil)) ?_
  simp only [List.map_cons, List.map_nil]
  decide

/-- What the terminal documents say where the number of entries may have wrapped around. -/
def printedResultMembers (resp : ScanResponse) : List (String × JsonValue) :=
  (scanResultMembers resp).set 3 ("directory_entries", .number (directoryEntries resp).toNat)

theorem rendersMembers_printedResult (resp : ScanResponse) :
    List.Forall₂ RendersMember (scanResultFields resp) (printedResultMembers resp) :=
  .cons (member rfl (renders_string _))
  (.cons (member rfl (renders_interval resp))
  (.cons (member rfl (renders_string _))
  (.cons (member rfl (renders_nat _))
  (.cons (member rfl (renders_nat _))
  (.cons (member rfl (renders_nat _))
  (.cons (member rfl (renders_nat _))
  (.cons (member rfl (renders_nat _))
  (.cons (member rfl (renders_knownTotal _ _))
  (.cons (member rfl (renders_knownTotal _ _))
  (.cons (member rfl (renders_nat _))
  (.cons (member rfl (renders_nat _))
  (.cons (member rfl (renders_hardLinks _))
  (.cons (member rfl (renders_gaps _)) .nil)))))))))))))

theorem renders_printedResult (resp : ScanResponse) :
    Renders (object (scanResultFields resp)) (.object (printedResultMembers resp)) := by
  apply renders_object (rendersMembers_printedResult resp)
  simp only [scanResultFields, List.map_cons, List.map_nil]
  decide

theorem renders_printedTerminal (resp : ScanResponse) :
    Renders (formatScanTerminalJson resp) (.object
      ([("operation_id", .string resp.operationId), ("schema_version", .string "2.0")] ++
        printedResultMembers resp)) := by
  refine renders_object ?_ (nodup_scanTerminalFields resp)
  exact .cons (member rfl (renders_string _))
    (.cons (member rfl (renders_quoted rfl)) (rendersMembers_printedResult resp))

theorem renders_printedTerminalEvent (resp : ScanResponse) (sequenceNumber : UInt64) :
    Renders (formatScanTerminalNdjsonEvent resp sequenceNumber)
      (.object (eventMembers resp.operationId sequenceNumber resp.observationCompletedIso
        "finalizing" "data" (printedResultMembers resp))) :=
  renders_event (renders_quoted rfl) (renders_quoted rfl) (renders_printedResult resp)

section Results

variable {resp : ScanResponse}
  (fits : resp.directoryCount.toNat + resp.fileCount.toNat + resp.specialCount.toNat < 2 ^ 64)

include fits

theorem toNat_directoryEntries : (directoryEntries resp).toNat =
    resp.directoryCount.toNat + resp.fileCount.toNat + resp.specialCount.toNat := by
  rw [directoryEntries, UInt64.toNat_add, UInt64.toNat_add, Nat.mod_add_mod]
  exact Nat.mod_eq_of_lt fits

theorem printedResultMembers_eq : printedResultMembers resp = scanResultMembers resp := by
  rw [printedResultMembers, toNat_directoryEntries fits]
  rfl

theorem renders_scanTerminal :
    Renders (formatScanTerminalJson resp) (.object (scanTerminalMembers resp)) := by
  rw [scanTerminalMembers, ← printedResultMembers_eq fits]
  exact renders_printedTerminal resp

theorem renders_scanTerminalEvent (sequenceNumber : UInt64) :
    Renders (formatScanTerminalNdjsonEvent resp sequenceNumber)
      (.object (scanTerminalEventMembers resp sequenceNumber)) := by
  rw [scanTerminalEventMembers, ← printedResultMembers_eq fits]
  exact renders_printedTerminalEvent resp sequenceNumber

end Results

theorem rendersMembers_contentStreams (node : DirectoryEntryNode) :
    List.Forall₂ RendersMember (formatContentStreams node) (contentStreamMembers node) := by
  rw [formatContentStreams, contentStreamMembers]
  split
  · exact .nil
  · refine .cons (member rfl (renders_each _ ?_)) .nil
    intro stream
    refine renders_object
      (.cons (member rfl (renders_string _))
      (.cons (member rfl (renders_nat _))
      (.cons (member rfl (renders_nat _))
      (.cons (member rfl (renders_bool _)) .nil)))) ?_
    simp only [List.map_cons, List.map_nil]
    decide

theorem renders_directoryEntry (node : DirectoryEntryNode) :
    Renders (formatDirectoryEntryJson node) (.object (directoryEntryMembers node)) := by
  apply renders_object
  · exact
      .cons (member rfl (renders_quoted rfl))
      (.cons (member rfl (renders_nat _))
      (.cons (member rfl (renders_nat _))
      (.cons (member rfl (renders_string _))
      (.cons (member rfl (renders_string _))
      (.cons (member rfl (renders_nat _))
      (.cons (member rfl (renders_nat _))
      (.cons (member rfl (renders_nat _))
      (.cons (member rfl (renders_bool _))
      (.cons (member rfl (renders_nat _))
      (.cons (member rfl (renders_nat _))
      (.cons (member rfl (renders_bool _))
      (.cons (member rfl (renders_nat _))
      (.cons (member rfl (renders_linkCount _))
      (.cons (member rfl (renders_string _))
        (rendersMembers_contentStreams node)))))))))))))))
  · rw [List.map_append, formatContentStreams]
    split
    · simp only [List.map_cons, List.map_nil, List.append_nil]
      decide
    · simp only [List.map_cons, List.map_nil, List.cons_append, List.nil_append]
      decide

theorem renders_directoryEntryEvent (operationId : String) (sequenceNumber : UInt64)
    (timestampIso : String) (node : DirectoryEntryNode) :
    Renders (formatDirectoryEntryNdjsonEvent operationId sequenceNumber timestampIso node)
      (.object (directoryEntryEventMembers operationId sequenceNumber timestampIso node)) :=
  renders_event (renders_quoted rfl) (renders_quoted rfl) (renders_directoryEntry node)

/-- A line without control characters that reads as one object, with the given members and
without duplicate keys anywhere. -/
structure Faithful (text : String) (members : List (String × JsonValue)) : Prop where
  printable : ∀ c ∈ text.toList, 0x20 ≤ c.toNat
  parsed : parse text = some (.object members)
  distinct : (JsonValue.object members).Distinct

theorem Renders.faithful {text : String} {members : List (String × JsonValue)}
    (renders : Renders text (.object members)) : Faithful text members where
  printable := renders.printable
  parsed := renders.isText.parse_eq
  distinct := renders.distinct

/-- Everything that is printed for a scan and its entries can be read back. -/
theorem documents_faithful (p : ScanProgress) (node : DirectoryEntryNode) (resp : ScanResponse)
    (operationId timestampIso : String) (sequenceNumber : UInt64)
    (fits : resp.directoryCount.toNat + resp.fileCount.toNat + resp.specialCount.toNat < 2 ^ 64) :
    Faithful (formatScanProgressNdjsonEvent p) (scanProgressMembers p) ∧
      Faithful (formatDirectoryEntryJson node) (directoryEntryMembers node) ∧
      Faithful (formatDirectoryEntryNdjsonEvent operationId sequenceNumber timestampIso node)
        (directoryEntryEventMembers operationId sequenceNumber timestampIso node) ∧
      Faithful (formatScanTerminalJson resp) (scanTerminalMembers resp) ∧
      Faithful (formatScanTerminalNdjsonEvent resp sequenceNumber)
        (scanTerminalEventMembers resp sequenceNumber) :=
  ⟨(renders_progress p).faithful, (renders_directoryEntry node).faithful,
    (renders_directoryEntryEvent operationId sequenceNumber timestampIso node).faithful,
    (renders_scanTerminal fits).faithful, (renders_scanTerminalEvent fits sequenceNumber).faithful⟩

def Sample.progress : ScanProgress where
  operationId := "scan-1"
  sequenceNumber := 1
  timestampIso := "2026-08-29T10:00:00.500Z"
  observedDirectories := 2
  observedFiles := 3
  observedLogicalBytes := 700
  observedReferencedAllocatedBytes := 4096
  coverageGaps := 1
  currentPhase := "traversing"
  currentDirectory := "C:\\a \"quoted\"\n name"

def Sample.node : DirectoryEntryNode where
  id := 10
  parentId := 1
  name := "tab\there"
  entryKind := 2
  logicalBytes := 700
  referencedAllocatedBytes := 4096
  allocatedSizeKnown := true
  childCount := 0
  hasChildren := false
  uniqueAllocatedBytes := 4096
  observedAliasCount := 2
  totalLinkCount := some { status := LinkCountKnowledgeStatus.known.number, count := 2 }
  externalReferenceStatus := ExternalReferenceStatus.confirmedNone.number
  knownSubtotalAllocatedBytes := 4096
  contentStreams := [
    { name := ":zone", logicalBytes := 3, allocatedBytes := 0, allocatedSizeKnown := false }]

def Sample.settledResponse : ScanResponse where
  operationId := "scan-1"
  targetPath := "C:\\"
  runOutcome := ScanRunOutcome.finished.number
  observationStartedIso := "2026-08-29T10:00:00.000Z"
  observationCompletedIso := "2026-08-29T10:00:01.500Z"
  scopeCoverage := ScopeCoverage.partly.number
  directoryCount := 2
  fileCount := 3
  specialCount := 0
  logicalBytes := 700
  allocatedBytes := 4096
  allocatedBytesKnown := true
  coverageGaps := [
    { displayPath := "C:\\locked", statusCode := "ERROR_5", nativeError := 5, errorMessage := "" }]
  durationMs := 1500
  referencedAllocatedBytes := 4096
  uniqueAllocatedBytes := 4096
  knownSubtotalAllocatedBytes := 4096
  indeterminateExternalReferenceObjects := 0
  hardLinks := []

theorem documents_faithful_settled :
    Faithful (formatScanProgressNdjsonEvent Sample.progress) (scanProgressMembers Sample.progress) ∧
      Faithful (formatDirectoryEntryJson Sample.node) (directoryEntryMembers Sample.node) ∧
      Faithful (formatDirectoryEntryNdjsonEvent "scan-1" 2 "" Sample.node)
        (directoryEntryEventMembers "scan-1" 2 "" Sample.node) ∧
      Faithful (formatScanTerminalJson Sample.settledResponse)
        (scanTerminalMembers Sample.settledResponse) ∧
      Faithful (formatScanTerminalNdjsonEvent Sample.settledResponse 2)
        (scanTerminalEventMembers Sample.settledResponse 2) :=
  documents_faithful Sample.progress Sample.node Sample.settledResponse "scan-1" "" 2 (by decide)

end Json

end PigTree
