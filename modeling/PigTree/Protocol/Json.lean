import PigTree.Protocol.Scan

/-!
# JSON output

The documents the command line prints: progress and terminal events of a scan, entries
of a page and error envelopes. An object is a list of keys with the text of their values,
printed in this order; both terminal documents list the same fields.
-/

namespace PigTree

namespace Json

def hexDigit (value : ℕ) : Char :=
  Char.ofNat (if value < 10 then 48 + value else 87 + value)

/-- Lowercase hexadecimal with at least two digits, for values below 256. -/
def hexByte (value : ℕ) : String :=
  String.ofList [hexDigit (value / 16), hexDigit (value % 16)]

def escapeChar (c : Char) : String :=
  if c = '"' then "\\\""
  else if c = '\\' then "\\\\"
  else if c = '\n' then "\\n"
  else if c = '\r' then "\\r"
  else if c = '\t' then "\\t"
  else if c = Char.ofNat 8 then "\\b"
  else if c = Char.ofNat 12 then "\\f"
  else if c.toNat < 32 then "\\u00" ++ hexByte c.toNat
  else c.toString

/-- Escape a string for JSON output. -/
def escapeJsonString (s : String) : String :=
  "\"" ++ String.join (s.toList.map escapeChar) ++ "\""

/-- An object with the given keys and printed values. -/
def object (fields : List (String × String)) : String :=
  "\x7b" ++ String.intercalate "," (fields.map (fun field => "\"" ++ field.1 ++ "\":" ++ field.2)) ++
    "\x7d"

def array (items : List String) : String := "[" ++ String.intercalate "," items ++ "]"

def scanRunOutcomeToStr (outcome : Int32) : String :=
  if outcome = 1 then "finished"
  else if outcome = 2 then "cancelled"
  else if outcome = 3 then "failed"
  else "failed"

def scopeCoverageToStr (coverage : Int32) : String :=
  if coverage = 1 then "complete"
  else if coverage = 2 then "partial"
  else if coverage = 3 then "indeterminate"
  else "indeterminate"

def entryKindToStr (kind : UInt32) : String :=
  if kind = 1 then "directory"
  else if kind = 2 then "file"
  else if kind = 3 then "special"
  else "unknown"

def linkCountKnowledgeToStr (status : Int32) : String :=
  if status = 1 then "known"
  else if status = 2 then "not_observed"
  else if status = 3 then "unavailable"
  else if status = 4 then "not_applicable"
  else "not_observed"

def externalReferenceStatusToStr (status : Int32) : String :=
  if status = 1 then "confirmed_none"
  else if status = 2 then "confirmed_external"
  else if status = 3 then "indeterminate"
  else if status = 4 then "inconsistent_evidence"
  else if status = 5 then "not_applicable"
  else "indeterminate"

/-- The canonical Value Knowledge text for an allocation aggregate flag. -/
def allocationKnowledgeStr (known : Bool) : String :=
  if known then "known" else "not_observed"

def formatLinkCountKnowledge : Option LinkCountKnowledgeProto → String
  | some proto =>
      if proto.status = LinkCountKnowledgeStatus.known.number then
        object [("value", toString proto.count), ("knowledge", "\"known\"")]
      else
        object [("value", "null"),
          ("knowledge", escapeJsonString (linkCountKnowledgeToStr proto.status))]
  | none => object [("value", "null"), ("knowledge", "\"not_observed\"")]

def formatCoverageGapsArray (gaps : List CoverageGapReport) : String :=
  array (gaps.map (fun gap => object [
    ("path", escapeJsonString gap.displayPath),
    ("status", escapeJsonString gap.statusCode),
    ("native_error", toString gap.nativeError),
    ("message", escapeJsonString gap.errorMessage)]))

/-- The volume GUID in hexadecimal, the File ID in decimal, both as strings. -/
def formatHardLinksArray (reports : List HardLinkObjectReport) : String :=
  array (reports.map (fun report => object [
    ("volume_guid", escapeJsonString
      (String.join (report.volumeGuid.map (fun byte => hexByte byte.toNat)))),
    ("file_id", escapeJsonString
      (toString (report.fileIdHi.toNat * 2 ^ 64 + report.fileIdLo.toNat))),
    ("observed_alias_count", toString report.observedAliasCount),
    ("total_link_count", formatLinkCountKnowledge report.totalLinkCount),
    ("external_reference_status",
      escapeJsonString (externalReferenceStatusToStr report.externalReferenceStatus)),
    ("entry_paths", array (report.entryPaths.map escapeJsonString))]))

/-- A byte total with its knowledge. -/
def knownTotal (bytes : UInt64) (known : Bool) : String :=
  object [("value", toString bytes),
    ("knowledge", escapeJsonString (allocationKnowledgeStr known))]

/-- The entries a response counts. -/
def directoryEntries (resp : ScanResponse) : UInt64 :=
  resp.directoryCount + resp.fileCount + resp.specialCount

/-- The fields both terminal documents print about the scan. -/
def scanResultFields (resp : ScanResponse) : List (String × String) := [
  ("run_outcome", escapeJsonString (scanRunOutcomeToStr resp.runOutcome)),
  ("observation_interval", object [
    ("started_at", escapeJsonString resp.observationStartedIso),
    ("completed_at", escapeJsonString resp.observationCompletedIso)]),
  ("scope_coverage", escapeJsonString (scopeCoverageToStr resp.scopeCoverage)),
  ("directory_entries", toString (directoryEntries resp)),
  ("directories", toString resp.directoryCount),
  ("files", toString resp.fileCount),
  ("special_objects", toString resp.specialCount),
  ("logical_bytes", toString resp.logicalBytes),
  ("referenced_allocated_bytes",
    knownTotal resp.referencedAllocatedBytes resp.allocatedBytesKnown),
  ("unique_allocated_bytes", knownTotal resp.uniqueAllocatedBytes resp.allocatedBytesKnown),
  ("known_subtotal_allocated_bytes", toString resp.knownSubtotalAllocatedBytes),
  ("indeterminate_external_reference_objects",
    toString resp.indeterminateExternalReferenceObjects),
  ("hard_links", formatHardLinksArray resp.hardLinks),
  ("coverage_gaps", formatCoverageGapsArray resp.coverageGaps)]

/-- The fields of the standalone terminal document. -/
def scanTerminalFields (resp : ScanResponse) : List (String × String) :=
  [("operation_id", escapeJsonString resp.operationId), ("schema_version", "\"2.0\"")] ++
    scanResultFields resp

/-- A settled scan as one document. -/
def formatScanTerminalJson (resp : ScanResponse) : String :=
  object (scanTerminalFields resp)

/-- A settled scan as the last line of an event stream. -/
def formatScanTerminalNdjsonEvent (resp : ScanResponse) (sequenceNumber : UInt64) : String :=
  object [
    ("operation_id", escapeJsonString resp.operationId),
    ("sequence_number", toString sequenceNumber),
    ("timestamp", escapeJsonString resp.observationCompletedIso),
    ("schema_version", "\"2.0\""),
    ("phase", "\"finalizing\""),
    ("channel", "\"data\""),
    ("provenance", "\"win32_directory_traversal\""),
    ("payload", object (scanResultFields resp))]

/-- A progress update as one line of an event stream. -/
def formatScanProgressNdjsonEvent (p : ScanProgress) : String :=
  object [
    ("operation_id", escapeJsonString p.operationId),
    ("sequence_number", toString p.sequenceNumber),
    ("timestamp", escapeJsonString p.timestampIso),
    ("schema_version", "\"2.0\""),
    ("phase", escapeJsonString p.currentPhase),
    ("channel", "\"progress\""),
    ("provenance", "\"win32_directory_traversal\""),
    ("payload", object [
      ("observed_directories", toString p.observedDirectories),
      ("observed_files", toString p.observedFiles),
      ("observed_logical_bytes", toString p.observedLogicalBytes),
      ("observed_referenced_allocated_bytes", toString p.observedReferencedAllocatedBytes),
      ("coverage_gaps", toString p.coverageGaps),
      ("current_directory", escapeJsonString p.currentDirectory)])]

/-- The last line of an event stream when no response settles the scan. The time is the one
given, or else the current one. -/
def formatScanCancelledNdjsonEvent (now : String) (operationId : String) (sequenceNumber : UInt64)
    (timestampIso : Option String) (message : String) : String :=
  let ts := match timestampIso with
    | some t => if t ≠ "" then t else now
    | none => now
  object [
    ("operation_id", escapeJsonString operationId),
    ("sequence_number", toString sequenceNumber),
    ("timestamp", escapeJsonString ts),
    ("schema_version", "\"2.0\""),
    ("phase", "\"finalizing\""),
    ("channel", "\"data\""),
    ("provenance", "\"win32_directory_traversal\""),
    ("payload", object [
      ("run_outcome", "\"cancelled\""),
      ("status", "\"cancelled\""),
      ("message", escapeJsonString message)])]

def formatErrorEnvelope (requestId errorCode errorMessage : String) : String :=
  object [
    ("version", "\"1.0\""),
    ("request_id", escapeJsonString requestId),
    ("status", "\"error\""),
    ("error", object [
      ("code", escapeJsonString errorCode),
      ("message", escapeJsonString errorMessage)])]

def formatCancelledEnvelope (requestId reason : String) : String :=
  object [
    ("version", "\"1.0\""),
    ("request_id", escapeJsonString requestId),
    ("status", "\"cancelled\""),
    ("error", object [
      ("code", "\"OPERATION_CANCELLED\""),
      ("message", escapeJsonString reason)])]

/-- The streams of an entry's object, left out when none was observed. -/
def formatContentStreams (node : DirectoryEntryNode) : List (String × String) :=
  if node.contentStreams = [] then []
  else [("content_streams", array (node.contentStreams.map (fun stream => object [
    ("name", escapeJsonString stream.name),
    ("logical_bytes", toString stream.logicalBytes),
    ("allocated_bytes", toString stream.allocatedBytes),
    ("allocated_size_known", toString stream.allocatedSizeKnown)])))]

/-- An entry as one document. -/
def formatDirectoryEntryJson (node : DirectoryEntryNode) : String :=
  object ([
    ("schema_version", "\"2.0\""),
    ("id", toString node.id),
    ("parent_id", toString node.parentId),
    ("name", escapeJsonString node.name),
    ("entry_kind", escapeJsonString (entryKindToStr node.entryKind)),
    ("logical_bytes", toString node.logicalBytes),
    ("referenced_allocated_bytes", toString node.referencedAllocatedBytes),
    ("unique_allocated_bytes", toString node.uniqueAllocatedBytes),
    ("allocated_size_known", toString node.allocatedSizeKnown),
    ("known_subtotal_allocated_bytes", toString node.knownSubtotalAllocatedBytes),
    ("child_count", toString node.childCount),
    ("has_children", toString node.hasChildren),
    ("observed_alias_count", toString node.observedAliasCount),
    ("total_link_count", formatLinkCountKnowledge node.totalLinkCount),
    ("external_reference_status",
      escapeJsonString (externalReferenceStatusToStr node.externalReferenceStatus))] ++
    formatContentStreams node)

/-- An entry as one line of an event stream. -/
def formatDirectoryEntryNdjsonEvent (operationId : String) (sequenceNumber : UInt64)
    (timestampIso : String) (node : DirectoryEntryNode) : String :=
  object [
    ("operation_id", escapeJsonString operationId),
    ("sequence_number", toString sequenceNumber),
    ("timestamp", escapeJsonString timestampIso),
    ("schema_version", "\"2.0\""),
    ("phase", "\"finalizing\""),
    ("channel", "\"data\""),
    ("provenance", "\"win32_directory_traversal\""),
    ("payload", formatDirectoryEntryJson node)]

/-- No key is printed twice. -/
theorem nodup_scanTerminalFields (resp : ScanResponse) :
    ((scanTerminalFields resp).map Prod.fst).Nodup := by
  simp only [scanTerminalFields, scanResultFields, List.map_append, List.map_cons, List.map_nil]
  decide

/-- The printed number of entries is the only value under its key. -/
theorem printed_directoryEntries {resp : ScanResponse} {text : String} :
    ("directory_entries", text) ∈ scanResultFields resp ↔ text = toString (directoryEntries resp) := by
  simp [scanResultFields]

end Json

end PigTree
