import OrbitOps.Session.Reporting
import OrbitOps.Session.Rendering

/-!
# The JSON report

The documents of a report, one structure for each typed dictionary, and their JSON text. Sources and
the flags of the summary are read off the session, the rest off the projection.
-/

namespace OrbitOps.Session
open Py

def EVIDENCE_BUNDLE_KIND : String := "operator_selected"

def optionalJson {α : Type} (toJson : α → Json) : Option α → Json
  | none => .null
  | some a => toJson a

def natsJson (ns : List Nat) : Json := .arr (ns.map fun n => .int n)

structure ReportSourceDocument where
  completeness : String
  counters : List (String × Nat)
  lane : String
  metadata : List (String × Scalar)
  recordCount : Nat
  schemaVersion : Option Nat
  sessionId : Option String
  sourceName : String
  summaryPresent : Bool

structure ReportDiagnosticDocument where
  code : String
  lane : Option String
  message : String
  relatedLane : Option String
  relatedSourceIndices : List Nat
  severity : String
  sourceIndex : Option Nat

structure ReportCorrelationDocument where
  basis : String
  candidateRecordIndices : List Nat
  kind : String

structure ReportTimelineDocument where
  attributes : List (String × Scalar)
  correlation : Option ReportCorrelationDocument
  elapsedNs : Option Int
  eventType : String
  kind : String
  lane : String
  packetIndex : Option Int
  packetSequence : Option Int
  receivedAt : Option Float64
  sourceIndex : Nat
  telemetryTimestampMs : Option Int

structure ReportMetadataDocument where
  crossStreamProvenanceVerified : Bool
  evidenceBundle : String
  reportFormat : String
  reportFormatVersion : Nat

structure ReportSelectionDocument where
  filters : List (String × Scalar)
  timelineEntriesMatched : Nat
  timelineEntriesRendered : Nat
  timelineEntriesTotal : Nat
  timelineTruncated : Bool

structure ReportSummaryDocument where
  complete : Bool
  compatible : Bool
  diagnosticCounts : List (String × Nat)
  diagnosticsTotal : Nat
  incompleteSources : Nat
  sourceCount : Nat
  timelineEntriesRendered : Nat
  timelineEntriesTotal : Nat

/-- Stable JSON-compatible schema for one session report. -/
structure SessionReportDocument where
  diagnostics : List ReportDiagnosticDocument
  metadata : ReportMetadataDocument
  selection : ReportSelectionDocument
  sources : List ReportSourceDocument
  summary : ReportSummaryDocument
  timeline : List ReportTimelineDocument

/-! ### The documents of a report -/

def sourceDocument (summary : LaneSummary) : ReportSourceDocument where
  completeness := summary.source.completeness.value
  counters := summary.counters.dict.items
  lane := summary.source.lane.value
  metadata := summary.metadata.dict.items
  recordCount := summary.source.recordCount
  schemaVersion := summary.source.schemaVersion
  sessionId := summary.source.sessionId.map VisibleText.text
  sourceName := summary.source.sourceName.text
  summaryPresent := summary.summaryPresent

def diagnosticDocument (diagnostic : Diagnostic) : ReportDiagnosticDocument where
  code := diagnostic.code.value
  lane := diagnostic.lane.map EvidenceLane.value
  message := diagnostic.message
  relatedLane := diagnostic.relatedLane.map EvidenceLane.value
  relatedSourceIndices := diagnostic.relatedSourceIndices
  severity := diagnostic.severity.value
  sourceIndex := diagnostic.sourceIndex

def correlationDocument (correlation : CorrelationDecision) : ReportCorrelationDocument where
  basis := correlation.basis.value
  candidateRecordIndices := correlation.candidateRecordIndices
  kind := correlation.kind.value

def timelineDocument (entry : TimelineEntry) : ReportTimelineDocument where
  attributes := entry.attributes.dict.items
  correlation := entry.correlation.map correlationDocument
  elapsedNs := entry.elapsedNs
  eventType := entry.eventType
  kind := entry.kind.value
  lane := entry.lane.value
  packetIndex := entry.packetIndex
  packetSequence := entry.packetSequence
  receivedAt := entry.receivedAt
  sourceIndex := entry.sourceIndex
  telemetryTimestampMs := entry.telemetryTimestampMs

def diagnosticCounts (diagnostics : List Diagnostic) : List (String × Nat) :=
  [DiagnosticSeverity.INFO, .WARNING, .ERROR].map fun severity =>
    (severity.value, diagnostics.countP fun d => d.severity = severity)

def sessionReportDocument (report : SessionReport) : SessionReportDocument where
  diagnostics := report.diagnostics.map diagnosticDocument
  metadata := {
    crossStreamProvenanceVerified := false
    evidenceBundle := EVIDENCE_BUNDLE_KIND
    reportFormat := REPORT_FORMAT
    reportFormatVersion := REPORT_FORMAT_VERSION }
  selection := {
    filters := report.filters.dict.items
    timelineEntriesMatched := report.timelineMatched
    timelineEntriesRendered := report.timeline.length
    timelineEntriesTotal := report.timelineTotal
    timelineTruncated := report.truncated }
  sources := report.session.sources.map sourceDocument
  summary := {
    complete := report.session.isComplete
    compatible := report.session.isCompatible
    diagnosticCounts := diagnosticCounts report.diagnostics
    diagnosticsTotal := report.diagnostics.length
    incompleteSources := report.session.sources.countP fun summary => summary.source.completeness = .INCOMPLETE
    sourceCount := report.session.sources.length
    timelineEntriesRendered := report.timeline.length
    timelineEntriesTotal := report.timelineTotal }
  timeline := report.timeline.map timelineDocument

/-! ### JSON -/

def ReportSourceDocument.toJson (d : ReportSourceDocument) : Json := .obj [
  ("completeness", .str d.completeness),
  ("counters", .obj (d.counters.map fun kv => (kv.1, .int kv.2))),
  ("lane", .str d.lane),
  ("metadata", scalarObj d.metadata),
  ("record_count", .int d.recordCount),
  ("schema_version", optionalJson (fun n : Nat => .int n) d.schemaVersion),
  ("session_id", optionalJson .str d.sessionId),
  ("source_name", .str d.sourceName),
  ("summary_present", .bool d.summaryPresent)]

def ReportDiagnosticDocument.toJson (d : ReportDiagnosticDocument) : Json := .obj [
  ("code", .str d.code),
  ("lane", optionalJson .str d.lane),
  ("message", .str d.message),
  ("related_lane", optionalJson .str d.relatedLane),
  ("related_source_indices", natsJson d.relatedSourceIndices),
  ("severity", .str d.severity),
  ("source_index", optionalJson (fun n : Nat => .int n) d.sourceIndex)]

def ReportCorrelationDocument.toJson (d : ReportCorrelationDocument) : Json := .obj [
  ("basis", .str d.basis),
  ("candidate_record_indices", natsJson d.candidateRecordIndices),
  ("kind", .str d.kind)]

def ReportTimelineDocument.toJson (d : ReportTimelineDocument) : Json := .obj [
  ("attributes", scalarObj d.attributes),
  ("correlation", optionalJson ReportCorrelationDocument.toJson d.correlation),
  ("elapsed_ns", optionalJson .int d.elapsedNs),
  ("event_type", .str d.eventType),
  ("kind", .str d.kind),
  ("lane", .str d.lane),
  ("packet_index", optionalJson .int d.packetIndex),
  ("packet_sequence", optionalJson .int d.packetSequence),
  ("received_at", optionalJson .float d.receivedAt),
  ("source_index", .int d.sourceIndex),
  ("telemetry_timestamp_ms", optionalJson .int d.telemetryTimestampMs)]

def ReportMetadataDocument.toJson (d : ReportMetadataDocument) : Json := .obj [
  ("cross_stream_provenance_verified", .bool d.crossStreamProvenanceVerified),
  ("evidence_bundle", .str d.evidenceBundle),
  ("report_format", .str d.reportFormat),
  ("report_format_version", .int d.reportFormatVersion)]

def ReportSelectionDocument.toJson (d : ReportSelectionDocument) : Json := .obj [
  ("filters", scalarObj d.filters),
  ("timeline_entries_matched", .int d.timelineEntriesMatched),
  ("timeline_entries_rendered", .int d.timelineEntriesRendered),
  ("timeline_entries_total", .int d.timelineEntriesTotal),
  ("timeline_truncated", .bool d.timelineTruncated)]

def ReportSummaryDocument.toJson (d : ReportSummaryDocument) : Json := .obj [
  ("complete", .bool d.complete),
  ("compatible", .bool d.compatible),
  ("diagnostic_counts", .obj (d.diagnosticCounts.map fun kv => (kv.1, .int kv.2))),
  ("diagnostics_total", .int d.diagnosticsTotal),
  ("incomplete_sources", .int d.incompleteSources),
  ("source_count", .int d.sourceCount),
  ("timeline_entries_rendered", .int d.timelineEntriesRendered),
  ("timeline_entries_total", .int d.timelineEntriesTotal)]

def SessionReportDocument.toJson (d : SessionReportDocument) : Json := .obj [
  ("diagnostics", .arr (d.diagnostics.map ReportDiagnosticDocument.toJson)),
  ("metadata", d.metadata.toJson),
  ("selection", d.selection.toJson),
  ("sources", .arr (d.sources.map ReportSourceDocument.toJson)),
  ("summary", d.summary.toJson),
  ("timeline", .arr (d.timeline.map ReportTimelineDocument.toJson))]

def renderSessionReportJson (report : SessionReport) : String := (sessionReportDocument report).toJson.pretty 0 ++ "\n"

/-- The sources and the flags of two reports of one session are the same. -/
theorem sessionReportDocument_congr {r r' : SessionReport} (h : r'.session = r.session) :
    (sessionReportDocument r').sources = (sessionReportDocument r).sources ∧
      (sessionReportDocument r').summary.complete = (sessionReportDocument r).summary.complete ∧
      (sessionReportDocument r').summary.compatible = (sessionReportDocument r).summary.compatible := by
  simp only [sessionReportDocument, h, and_self]

end OrbitOps.Session
