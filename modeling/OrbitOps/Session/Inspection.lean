import OrbitOps.AlarmLog
import OrbitOps.Link.Statistics
import OrbitOps.Session.Models

/-!
# Session inspection

The selected files are loaded strictly, then each lane is normalized on its own: timeline entries,
diagnostics and a summary. Alarm transitions are correlated to the decoded telemetry records. What
the strict loaders refuse is reported as malformed evidence.
-/

namespace OrbitOps.Session
open Py

/-! ### Loading -/

/-- A path: the text before its final component, and that component. -/
structure EvidencePath where
  parent : String
  name : String

def EvidencePath.text (path : EvidencePath) : String := path.parent ++ path.name

/-- A selected path with the content of its file. -/
structure EvidenceSource where
  path : EvidencePath
  file : TextFile

/-- The evidence sources of one inspection. -/
structure SelectedEvidence where
  telemetry : Option EvidenceSource
  linkEvents : Option EvidenceSource
  alarmEvents : Option EvidenceSource

/-- The records of a path. -/
structure LoadedSource (α : Type) where
  path : EvidencePath
  records : List α

/-- Strictly loaded source records before normalization and correlation. -/
structure LoadedSessionEvidence where
  telemetry : Option (LoadedSource RecordedTelemetryRecord)
  alarmEvents : Option (LoadedSource AlarmEvent)
  linkEvents : Option (LoadedSource Link.LinkEvent)

def sourceName (path : EvidencePath) : String := if path.name = "" then path.text else path.name

/-- `MalformedEvidenceError(...)` for a source that its loader refused. -/
def malformedEvidence (lane : EvidenceLane) (path : EvidencePath) (exc : PyError) : PyError :=
  if isBlank path.text then valueError "source_name must be non-empty when provided"
  else if hasNul path.text then valueError "source_name must not contain NUL characters"
  else ⟨.malformedEvidenceError,
    "invalid " ++ lane.value ++ " evidence in " ++ reprText (sourceName path) ++ ": " ++ exc.message⟩

def loadStrict {α : Type} (lane : EvidenceLane) (source : EvidenceSource) (loader : TextFile → Result (List α)) :
    Result (LoadedSource α) :=
  (reraise (malformedEvidence lane source.path) (loader source.file)).map fun records => ⟨source.path, records⟩

/-- A source that is loaded if it was selected. -/
def loadSelected {α : Type} (lane : EvidenceLane) (source : Option EvidenceSource) (loader : TextFile → Result (List α)) :
    Result (Option (LoadedSource α)) :=
  match source with
  | none => .ok none
  | some source => (loadStrict lane source loader).map some

/-- `bool(events and events[-1].event_type is RUN_SUMMARY)` of link events. -/
def linkSummaryPresent (events : List Link.LinkEvent) : Bool := events.getLast?.any fun e => e.eventType = .RUN_SUMMARY

/-- `bool(events and events[-1].event_type is RUN_SUMMARY)` of alarm events. -/
def alarmSummaryPresent (events : List AlarmEvent) : Bool := events.getLast?.any fun e => e.eventType = .RUN_SUMMARY

def requireLinkSummary : Option (LoadedSource Link.LinkEvent) → Result Unit
  | none => .ok ()
  | some link =>
    if linkSummaryPresent link.records then
      (reraise (malformedEvidence .LINK link.path) (Link.validateRunSummary link.records)).map fun _ => ()
    else .ok ()

def loadSessionEvidence (loads : String → Option Json) (selected : SelectedEvidence) : Result LoadedSessionEvidence :=
  if selected.telemetry.isNone && selected.linkEvents.isNone && selected.alarmEvents.isNone then
    .error (valueError "at least one evidence source must be provided")
  else do
    let telemetry ← loadSelected .TELEMETRY selected.telemetry (loadTelemetryRecords loads)
    let alarmEvents ← loadSelected .ALARM selected.alarmEvents (loadAlarmEvents loads)
    let linkEvents ← loadSelected .LINK selected.linkEvents (Link.loadLinkEvents loads)
    requireLinkSummary linkEvents
    return ⟨telemetry, alarmEvents, linkEvents⟩

/-! ### Telemetry -/

def telemetryAttributes (packet : DecodedPacket) : List (String × Scalar) :=
  [("mode", .str packet.mode.name), ("battery_mv", .int packet.batteryMv), ("bus_current_ma", .int packet.busCurrentMa),
    ("temperature_centi_c", .int packet.temperatureCentiC), ("roll_centi_deg", .int packet.rollCentiDeg),
    ("pitch_centi_deg", .int packet.pitchCentiDeg), ("yaw_centi_deg", .int packet.yawCentiDeg)]

/-- The source indices of the decoded packets with a sequence. -/
def indicesOf (decoded : List (Nat × Int)) (sequence : Int) : List Nat :=
  (decoded.filter fun pair => pair.2 = sequence).map Prod.fst

/-- `sorted(indices_by_sequence.items())`. -/
def indicesBySequence (decoded : List (Nat × Int)) : List (Int × List Nat) :=
  (sortedSet (decoded.map Prod.snd)).map fun sequence => (sequence, indicesOf decoded sequence)

def duplicateData (group : Int × List Nat) : DiagnosticData where
  code := .TELEMETRY_SEQUENCE_DUPLICATE
  severity := .WARNING
  message := "telemetry packet sequence " ++ toString group.1 ++ " appears in multiple records"
  lane := some .TELEMETRY
  sourceIndex := group.2.head?
  relatedLane := some .TELEMETRY
  relatedSourceIndices := group.2

/-- The sequence that follows a sequence. -/
def expectedSequence (previous : Int) : Int := (previous + 1) % (MAX_PACKET_SEQUENCE + 1)

/-- Two decoded packets of which the second neither repeats nor follows the first. -/
def isGap (pair : (Nat × Int) × (Nat × Int)) : Bool :=
  pair.2.2 ≠ pair.1.2 && pair.2.2 ≠ expectedSequence pair.1.2

def gapMessage (previous current : Int) : String :=
  let modularDistance := (current - previous) % (MAX_PACKET_SEQUENCE + 1)
  if 1 < modularDistance ∧ modularDistance ≤ (MAX_PACKET_SEQUENCE + 1) / 2 then
    "telemetry sequence gap after " ++ toString previous ++ ": expected " ++ toString (expectedSequence previous) ++
      ", found " ++ toString current ++ ", missing " ++ toString (modularDistance - 1)
  else
    "telemetry sequence is non-contiguous after " ++ toString previous ++ ": expected " ++
      toString (expectedSequence previous) ++ ", found " ++ toString current

def gapData (pair : (Nat × Int) × (Nat × Int)) : DiagnosticData where
  code := .TELEMETRY_SEQUENCE_GAP
  severity := .WARNING
  message := gapMessage pair.1.2 pair.2.2
  lane := some .TELEMETRY
  sourceIndex := some pair.2.1
  relatedLane := some .TELEMETRY
  relatedSourceIndices := [pair.1.1, pair.2.1]

/-- The groups of two or more records. -/
def repeatedGroups (decoded : List (Nat × Int)) : List (Int × List Nat) :=
  (indicesBySequence decoded).filter fun group => 2 ≤ group.2.length

/-- `pairwise(decoded)`, the gaps only. -/
def gapPairs (decoded : List (Nat × Int)) : List ((Nat × Int) × (Nat × Int)) := (decoded.zip decoded.tail).filter isGap

/-- The diagnostics, the number of gaps and the number of duplicates. -/
def telemetrySequenceDiagnostics (decoded : List (Nat × Int)) : Result (List Diagnostic × Nat × Nat) := do
  let duplicates ← ((repeatedGroups decoded).map duplicateData).mapM Diagnostic.new
  let gaps ← ((gapPairs decoded).map gapData).mapM Diagnostic.new
  let duplicateCount := ((repeatedGroups decoded).map fun group => group.2.length - 1).sum
  return (duplicates ++ gaps, (gapPairs decoded).length, duplicateCount)

/-- The variables of the telemetry loop; the decoded sequences and source indices are the parts of the pairs. -/
structure TelemetryLoop where
  timeline : List TimelineEntry := []
  diagnostics : List Diagnostic := []
  decodedPairs : List (Nat × Int) := []
  rejectedCount : Nat := 0

def rejectedEntry (record : RecordedTelemetryRecord) : TimelineData where
  lane := .TELEMETRY
  sourceIndex := record.recordIndex
  kind := .TELEMETRY_REJECTED
  eventType := "packet_rejected"
  receivedAt := some record.receivedAt.1

def decodedEntry (record : RecordedTelemetryRecord) (packet : DecodedPacket) : TimelineData where
  lane := .TELEMETRY
  sourceIndex := record.recordIndex
  kind := .TELEMETRY_PACKET
  eventType := "packet_decoded"
  receivedAt := some record.receivedAt.1
  packetSequence := some packet.sequence
  telemetryTimestampMs := some packet.timestampMs

def rejectedData (record : RecordedTelemetryRecord) (reason : String) : DiagnosticData where
  code := .TELEMETRY_PACKET_REJECTED
  severity := .WARNING
  message := "telemetry record " ++ toString record.recordIndex ++ " could not be decoded: " ++ reason
  lane := some .TELEMETRY
  sourceIndex := some record.recordIndex

def normalizeRecord (st : TelemetryLoop) (record : RecordedTelemetryRecord) : Result TelemetryLoop :=
  match decodePacket record.packet with
  | .error exc =>
    if exc.cls = .protocolError then do
      let entry ← TimelineEntry.new (rejectedEntry record) (scalarObj [("reason", .str exc.message)])
      let diagnostic ← Diagnostic.new (rejectedData record exc.message)
      return { st with
        timeline := st.timeline ++ [entry]
        diagnostics := st.diagnostics ++ [diagnostic]
        rejectedCount := st.rejectedCount + 1 }
    else .error exc
  | .ok packet => do
    let entry ← TimelineEntry.new (decodedEntry record packet) (scalarObj (telemetryAttributes packet))
    return { st with
      timeline := st.timeline ++ [entry]
      decodedPairs := st.decodedPairs ++ [(record.recordIndex, packet.sequence)] }

structure NormalizedLane where
  summary : LaneSummary
  timeline : List TimelineEntry
  diagnostics : List Diagnostic

/-- The diagnostic of an empty source, or of one without its summary. -/
def sourceDiagnostic (lane : EvidenceLane) (stream : String) (empty summaryMissing : Bool) : List DiagnosticData :=
  if empty then [{
    code := .SOURCE_EMPTY
    severity := .WARNING
    message := stream ++ " contains no evidence records"
    lane := some lane }]
  else if summaryMissing then [{
    code := .SOURCE_SUMMARY_MISSING
    severity := .WARNING
    message := stream ++ " has no final run_summary"
    lane := some lane }]
  else []

def telemetryCounters (total decoded rejected gaps duplicates : Nat) : List (String × Nat) :=
  [("records_total", total), ("packets_decoded", decoded), ("packets_rejected", rejected), ("sequence_gaps", gaps),
    ("sequence_duplicates", duplicates)]

/-- The lane, and the source index and sequence of each decoded packet. -/
def normalizeTelemetry (path : EvidencePath) (records : List RecordedTelemetryRecord) :
    Result (NormalizedLane × List (Nat × Int)) := do
  let st ← records.foldlM normalizeRecord {}
  let (sequenceDiagnostics, gapCount, duplicateCount) ← telemetrySequenceDiagnostics st.decodedPairs
  let emptyDiagnostics ← (sourceDiagnostic .TELEMETRY "telemetry recording" records.isEmpty false).mapM Diagnostic.new
  let completeness ← classifySourceCompleteness .TELEMETRY records.length false
  let source ← SourceDescriptor.new .TELEMETRY (sourceName path) records.length completeness (some RECORD_VERSION) none
  let summary ← LaneSummary.new source false
    (telemetryCounters records.length st.decodedPairs.length st.rejectedCount gapCount duplicateCount) (.obj [])
  return (⟨summary, st.timeline, st.diagnostics ++ sequenceDiagnostics ++ emptyDiagnostics⟩, st.decodedPairs)

/-! ### Alarms -/

/-- `decoded_source_indices[candidate]`. -/
def sourceIndexAt (decodedSourceIndices : List Nat) (candidate : Nat) : Result Nat :=
  match decodedSourceIndices[candidate]? with
  | some index => .ok index
  | none => .error (indexError "tuple index out of range")

def translateCorrelation (decodedSequences : List Int) (decodedSourceIndices : List Nat) (packetSequence : Int) :
    Result CorrelationDecision := do
  let decision ← classifyTelemetryAlarmMatch decodedSequences packetSequence
  if decision.candidateRecordIndices = [] then return decision
  else do
    let translated ← decision.candidateRecordIndices.mapM (sourceIndexAt decodedSourceIndices)
    CorrelationDecision.new decision.kind decision.basis translated

/-- The variables of the alarm and link loops. -/
structure LaneLoop where
  timeline : List TimelineEntry := []
  diagnostics : List Diagnostic := []

def alarmEntry (event : AlarmEvent) (packetSequence : Nat) (correlation : CorrelationDecision) : TimelineData where
  lane := .ALARM
  sourceIndex := event.eventIndex
  kind := .ALARM_TRANSITION
  eventType := event.eventType.value
  elapsedNs := some event.elapsedNs
  packetSequence := some packetSequence
  correlation := some correlation

/-- The diagnostic of a transition that has not exactly one telemetry record. -/
def correlationData (event : AlarmEvent) (packetSequence : Nat) (kind : CorrelationKind) (candidates : List Nat) :
    List DiagnosticData :=
  match kind with
  | .AMBIGUOUS => [{
      code := .ALARM_CORRELATION_AMBIGUOUS
      severity := .ERROR
      message := "alarm event " ++ toString event.eventIndex ++ " sequence " ++ toString packetSequence ++
        " matches multiple telemetry records"
      lane := some .ALARM
      sourceIndex := some event.eventIndex
      relatedLane := some .TELEMETRY
      relatedSourceIndices := candidates }]
  | .IMPOSSIBLE => [{
      code := .ALARM_CORRELATION_IMPOSSIBLE
      severity := .WARNING
      message := "alarm event " ++ toString event.eventIndex ++ " sequence " ++ toString packetSequence ++
        " has no matching telemetry record in the loaded evidence"
      lane := some .ALARM
      sourceIndex := some event.eventIndex }]
  | _ => []

def normalizeAlarmEvent (decodedSequences : List Int) (decodedSourceIndices : List Nat) (st : LaneLoop)
    (event : AlarmEvent) : Result LaneLoop :=
  if event.eventType.isTransition then
    match event.packetSequence with
    | none => .error (assertionError "validated alarm transition is missing packet_sequence")
    | some packetSequence => do
      let correlation ← translateCorrelation decodedSequences decodedSourceIndices packetSequence
      let entry ← TimelineEntry.new (alarmEntry event packetSequence correlation) event.attributes.toJson
      let diagnostics ← (correlationData event packetSequence correlation.kind
        correlation.candidateRecordIndices).mapM Diagnostic.new
      return ⟨st.timeline ++ [entry], st.diagnostics ++ diagnostics⟩
  else .ok st

def alarmMetadata (events : List AlarmEvent) : Result Json :=
  (runMetadataFromEvents events).map fun
    | none => .obj []
    | some metadata => scalarObj [("policy_name", .str metadata.policyName.text),
        ("policy_reference", .str metadata.policyReference.text),
        ("policy_schema_version", .int metadata.policySchemaVersion), ("policy_fingerprint", .str metadata.policyFingerprint)]

def alarmCounters (statistics : AlarmRunStatistics) : List (String × Nat) :=
  [("transitions_raised", statistics.transitionsRaised), ("transitions_updated", statistics.transitionsUpdated),
    ("transitions_cleared", statistics.transitionsCleared), ("transitions_total", statistics.transitionsTotal)]

def normalizeAlarm (path : EvidencePath) (events : List AlarmEvent) (decodedSequences : List Int)
    (decodedSourceIndices : List Nat) : Result NormalizedLane := do
  let st ← events.foldlM (normalizeAlarmEvent decodedSequences decodedSourceIndices) {}
  let summaryPresent := alarmSummaryPresent events
  let sourceDiagnostics ←
    (sourceDiagnostic .ALARM "alarm event stream" events.isEmpty !summaryPresent).mapM Diagnostic.new
  let completeness ← classifySourceCompleteness .ALARM events.length summaryPresent
  let source ← SourceDescriptor.new .ALARM (sourceName path) events.length completeness
    (events.head?.map AlarmEvent.schemaVersion) (events.head?.map fun e => e.sessionId.text)
  let metadata ← alarmMetadata events
  let summary ← LaneSummary.new source summaryPresent (alarmCounters (statisticsFromEvents events)) metadata
  return ⟨summary, st.timeline, st.diagnostics ++ sourceDiagnostics⟩

/-! ### Link events -/

/-- Events that are no packet events: `_LINK_CONTEXT_TYPES`. -/
def isLinkContext (t : Link.LinkEventType) : Bool := t = .RUN_METADATA || t = .RUN_SUMMARY

def linkEntry (event : Link.LinkEvent) : TimelineData where
  lane := .LINK
  sourceIndex := event.eventIndex
  kind := .LINK_EVENT
  eventType := event.eventType.value
  elapsedNs := some event.elapsedNs
  packetIndex := event.packetIndex.map Int.ofNat

def corruptionData (event : Link.LinkEvent) : List DiagnosticData :=
  if event.eventType = .PACKET_CORRUPTED then
    let packetContext := match event.packetIndex with
      | none => "unknown packet index"
      | some packetIndex => "packet_index " ++ toString packetIndex
    [{ code := .LINK_CORRUPTION_OBSERVED
       severity := .WARNING
       message := "link corruption evidence observed for " ++ packetContext
       lane := some .LINK
       sourceIndex := some event.eventIndex }]
  else []

def normalizeLinkEvent (st : LaneLoop) (event : Link.LinkEvent) : Result LaneLoop :=
  if isLinkContext event.eventType then .ok st
  else do
    let entry ← TimelineEntry.new (linkEntry event) event.attributes.toJson
    let diagnostics ← (corruptionData event).mapM Diagnostic.new
    return ⟨st.timeline ++ [entry], st.diagnostics ++ diagnostics⟩

def linkMetadata (events : List Link.LinkEvent) : Result Json :=
  if events = [] then .ok (.obj [])
  else (Link.runMetadataFromEvents events).map fun
    | none => .obj []
    | some metadata => metadata.toAttributes.toJson

/-- The counters of the link lane: `statistics.to_dict()`. -/
def linkCounters (s : Link.LinkStatistics) : List (String × Nat) :=
  [("packets_received", s.packetsReceived), ("packets_dropped", s.packetsDropped), ("packets_delayed", s.packetsDelayed),
    ("packets_duplicated", s.packetsDuplicated), ("packets_corrupted", s.packetsCorrupted),
    ("packets_reordered", s.packetsReordered), ("deliveries_scheduled", s.deliveriesScheduled),
    ("deliveries_forwarded", s.deliveriesForwarded)]

def normalizeLink (path : EvidencePath) (events : List Link.LinkEvent) : Result NormalizedLane := do
  let st ← events.foldlM normalizeLinkEvent {}
  let summaryPresent := linkSummaryPresent events
  let sourceDiagnostics ← (sourceDiagnostic .LINK "link event stream" events.isEmpty !summaryPresent).mapM Diagnostic.new
  let completeness ← classifySourceCompleteness .LINK events.length summaryPresent
  let source ← SourceDescriptor.new .LINK (sourceName path) events.length completeness
    (events.head?.map Link.LinkEvent.schemaVersion) (events.head?.map Link.LinkEvent.sessionId)
  let metadata ← linkMetadata events
  let summary ← LaneSummary.new source summaryPresent (linkCounters (Link.statisticsFromEvents events)) metadata
  return ⟨summary, st.timeline, st.diagnostics ++ sourceDiagnostics⟩

/-! ### The session -/

def missingCounters : EvidenceLane → List (String × Nat)
  | .TELEMETRY => telemetryCounters 0 0 0 0 0
  | .ALARM => alarmCounters (statisticsFromEvents [])
  | .LINK => linkCounters (Link.statisticsFromEvents [])

/-- `_missing_lane_summary`, with the empty timeline of such a lane. -/
def missingLaneSummary (lane : EvidenceLane) : Result NormalizedLane := do
  let completeness ← classifySourceCompleteness lane 0 false
  let source ← SourceDescriptor.new lane "<not provided>" 0 completeness none none
  let summary ← LaneSummary.new source false (missingCounters lane) (.obj [])
  let diagnostic ← Diagnostic.new {
    code := .SOURCE_NOT_PROVIDED
    severity := .WARNING
    message := lane.value ++ " evidence source was not provided"
    lane := some lane }
  return ⟨summary, [], [diagnostic]⟩

def telemetryLane : Option (LoadedSource RecordedTelemetryRecord) → Result (NormalizedLane × List (Nat × Int))
  | none => (missingLaneSummary .TELEMETRY).map fun lane => (lane, [])
  | some telemetry => normalizeTelemetry telemetry.path telemetry.records

def alarmLane (decoded : List (Nat × Int)) : Option (LoadedSource AlarmEvent) → Result NormalizedLane
  | none => missingLaneSummary .ALARM
  | some alarm => normalizeAlarm alarm.path alarm.records (decoded.map Prod.snd) (decoded.map Prod.fst)

def linkLane : Option (LoadedSource Link.LinkEvent) → Result NormalizedLane
  | none => missingLaneSummary .LINK
  | some link => normalizeLink link.path link.records

def normalizeLoadedSession (evidence : LoadedSessionEvidence) : Result NormalizedSession := do
  let (telemetry, decoded) ← telemetryLane evidence.telemetry
  let alarm ← alarmLane decoded evidence.alarmEvents
  let link ← linkLane evidence.linkEvents
  NormalizedSession.new [telemetry.summary, alarm.summary, link.summary]
    (sortedBy TimelineEntry.sortKey (telemetry.timeline ++ alarm.timeline ++ link.timeline))
    (sortedBy Diagnostic.sortKey (telemetry.diagnostics ++ alarm.diagnostics ++ link.diagnostics))

def inspectSession (loads : String → Option Json) (selected : SelectedEvidence) : Result NormalizedSession := do
  let evidence ← loadSessionEvidence loads selected
  normalizeLoadedSession evidence

end OrbitOps.Session
