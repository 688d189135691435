import OrbitOps.Py.Lines
import OrbitOps.Session.Outcome
import OrbitOps.Session.Reporting

/-!
# The text report

Every value of the evidence is written as a JSON scalar, escaped to printable ASCII; names of
attributes are written as they are. The lines of a report are its own unless the name of a rendered
attribute has a character that is not printable.
-/

namespace OrbitOps.Session
open Py

def REPORT_FORMAT : String := "orbitops.session_report"
def REPORT_FORMAT_VERSION : Nat := 1

def formatScalar (value : Scalar) : String := value.dumps

/-- `_format_mapping` of items in the order of their names. -/
def formatMapping (values : List (String × Scalar)) : String :=
  if values = [] then "none" else join " " (values.map fun kv => kv.1 ++ "=" ++ formatScalar kv.2)

/-- `str(flag).lower()`. -/
def formatFlag (flag : Bool) : String := if flag then "true" else "false"

def sourceText (summary : LaneSummary) : List String :=
  let source := summary.source
  let schema := match source.schemaVersion with
    | none => "none"
    | some version => toString version
  let sessionId := match source.sessionId with
    | none => "none"
    | some sessionId => formatScalar (.str sessionId.text)
  ["- " ++ source.lane.value ++ " source=" ++ formatScalar (.str source.sourceName.text) ++ " records=" ++
      toString source.recordCount ++ " completeness=" ++ source.completeness.value ++ " schema=" ++ schema ++
      " session_id=" ++ sessionId ++ " summary=" ++ formatFlag summary.summaryPresent,
    "  counters: " ++ formatMapping (summary.counters.dict.items.map fun kv => (kv.1, Scalar.int kv.2)),
    "  metadata: " ++ formatMapping summary.metadata.dict.items]

/-- The lane and the source index of a diagnostic. -/
def locationText (diagnostic : Diagnostic) : String :=
  match diagnostic.lane with
  | none => "session"
  | some lane =>
    match diagnostic.sourceIndex with
    | none => lane.value
    | some index => lane.value ++ "#" ++ toString index

def indicesText (indices : List Nat) : String := join "," (indices.map fun index => toString index)

/-- The related records of a diagnostic. -/
def relatedText (diagnostic : Diagnostic) : String :=
  match diagnostic.relatedLane with
  | none => ""
  | some lane => " related=" ++ lane.value ++ "[" ++ indicesText diagnostic.relatedSourceIndices ++ "]"

def severityText : DiagnosticSeverity → String
  | .INFO => "INFO"
  | .WARNING => "WARNING"
  | .ERROR => "ERROR"

def diagnosticText (diagnostic : Diagnostic) : String :=
  "- " ++ severityText diagnostic.severity ++ " " ++ locationText diagnostic ++ " " ++ diagnostic.code.value ++
    " message=" ++ formatScalar (.str diagnostic.message) ++ relatedText diagnostic

def correlationText (correlation : CorrelationDecision) : String :=
  let candidates := indicesText correlation.candidateRecordIndices
  correlation.kind.value ++ "/" ++ correlation.basis.value ++ (if candidates = "" then "" else "[" ++ candidates ++ "]")

/-- The numbers of an entry, by name. -/
def numberFields (entry : TimelineEntry) : List (String × Option Scalar) :=
  [("received_at", entry.receivedAt.map Scalar.float), ("elapsed_ns", entry.elapsedNs.map Scalar.int),
    ("packet_sequence", entry.packetSequence.map Scalar.int), ("packet_index", entry.packetIndex.map Scalar.int),
    ("telemetry_timestamp_ms", entry.telemetryTimestampMs.map Scalar.int)]

def timelineText (entry : TimelineEntry) : String :=
  join " " (["- " ++ entry.lane.value ++ "#" ++ toString entry.sourceIndex, entry.kind.value, entry.eventType] ++
    ((numberFields entry).filterMap fun kv => kv.2.map fun v => kv.1 ++ "=" ++ formatScalar v) ++
    (entry.correlation.map fun correlation => "correlation=" ++ correlationText correlation).toList ++
    ["attributes=" ++ formatMapping entry.attributes.dict.items])

/-- The lines above the sources. -/
def summaryLines (report : SessionReport) : List String :=
  let session := report.session
  ["OrbitOps session report",
    "format: " ++ REPORT_FORMAT ++ "/v" ++ toString REPORT_FORMAT_VERSION,
    "status: " ++ (if session.isComplete then "complete" else "incomplete") ++ " " ++
      (if session.isCompatible then "compatible" else "incompatible"),
    "evidence: operator-selected bundle; cross-stream provenance unverified",
    "timeline: rendered=" ++ toString report.timeline.length ++ " matched=" ++ toString report.timelineMatched ++
      " total=" ++ toString report.timelineTotal ++ " truncated=" ++ formatFlag report.truncated,
    "filters: " ++ formatMapping report.filters.dict.items,
    "",
    "SUMMARY",
    "sources: " ++ toString session.sources.length,
    "diagnostics: " ++ toString report.diagnostics.length,
    "",
    "SOURCES"]

/-- The lines of a section, or that it is empty. -/
def sectionLines {α : Type} (text : α → String) (items : List α) : List String :=
  match items with
  | [] => ["- none"]
  | _ => items.map text

def reportLines (report : SessionReport) : List String :=
  summaryLines report ++ report.session.sources.flatMap sourceText ++
    ["", "DIAGNOSTICS"] ++ sectionLines diagnosticText report.diagnostics ++
    ["", "TIMELINE"] ++ sectionLines timelineText report.timeline

def renderSessionReportText (report : SessionReport) : String := unlines (reportLines report)

/-! ### Printable lines -/

theorem printable_formatFlag (flag : Bool) : Printable (formatFlag flag) := by
  cases flag <;> decide

theorem printable_laneValue (lane : EvidenceLane) : Printable lane.value := by
  cases lane <;> decide

theorem printable_formatMapping_iff {values : List (String × Scalar)} :
    Printable (formatMapping values) ↔ ∀ kv ∈ values, Printable kv.1 := by
  unfold formatMapping
  split_ifs with h
  · subst h
    exact ⟨(fun _ kv hkv => by cases hkv), fun _ => by decide⟩
  · rw [printable_join_iff (by decide), List.forall_mem_map]
    refine forall₂_congr fun kv _ => ?_
    rw [printable_append, printable_append]
    exact ⟨fun h => h.1.1, fun h => ⟨⟨h, by decide⟩, printable_dumps _⟩⟩

theorem printable_sourceText {summary : LaneSummary} (hcounters : NamesPrintable summary.counters.dict.items)
    (hmetadata : NamesPrintable summary.metadata.dict.items) : ∀ l ∈ sourceText summary, Printable l := by
  have hcompleteness : Printable summary.source.completeness.value := by
    cases summary.source.completeness <;> decide
  have hschema : Printable (match summary.source.schemaVersion with
      | none => "none"
      | some version => toString version) := by
    cases summary.source.schemaVersion with
    | none => decide
    | some version => exact printable_toString_nat version
  have hsession : Printable (match summary.source.sessionId with
      | none => "none"
      | some sessionId => formatScalar (.str sessionId.text)) := by
    cases summary.source.sessionId with
    | none => decide
    | some sessionId => exact printable_dumps _
  simp only [sourceText, List.forall_mem_cons, List.not_mem_nil, false_imp_iff, implies_true, and_true, printable_append,
    printable_formatMapping_iff]
  refine ⟨?_, ⟨by decide, ?_⟩, by decide, hmetadata⟩
  · exact ⟨⟨⟨⟨⟨⟨⟨⟨⟨⟨⟨⟨⟨by decide, printable_laneValue _⟩, by decide⟩, printable_dumps _⟩, by decide⟩,
      printable_toString_nat _⟩, by decide⟩, hcompleteness⟩, by decide⟩, hschema⟩, by decide⟩, hsession⟩, by decide⟩,
      printable_formatFlag _⟩
  · intro kv hkv
    obtain ⟨kv', hkv', rfl⟩ := List.mem_map.mp hkv
    exact hcounters kv' hkv'

theorem printable_indicesText (indices : List Nat) : Printable (indicesText indices) := by
  refine printable_join (by decide) fun s hs => ?_
  obtain ⟨index, -, rfl⟩ := List.mem_map.mp hs
  exact printable_toString_nat index

theorem printable_diagnosticText (diagnostic : Diagnostic) : Printable (diagnosticText diagnostic) := by
  have hseverity : Printable (severityText diagnostic.severity) := by
    cases diagnostic.severity <;> decide
  have hcode : Printable diagnostic.code.value := by
    cases diagnostic.code <;> decide
  have hlocation : Printable (locationText diagnostic) := by
    unfold locationText
    cases diagnostic.lane with
    | none => exact (by decide : Printable "session")
    | some lane =>
      cases diagnostic.sourceIndex with
      | none => exact printable_laneValue lane
      | some index => exact ((printable_laneValue lane).append (by decide)).append (printable_toString_nat index)
  have hrelated : Printable (relatedText diagnostic) := by
    unfold relatedText
    cases diagnostic.relatedLane with
    | none => exact .empty
    | some lane =>
      have hstart : Printable " related=" := by decide
      exact (((hstart.append (printable_laneValue lane)).append (by decide)).append (printable_indicesText _)).append
        (by decide)
  have hstart : Printable "- " := by decide
  exact (((((((hstart.append hseverity).append (by decide)).append hlocation).append (by decide)).append hcode).append
    (by decide)).append (printable_dumps _)).append hrelated

theorem printable_correlationText (correlation : CorrelationDecision) : Printable (correlationText correlation) := by
  have hkind : Printable correlation.kind.value := by
    cases correlation.kind <;> decide
  have hbasis : Printable correlation.basis.value := by
    cases correlation.basis <;> decide
  have hcandidates := printable_indicesText correlation.candidateRecordIndices
  have hbracket : Printable "[" := by decide
  unfold correlationText
  dsimp only
  refine ((hkind.append (by decide)).append hbasis).append ?_
  split_ifs
  · exact .empty
  · exact (hbracket.append hcandidates).append (by decide)

/-- The line of an entry is printable when the names of its attributes are. -/
theorem printable_timelineText_iff {entry : TimelineEntry} (h : Printable entry.eventType) :
    Printable (timelineText entry) ↔ ∀ kv ∈ entry.attributes.dict.items, Printable kv.1 := by
  have hkind : Printable entry.kind.value := by
    cases entry.kind <;> decide
  have hhead : Printable ("- " ++ entry.lane.value ++ "#" ++ toString entry.sourceIndex) := by
    have hstart : Printable "- " := by decide
    exact ((hstart.append (printable_laneValue _)).append (by decide)).append (printable_toString_nat _)
  have hnumbers : ∀ s ∈ (numberFields entry).filterMap fun kv => kv.2.map fun v => kv.1 ++ "=" ++ formatScalar v,
      Printable s := by
    intro s hs
    obtain ⟨kv, hkv, hs⟩ := List.mem_filterMap.mp hs
    obtain ⟨v, -, rfl⟩ := Option.map_eq_some_iff.mp hs
    have hname : ∀ kv ∈ numberFields entry, Printable kv.1 := by
      simp only [numberFields, List.forall_mem_cons, List.not_mem_nil, false_imp_iff, implies_true]
      decide
    exact ((hname kv hkv).append (by decide)).append (printable_dumps v)
  have hcorrelation : ∀ s ∈ (entry.correlation.map fun correlation => "correlation=" ++ correlationText correlation).toList,
      Printable s := by
    intro s hs
    obtain ⟨correlation, -, rfl⟩ := Option.map_eq_some_iff.mp (Option.mem_toList.mp hs)
    have hstart : Printable "correlation=" := by decide
    exact hstart.append (printable_correlationText correlation)
  have hattributes : Printable ("attributes=" ++ formatMapping entry.attributes.dict.items) ↔
      ∀ kv ∈ entry.attributes.dict.items, Printable kv.1 := by
    rw [printable_append, printable_formatMapping_iff]
    exact and_iff_right (by decide)
  rw [timelineText, printable_join_iff (by decide), ← hattributes]
  constructor
  · exact fun hall => hall _ (List.mem_append_right _ (List.mem_singleton_self _))
  · intro hlast s hs
    rcases List.mem_append.mp hs with hs | hs
    · rcases List.mem_append.mp hs with hs | hs
      · rcases List.mem_append.mp hs with hs | hs
        · simp only [List.mem_cons, List.not_mem_nil, or_false] at hs
          rcases hs with rfl | rfl | rfl
          · exact hhead
          · exact hkind
          · exact h
        · exact hnumbers s hs
      · exact hcorrelation s hs
    · rw [List.mem_singleton.mp hs]
      exact hlast

/-! ### The whole report -/

/-- A session whose own names are printable: only the names of attributes can be otherwise. -/
structure NormalizedSession.WellNamed (session : NormalizedSession) : Prop where
  counters : ∀ summary ∈ session.sources, NamesPrintable summary.counters.dict.items
  metadata : ∀ summary ∈ session.sources, NamesPrintable summary.metadata.dict.items
  eventTypes : ∀ entry ∈ session.timeline, Printable entry.eventType

theorem SessionOutcome.wellNamed {evidence : LoadedSessionEvidence} {s : NormalizedSession}
    {telemetry : NormalizedLane} {decoded : List (Nat × Int)} {alarm link : NormalizedLane}
    (h : SessionOutcome evidence s telemetry decoded alarm link) : s.WellNamed := by
  have ht := h.telemetryLane.wellFormed
  have ha := h.alarmLane.wellFormed
  have hl := h.linkLane.wellFormed
  constructor
  · rw [h.sources]
    simp only [List.forall_mem_cons, List.not_mem_nil, false_imp_iff, implies_true, and_true]
    exact ⟨ht.counterNames, ha.counterNames, hl.counterNames⟩
  · rw [h.sources]
    simp only [List.forall_mem_cons, List.not_mem_nil, false_imp_iff, implies_true, and_true]
    exact ⟨ht.metadataNames, ha.metadataNames, hl.metadataNames⟩
  · intro entry hentry
    rw [h.timeline, List.mem_append, List.mem_append] at hentry
    rcases hentry with (hentry | hentry) | hentry
    · exact (ht.entries entry hentry).2
    · exact (ha.entries entry hentry).2
    · exact (hl.entries entry hentry).2

theorem outcome_of_inspectSession {loads : String → Option Json} {selected : SelectedEvidence}
    {session : NormalizedSession} (h : inspectSession loads selected = .ok session) :
    ∃ evidence, loadSessionEvidence loads selected = .ok evidence ∧ ∃ telemetry decoded alarm link,
      SessionOutcome evidence session telemetry decoded alarm link := by
  obtain ⟨evidence, hload, hnormal⟩ := except_bind_eq_ok.mp h
  exact ⟨evidence, hload, (normalizeLoadedSession_ok (strict_of_loadSessionEvidence hload)).2 session hnormal⟩

theorem length_sources (session : NormalizedSession) : session.sources.length = 3 := by
  have h := congrArg List.length session.lanes
  rwa [List.length_map] at h

theorem length_flatMap_sourceText (sources : List LaneSummary) : (sources.flatMap sourceText).length = 3 * sources.length := by
  induction sources with
  | nil => rfl
  | cons summary sources ih =>
    rw [List.flatMap_cons, List.length_append, ih, List.length_cons]
    simp only [sourceText, List.length_cons, List.length_nil]
    omega

theorem length_sectionLines {α : Type} (text : α → String) (items : List α) :
    (sectionLines text items).length = max 1 items.length := by
  cases items with
  | nil => rfl
  | cons a items =>
    simp only [sectionLines, List.length_map, List.length_cons]
    omega

theorem printable_sectionLines_iff {α : Type} {text : α → String} {items : List α} :
    (∀ l ∈ sectionLines text items, Printable l) ↔ ∀ a ∈ items, Printable (text a) := by
  cases items with
  | nil =>
    simp only [sectionLines, List.mem_singleton, forall_eq, List.not_mem_nil, false_imp_iff, implies_true, iff_true]
    decide
  | cons a items => rw [sectionLines, List.forall_mem_map]; exact (nomatch ·)

theorem length_reportLines (report : SessionReport) : (reportLines report).length =
    12 + 9 + 2 + max 1 report.diagnostics.length + 2 + max 1 report.timeline.length := by
  simp only [reportLines, summaryLines, List.length_append, length_sectionLines, length_flatMap_sourceText, length_sources,
    List.length_cons, List.length_nil]

theorem printable_summaryLines {report : SessionReport} (hfilters : NamesPrintable report.filters.dict.items) :
    ∀ l ∈ summaryLines report, Printable l := by
  have hstatus (b : Bool) {s t : String} (hs : Printable s) (ht : Printable t) : Printable (if b then s else t) := by
    cases b
    · exact ht
    · exact hs
  simp only [summaryLines, List.forall_mem_cons, List.not_mem_nil, false_imp_iff, implies_true, and_true, printable_append,
    printable_formatMapping_iff]
  refine ⟨by decide, by decide, ?_, by decide, ?_, ⟨by decide, hfilters⟩, by decide, by decide,
    ⟨by decide, printable_toString_nat _⟩, ⟨by decide, printable_toString_nat _⟩, by decide, by decide⟩
  · exact ⟨⟨⟨by decide, hstatus _ (by decide) (by decide)⟩, by decide⟩, hstatus _ (by decide) (by decide)⟩
  · exact ⟨⟨⟨⟨⟨⟨⟨by decide, printable_toString_nat _⟩, by decide⟩, printable_toString_nat _⟩, by decide⟩,
      printable_toString_nat _⟩, by decide⟩, printable_formatFlag _⟩

/-- The lines of a report of such a session are printable when the names of the rendered attributes are. -/
theorem printable_reportLines_iff {report : SessionReport} (hnamed : report.session.WellNamed)
    (htimeline : ∀ entry ∈ report.timeline, entry ∈ report.session.timeline)
    (hfilters : NamesPrintable report.filters.dict.items) :
    (∀ l ∈ reportLines report, Printable l) ↔
      ∀ entry ∈ report.timeline, ∀ item ∈ entry.attributes.dict.items, Printable item.1 := by
  have hsources : ∀ l ∈ report.session.sources.flatMap sourceText, Printable l := by
    intro l hl
    obtain ⟨summary, hsummary, hl⟩ := List.mem_flatMap.mp hl
    exact printable_sourceText (hnamed.counters summary hsummary) (hnamed.metadata summary hsummary) l hl
  have htitles : (∀ l ∈ ["", "DIAGNOSTICS"], Printable l) ∧ ∀ l ∈ ["", "TIMELINE"], Printable l := by decide
  have hentries : (∀ entry ∈ report.timeline, Printable (timelineText entry)) ↔
      ∀ entry ∈ report.timeline, ∀ item ∈ entry.attributes.dict.items, Printable item.1 :=
    forall₂_congr fun entry hentry => printable_timelineText_iff (hnamed.eventTypes entry (htimeline entry hentry))
  simp only [reportLines, List.forall_mem_append, printable_sectionLines_iff]
  rw [hentries]
  exact and_iff_right ⟨⟨⟨⟨printable_summaryLines hfilters, hsources⟩, htitles.1⟩,
    fun d _ => printable_diagnosticText d⟩, htitles.2⟩

theorem printable_activeFilters (f : TimelineFilters) (limit : Option Nat) : NamesPrintable (activeFilters f limit) := by
  intro kv hkv
  obtain ⟨named, hnamed, hkv⟩ := List.mem_filterMap.mp hkv
  obtain ⟨v, -, rfl⟩ := Option.map_eq_some_iff.mp hkv
  simp only [List.mem_cons, List.not_mem_nil, or_false] at hnamed
  rcases hnamed with rfl | rfl | rfl | rfl | rfl <;> (dsimp only; decide)

/-- The text of a projection of such a session shows exactly its lines when the rendered names are printable. -/
theorem plainText_projection_iff {session : NormalizedSession} (hnamed : session.WellNamed) {f : TimelineFilters}
    {limit : Option Nat} {report : SessionReport} (h : Projects session f limit report) :
    PlainText (renderSessionReportText report) ∧ newlines (renderSessionReportText report) =
        12 + 9 + 2 + max 1 report.diagnostics.length + 2 + max 1 report.timeline.length ↔
      ∀ entry ∈ report.timeline, ∀ item ∈ entry.attributes.dict.items, Printable item.1 := by
  have hfilters : NamesPrintable report.filters.dict.items := by
    rw [h.filters]
    exact fun kv hkv => printable_activeFilters f limit kv (Dict.mem_ofItems hkv)
  have hmem : ∀ entry ∈ report.timeline, entry ∈ report.session.timeline :=
    fun entry h => mem_of_sessionEntry (report.valid.projection entry h)
  have hne : reportLines report ≠ [] := by simp [reportLines, summaryLines]
  rw [← length_reportLines, renderSessionReportText, plainText_unlines_iff hne]
  exact printable_reportLines_iff (h.ofSession ▸ hnamed) hmem hfilters

/-- The text of a projected report consists of its own lines of printable ASCII unless the name of a rendered
attribute has another character. -/
theorem renderSessionReportText_plain_iff {loads : String → Option Json} {selected : SelectedEvidence}
    {session : NormalizedSession} (hsession : inspectSession loads selected = .ok session)
    {packetSequenceMin packetSequenceMax alarmCode alarmSeverity eventLimit : Json} {report : SessionReport}
    (hreport : projectSessionReport session packetSequenceMin packetSequenceMax alarmCode alarmSeverity eventLimit =
      .ok report) :
    PlainText (renderSessionReportText report) ∧ newlines (renderSessionReportText report) =
        12 + 9 + 2 + max 1 report.diagnostics.length + 2 + max 1 report.timeline.length ↔
      ∀ entry ∈ report.timeline, ∀ item ∈ entry.attributes.dict.items, Printable item.1 := by
  obtain ⟨_, -, _, _, _, _, houtcome⟩ := outcome_of_inspectSession hsession
  obtain ⟨f, limit, hprojects⟩ := projects_of_projectSessionReport hreport
  exact plainText_projection_iff houtcome.wellNamed hprojects

theorem exists_of_isOk {α : Type} {r : Result α} (h : r.isOk = true) : ∃ a, r = .ok a := by
  cases r with
  | error e => cases h
  | ok a => exact ⟨a, rfl⟩

/-- The report of a recording and a link log is plain, whatever the attributes of its entries hold. -/
theorem renderSessionReportText_plain_iff_skipping : ∃ session report,
    inspectSession Json.loads skippingSelected = .ok session ∧
      projectSessionReport session .null .null .null .null .null = .ok report ∧
      PlainText (renderSessionReportText report) ∧ newlines (renderSessionReportText report) =
        12 + 9 + 2 + max 1 report.diagnostics.length + 2 + max 1 report.timeline.length ∧
      ∃ entry ∈ report.timeline, entry.lane = .LINK ∧ entry.attributes.dict.items ≠ [] := by
  have hok : (normalizeLoadedSession skippingEvidence >>= fun session =>
      projectSessionReport session .null .null .null .null .null >>= fun report =>
        if ¬((∀ entry ∈ report.timeline, ∀ item ∈ entry.attributes.dict.items, Printable item.1) ∧
          ∃ entry ∈ report.timeline, entry.lane = .LINK ∧ entry.attributes.dict.items ≠ [])
        then .error (valueError "") else .ok report).isOk = true := by decide +kernel
  obtain ⟨r, h⟩ := exists_of_isOk hok
  obtain ⟨session, hsession, h⟩ := except_bind_eq_ok.mp h
  obtain ⟨report, hreport, h⟩ := except_bind_eq_ok.mp h
  obtain ⟨hnot, -⟩ := except_guard_eq_ok.mp h
  obtain ⟨hprintable, hattributes⟩ := not_not.mp hnot
  have hinspect : inspectSession Json.loads skippingSelected = .ok session :=
    except_bind_eq_ok.mpr ⟨_, loadSessionEvidence_skipping, hsession⟩
  obtain ⟨hplain, hlines⟩ := (renderSessionReportText_plain_iff hinspect hreport).mpr hprintable
  exact ⟨session, report, hinspect, hreport, hplain, hlines, hattributes⟩

theorem isBlank_forgingSession : isBlank "s" = false := by decide

/-- A link event with a line break in the name of an attribute. -/
def forgingEvent : Link.LinkEvent :=
  { nulSessionEvent with
    sessionId := "s"
    attributes := .ofItems [("a\nb", .int 1)] (by decide)
    session_visible := isBlank_forgingSession
    metadata_shape := (nomatch ·) }

/-- The log that holds this event. -/
def forgingLog : SelectedEvidence := ⟨none, some ⟨⟨"", "link.jsonl"⟩, ⟨[forgingEvent.toDict.line], none⟩⟩, none⟩

/-- A line break in the name of an attribute is a line break of the report. -/
theorem renderSessionReportText_forged : ∃ session report,
    inspectSession Json.loads forgingLog = .ok session ∧
      projectSessionReport session .null .null .null .null .null = .ok report ∧
      ¬(PlainText (renderSessionReportText report) ∧ newlines (renderSessionReportText report) =
          12 + 9 + 2 + max 1 report.diagnostics.length + 2 + max 1 report.timeline.length) := by
  have hnext : Link.LinkEvent.Next [] forgingEvent :=
    ⟨rfl, (fun _ h => by cases h), (fun _ h => by cases h), (fun _ h => by cases h), (fun _ h => by cases h),
      (fun h => by cases h)⟩
  have hevidence : loadSessionEvidence Json.loads forgingLog = .ok _ :=
    loadSessionEvidence_singleEvent hnext (by decide) (by decide +kernel) ⟨"", "link.jsonl"⟩
  have hok : (normalizeLoadedSession ⟨none, none, some ⟨⟨"", "link.jsonl"⟩, [forgingEvent]⟩⟩ >>= fun session =>
      projectSessionReport session .null .null .null .null .null >>= fun report =>
        if report.timeline.all fun entry => entry.attributes.dict.items.all fun item => decide (Printable item.1)
        then .error (valueError "") else .ok report).isOk = true := by decide +kernel
  obtain ⟨r, h⟩ := exists_of_isOk hok
  obtain ⟨session, hsession, h⟩ := except_bind_eq_ok.mp h
  obtain ⟨report, hreport, h⟩ := except_bind_eq_ok.mp h
  obtain ⟨hforged, -⟩ := except_guard_eq_ok.mp h
  have hinspect : inspectSession Json.loads forgingLog = .ok session := by
    rw [inspectSession, hevidence]
    exact hsession
  obtain ⟨_, -, _, _, _, _, houtcome⟩ := outcome_of_inspectSession hinspect
  obtain ⟨f, limit, hprojects⟩ := projects_of_projectSessionReport hreport
  refine ⟨session, report, hinspect, hreport, ?_⟩
  rw [plainText_projection_iff houtcome.wellNamed hprojects]
  simpa only [List.all_eq_true, decide_eq_true_eq] using hforged

end OrbitOps.Session
