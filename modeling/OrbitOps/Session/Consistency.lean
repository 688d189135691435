import OrbitOps.Session.Document
import OrbitOps.Session.Projection

/-!
# Reports are consistent

A report document refers to its evidence by lanes and positions and counts what it shows
(`SessionReportDocument.Consistent`). The references are made by the normalizers of the lanes, the
correlation and the sequence diagnostics, the record counts by the loaders, and the other numbers by the
projection.
-/

namespace OrbitOps.Session
open Py

/-! ### Consistency of a document -/

/-- A position among the records of a lane. -/
def SessionReportDocument.Refers (d : SessionReportDocument) (lane : String) (i : Nat) : Prop :=
  ∃ source ∈ d.sources, source.lane = lane ∧ i < source.recordCount

/-- The kind of a correlation is that of the number of its candidates, in ascending order. -/
structure ReportCorrelationDocument.Consistent (c : ReportCorrelationDocument) : Prop where
  kind : c.kind = "exact" ∧ c.candidateRecordIndices.length = 1 ∨
    c.kind = "ambiguous" ∧ 2 ≤ c.candidateRecordIndices.length ∨ c.kind = "impossible" ∧ c.candidateRecordIndices = []
  ascending : c.candidateRecordIndices.Pairwise (· < ·)

/-- The numbers of a document are those of its parts, and its references are to records of its sources. -/
structure SessionReportDocument.Consistent (d : SessionReportDocument) : Prop where
  lanes : d.sources.map ReportSourceDocument.lane = ["telemetry", "alarm", "link"]
  rendered : d.selection.timelineEntriesRendered = d.timeline.length ∧
    d.summary.timelineEntriesRendered = d.timeline.length
  matched : d.timeline.length ≤ d.selection.timelineEntriesMatched ∧
    d.selection.timelineEntriesMatched ≤ d.selection.timelineEntriesTotal ∧
    d.summary.timelineEntriesTotal = d.selection.timelineEntriesTotal
  truncated : d.selection.timelineTruncated = true ↔
    d.selection.timelineEntriesRendered < d.selection.timelineEntriesMatched
  notices : d.diagnostics.countP (fun x => x.code = "timeline_truncated") = d.selection.timelineTruncated.toNat
  counted : (d.summary.diagnosticCounts.map Prod.snd).sum = d.summary.diagnosticsTotal ∧
    d.summary.diagnosticsTotal = d.diagnostics.length
  entries : ∀ e ∈ d.timeline, d.Refers e.lane e.sourceIndex
  located : ∀ x ∈ d.diagnostics, ∀ i ∈ x.sourceIndex, ∃ lane ∈ x.lane, d.Refers lane i
  related : ∀ x ∈ d.diagnostics, ∀ i ∈ x.relatedSourceIndices, ∃ lane ∈ x.relatedLane, d.Refers lane i
  correlated : ∀ e ∈ d.timeline, e.lane = "alarm" → ∃ c ∈ e.correlation, c.Consistent ∧
    ∀ i ∈ c.candidateRecordIndices, d.Refers "telemetry" i
  compatible : d.summary.compatible = false ↔ ∃ errors ∈ d.summary.diagnosticCounts.lookup "error", 0 < errors

/-! ### Record counts -/

/-- The number of records that were loaded for a lane. -/
def LoadedSessionEvidence.recordCount (evidence : LoadedSessionEvidence) : EvidenceLane → Nat
  | .TELEMETRY => (recordsOf evidence.telemetry).length
  | .ALARM => (recordsOf evidence.alarmEvents).length
  | .LINK => (recordsOf evidence.linkEvents).length

section
variable {lane : EvidenceLane} {name : String} {n : Nat} {completeness : SourceCompleteness} {schemaVersion : Option Nat}
  {sessionId : Option String}

theorem recordCount_of_new {source : SourceDescriptor}
    (hsource : SourceDescriptor.new lane name n completeness schemaVersion sessionId = .ok source) {present : Bool}
    {counters : List (String × Nat)} {metadata : Json} {summary : LaneSummary}
    (hsummary : LaneSummary.new source present counters metadata = .ok summary) : summary.source.recordCount = n := by
  rw [(LaneSummary.new_eq_ok.mp hsummary).1]
  exact (SourceDescriptor.new_eq_ok.mp hsource).recordCount

theorem recordCount_of_missing {l : NormalizedLane} (h : missingLaneSummary lane = .ok l) :
    l.summary.source.recordCount = 0 := by
  obtain ⟨completeness, -, h⟩ := except_bind_eq_ok.mp h
  obtain ⟨source, hsource, h⟩ := except_bind_eq_ok.mp h
  obtain ⟨summary, hsummary, h⟩ := except_bind_eq_ok.mp h
  obtain ⟨diagnostic, -, h⟩ := except_bind_eq_ok.mp h
  cases h
  exact recordCount_of_new hsource hsummary

end

theorem recordCount_of_telemetryLane {t : Option (LoadedSource RecordedTelemetryRecord)} {l : NormalizedLane}
    {decoded : List (Nat × Int)} (h : telemetryLane t = .ok (l, decoded)) :
    l.summary.source.recordCount = (recordsOf t).length := by
  cases t with
  | none =>
    rw [telemetryLane] at h
    obtain ⟨l', hl, h⟩ := except_map_eq_ok.mp h
    cases h
    exact recordCount_of_missing hl
  | some t =>
    obtain ⟨st, -, h⟩ := except_bind_eq_ok.mp h
    obtain ⟨⟨sequenceDiagnostics, gapCount, duplicateCount⟩, -, h⟩ := except_bind_eq_ok.mp h
    obtain ⟨emptyDiagnostics, -, h⟩ := except_bind_eq_ok.mp h
    obtain ⟨completeness, -, h⟩ := except_bind_eq_ok.mp h
    obtain ⟨source, hsource, h⟩ := except_bind_eq_ok.mp h
    obtain ⟨summary, hsummary, h⟩ := except_bind_eq_ok.mp h
    cases h
    exact recordCount_of_new hsource hsummary

theorem recordCount_of_alarmLane {decoded : List (Nat × Int)} {a : Option (LoadedSource AlarmEvent)} {l : NormalizedLane}
    (h : alarmLane decoded a = .ok l) : l.summary.source.recordCount = (recordsOf a).length := by
  cases a with
  | none => exact recordCount_of_missing h
  | some a =>
    obtain ⟨st, -, h⟩ := except_bind_eq_ok.mp h
    obtain ⟨sourceDiagnostics, -, h⟩ := except_bind_eq_ok.mp h
    obtain ⟨completeness, -, h⟩ := except_bind_eq_ok.mp h
    obtain ⟨source, hsource, h⟩ := except_bind_eq_ok.mp h
    obtain ⟨metadata, -, h⟩ := except_bind_eq_ok.mp h
    obtain ⟨summary, hsummary, h⟩ := except_bind_eq_ok.mp h
    cases h
    exact recordCount_of_new hsource hsummary

theorem recordCount_of_linkLane {link : Option (LoadedSource Link.LinkEvent)} {l : NormalizedLane}
    (h : linkLane link = .ok l) : l.summary.source.recordCount = (recordsOf link).length := by
  cases link with
  | none => exact recordCount_of_missing h
  | some link =>
    obtain ⟨st, -, h⟩ := except_bind_eq_ok.mp h
    obtain ⟨sourceDiagnostics, -, h⟩ := except_bind_eq_ok.mp h
    obtain ⟨completeness, -, h⟩ := except_bind_eq_ok.mp h
    obtain ⟨source, hsource, h⟩ := except_bind_eq_ok.mp h
    obtain ⟨metadata, -, h⟩ := except_bind_eq_ok.mp h
    obtain ⟨summary, hsummary, h⟩ := except_bind_eq_ok.mp h
    cases h
    exact recordCount_of_new hsource hsummary

theorem NormalizedSession.sources_of_new {sources : List LaneSummary} {timeline : List TimelineEntry}
    {diagnostics : List Diagnostic} {s : NormalizedSession} (h : NormalizedSession.new sources timeline diagnostics = .ok s) :
    s.sources = sources := by
  unfold NormalizedSession.new at h
  dsimp only at h
  split_ifs at h
  cases h
  rfl

/-- Every lane has a summary with the number of its loaded records. -/
theorem exists_summary {evidence : LoadedSessionEvidence} {s : NormalizedSession}
    (h : normalizeLoadedSession evidence = .ok s) (lane : EvidenceLane) :
    ∃ summary ∈ s.sources, summary.source.lane = lane ∧ summary.source.recordCount = evidence.recordCount lane := by
  obtain ⟨⟨telemetry, decoded⟩, ht, h⟩ := except_bind_eq_ok.mp h
  obtain ⟨alarm, ha, h⟩ := except_bind_eq_ok.mp h
  obtain ⟨link, hl, h⟩ := except_bind_eq_ok.mp h
  have hsources := NormalizedSession.sources_of_new h
  have hlanes := s.lanes
  rw [hsources] at hlanes
  simp only [List.map_cons, List.map_nil, LANE_PRECEDENCE, List.cons.injEq, and_true] at hlanes
  obtain ⟨hlt, hla, hll⟩ := hlanes
  rw [hsources]
  cases lane with
  | TELEMETRY => exact ⟨telemetry.summary, by simp, hlt, recordCount_of_telemetryLane ht⟩
  | ALARM => exact ⟨alarm.summary, by simp, hla, recordCount_of_alarmLane ha⟩
  | LINK => exact ⟨link.summary, by simp, hll, recordCount_of_linkLane hl⟩

/-! ### References -/

theorem lt_of_map_range' {α : Type} {index : α → Nat} {as : List α} (h : as.map index = List.range' 0 as.length) {a : α}
    (ha : a ∈ as) : index a < as.length := by
  have hmem : index a ∈ List.range' 0 as.length := h ▸ List.mem_map_of_mem ha
  simpa using hmem

section
variable {evidence : LoadedSessionEvidence} {s : NormalizedSession} {telemetry : NormalizedLane}
  {decoded : List (Nat × Int)} {alarm link : NormalizedLane}

namespace LoadedSessionEvidence.Strict

theorem recordIndex_lt (h : evidence.Strict) {record : RecordedTelemetryRecord} (hmem : record ∈ recordsOf evidence.telemetry) :
    record.recordIndex < evidence.recordCount .TELEMETRY := by
  cases ht : evidence.telemetry with
  | none => rw [ht] at hmem; cases hmem
  | some t =>
    obtain ⟨rows, hrows⟩ := h.telemetry t ht
    have hrecords : recordsOf evidence.telemetry = indexRows rows := by rw [ht]; exact hrows
    rw [recordCount, hrecords]
    rw [hrecords] at hmem
    obtain ⟨i, hi, rfl⟩ := List.mem_iff_getElem.mp hmem
    simpa [indexRows] using hi

theorem alarmIndex_lt (h : evidence.Strict) {event : AlarmEvent} (hmem : event ∈ recordsOf evidence.alarmEvents) :
    event.eventIndex < evidence.recordCount .ALARM := by
  cases ha : evidence.alarmEvents with
  | none => rw [ha] at hmem; cases hmem
  | some a =>
    have hrecords : recordsOf evidence.alarmEvents = a.records := by rw [ha]; rfl
    rw [recordCount, hrecords]
    rw [hrecords] at hmem
    exact lt_of_map_range' ((h.alarmEvents a ha).map_index fun _ _ hn => hn.index) hmem

theorem linkIndex_lt (h : evidence.Strict) {event : Link.LinkEvent} (hmem : event ∈ recordsOf evidence.linkEvents) :
    event.eventIndex < evidence.recordCount .LINK := by
  cases hl : evidence.linkEvents with
  | none => rw [hl] at hmem; cases hmem
  | some l =>
    have hrecords : recordsOf evidence.linkEvents = l.records := by rw [hl]; rfl
    rw [recordCount, hrecords]
    rw [hrecords] at hmem
    exact lt_of_map_range' ((h.linkEvents l hl).map_index fun _ _ hn => hn.index) hmem

theorem decodedIndex_lt (h : evidence.Strict) {pair : Nat × Int} (hmem : pair ∈ decodedPairs (recordsOf evidence.telemetry)) :
    pair.1 < evidence.recordCount .TELEMETRY := by
  obtain ⟨record, hrecord, hpair⟩ := List.mem_filterMap.mp hmem
  obtain ⟨p, -, rfl⟩ := Option.map_eq_some_iff.mp hpair
  exact h.recordIndex_lt hrecord

theorem candidate_lt (h : evidence.Strict) {sequence : Int} {i : Nat}
    (hmem : i ∈ indicesOf (decodedPairs (recordsOf evidence.telemetry)) sequence) :
    i < evidence.recordCount .TELEMETRY :=
  h.decodedIndex_lt (mem_indicesOf.mp hmem)

end LoadedSessionEvidence.Strict

/-- The positions of a diagnostic are those of loaded records. -/
structure DiagnosticData.Located (evidence : LoadedSessionEvidence) (d : DiagnosticData) : Prop where
  sourceIndex : ∀ i ∈ d.sourceIndex, ∃ lane ∈ d.lane, i < evidence.recordCount lane
  related : ∀ i ∈ d.relatedSourceIndices, ∃ lane ∈ d.relatedLane, i < evidence.recordCount lane

theorem DiagnosticData.Located.of_none {d : DiagnosticData} (hindex : d.sourceIndex = none)
    (hrelated : d.relatedSourceIndices = []) : d.Located evidence := by
  refine ⟨fun i hi => ?_, fun i hi => ?_⟩
  · rw [hindex] at hi; cases hi
  · rw [hrelated] at hi; cases hi

theorem DiagnosticData.Located.of_index {d : DiagnosticData} {lane : EvidenceLane} {i : Nat} (hlane : d.lane = some lane)
    (hindex : d.sourceIndex = some i) (hrelated : d.relatedSourceIndices = []) (h : i < evidence.recordCount lane) :
    d.Located evidence := by
  refine ⟨fun j hj => ⟨lane, hlane, ?_⟩, fun j hj => ?_⟩
  · rw [hindex] at hj
    obtain rfl := Option.some.inj hj
    exact h
  · rw [hrelated] at hj; cases hj

theorem Diagnoses.located (hstrict : evidence.Strict) {lane : EvidenceLane} {d : DiagnosticData}
    (h : Diagnoses evidence lane d) : d.Located evidence := by
  cases h with
  | missing => exact .of_none rfl rfl
  | source _ _ h => exact .of_none h.sourceIndex h.related
  | rejected record h reason => exact .of_index rfl rfl rfl (hstrict.recordIndex_lt h)
  | duplicate group h =>
    obtain ⟨hmem, -⟩ := List.mem_filter.mp h
    obtain ⟨sequence, -, rfl⟩ := List.mem_map.mp hmem
    exact ⟨fun i hi => ⟨.TELEMETRY, rfl, hstrict.candidate_lt (List.mem_of_head? hi)⟩,
      fun i hi => ⟨.TELEMETRY, rfl, hstrict.candidate_lt hi⟩⟩
  | gap pair h =>
    obtain ⟨previous, current⟩ := pair
    obtain ⟨hmem, -⟩ := List.mem_filter.mp h
    have hprevious := hstrict.decodedIndex_lt (List.of_mem_zip hmem).1
    have hcurrent := hstrict.decodedIndex_lt (List.mem_of_mem_tail (List.of_mem_zip hmem).2)
    refine ⟨fun i hi => ⟨.TELEMETRY, rfl, ?_⟩, fun i hi => ⟨.TELEMETRY, rfl, ?_⟩⟩
    · obtain rfl := Option.some.inj hi
      exact hcurrent
    · rcases List.mem_pair.mp hi with rfl | rfl
      · exact hprevious
      · exact hcurrent
  | correlation event h d hd =>
    have habout := aboutAlarm_of_mem hd
    refine ⟨fun i hi => ⟨.ALARM, habout.lane, ?_⟩, fun i hi => ?_⟩
    · rw [habout.sourceIndex] at hi
      obtain rfl := Option.some.inj hi
      exact hstrict.alarmIndex_lt h
    · obtain ⟨hlane, n, hcandidate⟩ := habout.related i hi
      exact ⟨.TELEMETRY, hlane, hstrict.candidate_lt hcandidate⟩
  | corruption event h d hd => exact .of_index hd.lane hd.sourceIndex hd.related (hstrict.linkIndex_lt h)

theorem SessionOutcome.entry_lt (h : SessionOutcome evidence s telemetry decoded alarm link) (hstrict : evidence.Strict)
    {e : TimelineEntry} (he : e ∈ s.timeline) : e.sourceIndex < evidence.recordCount e.lane := by
  rw [h.timeline] at he
  rcases List.mem_append.mp he with he | he
  · rcases List.mem_append.mp he with he | he
    · obtain ⟨record, hrecord, hof⟩ := forall_mem_right_of_forall₂ h.telemetryLane.timeline e he
      obtain ⟨hlane, hindex, -⟩ := hof.shape
      rw [hlane, hindex]
      exact hstrict.recordIndex_lt hrecord
    · obtain ⟨event, hevent, hof⟩ := forall_mem_right_of_forall₂ h.alarmLane.timeline e he
      obtain ⟨hlane, hindex, -⟩ := hof.shape
      rw [hlane, hindex]
      exact hstrict.alarmIndex_lt (mem_of_mem_transitionsOf hevent)
  · obtain ⟨event, hevent, hof⟩ := forall_mem_right_of_forall₂ h.linkLane.timeline e he
    obtain ⟨hlane, hindex, -⟩ := hof.shape
    rw [hlane, hindex]
    exact hstrict.linkIndex_lt (List.mem_of_mem_filter hevent)

end

/-! ### The document of a projection -/

theorem sum_diagnosticCounts (ds : List Diagnostic) : ((diagnosticCounts ds).map Prod.snd).sum = ds.length := by
  simp only [diagnosticCounts, List.map_cons, List.map_nil, List.sum_cons, List.sum_nil]
  induction ds with
  | nil => rfl
  | cons d ds ih =>
    simp only [List.countP_cons, List.length_cons]
    cases d.severity <;> simp <;> omega

theorem lookup_error (ds : List Diagnostic) :
    (diagnosticCounts ds).lookup "error" = some (ds.countP fun d => d.severity = .ERROR) := rfl

theorem EvidenceLane.value_eq_alarm {lane : EvidenceLane} : lane.value = "alarm" ↔ lane = .ALARM := by
  cases lane <;> decide

theorem DiagnosticCode.value_eq_truncated {c : DiagnosticCode} : c.value = "timeline_truncated" ↔ c = .TIMELINE_TRUNCATED := by
  cases c <;> decide

theorem consistent_correlationDocument {d : CorrelationDecision} (hkind : d.kind = kindOf d.candidateRecordIndices)
    (hascending : d.candidateRecordIndices.Pairwise (· < ·)) : (correlationDocument d).Consistent := by
  refine ⟨?_, hascending⟩
  simp only [correlationDocument, hkind]
  unfold kindOf
  split_ifs with hone hmany
  · exact .inl ⟨rfl, hone⟩
  · exact .inr (.inl ⟨rfl, hmany⟩)
  · exact .inr (.inr ⟨rfl, List.length_eq_zero_iff.mp (by omega)⟩)

section
variable {evidence : LoadedSessionEvidence} {s : NormalizedSession} {telemetry : NormalizedLane}
  {decoded : List (Nat × Int)} {alarm link : NormalizedLane}

theorem SessionOutcome.not_truncated (h : SessionOutcome evidence s telemetry decoded alarm link) :
    ∀ d ∈ s.diagnostics, d.code ≠ .TIMELINE_TRUNCATED := by
  intro d hd
  obtain ⟨lane, hlane⟩ := h.diagnoses hd
  exact hlane.not_truncated

/-- The correlation of an alarm entry is to records with its sequence. -/
theorem SessionOutcome.correlated (h : SessionOutcome evidence s telemetry decoded alarm link) (hstrict : evidence.Strict)
    {e : TimelineEntry} (he : e ∈ s.timeline) (hlane : e.lane = .ALARM) : ∃ d, e.correlation = some d ∧
      (correlationDocument d).Consistent ∧ ∀ i ∈ d.candidateRecordIndices, i < evidence.recordCount .TELEMETRY := by
  have hmem : e ∈ s.timeline.filter fun entry => entry.lane = .ALARM := List.mem_filter.mpr ⟨he, by simpa using hlane⟩
  rw [h.filter_alarm] at hmem
  obtain ⟨event, -, hof⟩ := forall_mem_right_of_forall₂ h.alarmLane.timeline e hmem
  obtain ⟨n, d, -, hdata, hkind, -, hcandidates⟩ := hof.data
  have hdecoded := h.telemetryLane.decoded
  have hascending : d.candidateRecordIndices.Pairwise (· < ·) := by
    rw [hcandidates, hdecoded]
    exact pairwise_indicesOf (pairwise_decodedPairs hstrict.pairwise_records) n
  refine ⟨d, by rw [hdata]; rfl, consistent_correlationDocument (by rw [hkind, hcandidates]) hascending, fun i hi => ?_⟩
  rw [hcandidates, hdecoded] at hi
  exact hstrict.candidate_lt hi

end

section
variable {evidence : LoadedSessionEvidence} {s : NormalizedSession} {f : TimelineFilters} {limit : Option Nat}
  {report : SessionReport} {telemetry : NormalizedLane} {decoded : List (Nat × Int)} {alarm link : NormalizedLane}

/-- A record of a lane is referred to by the document of a report. -/
theorem refers_of_lt (hs : normalizeLoadedSession evidence = .ok s) (hof : report.session = s) {lane : EvidenceLane}
    {i : Nat} (hi : i < evidence.recordCount lane) : (sessionReportDocument report).Refers lane.value i := by
  obtain ⟨summary, hsummary, hlane, hcount⟩ := exists_summary hs lane
  refine ⟨sourceDocument summary, List.mem_map_of_mem (hof ▸ hsummary), congrArg EvidenceLane.value hlane, ?_⟩
  exact hi.trans_eq hcount.symm

theorem Projects.sublist (h : Projects s f limit report) : report.timeline.Sublist s.timeline := by
  rw [h.timeline]
  cases limit with
  | none => exact List.filter_sublist
  | some n => exact (List.take_sublist n _).trans List.filter_sublist

/-- Only the notice of a truncated timeline is under its code. -/
theorem SessionReport.countP_truncated (report : SessionReport)
    (hcode : ∀ d ∈ report.session.diagnostics, d.code ≠ .TIMELINE_TRUNCATED) :
    report.diagnostics.countP (fun d => d.code = .TIMELINE_TRUNCATED) = report.truncated.toNat := by
  obtain ⟨notices, hperm, hnotices, hone⟩ := report.valid.notices
  have hsession : report.session.diagnostics.countP (fun d => d.code = .TIMELINE_TRUNCATED) = 0 :=
    List.countP_eq_zero.mpr fun d hd => by simpa using hcode d hd
  have hnotice : notices.countP (fun d => d.code = .TIMELINE_TRUNCATED) = notices.length :=
    List.countP_eq_length.mpr fun d hd => by simpa using (hnotices d hd).code
  rw [hperm.countP_eq, List.countP_append, hsession, hnotice, hone, Nat.zero_add]

/-- The errors of a report are those of its session. -/
theorem SessionReport.countP_error (report : SessionReport) : report.diagnostics.countP (fun d => d.severity = .ERROR) =
    report.session.diagnostics.countP fun d => d.severity = .ERROR := by
  obtain ⟨notices, hperm, hnotices, -⟩ := report.valid.notices
  have hnone : notices.countP (fun d => d.severity = .ERROR) = 0 :=
    List.countP_eq_zero.mpr fun d hd => by rw [(hnotices d hd).severity]; decide
  rw [hperm.countP_eq, List.countP_append, hnone, Nat.add_zero]

theorem Projects.located (h : Projects s f limit report) (hstrict : evidence.Strict)
    (ho : SessionOutcome evidence s telemetry decoded alarm link) {d : Diagnostic} (hd : d ∈ report.diagnostics) :
    d.toDiagnosticData.Located evidence := by
  obtain ⟨notices, hperm, hnotices, -⟩ := report.valid.notices
  rw [h.ofSession] at hperm
  rcases List.mem_append.mp (hperm.mem_iff.mp hd) with hd | hd
  · obtain ⟨lane, hlane⟩ := ho.diagnoses hd
    exact hlane.located hstrict
  · exact .of_none (hnotices d hd).sourceIndex (hnotices d hd).relatedSourceIndices

theorem consistent_of_projects (hstrict : evidence.Strict) (hs : normalizeLoadedSession evidence = .ok s)
    (h : Projects s f limit report) : (sessionReportDocument report).Consistent := by
  obtain ⟨telemetry, decoded, alarm, link, ho⟩ := (normalizeLoadedSession_ok hstrict).2 s hs
  have hof := h.ofSession
  have hvalid := report.valid
  have hentry {e : ReportTimelineDocument} (he : e ∈ (sessionReportDocument report).timeline) :
      ∃ entry ∈ s.timeline, timelineDocument entry = e := by
    obtain ⟨entry, hentry, rfl⟩ := List.mem_map.mp he
    exact ⟨entry, h.sublist.subset hentry, rfl⟩
  constructor
  case lanes =>
    have hlanes := congrArg (List.map EvidenceLane.value) report.session.lanes
    rw [List.map_map] at hlanes
    show (report.session.sources.map sourceDocument).map ReportSourceDocument.lane = _
    rw [List.map_map]
    exact hlanes
  case rendered => exact ⟨(List.length_map ..).symm, (List.length_map ..).symm⟩
  case matched =>
    have hlength : (sessionReportDocument report).timeline.length = report.timeline.length := List.length_map ..
    rw [hlength]
    exact ⟨hvalid.rendered, hvalid.matched, rfl⟩
  case truncated =>
    show report.truncated = true ↔ report.timeline.length < report.timelineMatched
    rw [hvalid.omitted, decide_eq_true_eq]
  case notices =>
    have hcode : ∀ d ∈ report.session.diagnostics, d.code ≠ .TIMELINE_TRUNCATED := hof ▸ ho.not_truncated
    show (report.diagnostics.map diagnosticDocument).countP (fun x => x.code = "timeline_truncated") = report.truncated.toNat
    rw [List.countP_map, ← report.countP_truncated hcode]
    refine List.countP_congr fun d _ => ?_
    simp [diagnosticDocument, DiagnosticCode.value_eq_truncated]
  case counted => exact ⟨sum_diagnosticCounts _, (List.length_map ..).symm⟩
  case entries =>
    intro e he
    obtain ⟨entry, hmem, rfl⟩ := hentry he
    exact refers_of_lt hs hof (ho.entry_lt hstrict hmem)
  case located =>
    intro x hx i hi
    obtain ⟨d, hd, rfl⟩ := List.mem_map.mp hx
    obtain ⟨lane, hlane, hlt⟩ := (h.located hstrict ho hd).sourceIndex i hi
    exact ⟨lane.value, Option.mem_map_of_mem _ hlane, refers_of_lt hs hof hlt⟩
  case related =>
    intro x hx i hi
    obtain ⟨d, hd, rfl⟩ := List.mem_map.mp hx
    obtain ⟨lane, hlane, hlt⟩ := (h.located hstrict ho hd).related i hi
    exact ⟨lane.value, Option.mem_map_of_mem _ hlane, refers_of_lt hs hof hlt⟩
  case correlated =>
    intro e he hlane
    obtain ⟨entry, hmem, rfl⟩ := hentry he
    obtain ⟨d, hd, hconsistent, hcandidates⟩ := ho.correlated hstrict hmem (EvidenceLane.value_eq_alarm.mp hlane)
    exact ⟨correlationDocument d, Option.mem_map_of_mem _ hd, hconsistent,
      fun i hi => refers_of_lt hs hof (hcandidates i hi)⟩
  case compatible =>
    show report.session.isCompatible = false ↔ ∃ errors ∈ (diagnosticCounts report.diagnostics).lookup "error", 0 < errors
    rw [lookup_error, report.countP_error, NormalizedSession.isCompatible, NormalizedSession.hasIncompatibilities,
      Bool.not_eq_false', List.any_eq_true]
    simp only [Option.mem_some_iff, exists_eq_left', List.countP_pos_iff]

end

/-- Every session that is inspected has a consistent report for every accepted selection. -/
theorem inspectSession_report_consistent {loads : String → Option Json} {selected : SelectedEvidence}
    {s : NormalizedSession} (hs : inspectSession loads selected = .ok s)
    {packetSequenceMin packetSequenceMax alarmCode alarmSeverity eventLimit : Json} {f : TimelineFilters}
    {limit : Option Nat} (haccepted : Accepted packetSequenceMin packetSequenceMax alarmCode alarmSeverity eventLimit f limit) :
    ∃ report, projectSessionReport s packetSequenceMin packetSequenceMax alarmCode alarmSeverity eventLimit = .ok report ∧
      Projects s f limit report ∧ (sessionReportDocument report).Consistent := by
  obtain ⟨evidence, hload, hnormal⟩ := except_bind_eq_ok.mp hs
  have hstrict := strict_of_loadSessionEvidence hload
  obtain ⟨telemetry, decoded, alarm, link, ho⟩ := (normalizeLoadedSession_ok hstrict).2 s hnormal
  obtain ⟨report, hreport⟩ := projectTimeline_ok ho.nodup_keys (ho.nodup_diagnostics hstrict) ho.not_truncated f limit
  have hprojects := projects_of_projectTimeline hreport
  exact ⟨report, (haccepted.projectSessionReport_eq s).trans hreport, hprojects,
    consistent_of_projects hstrict hnormal hprojects⟩

theorem inspectSession_report_consistent_skipping : ∃ s report,
    inspectSession Json.loads ⟨some ⟨⟨"", "t.jsonl"⟩, ⟨skipping.map fun d => (recordJson d.1 d.2).line, none⟩⟩, none, none⟩ =
      .ok s ∧
    projectSessionReport s .null .null .null .null (.int 1) = .ok report ∧ (sessionReportDocument report).Consistent := by
  obtain ⟨s, hs⟩ := exists_skippingSession
  have haccepted : Accepted .null .null .null .null (.int 1) ⟨none, none, none, none⟩ (some 1) :=
    ⟨rfl, rfl, rfl, rfl, rfl, rfl⟩
  obtain ⟨report, hreport, -, hconsistent⟩ := inspectSession_report_consistent hs haccepted
  exact ⟨s, report, hs, hreport, hconsistent⟩

end OrbitOps.Session
