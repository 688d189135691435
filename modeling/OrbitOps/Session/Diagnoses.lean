import OrbitOps.Session.Outcome

/-!
# The diagnostics of a session

Every diagnostic of a session is of one of seven kinds (`Diagnoses`): a source that is missing, empty or
without its summary; a rejected record, a repeated sequence or a gap of the telemetry; a transition that
has not exactly one record; a corrupted packet. What is said of all diagnostics is proved by these cases.
-/

namespace OrbitOps.Session
open Py

/-- A diagnostic of a source as a whole. -/
structure AboutSource (source : EvidenceLane) (d : DiagnosticData) : Prop where
  code : d.code = .SOURCE_EMPTY ∨ d.code = .SOURCE_SUMMARY_MISSING
  severity : d.severity = .WARNING
  lane : d.lane = some source
  sourceIndex : d.sourceIndex = none
  related : d.relatedSourceIndices = []

/-- A diagnostic of an alarm event, with the candidates for its sequence. -/
structure AboutAlarm (decoded : List (Nat × Int)) (event : AlarmEvent) (d : DiagnosticData) : Prop where
  code : d.code = .ALARM_CORRELATION_AMBIGUOUS ∨ d.code = .ALARM_CORRELATION_IMPOSSIBLE
  lane : d.lane = some .ALARM
  sourceIndex : d.sourceIndex = some event.eventIndex
  related : ∀ i ∈ d.relatedSourceIndices, d.relatedLane = some .TELEMETRY ∧ ∃ n, i ∈ indicesOf decoded n

/-- The diagnostic of a corrupted packet. -/
structure AboutCorruption (event : Link.LinkEvent) (d : DiagnosticData) : Prop where
  code : d.code = .LINK_CORRUPTION_OBSERVED
  severity : d.severity = .WARNING
  lane : d.lane = some .LINK
  sourceIndex : d.sourceIndex = some event.eventIndex
  related : d.relatedSourceIndices = []

/-- A diagnostic that inspection makes of the evidence of a lane. -/
inductive Diagnoses (evidence : LoadedSessionEvidence) : EvidenceLane → DiagnosticData → Prop
  | missing (lane : EvidenceLane) : Diagnoses evidence lane (missingData lane)
  | source (lane : EvidenceLane) (d : DiagnosticData) (h : AboutSource lane d) : Diagnoses evidence lane d
  | rejected (record : RecordedTelemetryRecord) (h : record ∈ recordsOf evidence.telemetry) (reason : String) :
      Diagnoses evidence .TELEMETRY (rejectedData record reason)
  | duplicate (group : Int × List Nat) (h : group ∈ repeatedGroups (decodedPairs (recordsOf evidence.telemetry))) :
      Diagnoses evidence .TELEMETRY (duplicateData group)
  | gap (pair : (Nat × Int) × (Nat × Int)) (h : pair ∈ gapPairs (decodedPairs (recordsOf evidence.telemetry))) :
      Diagnoses evidence .TELEMETRY (gapData pair)
  | correlation (event : AlarmEvent) (h : event ∈ recordsOf evidence.alarmEvents) (d : DiagnosticData)
      (hd : d ∈ correlationsOf (decodedPairs (recordsOf evidence.telemetry)) event) : Diagnoses evidence .ALARM d
  | corruption (event : Link.LinkEvent) (h : event ∈ recordsOf evidence.linkEvents) (d : DiagnosticData)
      (hd : AboutCorruption event d) : Diagnoses evidence .LINK d

theorem aboutSource_of_mem {lane : EvidenceLane} {stream : String} {empty summaryMissing : Bool} {d : DiagnosticData}
    (h : d ∈ sourceDiagnostic lane stream empty summaryMissing) : AboutSource lane d := by
  unfold sourceDiagnostic at h
  split_ifs at h
  · rw [List.mem_singleton.mp h]
    exact ⟨.inl rfl, rfl, rfl, rfl, rfl⟩
  · rw [List.mem_singleton.mp h]
    exact ⟨.inr rfl, rfl, rfl, rfl, rfl⟩
  · cases h

theorem aboutAlarm_of_mem {decoded : List (Nat × Int)} {event : AlarmEvent} {d : DiagnosticData}
    (h : d ∈ correlationsOf decoded event) : AboutAlarm decoded event d := by
  unfold correlationsOf correlationData at h
  split at h
  · cases h
  · split at h
    · rw [List.mem_singleton.mp h]
      exact ⟨.inl rfl, rfl, rfl, fun i hi => ⟨rfl, _, hi⟩⟩
    · rw [List.mem_singleton.mp h]
      exact ⟨.inr rfl, rfl, rfl, fun i hi => by cases hi⟩
    · cases h

theorem aboutCorruption_of_mem {event : Link.LinkEvent} {d : DiagnosticData} (h : d ∈ corruptionData event) :
    AboutCorruption event d := by
  unfold corruptionData at h
  split_ifs at h
  · rw [List.mem_singleton.mp h]
    exact ⟨rfl, rfl, rfl, rfl, rfl⟩
  · cases h

section
variable {evidence : LoadedSessionEvidence} {lane : EvidenceLane} {d : DiagnosticData}

theorem diagnoses_telemetry (h : d ∈ laneData .TELEMETRY telemetryData evidence.telemetry) :
    Diagnoses evidence .TELEMETRY d := by
  cases ht : evidence.telemetry with
  | none =>
    rw [ht] at h
    rw [List.mem_singleton.mp h]
    exact .missing _
  | some source =>
    have hrecords : recordsOf evidence.telemetry = source.records := by rw [ht]; rfl
    rw [ht] at h
    rcases List.mem_append.mp h with h | h
    · rcases List.mem_append.mp h with h | h
      · obtain ⟨record, hmem, h⟩ := List.mem_filterMap.mp h
        cases hd : decodePacket record.packet with
        | ok p => rw [hd] at h; cases h
        | error e =>
          rw [hd] at h
          cases h
          exact .rejected record (hrecords ▸ hmem) _
      · rcases List.mem_append.mp h with h | h
        · obtain ⟨group, hgroup, rfl⟩ := List.mem_map.mp h
          exact .duplicate group (hrecords ▸ hgroup)
        · obtain ⟨pair, hpair, rfl⟩ := List.mem_map.mp h
          exact .gap pair (hrecords ▸ hpair)
    · exact .source _ d (aboutSource_of_mem h)

theorem diagnoses_alarm (h : d ∈ laneData .ALARM (alarmData (decodedPairs (recordsOf evidence.telemetry)))
    evidence.alarmEvents) : Diagnoses evidence .ALARM d := by
  cases ha : evidence.alarmEvents with
  | none =>
    rw [ha] at h
    rw [List.mem_singleton.mp h]
    exact .missing _
  | some source =>
    have hrecords : recordsOf evidence.alarmEvents = source.records := by rw [ha]; rfl
    rw [ha] at h
    rcases List.mem_append.mp h with h | h
    · obtain ⟨event, hevent, h⟩ := List.mem_flatMap.mp h
      exact .correlation event (hrecords ▸ hevent) d h
    · exact .source _ d (aboutSource_of_mem h)

theorem diagnoses_link (h : d ∈ laneData .LINK linkData evidence.linkEvents) :
    Diagnoses evidence .LINK d := by
  cases hl : evidence.linkEvents with
  | none =>
    rw [hl] at h
    rw [List.mem_singleton.mp h]
    exact .missing _
  | some source =>
    have hrecords : recordsOf evidence.linkEvents = source.records := by rw [hl]; rfl
    rw [hl] at h
    rcases List.mem_append.mp h with h | h
    · obtain ⟨event, hevent, h⟩ := List.mem_flatMap.mp h
      exact .corruption event (hrecords ▸ hevent) d (aboutCorruption_of_mem h)
    · exact .source _ d (aboutSource_of_mem h)

theorem Diagnoses.lane_eq (h : Diagnoses evidence lane d) : d.lane = some lane := by
  cases h with
  | missing => rfl
  | source _ _ h => exact h.lane
  | rejected => rfl
  | duplicate => rfl
  | gap => rfl
  | correlation event h d hd => exact (aboutAlarm_of_mem hd).lane
  | corruption event h d hd => exact hd.lane

/-- Only a correlation is diagnosed as an error. -/
theorem Diagnoses.correlation_of_error (h : Diagnoses evidence lane d) (herror : d.severity = .ERROR) :
    ∃ event ∈ recordsOf evidence.alarmEvents, d ∈ correlationsOf (decodedPairs (recordsOf evidence.telemetry)) event := by
  cases h with
  | missing => cases herror
  | source _ _ h => rw [h.severity] at herror; cases herror
  | rejected => cases herror
  | duplicate => cases herror
  | gap => cases herror
  | correlation event h d hd => exact ⟨event, h, hd⟩
  | corruption event h d hd => rw [hd.severity] at herror; cases herror

theorem Diagnoses.gap_of_code (h : Diagnoses evidence lane d) (hcode : d.code = .TELEMETRY_SEQUENCE_GAP) :
    ∃ pair ∈ gapPairs (decodedPairs (recordsOf evidence.telemetry)), d = gapData pair := by
  cases h with
  | missing => cases hcode
  | source _ _ h => rcases h.code with h | h <;> rw [h] at hcode <;> cases hcode
  | rejected => cases hcode
  | duplicate => cases hcode
  | gap pair h => exact ⟨pair, h, rfl⟩
  | correlation event h d hd => rcases (aboutAlarm_of_mem hd).code with h | h <;> rw [h] at hcode <;> cases hcode
  | corruption event h d hd => rw [hd.code] at hcode; cases hcode

/-- No diagnostic of a session is the notice of a truncated timeline. -/
theorem Diagnoses.not_truncated (h : Diagnoses evidence lane d) : d.code ≠ .TIMELINE_TRUNCATED := by
  intro hcode
  cases h with
  | missing => cases hcode
  | source _ _ h => rcases h.code with h | h <;> rw [h] at hcode <;> cases hcode
  | rejected => cases hcode
  | duplicate => cases hcode
  | gap => cases hcode
  | correlation event h d hd => rcases (aboutAlarm_of_mem hd).code with h | h <;> rw [h] at hcode <;> cases hcode
  | corruption event h d hd => rw [hd.code] at hcode; cases hcode

end

section
variable {evidence : LoadedSessionEvidence} {s : NormalizedSession} {telemetry : NormalizedLane}
  {decoded : List (Nat × Int)} {alarm link : NormalizedLane}

/-- A session has no other diagnostics. -/
theorem SessionOutcome.diagnoses (h : SessionOutcome evidence s telemetry decoded alarm link) {d : Diagnostic}
    (hd : d ∈ s.diagnostics) : ∃ lane, Diagnoses evidence lane d.toDiagnosticData := by
  have hdecoded := h.telemetryLane.decoded
  rcases List.mem_append.mp (h.diagnostics.mem_iff.mp hd) with hd | hd
  · rcases List.mem_append.mp hd with hd | hd
    · refine ⟨.TELEMETRY, diagnoses_telemetry ?_⟩
      rw [← h.telemetryLane.diagnostics]
      exact List.mem_map_of_mem hd
    · refine ⟨.ALARM, diagnoses_alarm ?_⟩
      rw [← hdecoded, ← h.alarmLane.diagnostics]
      exact List.mem_map_of_mem hd
  · refine ⟨.LINK, diagnoses_link ?_⟩
    rw [← h.linkLane.diagnostics]
    exact List.mem_map_of_mem hd

/-- What is listed for a lane is a diagnostic of the session. -/
theorem SessionOutcome.exists_of_laneData (h : SessionOutcome evidence s telemetry decoded alarm link)
    {d : DiagnosticData} (hd : d ∈ laneData .TELEMETRY telemetryData evidence.telemetry ++
      laneData .ALARM (alarmData decoded) evidence.alarmEvents ++ laneData .LINK linkData evidence.linkEvents) :
    ∃ d' ∈ s.diagnostics, d'.toDiagnosticData = d := by
  rw [← h.telemetryLane.diagnostics, ← h.alarmLane.diagnostics, ← h.linkLane.diagnostics, ← List.map_append,
    ← List.map_append] at hd
  obtain ⟨d', hd', rfl⟩ := List.mem_map.mp hd
  exact ⟨d', h.diagnostics.mem_iff.mpr hd', rfl⟩

end

end OrbitOps.Session
