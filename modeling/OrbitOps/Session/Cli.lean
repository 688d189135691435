import OrbitOps.Session.Document
import OrbitOps.Session.Evidence

/-!
# `orbitops session inspect`

One run of the command on parsed options: the exit code is read off the session, never off the
filtered report. It is 3 for an ambiguous transition (`Repeated`), 0 when all three lanes are
provided and finished (`Finished`), and 1 otherwise.
-/

namespace OrbitOps.Session
open Py

/-! ### Options -/

/-- Stable process exit codes. -/
inductive SessionExitCode where
  | COMPLETE
  | INCOMPLETE
  | USAGE
  | INCOMPATIBLE
  | MALFORMED
  | IO_ERROR
deriving DecidableEq, Repr

def SessionExitCode.value : SessionExitCode → Nat
  | COMPLETE => 0
  | INCOMPLETE => 1
  | USAGE => 2
  | INCOMPATIBLE => 3
  | MALFORMED => 4
  | IO_ERROR => 5

/-- A packet sequence that an option may name. -/
abbrev SequenceBound := { n : Nat // n ≤ MAX_PACKET_SEQUENCE }

/-- A number of entries that an option may name. -/
abbrev EventLimit := { n : Nat // 1 ≤ n ∧ n ≤ MAX_REPORT_EVENTS }

theorem toNat_le_maxPacketSequence {n : Int} (h : 0 ≤ n ∧ n ≤ MAX_PACKET_SEQUENCE) : n.toNat ≤ MAX_PACKET_SEQUENCE :=
  Int.toNat_le.mpr h.2

/-- `_packet_sequence_argument` on what `int(value, 10)` gives; the error is that of the option. -/
def packetSequenceArgument : Option Int → Except String SequenceBound
  | none => .error "must be a base-10 integer"
  | some parsed =>
    if h : 0 ≤ parsed ∧ parsed ≤ MAX_PACKET_SEQUENCE then .ok ⟨parsed.toNat, toNat_le_maxPacketSequence h⟩
    else .error "must fit an unsigned 32-bit integer"

/-- `_event_limit_argument` on what `int(value, 10)` gives. -/
def eventLimitArgument : Option Int → Except String EventLimit
  | none => .error "must be a base-10 integer"
  | some parsed =>
    if h : 1 ≤ parsed ∧ parsed ≤ MAX_REPORT_EVENTS then .ok ⟨parsed.toNat, by omega⟩
    else .error ("must be between 1 and " ++ toString MAX_REPORT_EVENTS)

abbrev AlarmCode := { s : String // s ≠ "" ∧ hasNul s = false }

def alarmCodeArgument (value : String) : Except String AlarmCode :=
  if hempty : strip value = "" then .error "must be non-empty"
  else if hnul : hasNul (strip value) = false then .ok ⟨strip value, hempty, hnul⟩
  else .error "must not contain NUL characters"

inductive ReportFormat where
  | text
  | json
deriving DecidableEq, Repr

/-- The parsed options of one run. -/
structure InspectArguments where
  selected : SelectedEvidence
  reportFormat : ReportFormat
  sequenceMin : Option SequenceBound
  sequenceMax : Option SequenceBound
  alarmCode : Option AlarmCode
  alarmSeverity : Option { s : String // s ∈ ALARM_SEVERITY_CHOICES }
  eventLimit : Option EventLimit
  output : Option EvidencePath

/-! ### The run -/

/-- What the command asks of its platform. -/
structure Platform where
  /-- `_paths_alias`. -/
  pathsAlias : EvidencePath → EvidencePath → Bool
  /-- `_write_report`, to a path or to the standard output. -/
  writeReport : String → Option EvidencePath → Result Unit

/-- What one run leaves: its exit code, its message and the report that was written. -/
structure SessionRun where
  exitCode : SessionExitCode
  failure : Option String
  report : Option String

/-- `parser.error(message)`, which exits with the usage code. -/
def usageError (message : String) : SessionRun := ⟨.USAGE, some message, none⟩

/-- `_write_failure` and the exit code after it. -/
def failed (exitCode : SessionExitCode) (exc : PyError) : SessionRun :=
  ⟨exitCode, some ("session inspect failed: " ++ exc.message ++ "\n"), none⟩

def exitCode (complete compatible : Bool) : SessionExitCode :=
  if !compatible then .INCOMPATIBLE else if !complete then .INCOMPLETE else .COMPLETE

/-- The options that name evidence, with the path that each names. -/
def evidenceOptions (selected : SelectedEvidence) : List (String × Option EvidenceSource) :=
  [("--telemetry", selected.telemetry), ("--link-events", selected.linkEvents), ("--alarm-events", selected.alarmEvents)]

/-- The first evidence option that names the output. -/
def aliasedOption (platform : Platform) (args : InspectArguments) : Option String :=
  args.output.bind fun output => (evidenceOptions args.selected).findSome? fun option =>
    option.2.bind fun source => if platform.pathsAlias source.path output then some option.1 else none

def natArgument {p : Nat → Prop} : Option (Subtype p) → Json := optionalJson fun n => .int n.1

def textArgument {p : String → Prop} : Option (Subtype p) → Json := optionalJson fun s => .str s.1

def renderReport : ReportFormat → SessionReport → String
  | .json => renderSessionReportJson
  | .text => renderSessionReportText

def projectReport (args : InspectArguments) (session : NormalizedSession) : Result SessionReport :=
  projectSessionReport session (natArgument args.sequenceMin) (natArgument args.sequenceMax)
    (textArgument args.alarmCode) (textArgument args.alarmSeverity) (natArgument args.eventLimit)

def runSessionCommand (loads : String → Option Json) (platform : Platform) (args : InspectArguments) :
    Result SessionRun :=
  if args.selected.telemetry.isNone && args.selected.linkEvents.isNone && args.selected.alarmEvents.isNone then
    .ok (usageError "at least one of --telemetry, --link-events, or --alarm-events is required")
  else if boundsCrossed (args.sequenceMin.map Subtype.val) (args.sequenceMax.map Subtype.val) then
    .ok (usageError "--sequence-min must not exceed --sequence-max")
  else
    match aliasedOption platform args with
    | some option => .ok (usageError ("--output must not refer to the same file as " ++ option))
    | none =>
      match inspectSession loads args.selected with
      | .error exc =>
        if exc.cls = .malformedEvidenceError then .ok (failed .MALFORMED exc)
        else if exc.cls = .osError then .ok (failed .IO_ERROR exc)
        else .error exc
      | .ok session => do
        let report ← projectReport args session
        let rendered := renderReport args.reportFormat report
        match platform.writeReport rendered args.output with
        | .error exc => if exc.cls = .osError then .ok (failed .IO_ERROR exc) else .error exc
        | .ok () => .ok ⟨exitCode session.isComplete session.isCompatible, none, some rendered⟩

/-- A run that writes a report exits with the code of the session that it inspected. -/
theorem runSessionCommand_written {loads : String → Option Json} {platform : Platform} {args : InspectArguments}
    {run : SessionRun} {rendered : String} (h : runSessionCommand loads platform args = .ok run)
    (hwritten : run.report = some rendered) : ∃ session report, inspectSession loads args.selected = .ok session ∧
      projectReport args session = .ok report ∧ rendered = renderReport args.reportFormat report ∧
      run.exitCode = exitCode session.isComplete session.isCompatible := by
  unfold runSessionCommand at h
  split_ifs at h
  · cases h
    cases hwritten
  · cases h
    cases hwritten
  · split at h
    · cases h
      cases hwritten
    · split at h
      · split_ifs at h
        · cases h
          cases hwritten
        · cases h
          cases hwritten
      · rename_i session hsession
        obtain ⟨report, hreport, h⟩ := except_bind_eq_ok.mp h
        dsimp only at h
        split at h
        · split_ifs at h
          cases h
          cases hwritten
        · cases h
          cases hwritten
          exact ⟨session, report, hsession, hreport, rfl, rfl⟩

/-! ### What the exit code says -/

/-- A transition has the sequence of two or more telemetry records. -/
def Repeated (evidence : LoadedSessionEvidence) : Prop :=
  ∃ event ∈ transitionsOf (recordsOf evidence.alarmEvents), ∃ n : Nat, event.packetSequence = some n ∧
    2 ≤ (recordsWith (recordsOf evidence.telemetry) n).length

/-- Telemetry with a record was provided, and alarm and link evidence that end with a summary. -/
structure Finished (evidence : LoadedSessionEvidence) : Prop where
  telemetry : ∃ t ∈ evidence.telemetry, t.records ≠ []
  alarm : ∃ a ∈ evidence.alarmEvents, ∃ last ∈ a.records.getLast?, last.eventType = .RUN_SUMMARY
  link : ∃ l ∈ evidence.linkEvents, ∃ last ∈ l.records.getLast?, last.eventType = .RUN_SUMMARY

section
variable {evidence : LoadedSessionEvidence} {s : NormalizedSession} {telemetry : NormalizedLane}
  {decoded : List (Nat × Int)} {alarm link : NormalizedLane}

/-- An alarm event is diagnosed as an error when its sequence is repeated. -/
theorem exists_error_correlationsOf {event : AlarmEvent} : (∃ d ∈ correlationsOf decoded event, d.severity = .ERROR) ↔
    ∃ n : Nat, event.packetSequence = some n ∧ 2 ≤ (indicesOf decoded n).length := by
  unfold correlationsOf
  cases hn : event.packetSequence with
  | none => simp
  | some n =>
    have hkind : 2 ≤ (indicesOf decoded n).length ↔ kindOf (indicesOf decoded n) = .AMBIGUOUS := by
      unfold kindOf
      split_ifs with hone hmany
      · exact ⟨fun h => by omega, fun h => by cases h⟩
      · exact ⟨fun _ => rfl, fun _ => hmany⟩
      · exact ⟨fun h => absurd h hmany, fun h => by cases h⟩
    simp only [Option.some.injEq, exists_eq_left', hkind]
    rcases kindOf_permitted (indicesOf decoded n) with h | h | h <;> simp [h, correlationData]

/-- An event with a packet sequence is a transition. -/
theorem isTransition_of_packetSequence {event : AlarmEvent} {n : Nat} (h : event.packetSequence = some n) :
    event.eventType.isTransition = true := by
  have hshape := event.shape
  rw [h] at hshape
  cases ht : event.eventType <;> rw [ht] at hshape <;> first | rfl | cases hshape.1

theorem SessionOutcome.hasIncompatibilities_iff (h : SessionOutcome evidence s telemetry decoded alarm link) :
    s.hasIncompatibilities = true ↔ Repeated evidence := by
  have hdecoded := h.telemetryLane.decoded
  have hevents : (∃ d ∈ s.diagnostics, d.severity = .ERROR) ↔
      ∃ event ∈ recordsOf evidence.alarmEvents, ∃ d ∈ correlationsOf decoded event, d.severity = .ERROR := by
    constructor
    · rintro ⟨d, hd, herror⟩
      obtain ⟨lane, hlane⟩ := h.diagnoses hd
      obtain ⟨event, hevent, hmem⟩ := hlane.correlation_of_error herror
      exact ⟨event, hevent, _, hdecoded ▸ hmem, herror⟩
    · rintro ⟨event, hevent, data, hdata, herror⟩
      have hmem : data ∈ laneData .ALARM (alarmData decoded) evidence.alarmEvents := by
        cases ha : evidence.alarmEvents with
        | none => rw [ha] at hevent; cases hevent
        | some a =>
          rw [ha] at hevent
          exact List.mem_append_left _ (List.mem_flatMap.mpr ⟨event, hevent, hdata⟩)
      obtain ⟨d, hd, rfl⟩ := h.exists_of_laneData (List.mem_append_left _ (List.mem_append_right _ hmem))
      exact ⟨d, hd, herror⟩
  rw [NormalizedSession.hasIncompatibilities, List.any_eq_true]
  simp only [decide_eq_true_eq]
  rw [hevents, Repeated]
  simp only [exists_error_correlationsOf, hdecoded, indicesOf_decodedPairs]
  constructor
  · rintro ⟨event, hevent, n, hn, htwo⟩
    exact ⟨event, List.mem_filter.mpr ⟨hevent, isTransition_of_packetSequence hn⟩, n, hn, htwo⟩
  · rintro ⟨event, hevent, hrest⟩
    exact ⟨event, mem_of_mem_transitionsOf hevent, hrest⟩

theorem SessionOutcome.isComplete_iff (h : SessionOutcome evidence s telemetry decoded alarm link) :
    s.isComplete = true ↔ Finished evidence := by
  have htelemetry : telemetry.summary.source.completeness ≠ .INCOMPLETE ↔ ∃ t ∈ evidence.telemetry, t.records ≠ [] := by
    rw [h.telemetryLane.completeness]
    cases evidence.telemetry with
    | none => simp [recordsOf]
    | some t => cases hrecords : t.records <;> simp [recordsOf, hrecords]
  have hmarked (b : Bool) : markedCompleteness b ≠ .INCOMPLETE ↔ b = true := by
    cases b <;> simp [markedCompleteness]
  have halarm : alarm.summary.source.completeness ≠ .INCOMPLETE ↔
      ∃ a ∈ evidence.alarmEvents, ∃ last ∈ a.records.getLast?, last.eventType = .RUN_SUMMARY := by
    rw [h.alarmLane.completeness, hmarked]
    cases evidence.alarmEvents with
    | none => simp [recordsOf, alarmSummaryPresent]
    | some a => simp [recordsOf, alarmSummaryPresent, Option.any_eq_true]
  have hlink : link.summary.source.completeness ≠ .INCOMPLETE ↔
      ∃ l ∈ evidence.linkEvents, ∃ last ∈ l.records.getLast?, last.eventType = .RUN_SUMMARY := by
    rw [h.linkLane.completeness, hmarked]
    cases evidence.linkEvents with
    | none => simp [recordsOf, linkSummaryPresent]
    | some l => simp [recordsOf, linkSummaryPresent, Option.any_eq_true]
  rw [NormalizedSession.isComplete, NormalizedSession.hasIncompleteSources, h.sources]
  simp only [List.any_cons, List.any_nil, Bool.or_false, Bool.not_eq_true', Bool.or_eq_false_iff, decide_eq_false_iff_not]
  constructor
  · rintro ⟨ht, ha, hl⟩
    exact ⟨htelemetry.mp ht, halarm.mp ha, hlink.mp hl⟩
  · intro hf
    exact ⟨htelemetry.mpr hf.telemetry, halarm.mpr hf.alarm, hlink.mpr hf.link⟩

end

theorem exitCode_value (complete compatible : Bool) :
    ((exitCode complete compatible).value = 3 ↔ compatible = false) ∧
      ((exitCode complete compatible).value = 0 ↔ compatible = true ∧ complete = true) ∧
      ((exitCode complete compatible).value = 1 ↔ compatible = true ∧ complete = false) := by
  cases complete <;> cases compatible <;> decide

/-- A run that writes its report exits with what the evidence proves, and no filter, limit or format changes the code,
the sources or the flags. -/
theorem runSessionCommand_exitCode {loads : String → Option Json} {platform : Platform} {args : InspectArguments}
    {run : SessionRun} {rendered : String} (h : runSessionCommand loads platform args = .ok run)
    (hwritten : run.report = some rendered) : ∃ evidence session report,
      loadSessionEvidence loads args.selected = .ok evidence ∧ inspectSession loads args.selected = .ok session ∧
      rendered = renderReport args.reportFormat report ∧ report.session = session ∧
      (run.exitCode.value = 3 ↔ Repeated evidence) ∧
      (run.exitCode.value = 0 ↔ ¬Repeated evidence ∧ Finished evidence) ∧
      (run.exitCode.value = 1 ↔ ¬Repeated evidence ∧ ¬Finished evidence) ∧
      ∀ (platform' : Platform) (args' : InspectArguments) (run' : SessionRun) (rendered' : String),
        args'.selected = args.selected → runSessionCommand loads platform' args' = .ok run' →
        run'.report = some rendered' → run'.exitCode = run.exitCode ∧ ∃ report' : SessionReport,
          rendered' = renderReport args'.reportFormat report' ∧ report'.session = session ∧
          (sessionReportDocument report').sources = (sessionReportDocument report).sources ∧
          (sessionReportDocument report').summary.complete = (sessionReportDocument report).summary.complete ∧
          (sessionReportDocument report').summary.compatible = (sessionReportDocument report).summary.compatible := by
  obtain ⟨session, report, hsession, hreport, hrendered, hcode⟩ := runSessionCommand_written h hwritten
  obtain ⟨evidence, hload, _, _, _, _, ho⟩ := outcome_of_inspectSession hsession
  have hof {args : InspectArguments} {report : SessionReport} (h : projectReport args session = .ok report) :
      report.session = session := by
    obtain ⟨f, limit, hprojects⟩ := projects_of_projectSessionReport h
    exact hprojects.ofSession
  obtain ⟨hthree, hzero, hone⟩ := exitCode_value session.isComplete session.isCompatible
  have hcompatible : session.isCompatible = false ↔ Repeated evidence := by
    rw [NormalizedSession.isCompatible, Bool.not_eq_false', ho.hasIncompatibilities_iff]
  have hcompatible' : session.isCompatible = true ↔ ¬Repeated evidence := by
    rw [← hcompatible, Bool.not_eq_false]
  have hcomplete : session.isComplete = false ↔ ¬Finished evidence := by
    rw [← ho.isComplete_iff, Bool.not_eq_true]
  rw [hcompatible] at hthree
  rw [hcompatible', ho.isComplete_iff] at hzero
  rw [hcompatible', hcomplete] at hone
  refine ⟨evidence, session, report, hload, hsession, hrendered, hof hreport, ?_, ?_, ?_, ?_⟩
  · rw [hcode, hthree]
  · rw [hcode, hzero]
  · rw [hcode, hone]
  · intro platform' args' run' rendered' hselected h' hwritten'
    obtain ⟨session', report', hsession', hreport', hrendered', hcode'⟩ := runSessionCommand_written h' hwritten'
    rw [hselected, hsession] at hsession'
    obtain rfl := Except.ok.inj hsession'
    exact ⟨hcode'.trans hcode.symm, report', hrendered', hof hreport',
      sessionReportDocument_congr ((hof hreport').trans (hof hreport).symm)⟩

/-- A recording of these datagrams, the log of an alarm of the packet 7, and a link log. -/
def completeSelected (raws : List Bytes) : SelectedEvidence where
  telemetry := some ⟨⟨"", "t.jsonl"⟩, ⟨(raws.map fun raw => (zeroTimestamp, raw)).map fun d => (recordJson d.1 d.2).line, none⟩⟩
  linkEvents := some ⟨⟨"", "l.jsonl"⟩, ⟨linkLog.map fun e => e.toDict.line, none⟩⟩
  alarmEvents := some ⟨⟨"", "a.jsonl"⟩, ⟨summarizedEvents.map fun e => e.toDict.line, none⟩⟩

/-- What is loaded of them. -/
def completeEvidence (raws : List Bytes) : LoadedSessionEvidence where
  telemetry := some ⟨⟨"", "t.jsonl"⟩, indexRows (writtenRows 0 (raws.map fun raw => (zeroTimestamp, raw)))⟩
  alarmEvents := some ⟨⟨"", "a.jsonl"⟩, summarizedEvents⟩
  linkEvents := some ⟨⟨"", "l.jsonl"⟩, linkLog⟩

theorem loadSessionEvidence_complete (raws : List Bytes) :
    loadSessionEvidence Json.loads (completeSelected raws) = .ok (completeEvidence raws) := by
  have hreads (d : Timestamp × Bytes) (_ : d ∈ raws.map fun raw => (zeroTimestamp, raw)) :
      ReadsBack Json.loads (recordJson d.1 d.2) := readsBack_recordJson _ _
  have htelemetry := loadTelemetryRecords_written hreads
  exact loadSessionEvidence_eq_ok.mpr ⟨(fun h => by cases h.1),
    loadSelected_eq_ok.mpr (.inr ⟨_, _, rfl, htelemetry, rfl⟩),
    loadSelected_eq_ok.mpr (.inr ⟨_, _, rfl, loadAlarmEvents_summarized, rfl⟩),
    loadSelected_eq_ok.mpr (.inr ⟨_, _, rfl, loadLinkEvents_linkLog, rfl⟩), requireLinkSummary_linkLog _⟩

/-- The options of a run on these files. -/
def completeArguments (raws : List Bytes) : InspectArguments where
  selected := completeSelected raws
  reportFormat := .json
  sequenceMin := some ⟨1, by decide⟩
  sequenceMax := none
  alarmCode := none
  alarmSeverity := none
  eventLimit := some ⟨5, by decide⟩
  output := none

/-- A platform on which every report is written. -/
def writingPlatform : Platform := ⟨fun _ _ => false, fun _ _ => .ok ()⟩

/-- The run writes its report when the session is built and projected. -/
theorem exists_run (raws : List Bytes) (h : (normalizeLoadedSession (completeEvidence raws) >>= fun session =>
    projectReport (completeArguments raws) session).isOk = true) : ∃ run rendered,
      runSessionCommand Json.loads writingPlatform (completeArguments raws) = .ok run ∧ run.report = some rendered := by
  obtain ⟨report, h⟩ := exists_of_isOk h
  obtain ⟨session, hsession, hreport⟩ := except_bind_eq_ok.mp h
  have hinspect : inspectSession Json.loads (completeArguments raws).selected = .ok session :=
    except_bind_eq_ok.mpr ⟨_, loadSessionEvidence_complete raws, hsession⟩
  refine ⟨⟨exitCode session.isComplete session.isCompatible, none, some (renderReport .json report)⟩, _, ?_, rfl⟩
  have hprovided : ¬((completeArguments raws).selected.telemetry.isNone && (completeArguments raws).selected.linkEvents.isNone &&
      (completeArguments raws).selected.alarmEvents.isNone) = true := Bool.false_ne_true
  have hbounds : ¬boundsCrossed ((completeArguments raws).sequenceMin.map Subtype.val)
      ((completeArguments raws).sequenceMax.map Subtype.val) = true := Bool.false_ne_true
  have hoption : aliasedOption writingPlatform (completeArguments raws) = none := rfl
  unfold runSessionCommand
  rw [if_neg hprovided, if_neg hbounds, hoption]
  simp only [hinspect]
  exact except_bind_eq_ok.mpr ⟨report, hreport, rfl⟩

theorem finished_complete {raws : List Bytes} (h : raws ≠ []) : Finished (completeEvidence raws) := by
  have hsummary : linkLog.getLast?.any (fun e => e.eventType = .RUN_SUMMARY) = true := by decide +kernel
  obtain ⟨last, hlast, htype⟩ := (Option.any_eq_true _ _).mp hsummary
  refine ⟨⟨_, rfl, fun hnil => ?_⟩, ⟨_, rfl, summaryEvent, rfl, rfl⟩, ⟨_, rfl, last, hlast, of_decide_eq_true htype⟩⟩
  have hlength := congrArg List.length hnil
  rw [length_indexRows] at hlength
  cases raws with
  | nil => exact h rfl
  | cons raw raws => cases hlength

theorem repeated_complete_iff {raws : List Bytes} :
    Repeated (completeEvidence raws) ↔ 2 ≤ (recordsWith (recordsOf (completeEvidence raws).telemetry) (7 : Nat)).length := by
  have htransitions : transitionsOf summarizedEvents = [raisedEvent] := by decide
  have hevents : recordsOf (completeEvidence raws).alarmEvents = summarizedEvents := rfl
  rw [Repeated, hevents, htransitions]
  constructor
  · rintro ⟨event, hevent, n, hn, htwo⟩
    obtain rfl := List.mem_singleton.mp hevent
    obtain rfl : n = 7 := (Option.some.inj hn).symm
    exact htwo
  · exact fun htwo => ⟨raisedEvent, List.mem_singleton_self _, 7, rfl, htwo⟩

/-- Of complete evidence the exit code is 0 when the packet of the alarm was recorded once, and 3 when it was recorded
twice. -/
theorem runSessionCommand_exitCode_complete : ∃ run rendered run' rendered',
    runSessionCommand Json.loads writingPlatform (completeArguments (skipping.map Prod.snd)) = .ok run ∧
      run.report = some rendered ∧ run.exitCode.value = 0 ∧
      runSessionCommand Json.loads writingPlatform (completeArguments [encoding nominalPacket, encoding nominalPacket]) =
        .ok run' ∧
      run'.report = some rendered' ∧ run'.exitCode.value = 3 := by
  obtain ⟨run, rendered, hrun, hwritten⟩ := exists_run (skipping.map Prod.snd) (by decide +kernel)
  obtain ⟨run', rendered', hrun', hwritten'⟩ :=
    exists_run [encoding nominalPacket, encoding nominalPacket] (by decide +kernel)
  obtain ⟨evidence, _, _, hload, -, -, -, -, hzero, -⟩ := runSessionCommand_exitCode hrun hwritten
  obtain ⟨evidence', _, _, hload', -, -, -, hthree, -⟩ := runSessionCommand_exitCode hrun' hwritten'
  obtain rfl := Except.ok.inj ((loadSessionEvidence_complete _).symm.trans hload)
  obtain rfl := Except.ok.inj ((loadSessionEvidence_complete _).symm.trans hload')
  refine ⟨run, rendered, run', rendered', hrun, hwritten, hzero.mpr ⟨?_, finished_complete (by decide)⟩, hrun', hwritten',
    hthree.mpr ?_⟩
  · rw [repeated_complete_iff]
    decide +kernel
  · rw [repeated_complete_iff]
    decide +kernel

end OrbitOps.Session
