import OrbitOps.Py.Adjacent
import OrbitOps.Session.Inspection

/-!
# What normalization gives

For records and events that the strict loaders return, the loops never raise: every record, every
alarm transition and every packet event of the link has its timeline entry (`OfRecord`, `OfAlarm`,
`OfLink`), in order, and the diagnostics are those listed by `telemetryData`, `alarmData` and
`linkData`. Only the source descriptors can refuse: a name that is blank or has a NUL, or a link
session identity with a NUL.
-/

namespace OrbitOps.Session
open Py

/-! ### Telemetry -/

/-- The timeline entry of a record. -/
structure OfRecord (record : RecordedTelemetryRecord) (entry : TimelineEntry) : Prop where
  decoded : ∀ p, decodePacket record.packet = .ok p → entry.toTimelineData = decodedEntry record p ∧
    validateAttributes (scalarObj (telemetryAttributes p)) = .ok entry.attributes
  rejected : ∀ e, decodePacket record.packet = .error e → entry.toTimelineData = rejectedEntry record ∧
    validateAttributes (scalarObj [("reason", .str e.message)]) = .ok entry.attributes

/-- The source index and sequence of each decoded record. -/
def decodedPairs (records : List RecordedTelemetryRecord) : List (Nat × Int) :=
  records.filterMap fun r => (decodePacket r.packet).toOption.map fun p => (r.recordIndex, p.sequence)

def rejections (records : List RecordedTelemetryRecord) : List DiagnosticData :=
  records.filterMap fun r =>
    match decodePacket r.packet with
    | .ok _ => none
    | .error e => some (rejectedData r e.message)

def telemetryData (records : List RecordedTelemetryRecord) : List DiagnosticData :=
  rejections records ++ ((repeatedGroups (decodedPairs records)).map duplicateData ++
    (gapPairs (decodedPairs records)).map gapData) ++ sourceDiagnostic .TELEMETRY "telemetry recording" records.isEmpty false

theorem validItem_telemetryAttributes (p : DecodedPacket) : ∀ kv ∈ telemetryAttributes p, ValidItem kv := by
  simp [telemetryAttributes, ValidItem, Scalar.isFinite]

theorem validItem_reason (message : String) : ∀ kv ∈ [("reason", Scalar.str message)], ValidItem kv := by
  simp [ValidItem, Scalar.isFinite]

theorem valid_decodedEntry (record : RecordedTelemetryRecord) {p : DecodedPacket} (hp : p.numbered.InRange) :
    (decodedEntry record p).Valid := by
  have hsequence := hp.sequence
  have htimestamp := hp.timestampMs
  simp only [TelemetryPacket.numbered] at hsequence htimestamp
  refine ⟨(by decide : IsVisible "packet_decoded"), ?_, ?_, ?_, ?_, ?_, rfl⟩ <;> simp only [decodedEntry, Option.mem_def, reduceCtorEq, false_imp_iff,
    implies_true, Option.some.injEq, forall_eq']
  · exact record.receivedAt.2
  · omega
  · omega

theorem valid_rejectedEntry (record : RecordedTelemetryRecord) : (rejectedEntry record).Valid := by
  refine ⟨(by decide : IsVisible "packet_rejected"), ?_, ?_, ?_, ?_, ?_, rfl⟩ <;> simp only [rejectedEntry, Option.mem_def, reduceCtorEq, false_imp_iff,
    implies_true, Option.some.injEq, forall_eq']
  exact record.receivedAt.2

theorem valid_rejectedData (record : RecordedTelemetryRecord) {reason : String} (h : Printable reason) :
    (rejectedData record reason).Valid := by
  refine ⟨?_, (nomatch ·), .nil, by simp [rejectedData]⟩
  have hindex := (printable_toString_nat record.recordIndex).hasNul
  exact (((by decide : IsVisible "telemetry record ").append hindex).append (by decide)).append h.hasNul

/-- One record adds its entry and its diagnostic or its decoded pair. -/
theorem normalizeRecord_ok (st : TelemetryLoop) (record : RecordedTelemetryRecord) : ∃ entry diagnostics,
    normalizeRecord st record = .ok ⟨st.timeline ++ [entry], st.diagnostics ++ diagnostics,
      st.decodedPairs ++ decodedPairs [record], st.rejectedCount + (rejections [record]).length⟩ ∧
    OfRecord record entry ∧ diagnostics.map Diagnostic.toDiagnosticData = rejections [record] := by
  cases h : decodePacket record.packet with
  | ok p =>
    have hvalid := valid_decodedEntry record (decodePacket_inRange h)
    have hattributes := validateAttributes_scalarObj (validItem_telemetryAttributes p)
    have hpairs : decodedPairs [record] = [(record.recordIndex, p.sequence)] := by
      simp [decodedPairs, h, Except.toOption]
    have hrejections : rejections [record] = [] := by simp [rejections, h]
    refine ⟨⟨decodedEntry record p, .ofItems _ (validItem_telemetryAttributes p), hvalid⟩, [], ?_,
      ⟨fun q hq => ?_, fun e he => ?_⟩, by rw [hrejections]; rfl⟩
    · rw [normalizeRecord, h]
      dsimp only
      rw [TimelineEntry.new_ok hvalid hattributes, hpairs, hrejections, List.append_nil]
      rfl
    · obtain rfl := Except.ok.inj (h.symm.trans hq)
      exact ⟨rfl, hattributes⟩
    · rw [h] at he
      cases he
  | error e =>
    have hvalid := valid_rejectedEntry record
    have hattributes := validateAttributes_scalarObj (validItem_reason e.message)
    have hdiagnostic := valid_rejectedData record (printable_decodePacket_error h)
    have hpairs : decodedPairs [record] = [] := by simp [decodedPairs, h, Except.toOption]
    have hrejections : rejections [record] = [rejectedData record e.message] := by simp [rejections, h]
    refine ⟨⟨rejectedEntry record, .ofItems _ (validItem_reason e.message), hvalid⟩, [⟨_, hdiagnostic⟩], ?_,
      ⟨fun q hq => ?_, fun e' he => ?_⟩, by rw [hrejections]; rfl⟩
    · rw [normalizeRecord, h]
      dsimp only
      rw [if_pos (decodePacket_error h), TimelineEntry.new_ok hvalid hattributes, Diagnostic.new_ok hdiagnostic, hpairs,
        hrejections, List.append_nil]
      rfl
    · rw [h] at hq
      cases hq
    · obtain rfl := Except.error.inj (h.symm.trans he)
      exact ⟨rfl, hattributes⟩

theorem foldlM_normalizeRecord (st : TelemetryLoop) (records : List RecordedTelemetryRecord) :
    ∃ timeline diagnostics, records.foldlM normalizeRecord st = .ok ⟨st.timeline ++ timeline,
        st.diagnostics ++ diagnostics, st.decodedPairs ++ decodedPairs records,
        st.rejectedCount + (rejections records).length⟩ ∧
      List.Forall₂ OfRecord records timeline ∧ diagnostics.map Diagnostic.toDiagnosticData = rejections records := by
  induction records generalizing st with
  | nil => exact ⟨[], [], by simp [decodedPairs, rejections, pure, Except.pure], .nil, rfl⟩
  | cons record records ih =>
    obtain ⟨entry, ds, hstep, hentry, hds⟩ := normalizeRecord_ok st record
    obtain ⟨timeline, ds', hrun, htimeline, hds'⟩ := ih ⟨st.timeline ++ [entry], st.diagnostics ++ ds,
      st.decodedPairs ++ decodedPairs [record], st.rejectedCount + (rejections [record]).length⟩
    have hpairs : decodedPairs (record :: records) = decodedPairs [record] ++ decodedPairs records :=
      List.filterMap_append (l := [record])
    have hrejections : rejections (record :: records) = rejections [record] ++ rejections records :=
      List.filterMap_append (l := [record])
    refine ⟨entry :: timeline, ds ++ ds', ?_, .cons hentry htimeline, by rw [List.map_append, hds, hds', hrejections]⟩
    rw [List.foldlM_cons, hstep]
    refine hrun.trans ?_
    simp only [hpairs, hrejections, List.append_assoc, List.length_append, List.singleton_append, Nat.add_assoc]

theorem pairwise_decodedPairs {records : List RecordedTelemetryRecord}
    (h : records.Pairwise fun a b => a.recordIndex < b.recordIndex) :
    (decodedPairs records).Pairwise fun a b => a.1 < b.1 := by
  refine List.pairwise_filterMap.mpr (h.imp fun hab p hp q hq => ?_)
  obtain ⟨-, -, rfl⟩ := Option.map_eq_some_iff.mp hp
  obtain ⟨-, -, rfl⟩ := Option.map_eq_some_iff.mp hq
  exact hab

theorem pairwise_indicesOf {decoded : List (Nat × Int)} (h : decoded.Pairwise fun a b => a.1 < b.1) (sequence : Int) :
    (indicesOf decoded sequence).Pairwise (· < ·) :=
  List.pairwise_map.mpr (h.filter _)

theorem isVisible_gapMessage (previous current : Int) : IsVisible (gapMessage previous current) := by
  have hint (n : Int) : hasNul (toString n) = false := (printable_toString_int n).hasNul
  unfold gapMessage
  dsimp only
  split_ifs
  · have hstart : IsVisible "telemetry sequence gap after " := by decide
    exact (((((((hstart.append (hint _)).append (by decide)).append (hint _)).append (by decide)).append
      (hint _)).append (by decide)).append (hint _))
  · have hstart : IsVisible "telemetry sequence is non-contiguous after " := by decide
    exact (((((hstart.append (hint _)).append (by decide)).append (hint _)).append (by decide)).append (hint _))

/-- The diagnostics of the sequences of records in order. -/
theorem telemetrySequenceDiagnostics_ok {decoded : List (Nat × Int)} (h : decoded.Pairwise fun a b => a.1 < b.1) :
    ∃ ds, telemetrySequenceDiagnostics decoded = .ok (ds, (gapPairs decoded).length,
        ((repeatedGroups decoded).map fun group => group.2.length - 1).sum) ∧
      ds.map Diagnostic.toDiagnosticData = (repeatedGroups decoded).map duplicateData ++ (gapPairs decoded).map gapData := by
  have hduplicates : ∀ d ∈ (repeatedGroups decoded).map duplicateData, d.Valid := by
    intro d hd
    obtain ⟨⟨sequence, indices⟩, hgroup, rfl⟩ := List.mem_map.mp hd
    obtain ⟨hmem, htwo⟩ := List.mem_filter.mp hgroup
    obtain ⟨s, -, heq⟩ := List.mem_map.mp hmem
    cases heq
    have hne : indicesOf decoded sequence ≠ [] := by
      intro hnil
      rw [hnil] at htwo
      simp at htwo
    have hsequence := (printable_toString_int sequence).hasNul
    have hmessage : IsVisible "telemetry packet sequence " := by decide
    exact ⟨(hmessage.append hsequence).append (by decide), (nomatch ·), pairwise_indicesOf h sequence,
      by simp [duplicateData, hne]⟩
  have hgaps : ∀ d ∈ (gapPairs decoded).map gapData, d.Valid := by
    intro d hd
    obtain ⟨⟨previous, current⟩, hpair, rfl⟩ := List.mem_map.mp hd
    have hlt : previous.1 < current.1 := rel_of_mem_adjacent h (List.mem_filter.mp hpair).1
    exact ⟨isVisible_gapMessage _ _, (nomatch ·), by simp [gapData, hlt], by simp [gapData]⟩
  obtain ⟨ds, hds, hmap⟩ := Diagnostic.mapM_new_ok hduplicates
  obtain ⟨ds', hds', hmap'⟩ := Diagnostic.mapM_new_ok hgaps
  refine ⟨ds ++ ds', ?_, by rw [List.map_append, hmap, hmap']⟩
  rw [telemetrySequenceDiagnostics, hds, hds']
  rfl

theorem valid_sourceDiagnostic (lane : EvidenceLane) {stream : String} (hstream : IsVisible stream)
    (empty summaryMissing : Bool) : ∀ d ∈ sourceDiagnostic lane stream empty summaryMissing, d.Valid := by
  intro d hd
  unfold sourceDiagnostic at hd
  split_ifs at hd
  · rw [List.mem_singleton.mp hd]
    exact ⟨hstream.append (by decide), (nomatch ·), .nil, by simp⟩
  · rw [List.mem_singleton.mp hd]
    exact ⟨hstream.append (by decide), (nomatch ·), .nil, by simp⟩
  · cases hd

/-- A source descriptor and the summary that holds it. -/
def summarize (lane : EvidenceLane) (name : String) (recordCount : Nat) (completeness : SourceCompleteness)
    (schemaVersion : Option Nat) (sessionId : Option String) (summaryPresent : Bool) (counters : List (String × Nat))
    (metadata : Json) : Result LaneSummary := do
  let source ← SourceDescriptor.new lane name recordCount completeness schemaVersion sessionId
  LaneSummary.new source summaryPresent counters metadata

/-- The loops and the descriptor of the telemetry lane. -/
theorem normalizeTelemetry_eq (path : EvidencePath) {records : List RecordedTelemetryRecord}
    (h : records.Pairwise fun a b => a.recordIndex < b.recordIndex) : ∃ timeline diagnostics,
      List.Forall₂ OfRecord records timeline ∧
      diagnostics.map Diagnostic.toDiagnosticData = telemetryData records ∧
      normalizeTelemetry path records = (summarize .TELEMETRY (sourceName path) records.length
        (if records.length = 0 then .INCOMPLETE else .UNKNOWN) (some RECORD_VERSION) none false
        (telemetryCounters records.length (decodedPairs records).length (rejections records).length
          (gapPairs (decodedPairs records)).length
          ((repeatedGroups (decodedPairs records)).map fun group => group.2.length - 1).sum)
        (.obj [])).map fun summary => (⟨summary, timeline, diagnostics⟩, decodedPairs records) := by
  obtain ⟨timeline, ds, hrun, htimeline, hds⟩ := foldlM_normalizeRecord {} records
  simp only [List.nil_append, Nat.zero_add] at hrun
  obtain ⟨ds', hsequence, hds'⟩ := telemetrySequenceDiagnostics_ok (pairwise_decodedPairs h)
  obtain ⟨ds'', hempty, hds''⟩ := Diagnostic.mapM_new_ok (valid_sourceDiagnostic .TELEMETRY
    (by decide : IsVisible "telemetry recording") records.isEmpty false)
  refine ⟨timeline, ds ++ ds' ++ ds'', htimeline, ?_, ?_⟩
  · rw [List.map_append, List.map_append, hds, hds', hds'', telemetryData]
  · rw [normalizeTelemetry, hrun]
    simp only [bind, Except.bind, hsequence, hempty, classifySourceCompleteness_telemetry, summarize]
    cases SourceDescriptor.new .TELEMETRY (sourceName path) records.length
        (if records.length = 0 then .INCOMPLETE else .UNKNOWN) (some RECORD_VERSION) none with
    | error e => rfl
    | ok source =>
      dsimp only
      generalize LaneSummary.new source _ _ _ = summary
      cases summary <;> rfl

/-! ### Alarms -/

/-- The timeline entry of an alarm transition. -/
structure OfAlarm (decoded : List (Nat × Int)) (event : AlarmEvent) (entry : TimelineEntry) : Prop where
  data : ∃ n d, event.packetSequence = some n ∧ entry.toTimelineData = alarmEntry event n d ∧
    d.kind = kindOf (indicesOf decoded n) ∧ d.basis = .PACKET_SEQUENCE ∧ d.candidateRecordIndices = indicesOf decoded n
  attributes : entry.attributes = event.attributes

/-- The diagnostics of an alarm event. -/
def correlationsOf (decoded : List (Nat × Int)) (event : AlarmEvent) : List DiagnosticData :=
  match event.packetSequence with
  | none => []
  | some n => correlationData event n (kindOf (indicesOf decoded n)) (indicesOf decoded n)

def alarmData (decoded : List (Nat × Int)) (events : List AlarmEvent) : List DiagnosticData :=
  events.flatMap (correlationsOf decoded) ++
    sourceDiagnostic .ALARM "alarm event stream" events.isEmpty !alarmSummaryPresent events

def transitionsOf (events : List AlarmEvent) : List AlarmEvent := events.filter fun e => e.eventType.isTransition

section
variable {decoded : List (Nat × Int)}

theorem length_positions (target : Int) (i : Nat) (decoded : List (Nat × Int)) :
    (positions target i (decoded.map Prod.snd)).length = (indicesOf decoded target).length := by
  induction decoded generalizing i with
  | nil => rfl
  | cons pair decoded ih =>
    rw [List.map_cons, positions, indicesOf]
    by_cases h : pair.2 = target
    · rw [if_pos h, List.filter_cons_of_pos (by simpa using h), List.length_cons, ih, List.map_cons, List.length_cons,
        indicesOf]
    · rw [if_neg h, List.filter_cons_of_neg (by simpa using h), ih, indicesOf]

theorem kindOf_congr {a b : List Nat} (h : a.length = b.length) : kindOf a = kindOf b := by
  rw [kindOf, kindOf, h]

/-- The positions of a sequence are translated to the source indices of its packets. -/
theorem mapM_sourceIndexAt (target : Int) (pre : List Nat) (decoded : List (Nat × Int)) :
    (positions target pre.length (decoded.map Prod.snd)).mapM (sourceIndexAt (pre ++ decoded.map Prod.fst)) =
      .ok (indicesOf decoded target) := by
  induction decoded generalizing pre with
  | nil => rfl
  | cons pair decoded ih =>
    have hrest := ih (pre ++ [pair.1])
    rw [List.length_append, List.length_singleton, List.append_assoc, List.singleton_append] at hrest
    rw [List.map_cons, List.map_cons, positions, indicesOf]
    by_cases h : pair.2 = target
    · have hat : sourceIndexAt (pre ++ pair.1 :: decoded.map Prod.fst) pre.length = .ok pair.1 := by
        rw [sourceIndexAt, List.getElem?_append_right (le_refl _), Nat.sub_self]
        rfl
      rw [if_pos h, List.mapM_cons, hat, hrest, List.filter_cons_of_pos (by simpa using h)]
      rfl
    · rw [if_neg h, hrest, List.filter_cons_of_neg (by simpa using h)]
      rfl

/-- A transition is correlated to all records with its sequence. -/
theorem translateCorrelation_ok (hfits : ∀ pair ∈ decoded, FitsSequence pair.2)
    (hordered : decoded.Pairwise fun a b => a.1 < b.1) {n : Int} (hn : FitsSequence n) :
    ∃ d, translateCorrelation (decoded.map Prod.snd) (decoded.map Prod.fst) n = .ok d ∧
      d.kind = kindOf (indicesOf decoded n) ∧ d.basis = .PACKET_SEQUENCE ∧
      d.candidateRecordIndices = indicesOf decoded n := by
  have hlength := length_positions n 0 decoded
  obtain ⟨d, hd, hkind, hbasis, hcandidates⟩ := classifyTelemetryAlarmMatch_ok
    (List.forall_mem_map.mpr hfits) hn
  rw [kindOf_congr hlength] at hkind
  rw [translateCorrelation, hd]
  simp only [bind, Except.bind]
  split_ifs with hnone
  · refine ⟨d, rfl, hkind, hbasis, ?_⟩
    rw [hnone]
    rw [hcandidates] at hnone
    rw [hnone] at hlength
    exact (List.length_eq_zero_iff.mp hlength.symm).symm
  · obtain ⟨d', hkind', hbasis', hcandidates'⟩ := exists_decision ((pairwise_indicesOf hordered n).imp le_of_lt)
    refine ⟨d', ?_, hkind', hbasis', hcandidates'⟩
    have htranslated := mapM_sourceIndexAt n [] decoded
    rw [List.length_nil, List.nil_append] at htranslated
    rw [hcandidates, htranslated]
    exact CorrelationDecision.new_eq_ok.mpr ⟨hkind'.trans hkind.symm, hbasis'.trans hbasis.symm, hcandidates'⟩

theorem kindOf_permitted (candidates : List Nat) :
    kindOf candidates = .EXACT ∨ kindOf candidates = .AMBIGUOUS ∨ kindOf candidates = .IMPOSSIBLE := by
  unfold kindOf
  split_ifs <;> simp

theorem valid_alarmEntry (event : AlarmEvent) {n : Nat} (hn : n ≤ MAX_PACKET_SEQUENCE) {d : CorrelationDecision}
    (hd : d.kind = kindOf (indicesOf decoded n)) : (alarmEntry event n d).Valid := by
  have htype : IsVisible event.eventType.value := by cases event.eventType <;> decide
  have hpermitted := kindOf_permitted (indicesOf decoded n)
  rw [← hd] at hpermitted
  rw [MAX_PACKET_SEQUENCE] at hn
  refine ⟨htype, ?_, ?_, ?_, ?_, ?_, ?_⟩
  · exact fun _ h => by cases h
  · rintro _ ⟨⟩
    omega
  · rintro _ ⟨⟩
    omega
  · exact fun _ h => by cases h
  · exact fun _ h => by cases h
  · simp only [TimelineData.validateLaneShape, alarmEntry]
    simp [hpermitted]

theorem valid_correlationData (hordered : decoded.Pairwise fun a b => a.1 < b.1) (event : AlarmEvent) (n : Nat) :
    ∀ d ∈ correlationData event n (kindOf (indicesOf decoded n)) (indicesOf decoded n), d.Valid := by
  have hindex := (printable_toString_nat event.eventIndex).hasNul
  have hsequence := (printable_toString_nat n).hasNul
  have hstart : IsVisible "alarm event " := by decide
  intro d hd
  unfold correlationData at hd
  split at hd
  · rename_i hkind
    have hne : indicesOf decoded n ≠ [] := by
      intro hnil
      rw [hnil] at hkind
      cases hkind
    rw [List.mem_singleton.mp hd]
    exact ⟨(((hstart.append hindex).append (by decide)).append hsequence).append (by decide), (nomatch ·),
      pairwise_indicesOf hordered n, by simp [hne]⟩
  · rw [List.mem_singleton.mp hd]
    exact ⟨(((hstart.append hindex).append (by decide)).append hsequence).append (by decide), (nomatch ·), .nil, by simp⟩
  · cases hd

/-- One alarm event adds the entry and the diagnostics of a transition. -/
theorem normalizeAlarmEvent_ok (hfits : ∀ pair ∈ decoded, FitsSequence pair.2)
    (hordered : decoded.Pairwise fun a b => a.1 < b.1) (st : LaneLoop) (event : AlarmEvent) : ∃ timeline diagnostics,
      normalizeAlarmEvent (decoded.map Prod.snd) (decoded.map Prod.fst) st event =
        .ok ⟨st.timeline ++ timeline, st.diagnostics ++ diagnostics⟩ ∧
      List.Forall₂ (OfAlarm decoded) (transitionsOf [event]) timeline ∧
      diagnostics.map Diagnostic.toDiagnosticData = correlationsOf decoded event := by
  have hshape := event.shape
  cases ht : event.eventType.isTransition with
  | true =>
    obtain ⟨⟨n, hn, hsequence⟩, -⟩ := (AlarmEvent.shape_of_isTransition ht).mp hshape
    have hfit : FitsSequence n := ⟨by omega, by exact_mod_cast hn⟩
    obtain ⟨d, hd, hkind, hbasis, hcandidates⟩ := translateCorrelation_ok hfits hordered hfit
    have hvalid := valid_alarmEntry event hn hkind
    obtain ⟨ds, hds, hmap⟩ := Diagnostic.mapM_new_ok (valid_correlationData hordered event n)
    refine ⟨[⟨alarmEntry event n d, event.attributes, hvalid⟩], ds, ?_, ?_, by rw [hmap, correlationsOf, hsequence]⟩
    · rw [normalizeAlarmEvent, if_pos ht, hsequence]
      simp only [bind, Except.bind, hd, TimelineEntry.new_ok hvalid (validateAttributes_toJson event.attributes), hkind,
        hcandidates, hds]
      rfl
    · rw [transitionsOf, List.filter_cons_of_pos (by simpa using ht)]
      exact .cons ⟨⟨n, d, hsequence, rfl, hkind, hbasis, hcandidates⟩, rfl⟩ .nil
  | false =>
    have hnone : event.packetSequence = none := by
      cases htype : event.eventType <;> rw [htype] at ht hshape <;> first | exact hshape.1 | cases ht
    refine ⟨[], [], ?_, ?_, by rw [correlationsOf, hnone]; rfl⟩
    · rw [normalizeAlarmEvent, if_neg (by rw [ht]; decide), List.append_nil, List.append_nil]
    · rw [transitionsOf, List.filter_cons_of_neg (by rw [ht]; decide)]
      exact .nil

theorem foldlM_normalizeAlarmEvent (hfits : ∀ pair ∈ decoded, FitsSequence pair.2)
    (hordered : decoded.Pairwise fun a b => a.1 < b.1) (st : LaneLoop) (events : List AlarmEvent) :
    ∃ timeline diagnostics, events.foldlM (normalizeAlarmEvent (decoded.map Prod.snd) (decoded.map Prod.fst)) st =
        .ok ⟨st.timeline ++ timeline, st.diagnostics ++ diagnostics⟩ ∧
      List.Forall₂ (OfAlarm decoded) (transitionsOf events) timeline ∧
      diagnostics.map Diagnostic.toDiagnosticData = events.flatMap (correlationsOf decoded) := by
  induction events generalizing st with
  | nil => exact ⟨[], [], by simp [pure, Except.pure], .nil, rfl⟩
  | cons event events ih =>
    obtain ⟨entries, ds, hstep, hentries, hds⟩ := normalizeAlarmEvent_ok hfits hordered st event
    obtain ⟨timeline, ds', hrun, htimeline, hds'⟩ := ih ⟨st.timeline ++ entries, st.diagnostics ++ ds⟩
    have htransitions : transitionsOf (event :: events) = transitionsOf [event] ++ transitionsOf events :=
      List.filter_append [event] events
    refine ⟨entries ++ timeline, ds ++ ds', ?_, ?_, by rw [List.map_append, hds, hds', List.flatMap_cons]⟩
    · rw [List.foldlM_cons, hstep]
      refine hrun.trans ?_
      simp only [List.append_assoc]
    · rw [htransitions]
      exact List.rel_append hentries htimeline

def NamesPrintable {α : Type} (items : List (String × α)) : Prop := ∀ kv ∈ items, Printable kv.1

/-- The metadata of a lane: finite scalars under printable names. -/
def IsMetadata (metadata : Json) : Prop := ∃ l, ∃ h, metadata = scalarObj l ∧ NamesPrintable l ∧
  validateAttributes metadata = .ok (.ofItems l h)

theorem isMetadata_scalarObj {l : List (String × Scalar)} (h : ∀ kv ∈ l, ValidItem kv) (hnames : NamesPrintable l) :
    IsMetadata (scalarObj l) := ⟨l, h, rfl, hnames, validateAttributes_scalarObj h⟩

theorem isMetadata_empty : IsMetadata (.obj []) :=
  isMetadata_scalarObj (l := []) (fun _ h => by cases h) fun _ h => by cases h

theorem alarmMetadata_ok (events : List AlarmEvent) : ∃ metadata, alarmMetadata events = .ok metadata ∧
    IsMetadata metadata := by
  unfold alarmMetadata runMetadataFromEvents
  cases hhead : events.head? with
  | none => exact ⟨_, rfl, isMetadata_empty⟩
  | some first =>
    dsimp only
    split_ifs with ht
    · exact ⟨_, rfl, isMetadata_empty⟩
    · have hshape := first.shape
      rw [not_not.mp ht] at hshape
      obtain ⟨-, m, hm⟩ := hshape
      rw [hm, AlarmRunMetadata.fromAttributes_toAttributes]
      refine ⟨_, rfl, isMetadata_scalarObj ?_ ?_⟩
      · simp [ValidItem, Scalar.isFinite]
      · simp only [NamesPrintable, List.forall_mem_cons, List.not_mem_nil, false_imp_iff, implies_true, and_true]
        decide

/-- The completeness of a lane with a summary marker. -/
def markedCompleteness (summaryPresent : Bool) : SourceCompleteness := if summaryPresent then .COMPLETE else .INCOMPLETE

/-- The loops and the descriptor of the alarm lane. -/
theorem normalizeAlarm_eq (hfits : ∀ pair ∈ decoded, FitsSequence pair.2)
    (hordered : decoded.Pairwise fun a b => a.1 < b.1) (path : EvidencePath) (events : List AlarmEvent) :
    ∃ timeline diagnostics metadata, List.Forall₂ (OfAlarm decoded) (transitionsOf events) timeline ∧
      diagnostics.map Diagnostic.toDiagnosticData = alarmData decoded events ∧ IsMetadata metadata ∧
      normalizeAlarm path events (decoded.map Prod.snd) (decoded.map Prod.fst) =
        (summarize .ALARM (sourceName path) events.length (markedCompleteness (alarmSummaryPresent events))
          (events.head?.map AlarmEvent.schemaVersion) (events.head?.map fun e => e.sessionId.text)
          (alarmSummaryPresent events) (alarmCounters (statisticsFromEvents events)) metadata).map
            fun summary => ⟨summary, timeline, diagnostics⟩ := by
  obtain ⟨timeline, ds, hrun, htimeline, hds⟩ := foldlM_normalizeAlarmEvent hfits hordered {} events
  simp only [List.nil_append] at hrun
  obtain ⟨ds', hsource, hds'⟩ := Diagnostic.mapM_new_ok (valid_sourceDiagnostic .ALARM
    (by decide : IsVisible "alarm event stream") events.isEmpty !alarmSummaryPresent events)
  obtain ⟨metadata, hmetadata, hismetadata⟩ := alarmMetadata_ok events
  have hpresent : alarmSummaryPresent events = true → events.length ≠ 0 := by
    intro h hnil
    rw [List.length_eq_zero_iff.mp hnil] at h
    cases h
  have hcompleteness := classifySourceCompleteness_marked (show EvidenceLane.ALARM ≠ .TELEMETRY by decide) hpresent
  refine ⟨timeline, ds ++ ds', metadata, htimeline, ?_, hismetadata, ?_⟩
  · rw [List.map_append, hds, hds', alarmData]
  · rw [normalizeAlarm, hrun]
    simp only [bind, Except.bind, hsource, hcompleteness, hmetadata, summarize, markedCompleteness]
    generalize SourceDescriptor.new _ _ _ _ _ _ = source
    cases source with
    | error e => rfl
    | ok source =>
      dsimp only
      generalize LaneSummary.new source _ _ _ = summary
      cases summary <;> rfl

end

/-! ### Link events -/

/-- The timeline entry of a packet event of the link. -/
structure OfLink (event : Link.LinkEvent) (entry : TimelineEntry) : Prop where
  data : entry.toTimelineData = linkEntry event
  attributes : entry.attributes = event.attributes

def linkData (events : List Link.LinkEvent) : List DiagnosticData :=
  events.flatMap corruptionData ++ sourceDiagnostic .LINK "link event stream" events.isEmpty !linkSummaryPresent events

def packetEvents (events : List Link.LinkEvent) : List Link.LinkEvent := events.filter fun e => !isLinkContext e.eventType

theorem valid_linkEntry (event : Link.LinkEvent) : (linkEntry event).Valid := by
  have htype : IsVisible event.eventType.value := by cases event.eventType <;> decide
  refine ⟨htype, (fun _ h => by cases h), ?_, (fun _ h => by cases h), ?_, (fun _ h => by cases h), rfl⟩
  · rintro _ ⟨⟩
    omega
  · intro n hn
    obtain ⟨k, -, rfl⟩ := Option.map_eq_some_iff.mp hn
    exact Int.natCast_nonneg k

theorem valid_corruptionData (event : Link.LinkEvent) : ∀ d ∈ corruptionData event, d.Valid := by
  have hstart : IsVisible "link corruption evidence observed for " := by decide
  intro d hd
  unfold corruptionData at hd
  split_ifs at hd
  · rw [List.mem_singleton.mp hd]
    refine ⟨hstart.append ?_, (nomatch ·), .nil, by simp⟩
    cases event.packetIndex with
    | none => decide
    | some n => exact ((by decide : Printable "packet_index ").append (printable_toString_nat n)).hasNul
  · cases hd

/-- One link event adds the entry and the diagnostic of a packet event. -/
theorem normalizeLinkEvent_ok (st : LaneLoop) (event : Link.LinkEvent) : ∃ timeline diagnostics,
    normalizeLinkEvent st event = .ok ⟨st.timeline ++ timeline, st.diagnostics ++ diagnostics⟩ ∧
      List.Forall₂ OfLink (packetEvents [event]) timeline ∧
      diagnostics.map Diagnostic.toDiagnosticData = corruptionData event := by
  cases hcontext : isLinkContext event.eventType with
  | true =>
    have hnone : corruptionData event = [] := by
      rw [corruptionData, if_neg]
      intro ht
      rw [ht] at hcontext
      cases hcontext
    refine ⟨[], [], ?_, ?_, by rw [hnone]; rfl⟩
    · rw [normalizeLinkEvent, if_pos hcontext, List.append_nil, List.append_nil]
    · rw [packetEvents, List.filter_cons_of_neg (by rw [hcontext]; decide)]
      exact .nil
  | false =>
    obtain ⟨ds, hds, hmap⟩ := Diagnostic.mapM_new_ok (valid_corruptionData event)
    refine ⟨[⟨linkEntry event, event.attributes, valid_linkEntry event⟩], ds, ?_, ?_, hmap⟩
    · rw [normalizeLinkEvent, if_neg (by rw [hcontext]; decide)]
      simp only [bind, Except.bind, TimelineEntry.new_ok (valid_linkEntry event) (validateAttributes_toJson _), hds]
      rfl
    · rw [packetEvents, List.filter_cons_of_pos (by rw [hcontext]; decide)]
      exact .cons ⟨rfl, rfl⟩ .nil

theorem foldlM_normalizeLinkEvent (st : LaneLoop) (events : List Link.LinkEvent) : ∃ timeline diagnostics,
    events.foldlM normalizeLinkEvent st = .ok ⟨st.timeline ++ timeline, st.diagnostics ++ diagnostics⟩ ∧
      List.Forall₂ OfLink (packetEvents events) timeline ∧
      diagnostics.map Diagnostic.toDiagnosticData = events.flatMap corruptionData := by
  induction events generalizing st with
  | nil => exact ⟨[], [], by simp [pure, Except.pure], .nil, rfl⟩
  | cons event events ih =>
    obtain ⟨entries, ds, hstep, hentries, hds⟩ := normalizeLinkEvent_ok st event
    obtain ⟨timeline, ds', hrun, htimeline, hds'⟩ := ih ⟨st.timeline ++ entries, st.diagnostics ++ ds⟩
    have hpackets : packetEvents (event :: events) = packetEvents [event] ++ packetEvents events :=
      List.filter_append [event] events
    refine ⟨entries ++ timeline, ds ++ ds', ?_, ?_, by rw [List.map_append, hds, hds', List.flatMap_cons]⟩
    · rw [List.foldlM_cons, hstep]
      refine hrun.trans ?_
      simp only [List.append_assoc]
    · rw [hpackets]
      exact List.rel_append hentries htimeline

/-- The metadata of a stream that the loader accepts. -/
theorem linkMetadata_ok {events : List Link.LinkEvent} (h : Grows Link.LinkEvent.Next [] events) :
    ∃ metadata, linkMetadata events = .ok metadata ∧ IsMetadata metadata := by
  cases events with
  | nil => exact ⟨_, rfl, isMetadata_empty⟩
  | cons first rest =>
    obtain ⟨m, hm⟩ := Link.streamMetadata_of_grows h
    rw [linkMetadata, if_neg (List.cons_ne_nil _ _), Link.runMetadataFromEvents, hm]
    cases m with
    | none => exact ⟨_, rfl, isMetadata_empty⟩
    | some m =>
      refine ⟨_, rfl, ?_⟩
      show IsMetadata m.toAttributes.toJson
      rw [Attributes.toJson_eq, m.items_toAttributes]
      refine isMetadata_scalarObj m.valid_toItems ?_
      simp only [NamesPrintable, Link.LinkRunMetadata.toItems, List.forall_mem_cons, List.not_mem_nil, false_imp_iff,
        implies_true, and_true]
      decide

/-- The loops and the descriptor of the link lane. -/
theorem normalizeLink_eq (path : EvidencePath) {events : List Link.LinkEvent}
    (h : Grows Link.LinkEvent.Next [] events) : ∃ timeline diagnostics metadata,
      List.Forall₂ OfLink (packetEvents events) timeline ∧
      diagnostics.map Diagnostic.toDiagnosticData = linkData events ∧ IsMetadata metadata ∧
      normalizeLink path events = (summarize .LINK (sourceName path) events.length
        (markedCompleteness (linkSummaryPresent events)) (events.head?.map Link.LinkEvent.schemaVersion)
        (events.head?.map Link.LinkEvent.sessionId) (linkSummaryPresent events)
        (linkCounters (Link.statisticsFromEvents events)) metadata).map
          fun summary => ⟨summary, timeline, diagnostics⟩ := by
  obtain ⟨timeline, ds, hrun, htimeline, hds⟩ := foldlM_normalizeLinkEvent {} events
  simp only [List.nil_append] at hrun
  obtain ⟨ds', hsource, hds'⟩ := Diagnostic.mapM_new_ok (valid_sourceDiagnostic .LINK
    (by decide : IsVisible "link event stream") events.isEmpty !linkSummaryPresent events)
  obtain ⟨metadata, hmetadata, hismetadata⟩ := linkMetadata_ok h
  have hpresent : linkSummaryPresent events = true → events.length ≠ 0 := by
    intro h hnil
    rw [List.length_eq_zero_iff.mp hnil] at h
    cases h
  have hcompleteness := classifySourceCompleteness_marked (show EvidenceLane.LINK ≠ .TELEMETRY by decide) hpresent
  refine ⟨timeline, ds ++ ds', metadata, htimeline, ?_, hismetadata, ?_⟩
  · rw [List.map_append, hds, hds', linkData]
  · rw [normalizeLink, hrun]
    simp only [bind, Except.bind, hsource, hcompleteness, hmetadata, summarize, markedCompleteness]
    generalize SourceDescriptor.new _ _ _ _ _ _ = source
    cases source with
    | error e => rfl
    | ok source =>
      dsimp only
      generalize LaneSummary.new source _ _ _ = summary
      cases summary <;> rfl

end OrbitOps.Session
