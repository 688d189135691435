import OrbitOps.Session.Evidence
import OrbitOps.Session.Reporting

/-!
# Every selection has a report

The constructor of a report checks what a projection of an inspected session always satisfies: no two
entries have a lane and a position in common, no two diagnostics a subject, and the notice of a
truncated timeline is none of the session's own diagnostics. So filters that are accepted are reported.
-/

namespace OrbitOps.Session
open Py

/-! ### Subjects of diagnostics -/

/-- Where a diagnostic is about what. -/
def DiagnosticData.subject (d : DiagnosticData) : Option EvidenceLane × DiagnosticCode × Option Nat :=
  (d.lane, d.code, d.sourceIndex)

def DistinctSubjects (ds : List DiagnosticData) : Prop := ds.Pairwise fun d d' => d.subject ≠ d'.subject

theorem DiagnosticData.subject_ne_of_lane {d d' : DiagnosticData} (h : d.lane ≠ d'.lane) : d.subject ≠ d'.subject :=
  fun heq => h (congrArg Prod.fst heq)

theorem DiagnosticData.subject_ne_of_code {d d' : DiagnosticData} (h : d.code ≠ d'.code) : d.subject ≠ d'.subject :=
  fun heq => h (congrArg (fun x => x.2.1) heq)

theorem DiagnosticData.subject_ne_of_index {d d' : DiagnosticData} (h : d.sourceIndex ≠ d'.sourceIndex) :
    d.subject ≠ d'.subject :=
  fun heq => h (congrArg (fun x => x.2.2) heq)

theorem distinctSubjects_sourceDiagnostic (lane : EvidenceLane) (stream : String) (empty summaryMissing : Bool) :
    DistinctSubjects (sourceDiagnostic lane stream empty summaryMissing) := by
  unfold sourceDiagnostic
  split_ifs
  · exact List.pairwise_singleton _ _
  · exact List.pairwise_singleton _ _
  · exact .nil

theorem exists_of_mem_rejections {records : List RecordedTelemetryRecord} {d : DiagnosticData} (h : d ∈ rejections records) :
    ∃ record ∈ records, ∃ reason, d = rejectedData record reason := by
  obtain ⟨record, hrecord, h⟩ := List.mem_filterMap.mp h
  cases hd : decodePacket record.packet with
  | ok p => rw [hd] at h; cases h
  | error e =>
    rw [hd] at h
    cases h
    exact ⟨record, hrecord, _, rfl⟩

theorem distinctSubjects_rejections {records : List RecordedTelemetryRecord}
    (h : records.Pairwise fun a b => a.recordIndex < b.recordIndex) : DistinctSubjects (rejections records) := by
  refine List.pairwise_filterMap.mpr (h.imp fun {a b} hab d hd d' hd' => ?_)
  have hindex {record : RecordedTelemetryRecord} {d : DiagnosticData}
      (hd : d ∈ rejections [record]) : d.sourceIndex = some record.recordIndex := by
    obtain ⟨record', hrecord, reason, rfl⟩ := exists_of_mem_rejections hd
    rw [List.mem_singleton.mp hrecord]
    rfl
  have hda : d ∈ rejections [a] := List.mem_filterMap.mpr ⟨a, List.mem_singleton_self a, hd⟩
  have hdb : d' ∈ rejections [b] := List.mem_filterMap.mpr ⟨b, List.mem_singleton_self b, hd'⟩
  refine DiagnosticData.subject_ne_of_index fun heq => ?_
  rw [hindex hda, hindex hdb] at heq
  exact hab.ne (Option.some.inj heq)

section
variable {decoded : List (Nat × Int)}

theorem mem_indicesOf {i : Nat} {sequence : Int} : i ∈ indicesOf decoded sequence ↔ (i, sequence) ∈ decoded := by
  unfold indicesOf
  simp

theorem sequence_unique (h : decoded.Pairwise fun a b => a.1 < b.1) {i : Nat} {n m : Int} (hn : (i, n) ∈ decoded)
    (hm : (i, m) ∈ decoded) : n = m := by
  have hkeys : (decoded.map Prod.fst).Nodup := List.pairwise_map.mpr (h.imp fun hlt => hlt.ne)
  exact congrArg Prod.snd (List.inj_on_of_nodup_map hkeys hn hm rfl)

theorem distinctSubjects_duplicates (h : decoded.Pairwise fun a b => a.1 < b.1) :
    DistinctSubjects ((repeatedGroups decoded).map duplicateData) := by
  have hgroups : (indicesBySequence decoded).Pairwise fun a b => a.1 ≠ b.1 :=
    List.pairwise_map.mpr ((pairwise_lt_sortedSet _).imp fun hlt => hlt.ne)
  refine List.pairwise_map.mpr ((hgroups.filter _).imp_of_mem fun {a b} ha hb hne => ?_)
  obtain ⟨ha, htwo⟩ := List.mem_filter.mp ha
  obtain ⟨hb, -⟩ := List.mem_filter.mp hb
  obtain ⟨n, -, rfl⟩ := List.mem_map.mp ha
  obtain ⟨m, -, rfl⟩ := List.mem_map.mp hb
  refine DiagnosticData.subject_ne_of_index fun heq => hne ?_
  cases hindices : indicesOf decoded n with
  | nil => rw [hindices] at htwo; cases htwo
  | cons i rest =>
    have hn : (indicesOf decoded n).head? = some i := by rw [hindices]; rfl
    have hm : (indicesOf decoded m).head? = some i := heq.symm.trans hn
    exact sequence_unique h (mem_indicesOf.mp (List.mem_of_head? hn)) (mem_indicesOf.mp (List.mem_of_head? hm))

theorem distinctSubjects_gaps (h : decoded.Pairwise fun a b => a.1 < b.1) :
    DistinctSubjects ((gapPairs decoded).map gapData) := by
  have hsecond : ((decoded.zip decoded.tail).map Prod.snd).Pairwise fun a b => a.1 < b.1 := by
    rw [List.map_snd_zip (by rw [List.length_tail]; omega)]
    exact h.sublist (List.tail_sublist decoded)
  refine List.pairwise_map.mpr (((List.pairwise_map.mp hsecond).filter _).imp fun hlt => ?_)
  exact DiagnosticData.subject_ne_of_index fun heq => hlt.ne (Option.some.inj heq)

end

theorem distinctSubjects_telemetryData {records : List RecordedTelemetryRecord}
    (h : records.Pairwise fun a b => a.recordIndex < b.recordIndex) : DistinctSubjects (telemetryData records) := by
  have hpairs := pairwise_decodedPairs h
  have hsequence : DistinctSubjects ((repeatedGroups (decodedPairs records)).map duplicateData ++
      (gapPairs (decodedPairs records)).map gapData) := by
    refine List.pairwise_append.mpr ⟨distinctSubjects_duplicates hpairs, distinctSubjects_gaps hpairs, ?_⟩
    intro d hd d' hd'
    obtain ⟨group, -, rfl⟩ := List.mem_map.mp hd
    obtain ⟨pair, -, rfl⟩ := List.mem_map.mp hd'
    exact DiagnosticData.subject_ne_of_code (by simp [duplicateData, gapData])
  refine List.pairwise_append.mpr ⟨List.pairwise_append.mpr ⟨distinctSubjects_rejections h, hsequence, ?_⟩,
    distinctSubjects_sourceDiagnostic .., ?_⟩
  · intro d hd d' hd'
    obtain ⟨record, -, reason, rfl⟩ := exists_of_mem_rejections hd
    refine DiagnosticData.subject_ne_of_code ?_
    rcases List.mem_append.mp hd' with hd' | hd'
    · obtain ⟨group, -, rfl⟩ := List.mem_map.mp hd'
      simp [rejectedData, duplicateData]
    · obtain ⟨pair, -, rfl⟩ := List.mem_map.mp hd'
      simp [rejectedData, gapData]
  · intro d hd d' hd'
    refine DiagnosticData.subject_ne_of_code fun heq => ?_
    have hcode := (aboutSource_of_mem hd').code
    rw [← heq] at hcode
    rcases List.mem_append.mp hd with hd | hd
    · obtain ⟨record, -, reason, rfl⟩ := exists_of_mem_rejections hd
      rcases hcode with h | h <;> cases h
    · rcases List.mem_append.mp hd with hd | hd
      · obtain ⟨group, -, rfl⟩ := List.mem_map.mp hd
        rcases hcode with h | h <;> cases h
      · obtain ⟨pair, -, rfl⟩ := List.mem_map.mp hd
        rcases hcode with h | h <;> cases h

/-- Events at ascending positions with at most one diagnostic each, and then the source. -/
theorem distinctSubjects_events {α : Type} {index : α → Nat} {f : α → List DiagnosticData} {events : List α}
    (hordered : events.Pairwise fun a b => index a < index b) (hone : ∀ e, (f e).length ≤ 1)
    (hindex : ∀ e, ∀ d ∈ f e, d.sourceIndex = some (index e)) (lane : EvidenceLane) (stream : String)
    (empty summaryMissing : Bool) :
    DistinctSubjects (events.flatMap f ++ sourceDiagnostic lane stream empty summaryMissing) := by
  have hwithin (e : α) : DistinctSubjects (f e) := by
    have hlength := hone e
    rcases hf : f e with - | ⟨d, - | ⟨d', rest⟩⟩
    · exact .nil
    · exact List.pairwise_singleton _ _
    · rw [hf] at hlength
      simp at hlength
  refine List.pairwise_append.mpr ⟨List.pairwise_flatMap.mpr ⟨fun e _ => hwithin e, hordered.imp ?_⟩,
    distinctSubjects_sourceDiagnostic .., ?_⟩
  · intro a b hab d hd d' hd'
    refine DiagnosticData.subject_ne_of_index fun heq => ?_
    rw [hindex a d hd, hindex b d' hd'] at heq
    exact hab.ne (Option.some.inj heq)
  · intro d hd d' hd'
    obtain ⟨e, -, hd⟩ := List.mem_flatMap.mp hd
    refine DiagnosticData.subject_ne_of_index fun heq => ?_
    rw [hindex e d hd, (aboutSource_of_mem hd').sourceIndex] at heq
    cases heq

theorem length_correlationsOf (decoded : List (Nat × Int)) (event : AlarmEvent) :
    (correlationsOf decoded event).length ≤ 1 := by
  unfold correlationsOf correlationData
  split
  · simp
  · split <;> simp

theorem length_corruptionData (event : Link.LinkEvent) : (corruptionData event).length ≤ 1 := by
  unfold corruptionData
  split_ifs <;> simp

section
variable {evidence : LoadedSessionEvidence} {s : NormalizedSession} {telemetry : NormalizedLane}
  {decoded : List (Nat × Int)} {alarm link : NormalizedLane}

theorem distinctSubjects_laneData {α : Type} {lane : EvidenceLane} {data : List α → List DiagnosticData}
    {source : Option (LoadedSource α)} (h : ∀ l ∈ source, DistinctSubjects (data l.records)) :
    DistinctSubjects (laneData lane data source) := by
  cases source with
  | none => exact List.pairwise_singleton _ _
  | some l => exact h l rfl

/-- No two diagnostics of a session are about the same. -/
theorem SessionOutcome.distinctSubjects (h : SessionOutcome evidence s telemetry decoded alarm link)
    (hstrict : evidence.Strict) : DistinctSubjects (s.diagnostics.map Diagnostic.toDiagnosticData) := by
  have ht : DistinctSubjects (laneData .TELEMETRY telemetryData evidence.telemetry) := by
    refine distinctSubjects_laneData fun t hmem => distinctSubjects_telemetryData ?_
    obtain ⟨rows, hrows⟩ := hstrict.telemetry t hmem
    exact hrows ▸ pairwise_indexRows rows
  have ha : DistinctSubjects (laneData .ALARM (alarmData decoded) evidence.alarmEvents) := by
    refine distinctSubjects_laneData fun a hmem => ?_
    exact distinctSubjects_events (pairwise_eventIndex (hstrict.alarmEvents a hmem)) (length_correlationsOf decoded)
      (fun _ _ hd => (aboutAlarm_of_mem hd).sourceIndex) ..
  have hl : DistinctSubjects (laneData .LINK linkData evidence.linkEvents) := by
    refine distinctSubjects_laneData fun l hmem => ?_
    exact distinctSubjects_events (pairwise_linkIndex (hstrict.linkEvents l hmem))
      length_corruptionData (fun _ _ hd => (aboutCorruption_of_mem hd).sourceIndex) ..
  have hperm := h.diagnostics.map Diagnostic.toDiagnosticData
  simp only [List.map_append, h.telemetryLane.diagnostics, h.alarmLane.diagnostics, h.linkLane.diagnostics] at hperm
  have hacross {la lb : EvidenceLane} {d d' : DiagnosticData} (hne : la ≠ lb) (hd : Diagnoses evidence la d)
      (hd' : Diagnoses evidence lb d') : d.subject ≠ d'.subject := by
    refine DiagnosticData.subject_ne_of_lane ?_
    rw [hd.lane_eq, hd'.lane_eq]
    exact fun heq => hne (Option.some.inj heq)
  have halarm {d : DiagnosticData} (hd : d ∈ laneData .ALARM (alarmData decoded) evidence.alarmEvents) :
      Diagnoses evidence .ALARM d := diagnoses_alarm (h.telemetryLane.decoded ▸ hd)
  refine hperm.symm.pairwise ?_ Ne.symm
  refine List.pairwise_append.mpr ⟨List.pairwise_append.mpr ⟨ht, ha, ?_⟩, hl, ?_⟩
  · exact fun d hd d' hd' => hacross (by decide) (diagnoses_telemetry hd) (halarm hd')
  · intro d hd d' hd'
    rcases List.mem_append.mp hd with hd | hd
    · exact hacross (by decide) (diagnoses_telemetry hd) (diagnoses_link hd')
    · exact hacross (by decide) (halarm hd) (diagnoses_link hd')

theorem SessionOutcome.nodup_diagnostics (h : SessionOutcome evidence s telemetry decoded alarm link)
    (hstrict : evidence.Strict) : s.diagnostics.Nodup :=
  (List.pairwise_map.mp (h.distinctSubjects hstrict)).imp fun hne heq => hne (by rw [heq])

end

/-! ### Projections -/

/-- An entry is found under its key when no other has it. -/
theorem sessionEntry_of_mem {timeline : List TimelineEntry} (h : (timeline.map TimelineEntry.key).Nodup)
    {e : TimelineEntry} (he : e ∈ timeline) : sessionEntry timeline e.key = some e := by
  cases hfind : sessionEntry timeline e.key with
  | none =>
    have hnone := List.find?_eq_none.mp hfind e (List.mem_reverse.mpr he)
    simp at hnone
  | some e' =>
    have hkey : e'.key = e.key := by simpa using List.find?_some hfind
    rw [List.inj_on_of_nodup_map h (mem_of_sessionEntry hfind) he hkey]

theorem valid_truncationData (limit matched total : Nat) : (truncationData limit matched total).Valid := by
  have hnat (n : Nat) : hasNul (toString n) = false := (printable_toString_nat n).hasNul
  have hstart : IsVisible "timeline rendering limited to " := by decide
  refine ⟨?_, fun _ => rfl, .nil, by simp [truncationData]⟩
  exact (((((hstart.append (hnat limit)).append (by decide)).append (hnat matched)).append (by decide)).append
    (hnat total)).append (by decide)

theorem validFilter_activeFilters (f : TimelineFilters) (limit : Option Nat) :
    ∀ kv ∈ activeFilters f limit, ValidFilter kv := by
  have hnames : ∀ name ∈ ["alarm_code", "alarm_severity", "event_limit", "packet_sequence_max", "packet_sequence_min"],
      name ≠ "" ∧ hasNul name = false := by decide
  intro kv hkv
  obtain ⟨⟨name, value⟩, hmem, hkv⟩ := List.mem_filterMap.mp hkv
  obtain ⟨v, hv, rfl⟩ := Option.map_eq_some_iff.mp hkv
  obtain ⟨hne, hnul⟩ := hnames name (List.mem_map_of_mem (f := Prod.fst) hmem)
  refine ⟨hne, hnul, ?_⟩
  simp only [List.mem_cons, List.not_mem_nil, or_false, Prod.mk.injEq] at hmem
  rcases hmem with ⟨-, rfl⟩ | ⟨-, rfl⟩ | ⟨-, rfl⟩ | ⟨-, rfl⟩ | ⟨-, rfl⟩ <;>
    obtain ⟨w, -, rfl⟩ := Option.map_eq_some_iff.mp hv <;> rfl

/-- A truncated timeline has one notice, any other none. -/
theorem exists_notices (truncated : Bool) (limit matched total : Nat) : ∃ notices : List Diagnostic,
    (if truncated then [truncationData limit matched total] else []).mapM Diagnostic.new = .ok notices ∧
    (∀ d ∈ notices, IsNotice d) ∧ notices.length = truncated.toNat := by
  cases truncated with
  | false => exact ⟨[], rfl, fun d hd => absurd hd List.not_mem_nil, rfl⟩
  | true =>
    have hvalid : ∀ d ∈ [truncationData limit matched total], d.Valid := by
      intro d hd
      rw [List.mem_singleton.mp hd]
      exact valid_truncationData ..
    obtain ⟨notices, hnotices, hmap⟩ := Diagnostic.mapM_new_ok hvalid
    refine ⟨notices, hnotices, fun d hd => ?_, ?_⟩
    · have hdata : d.toDiagnosticData = truncationData limit matched total :=
        List.mem_singleton.mp (hmap ▸ List.mem_map_of_mem hd)
      constructor <;> rw [hdata] <;> rfl
    · rw [← List.length_map (f := Diagnostic.toDiagnosticData), hmap]
      rfl

/-- The projection of a session by validated filters passes the checks of a report. -/
theorem projectTimeline_ok {session : NormalizedSession} (hkeys : (session.timeline.map TimelineEntry.key).Nodup)
    (hdistinct : session.diagnostics.Nodup) (hcode : ∀ d ∈ session.diagnostics, d.code ≠ .TIMELINE_TRUNCATED)
    (f : TimelineFilters) (limit : Option Nat) : ∃ r, projectTimeline session f limit = .ok r := by
  let matching := session.timeline.filter (matchesTimelineFilters f)
  let truncated := limit.any fun n => n < matching.length
  let timeline := limit.elim matching matching.take
  have hsublist : timeline.Sublist session.timeline := by
    cases limit with
    | none => exact List.filter_sublist
    | some n => exact (List.take_sublist n matching).trans List.filter_sublist
  have hlength : timeline.length ≤ matching.length ∧ truncated = decide (timeline.length < matching.length) := by
    cases limit with
    | none => exact ⟨le_rfl, by simp [truncated, timeline]⟩
    | some n => simp [truncated, timeline]
  obtain ⟨notices, hnotices, hnotice, hcount⟩ :=
    exists_notices truncated (limit.getD 0) matching.length session.timeline.length
  have hnodup : (session.diagnostics ++ notices).Nodup := by
    refine hdistinct.append ?_ fun d hd hd' => hcode d hd (hnotice d hd').code
    have hle : notices.length ≤ 1 := hcount ▸ Bool.toNat_le truncated
    rcases notices with - | ⟨d, - | ⟨d', rest⟩⟩
    · exact .nil
    · exact List.nodup_singleton d
    · simp at hle
  have hchecks : (⟨session, timeline, sortedBy Diagnostic.sortKey (session.diagnostics ++ notices),
      session.timeline.length, matching.length, truncated⟩ : ReportData).Valid := {
    total := rfl
    matched := List.length_filter_le ..
    rendered := hlength.1
    keys := hkeys.sublist (hsublist.map _)
    projection := fun e he => sessionEntry_of_mem hkeys (hsublist.subset he)
    timeline_ordered := session.timeline_ordered.sublist hsublist
    diagnostics_ordered := inOrder_sortedBy ..
    diagnostics_distinct := (sortedBy_perm _ _).nodup_iff.mpr hnodup
    omitted := hlength.2
    notices := ⟨notices, sortedBy_perm _ _, hnotice, hcount⟩ }
  have hfilters := freezeFilters_eq_ok (f := ⟨.ofItems (activeFilters f limit), fun kv hkv =>
    validFilter_activeFilters f limit kv (Dict.mem_ofItems hkv)⟩).mpr ⟨validFilter_activeFilters f limit, rfl⟩
  refine ⟨⟨_, _, hchecks⟩, except_bind_eq_ok.mpr ⟨notices, hnotices, SessionReport.new_eq_ok.mpr ⟨?_, hfilters⟩⟩⟩
  cases limit <;> rfl

/-- The arguments of a projection that the validators accept, and what they make of them. -/
structure Accepted (packetSequenceMin packetSequenceMax alarmCode alarmSeverity eventLimit : Json) (f : TimelineFilters)
    (limit : Option Nat) : Prop where
  packetSequenceMin : validatePacketSequenceFilter "packet_sequence_min" packetSequenceMin = .ok f.packetSequenceMin
  packetSequenceMax : validatePacketSequenceFilter "packet_sequence_max" packetSequenceMax = .ok f.packetSequenceMax
  bounds : boundsCrossed f.packetSequenceMin f.packetSequenceMax = false
  alarmCode : validateAlarmCode alarmCode = .ok f.alarmCode
  alarmSeverity : validateAlarmSeverity alarmSeverity = .ok f.alarmSeverity
  eventLimit : validateEventLimit eventLimit = .ok limit

section
variable {packetSequenceMin packetSequenceMax alarmCode alarmSeverity eventLimit : Json} {f : TimelineFilters}
  {limit : Option Nat}

theorem Accepted.projectSessionReport_eq
    (h : Accepted packetSequenceMin packetSequenceMax alarmCode alarmSeverity eventLimit f limit)
    (session : NormalizedSession) : projectSessionReport session packetSequenceMin packetSequenceMax alarmCode alarmSeverity
      eventLimit = projectTimeline session f limit := by
  rw [projectSessionReport]
  simp only [bind, Except.bind, h.packetSequenceMin, h.packetSequenceMax, h.bounds, h.alarmCode, h.alarmSeverity,
    h.eventLimit, Bool.false_eq_true, if_false]

end

end OrbitOps.Session
