import OrbitOps.AlarmRecording
import OrbitOps.Session.Diagnoses
import OrbitOps.Session.Recorded
import OrbitOps.Session.Reporting

/-!
# What a session says about its evidence

`recordsWith` reads the records that decode to a sequence off the recording itself. An alarm
transition is correlated to exactly these, with one diagnostic when they are not one
(`Correlated`), whatever the link log holds. The timeline is the entries of the three lanes, and
every counter is the number of entries that it counts (`Conserves`).
-/

namespace OrbitOps.Session
open Py

/-! ### Correlation -/

/-- The indices of the records whose packet decodes to a sequence, in the order of the records. -/
def recordsWith (records : List RecordedTelemetryRecord) (sequence : Int) : List Nat :=
  (records.filter fun r => (decodePacket r.packet).toOption.any fun p => p.sequence = sequence).map fun r => r.recordIndex

theorem indicesOf_decodedPairs (records : List RecordedTelemetryRecord) (sequence : Int) :
    indicesOf (decodedPairs records) sequence = recordsWith records sequence := by
  induction records with
  | nil => rfl
  | cons record records ih =>
    rw [indicesOf, recordsWith] at ih ⊢
    cases h : decodePacket record.packet with
    | error e =>
      rw [decodedPairs, List.filterMap_cons_none (by simp [h, Except.toOption]),
        List.filter_cons_of_neg (by simp [h, Except.toOption])]
      exact ih
    | ok p =>
      rw [decodedPairs, List.filterMap_cons_some (b := (record.recordIndex, p.sequence)) (by simp [h, Except.toOption])]
      by_cases hp : p.sequence = sequence
      · rw [List.filter_cons_of_pos (by simpa using hp), List.filter_cons_of_pos (by simpa [h, Except.toOption] using hp)]
        exact congrArg (record.recordIndex :: ·) ih
      · rw [List.filter_cons_of_neg (by simpa using hp), List.filter_cons_of_neg (by simpa [h, Except.toOption] using hp)]
        exact ih

theorem pairwise_recordsWith {records : List RecordedTelemetryRecord}
    (h : records.Pairwise fun a b => a.recordIndex < b.recordIndex) (sequence : Int) :
    (recordsWith records sequence).Pairwise (· < ·) :=
  List.pairwise_map.mpr (h.filter _)

def laneEntries (s : NormalizedSession) (lane : EvidenceLane) : List TimelineEntry :=
  s.timeline.filter fun entry => entry.lane = lane

/-- The diagnostics that point at an alarm event. -/
def diagnosticsAbout (s : NormalizedSession) (event : AlarmEvent) : List Diagnostic :=
  s.diagnostics.filter fun d => d.lane = some .ALARM ∧ d.sourceIndex = some event.eventIndex

/-- The entry and the diagnostics of a transition whose packet sequence is that of the records `candidates`. -/
structure Correlated (s : NormalizedSession) (event : AlarmEvent) (entry : TimelineEntry) (candidates : List Nat) :
    Prop where
  ascending : candidates.Pairwise (· < ·)
  exact : candidates.length = 1 → (∃ d, entry.correlation = some d ∧ d.kind = .EXACT ∧
    d.candidateRecordIndices = candidates) ∧ diagnosticsAbout s event = []
  ambiguous : 2 ≤ candidates.length → (∃ d, entry.correlation = some d ∧ d.kind = .AMBIGUOUS ∧
    d.candidateRecordIndices = candidates) ∧ ∃ d, diagnosticsAbout s event = [d] ∧ d.severity = .ERROR ∧
      d.code = .ALARM_CORRELATION_AMBIGUOUS ∧ d.relatedLane = some .TELEMETRY ∧ d.relatedSourceIndices = candidates
  impossible : candidates = [] → (∃ d, entry.correlation = some d ∧ d.kind = .IMPOSSIBLE ∧
    d.candidateRecordIndices = []) ∧ ∃ d, diagnosticsAbout s event = [d] ∧ d.severity = .WARNING ∧
      d.code = .ALARM_CORRELATION_IMPOSSIBLE

section
variable {evidence : LoadedSessionEvidence} {s : NormalizedSession} {telemetry : NormalizedLane}
  {decoded : List (Nat × Int)} {alarm link : NormalizedLane}

theorem LoadedSessionEvidence.Strict.pairwise_alarmEvents (h : evidence.Strict) :
    (recordsOf evidence.alarmEvents).Pairwise fun a b => a.eventIndex < b.eventIndex := by
  cases ha : evidence.alarmEvents with
  | none => exact .nil
  | some a => exact pairwise_eventIndex (h.alarmEvents a ha)

/-- Of the pieces of a list only one element's own has its index. -/
theorem filter_flatMap_of_mem {α β : Type} {f : α → List β} {index : α → Nat} {p : β → Bool} {a : α} {as : List α}
    (hself : ∀ b ∈ f a, p b = true) (hother : ∀ a', index a' ≠ index a → ∀ b ∈ f a', p b = false)
    (hordered : as.Pairwise fun x y => index x < index y) (ha : a ∈ as) : (as.flatMap f).filter p = f a := by
  induction as with
  | nil => cases ha
  | cons x as ih =>
    rw [List.flatMap_cons, List.filter_append]
    obtain ⟨hx, hrest⟩ := List.pairwise_cons.mp hordered
    rcases List.mem_cons.mp ha with rfl | ha
    · have hnil : (as.flatMap f).filter p = [] := by
        refine List.filter_eq_nil_iff.mpr fun b hb => ?_
        obtain ⟨y, hy, hb⟩ := List.mem_flatMap.mp hb
        rw [hother y (hx y hy).ne' b hb]
        decide
      rw [hnil, List.append_nil, List.filter_eq_self.mpr hself]
    · have hnil : (f x).filter p = [] := by
        refine List.filter_eq_nil_iff.mpr fun b hb => ?_
        rw [hother x (hx a ha).ne b hb]
        decide
      rw [hnil, List.nil_append, ih hrest ha]

/-- The alarm diagnostics that point at an event are its own. -/
theorem filter_alarmData {a : Option (LoadedSource AlarmEvent)}
    (hordered : (recordsOf a).Pairwise fun x y => x.eventIndex < y.eventIndex) {event : AlarmEvent}
    (hevent : event ∈ recordsOf a) : ((laneData .ALARM (alarmData decoded) a).filter fun d =>
      d.lane = some .ALARM ∧ d.sourceIndex = some event.eventIndex) = correlationsOf decoded event := by
  cases a with
  | none => cases hevent
  | some source =>
    have hsource : (sourceDiagnostic .ALARM "alarm event stream" source.records.isEmpty
        !alarmSummaryPresent source.records).filter (fun d => d.lane = some .ALARM ∧
          d.sourceIndex = some event.eventIndex) = [] := by
      refine List.filter_eq_nil_iff.mpr fun d hd => ?_
      simp [(aboutSource_of_mem hd).sourceIndex]
    rw [laneData, alarmData, List.filter_append, hsource, List.append_nil]
    refine filter_flatMap_of_mem (fun d hd => ?_) (fun e (hne : e.eventIndex ≠ event.eventIndex) d hd => ?_) hordered hevent
    · simp [(aboutAlarm_of_mem hd).lane, (aboutAlarm_of_mem hd).sourceIndex]
    · simp [(aboutAlarm_of_mem hd).sourceIndex, hne]

/-- The diagnostics about an event are its own, and there is at most one. -/
theorem SessionOutcome.diagnosticsAbout_eq (h : SessionOutcome evidence s telemetry decoded alarm link)
    (hordered : (recordsOf evidence.alarmEvents).Pairwise fun x y => x.eventIndex < y.eventIndex) {event : AlarmEvent}
    (hevent : event ∈ recordsOf evidence.alarmEvents) :
    (diagnosticsAbout s event).map Diagnostic.toDiagnosticData = correlationsOf decoded event := by
  let about : DiagnosticData → Bool := fun d => d.lane = some .ALARM ∧ d.sourceIndex = some event.eventIndex
  have hperm := (h.diagnostics.map Diagnostic.toDiagnosticData).filter about
  simp only [List.map_append, List.filter_append, h.telemetryLane.diagnostics, h.alarmLane.diagnostics,
    h.linkLane.diagnostics] at hperm
  have htelemetry : (laneData .TELEMETRY telemetryData evidence.telemetry).filter about = [] :=
    List.filter_eq_nil_iff.mpr fun d hd => by simp [about, (diagnoses_telemetry hd).lane_eq]
  have hlink : (laneData .LINK linkData evidence.linkEvents).filter about = [] :=
    List.filter_eq_nil_iff.mpr fun d hd => by simp [about, (diagnoses_link hd).lane_eq]
  rw [htelemetry, hlink, filter_alarmData hordered hevent, List.nil_append, List.append_nil, List.filter_map] at hperm
  have hsingle : correlationsOf decoded event = [] ∨ ∃ d, correlationsOf decoded event = [d] := by
    unfold correlationsOf correlationData
    split
    · exact .inl rfl
    · split
      · exact .inr ⟨_, rfl⟩
      · exact .inr ⟨_, rfl⟩
      · exact .inl rfl
  rcases hsingle with hnil | ⟨d, hd⟩
  · rw [hnil] at hperm ⊢
    exact hperm.eq_nil
  · rw [hd] at hperm ⊢
    exact List.perm_singleton.mp hperm

/-- The entry of a transition and what is diagnosed about it, by the number of candidates. -/
theorem correlated_of_data {event : AlarmEvent} {entry : TimelineEntry} {n : Nat} {candidates : List Nat}
    (hascending : candidates.Pairwise (· < ·)) {d : CorrelationDecision} (hd : entry.correlation = some d)
    (hkind : d.kind = kindOf candidates) (hcandidates : d.candidateRecordIndices = candidates)
    (hdata : (diagnosticsAbout s event).map Diagnostic.toDiagnosticData =
      correlationData event n (kindOf candidates) candidates) : Correlated s event entry candidates := by
  have hsingle {data : DiagnosticData} (h : (diagnosticsAbout s event).map Diagnostic.toDiagnosticData = [data]) :
      ∃ d, diagnosticsAbout s event = [d] ∧ d.toDiagnosticData = data := by
    obtain ⟨d, hone, hd⟩ := List.map_eq_singleton_iff.mp h
    exact ⟨d, hone, hd⟩
  refine ⟨hascending, fun hlen => ?_, fun hlen => ?_, fun hnil => ?_⟩
  · have hexact : kindOf candidates = .EXACT := if_pos hlen
    rw [hexact] at hkind hdata
    exact ⟨⟨d, hd, hkind, hcandidates⟩, List.map_eq_nil_iff.mp hdata⟩
  · have hambiguous : kindOf candidates = .AMBIGUOUS := by
      rw [kindOf, if_neg (by omega), if_pos (by omega)]
    rw [hambiguous] at hkind hdata
    obtain ⟨diagnostic, hone, hdiagnostic⟩ := hsingle hdata
    refine ⟨⟨d, hd, hkind, hcandidates⟩, diagnostic, hone, ?_⟩
    rw [hdiagnostic]
    exact ⟨rfl, rfl, rfl, rfl⟩
  · have himpossible : kindOf candidates = .IMPOSSIBLE := by rw [hnil]; rfl
    rw [himpossible] at hkind hdata
    obtain ⟨diagnostic, hone, hdiagnostic⟩ := hsingle hdata
    refine ⟨⟨d, hd, hkind, hcandidates.trans hnil⟩, diagnostic, hone, ?_⟩
    rw [hdiagnostic]
    exact ⟨rfl, rfl⟩

/-- An alarm transition has one entry at most. -/
theorem OfAlarm.unique {event : AlarmEvent} {e e' : TimelineEntry} (h : OfAlarm decoded event e)
    (h' : OfAlarm decoded event e') : e = e' := by
  obtain ⟨n, d, hn, hdata, hkind, hbasis, hcandidates⟩ := h.data
  obtain ⟨n', d', hn', hdata', hkind', hbasis', hcandidates'⟩ := h'.data
  obtain rfl := Option.some.inj (hn.symm.trans hn')
  have hd : d = d' := by
    cases d
    cases d'
    simp only [CorrelationDecision.mk.injEq]
    exact ⟨hkind.trans hkind'.symm, hbasis.trans hbasis'.symm, hcandidates.trans hcandidates'.symm⟩
  subst hd
  have hattributes := h.attributes.trans h'.attributes.symm
  cases e
  cases e'
  simp only [TimelineEntry.mk.injEq]
  exact ⟨hdata.trans hdata'.symm, hattributes⟩

theorem eq_of_forall₂_unique {α β : Type} {R : α → β → Prop} (hR : ∀ a b b', R a b → R a b' → b = b') {as : List α}
    {bs bs' : List β} (h : List.Forall₂ R as bs) (h' : List.Forall₂ R as bs') : bs = bs' := by
  induction h generalizing bs' with
  | nil =>
    cases h'
    rfl
  | cons hab _ ih =>
    cases h' with
    | cons hab' hrest => rw [hR _ _ _ hab hab', ih hrest]

theorem map_toDiagnosticData_injective {ds ds' : List Diagnostic}
    (h : ds.map Diagnostic.toDiagnosticData = ds'.map Diagnostic.toDiagnosticData) : ds = ds' := by
  refine List.map_injective_iff.mpr (fun d d' hd => ?_) h
  cases d
  cases d'
  simpa using hd

theorem mem_of_mem_transitionsOf {event : AlarmEvent} {events : List AlarmEvent} (h : event ∈ transitionsOf events) :
    event ∈ events := (List.mem_filter.mp h).1

/-- Every alarm transition is correlated to exactly the records that decode to its sequence, with one diagnostic when
these are not one, and no link log changes that. -/
theorem normalizeLoadedSession_correlates (h : evidence.Strict) (hs : normalizeLoadedSession evidence = .ok s) :
    List.Forall₂ (fun event entry => ∃ n : Nat, event.packetSequence = some n ∧
        entry.sourceIndex = event.eventIndex ∧ entry.packetSequence = some (n : Int) ∧
        Correlated s event entry (recordsWith (recordsOf evidence.telemetry) n))
      (transitionsOf (recordsOf evidence.alarmEvents)) (laneEntries s .ALARM) ∧
    ∀ (linkEvents : Option (LoadedSource Link.LinkEvent)) (s' : NormalizedSession),
      (∀ l ∈ linkEvents, Grows Link.LinkEvent.Next [] l.records) →
      normalizeLoadedSession { evidence with linkEvents := linkEvents } = .ok s' →
        laneEntries s' .ALARM = laneEntries s .ALARM ∧
          ∀ event ∈ transitionsOf (recordsOf evidence.alarmEvents), diagnosticsAbout s' event = diagnosticsAbout s event := by
  obtain ⟨telemetry, decoded, alarm, link, ho⟩ := (normalizeLoadedSession_ok h).2 s hs
  have hdecoded := ho.telemetryLane.decoded
  have hordered := h.pairwise_alarmEvents
  constructor
  · rw [laneEntries, ho.filter_alarm]
    refine List.forall₂_iff_get.mpr ⟨ho.alarmLane.timeline.length_eq, fun i hi hi' => ?_⟩
    have hentry := ho.alarmLane.timeline.get hi hi'
    have hevent := mem_of_mem_transitionsOf (List.get_mem _ ⟨i, hi⟩)
    obtain ⟨n, d, hn, hdata, hkind, -, hcandidates⟩ := hentry.data
    have habout := ho.diagnosticsAbout_eq hordered hevent
    rw [correlationsOf, hn] at habout
    dsimp only at habout
    rw [hdecoded, indicesOf_decodedPairs] at habout hkind hcandidates
    refine ⟨n, hn, by rw [hdata]; rfl, by rw [hdata]; rfl, ?_⟩
    exact correlated_of_data (pairwise_recordsWith h.pairwise_records n) (by rw [hdata]; rfl) hkind hcandidates habout
  · intro linkEvents s' hlink hs'
    have h' : LoadedSessionEvidence.Strict { evidence with linkEvents := linkEvents } := ⟨h.telemetry, h.alarmEvents, hlink⟩
    obtain ⟨telemetry', decoded', alarm', link', ho'⟩ := (normalizeLoadedSession_ok h').2 s' hs'
    obtain rfl : decoded' = decoded := ho'.telemetryLane.decoded.trans hdecoded.symm
    constructor
    · rw [laneEntries, laneEntries, ho.filter_alarm, ho'.filter_alarm]
      exact eq_of_forall₂_unique (fun _ _ _ h h' => h.unique h') ho'.alarmLane.timeline ho.alarmLane.timeline
    · intro event hevent
      have hmem := mem_of_mem_transitionsOf hevent
      exact map_toDiagnosticData_injective
        ((ho'.diagnosticsAbout_eq hordered hmem).trans (ho.diagnosticsAbout_eq hordered hmem).symm)

/-! ### Conservation -/

/-- How many entries of a lane have an event type. -/
def entriesOfType (s : NormalizedSession) (lane : EvidenceLane) (eventType : String) : Nat :=
  (laneEntries s lane).countP fun entry => entry.eventType = eventType

/-- The counter of the alarm lane for each type of transition. -/
def alarmEntryCounters : List (String × AlarmEventType) :=
  [("transitions_raised", .ALARM_RAISED), ("transitions_updated", .ALARM_UPDATED), ("transitions_cleared", .ALARM_CLEARED)]

/-- The counter of the link lane for each type of packet event. -/
def linkEntryCounters : List (String × Link.LinkEventType) :=
  [("packets_received", .PACKET_RECEIVED), ("packets_dropped", .PACKET_DROPPED), ("packets_delayed", .PACKET_DELAYED),
    ("packets_duplicated", .PACKET_DUPLICATED), ("packets_corrupted", .PACKET_CORRUPTED),
    ("packets_reordered", .PACKET_REORDERED), ("deliveries_scheduled", .DELIVERY_SCHEDULED),
    ("deliveries_forwarded", .PACKET_FORWARDED)]

/-- The session shows the evidence, all of it and nothing else, and counts what it shows. -/
structure Conserves (evidence : LoadedSessionEvidence) (s : NormalizedSession) : Prop where
  timeline : ∃ telemetry alarm link, s.timeline = telemetry ++ alarm ++ link ∧
    List.Forall₂ OfRecord (recordsOf evidence.telemetry) telemetry ∧
    List.Forall₂ (OfAlarm (decodedPairs (recordsOf evidence.telemetry))) (transitionsOf (recordsOf evidence.alarmEvents)) alarm ∧
    List.Forall₂ OfLink (packetEvents (recordsOf evidence.linkEvents)) link
  keys : (s.timeline.map TimelineEntry.key).Nodup
  telemetry : ∃ summary ∈ s.sources, summary.source.lane = .TELEMETRY ∧
    summary.counters.dict.get? "packets_decoded" = some (entriesOfType s .TELEMETRY "packet_decoded") ∧
    summary.counters.dict.get? "packets_rejected" = some (entriesOfType s .TELEMETRY "packet_rejected") ∧
    summary.counters.dict.get? "records_total" =
      some (entriesOfType s .TELEMETRY "packet_decoded" + entriesOfType s .TELEMETRY "packet_rejected")
  alarm : ∃ summary ∈ s.sources, summary.source.lane = .ALARM ∧
    (∀ kv ∈ alarmEntryCounters, summary.counters.dict.get? kv.1 = some (entriesOfType s .ALARM kv.2.value)) ∧
    summary.counters.dict.get? "transitions_total" = some (laneEntries s .ALARM).length ∧
    ∀ last ∈ (recordsOf evidence.alarmEvents).getLast?, last.eventType = .RUN_SUMMARY →
      ∀ kv ∈ summary.counters.dict.items, last.attributes.get kv.1 = .int kv.2
  link : ∃ summary ∈ s.sources, summary.source.lane = .LINK ∧
    (∀ kv ∈ linkEntryCounters, summary.counters.dict.get? kv.1 = some (entriesOfType s .LINK kv.2.value)) ∧
    ∀ last ∈ (recordsOf evidence.linkEvents).getLast?, last.eventType = .RUN_SUMMARY →
      ∀ kv ∈ summary.counters.dict.items, last.attributes.get kv.1 = .int kv.2

theorem countP_of_forall₂ {α β : Type} {R : α → β → Prop} {p : α → Bool} {q : β → Bool}
    (hR : ∀ a b, R a b → q b = p a) {as : List α} {bs : List β} (h : List.Forall₂ R as bs) : bs.countP q = as.countP p := by
  induction h with
  | nil => rfl
  | cons hab _ ih => rw [List.countP_cons, List.countP_cons, ih, hR _ _ hab]

theorem mem_of_freezeCounters {counters : List (String × Nat)} {c : Counters} (h : freezeCounters counters = .ok c) :
    ∀ kv ∈ c.dict.items, kv ∈ counters := by
  unfold freezeCounters at h
  split_ifs at h
  cases h
  exact fun kv hkv => Dict.mem_ofItems hkv

theorem SessionOutcome.filter_telemetry (h : SessionOutcome evidence s telemetry decoded alarm link) :
    laneEntries s .TELEMETRY = telemetry.timeline := by
  rw [laneEntries, h.timeline, List.filter_append, List.filter_append, h.telemetryLane.wellFormed.filter_eq_self,
    h.alarmLane.wellFormed.filter_eq_nil (by decide), h.linkLane.wellFormed.filter_eq_nil (by decide), List.append_nil,
    List.append_nil]

theorem SessionOutcome.filter_link (h : SessionOutcome evidence s telemetry decoded alarm link) :
    laneEntries s .LINK = link.timeline := by
  rw [laneEntries, h.timeline, List.filter_append, List.filter_append, h.linkLane.wellFormed.filter_eq_self,
    h.telemetryLane.wellFormed.filter_eq_nil (by decide), h.alarmLane.wellFormed.filter_eq_nil (by decide),
    List.nil_append, List.nil_append]

theorem SessionOutcome.nodup_keys (h : SessionOutcome evidence s telemetry decoded alarm link) :
    (s.timeline.map TimelineEntry.key).Nodup := by
  have hwithin {lane : EvidenceLane} {l : NormalizedLane} (hl : l.WellFormed lane) :
      (l.timeline.map TimelineEntry.key).Nodup := by
    refine List.pairwise_map.mpr (hl.ordered.imp fun hab heq => ?_)
    exact absurd (congrArg Prod.snd heq) hab.ne
  have hacross {la lb : EvidenceLane} (hne : la ≠ lb) {l m : NormalizedLane} (hl : l.WellFormed la)
      (hm : m.WellFormed lb) : (l.timeline.map TimelineEntry.key).Disjoint (m.timeline.map TimelineEntry.key) := by
    intro key hkl hkm
    obtain ⟨a, ha, rfl⟩ := List.mem_map.mp hkl
    obtain ⟨b, hb, heq⟩ := List.mem_map.mp hkm
    refine hne ?_
    rw [← (hl.entries a ha).1, ← (hm.entries b hb).1]
    exact (congrArg Prod.fst heq).symm
  have ht := h.telemetryLane.wellFormed
  have ha := h.alarmLane.wellFormed
  have hl := h.linkLane.wellFormed
  rw [h.timeline, List.map_append, List.map_append]
  refine ((hwithin ht).append (hwithin ha) (hacross (by decide) ht ha)).append (hwithin hl) ?_
  exact List.disjoint_append_left.mpr ⟨hacross (by decide) ht hl, hacross (by decide) ha hl⟩

theorem length_decodedPairs (records : List RecordedTelemetryRecord) :
    (decodedPairs records).length = records.countP fun r => (decodePacket r.packet).isOk := by
  rw [decodedPairs, List.length_filterMap_eq_countP]
  refine List.countP_congr fun r _ => ?_
  cases decodePacket r.packet <;> simp [Except.toOption, Except.isOk, Except.toBool]

theorem OfRecord.eventType_eq {record : RecordedTelemetryRecord} {entry : TimelineEntry} (h : OfRecord record entry) :
    entry.eventType = if (decodePacket record.packet).isOk then "packet_decoded" else "packet_rejected" := by
  cases hd : decodePacket record.packet with
  | ok p =>
    rw [(h.decoded p hd).1]
    rfl
  | error e =>
    rw [(h.rejected e hd).1]
    rfl

/-- The entries of decoded and of rejected records are counted. -/
theorem TelemetryOutcome.counted {t : Option (LoadedSource RecordedTelemetryRecord)} {l : NormalizedLane}
    (h : TelemetryOutcome t l decoded) :
    (decodedPairs (recordsOf t)).length = l.timeline.countP (fun entry => entry.eventType = "packet_decoded") ∧
      (rejections (recordsOf t)).length = l.timeline.countP fun entry => entry.eventType = "packet_rejected" := by
  constructor
  · rw [length_decodedPairs]
    refine (countP_of_forall₂ (fun record entry hr => ?_) h.timeline).symm
    rw [hr.eventType_eq]
    cases (decodePacket record.packet).isOk <;> decide
  · rw [length_rejections, rejectedCount, List.countP_map]
    refine (countP_of_forall₂ (fun record entry hr => ?_) h.timeline).symm
    rw [hr.eventType_eq, Function.comp_apply]
    cases (decodePacket record.packet).isOk <;> decide

theorem length_eq_decoded_add_rejected (records : List RecordedTelemetryRecord) :
    records.length = (decodedPairs records).length + (rejections records).length := by
  rw [length_decodedPairs, length_rejections, rejectedCount, List.countP_map,
    List.length_eq_countP_add_countP fun r => (decodePacket r.packet).isOk]
  congr 1
  refine List.countP_congr fun r _ => ?_
  simp

theorem alarmTypeCount_transitionsOf {t : AlarmEventType} (ht : t.isTransition = true) (events : List AlarmEvent) :
    alarmTypeCount t (transitionsOf events) = alarmTypeCount t events := by
  rw [alarmTypeCount, alarmTypeCount, transitionsOf, List.countP_filter]
  refine List.countP_congr fun e _ => ?_
  simp only [Bool.and_eq_true, decide_eq_true_eq, and_iff_left_iff_imp]
  exact fun h => h ▸ ht

theorem AlarmOutcome.counted {a : Option (LoadedSource AlarmEvent)} {l : NormalizedLane} (h : AlarmOutcome decoded a l)
    {t : AlarmEventType} (ht : t.isTransition = true) :
    alarmTypeCount t (recordsOf a) = l.timeline.countP fun entry => entry.eventType = t.value := by
  rw [← alarmTypeCount_transitionsOf ht, alarmTypeCount]
  refine (countP_of_forall₂ (fun event entry he => ?_) h.timeline).symm
  obtain ⟨n, d, -, hdata, -⟩ := he.data
  rw [hdata]
  exact decide_eq_decide.mpr AlarmEventType.value_injective.eq_iff

theorem AlarmOutcome.length_timeline {a : Option (LoadedSource AlarmEvent)} {l : NormalizedLane}
    (h : AlarmOutcome decoded a l) : (statisticsFromEvents (recordsOf a)).transitionsTotal = l.timeline.length := by
  rw [← h.timeline.length_eq, transitionsOf, ← List.countP_eq_length_filter]
  clear h
  induction recordsOf a using List.reverseRecOn with
  | nil => rfl
  | append_singleton events e ih =>
    rw [statisticsFromEvents_snoc, List.countP_append, List.countP_singleton, ← ih]
    simp only [AlarmEvent.count]
    cases e.eventType <;> simp [AlarmRunStatistics.withTransition, AlarmRunStatistics.transitionsTotal,
      AlarmEventType.isTransition] <;> omega

theorem typeCount_packetEvents {t : Link.LinkEventType} (ht : isLinkContext t = false) (events : List Link.LinkEvent) :
    Link.typeCount t (packetEvents events) = Link.typeCount t events := by
  rw [Link.typeCount, Link.typeCount, packetEvents, List.countP_filter]
  refine List.countP_congr fun e _ => ?_
  simp only [Bool.and_eq_true, decide_eq_true_eq, and_iff_left_iff_imp, Bool.not_eq_true']
  exact fun h => h ▸ ht

theorem LinkOutcome.counted {source : Option (LoadedSource Link.LinkEvent)} {l : NormalizedLane}
    (h : LinkOutcome source l) {t : Link.LinkEventType} (ht : isLinkContext t = false) :
    Link.typeCount t (recordsOf source) = l.timeline.countP fun entry => entry.eventType = t.value := by
  rw [← typeCount_packetEvents ht, Link.typeCount]
  refine (countP_of_forall₂ (fun event entry he => ?_) h.timeline).symm
  rw [he.data]
  exact decide_eq_decide.mpr Link.LinkEventType.value_injective.eq_iff

/-- The final summary of a loaded alarm log records the counters of the log. -/
theorem get_of_alarmSummary {events : List AlarmEvent} (h : requireSummary events = .ok ()) {last : AlarmEvent}
    (hlast : last ∈ events.getLast?) (htype : last.eventType = .RUN_SUMMARY) :
    ∀ kv ∈ alarmCounters (statisticsFromEvents events), last.attributes.get kv.1 = .int kv.2 := by
  obtain ⟨init, hinit⟩ := List.getLast?_eq_some_iff.mp hlast
  have hattributes := requireSummary_eq_ok.mp h init last hinit htype
  have hstatistics : statisticsFromEvents events = statisticsFromEvents init := by
    rw [hinit, statisticsFromEvents_snoc, AlarmEvent.count, htype]
  rw [hstatistics, hattributes]
  have hget (key : String) : (statisticsFromEvents init).toAttributes.get key =
      (lookupKey (statisticsFromEvents init).toItems key).getD .none := by
    rw [Attributes.get, Dict.get?, AlarmRunStatistics.items_toAttributes]
  simp only [alarmCounters, List.forall_mem_cons, List.not_mem_nil, false_imp_iff, implies_true, and_true, hget]
  exact ⟨rfl, rfl, rfl, rfl⟩

/-- The final summary of loaded link events records the counters of the events. -/
theorem get_of_linkSummary {source : Option (LoadedSource Link.LinkEvent)} (h : requireLinkSummary source = .ok ())
    {last : Link.LinkEvent} (hlast : last ∈ (recordsOf source).getLast?) (htype : last.eventType = .RUN_SUMMARY) :
    ∀ kv ∈ linkCounters (Link.statisticsFromEvents (recordsOf source)), last.attributes.get kv.1 = .int kv.2 := by
  cases source with
  | none => cases hlast
  | some l =>
    have hpresent : linkSummaryPresent l.records = true := by
      have hlast' : l.records.getLast? = some last := hlast
      rw [linkSummaryPresent, hlast']
      simpa using htype
    rw [requireLinkSummary, if_pos hpresent] at h
    obtain ⟨statistics, hstatistics, -⟩ := except_map_eq_ok.mp h
    obtain ⟨init, last', heq, -, hs, hget⟩ := Link.validateRunSummary_eq_ok_imp (reraise_eq_ok.mp hstatistics)
    have hlast' : l.records.getLast? = some last := hlast
    rw [heq, List.getLast?_concat] at hlast'
    obtain rfl := Option.some.inj hlast'
    subst hs
    intro kv hkv
    simp only [linkCounters, List.mem_cons, List.not_mem_nil, or_false] at hkv
    rcases hkv with rfl | rfl | rfl | rfl | rfl | rfl | rfl | rfl <;>
      exact hget (_, .int _) (by simp [Link.LinkStatistics.toItems, recordsOf])

/-- The session that normalization builds of loaded evidence conserves it. -/
theorem normalizeLoadedSession_conserves {loads : String → Option Json} {selected : SelectedEvidence}
    (hload : loadSessionEvidence loads selected = .ok evidence) (hs : normalizeLoadedSession evidence = .ok s) :
    Conserves evidence s := by
  obtain ⟨telemetry, decoded, alarm, link, ho⟩ := (normalizeLoadedSession_ok (strict_of_loadSessionEvidence hload)).2 s hs
  have hdecoded := ho.telemetryLane.decoded
  obtain ⟨-, -, halarm, -, hrequire⟩ := loadSessionEvidence_eq_ok.mp hload
  have hsummary : requireSummary (recordsOf evidence.alarmEvents) = .ok () := by
    cases ha : evidence.alarmEvents with
    | none => rfl
    | some a =>
      obtain ⟨_, -, hrecords, -⟩ := exists_source_of_loaded halarm a ha
      exact (loadAlarmEvents_eq_ok.mp hrecords).2.2.2
  obtain ⟨hpackets, hrejected⟩ := ho.telemetryLane.counted
  refine ⟨⟨_, _, _, ho.timeline, ho.telemetryLane.timeline, hdecoded ▸ ho.alarmLane.timeline, ho.linkLane.timeline⟩,
    ho.nodup_keys, ⟨telemetry.summary, by simp [ho.sources], ho.telemetryLane.wellFormed.source, ?_, ?_, ?_⟩,
    ⟨alarm.summary, by simp [ho.sources], ho.alarmLane.wellFormed.source, ?_, ?_, ?_⟩,
    ⟨link.summary, by simp [ho.sources], ho.linkLane.wellFormed.source, ?_, ?_⟩⟩
  · rw [entriesOfType, ho.filter_telemetry, ← hpackets]
    exact get?_of_freezeCounters ho.telemetryLane.counters (nodup_telemetryCounters ..) (by simp [telemetryCounters])
  · rw [entriesOfType, ho.filter_telemetry, ← hrejected]
    exact get?_of_freezeCounters ho.telemetryLane.counters (nodup_telemetryCounters ..) (by simp [telemetryCounters])
  · rw [entriesOfType, entriesOfType, ho.filter_telemetry, ← hpackets, ← hrejected, ← length_eq_decoded_add_rejected]
    exact get?_of_freezeCounters ho.telemetryLane.counters (nodup_telemetryCounters ..) (by simp [telemetryCounters])
  · have hcount : ∀ kv ∈ alarmEntryCounters, kv.2.isTransition = true ∧
        (kv.1, alarmTypeCount kv.2 (recordsOf evidence.alarmEvents)) ∈
          alarmCounters (statisticsFromEvents (recordsOf evidence.alarmEvents)) := by
      simp [alarmEntryCounters, alarmCounters, statisticsFromEvents, AlarmEventType.isTransition]
    intro kv hkv
    obtain ⟨ht, hmem⟩ := hcount kv hkv
    rw [entriesOfType, laneEntries, ho.filter_alarm, ← ho.alarmLane.counted ht]
    exact get?_of_freezeCounters ho.alarmLane.counters (nodup_alarmCounters _) hmem
  · rw [laneEntries, ho.filter_alarm, ← ho.alarmLane.length_timeline]
    exact get?_of_freezeCounters ho.alarmLane.counters (nodup_alarmCounters _) (by simp [alarmCounters])
  · exact fun last hlast htype kv hkv =>
      get_of_alarmSummary hsummary hlast htype kv (mem_of_freezeCounters ho.alarmLane.counters kv hkv)
  · have hcount : ∀ kv ∈ linkEntryCounters, isLinkContext kv.2 = false ∧
        (kv.1, Link.typeCount kv.2 (recordsOf evidence.linkEvents)) ∈
          linkCounters (Link.statisticsFromEvents (recordsOf evidence.linkEvents)) := by
      simp [linkEntryCounters, linkCounters, Link.statisticsFromEvents_eq, isLinkContext]
    intro kv hkv
    obtain ⟨ht, hmem⟩ := hcount kv hkv
    rw [entriesOfType, ho.filter_link, ← ho.linkLane.counted ht]
    exact get?_of_freezeCounters ho.linkLane.counters (nodup_linkCounters _) hmem
  · exact fun last hlast htype kv hkv =>
      get_of_linkSummary hrequire hlast htype kv (mem_of_freezeCounters ho.linkLane.counters kv hkv)

end

/-- The metadata event of an alarm log, for tests. -/
def headerEvent : AlarmEvent where
  sessionId := ⟨"s", by decide, by decide⟩
  eventIndex := 0
  elapsedNs := 0
  eventType := .RUN_METADATA
  packetSequence := none
  attributes := AlarmEventRecorder.zeroMetadata.toAttributes
  shape := ⟨rfl, _, rfl⟩

/-- A transition of packet sequence 7, for tests. -/
def raisedEvent : AlarmEvent where
  sessionId := headerEvent.sessionId
  eventIndex := 1
  elapsedNs := 0
  eventType := .ALARM_RAISED
  packetSequence := some 7
  attributes := (⟨headerEvent.sessionId, headerEvent.sessionId, headerEvent.sessionId, .WARNING, ⟨.none, rfl⟩, ⟨.none, rfl⟩,
    rfl⟩ : AlarmTransitionAttributes).toAttributes
  shape := ⟨⟨7, by decide, rfl⟩, _, rfl⟩

/-- A rejected record, two records of one packet and the log of a transition, for tests. -/
def repeatedEvidence : LoadedSessionEvidence where
  telemetry := some ⟨⟨"", "t.jsonl"⟩, indexRows (writtenRows 0 ([[], encoding nominalPacket, encoding nominalPacket].map
    fun raw => (zeroTimestamp, raw)))⟩
  alarmEvents := some ⟨⟨"", "a.jsonl"⟩, [headerEvent, raisedEvent]⟩
  linkEvents := none

theorem strict_repeatedEvidence : repeatedEvidence.Strict := by
  refine ⟨fun t ht => ?_, fun a ha => ?_, (fun _ h => by cases h)⟩
  · cases ht
    exact ⟨_, rfl⟩
  · cases ha
    refine ⟨⟨rfl, (fun _ h => by cases h), (fun _ h => by cases h), (fun _ h => by cases h), by decide⟩,
      ⟨rfl, ?_, ?_, ?_, by decide⟩, trivial⟩
    · rintro _ ⟨⟩
      rfl
    · rintro _ ⟨⟩
      exact le_rfl
    · intro e he
      rw [List.mem_singleton.mp he]
      decide

theorem exists_normalized {evidence : LoadedSessionEvidence} (h : evidence.Strict)
    (htelemetry : ∀ t ∈ evidence.telemetry, IsVisible (sourceName t.path))
    (halarm : ∀ a ∈ evidence.alarmEvents, IsVisible (sourceName a.path)) (hlink : evidence.linkEvents = none) :
    ∃ s, normalizeLoadedSession evidence = .ok s :=
  (normalizeLoadedSession_ok h).1.mpr ⟨htelemetry, halarm, by rw [hlink]; exact fun _ h => by cases h⟩

theorem exists_repeatedSession : ∃ s, normalizeLoadedSession repeatedEvidence = .ok s := by
  refine exists_normalized strict_repeatedEvidence ?_ ?_ rfl
  · rintro _ ⟨⟩
    exact (by decide : IsVisible "t.jsonl")
  · rintro _ ⟨⟩
    exact (by decide : IsVisible "a.jsonl")

/-- The transition of a repeated packet is ambiguous between the records 1 and 2. -/
theorem normalizeLoadedSession_correlates_repeated : ∃ s entry, normalizeLoadedSession repeatedEvidence = .ok s ∧
    laneEntries s .ALARM = [entry] ∧ Correlated s raisedEvent entry [1, 2] := by
  obtain ⟨s, hs⟩ := exists_repeatedSession
  have htransitions : transitionsOf (recordsOf repeatedEvidence.alarmEvents) = [raisedEvent] := by decide
  have hrecords : recordsWith (recordsOf repeatedEvidence.telemetry) (7 : Nat) = [1, 2] := by decide +kernel
  have h := (normalizeLoadedSession_correlates strict_repeatedEvidence hs).1
  rw [htransitions] at h
  obtain ⟨entry, rest, ⟨n, hn, -, -, hcorrelated⟩, hnil, hone⟩ := List.forall₂_cons_left_iff.mp h
  obtain rfl : n = 7 := Option.some.inj hn.symm
  rw [hrecords] at hcorrelated
  rw [List.forall₂_nil_left_iff.mp hnil] at hone
  exact ⟨s, entry, hs, hone, hcorrelated⟩

/-- The summary after this transition, for tests. -/
def summaryEvent : AlarmEvent where
  sessionId := headerEvent.sessionId
  eventIndex := 2
  elapsedNs := 0
  eventType := .RUN_SUMMARY
  packetSequence := none
  attributes := (⟨1, 0, 0⟩ : AlarmRunStatistics).toAttributes
  shape := ⟨rfl, _, rfl⟩

/-- The log of one transition, for tests. -/
def summarizedEvents : List AlarmEvent := [headerEvent, raisedEvent, summaryEvent]

theorem loadAlarmEvents_summarized :
    loadAlarmEvents Json.loads ⟨summarizedEvents.map fun e => e.toDict.line, none⟩ = .ok summarizedEvents := by
  have hreads : ∀ e ∈ summarizedEvents, ReadsBack Json.loads e.toDict :=
    Json.readsBack_of_lines AlarmEvent.readable rfl (by decide +kernel)
  have hgrows := strict_repeatedEvidence.alarmEvents _ rfl
  have hnext : AlarmEvent.Next [headerEvent, raisedEvent] summaryEvent := by
    refine ⟨rfl, ?_, ?_, ?_, by decide⟩
    · rintro _ ⟨⟩
      rfl
    · rintro _ ⟨⟩
      exact le_rfl
    · simp only [List.forall_mem_cons, List.not_mem_nil, false_imp_iff, implies_true, and_true]
      decide
  refine loadAlarmEvents_written hreads ⟨hgrows.1, hgrows.2.1, hnext, trivial⟩ (requireSummary_eq_ok.mpr ?_)
  intro init last heq _
  obtain ⟨rfl, hlast⟩ := List.append_inj' (show [headerEvent, raisedEvent] ++ [summaryEvent] = init ++ [last] from heq) rfl
  cases hlast
  rfl

theorem normalizeLoadedSession_conserves_summarized : ∃ evidence s,
    loadSessionEvidence Json.loads
      ⟨none, none, some ⟨⟨"", "a.jsonl"⟩, ⟨summarizedEvents.map fun e => e.toDict.line, none⟩⟩⟩ = .ok evidence ∧
    normalizeLoadedSession evidence = .ok s ∧ Conserves evidence s := by
  have hload : loadSessionEvidence Json.loads
      ⟨none, none, some ⟨⟨"", "a.jsonl"⟩, ⟨summarizedEvents.map fun e => e.toDict.line, none⟩⟩⟩ =
        .ok ⟨none, some ⟨⟨"", "a.jsonl"⟩, summarizedEvents⟩, none⟩ :=
    loadSessionEvidence_eq_ok.mpr ⟨(fun h => by cases h.2.2), rfl,
      loadSelected_eq_ok.mpr (.inr ⟨_, _, rfl, loadAlarmEvents_summarized, rfl⟩), rfl, rfl⟩
  obtain ⟨s, hs⟩ := exists_normalized (strict_of_loadSessionEvidence hload) (fun _ h => by cases h)
    (by rintro _ ⟨⟩; exact (by decide : IsVisible "a.jsonl")) rfl
  exact ⟨_, s, hload, hs, normalizeLoadedSession_conserves hload hs⟩

end OrbitOps.Session
