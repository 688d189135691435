import OrbitOps.Session.Normalize

/-!
# What inspection returns

The three lanes put together: the timeline is the entries of telemetry, alarms and link one after
the other, and `inspectSession` returns a session or reports malformed evidence for every content
of the files but one: a link log that its loader accepts although its session identity has a NUL.
-/

namespace OrbitOps.Session
open Py

/-! ### Summaries -/

/-- Counters under non-empty printable names. -/
def CounterNames (counters : List (String × Nat)) : Prop := ∀ kv ∈ counters, kv.1 ≠ "" ∧ Printable kv.1

theorem counterNames_telemetry (total decoded rejected gaps duplicates : Nat) :
    CounterNames (telemetryCounters total decoded rejected gaps duplicates) := by
  simp only [CounterNames, telemetryCounters, List.forall_mem_cons, List.not_mem_nil, false_imp_iff, implies_true]
  decide

theorem counterNames_alarm (s : AlarmRunStatistics) : CounterNames (alarmCounters s) := by
  simp only [CounterNames, alarmCounters, List.forall_mem_cons, List.not_mem_nil, false_imp_iff, implies_true]
  decide

theorem counterNames_link (s : Link.LinkStatistics) : CounterNames (linkCounters s) := by
  simp only [CounterNames, linkCounters, List.forall_mem_cons, List.not_mem_nil, false_imp_iff, implies_true]
  decide

theorem nodup_telemetryCounters (a b c d e : Nat) : ((telemetryCounters a b c d e).map Prod.fst).Nodup := by
  simp only [telemetryCounters, List.map_cons, List.map_nil]
  decide

theorem nodup_alarmCounters (s : AlarmRunStatistics) : ((alarmCounters s).map Prod.fst).Nodup := by
  simp only [alarmCounters, List.map_cons, List.map_nil]
  decide

theorem nodup_linkCounters (s : Link.LinkStatistics) : ((linkCounters s).map Prod.fst).Nodup := by
  simp only [linkCounters, List.map_cons, List.map_nil]
  decide

theorem freezeCounters_ok {counters : List (String × Nat)} (h : CounterNames counters) :
    ∃ c, freezeCounters counters = .ok c ∧ NamesPrintable c.dict.items := by
  have hne : ∀ kv ∈ counters, kv.1 ≠ "" := fun kv hkv => (h kv hkv).1
  refine ⟨⟨.ofItems counters, fun kv hkv => hne kv (Dict.mem_ofItems hkv)⟩, by rw [freezeCounters, dif_pos hne], ?_⟩
  exact fun kv hkv => (h kv (Dict.mem_ofItems hkv)).2

section summarize
variable {lane : EvidenceLane} {name : String} {n : Nat} {completeness : SourceCompleteness} {schemaVersion : Option Nat}
  {sessionId : Option String} {present : Bool} {counters : List (String × Nat)} {metadata : Json}

/-- A summary of a described source, under printable names. -/
structure Summarizes (lane : EvidenceLane) (name : String) (n : Nat) (completeness : SourceCompleteness)
    (schemaVersion : Option Nat) (sessionId : Option String) (present : Bool) (counters : List (String × Nat))
    (s : LaneSummary) : Prop where
  source : s.source.Holds lane name n completeness schemaVersion sessionId
  present : s.summaryPresent = present
  counters : freezeCounters counters = .ok s.counters
  counterNames : NamesPrintable s.counters.dict.items
  metadataNames : NamesPrintable s.metadata.dict.items

theorem summarizes_of_ok {s : LaneSummary} (hcounters : CounterNames counters) (hmetadata : IsMetadata metadata)
    (h : summarize lane name n completeness schemaVersion sessionId present counters metadata = .ok s) :
    Summarizes lane name n completeness schemaVersion sessionId present counters s := by
  obtain ⟨source, hsource, h⟩ := except_bind_eq_ok.mp h
  obtain ⟨rfl, hpresent, hc, hm⟩ := LaneSummary.new_eq_ok.mp h
  obtain ⟨c, hc', hnames⟩ := freezeCounters_ok hcounters
  obtain rfl := Except.ok.inj (hc.symm.trans hc')
  obtain ⟨l, hl, -, hprintable, hm'⟩ := hmetadata
  have hmeta := Except.ok.inj (hm.symm.trans hm')
  refine ⟨SourceDescriptor.new_eq_ok.mp hsource, hpresent, hc, hnames, ?_⟩
  rw [hmeta]
  exact fun kv hkv => hprintable kv (Dict.mem_ofItems hkv)

/-- Only the name and the session identity can be refused. -/
theorem summarize_ok_iff (hexpected : classifySourceCompleteness lane n present = .ok completeness)
    (hversion : ∀ v ∈ schemaVersion, 0 < v ∧ v ∈ (CONTRACT_SEMANTICS lane).readableSchemaVersions)
    (hlane : lane = .TELEMETRY → sessionId = none) (hcounters : CounterNames counters) (hmetadata : IsMetadata metadata) :
    (∃ s, summarize lane name n completeness schemaVersion sessionId present counters metadata = .ok s) ↔
      IsVisible name ∧ ∀ t ∈ sessionId, IsVisible t := by
  constructor
  · rintro ⟨s, hs⟩
    exact (summarizes_of_ok hcounters hmetadata hs).source.visible
  · rintro ⟨hname, hsession⟩
    obtain ⟨source, hsource⟩ := SourceDescriptor.exists_holds lane hname n completeness hversion hsession hlane
    obtain ⟨c, hc, -⟩ := freezeCounters_ok hcounters
    obtain ⟨l, hl, -, -, hm⟩ := hmetadata
    have hmatch : classifySourceCompleteness source.lane source.recordCount present = .ok source.completeness := by
      rw [hsource.lane, hsource.recordCount, hsource.completeness, hexpected]
    obtain ⟨s, hs⟩ := LaneSummary.exists_new hmatch hc hm
    exact ⟨s, except_bind_eq_ok.mpr ⟨source, SourceDescriptor.new_eq_ok.mpr hsource, hs⟩⟩

end summarize

/-! ### Lanes -/

/-- A lane whose entries stand at ascending positions and whose names are printable. -/
structure NormalizedLane.WellFormed (l : NormalizedLane) (lane : EvidenceLane) : Prop where
  source : l.summary.source.lane = lane
  entries : ∀ e ∈ l.timeline, e.lane = lane ∧ Printable e.eventType
  ordered : l.timeline.Pairwise fun a b => a.sourceIndex < b.sourceIndex
  counterNames : NamesPrintable l.summary.counters.dict.items
  metadataNames : NamesPrintable l.summary.metadata.dict.items

theorem NormalizedLane.WellFormed.filter_eq_self {l : NormalizedLane} {lane : EvidenceLane} (h : l.WellFormed lane) :
    (l.timeline.filter fun entry => entry.lane = lane) = l.timeline :=
  List.filter_eq_self.mpr fun e he => by simp [(h.entries e he).1]

theorem NormalizedLane.WellFormed.filter_eq_nil {l : NormalizedLane} {lane other : EvidenceLane} (h : l.WellFormed lane)
    (hne : lane ≠ other) : (l.timeline.filter fun entry => entry.lane = other) = [] :=
  List.filter_eq_nil_iff.mpr fun e he => by simp [(h.entries e he).1, hne]

theorem map_eq_of_forall₂ {α β γ : Type} {R : α → β → Prop} {f : α → γ} {g : β → γ} (hR : ∀ a b, R a b → g b = f a)
    {as : List α} {bs : List β} (h : List.Forall₂ R as bs) : bs.map g = as.map f := by
  induction h with
  | nil => rfl
  | cons hab _ ih => rw [List.map_cons, List.map_cons, hR _ _ hab, ih]

theorem forall_mem_right_of_forall₂ {α β : Type} {R : α → β → Prop} {as : List α} {bs : List β}
    (h : List.Forall₂ R as bs) : ∀ b ∈ bs, ∃ a ∈ as, R a b := by
  induction h with
  | nil => exact fun b hb => by cases hb
  | cons hab _ ih =>
    intro b hb
    rcases List.mem_cons.mp hb with rfl | hb
    · exact ⟨_, List.mem_cons_self .., hab⟩
    · obtain ⟨a, ha, hr⟩ := ih b hb
      exact ⟨a, List.mem_cons_of_mem _ ha, hr⟩

theorem NormalizedLane.WellFormed.of_forall₂ {α : Type} {R : α → TimelineEntry → Prop} {index : α → Nat} {as : List α}
    {lane : EvidenceLane} {l : NormalizedLane}
    (hR : ∀ a e, R a e → e.lane = lane ∧ e.sourceIndex = index a ∧ Printable e.eventType)
    (hordered : as.Pairwise fun a b => index a < index b) (h : List.Forall₂ R as l.timeline)
    {name : String} {n : Nat} {completeness : SourceCompleteness} {schemaVersion : Option Nat} {sessionId : Option String}
    {present : Bool} {counters : List (String × Nat)}
    (hs : Summarizes lane name n completeness schemaVersion sessionId present counters l.summary) :
    l.WellFormed lane where
  source := hs.source.lane
  entries e he := by
    obtain ⟨a, -, hae⟩ := forall_mem_right_of_forall₂ h e he
    exact ⟨(hR a e hae).1, (hR a e hae).2.2⟩
  ordered := by
    have hmap : l.timeline.map (fun e => e.sourceIndex) = as.map index :=
      map_eq_of_forall₂ (fun a e hae => (hR a e hae).2.1) h
    have hpairwise : (l.timeline.map fun e => e.sourceIndex).Pairwise (· < ·) := by
      rw [hmap]
      exact List.pairwise_map.mpr hordered
    exact List.pairwise_map.mp hpairwise
  counterNames := hs.counterNames
  metadataNames := hs.metadataNames

theorem OfRecord.shape {record : RecordedTelemetryRecord} {e : TimelineEntry} (h : OfRecord record e) :
    e.lane = .TELEMETRY ∧ e.sourceIndex = record.recordIndex ∧ Printable e.eventType := by
  cases hd : decodePacket record.packet with
  | ok p =>
    rw [(h.decoded p hd).1]
    exact ⟨rfl, rfl, (by decide : Printable "packet_decoded")⟩
  | error exc =>
    rw [(h.rejected exc hd).1]
    exact ⟨rfl, rfl, (by decide : Printable "packet_rejected")⟩

theorem OfAlarm.shape {decoded : List (Nat × Int)} {event : AlarmEvent} {e : TimelineEntry} (h : OfAlarm decoded event e) :
    e.lane = .ALARM ∧ e.sourceIndex = event.eventIndex ∧ Printable e.eventType := by
  obtain ⟨n, d, -, hdata, -⟩ := h.data
  rw [hdata]
  refine ⟨rfl, rfl, ?_⟩
  show Printable event.eventType.value
  cases event.eventType <;> decide

theorem OfLink.shape {event : Link.LinkEvent} {e : TimelineEntry} (h : OfLink event e) :
    e.lane = .LINK ∧ e.sourceIndex = event.eventIndex ∧ Printable e.eventType := by
  rw [h.data]
  refine ⟨rfl, rfl, ?_⟩
  show Printable event.eventType.value
  cases event.eventType <;> decide

/-- The records of a source, none if it was not selected. -/
def recordsOf {α : Type} (source : Option (LoadedSource α)) : List α := (source.map LoadedSource.records).getD []

/-- The diagnostic of a lane that was not provided. -/
def missingData (lane : EvidenceLane) : DiagnosticData where
  code := .SOURCE_NOT_PROVIDED
  severity := .WARNING
  message := lane.value ++ " evidence source was not provided"
  lane := some lane

/-- The diagnostics of a source, or that it was not provided. -/
def laneData {α : Type} (lane : EvidenceLane) (data : List α → List DiagnosticData) :
    Option (LoadedSource α) → List DiagnosticData
  | none => [missingData lane]
  | some source => data source.records

theorem missingLaneSummary_ok (lane : EvidenceLane) : ∃ l, missingLaneSummary lane = .ok l ∧ l.timeline = [] ∧
    l.diagnostics.map Diagnostic.toDiagnosticData = [missingData lane] ∧
    Summarizes lane "<not provided>" 0 .INCOMPLETE none none false (missingCounters lane) l.summary := by
  have hcounters : CounterNames (missingCounters lane) := by
    cases lane
    · exact counterNames_telemetry 0 0 0 0 0
    · exact counterNames_alarm _
    · exact counterNames_link _
  have hexpected : classifySourceCompleteness lane 0 false = .ok .INCOMPLETE := rfl
  have hversion : ∀ v ∈ (none : Option Nat), 0 < v ∧ v ∈ (CONTRACT_SEMANTICS lane).readableSchemaVersions :=
    fun _ h => by cases h
  have hsession : ∀ t ∈ (none : Option String), IsVisible t := fun _ h => by cases h
  obtain ⟨summary, hsummary⟩ := (summarize_ok_iff hexpected hversion (fun _ => rfl) hcounters isMetadata_empty).mpr
    ⟨(by decide : IsVisible "<not provided>"), hsession⟩
  have hmessage : IsVisible (lane.value ++ " evidence source was not provided") := by cases lane <;> decide
  have hvalid : (missingData lane).Valid := ⟨hmessage, (nomatch ·), .nil, by simp [missingData]⟩
  refine ⟨⟨summary, [], [⟨_, hvalid⟩]⟩, ?_, rfl, rfl, summarizes_of_ok hcounters isMetadata_empty hsummary⟩
  obtain ⟨source, hsource, hnew⟩ := except_bind_eq_ok.mp hsummary
  exact except_bind_eq_ok.mpr ⟨_, hexpected, except_bind_eq_ok.mpr ⟨_, hsource, except_bind_eq_ok.mpr ⟨_, hnew,
    except_bind_eq_ok.mpr ⟨_, Diagnostic.new_ok hvalid, rfl⟩⟩⟩⟩

/-- The telemetry lane of a source and the packets it decodes. -/
structure TelemetryOutcome (t : Option (LoadedSource RecordedTelemetryRecord)) (l : NormalizedLane)
    (decoded : List (Nat × Int)) : Prop where
  wellFormed : l.WellFormed .TELEMETRY
  decoded : decoded = decodedPairs (recordsOf t)
  timeline : List.Forall₂ OfRecord (recordsOf t) l.timeline
  diagnostics : l.diagnostics.map Diagnostic.toDiagnosticData = laneData .TELEMETRY telemetryData t
  completeness : l.summary.source.completeness = if (recordsOf t).length = 0 then .INCOMPLETE else .UNKNOWN
  counters : freezeCounters (telemetryCounters (recordsOf t).length (decodedPairs (recordsOf t)).length
    (rejections (recordsOf t)).length (gapPairs (decodedPairs (recordsOf t))).length
    ((repeatedGroups (decodedPairs (recordsOf t))).map fun group => group.2.length - 1).sum) = .ok l.summary.counters

structure AlarmOutcome (decoded : List (Nat × Int)) (a : Option (LoadedSource AlarmEvent)) (l : NormalizedLane) :
    Prop where
  wellFormed : l.WellFormed .ALARM
  timeline : List.Forall₂ (OfAlarm decoded) (transitionsOf (recordsOf a)) l.timeline
  diagnostics : l.diagnostics.map Diagnostic.toDiagnosticData = laneData .ALARM (alarmData decoded) a
  completeness : l.summary.source.completeness = markedCompleteness (alarmSummaryPresent (recordsOf a))
  counters : freezeCounters (alarmCounters (statisticsFromEvents (recordsOf a))) = .ok l.summary.counters

structure LinkOutcome (link : Option (LoadedSource Link.LinkEvent)) (l : NormalizedLane) : Prop where
  wellFormed : l.WellFormed .LINK
  timeline : List.Forall₂ OfLink (packetEvents (recordsOf link)) l.timeline
  diagnostics : l.diagnostics.map Diagnostic.toDiagnosticData = laneData .LINK linkData link
  completeness : l.summary.source.completeness = markedCompleteness (linkSummaryPresent (recordsOf link))
  counters : freezeCounters (linkCounters (Link.statisticsFromEvents (recordsOf link))) = .ok l.summary.counters

/-- What the strict loaders promise. -/
structure LoadedSessionEvidence.Strict (evidence : LoadedSessionEvidence) : Prop where
  telemetry : ∀ t ∈ evidence.telemetry, ∃ rows, t.records = indexRows rows
  alarmEvents : ∀ a ∈ evidence.alarmEvents, Grows AlarmEvent.Next [] a.records
  linkEvents : ∀ l ∈ evidence.linkEvents, Grows Link.LinkEvent.Next [] l.records

theorem pairwise_indexRows (rows : List TelemetryRow) :
    (indexRows rows).Pairwise fun a b => a.recordIndex < b.recordIndex := by
  rw [List.pairwise_iff_getElem]
  intro i j hi hj hij
  simpa [indexRows] using hij

theorem pairwise_of_map_range' {α : Type} {index : α → Nat} {as : List α} {i : Nat}
    (h : as.map index = List.range' i as.length) : as.Pairwise fun a b => index a < index b := by
  have hpairwise : (as.map index).Pairwise (· < ·) := by
    rw [h]
    exact List.pairwise_lt_range'
  exact List.pairwise_map.mp hpairwise

theorem pairwise_eventIndex {events : List AlarmEvent} (h : Grows AlarmEvent.Next [] events) :
    events.Pairwise fun a b => a.eventIndex < b.eventIndex :=
  pairwise_of_map_range' (h.map_index fun _ _ hn => hn.index)

theorem pairwise_linkIndex {events : List Link.LinkEvent} (h : Grows Link.LinkEvent.Next [] events) :
    events.Pairwise fun a b => a.eventIndex < b.eventIndex :=
  pairwise_of_map_range' (h.map_index fun _ _ hn => hn.index)

theorem fitsSequence_decodedPairs (records : List RecordedTelemetryRecord) :
    ∀ pair ∈ decodedPairs records, FitsSequence pair.2 := by
  intro pair hpair
  obtain ⟨record, -, hrecord⟩ := List.mem_filterMap.mp hpair
  obtain ⟨p, hp, rfl⟩ := Option.map_eq_some_iff.mp hrecord
  cases hd : decodePacket record.packet with
  | error e => rw [hd] at hp; cases hp
  | ok q =>
    rw [hd] at hp
    cases hp
    have h := (decodePacket_inRange hd).sequence
    simp only [TelemetryPacket.numbered] at h
    exact ⟨h.1, h.2⟩

theorem except_map_eq_ok {α β : Type} {r : Result α} {f : α → β} {b : β} :
    r.map f = .ok b ↔ ∃ a, r = .ok a ∧ b = f a := by
  cases r <;> simp [Except.map, eq_comm]

theorem exists_map_eq_ok {α β : Type} {r : Result α} {f : α → β} : (∃ b, r.map f = .ok b) ↔ ∃ a, r = .ok a := by
  simp only [except_map_eq_ok]
  exact ⟨fun ⟨_, a, h, _⟩ => ⟨a, h⟩, fun ⟨a, h⟩ => ⟨_, a, h, rfl⟩⟩

/-- The telemetry lane is refused for its name only. -/
theorem telemetryLane_ok {t : Option (LoadedSource RecordedTelemetryRecord)}
    (ht : ∀ s ∈ t, ∃ rows, s.records = indexRows rows) :
    ((∃ r, telemetryLane t = .ok r) ↔ ∀ s ∈ t, IsVisible (sourceName s.path)) ∧
      ∀ l decoded, telemetryLane t = .ok (l, decoded) → TelemetryOutcome t l decoded := by
  cases t with
  | none =>
    obtain ⟨l, hl, htimeline, hds, hs⟩ := missingLaneSummary_ok .TELEMETRY
    have hlane : telemetryLane none = .ok (l, []) := by rw [telemetryLane, hl]; rfl
    refine ⟨⟨(fun _ _ h => by cases h), fun _ => ⟨_, hlane⟩⟩, fun l' decoded h => ?_⟩
    cases hlane.symm.trans h
    have hnil : List.Forall₂ OfRecord (recordsOf none) l.timeline := by rw [htimeline]; exact .nil
    exact ⟨.of_forall₂ (fun _ _ h => h.shape) .nil hnil hs, rfl, hnil, hds, hs.source.completeness, hs.counters⟩
  | some source =>
    obtain ⟨rows, hrows⟩ := ht source rfl
    have hordered : source.records.Pairwise fun a b => a.recordIndex < b.recordIndex := hrows ▸ pairwise_indexRows rows
    obtain ⟨timeline, ds, htimeline, hds, heq⟩ := normalizeTelemetry_eq source.path hordered
    have hcounters := counterNames_telemetry source.records.length (decodedPairs source.records).length
      (rejections source.records).length (gapPairs (decodedPairs source.records)).length
      ((repeatedGroups (decodedPairs source.records)).map fun group => group.2.length - 1).sum
    rw [telemetryLane, heq]
    constructor
    · rw [exists_map_eq_ok, summarize_ok_iff (classifySourceCompleteness_telemetry _)
        (by rintro _ ⟨⟩; exact ⟨by decide, by decide⟩) (fun _ => rfl) hcounters isMetadata_empty]
      simp
    · intro l decoded h
      obtain ⟨s, hs, heq⟩ := except_map_eq_ok.mp h
      cases heq
      have hsum := summarizes_of_ok hcounters isMetadata_empty hs
      exact ⟨.of_forall₂ (fun _ _ h => h.shape) hordered htimeline hsum, rfl, htimeline, hds,
        hsum.source.completeness, hsum.counters⟩

theorem readable_alarmVersion (events : List AlarmEvent) : ∀ v ∈ events.head?.map AlarmEvent.schemaVersion,
    0 < v ∧ v ∈ (CONTRACT_SEMANTICS .ALARM).readableSchemaVersions := by
  intro v hv
  obtain ⟨e, -, rfl⟩ := Option.map_eq_some_iff.mp hv
  show 0 < ALARM_EVENT_SCHEMA_VERSION ∧ ALARM_EVENT_SCHEMA_VERSION ∈ (CONTRACT_SEMANTICS .ALARM).readableSchemaVersions
  decide

theorem visible_alarmSession (events : List AlarmEvent) :
    ∀ t ∈ events.head?.map (fun e => e.sessionId.text), IsVisible t := by
  intro t ht
  obtain ⟨e, -, rfl⟩ := Option.map_eq_some_iff.mp ht
  exact ⟨e.sessionId.notBlank, e.sessionId.noNul⟩

/-- The alarm lane is refused for its name only. -/
theorem alarmLane_ok {decoded : List (Nat × Int)} (hfits : ∀ pair ∈ decoded, FitsSequence pair.2)
    (hordered : decoded.Pairwise fun a b => a.1 < b.1) {a : Option (LoadedSource AlarmEvent)}
    (ha : ∀ s ∈ a, Grows AlarmEvent.Next [] s.records) :
    ((∃ r, alarmLane decoded a = .ok r) ↔ ∀ s ∈ a, IsVisible (sourceName s.path)) ∧
      ∀ l, alarmLane decoded a = .ok l → AlarmOutcome decoded a l := by
  cases a with
  | none =>
    obtain ⟨l, hl, htimeline, hds, hs⟩ := missingLaneSummary_ok .ALARM
    refine ⟨⟨(fun _ _ h => by cases h), fun _ => ⟨_, hl⟩⟩, fun l' h => ?_⟩
    cases hl.symm.trans h
    have hnil : List.Forall₂ (OfAlarm decoded) (transitionsOf (recordsOf none)) l.timeline := by
      rw [htimeline]; exact .nil
    exact ⟨.of_forall₂ (fun _ _ h => h.shape) .nil hnil hs, hnil, hds, hs.source.completeness, hs.counters⟩
  | some source =>
    obtain ⟨timeline, ds, metadata, htimeline, hds, hmetadata, heq⟩ :=
      normalizeAlarm_eq hfits hordered source.path source.records
    have hcounters := counterNames_alarm (statisticsFromEvents source.records)
    have hpresent : alarmSummaryPresent source.records = true → source.records.length ≠ 0 := by
      intro h hnil
      rw [List.length_eq_zero_iff.mp hnil] at h
      cases h
    have hexpected : classifySourceCompleteness .ALARM source.records.length (alarmSummaryPresent source.records) =
        .ok (markedCompleteness (alarmSummaryPresent source.records)) :=
      classifySourceCompleteness_marked (by decide) hpresent
    rw [alarmLane, heq]
    constructor
    · rw [exists_map_eq_ok, summarize_ok_iff hexpected (readable_alarmVersion _) (fun h => by cases h) hcounters
        hmetadata, and_iff_left (visible_alarmSession _)]
      simp
    · intro l h
      obtain ⟨s, hs, rfl⟩ := except_map_eq_ok.mp h
      have hsum := summarizes_of_ok hcounters hmetadata hs
      exact ⟨.of_forall₂ (fun _ _ h => h.shape) ((pairwise_eventIndex (ha source rfl)).filter _) htimeline hsum,
        htimeline, hds, hsum.source.completeness, hsum.counters⟩

theorem readable_linkVersion (events : List Link.LinkEvent) : ∀ v ∈ events.head?.map Link.LinkEvent.schemaVersion,
    0 < v ∧ v ∈ (CONTRACT_SEMANTICS .LINK).readableSchemaVersions := by
  intro v hv
  obtain ⟨e, -, rfl⟩ := Option.map_eq_some_iff.mp hv
  rcases e.schema_supported with h | h <;> rw [h] <;> exact ⟨by decide, by decide⟩

/-- The link lane is refused for its name or for the session identity of its first event. -/
theorem linkLane_ok {link : Option (LoadedSource Link.LinkEvent)}
    (hlink : ∀ s ∈ link, Grows Link.LinkEvent.Next [] s.records) :
    ((∃ r, linkLane link = .ok r) ↔
        ∀ s ∈ link, IsVisible (sourceName s.path) ∧ ∀ e ∈ s.records.head?, IsVisible e.sessionId) ∧
      ∀ l, linkLane link = .ok l → LinkOutcome link l := by
  cases link with
  | none =>
    obtain ⟨l, hl, htimeline, hds, hs⟩ := missingLaneSummary_ok .LINK
    refine ⟨⟨(fun _ _ h => by cases h), fun _ => ⟨_, hl⟩⟩, fun l' h => ?_⟩
    cases hl.symm.trans h
    have hnil : List.Forall₂ OfLink (packetEvents (recordsOf none)) l.timeline := by rw [htimeline]; exact .nil
    exact ⟨.of_forall₂ (fun _ _ h => h.shape) .nil hnil hs, hnil, hds, hs.source.completeness, hs.counters⟩
  | some source =>
    have hgrows := hlink source rfl
    obtain ⟨timeline, ds, metadata, htimeline, hds, hmetadata, heq⟩ := normalizeLink_eq source.path hgrows
    have hcounters := counterNames_link (Link.statisticsFromEvents source.records)
    have hpresent : linkSummaryPresent source.records = true → source.records.length ≠ 0 := by
      intro h hnil
      rw [List.length_eq_zero_iff.mp hnil] at h
      cases h
    have hversion := readable_linkVersion source.records
    have hexpected : classifySourceCompleteness .LINK source.records.length (linkSummaryPresent source.records) =
        .ok (markedCompleteness (linkSummaryPresent source.records)) :=
      classifySourceCompleteness_marked (by decide) hpresent
    rw [linkLane, heq]
    constructor
    · rw [exists_map_eq_ok, summarize_ok_iff hexpected hversion (fun h => by cases h) hcounters hmetadata]
      simp
    · intro l h
      obtain ⟨s, hs, rfl⟩ := except_map_eq_ok.mp h
      have hsum := summarizes_of_ok hcounters hmetadata hs
      exact ⟨.of_forall₂ (fun _ _ h => h.shape) ((pairwise_linkIndex hgrows).filter _) htimeline hsum,
        htimeline, hds, hsum.source.completeness, hsum.counters⟩

/-! ### The session -/

/-- A session whose parts are the lanes of the evidence. -/
structure SessionOutcome (evidence : LoadedSessionEvidence) (s : NormalizedSession) (telemetry : NormalizedLane)
    (decoded : List (Nat × Int)) (alarm link : NormalizedLane) : Prop where
  telemetryLane : TelemetryOutcome evidence.telemetry telemetry decoded
  alarmLane : AlarmOutcome decoded evidence.alarmEvents alarm
  linkLane : LinkOutcome evidence.linkEvents link
  sources : s.sources = [telemetry.summary, alarm.summary, link.summary]
  timeline : s.timeline = telemetry.timeline ++ alarm.timeline ++ link.timeline
  diagnostics : s.diagnostics.Perm (telemetry.diagnostics ++ alarm.diagnostics ++ link.diagnostics)

/-- Lanes of ascending rank one after the other are in presentation order. -/
theorem inOrder_lanes {telemetry alarm link : NormalizedLane} (ht : telemetry.WellFormed .TELEMETRY)
    (ha : alarm.WellFormed .ALARM) (hl : link.WellFormed .LINK) :
    InOrder TimelineEntry.sortKey (telemetry.timeline ++ alarm.timeline ++ link.timeline) := by
  have hwithin {lane : EvidenceLane} {l : NormalizedLane} (h : l.WellFormed lane) :
      l.timeline.Pairwise fun a b => a.sortKey ≤ b.sortKey := by
    refine h.ordered.imp_of_mem fun {a b} hma hmb hab => ?_
    rw [TimelineEntry.sortKey, TimelineEntry.sortKey, (h.entries a hma).1, (h.entries b hmb).1]
    exact Prod.Lex.toLex_le_toLex.mpr (.inr ⟨rfl, hab.le⟩)
  have hacross {la lb : EvidenceLane} {l m : NormalizedLane} (hlm : la.rank < lb.rank) (h : l.WellFormed la)
      (h' : m.WellFormed lb) : ∀ a ∈ l.timeline, ∀ b ∈ m.timeline, a.sortKey ≤ b.sortKey := by
    intro a hma b hmb
    rw [TimelineEntry.sortKey, TimelineEntry.sortKey, (h.entries a hma).1, (h'.entries b hmb).1]
    exact Prod.Lex.toLex_le_toLex.mpr (.inl hlm)
  refine List.pairwise_append.mpr ⟨List.pairwise_append.mpr ⟨hwithin ht, hwithin ha, hacross (by decide) ht ha⟩,
    hwithin hl, fun a hma b hmb => ?_⟩
  rcases List.mem_append.mp hma with h | h
  · exact hacross (by decide) ht hl a h b hmb
  · exact hacross (by decide) ha hl a h b hmb

theorem LoadedSessionEvidence.Strict.pairwise_records {evidence : LoadedSessionEvidence} (h : evidence.Strict) :
    (recordsOf evidence.telemetry).Pairwise fun a b => a.recordIndex < b.recordIndex := by
  cases ht : evidence.telemetry with
  | none => exact .nil
  | some t =>
    obtain ⟨rows, hrows⟩ := h.telemetry t ht
    exact (hrows ▸ pairwise_indexRows rows : t.records.Pairwise fun a b => a.recordIndex < b.recordIndex)

/-- The alarm lane of strictly loaded evidence is refused for its name only. -/
theorem LoadedSessionEvidence.Strict.alarmLane_ok {evidence : LoadedSessionEvidence} (h : evidence.Strict)
    {l : NormalizedLane} {decoded : List (Nat × Int)} (hl : telemetryLane evidence.telemetry = .ok (l, decoded)) :
    ((∃ r, alarmLane decoded evidence.alarmEvents = .ok r) ↔ ∀ a ∈ evidence.alarmEvents, IsVisible (sourceName a.path)) ∧
      ∀ l, alarmLane decoded evidence.alarmEvents = .ok l → AlarmOutcome decoded evidence.alarmEvents l := by
  have hdecoded := ((telemetryLane_ok h.telemetry).2 l decoded hl).decoded
  rw [hdecoded]
  exact Session.alarmLane_ok (fitsSequence_decodedPairs _) (pairwise_decodedPairs h.pairwise_records) h.alarmEvents

/-- Normalization refuses a source for its name and a link log for its first session identity, nothing else. -/
theorem normalizeLoadedSession_ok {evidence : LoadedSessionEvidence} (h : evidence.Strict) :
    ((∃ s, normalizeLoadedSession evidence = .ok s) ↔ (∀ t ∈ evidence.telemetry, IsVisible (sourceName t.path)) ∧
        (∀ a ∈ evidence.alarmEvents, IsVisible (sourceName a.path)) ∧
        ∀ l ∈ evidence.linkEvents, IsVisible (sourceName l.path) ∧ ∀ e ∈ l.records.head?, IsVisible e.sessionId) ∧
      ∀ s, normalizeLoadedSession evidence = .ok s → ∃ telemetry decoded alarm link,
        SessionOutcome evidence s telemetry decoded alarm link := by
  obtain ⟨htelemetry, htelemetry'⟩ := telemetryLane_ok h.telemetry
  obtain ⟨hlink, hlink'⟩ := linkLane_ok h.linkEvents
  have hsession {telemetry : NormalizedLane} {decoded : List (Nat × Int)} {alarm link : NormalizedLane}
      (ht : telemetryLane evidence.telemetry = .ok (telemetry, decoded))
      (ha : alarmLane decoded evidence.alarmEvents = .ok alarm) (hl : linkLane evidence.linkEvents = .ok link) :
      ∃ s, normalizeLoadedSession evidence = .ok s ∧ SessionOutcome evidence s telemetry decoded alarm link := by
    have ot := htelemetry' _ _ ht
    have oa := (h.alarmLane_ok ht).2 _ ha
    have ol := hlink' _ hl
    have hlanes : [telemetry.summary, alarm.summary, link.summary].map (fun summary => summary.source.lane) =
        LANE_PRECEDENCE := by
      simp only [List.map_cons, List.map_nil, ot.wellFormed.source, oa.wellFormed.source, ol.wellFormed.source]
      rfl
    have hnew := NormalizedSession.new_ok hlanes (inOrder_sortedBy TimelineEntry.sortKey
      (telemetry.timeline ++ alarm.timeline ++ link.timeline)) (inOrder_sortedBy Diagnostic.sortKey
      (telemetry.diagnostics ++ alarm.diagnostics ++ link.diagnostics))
    refine ⟨_, except_bind_eq_ok.mpr ⟨_, ht, except_bind_eq_ok.mpr ⟨_, ha, except_bind_eq_ok.mpr ⟨_, hl, hnew⟩⟩⟩, ?_⟩
    exact ⟨ot, oa, ol, rfl, (inOrder_lanes ot.wellFormed oa.wellFormed ol.wellFormed).sortedBy_eq, sortedBy_perm _ _⟩
  constructor
  · constructor
    · rintro ⟨s, hs⟩
      obtain ⟨⟨telemetry, decoded⟩, ht, hs⟩ := except_bind_eq_ok.mp hs
      obtain ⟨alarm, ha, hs⟩ := except_bind_eq_ok.mp hs
      obtain ⟨link, hl, -⟩ := except_bind_eq_ok.mp hs
      exact ⟨htelemetry.mp ⟨_, ht⟩, (h.alarmLane_ok ht).1.mp ⟨_, ha⟩, hlink.mp ⟨_, hl⟩⟩
    · rintro ⟨hnt, hna, hnl⟩
      obtain ⟨⟨telemetry, decoded⟩, ht⟩ := htelemetry.mpr hnt
      obtain ⟨alarm, ha⟩ := (h.alarmLane_ok ht).1.mpr hna
      obtain ⟨link, hl⟩ := hlink.mpr hnl
      obtain ⟨s, hs, -⟩ := hsession ht ha hl
      exact ⟨s, hs⟩
  · intro s hs
    obtain ⟨⟨telemetry, decoded⟩, ht, hs'⟩ := except_bind_eq_ok.mp hs
    obtain ⟨alarm, ha, hs'⟩ := except_bind_eq_ok.mp hs'
    obtain ⟨link, hl, -⟩ := except_bind_eq_ok.mp hs'
    obtain ⟨s', hs', houtcome⟩ := hsession ht ha hl
    obtain rfl := Except.ok.inj (hs.symm.trans hs')
    exact ⟨_, _, _, _, houtcome⟩

/-! ### What inspection raises -/

/-- A file name that is not blank, on a path without NUL. -/
structure EvidencePath.Named (path : EvidencePath) : Prop where
  notBlank : isBlank path.name = false
  noNul : hasNul path.text = false

/-- One to three named evidence paths. -/
structure SelectedEvidence.Named (selected : SelectedEvidence) : Prop where
  provided : ¬(selected.telemetry = none ∧ selected.linkEvents = none ∧ selected.alarmEvents = none)
  telemetry : ∀ source ∈ selected.telemetry, source.path.Named
  linkEvents : ∀ source ∈ selected.linkEvents, source.path.Named
  alarmEvents : ∀ source ∈ selected.alarmEvents, source.path.Named

/-- A session, or a report of malformed evidence. -/
def Documented (r : Result NormalizedSession) : Prop :=
  (∃ session, r = .ok session) ∨ ∃ message, r = .error ⟨.malformedEvidenceError, message⟩

/-- The loaders accept the selected files and the first link event has a NUL in its session identity. -/
structure SelectedEvidence.NulSession (loads : String → Option Json) (selected : SelectedEvidence) : Prop where
  telemetry : ∀ source ∈ selected.telemetry, ∃ records, loadTelemetryRecords loads source.file = .ok records
  alarmEvents : ∀ source ∈ selected.alarmEvents, ∃ events, loadAlarmEvents loads source.file = .ok events
  linkEvents : ∃ source ∈ selected.linkEvents, ∃ first rest,
    Link.loadLinkEvents loads source.file = .ok (first :: rest) ∧ hasNul first.sessionId = true ∧
      (linkSummaryPresent (first :: rest) = true → ∃ s, Link.validateRunSummary (first :: rest) = .ok s)

theorem EvidencePath.Named.isVisible_sourceName {path : EvidencePath} (h : path.Named) : IsVisible (sourceName path) := by
  have hne : path.name ≠ "" := by
    intro h'
    have hblank := h.notBlank
    rw [h'] at hblank
    cases hblank
  have hnul := h.noNul
  rw [EvidencePath.text, hasNul_append, Bool.or_eq_false_iff] at hnul
  rw [sourceName, if_neg hne]
  exact ⟨h.notBlank, hnul.2⟩

theorem EvidencePath.Named.malformedEvidence {path : EvidencePath} (h : path.Named) (lane : EvidenceLane)
    (exc : PyError) : ∃ message, malformedEvidence lane path exc = ⟨.malformedEvidenceError, message⟩ := by
  have hblank : isBlank path.text = false := by
    rw [EvidencePath.text, isBlank_append, h.notBlank, Bool.and_false]
  exact ⟨_, by rw [Session.malformedEvidence, hblank, h.noNul]; rfl⟩

theorem loadSelected_eq_ok {α : Type} {lane : EvidenceLane} {source : Option EvidenceSource}
    {loader : TextFile → Result (List α)} {loaded : Option (LoadedSource α)} :
    loadSelected lane source loader = .ok loaded ↔ (source = none ∧ loaded = none) ∨
      ∃ s records, source = some s ∧ loader s.file = .ok records ∧ loaded = some ⟨s.path, records⟩ := by
  cases source with
  | none => simp [loadSelected, eq_comm]
  | some s =>
    simp only [loadSelected, loadStrict, except_map_eq_ok, reraise_eq_ok, reduceCtorEq, false_and, Option.some.injEq,
      false_or]
    constructor
    · rintro ⟨_, ⟨records, hr, rfl⟩, rfl⟩
      exact ⟨s, records, rfl, hr, rfl⟩
    · rintro ⟨_, records, rfl, hr, rfl⟩
      exact ⟨_, ⟨records, hr, rfl⟩, rfl⟩

/-- A lane is loaded when its loader accepts the selected file, if there is one. -/
theorem exists_loadSelected_iff {α : Type} {lane : EvidenceLane} {source : Option EvidenceSource}
    {loader : TextFile → Result (List α)} :
    (∃ loaded, loadSelected lane source loader = .ok loaded) ↔ ∀ s ∈ source, ∃ records, loader s.file = .ok records := by
  constructor
  · rintro ⟨loaded, h⟩ s hs
    rcases loadSelected_eq_ok.mp h with ⟨hnone, -⟩ | ⟨s', records, hs', hr, -⟩
    · rw [hnone] at hs
      cases hs
    · obtain rfl := Option.some.inj (hs.symm.trans hs')
      exact ⟨records, hr⟩
  · intro h
    cases source with
    | none => exact ⟨none, rfl⟩
    | some s =>
      obtain ⟨records, hr⟩ := h s rfl
      exact ⟨_, loadSelected_eq_ok.mpr (.inr ⟨s, records, rfl, hr, rfl⟩)⟩

/-- The call raises nothing but a report of malformed evidence. -/
def Reports {α : Type} (r : Result α) : Prop := ∀ e, r = .error e → ∃ message, e = ⟨.malformedEvidenceError, message⟩

theorem reports_ok {α : Type} (a : α) : Reports (.ok a : Result α) := fun _ h => by cases h

theorem Reports.bind {α β : Type} {r : Result α} {f : α → Result β} (hr : Reports r)
    (hf : ∀ a, r = .ok a → Reports (f a)) : Reports (r >>= f) := by
  cases r with
  | error e =>
    intro e' h
    cases h
    exact hr e rfl
  | ok a => exact hf a rfl

theorem Reports.map {α β : Type} {r : Result α} (hr : Reports r) (f : α → β) : Reports (r.map f) :=
  hr.bind fun _ _ => reports_ok _

/-- What is caught on a named path is reported. -/
theorem reports_reraise {α : Type} {lane : EvidenceLane} {path : EvidencePath} (hpath : path.Named) {r : Result α}
    (hr : Catchable r) : Reports (reraise (malformedEvidence lane path) r) := by
  cases r with
  | ok a => exact reports_ok a
  | error exc =>
    intro e h
    rw [reraise, if_pos (hr exc rfl)] at h
    cases h
    exact hpath.malformedEvidence lane exc

theorem reports_loadSelected {α : Type} {lane : EvidenceLane} {source : Option EvidenceSource}
    (hnamed : ∀ s ∈ source, s.path.Named) {loader : TextFile → Result (List α)} (hloader : ∀ file, Catchable (loader file)) :
    Reports (loadSelected lane source loader) := by
  cases source with
  | none => exact reports_ok _
  | some s => exact ((reports_reraise (hnamed s rfl) (hloader s.file)).map _).map _

theorem loadSessionEvidence_eq_ok {loads : String → Option Json} {selected : SelectedEvidence}
    {evidence : LoadedSessionEvidence} : loadSessionEvidence loads selected = .ok evidence ↔
      ¬(selected.telemetry = none ∧ selected.linkEvents = none ∧ selected.alarmEvents = none) ∧
      loadSelected .TELEMETRY selected.telemetry (loadTelemetryRecords loads) = .ok evidence.telemetry ∧
      loadSelected .ALARM selected.alarmEvents (loadAlarmEvents loads) = .ok evidence.alarmEvents ∧
      loadSelected .LINK selected.linkEvents (Link.loadLinkEvents loads) = .ok evidence.linkEvents ∧
      requireLinkSummary evidence.linkEvents = .ok () := by
  have hnone : (selected.telemetry.isNone && selected.linkEvents.isNone && selected.alarmEvents.isNone) = true ↔
      selected.telemetry = none ∧ selected.linkEvents = none ∧ selected.alarmEvents = none := by
    simp [and_assoc]
  rw [loadSessionEvidence]
  by_cases h : selected.telemetry = none ∧ selected.linkEvents = none ∧ selected.alarmEvents = none
  · rw [if_pos (hnone.mpr h)]
    exact ⟨(nomatch ·), fun h' => absurd h h'.1⟩
  · rw [if_neg fun h' => h (hnone.mp h'), and_iff_right h]
    constructor
    · intro h
      obtain ⟨t, ht, h⟩ := except_bind_eq_ok.mp h
      obtain ⟨a, ha, h⟩ := except_bind_eq_ok.mp h
      obtain ⟨l, hl, h⟩ := except_bind_eq_ok.mp h
      obtain ⟨⟨⟩, hs, h⟩ := except_bind_eq_ok.mp h
      cases h
      exact ⟨ht, ha, hl, hs⟩
    · rintro ⟨ht, ha, hl, hs⟩
      exact except_bind_eq_ok.mpr ⟨_, ht, except_bind_eq_ok.mpr ⟨_, ha, except_bind_eq_ok.mpr ⟨_, hl,
        except_bind_eq_ok.mpr ⟨(), hs, rfl⟩⟩⟩⟩

/-- A loaded source holds what its loader returned for the selected file. -/
theorem exists_source_of_loaded {α : Type} {lane : EvidenceLane} {source : Option EvidenceSource}
    {loader : TextFile → Result (List α)} {loaded : Option (LoadedSource α)}
    (h : loadSelected lane source loader = .ok loaded) :
    ∀ l ∈ loaded, ∃ s ∈ source, loader s.file = .ok l.records ∧ l.path = s.path := by
  intro l hl
  rcases loadSelected_eq_ok.mp h with ⟨-, hnone⟩ | ⟨s, records, hs, hload, hsome⟩
  · rw [hnone] at hl
    cases hl
  · rw [hsome] at hl
    cases hl
    exact ⟨s, hs, hload, rfl⟩

/-- What the loaders return is what normalization builds on. -/
theorem strict_of_loadSessionEvidence {loads : String → Option Json} {selected : SelectedEvidence}
    {evidence : LoadedSessionEvidence} (h : loadSessionEvidence loads selected = .ok evidence) : evidence.Strict := by
  obtain ⟨-, ht, ha, hl, -⟩ := loadSessionEvidence_eq_ok.mp h
  constructor
  · intro t hmem
    obtain ⟨_, -, hload, -⟩ := exists_source_of_loaded ht t hmem
    obtain ⟨-, rows, -, hrows⟩ := loadTelemetryRecords_eq_ok.mp hload
    exact ⟨rows, hrows⟩
  · intro a hmem
    obtain ⟨_, -, hload, -⟩ := exists_source_of_loaded ha a hmem
    exact (loadAlarmEvents_eq_ok.mp hload).2.2.1
  · intro l hmem
    obtain ⟨_, -, hload, -⟩ := exists_source_of_loaded hl l hmem
    exact (Link.loadLinkEvents_eq_ok.mp hload).2.2

theorem reports_requireLinkSummary {link : Option (LoadedSource Link.LinkEvent)} (hnamed : ∀ l ∈ link, l.path.Named) :
    Reports (requireLinkSummary link) := by
  cases link with
  | none => exact reports_ok _
  | some l =>
    rw [requireLinkSummary]
    split_ifs
    · exact (reports_reraise (hnamed l rfl) (Link.catchable_validateRunSummary _)).map _
    · exact reports_ok _

/-- Loading named sources reports what it refuses as malformed evidence. -/
theorem reports_loadSessionEvidence (loads : String → Option Json) {selected : SelectedEvidence}
    (hnamed : selected.Named) : Reports (loadSessionEvidence loads selected) := by
  have hprovided : ¬(selected.telemetry.isNone && selected.linkEvents.isNone && selected.alarmEvents.isNone) = true := by
    have h := hnamed.provided
    simpa [and_assoc] using h
  rw [loadSessionEvidence, if_neg hprovided]
  refine (reports_loadSelected hnamed.telemetry (catchable_loadTelemetryRecords loads)).bind fun t _ => ?_
  refine (reports_loadSelected hnamed.alarmEvents (catchable_loadAlarmEvents loads)).bind fun a _ => ?_
  refine (reports_loadSelected hnamed.linkEvents (Link.catchable_loadLinkEvents loads)).bind fun l hl => ?_
  refine (reports_requireLinkSummary fun link hlink => ?_).bind fun _ _ => reports_ok _
  obtain ⟨source, hsource, -, hpath⟩ := exists_source_of_loaded hl link hlink
  exact hpath ▸ hnamed.linkEvents source hsource

theorem visible_of_named {loads : String → Option Json} {selected : SelectedEvidence} (hnamed : selected.Named)
    {evidence : LoadedSessionEvidence} (h : loadSessionEvidence loads selected = .ok evidence) :
    (∀ t ∈ evidence.telemetry, IsVisible (sourceName t.path)) ∧
      (∀ a ∈ evidence.alarmEvents, IsVisible (sourceName a.path)) ∧
      ∀ l ∈ evidence.linkEvents, IsVisible (sourceName l.path) := by
  have hvisible {α : Type} {lane : EvidenceLane} {source : Option EvidenceSource} {loader : TextFile → Result (List α)}
      {loaded : Option (LoadedSource α)} (h : loadSelected lane source loader = .ok loaded)
      (hsource : ∀ s ∈ source, s.path.Named) : ∀ l ∈ loaded, IsVisible (sourceName l.path) := by
    intro l hl
    obtain ⟨s, hs, -, hpath⟩ := exists_source_of_loaded h l hl
    exact hpath ▸ (hsource s hs).isVisible_sourceName
  obtain ⟨-, ht, ha, hl, -⟩ := loadSessionEvidence_eq_ok.mp h
  exact ⟨hvisible ht hnamed.telemetry, hvisible ha hnamed.alarmEvents, hvisible hl hnamed.linkEvents⟩

/-- Loaded named sources are normalized unless the first link event has a NUL in its session identity. -/
theorem normalizeLoadedSession_ok_of_named {loads : String → Option Json} {selected : SelectedEvidence}
    (hnamed : selected.Named) {evidence : LoadedSessionEvidence}
    (h : loadSessionEvidence loads selected = .ok evidence) : (∃ s, normalizeLoadedSession evidence = .ok s) ↔
      ∀ link ∈ evidence.linkEvents, ∀ event ∈ link.records.head?, hasNul event.sessionId = false := by
  obtain ⟨htelemetry, halarm, hlink⟩ := visible_of_named hnamed h
  rw [(normalizeLoadedSession_ok (strict_of_loadSessionEvidence h)).1, and_iff_right htelemetry, and_iff_right halarm]
  exact ⟨fun h l hmem event he => ((h l hmem).2 event he).2,
    fun h l hmem => ⟨hlink l hmem, fun event he => ⟨event.session_visible, h l hmem event he⟩⟩⟩

/-- A NUL in the session identity is refused by the descriptor. -/
theorem summarize_nul {name : String} (hname : IsVisible name) {lane : EvidenceLane} {schemaVersion : Option Nat}
    (hversion : ∀ v ∈ schemaVersion, 0 < v ∧ v ∈ (CONTRACT_SEMANTICS lane).readableSchemaVersions) {sessionId : String}
    (hblank : isBlank sessionId = false) (hnul : hasNul sessionId = true) (n : Nat) (completeness : SourceCompleteness)
    (present : Bool) (counters : List (String × Nat)) (metadata : Json) :
    summarize lane name n completeness schemaVersion (some sessionId) present counters metadata =
      .error (valueError "session_id must not contain NUL characters") := by
  have hsource : validateNonEmptyString "source_name" (.str name) = .ok ⟨name, hname.1, hname.2⟩ :=
    validateNonEmptyString_eq_ok.mpr rfl
  have hversion' : SourceDescriptor.requireReadable lane schemaVersion = .ok ⟨schemaVersion, hversion⟩ :=
    SourceDescriptor.requireReadable_eq_ok.mpr rfl
  have hsession : SourceDescriptor.requireSession (some sessionId) =
      .error (valueError "session_id must not contain NUL characters") := by
    simp only [SourceDescriptor.requireSession, validateNonEmptyString, requireVisible, hblank, hnul]
    rfl
  simp only [summarize, SourceDescriptor.new, bind, Except.bind, hsource, hversion', hsession]

/-- Normalization of named evidence with such a session identity raises a `ValueError`. -/
theorem normalizeLoadedSession_nul {loads : String → Option Json} {selected : SelectedEvidence}
    (hnamed : selected.Named) {evidence : LoadedSessionEvidence}
    (h : loadSessionEvidence loads selected = .ok evidence) {link : LoadedSource Link.LinkEvent}
    (hlink : link ∈ evidence.linkEvents) {event : Link.LinkEvent} (he : event ∈ link.records.head?)
    (hnul : hasNul event.sessionId = true) : normalizeLoadedSession evidence =
      .error (valueError "session_id must not contain NUL characters") := by
  have hstrict := strict_of_loadSessionEvidence h
  obtain ⟨htelemetry, halarm, hname⟩ := visible_of_named hnamed h
  obtain ⟨⟨telemetry, decoded⟩, ht⟩ := (telemetryLane_ok hstrict.telemetry).1.mpr htelemetry
  obtain ⟨alarm, ha⟩ := (hstrict.alarmLane_ok ht).1.mpr halarm
  obtain ⟨timeline, ds, metadata, -, -, -, heq⟩ := normalizeLink_eq link.path (hstrict.linkEvents link hlink)
  have hversion := readable_linkVersion link.records
  have hl : linkLane evidence.linkEvents = .error (valueError "session_id must not contain NUL characters") := by
    rw [Option.mem_def.mp hlink, linkLane, heq]
    rw [Option.mem_def.mp he] at hversion ⊢
    rw [Option.map_some] at hversion ⊢
    rw [Option.map_some, summarize_nul (hname link hlink) hversion event.session_visible hnul]
    rfl
  simp only [normalizeLoadedSession, bind, Except.bind, ht, ha, hl]

/-- The evidence is loaded and the first link event has a NUL in its session identity. -/
theorem nulSession_iff {loads : String → Option Json} {selected : SelectedEvidence} (hnamed : selected.Named) :
    selected.NulSession loads ↔ ∃ evidence, loadSessionEvidence loads selected = .ok evidence ∧
      ¬∀ link ∈ evidence.linkEvents, ∀ event ∈ link.records.head?, hasNul event.sessionId = false := by
  constructor
  · rintro ⟨ht, ha, source, hsource, first, rest, hl, hnul, hsummary⟩
    obtain ⟨telemetry, ht⟩ : ∃ t, loadSelected .TELEMETRY selected.telemetry (loadTelemetryRecords loads) = .ok t :=
      exists_loadSelected_iff.mpr ht
    obtain ⟨alarm, ha⟩ : ∃ a, loadSelected .ALARM selected.alarmEvents (loadAlarmEvents loads) = .ok a :=
      exists_loadSelected_iff.mpr ha
    have hlink : loadSelected .LINK selected.linkEvents (Link.loadLinkEvents loads) =
        .ok (some ⟨source.path, first :: rest⟩) :=
      loadSelected_eq_ok.mpr (.inr ⟨source, _, hsource, hl, rfl⟩)
    have hrequire : requireLinkSummary (some ⟨source.path, first :: rest⟩) = .ok () := by
      rw [requireLinkSummary]
      by_cases hpresent : linkSummaryPresent (first :: rest) = true
      · obtain ⟨s, hs⟩ := hsummary hpresent
        rw [if_pos hpresent, hs]
        rfl
      · rw [if_neg hpresent]
    refine ⟨⟨telemetry, alarm, some ⟨source.path, first :: rest⟩⟩,
      loadSessionEvidence_eq_ok.mpr ⟨hnamed.provided, ht, ha, hlink, hrequire⟩, fun h => ?_⟩
    have hclean := h _ rfl first rfl
    rw [hnul] at hclean
    cases hclean
  · rintro ⟨evidence, hev, hnul⟩
    obtain ⟨-, ht, ha, hl, hrequire⟩ := loadSessionEvidence_eq_ok.mp hev
    push Not at hnul
    obtain ⟨link, hlink, first, hfirst, hnul⟩ := hnul
    obtain ⟨rest, hrest⟩ := List.head?_eq_some_iff.mp hfirst
    obtain ⟨source, hsource, hload', -⟩ := exists_source_of_loaded hl link hlink
    rw [hrest] at hload'
    refine ⟨exists_loadSelected_iff.mp ⟨_, ht⟩, exists_loadSelected_iff.mp ⟨_, ha⟩, source, hsource, first, rest, hload',
      by simpa using hnul, fun hpresent => ?_⟩
    rw [Option.mem_def.mp hlink, requireLinkSummary, hrest, if_pos hpresent] at hrequire
    obtain ⟨s, hs, -⟩ := except_map_eq_ok.mp hrequire
    exact ⟨s, reraise_eq_ok.mp hs⟩

/-- Inspection ends as documented unless the loaders let a NUL in the session identity of a link log pass, and
normalization refuses loaded evidence for that reason only. -/
theorem inspectSession_documented_iff (loads : String → Option Json) {selected : SelectedEvidence}
    (hnamed : selected.Named) :
    (Documented (inspectSession loads selected) ↔ ¬selected.NulSession loads) ∧
      ∀ evidence, loadSessionEvidence loads selected = .ok evidence →
        ((∃ s, normalizeLoadedSession evidence = .ok s) ↔
          ∀ link ∈ evidence.linkEvents, ∀ event ∈ link.records.head?, hasNul event.sessionId = false) := by
  refine ⟨?_, fun evidence h => normalizeLoadedSession_ok_of_named hnamed h⟩
  rw [nulSession_iff hnamed]
  cases h : loadSessionEvidence loads selected with
  | error e =>
    obtain ⟨message, rfl⟩ := reports_loadSessionEvidence loads hnamed e h
    have hinspect : inspectSession loads selected = .error ⟨.malformedEvidenceError, message⟩ := by
      rw [inspectSession, h]
      rfl
    simp [Documented, hinspect]
  | ok evidence =>
    have hinspect : inspectSession loads selected = normalizeLoadedSession evidence := by
      rw [inspectSession, h]
      rfl
    have hok := normalizeLoadedSession_ok_of_named hnamed h
    simp only [Except.ok.injEq, exists_eq_left', not_not]
    rw [hinspect, ← hok]
    constructor
    · rintro (hs | ⟨message, hm⟩)
      · exact hs
      · refine hok.mpr fun link hlink event he => ?_
        by_contra hnul
        rw [normalizeLoadedSession_nul hnamed h hlink he (by simpa using hnul)] at hm
        cases hm
    · exact .inl

theorem inspectSession_written {loads : String → Option Json} {ds : List (Timestamp × Bytes)}
    (hloads : ∀ d ∈ ds, ReadsBack loads (recordJson d.1 d.2)) {path : EvidencePath} (hpath : path.Named) :
    ∃ s, inspectSession loads ⟨some ⟨path, ⟨ds.map fun d => (recordJson d.1 d.2).line, none⟩⟩, none, none⟩ = .ok s := by
  have hload : loadSessionEvidence loads ⟨some ⟨path, ⟨ds.map fun d => (recordJson d.1 d.2).line, none⟩⟩, none, none⟩ =
      .ok ⟨some ⟨path, indexRows (writtenRows 0 ds)⟩, none, none⟩ :=
    loadSessionEvidence_eq_ok.mpr ⟨(fun h => by cases h.1),
      loadSelected_eq_ok.mpr (.inr ⟨_, _, rfl, loadTelemetryRecords_written hloads, rfl⟩), rfl, rfl, rfl⟩
  obtain ⟨hok, -⟩ := normalizeLoadedSession_ok (strict_of_loadSessionEvidence hload)
  obtain ⟨s, hs⟩ := hok.mpr ⟨(fun _ h => by cases h; exact hpath.isVisible_sourceName), (fun _ h => by cases h),
    (fun _ h => by cases h)⟩
  exact ⟨s, except_bind_eq_ok.mpr ⟨_, hload, hs⟩⟩

/-- A rejected datagram between two packets of which the second skips a sequence. -/
def skipping : List (Timestamp × Bytes) :=
  [encoding nominalPacket, [], encoding { nominalPacket with sequence := 9 }].map fun raw => (zeroTimestamp, raw)

theorem loadTelemetryRecords_skipping :
    loadTelemetryRecords Json.loads ⟨skipping.map fun d => (recordJson d.1 d.2).line, none⟩ =
      .ok (indexRows (writtenRows 0 skipping)) :=
  loadTelemetryRecords_written fun _ _ => readsBack_recordJson _ _

theorem exists_skippingSession : ∃ s, inspectSession Json.loads
    ⟨some ⟨⟨"", "t.jsonl"⟩, ⟨skipping.map fun d => (recordJson d.1 d.2).line, none⟩⟩, none, none⟩ = .ok s :=
  inspectSession_written (fun _ _ => readsBack_recordJson _ _)
    (⟨by decide, by decide⟩ : EvidencePath.Named ⟨"", "t.jsonl"⟩)

/-- The log of a run, with the attributes of its events. -/
def linkLog : List Link.LinkEvent :=
  (Link.LinkEventStream.run Link.LinkEventStream.listSink Link.LinkEventStream.onePacketCalls
    Link.LinkEventStream.onePacketStream).sink

theorem loadLinkEvents_linkLog :
    Link.loadLinkEvents Json.loads ⟨linkLog.map fun e => e.toDict.line, none⟩ = .ok linkLog := by
  have hnew : Link.LinkEventStream.new "run" (.int 5) [] = .ok Link.LinkEventStream.onePacketStream := rfl
  have hrecords := (Link.LinkEventStream.records_new (S := Link.LinkEventStream.listSink) hnew).run
    Link.LinkEventStream.onePacketCalls
  exact Link.loadLinkEvents_written (Json.readsBack_of_lines Link.LinkEvent.readable rfl (by decide +kernel)) hrecords.grows

theorem requireLinkSummary_linkLog (path : EvidencePath) : requireLinkSummary (some ⟨path, linkLog⟩) = .ok () := by
  have hsummary : linkSummaryPresent linkLog = true := by decide +kernel
  obtain ⟨s, hs⟩ : ∃ s, Link.validateRunSummary linkLog = .ok s := by
    have hok : (Link.validateRunSummary linkLog).toBool = true := by decide +kernel
    cases h : Link.validateRunSummary linkLog with
    | error e =>
      rw [h] at hok
      cases hok
    | ok s => exact ⟨s, rfl⟩
  rw [requireLinkSummary, if_pos hsummary, hs]
  rfl

/-- The recording with the log. -/
def skippingSelected : SelectedEvidence where
  telemetry := some ⟨⟨"", "t.jsonl"⟩, ⟨skipping.map fun d => (recordJson d.1 d.2).line, none⟩⟩
  linkEvents := some ⟨⟨"", "l.jsonl"⟩, ⟨linkLog.map fun e => e.toDict.line, none⟩⟩
  alarmEvents := none

/-- What is loaded of them. -/
def skippingEvidence : LoadedSessionEvidence where
  telemetry := some ⟨⟨"", "t.jsonl"⟩, indexRows (writtenRows 0 skipping)⟩
  alarmEvents := none
  linkEvents := some ⟨⟨"", "l.jsonl"⟩, linkLog⟩

theorem loadSessionEvidence_skipping : loadSessionEvidence Json.loads skippingSelected = .ok skippingEvidence :=
  loadSessionEvidence_eq_ok.mpr ⟨(fun h => by cases h.1),
    loadSelected_eq_ok.mpr (.inr ⟨_, _, rfl, loadTelemetryRecords_skipping, rfl⟩), rfl,
    loadSelected_eq_ok.mpr (.inr ⟨_, _, rfl, loadLinkEvents_linkLog, rfl⟩), requireLinkSummary_linkLog _⟩

theorem named_skippingSelected : skippingSelected.Named := by
  refine ⟨(fun h => by cases h.1), ?_, ?_, (fun _ h => by cases h)⟩
  · rintro _ ⟨⟩
    exact ⟨by decide, by decide⟩
  · rintro _ ⟨⟩
    exact ⟨by decide, by decide⟩

/-- A recording with a rejected datagram and a gap, and a link log with a summary, are inspected. -/
theorem inspectSession_documented_iff_skipping : Documented (inspectSession Json.loads skippingSelected) ∧
    ∃ s, normalizeLoadedSession skippingEvidence = .ok s := by
  have hvisible : ∀ link ∈ skippingEvidence.linkEvents, ∀ event ∈ link.records.head?, hasNul event.sessionId = false := by
    rintro _ ⟨⟩ event hevent
    have hall : linkLog.all (fun event => hasNul event.sessionId == false) = true := by decide +kernel
    simpa using List.all_eq_true.mp hall event (List.mem_of_mem_head? hevent)
  obtain ⟨hdocumented, hnormal⟩ := inspectSession_documented_iff Json.loads named_skippingSelected
  refine ⟨hdocumented.mpr fun hnul => ?_, (hnormal _ loadSessionEvidence_skipping).mpr hvisible⟩
  obtain ⟨evidence, hevidence, hhas⟩ := (nulSession_iff named_skippingSelected).mp hnul
  rw [loadSessionEvidence_skipping] at hevidence
  exact hhas (Except.ok.inj hevidence ▸ hvisible)

/-- The first event of a link log under a session identity with a NUL. -/
def nulSessionEvent : Link.LinkEvent where
  sessionId := "a\x00"
  eventIndex := 0
  elapsedNs := 0
  eventType := .PACKET_RECEIVED
  packetIndex := some 0
  attributes := .ofItems [] (by simp)
  schemaVersion := 1
  session_visible := by decide
  schema_supported := .inl rfl
  metadata_shape := (nomatch ·)
  summary_shape := (nomatch ·)

/-- The log that holds this event. -/
def nulSessionLog : SelectedEvidence := ⟨none, some ⟨⟨"", "link.jsonl"⟩, ⟨[nulSessionEvent.toDict.line], none⟩⟩, none⟩

theorem loadSessionEvidence_singleEvent {e : Link.LinkEvent} (h : Link.LinkEvent.Next [] e)
    (hsummary : e.eventType ≠ .RUN_SUMMARY) (hwritable : e.toDict.Writable) (path : EvidencePath) :
    loadSessionEvidence Json.loads ⟨none, some ⟨path, ⟨[e.toDict.line], none⟩⟩, none⟩ =
      .ok ⟨none, none, some ⟨path, [e]⟩⟩ := by
  have hwritten := Link.loadLinkEvents_written (List.forall_mem_singleton.mpr (e.readable.readsBack hwritable)) ⟨h, trivial⟩
  rw [List.map_singleton] at hwritten
  have hpresent : linkSummaryPresent [e] = false := by simp [linkSummaryPresent, hsummary]
  refine loadSessionEvidence_eq_ok.mpr ⟨(fun h => by cases h.2.1), rfl, rfl,
    loadSelected_eq_ok.mpr (.inr ⟨_, _, rfl, hwritten, rfl⟩), ?_⟩
  rw [requireLinkSummary, if_neg (by rw [hpresent]; decide)]

/-- A NUL in a session identity passes the link loader, and inspection raises a `ValueError`. -/
theorem inspectSession_nulSession : nulSessionLog.Named ∧
    ¬Documented (inspectSession Json.loads nulSessionLog) := by
  have hnamed : nulSessionLog.Named := by
    refine ⟨(fun h => by cases h.2.1), (fun _ h => by cases h), ?_, (fun _ h => by cases h)⟩
    rintro _ ⟨⟩
    exact ⟨by decide, by decide⟩
  have hnext : Link.LinkEvent.Next [] nulSessionEvent :=
    ⟨rfl, (fun _ h => by cases h), (fun _ h => by cases h), (fun _ h => by cases h), (fun _ h => by cases h),
      (fun h => by cases h)⟩
  have hevidence : loadSessionEvidence Json.loads nulSessionLog = .ok _ :=
    loadSessionEvidence_singleEvent hnext (by decide) (by decide +kernel) ⟨"", "link.jsonl"⟩
  have hnul : hasNul nulSessionEvent.sessionId = true := by decide
  have hnormal := normalizeLoadedSession_nul hnamed hevidence rfl rfl hnul
  refine ⟨hnamed, ?_⟩
  rw [inspectSession, hevidence]
  rintro (⟨s, hs⟩ | ⟨message, hm⟩)
  · cases hnormal.symm.trans hs
  · cases hnormal.symm.trans hm

end OrbitOps.Session
