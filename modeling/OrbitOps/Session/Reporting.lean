import OrbitOps.Session.Inspection

/-!
# Session reports

A report is a projection of a normalized session: the timeline entries that the active filters keep,
at most as many as a limit, and the session's diagnostics with a notice when entries were left out.
Its constructor checks all of this; source summaries and counters stay those of the session.
-/

namespace OrbitOps.Session
open Py

def MAX_REPORT_EVENTS : Nat := 10000
def ALARM_SEVERITY_CHOICES : List String := ["warning", "critical"]

/-! ### Filters -/

/-- A name without NUL with a finite scalar. -/
structure ValidFilter (kv : String × Scalar) : Prop where
  nonempty : kv.1 ≠ ""
  noNul : hasNul kv.1 = false
  finite : kv.2.isFinite = true

structure Filters where
  dict : Dict Scalar
  valid : ∀ kv ∈ dict.items, ValidFilter kv

def checkFilter (kv : String × Scalar) : Result { kv : String × Scalar // ValidFilter kv } :=
  if hk : kv.1 = "" then .error (valueError "filter names must be non-empty strings")
  else if hn : hasNul kv.1 = false then
    if hv : kv.2.isFinite = true then .ok ⟨kv, hk, hn, hv⟩
    else .error (valueError ("filter " ++ reprText kv.1 ++ " must be finite"))
  else .error (valueError "filter names must not contain NUL characters")

def freezeFilters (filters : List (String × Scalar)) : Result Filters :=
  (filters.mapM checkFilter).map fun l => ⟨.ofItems (l.map Subtype.val), fun kv hkv => by
    obtain ⟨v, -, rfl⟩ := List.mem_map.mp (Dict.mem_ofItems hkv)
    exact v.2⟩

theorem checkFilter_eq_ok {kv : String × Scalar} {r : { kv : String × Scalar // ValidFilter kv }} :
    checkFilter kv = .ok r ↔ r.1 = kv := by
  constructor
  · intro h
    unfold checkFilter at h
    split_ifs at h
    cases h
    rfl
  · rintro rfl
    rw [checkFilter, dif_neg r.2.nonempty, dif_pos r.2.noNul, dif_pos r.2.finite]

theorem freezeFilters_eq_ok {filters : List (String × Scalar)} {f : Filters} :
    freezeFilters filters = .ok f ↔ (∀ kv ∈ filters, ValidFilter kv) ∧ f.dict = .ofItems filters := by
  obtain ⟨dict, hdict⟩ := f
  constructor
  · intro h
    cases hl : filters.mapM checkFilter with
    | error e =>
      rw [freezeFilters, hl] at h
      cases h
    | ok l =>
      rw [freezeFilters, hl] at h
      cases h
      have hall := except_mapM_eq_ok.mp hl
      have hmap : l.map Subtype.val = filters := by
        clear hl hdict
        induction hall with
        | nil => rfl
        | cons hkv _ ih => rw [List.map_cons, checkFilter_eq_ok.mp hkv, ih]
      refine ⟨fun kv hkv => ?_, by dsimp only; rw [hmap]⟩
      rw [← hmap] at hkv
      obtain ⟨v, -, rfl⟩ := List.mem_map.mp hkv
      exact v.2
  · rintro ⟨hvalid, rfl⟩
    have hl : filters.mapM checkFilter = .ok (filters.pmap (fun kv h => ⟨kv, h⟩) hvalid) := by
      rw [except_mapM_eq_ok]
      clear hdict
      induction filters with
      | nil => exact .nil
      | cons kv filters ih =>
        exact .cons (checkFilter_eq_ok.mpr rfl) (ih fun kv' h => hvalid kv' (List.mem_cons_of_mem _ h))
    have hval : (filters.pmap (fun kv h => (⟨kv, h⟩ : { kv : String × Scalar // ValidFilter kv })) hvalid).map Subtype.val =
        filters := by
      rw [List.map_pmap]
      exact List.pmap_eq_self.mpr fun _ _ => rfl
    simp only [freezeFilters, hl, Except.map, hval]

/-! ### The report -/

/-- The lane and the source index of an entry. -/
def TimelineEntry.key (e : TimelineEntry) : EvidenceLane × Nat := (e.lane, e.sourceIndex)

/-- `session_entries.get(key)`: of two entries with a key the later one. -/
def sessionEntry (timeline : List TimelineEntry) (key : EvidenceLane × Nat) : Option TimelineEntry :=
  timeline.reverse.find? fun e => e.key = key

/-- The session-level notice of a truncated timeline. -/
structure IsNotice (d : Diagnostic) : Prop where
  code : d.code = .TIMELINE_TRUNCATED
  severity : d.severity = .INFO
  lane : d.lane = none
  sourceIndex : d.sourceIndex = none
  relatedLane : d.relatedLane = none
  relatedSourceIndices : d.relatedSourceIndices = []

instance (d : Diagnostic) : Decidable (IsNotice d) :=
  decidable_of_iff (d.code = .TIMELINE_TRUNCATED ∧ d.severity = .INFO ∧ d.lane = none ∧ d.sourceIndex = none ∧
    d.relatedLane = none ∧ d.relatedSourceIndices = [])
    ⟨fun ⟨h1, h2, h3, h4, h5, h6⟩ => ⟨h1, h2, h3, h4, h5, h6⟩,
      fun h => ⟨h.code, h.severity, h.lane, h.sourceIndex, h.relatedLane, h.relatedSourceIndices⟩⟩

/-- `remaining_diagnostics` once the session's own were removed. -/
def remainingDiagnostics : List Diagnostic → List Diagnostic → Result (List Diagnostic)
  | remaining, [] => .ok remaining
  | remaining, d :: rest =>
    if d ∈ remaining then remainingDiagnostics (remaining.erase d) rest
    else .error (valueError "report diagnostics must preserve normalized session diagnostics")

/-- What is left and what was removed make up the diagnostics. -/
theorem perm_of_remainingDiagnostics {ds own remaining : List Diagnostic}
    (h : remainingDiagnostics ds own = .ok remaining) : ds.Perm (own ++ remaining) := by
  induction own generalizing ds with
  | nil =>
    cases h
    exact .refl _
  | cons d own ih =>
    rw [remainingDiagnostics] at h
    split_ifs at h with hd
    exact (List.perm_cons_erase hd).trans ((ih h).cons d)

/-- The diagnostics of a session and others leave the others. -/
theorem remainingDiagnostics_of_perm {ds own others : List Diagnostic} (h : ds.Perm (own ++ others)) :
    ∃ remaining, remainingDiagnostics ds own = .ok remaining ∧ remaining.Perm others := by
  induction own generalizing ds with
  | nil => exact ⟨ds, rfl, h⟩
  | cons d own ih =>
    have hd : d ∈ ds := h.mem_iff.mpr (List.mem_cons_self ..)
    have herase : (ds.erase d).Perm (own ++ others) := by
      have h' := h.erase d
      rwa [List.cons_append, List.erase_cons_head] at h'
    obtain ⟨remaining, hremaining, hperm⟩ := ih herase
    exact ⟨remaining, by rw [remainingDiagnostics, if_pos hd, hremaining], hperm⟩

theorem mem_of_sessionEntry {timeline : List TimelineEntry} {key : EvidenceLane × Nat} {e : TimelineEntry}
    (h : sessionEntry timeline key = some e) : e ∈ timeline :=
  List.mem_reverse.mp (List.mem_of_find?_eq_some h)

/-- The fields of a report other than its filters. -/
structure ReportData where
  session : NormalizedSession
  timeline : List TimelineEntry
  diagnostics : List Diagnostic
  timelineTotal : Nat
  timelineMatched : Nat
  truncated : Bool

namespace ReportData

/-- The checks of `SessionReport.__post_init__` before the filters are frozen. -/
def check (r : ReportData) : Result Unit :=
  if r.timelineTotal ≠ r.session.timeline.length then
    .error (valueError "timeline_total must equal the normalized session entry count")
  else if ¬r.timelineMatched ≤ r.timelineTotal then
    .error (valueError "timeline_matched must be between zero and timeline_total")
  else if r.timelineMatched < r.timeline.length then
    .error (valueError "rendered timeline cannot exceed matching timeline entries")
  else if ¬(r.timeline.map TimelineEntry.key).Nodup then
    .error (valueError "report timeline must not duplicate normalized session entries")
  else if ¬∀ e ∈ r.timeline, sessionEntry r.session.timeline e.key = some e then
    .error (valueError "report timeline must be a projection of the normalized session")
  else if sortedBy TimelineEntry.sortKey r.timeline ≠ r.timeline then
    .error (valueError "report timeline entries must use deterministic order")
  else if sortedBy Diagnostic.sortKey r.diagnostics ≠ r.diagnostics then
    .error (valueError "report diagnostics must use deterministic order")
  else if ¬r.diagnostics.Nodup then .error (valueError "report diagnostics must not contain duplicates")
  else do
    let remaining ← remainingDiagnostics r.diagnostics r.session.diagnostics
    if ¬∀ d ∈ remaining, IsNotice d then
      .error (valueError "report diagnostics may add only one session-level truncation notice")
    else if r.truncated ≠ decide (r.timeline.length < r.timelineMatched) then
      .error (valueError "truncated must reflect omitted matching timeline entries")
    else if remaining.length ≠ r.truncated.toNat then
      .error (valueError "truncation state requires exactly one truncation diagnostic")
    else .ok ()

/-- What passes the checks. -/
structure Valid (r : ReportData) : Prop where
  total : r.timelineTotal = r.session.timeline.length
  matched : r.timelineMatched ≤ r.timelineTotal
  rendered : r.timeline.length ≤ r.timelineMatched
  keys : (r.timeline.map TimelineEntry.key).Nodup
  projection : ∀ e ∈ r.timeline, sessionEntry r.session.timeline e.key = some e
  timeline_ordered : InOrder TimelineEntry.sortKey r.timeline
  diagnostics_ordered : InOrder Diagnostic.sortKey r.diagnostics
  diagnostics_distinct : r.diagnostics.Nodup
  omitted : r.truncated = decide (r.timeline.length < r.timelineMatched)
  notices : ∃ notices, r.diagnostics.Perm (r.session.diagnostics ++ notices) ∧ (∀ d ∈ notices, IsNotice d) ∧
    notices.length = r.truncated.toNat

theorem check_eq_ok {r : ReportData} : r.check = .ok () ↔ r.Valid := by
  simp only [check, except_guard_eq_ok, except_bind_eq_ok, ne_eq, not_not, not_lt, and_true]
  constructor
  · rintro ⟨htotal, hmatched, hrendered, hkeys, hprojection, htimeline, hdiagnostics, hdistinct, remaining, hremaining,
      hnotices, homitted, hone⟩
    exact {
      total := htotal
      matched := hmatched
      rendered := hrendered
      keys := hkeys
      projection := hprojection
      timeline_ordered := sortedBy_eq_self.mp htimeline
      diagnostics_ordered := sortedBy_eq_self.mp hdiagnostics
      diagnostics_distinct := hdistinct
      omitted := homitted
      notices := ⟨remaining, perm_of_remainingDiagnostics hremaining, hnotices, hone⟩ }
  · intro h
    obtain ⟨notices, hperm, hnotices, hone⟩ := h.notices
    obtain ⟨remaining, hremaining, hleft⟩ := remainingDiagnostics_of_perm hperm
    exact ⟨h.total, h.matched, h.rendered, h.keys, h.projection, h.timeline_ordered.sortedBy_eq,
      h.diagnostics_ordered.sortedBy_eq, h.diagnostics_distinct, remaining, hremaining,
      fun d hd => hnotices d (hleft.mem_iff.mp hd), h.omitted, hleft.length_eq.trans hone⟩

end ReportData

/-- One immutable report projection over a complete normalized session. -/
structure SessionReport extends ReportData where
  filters : Filters
  valid : toReportData.Valid

def SessionReport.new (data : ReportData) (filters : List (String × Scalar)) : Result SessionReport :=
  match h : data.check with
  | .error e => .error e
  | .ok () => do
    let filters ← freezeFilters filters
    return ⟨data, filters, ReportData.check_eq_ok.mp h⟩

theorem SessionReport.new_eq_ok {data : ReportData} {filters : List (String × Scalar)} {r : SessionReport} :
    SessionReport.new data filters = .ok r ↔ r.toReportData = data ∧ freezeFilters filters = .ok r.filters := by
  unfold SessionReport.new
  constructor
  · intro h
    split at h
    · cases h
    · obtain ⟨f, hf, h⟩ := except_bind_eq_ok.mp h
      cases h
      exact ⟨rfl, hf⟩
  · rintro ⟨rfl, hf⟩
    split
    · rename_i e he
      rw [ReportData.check_eq_ok.mpr r.valid] at he
      cases he
    · rw [hf]
      rfl

/-! ### The projection -/

def validatePacketSequenceFilter (name : String) : Json → Result (Option Nat)
  | .null => .ok none
  | .int n =>
    if 0 ≤ n ∧ n ≤ MAX_PACKET_SEQUENCE then .ok (some n.toNat)
    else .error (valueError (name ++ " must fit an unsigned 32-bit integer"))
  | _ => .error (typeError (name ++ " must be an integer or None"))

def validateAlarmCode : Json → Result (Option String)
  | .null => .ok none
  | .str s =>
    let normalized := strip s
    if normalized = "" then .error (valueError "alarm_code must be non-empty")
    else if hasNul normalized then .error (valueError "alarm_code must not contain NUL characters")
    else .ok (some normalized)
  | _ => .error (typeError "alarm_code must be a string or None")

def validateAlarmSeverity : Json → Result (Option String)
  | .null => .ok none
  | .str s =>
    if s ∈ ALARM_SEVERITY_CHOICES then .ok (some s)
    else .error (valueError ("alarm_severity must be one of: " ++ join ", " ALARM_SEVERITY_CHOICES))
  | _ => .error (typeError "alarm_severity must be a string or None")

def validateEventLimit : Json → Result (Option Nat)
  | .null => .ok none
  | .int n =>
    if 1 ≤ n ∧ n ≤ MAX_REPORT_EVENTS then .ok (some n.toNat)
    else .error (valueError ("event_limit must be between 1 and " ++ toString MAX_REPORT_EVENTS))
  | _ => .error (typeError "event_limit must be an integer or None")

structure TimelineFilters where
  packetSequenceMin : Option Nat
  packetSequenceMax : Option Nat
  alarmCode : Option String
  alarmSeverity : Option String

/-- The bounds of packet sequences that an entry has to keep. -/
def matchesSequence (f : TimelineFilters) (entry : TimelineEntry) : Bool :=
  if f.packetSequenceMin.isNone && f.packetSequenceMax.isNone then true
  else
    match entry.packetSequence with
    | none => false
    | some sequence =>
      f.packetSequenceMin.all (fun low => (low : Int) ≤ sequence) && f.packetSequenceMax.all fun high => sequence ≤ high

/-- The alarm attributes that an entry has to have. -/
def matchesAlarm (f : TimelineFilters) (entry : TimelineEntry) : Bool :=
  if f.alarmCode.isNone && f.alarmSeverity.isNone then true
  else entry.lane = .ALARM && f.alarmCode.all (fun code => entry.attributes.get "code" = .str code) &&
    f.alarmSeverity.all fun severity => entry.attributes.get "severity" = .str severity

def matchesTimelineFilters (f : TimelineFilters) (entry : TimelineEntry) : Bool :=
  matchesSequence f entry && matchesAlarm f entry

def truncationData (limit matched total : Nat) : DiagnosticData where
  code := .TIMELINE_TRUNCATED
  severity := .INFO
  message := "timeline rendering limited to " ++ toString limit ++ " of " ++ toString matched ++
    " matching entries; normalized session contains " ++ toString total ++ " entries"

/-- The filters that were given, by name. -/
def activeFilters (f : TimelineFilters) (limit : Option Nat) : List (String × Scalar) :=
  [("alarm_code", f.alarmCode.map Scalar.str), ("alarm_severity", f.alarmSeverity.map Scalar.str),
    ("event_limit", limit.map fun n : Nat => Scalar.int n), ("packet_sequence_max", f.packetSequenceMax.map fun n : Nat => Scalar.int n),
    ("packet_sequence_min", f.packetSequenceMin.map fun n : Nat => Scalar.int n)].filterMap fun kv => kv.2.map fun v => (kv.1, v)

/-- The report of the entries that validated filters keep. -/
def projectTimeline (session : NormalizedSession) (f : TimelineFilters) (limit : Option Nat) : Result SessionReport := do
  let matching := session.timeline.filter (matchesTimelineFilters f)
  let truncated := limit.any fun n => n < matching.length
  let timeline := match limit with
    | none => matching
    | some n => matching.take n
  let notices ← (if truncated then [truncationData (limit.getD 0) matching.length session.timeline.length] else []).mapM
    Diagnostic.new
  SessionReport.new {
    session := session
    timeline := timeline
    diagnostics := sortedBy Diagnostic.sortKey (session.diagnostics ++ notices)
    timelineTotal := session.timeline.length
    timelineMatched := matching.length
    truncated := truncated } (activeFilters f limit)

/-- `packet_sequence_min` above `packet_sequence_max`. -/
def boundsCrossed : Option Nat → Option Nat → Bool
  | some low, some high => high < low
  | _, _ => false

def projectSessionReport (session : NormalizedSession) (packetSequenceMin packetSequenceMax alarmCode alarmSeverity
    eventLimit : Json) : Result SessionReport := do
  let sequenceMin ← validatePacketSequenceFilter "packet_sequence_min" packetSequenceMin
  let sequenceMax ← validatePacketSequenceFilter "packet_sequence_max" packetSequenceMax
  if boundsCrossed sequenceMin sequenceMax then
    .error (valueError "packet_sequence_min must not exceed packet_sequence_max")
  else
    let code ← validateAlarmCode alarmCode
    let severity ← validateAlarmSeverity alarmSeverity
    let limit ← validateEventLimit eventLimit
    projectTimeline session ⟨sequenceMin, sequenceMax, code, severity⟩ limit

/-- What a projection holds. -/
structure Projects (session : NormalizedSession) (f : TimelineFilters) (limit : Option Nat) (r : SessionReport) : Prop where
  ofSession : r.session = session
  timeline : r.timeline = match limit with
    | none => session.timeline.filter (matchesTimelineFilters f)
    | some n => (session.timeline.filter (matchesTimelineFilters f)).take n
  timelineMatched : r.timelineMatched = (session.timeline.filter (matchesTimelineFilters f)).length
  filters : r.filters.dict = .ofItems (activeFilters f limit)

theorem projects_of_projectTimeline {session : NormalizedSession} {f : TimelineFilters} {limit : Option Nat}
    {r : SessionReport} (h : projectTimeline session f limit = .ok r) : Projects session f limit r := by
  obtain ⟨notices, -, h⟩ := except_bind_eq_ok.mp h
  obtain ⟨hdata, hfilters⟩ := SessionReport.new_eq_ok.mp h
  exact ⟨congrArg ReportData.session hdata, congrArg ReportData.timeline hdata,
    congrArg ReportData.timelineMatched hdata, (freezeFilters_eq_ok.mp hfilters).2⟩

/-- A report is the projection of its session by validated filters. -/
theorem projects_of_projectSessionReport {session : NormalizedSession} {packetSequenceMin packetSequenceMax alarmCode
    alarmSeverity eventLimit : Json} {r : SessionReport} (h : projectSessionReport session packetSequenceMin
      packetSequenceMax alarmCode alarmSeverity eventLimit = .ok r) : ∃ f limit, Projects session f limit r := by
  obtain ⟨low, -, h⟩ := except_bind_eq_ok.mp h
  obtain ⟨high, -, h⟩ := except_bind_eq_ok.mp h
  split_ifs at h
  obtain ⟨code, -, h⟩ := except_bind_eq_ok.mp h
  obtain ⟨severity, -, h⟩ := except_bind_eq_ok.mp h
  obtain ⟨limit, -, h⟩ := except_bind_eq_ok.mp h
  exact ⟨_, _, projects_of_projectTimeline h⟩

end OrbitOps.Session
