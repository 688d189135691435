import OrbitOps.Session.Consistency

/-!
# Selections

What a selection of a session reports: the entries that satisfy every filter it sets, in the order of the
session and up to its limit, and with a truncated timeline one notice beside the diagnostics of the session.
-/

namespace OrbitOps.Session
open Py

/-- The arguments of a projection; those that are `None` set no filter. -/
structure Selection where
  packetSequenceMin : Option Nat := none
  packetSequenceMax : Option Nat := none
  alarmCode : Option String := none
  alarmSeverity : Option String := none
  eventLimit : Option Nat := none

namespace Selection

structure Valid (a : Selection) : Prop where
  packetSequenceMin : ∀ low ∈ a.packetSequenceMin, low ≤ MAX_PACKET_SEQUENCE
  packetSequenceMax : ∀ high ∈ a.packetSequenceMax, high ≤ MAX_PACKET_SEQUENCE
  bounds : ∀ low ∈ a.packetSequenceMin, ∀ high ∈ a.packetSequenceMax, low ≤ high
  alarmCode : ∀ code ∈ a.alarmCode, strip code ≠ "" ∧ hasNul (strip code) = false
  alarmSeverity : ∀ severity ∈ a.alarmSeverity, severity ∈ ALARM_SEVERITY_CHOICES
  eventLimit : ∀ n ∈ a.eventLimit, 1 ≤ n ∧ n ≤ MAX_REPORT_EVENTS

/-- An entry satisfies every filter that is set. -/
structure Satisfied (a : Selection) (e : TimelineEntry) : Prop where
  packetSequenceMin : ∀ low ∈ a.packetSequenceMin, ∃ n ∈ e.packetSequence, (low : Int) ≤ n
  packetSequenceMax : ∀ high ∈ a.packetSequenceMax, ∃ n ∈ e.packetSequence, n ≤ (high : Int)
  alarmCode : ∀ code ∈ a.alarmCode, e.lane = .ALARM ∧ e.attributes.get "code" = .str (strip code)
  alarmSeverity : ∀ severity ∈ a.alarmSeverity, e.lane = .ALARM ∧ e.attributes.get "severity" = .str severity

def filters (a : Selection) : TimelineFilters :=
  ⟨a.packetSequenceMin, a.packetSequenceMax, a.alarmCode.map strip, a.alarmSeverity⟩

theorem matchesSequence_iff {a : Selection} {e : TimelineEntry} : matchesSequence a.filters e = true ↔
    (∀ low ∈ a.packetSequenceMin, ∃ n ∈ e.packetSequence, (low : Int) ≤ n) ∧
      ∀ high ∈ a.packetSequenceMax, ∃ n ∈ e.packetSequence, n ≤ (high : Int) := by
  rcases a with ⟨low, high, _, _, _⟩
  rcases h : e.packetSequence with - | n <;> cases low <;> cases high <;> simp [matchesSequence, filters, h]

theorem matchesAlarm_iff {a : Selection} {e : TimelineEntry} : matchesAlarm a.filters e = true ↔
    (∀ code ∈ a.alarmCode, e.lane = .ALARM ∧ e.attributes.get "code" = .str (strip code)) ∧
      ∀ severity ∈ a.alarmSeverity, e.lane = .ALARM ∧ e.attributes.get "severity" = .str severity := by
  rcases a with ⟨_, _, code, severity, _⟩
  rcases code with - | code <;> rcases severity with - | severity <;> simp [matchesAlarm, filters, and_assoc]
  exact fun h _ _ => h

theorem matchesTimelineFilters_iff {a : Selection} {e : TimelineEntry} :
    matchesTimelineFilters a.filters e = true ↔ a.Satisfied e := by
  rw [matchesTimelineFilters, Bool.and_eq_true, matchesSequence_iff, matchesAlarm_iff]
  exact ⟨fun ⟨⟨h1, h2⟩, h3, h4⟩ => ⟨h1, h2, h3, h4⟩, fun h =>
    ⟨⟨h.packetSequenceMin, h.packetSequenceMax⟩, h.alarmCode, h.alarmSeverity⟩⟩

instance (a : Selection) (e : TimelineEntry) : Decidable (a.Satisfied e) :=
  decidable_of_iff (matchesTimelineFilters a.filters e = true) matchesTimelineFilters_iff

/-- The entries of a session that satisfy every filter. -/
def matched (a : Selection) (s : NormalizedSession) : List TimelineEntry := s.timeline.filter fun e => a.Satisfied e

theorem matched_eq (a : Selection) (s : NormalizedSession) :
    s.timeline.filter (matchesTimelineFilters a.filters) = a.matched s :=
  List.filter_congr fun e _ => by
    rw [Bool.eq_iff_iff, matchesTimelineFilters_iff, decide_eq_true_iff]

/-- The limit is no filter. -/
theorem matched_unlimited (a : Selection) (s : NormalizedSession) : { a with eventLimit := none }.matched s = a.matched s :=
  List.filter_congr fun e _ => by
    have hiff : { a with eventLimit := none }.Satisfied e ↔ a.Satisfied e :=
      ⟨fun ⟨h1, h2, h3, h4⟩ => ⟨h1, h2, h3, h4⟩, fun ⟨h1, h2, h3, h4⟩ => ⟨h1, h2, h3, h4⟩⟩
    rw [Bool.eq_iff_iff, decide_eq_true_iff, decide_eq_true_iff, hiff]

def optionalStr : Option String → Json
  | none => .null
  | some s => .str s

def optionalNat : Option Nat → Json
  | none => .null
  | some n => .int n

def report (a : Selection) (s : NormalizedSession) : Result SessionReport :=
  projectSessionReport s (optionalNat a.packetSequenceMin) (optionalNat a.packetSequenceMax) (optionalStr a.alarmCode)
    (optionalStr a.alarmSeverity) (optionalNat a.eventLimit)

theorem validatePacketSequenceFilter_ok (name : String) {v : Option Nat} (h : ∀ n ∈ v, n ≤ MAX_PACKET_SEQUENCE) :
    validatePacketSequenceFilter name (optionalNat v) = .ok v := by
  rcases v with - | n
  · rfl
  · exact if_pos ⟨Int.natCast_nonneg n, Int.ofNat_le.mpr (h n rfl)⟩

/-- The validators accept a valid selection. -/
theorem Valid.accepted {a : Selection} (h : a.Valid) : Accepted (optionalNat a.packetSequenceMin)
    (optionalNat a.packetSequenceMax) (optionalStr a.alarmCode) (optionalStr a.alarmSeverity) (optionalNat a.eventLimit)
    a.filters a.eventLimit := by
  rcases a with ⟨low, high, code, severity, limit⟩
  constructor
  case packetSequenceMin => exact validatePacketSequenceFilter_ok _ h.packetSequenceMin
  case packetSequenceMax => exact validatePacketSequenceFilter_ok _ h.packetSequenceMax
  case bounds =>
    rcases low with - | low
    · rfl
    rcases high with - | high
    · rfl
    exact decide_eq_false (not_lt.mpr (h.bounds low rfl high rfl))
  case alarmCode =>
    rcases code with - | code
    · rfl
    obtain ⟨hne, hnul⟩ := h.alarmCode code rfl
    simp [validateAlarmCode, optionalStr, filters, hne, hnul]
  case alarmSeverity =>
    rcases severity with - | severity
    · rfl
    exact if_pos (h.alarmSeverity severity rfl)
  case eventLimit =>
    rcases limit with - | n
    · rfl
    obtain ⟨hpos, hle⟩ := h.eventLimit n rfl
    exact if_pos ⟨Int.ofNat_le.mpr hpos, Int.ofNat_le.mpr hle⟩

/-- What a selection reports of a session. -/
structure Reports (a : Selection) (s : NormalizedSession) (r : SessionReport) : Prop where
  session : r.session = s
  timelineMatched : r.timelineMatched = (a.matched s).length
  timeline : r.timeline = (a.matched s).take (min (a.eventLimit.getD (a.matched s).length) (a.matched s).length)
  diagnostics : ∃ notices, r.diagnostics.Perm (s.diagnostics ++ notices) ∧
    notices.map Diagnostic.toDiagnosticData = if ∃ n ∈ a.eventLimit, n < (a.matched s).length then
      [truncationData (a.eventLimit.getD 0) (a.matched s).length s.timeline.length] else []
  notices : r.diagnostics.countP (fun d => d.code = .TIMELINE_TRUNCATED) =
    if ∃ n ∈ a.eventLimit, n < (a.matched s).length then 1 else 0

/-- A parameter of two selections at once: that of the one that sets it, if any. -/
def Both {α : Type} (x y z : Option α) : Prop := y = none ∧ z = x ∨ x = none ∧ z = y

theorem Both.forall_mem_iff {α : Type} {x y z : Option α} (h : Both x y z) (P : α → Prop) :
    (∀ v ∈ z, P v) ↔ (∀ v ∈ x, P v) ∧ ∀ v ∈ y, P v := by
  rcases h with ⟨rfl, rfl⟩ | ⟨rfl, rfl⟩ <;> simp

/-- The filters of two selections at once, no filter being set by both. -/
structure Combines (a b both : Selection) : Prop where
  packetSequenceMin : Both a.packetSequenceMin b.packetSequenceMin both.packetSequenceMin
  packetSequenceMax : Both a.packetSequenceMax b.packetSequenceMax both.packetSequenceMax
  alarmCode : Both a.alarmCode b.alarmCode both.alarmCode
  alarmSeverity : Both a.alarmSeverity b.alarmSeverity both.alarmSeverity

theorem Combines.satisfied_iff {a b both : Selection} (h : Combines a b both) (e : TimelineEntry) :
    both.Satisfied e ↔ a.Satisfied e ∧ b.Satisfied e := by
  constructor
  · rintro ⟨hmin, hmax, hcode, hseverity⟩
    obtain ⟨hmin, hmin'⟩ := (h.packetSequenceMin.forall_mem_iff _).mp hmin
    obtain ⟨hmax, hmax'⟩ := (h.packetSequenceMax.forall_mem_iff _).mp hmax
    obtain ⟨hcode, hcode'⟩ := (h.alarmCode.forall_mem_iff _).mp hcode
    obtain ⟨hseverity, hseverity'⟩ := (h.alarmSeverity.forall_mem_iff _).mp hseverity
    exact ⟨⟨hmin, hmax, hcode, hseverity⟩, hmin', hmax', hcode', hseverity'⟩
  · rintro ⟨ha, hb⟩
    exact {
      packetSequenceMin := (h.packetSequenceMin.forall_mem_iff _).mpr ⟨ha.packetSequenceMin, hb.packetSequenceMin⟩
      packetSequenceMax := (h.packetSequenceMax.forall_mem_iff _).mpr ⟨ha.packetSequenceMax, hb.packetSequenceMax⟩
      alarmCode := (h.alarmCode.forall_mem_iff _).mpr ⟨ha.alarmCode, hb.alarmCode⟩
      alarmSeverity := (h.alarmSeverity.forall_mem_iff _).mpr ⟨ha.alarmSeverity, hb.alarmSeverity⟩ }

/-- Two selections at once match what each of them matches. -/
theorem Combines.matched_eq {a b both : Selection} (h : Combines a b both) (s : NormalizedSession) :
    both.matched s = (a.matched s).filter fun e => e ∈ b.matched s := by
  unfold matched
  rw [List.filter_filter]
  refine List.filter_congr fun e he => ?_
  have hb : (e ∈ s.timeline.filter fun e => b.Satisfied e) ↔ b.Satisfied e := by simp [he]
  rw [Bool.eq_iff_iff, Bool.and_eq_true, decide_eq_true_iff, decide_eq_true_iff, decide_eq_true_iff, h.satisfied_iff, hb,
    and_comm]

end Selection

/-! ### Reports of selections -/

/-- The notice of a truncated timeline is the only diagnostic that a projection adds. -/
theorem notices_of_projectTimeline {session : NormalizedSession} {f : TimelineFilters} {limit : Option Nat}
    {r : SessionReport} (h : projectTimeline session f limit = .ok r) : ∃ notices,
      r.diagnostics.Perm (session.diagnostics ++ notices) ∧ notices.map Diagnostic.toDiagnosticData =
        if limit.any fun n => n < (session.timeline.filter (matchesTimelineFilters f)).length then
          [truncationData (limit.getD 0) (session.timeline.filter (matchesTimelineFilters f)).length session.timeline.length]
        else [] := by
  obtain ⟨notices, hnotices, h⟩ := except_bind_eq_ok.mp h
  obtain ⟨hdata, -⟩ := SessionReport.new_eq_ok.mp h
  have hvalid : ∀ d ∈ (if limit.any fun n => n < (session.timeline.filter (matchesTimelineFilters f)).length then
      [truncationData (limit.getD 0) (session.timeline.filter (matchesTimelineFilters f)).length session.timeline.length]
      else []), d.Valid := by
    intro d hd
    split_ifs at hd
    · exact List.mem_singleton.mp hd ▸ valid_truncationData ..
    · cases hd
  obtain ⟨notices', hnotices', hmap⟩ := Diagnostic.mapM_new_ok hvalid
  obtain rfl := Except.ok.inj (hnotices.symm.trans hnotices')
  exact ⟨notices, congrArg ReportData.diagnostics hdata ▸ sortedBy_perm _ _, hmap⟩

theorem Selection.reports_of_projectTimeline {a : Selection} {s : NormalizedSession} {r : SessionReport}
    (hcode : ∀ d ∈ s.diagnostics, d.code ≠ .TIMELINE_TRUNCATED) (h : projectTimeline s a.filters a.eventLimit = .ok r) :
    a.Reports s r := by
  have hprojects := projects_of_projectTimeline h
  obtain ⟨notices, hperm, hmap⟩ := notices_of_projectTimeline h
  have hlimit : (a.eventLimit.any fun n => n < (a.matched s).length) = true ↔
      ∃ n ∈ a.eventLimit, n < (a.matched s).length := by
    rw [Option.any_eq_true]
    simp
  rw [matched_eq] at hmap
  simp only [hlimit] at hmap
  constructor
  case session => exact hprojects.ofSession
  case timelineMatched => rw [hprojects.timelineMatched, matched_eq]
  case timeline =>
    rw [hprojects.timeline, matched_eq]
    rcases a.eventLimit with - | n
    · simp
    · simp [List.take_eq_take_iff]
  case diagnostics => exact ⟨notices, hperm, hmap⟩
  case notices =>
    have hown : s.diagnostics.countP (fun d => d.code = .TIMELINE_TRUNCATED) = 0 :=
      List.countP_eq_zero.mpr fun d hd => by simpa using hcode d hd
    have hadded : notices.countP (fun d => d.code = .TIMELINE_TRUNCATED) =
        (notices.map Diagnostic.toDiagnosticData).countP (fun d => d.code = .TIMELINE_TRUNCATED) := by
      rw [List.countP_map]
      rfl
    rw [hperm.countP_eq, List.countP_append, hown, Nat.zero_add, hadded, hmap]
    split_ifs <;> rfl

/-- Every valid selection of an inspected session is reported, and two at once report what each of them does. -/
theorem report_of_inspectSession {loads : String → Option Json} {selected : SelectedEvidence} {s : NormalizedSession}
    (hs : inspectSession loads selected = .ok s) :
    (∀ a : Selection, a.Valid → ∃ r, a.report s = .ok r ∧ a.Reports s r) ∧
    ∀ a b both : Selection, a.Valid → b.Valid → both.Valid → Selection.Combines a b both → ∃ ra rb rboth,
      { a with eventLimit := none }.report s = .ok ra ∧ { b with eventLimit := none }.report s = .ok rb ∧
      { both with eventLimit := none }.report s = .ok rboth ∧
      rboth.timeline = ra.timeline.filter fun e => e ∈ rb.timeline := by
  obtain ⟨evidence, hload, hnormal⟩ := except_bind_eq_ok.mp hs
  have hstrict := strict_of_loadSessionEvidence hload
  obtain ⟨telemetry, decoded, alarm, link, ho⟩ := (normalizeLoadedSession_ok hstrict).2 s hnormal
  have hreport (a : Selection) (ha : a.Valid) : ∃ r, a.report s = .ok r ∧ a.Reports s r := by
    obtain ⟨r, hr⟩ := projectTimeline_ok ho.nodup_keys (ho.nodup_diagnostics hstrict) ho.not_truncated a.filters a.eventLimit
    exact ⟨r, (ha.accepted.projectSessionReport_eq s).trans hr, Selection.reports_of_projectTimeline ho.not_truncated hr⟩
  refine ⟨hreport, fun a b both ha hb hboth hcombines => ?_⟩
  have hunlimited (a : Selection) (ha : a.Valid) : ∃ r, { a with eventLimit := none }.report s = .ok r ∧
      r.timeline = a.matched s := by
    obtain ⟨r, hr, hreports⟩ := hreport { a with eventLimit := none } { ha with eventLimit := fun n hn => by cases hn }
    refine ⟨r, hr, hreports.timeline.trans ?_⟩
    rw [Option.getD_none, Nat.min_self, List.take_length, Selection.matched_unlimited]
  obtain ⟨ra, hra, hta⟩ := hunlimited a ha
  obtain ⟨rb, hrb, htb⟩ := hunlimited b hb
  obtain ⟨rboth, hrboth, htboth⟩ := hunlimited both hboth
  refine ⟨ra, rb, rboth, hra, hrb, hrboth, ?_⟩
  rw [htboth, hta, htb, hcombines.matched_eq]

theorem report_of_inspectSession_skipping : ∃ s r,
    inspectSession Json.loads ⟨some ⟨⟨"", "t.jsonl"⟩, ⟨skipping.map fun d => (recordJson d.1 d.2).line, none⟩⟩, none, none⟩ =
      .ok s ∧
    { packetSequenceMin := some 1, eventLimit := some 1 : Selection }.report s = .ok r ∧
    { packetSequenceMin := some 1, eventLimit := some 1 : Selection }.Reports s r := by
  obtain ⟨s, hs⟩ := exists_skippingSession
  have hvalid : { packetSequenceMin := some 1, eventLimit := some 1 : Selection }.Valid := by
    constructor <;> simp [MAX_PACKET_SEQUENCE, MAX_REPORT_EVENTS]
  obtain ⟨r, hr, hreports⟩ := (report_of_inspectSession hs).1 _ hvalid
  exact ⟨s, r, hs, hr, hreports⟩

end OrbitOps.Session
