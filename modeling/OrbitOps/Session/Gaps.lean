import OrbitOps.Py.Adjacent
import OrbitOps.Receiver
import OrbitOps.Session.Evidence

/-!
# Sequence gaps, live and inspected

The alarm engine compares each packet with the last sequence it saw; inspection compares neighbours of
the decoded records. Both look at the same pairs. The engine alone reports a repeated sequence, so its
gaps are the inspected ones and the immediate repetitions.
-/

namespace OrbitOps
open Py

/-! ### The engine -/

namespace AlarmEngine
variable {α : Type} [FloatLike α]

/-- What the engine emits for a packet after a sequence that it does not follow. -/
def gapTransition (previous : Int) (packet : DecodedPacket) : AlarmTransition α where
  severity := .WARNING
  code := "SEQUENCE_GAP"
  message := s!"expected sequence {Session.expectedSequence previous}, received {packet.sequence}"
  identity := .sequenceGap
  transition := .RAISED
  observedValue := .int packet.sequence
  threshold := .int (Session.expectedSequence previous)

theorem evaluateSequence_fst {e : AlarmEngine α} (hdetect : e.policy.sequence.detectGaps = true) (p : DecodedPacket) :
    (e.evaluateSequence p).1 = (e.lastSequence.filter fun last => p.sequence ≠ Session.expectedSequence last).map
      fun last => gapTransition last p := by
  unfold evaluateSequence
  rw [hdetect]
  cases e.lastSequence with
  | none => rfl
  | some last =>
    have hexpected : (last + 1) % 2 ^ 32 = Session.expectedSequence last := rfl
    rw [Option.map_some, hexpected]
    by_cases h : p.sequence = Session.expectedSequence last
    · simp [h]
    · simp [h, gapTransition]

theorem code_of_mem_evaluateSequence {e : AlarmEngine α} {p : DecodedPacket} {t : AlarmTransition α}
    (ht : t ∈ (e.evaluateSequence p).1) : t.code = "SEQUENCE_GAP" := by
  unfold evaluateSequence at ht
  cases hlast : e.lastSequence with
  | none => simp [hlast] at ht
  | some last =>
    rw [hlast] at ht
    dsimp only [Option.map_some] at ht
    split_ifs at ht
    · cases ht
    · cases ht; rfl

theorem code_of_mem_evaluateTemperature {e : AlarmEngine α} {p : DecodedPacket} {t : AlarmTransition α}
    (ht : t ∈ (e.evaluateTemperature p).1) : t.code ≠ "SEQUENCE_GAP" := by
  have hcode (severity : AlarmSeverity) : temperatureCode severity ≠ "SEQUENCE_GAP" := by cases severity <;> decide
  unfold evaluateTemperature at ht
  dsimp only at ht
  split_ifs at ht
  · cases ht
  · split at ht
    · cases ht; exact hcode _
    · cases ht; exact hcode _
    · cases ht; exact hcode _
    · cases ht

theorem code_of_mem_evaluateBattery {e : AlarmEngine α} {p : DecodedPacket} {t : AlarmTransition α}
    (ht : t ∈ (e.evaluateBattery p).1) : t.code ≠ "SEQUENCE_GAP" := by
  unfold evaluateBattery at ht
  dsimp only at ht
  split_ifs at ht
  · cases ht
  · cases ht; simp
  · cases ht; simp

theorem code_of_mem_evaluateMode {e : AlarmEngine α} {p : DecodedPacket} {t : AlarmTransition α}
    (ht : t ∈ (e.evaluateMode p).1) : t.code ≠ "SEQUENCE_GAP" := by
  unfold evaluateMode at ht
  dsimp only at ht
  split_ifs at ht
  · cases ht
  · cases ht; simp
  · cases ht; simp

/-- Only the sequence check emits under the code of a gap. -/
theorem filter_evaluate (e : AlarmEngine α) (p : DecodedPacket) :
    (e.evaluate p).1.filter (fun t => t.code = "SEQUENCE_GAP") = (e.evaluateSequence p).1.toList := by
  have hnone {o : Option (AlarmTransition α)} (h : ∀ t ∈ o, t.code ≠ "SEQUENCE_GAP") :
      o.toList.filter (fun t => t.code = "SEQUENCE_GAP") = [] :=
    List.filter_eq_nil_iff.mpr fun t ht => by simpa using h t (Option.mem_toList.mp ht)
  rw [evaluate_fst, List.filter_append, List.filter_append, List.filter_append,
    hnone fun _ => code_of_mem_evaluateTemperature, hnone fun _ => code_of_mem_evaluateBattery,
    hnone fun _ => code_of_mem_evaluateMode, List.append_nil, List.append_nil, List.append_nil]
  exact List.filter_eq_self.mpr fun t ht => by simpa using code_of_mem_evaluateSequence (Option.mem_toList.mp ht)

theorem lastSequence_after (policy : AlarmPolicy α) (ps : List DecodedPacket) :
    (after policy ps).lastSequence = ps.getLast?.map fun p => p.sequence := by
  induction ps using List.reverseRecOn with
  | nil => rfl
  | append_singleton ps p _ => rw [after_concat, advance_eq, List.getLast?_concat, Option.map_some]

/-- The gaps that the engine emits for a packet after others. -/
theorem gaps_after {policy : AlarmPolicy α} (hdetect : policy.sequence.detectGaps = true) (ps : List DecodedPacket)
    (p : DecodedPacket) : ((after policy ps).evaluate p).1.filter (fun t => t.code = "SEQUENCE_GAP") =
      (((ps.map fun q => q.sequence).getLast?.filter fun last => p.sequence ≠ Session.expectedSequence last).map
        fun last => gapTransition last p).toList := by
  rw [filter_evaluate, evaluateSequence_fst (by rw [policy_after]; exact hdetect), lastSequence_after, List.getLast?_map]

/-- Over a stream there is a gap for every two neighbours of which the second does not follow the first. -/
theorem countP_transitions {policy : AlarmPolicy α} (hdetect : policy.sequence.detectGaps = true)
    (ps : List DecodedPacket) : ((new policy).transitions ps).countP (fun t => t.code = "SEQUENCE_GAP") =
      (adjacent (ps.map fun q => q.sequence)).countP fun pair => pair.2 ≠ Session.expectedSequence pair.1 := by
  induction ps using List.reverseRecOn with
  | nil => rfl
  | append_singleton ps p ih =>
    have hstep := congrArg List.length (gaps_after hdetect ps p)
    rw [← List.countP_eq_length_filter] at hstep
    rw [transitions_concat, List.countP_append, ih, hstep, List.map_append, List.map_singleton, adjacent_concat,
      List.countP_append]
    congr 1
    cases (ps.map fun q => q.sequence).getLast? with
    | none => rfl
    | some last => by_cases h : p.sequence = Session.expectedSequence last <;> simp [h]

end AlarmEngine

/-! ### The inspected recording -/

namespace Session

/-- The packets of the records that decode. -/
def recordedPackets (records : List RecordedTelemetryRecord) : List DecodedPacket :=
  decodedPackets (records.map fun r => r.packet)

theorem sequences_decodedPairs (records : List RecordedTelemetryRecord) :
    (decodedPairs records).map Prod.snd = (recordedPackets records).map fun p => p.sequence := by
  induction records with
  | nil => rfl
  | cons record records ih =>
    cases h : decodePacket record.packet with
    | ok p =>
      rw [decodedPairs, recordedPackets, List.map_cons, decodedPackets_cons_ok h,
        List.filterMap_cons_some (b := (record.recordIndex, p.sequence)) (by simp [h, Except.toOption])]
      exact congrArg (p.sequence :: ·) ih
    | error e =>
      rw [decodedPairs, recordedPackets, List.map_cons, decodedPackets_cons_error h,
        List.filterMap_cons_none (by simp [h, Except.toOption])]
      exact ih

theorem expectedSequence_ne (n : Int) : expectedSequence n ≠ n := by
  unfold expectedSequence MAX_PACKET_SEQUENCE
  omega

/-- A pair that is no succession is a gap or a repetition. -/
theorem countP_isGap_add_repeats (decoded : List (Nat × Int)) :
    (adjacent (decoded.map Prod.snd)).countP (fun pair => pair.2 ≠ expectedSequence pair.1) =
      (gapPairs decoded).length + repeats (decoded.map Prod.snd) := by
  have hpairs : adjacent decoded = decoded.zip decoded.tail := rfl
  rw [repeats, adjacent_map, List.countP_map, List.countP_map, gapPairs, ← hpairs, ← List.countP_eq_length_filter]
  induction adjacent decoded with
  | nil => rfl
  | cons pair pairs ih =>
    obtain ⟨⟨i, a⟩, ⟨j, b⟩⟩ := pair
    rw [List.countP_cons, List.countP_cons, List.countP_cons, ih]
    have hne := expectedSequence_ne a
    by_cases hrepeat : a = b
    · subst hrepeat
      simp [isGap, hne.symm]
      omega
    · by_cases hnext : b = expectedSequence a
      · simp [isGap, hnext, hne.symm]
      · simp [isGap, hnext, hrepeat, Ne.symm hrepeat]
        omega

theorem length_indicesOf (decoded : List (Nat × Int)) (sequence : Int) :
    (indicesOf decoded sequence).length = (decoded.map Prod.snd).count sequence := by
  rw [indicesOf, List.length_map, List.count, List.countP_map, List.countP_eq_length_filter]
  refine congrArg List.length (List.filter_congr fun pair _ => ?_)
  by_cases h : pair.2 = sequence <;> simp [h]

/-- The number of duplicates is that of the repetitions of every sequence. -/
theorem sum_repeatedGroups_add_dedup (decoded : List (Nat × Int)) :
    ((repeatedGroups decoded).map fun group => group.2.length - 1).sum + (decoded.map Prod.snd).dedup.length =
      decoded.length := by
  have hfilter (groups : List (Int × List Nat)) :
      ((groups.filter fun group => 2 ≤ group.2.length).map fun group => group.2.length - 1).sum =
        (groups.map fun group => group.2.length - 1).sum := by
    induction groups with
    | nil => rfl
    | cons group groups ih =>
      by_cases h : 2 ≤ group.2.length
      · rw [List.filter_cons_of_pos (by simpa using h), List.map_cons, List.map_cons, List.sum_cons, List.sum_cons, ih]
      · rw [List.filter_cons_of_neg (by simpa using h), List.map_cons, List.sum_cons, ih]
        omega
  have hperm := (sortedBy_perm id (decoded.map Prod.snd).dedup).map fun sequence =>
    (decoded.map Prod.snd).count sequence - 1
  rw [repeatedGroups, hfilter, indicesBySequence, List.map_map]
  simp only [Function.comp_def, length_indicesOf]
  rw [sortedSet, hperm.sum_eq, sum_repetitions_add_dedup, List.length_map]

/-- The pair whose second record is at a position, if the record neither repeats nor follows the one before. -/
theorem gapPair_at {before after : List (Nat × Int)} {b : Nat × Int}
    (h : (before ++ b :: after).Pairwise fun x y => x.1 < y.1) {pair : (Nat × Int) × (Nat × Int)} :
    pair ∈ gapPairs (before ++ b :: after) ∧ pair.2.1 = b.1 ↔
      ∃ a, before.getLast? = some a ∧ isGap (a, b) = true ∧ pair = (a, b) := by
  have hnodup : (before ++ b :: after).Nodup := h.imp fun hlt heq => absurd (congrArg Prod.fst heq) hlt.ne
  have hkeys : ((before ++ b :: after).map Prod.fst).Nodup := List.pairwise_map.mpr (h.imp fun hlt => hlt.ne)
  have hadjacent : (before ++ b :: after).zip (before ++ b :: after).tail = adjacent (before ++ b :: after) := rfl
  rw [gapPairs, hadjacent, List.mem_filter]
  obtain ⟨a, b'⟩ := pair
  constructor
  · rintro ⟨⟨hmem, hgap⟩, hidx⟩
    obtain ⟨pre, post, hsplit⟩ := mem_adjacent.mp hmem
    have hb' : b' ∈ before ++ b :: after := by rw [hsplit]; simp
    obtain rfl : b' = b := List.inj_on_of_nodup_map hkeys hb' (by simp) hidx
    exact ⟨a, (mem_adjacent_of_nodup hnodup).mp hmem, hgap, rfl⟩
  · rintro ⟨a', hlast, hgap, heq⟩
    cases heq
    exact ⟨⟨(mem_adjacent_of_nodup hnodup).mpr hlast, hgap⟩, rfl⟩

/-- The pairs before a record that decodes, its own and those after it. -/
theorem decodedPairs_split (before after : List RecordedTelemetryRecord) {record : RecordedTelemetryRecord}
    {p : DecodedPacket} (hp : decodePacket record.packet = .ok p) : decodedPairs (before ++ record :: after) =
      decodedPairs before ++ (record.recordIndex, p.sequence) :: decodedPairs after := by
  rw [decodedPairs, List.filterMap_append, List.filterMap_cons_some (by rw [hp]; rfl)]
  rfl

/-- The diagnostic is a sequence gap at a record. -/
structure GapAbout (d : Diagnostic) (record : RecordedTelemetryRecord) : Prop where
  code : d.code = .TELEMETRY_SEQUENCE_GAP
  sourceIndex : d.sourceIndex = some record.recordIndex

section
variable {evidence : LoadedSessionEvidence} {s : NormalizedSession} {telemetry : NormalizedLane}
  {decoded : List (Nat × Int)} {alarm link : NormalizedLane}

theorem SessionOutcome.exists_of_gap (h : SessionOutcome evidence s telemetry decoded alarm link)
    {pair : (Nat × Int) × (Nat × Int)} (hpair : pair ∈ gapPairs (decodedPairs (recordsOf evidence.telemetry))) :
    ∃ d ∈ s.diagnostics, d.toDiagnosticData = gapData pair := by
  refine h.exists_of_laneData (List.mem_append_left _ (List.mem_append_left _ ?_))
  cases ht : evidence.telemetry with
  | none => rw [ht] at hpair; cases hpair
  | some source =>
    rw [ht] at hpair
    exact List.mem_append_left _ (List.mem_append_right _ (List.mem_append_right _ (List.mem_map_of_mem hpair)))

/-- A gap is diagnosed at a record when a record is decoded before it that it neither repeats nor follows. -/
theorem SessionOutcome.gapAbout_iff (h : SessionOutcome evidence s telemetry decoded alarm link)
    (hordered : (recordsOf evidence.telemetry).Pairwise fun a b => a.recordIndex < b.recordIndex)
    {before after : List RecordedTelemetryRecord} {record : RecordedTelemetryRecord}
    (hrecords : recordsOf evidence.telemetry = before ++ record :: after) {p : DecodedPacket}
    (hp : decodePacket record.packet = .ok p) {d : Diagnostic} (hd : d ∈ s.diagnostics) : GapAbout d record ↔
      ∃ a, (decodedPairs before).getLast? = some a ∧ isGap (a, (record.recordIndex, p.sequence)) = true ∧
        d.toDiagnosticData = gapData (a, (record.recordIndex, p.sequence)) := by
  have hpairs := decodedPairs_split before after hp
  rw [← hrecords] at hpairs
  have hat := pairwise_decodedPairs hordered
  rw [hpairs] at hat
  constructor
  · intro habout
    obtain ⟨lane, hlane⟩ := h.diagnoses hd
    obtain ⟨pair, hpair, hdata⟩ := hlane.gap_of_code habout.code
    have hidx : pair.2.1 = record.recordIndex := by
      have hsource := habout.sourceIndex
      rw [hdata] at hsource
      exact Option.some.inj hsource
    rw [hpairs] at hpair
    obtain ⟨a, hlast, hgap, rfl⟩ := (gapPair_at hat).mp ⟨hpair, hidx⟩
    exact ⟨a, hlast, hgap, hdata⟩
  · rintro ⟨a, -, -, hdata⟩
    exact ⟨by rw [hdata]; rfl, by rw [hdata]; rfl⟩

/-- No gap is diagnosed at a record that does not decode. -/
theorem SessionOutcome.not_gapAbout (h : SessionOutcome evidence s telemetry decoded alarm link)
    (hordered : (recordsOf evidence.telemetry).Pairwise fun a b => a.recordIndex < b.recordIndex)
    {record : RecordedTelemetryRecord} (hmem : record ∈ recordsOf evidence.telemetry) {e : PyError}
    (he : decodePacket record.packet = .error e) {d : Diagnostic} (hd : d ∈ s.diagnostics) : ¬GapAbout d record := by
  intro habout
  obtain ⟨lane, hlane⟩ := h.diagnoses hd
  obtain ⟨⟨a, b⟩, hpair, hdata⟩ := hlane.gap_of_code habout.code
  have hidx : b.1 = record.recordIndex := by
    have hsource := habout.sourceIndex
    rw [hdata] at hsource
    exact Option.some.inj hsource
  obtain ⟨pre, post, hsplit⟩ := mem_adjacent.mp (List.mem_filter.mp hpair).1
  have hb : b ∈ decodedPairs (recordsOf evidence.telemetry) := by rw [hsplit]; simp
  obtain ⟨record', hrecord', hb'⟩ := List.mem_filterMap.mp hb
  obtain ⟨p, hp, rfl⟩ := Option.map_eq_some_iff.mp hb'
  have hkeys : ((recordsOf evidence.telemetry).map fun r => r.recordIndex).Nodup :=
    List.pairwise_map.mpr (hordered.imp fun hlt => hlt.ne)
  obtain rfl : record' = record := List.inj_on_of_nodup_map hkeys hrecord' hmem hidx
  rw [he] at hp
  cases hp

end

/-! ### Agreement -/

section
variable {α : Type} [FloatLike α]

/-- The sequence of the last record that decodes. -/
def lastDecoded (records : List RecordedTelemetryRecord) : Option Int :=
  ((recordedPackets records).map fun p => p.sequence).getLast?

/-- The gaps that an engine emits at a record, after the records before it. -/
def gapsAt (policy : AlarmPolicy α) (before : List RecordedTelemetryRecord) (record : RecordedTelemetryRecord) :
    List (AlarmTransition α) :=
  match decodePacket record.packet with
  | .ok p => ((AlarmEngine.after policy (recordedPackets before)).evaluate p).1.filter fun t => t.code = "SEQUENCE_GAP"
  | .error _ => []

/-- The message prints the sequence expected after the last one, and the one found. -/
def PrintsExpected (d : Diagnostic) (last expected found : Int) : Prop :=
  ∃ opening ∈ ["telemetry sequence gap after ", "telemetry sequence is non-contiguous after "], ∃ closing,
    d.message = opening ++ toString last ++ ": expected " ++ toString expected ++ ", found " ++ toString found ++ closing

theorem printsExpected_of_gapMessage {d : Diagnostic} {last found : Int} (hd : d.message = gapMessage last found) :
    PrintsExpected d last ((last + 1) % 2 ^ 32) found := by
  have hexpected : expectedSequence last = (last + 1) % 2 ^ 32 := rfl
  unfold gapMessage at hd
  rw [hexpected] at hd
  dsimp only at hd
  split_ifs at hd
  · refine ⟨"telemetry sequence gap after ", List.mem_cons_self, ", missing " ++ toString ((found - last) % (MAX_PACKET_SEQUENCE + 1) - 1),
      ?_⟩
    rw [hd]
    exact String.append_assoc
  · refine ⟨_, List.mem_cons_of_mem _ (List.mem_singleton_self _), "", ?_⟩
    rw [hd, String.append_empty]

/-- The gaps of the engine on the packets of a recording are those that the session reports, and repetitions. -/
structure GapsAgree (policy : AlarmPolicy α) (records : List RecordedTelemetryRecord) (s : NormalizedSession) : Prop where
  raised : ∀ before record after, records = before ++ record :: after → (gapsAt policy before record ≠ [] ↔
    (∃ d ∈ s.diagnostics, GapAbout d record) ∨
      ∃ p, decodePacket record.packet = .ok p ∧ lastDecoded before = some p.sequence)
  expected : ∀ before record after, records = before ++ record :: after → ∀ t ∈ gapsAt policy before record,
    ∀ d ∈ s.diagnostics, GapAbout d record → ∃ last p expected, lastDecoded before = some last ∧
      decodePacket record.packet = .ok p ∧ expected = (last + 1) % 2 ^ 32 ∧
      d.message = gapMessage last p.sequence ∧ PrintsExpected d last expected p.sequence ∧
      t.threshold = .int expected ∧ t.observedValue = .int p.sequence ∧
      t.message = s!"expected sequence {expected}, received {p.sequence}"
  counted : ∃ summary ∈ s.sources, summary.source.lane = .TELEMETRY ∧ ∃ gaps duplicates,
    summary.counters.dict.get? "sequence_gaps" = some gaps ∧
    summary.counters.dict.get? "sequence_duplicates" = some duplicates ∧
    let emitted := ((AlarmEngine.new policy).transitions (recordedPackets records)).countP fun t => t.code = "SEQUENCE_GAP"
    emitted = gaps + repeats ((recordedPackets records).map fun p => p.sequence) ∧
      gaps ≤ emitted ∧ emitted ≤ gaps + duplicates

theorem lastDecoded_eq (records : List RecordedTelemetryRecord) :
    lastDecoded records = (decodedPairs records).getLast?.map Prod.snd := by
  rw [lastDecoded, ← sequences_decodedPairs, List.getLast?_map]

theorem gapsAt_eq {policy : AlarmPolicy α} (hdetect : policy.sequence.detectGaps = true)
    (before : List RecordedTelemetryRecord) {record : RecordedTelemetryRecord} {p : DecodedPacket}
    (hp : decodePacket record.packet = .ok p) : gapsAt policy before record =
      ((lastDecoded before).filter fun last => p.sequence ≠ expectedSequence last).toList.map
        fun last => AlarmEngine.gapTransition last p := by
  rw [gapsAt, hp]
  dsimp only
  rw [AlarmEngine.gaps_after hdetect, lastDecoded, Option.toList_map]

variable {evidence : LoadedSessionEvidence} {s : NormalizedSession} {telemetry : NormalizedLane}
  {decoded : List (Nat × Int)} {alarm link : NormalizedLane}

theorem SessionOutcome.gapsAt_ne_nil_iff (h : SessionOutcome evidence s telemetry decoded alarm link)
    (hordered : (recordsOf evidence.telemetry).Pairwise fun a b => a.recordIndex < b.recordIndex)
    {policy : AlarmPolicy α} (hdetect : policy.sequence.detectGaps = true) {before after : List RecordedTelemetryRecord}
    {record : RecordedTelemetryRecord} (hrecords : recordsOf evidence.telemetry = before ++ record :: after) :
    gapsAt policy before record ≠ [] ↔ (∃ d ∈ s.diagnostics, GapAbout d record) ∨
      ∃ p, decodePacket record.packet = .ok p ∧ lastDecoded before = some p.sequence := by
  cases hp : decodePacket record.packet with
  | error e =>
    have hmem : record ∈ recordsOf evidence.telemetry := by rw [hrecords]; simp
    have hnil : gapsAt policy before record = [] := by rw [gapsAt, hp]
    rw [hnil]
    refine iff_of_false (fun hne => hne rfl) ?_
    rintro (⟨d, hd, habout⟩ | ⟨p, hok, -⟩)
    · exact h.not_gapAbout hordered hmem hp hd habout
    · cases hok
  | ok p =>
    rw [gapsAt_eq hdetect before hp, lastDecoded_eq]
    constructor
    · intro hne
      rcases hlast : (decodedPairs before).getLast? with - | a
      · rw [hlast] at hne
        exact absurd rfl hne
      · by_cases hrepeat : p.sequence = a.2
        · exact .inr ⟨p, rfl, by rw [Option.map_some, hrepeat]⟩
        · left
          have hnext : p.sequence ≠ expectedSequence a.2 := by
            intro hnext
            rw [hlast] at hne
            simp [hnext] at hne
          have hgap : isGap (a, (record.recordIndex, p.sequence)) = true := by simp [isGap, hrepeat, hnext]
          have hpairs := decodedPairs_split before after hp
          rw [← hrecords] at hpairs
          have hat := pairwise_decodedPairs hordered
          rw [hpairs] at hat
          obtain ⟨hmem, -⟩ := (gapPair_at hat).mpr ⟨a, hlast, hgap, rfl⟩
          obtain ⟨d, hd, hdata⟩ := h.exists_of_gap (hpairs ▸ hmem)
          exact ⟨d, hd, (h.gapAbout_iff hordered hrecords hp hd).mpr ⟨a, hlast, hgap, hdata⟩⟩
    · rintro (⟨d, hd, habout⟩ | ⟨p', hp', hrepeat⟩)
      · obtain ⟨a, hlast, hgap, -⟩ := (h.gapAbout_iff hordered hrecords hp hd).mp habout
        have hnext : p.sequence ≠ expectedSequence a.2 := by
          simp only [isGap, Bool.and_eq_true, decide_eq_true_eq] at hgap
          exact hgap.2
        simp [hlast, hnext]
      · obtain rfl := Except.ok.inj hp'
        rw [hrepeat]
        simp [(expectedSequence_ne p.sequence).symm]

/-- The two counters of sequences that are no successions. -/
theorem SessionOutcome.sequenceCounters (h : SessionOutcome evidence s telemetry decoded alarm link) :
    telemetry.summary.counters.dict.get? "sequence_gaps" =
        some (gapPairs (decodedPairs (recordsOf evidence.telemetry))).length ∧
      telemetry.summary.counters.dict.get? "sequence_duplicates" =
        some ((repeatedGroups (decodedPairs (recordsOf evidence.telemetry))).map fun group => group.2.length - 1).sum :=
  ⟨get?_of_freezeCounters h.telemetryLane.counters (nodup_telemetryCounters ..) (by simp [telemetryCounters]),
    get?_of_freezeCounters h.telemetryLane.counters (nodup_telemetryCounters ..) (by simp [telemetryCounters])⟩

theorem SessionOutcome.gapsAgree (h : SessionOutcome evidence s telemetry decoded alarm link)
    (hordered : (recordsOf evidence.telemetry).Pairwise fun a b => a.recordIndex < b.recordIndex)
    {policy : AlarmPolicy α} (hdetect : policy.sequence.detectGaps = true) :
    GapsAgree policy (recordsOf evidence.telemetry) s := by
  constructor
  case raised => exact fun before record after hrecords => h.gapsAt_ne_nil_iff hordered hdetect hrecords
  case expected =>
    intro before record after hrecords t ht d hd habout
    cases hp : decodePacket record.packet with
    | error e =>
      rw [gapsAt, hp] at ht
      cases ht
    | ok p =>
      obtain ⟨a, hlast, hgap, hdata⟩ := (h.gapAbout_iff hordered hrecords hp hd).mp habout
      have hprevious : lastDecoded before = some a.2 := by rw [lastDecoded_eq, hlast, Option.map_some]
      rw [gapsAt_eq hdetect before hp, hprevious] at ht
      obtain ⟨last, hmem, rfl⟩ := List.mem_map.mp ht
      obtain ⟨heq, -⟩ := Option.filter_eq_some_iff.mp (Option.mem_toList.mp hmem)
      obtain rfl := Option.some.inj heq
      have hmessage : d.message = gapMessage a.2 p.sequence := by rw [hdata]; rfl
      exact ⟨a.2, p, _, hprevious, rfl, rfl, hmessage, printsExpected_of_gapMessage hmessage, rfl, rfl, rfl⟩
  case counted =>
    obtain ⟨hgaps, hduplicated⟩ := h.sequenceCounters
    refine ⟨telemetry.summary, by simp [h.sources], h.telemetryLane.wellFormed.source, _, _, hgaps, hduplicated, ?_⟩
    have hsequences := sequences_decodedPairs (recordsOf evidence.telemetry)
    have hemitted := AlarmEngine.countP_transitions hdetect (recordedPackets (recordsOf evidence.telemetry))
    rw [← hsequences, countP_isGap_add_repeats] at hemitted
    have hrepeats := repeats_add_dedup_le ((decodedPairs (recordsOf evidence.telemetry)).map Prod.snd)
    have hduplicates := sum_repeatedGroups_add_dedup (decodedPairs (recordsOf evidence.telemetry))
    rw [List.length_map] at hrepeats
    dsimp only
    rw [hemitted, ← hsequences]
    exact ⟨rfl, by omega, by omega⟩

/-- What the engine raises live over a recording is what its inspection reports, for every recording. -/
theorem inspectSession_gapsAgree {loads : String → Option Json} {selected : SelectedEvidence} {source : EvidenceSource}
    (hsource : source ∈ selected.telemetry) (hs : inspectSession loads selected = .ok s) {policy : AlarmPolicy α}
    (hdetect : policy.sequence.detectGaps = true) :
    ∃ records, loadTelemetryRecords loads source.file = .ok records ∧ GapsAgree policy records s := by
  obtain ⟨evidence, hload, hs⟩ := except_bind_eq_ok.mp hs
  have hstrict := strict_of_loadSessionEvidence hload
  obtain ⟨telemetry, decoded, alarm, link, ho⟩ := (normalizeLoadedSession_ok hstrict).2 s hs
  obtain ⟨-, ht, -⟩ := loadSessionEvidence_eq_ok.mp hload
  rcases loadSelected_eq_ok.mp ht with ⟨hnone, -⟩ | ⟨source', records, hsome, hrecords, hloaded⟩
  · rw [hnone] at hsource
    cases hsource
  · rw [hsome] at hsource
    cases hsource
    have hagree := ho.gapsAgree hstrict.pairwise_records hdetect
    rw [hloaded] at hagree
    exact ⟨records, hrecords, hagree⟩

end

theorem inspectSession_gapsAgree_skipping : ∃ records s,
    loadTelemetryRecords Json.loads ⟨skipping.map fun d => (recordJson d.1 d.2).line, none⟩ = .ok records ∧
      records.length = 3 ∧ GapsAgree DEFAULT_ALARM_POLICY records s := by
  obtain ⟨s, hs⟩ := exists_skippingSession
  have hdetect : DEFAULT_ALARM_POLICY.sequence.detectGaps = true := rfl
  obtain ⟨records, hrecords, hagree⟩ := inspectSession_gapsAgree rfl hs hdetect
  have hwritten := hrecords.symm.trans loadTelemetryRecords_skipping
  refine ⟨records, s, hrecords, ?_, hagree⟩
  rw [Except.ok.inj hwritten]
  rfl

end Session

end OrbitOps
