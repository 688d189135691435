import OrbitOps.Errors
import OrbitOps.Py.Sorted

/-!
# Correlation semantics

The evidence lanes, what a lane can prove about the completion of its run, and the match of an alarm
transition to telemetry records by packet sequence. Positions and counts are natural numbers, so the
checks against negative ones are in the types.
-/

namespace OrbitOps.Session
open Py

def MAX_PACKET_SEQUENCE : Nat := 0xFFFFFFFF

/-- Independent evidence streams accepted by the session inspector. -/
inductive EvidenceLane where
  | TELEMETRY
  | ALARM
  | LINK
deriving DecidableEq, Repr

def EvidenceLane.value : EvidenceLane → String
  | TELEMETRY => "telemetry"
  | ALARM => "alarm"
  | LINK => "link"

/-- Strength of one correlation decision. -/
inductive CorrelationKind where
  | EXACT
  | ORDERED_ONLY
  | SEPARATE_LANE
  | AMBIGUOUS
  | IMPOSSIBLE
deriving DecidableEq, Repr

def CorrelationKind.value : CorrelationKind → String
  | EXACT => "exact"
  | ORDERED_ONLY => "ordered_only"
  | SEPARATE_LANE => "separate_lane"
  | AMBIGUOUS => "ambiguous"
  | IMPOSSIBLE => "impossible"

/-- Field or rule supporting a correlation decision. -/
inductive CorrelationBasis where
  | SOURCE_ORDER
  | PACKET_SEQUENCE
  | NONE
deriving DecidableEq, Repr

def CorrelationBasis.value : CorrelationBasis → String
  | SOURCE_ORDER => "source_order"
  | PACKET_SEQUENCE => "packet_sequence"
  | NONE => "none"

/-- What one validated evidence lane can prove about run completion. -/
inductive SourceCompleteness where
  | COMPLETE
  | INCOMPLETE
  | UNKNOWN
deriving DecidableEq, Repr

def SourceCompleteness.value : SourceCompleteness → String
  | COMPLETE => "complete"
  | INCOMPLETE => "incomplete"
  | UNKNOWN => "unknown"

/-- The fields of an evidence contract that the inspection reads. -/
structure ContractSemantics where
  readableSchemaVersions : List Nat
  completionMarker : Option String

def CONTRACT_SEMANTICS : EvidenceLane → ContractSemantics
  | .TELEMETRY => ⟨[1], none⟩
  | .ALARM => ⟨[1], some "run_summary"⟩
  | .LINK => ⟨[1, 2], some "run_summary"⟩

def LANE_PRECEDENCE : List EvidenceLane := [.TELEMETRY, .ALARM, .LINK]

def EvidenceLane.rank (lane : EvidenceLane) : Nat := LANE_PRECEDENCE.idxOf lane

/-- The candidates that a kind of correlation has. -/
structure CorrelationDecision.Shape (kind : CorrelationKind) (candidates : List Nat) : Prop where
  exact : kind = .EXACT → candidates.length = 1
  ambiguous : kind = .AMBIGUOUS → 2 ≤ candidates.length
  bare : kind ≠ .EXACT → kind ≠ .AMBIGUOUS → candidates = []
  ordered : candidates.Pairwise (· ≤ ·)

/-- Result of correlating one alarm transition to loaded telemetry records. -/
structure CorrelationDecision where
  kind : CorrelationKind
  basis : CorrelationBasis
  candidateRecordIndices : List Nat
  shape : CorrelationDecision.Shape kind candidateRecordIndices
deriving DecidableEq

namespace CorrelationDecision

def new (kind : CorrelationKind) (basis : CorrelationBasis) (candidates : List Nat) : Result CorrelationDecision :=
  if hexact : kind = .EXACT ∧ candidates.length ≠ 1 then
    .error (valueError "exact correlation requires exactly one candidate")
  else if hambiguous : kind = .AMBIGUOUS ∧ candidates.length < 2 then
    .error (valueError "ambiguous correlation requires at least two candidates")
  else if hbare : ¬(kind = .EXACT ∨ kind = .AMBIGUOUS) ∧ candidates ≠ [] then
    .error (valueError (kind.value ++ " correlation cannot contain candidates"))
  else if hordered : sortedBy id candidates ≠ candidates then
    .error (valueError "candidate_record_indices must use deterministic ascending order")
  else .ok {
    kind := kind
    basis := basis
    candidateRecordIndices := candidates
    shape := {
      exact := fun h => not_not.mp fun hne => hexact ⟨h, hne⟩
      ambiguous := fun h => not_lt.mp fun hlt => hambiguous ⟨h, hlt⟩
      bare := fun h h' => not_not.mp fun hne => hbare ⟨not_or.mpr ⟨h, h'⟩, hne⟩
      ordered := sortedBy_id_eq_self.mp (not_not.mp hordered) } }

theorem new_eq_ok {kind : CorrelationKind} {basis : CorrelationBasis} {candidates : List Nat}
    {d : CorrelationDecision} : new kind basis candidates = .ok d ↔
      d.kind = kind ∧ d.basis = basis ∧ d.candidateRecordIndices = candidates := by
  constructor
  · intro h
    unfold new at h
    split_ifs at h
    cases h
    exact ⟨rfl, rfl, rfl⟩
  · rintro ⟨rfl, rfl, rfl⟩
    have hbare : ¬(¬(d.kind = .EXACT ∨ d.kind = .AMBIGUOUS) ∧ d.candidateRecordIndices ≠ []) := by
      rintro ⟨h, hne⟩
      exact hne (d.shape.bare (fun he => h (.inl he)) fun ha => h (.inr ha))
    rw [new, dif_neg fun h => h.2 (d.shape.exact h.1), dif_neg fun h => absurd (d.shape.ambiguous h.1) (not_le.mpr h.2),
      dif_neg hbare, dif_neg (not_not.mpr (sortedBy_id_eq_self.mpr d.shape.ordered))]

end CorrelationDecision

def validatePacketSequence (field : String) (value : Int) : Result Int :=
  if 0 ≤ value ∧ value ≤ MAX_PACKET_SEQUENCE then .ok value
  else .error (valueError (field ++ " must fit an unsigned 32-bit integer"))

/-- The candidates among the sequences from position `i` on. -/
def candidates (target : Int) : Nat → List Int → Result (List Nat)
  | _, [] => .ok []
  | i, sequence :: rest => do
    let validated ← validatePacketSequence s!"telemetry_sequences[{i}]" sequence
    let later ← candidates target (i + 1) rest
    return if validated = target then i :: later else later

def classifyTelemetryAlarmMatch (telemetrySequences : List Int) (alarmPacketSequence : Int) :
    Result CorrelationDecision := do
  let target ← validatePacketSequence "alarm_packet_sequence" alarmPacketSequence
  let orderedCandidates ← candidates target 0 telemetrySequences
  if orderedCandidates.length = 1 then CorrelationDecision.new .EXACT .PACKET_SEQUENCE orderedCandidates
  else if orderedCandidates.length > 1 then CorrelationDecision.new .AMBIGUOUS .PACKET_SEQUENCE orderedCandidates
  else CorrelationDecision.new .IMPOSSIBLE .PACKET_SEQUENCE []

def presentationKey (lane : EvidenceLane) (sourceIndex : Nat) : Nat ×ₗ Nat := toLex (lane.rank, sourceIndex)

def classifySourceCompleteness (lane : EvidenceLane) (recordCount : Nat) (summaryPresent : Bool) :
    Result SourceCompleteness :=
  if recordCount = 0 then
    if summaryPresent then .error (valueError "an empty source cannot contain a summary") else .ok .INCOMPLETE
  else
    match (CONTRACT_SEMANTICS lane).completionMarker with
    | none =>
      if summaryPresent then .error (valueError (lane.value ++ " evidence has no summary marker")) else .ok .UNKNOWN
    | some _ => .ok (if summaryPresent then .COMPLETE else .INCOMPLETE)

/-! ### The match of a sequence -/

/-- A number that fits an unsigned 32-bit integer. -/
def FitsSequence (n : Int) : Prop := 0 ≤ n ∧ n ≤ MAX_PACKET_SEQUENCE

/-- The positions, from `i` on, at which a sequence occurs. -/
def positions (target : Int) : Nat → List Int → List Nat
  | _, [] => []
  | i, sequence :: rest => if sequence = target then i :: positions target (i + 1) rest else positions target (i + 1) rest

/-- The kind of a correlation by the number of its candidates. -/
def kindOf (candidates : List Nat) : CorrelationKind :=
  if candidates.length = 1 then .EXACT else if candidates.length > 1 then .AMBIGUOUS else .IMPOSSIBLE

theorem validatePacketSequence_ok (field : String) {n : Int} (h : FitsSequence n) :
    validatePacketSequence field n = .ok n := if_pos h

theorem candidates_ok {target : Int} {i : Nat} {sequences : List Int} (h : ∀ n ∈ sequences, FitsSequence n) :
    candidates target i sequences = .ok (positions target i sequences) := by
  induction sequences generalizing i with
  | nil => rfl
  | cons n rest ih =>
    rw [candidates, validatePacketSequence_ok _ (h n (List.mem_cons_self ..)),
      ih fun m hm => h m (List.mem_cons_of_mem _ hm), positions]
    simp only [bind, Except.bind]
    split_ifs <;> rfl

/-- Any ascending candidates have the decision of their number. -/
theorem exists_decision {candidates : List Nat} (h : candidates.Pairwise (· ≤ ·)) : ∃ d : CorrelationDecision,
    d.kind = kindOf candidates ∧ d.basis = .PACKET_SEQUENCE ∧ d.candidateRecordIndices = candidates := by
  refine ⟨⟨kindOf candidates, .PACKET_SEQUENCE, candidates, ?_, ?_, ?_, h⟩, rfl, rfl, rfl⟩ <;> unfold kindOf <;>
    split_ifs with h1 h2
  all_goals simp
  · exact h1
  · omega
  · rw [← List.length_eq_zero_iff]
    omega

theorem lt_of_mem_positions {target : Int} {i k : Nat} {sequences : List Int} (h : k ∈ positions target i sequences) :
    i ≤ k ∧ k < i + sequences.length := by
  induction sequences generalizing i with
  | nil => cases h
  | cons n rest ih =>
    have hrest : k ∈ positions target (i + 1) rest → i ≤ k ∧ k < i + (n :: rest).length := by
      intro h
      have := ih h
      rw [List.length_cons]
      omega
    rw [positions] at h
    split_ifs at h
    · rcases List.mem_cons.mp h with rfl | h
      · simp
      · exact hrest h
    · exact hrest h

theorem pairwise_positions (target : Int) (i : Nat) (sequences : List Int) :
    (positions target i sequences).Pairwise (· < ·) := by
  induction sequences generalizing i with
  | nil => exact .nil
  | cons n rest ih =>
    rw [positions]
    split_ifs
    · exact .cons (fun k hk => (lt_of_mem_positions hk).1) (ih (i + 1))
    · exact ih (i + 1)

theorem classifyTelemetryAlarmMatch_ok {sequences : List Int} {target : Int} (hs : ∀ n ∈ sequences, FitsSequence n)
    (ht : FitsSequence target) : ∃ d, classifyTelemetryAlarmMatch sequences target = .ok d ∧
      d.kind = kindOf (positions target 0 sequences) ∧ d.basis = .PACKET_SEQUENCE ∧
      d.candidateRecordIndices = positions target 0 sequences := by
  obtain ⟨d, hkind, hbasis, hcandidates⟩ := exists_decision ((pairwise_positions target 0 sequences).imp le_of_lt)
  refine ⟨d, ?_, hkind, hbasis, hcandidates⟩
  rw [classifyTelemetryAlarmMatch, validatePacketSequence_ok _ ht]
  simp only [bind, Except.bind, candidates_ok hs]
  rw [kindOf] at hkind
  split_ifs at hkind ⊢ with h1 h2
  · exact CorrelationDecision.new_eq_ok.mpr ⟨hkind, hbasis, hcandidates⟩
  · exact CorrelationDecision.new_eq_ok.mpr ⟨hkind, hbasis, hcandidates⟩
  · refine CorrelationDecision.new_eq_ok.mpr ⟨hkind, hbasis, hcandidates.trans ?_⟩
    rw [← List.length_eq_zero_iff]
    omega

/-! ### Completeness -/

/-- A lane with a summary marker is complete exactly when its summary is present. -/
theorem classifySourceCompleteness_marked {lane : EvidenceLane} (h : lane ≠ .TELEMETRY) {n : Nat} {present : Bool}
    (hp : present = true → n ≠ 0) :
    classifySourceCompleteness lane n present = .ok (if present then .COMPLETE else .INCOMPLETE) := by
  have hmark : (CONTRACT_SEMANTICS lane).completionMarker = some "run_summary" := by
    cases lane with
    | TELEMETRY => exact absurd rfl h
    | ALARM => rfl
    | LINK => rfl
  rw [classifySourceCompleteness, hmark]
  cases present with
  | true => rw [if_neg (hp rfl)]
  | false =>
    by_cases hn : n = 0
    · rw [if_pos hn]
      rfl
    · rw [if_neg hn]

theorem classifySourceCompleteness_telemetry (n : Nat) :
    classifySourceCompleteness .TELEMETRY n false = .ok (if n = 0 then .INCOMPLETE else .UNKNOWN) := by
  rw [classifySourceCompleteness]
  by_cases hn : n = 0
  · rw [if_pos hn, if_pos hn]
    rfl
  · rw [if_neg hn, if_neg hn]
    rfl

end OrbitOps.Session
