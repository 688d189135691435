import OrbitOps.Py.DigitText
import OrbitOps.Session.Gaps

/-!
# Sequence counts

The sequence diagnostics of a recording count what is repeated and what is missing: as many duplicates as
there are packets beyond the distinct sequences, and a gap for every two neighbours that neither repeat nor
follow each other. Where every packet is at most half the sequence range ahead of the one before, the
packets and the missing counts that the messages print account for the whole way from the first sequence
to the last.
-/

namespace OrbitOps.Session
open Py

/-! ### Printed counts -/

/-- The message of a diagnostic ends with a missing count. -/
def PrintsMissing (d : Diagnostic) (n : Nat) : Prop := ∃ text, d.message = text ++ ", missing " ++ toString n

/-- A message prints one count. -/
theorem PrintsMissing.unique {d : Diagnostic} {n m : Nat} (hn : PrintsMissing d n) (hm : PrintsMissing d m) : n = m := by
  obtain ⟨text, htext⟩ := hn
  obtain ⟨text', htext'⟩ := hm
  -- read backwards, the digits stop at the space before them
  have hlist (text : String) (n : Nat) : (text ++ ", missing " ++ toString n).toList.reverse =
      (natDigits n).reverse ++ ' ' :: (text ++ ", missing").toList.reverse := by
    have hdigits : (toString n).toList = natDigits n := String.toList_ofList
    simp only [String.toList_append, hdigits, List.reverse_append]
    rfl
  have hdigit (k : Nat) : ∀ c ∈ (natDigits k).reverse, c.isDigit = true :=
    fun c hc => isDigit_of_mem_natDigits (List.mem_reverse.mp hc)
  have hspace (cs : List Char) : ∀ c ∈ (' ' :: cs).head?, ¬c.isDigit = true := by simp
  have heq := congrArg (fun s => s.toList.reverse) (htext.symm.trans htext')
  simp only [hlist] at heq
  have hreverse := (append_inj_of_stop (hdigit n) (hdigit m) (hspace _) (hspace _) heq).1
  exact natDigits_injective (List.reverse_inj.mp hreverse)

/-! ### Distances -/

/-- How far the second packet is ahead of the first. -/
def forwardDistance (pair : (Nat × Int) × (Nat × Int)) : Int := (pair.2.2 - pair.1.2) % 2 ^ 32

/-- At most half the sequence range ahead. -/
def Ahead (pair : (Nat × Int) × (Nat × Int)) : Prop := 1 ≤ forwardDistance pair ∧ forwardDistance pair ≤ 2 ^ 31

theorem isGap_iff {pair : (Nat × Int) × (Nat × Int)} :
    isGap pair = true ↔ pair.2.2 ≠ pair.1.2 ∧ pair.2.2 ≠ (pair.1.2 + 1) % 2 ^ 32 := by
  rw [isGap, Bool.and_eq_true, decide_eq_true_iff, decide_eq_true_iff]
  exact Iff.rfl

/-- A packet ahead that leaves no gap is one ahead. -/
theorem forwardDistance_of_not_gap {pair : (Nat × Int) × (Nat × Int)} (hahead : Ahead pair) (h : ¬isGap pair = true) :
    forwardDistance pair = 1 := by
  obtain ⟨hone, -⟩ := hahead
  unfold forwardDistance at hone ⊢
  rw [isGap_iff] at h
  omega

theorem one_lt_forwardDistance {pair : (Nat × Int) × (Nat × Int)} (hahead : Ahead pair) (hfits : FitsSequence pair.2.2)
    (h : isGap pair = true) : 1 < forwardDistance pair := by
  obtain ⟨hone, -⟩ := hahead
  obtain ⟨hlo, hhi⟩ := hfits
  unfold forwardDistance MAX_PACKET_SEQUENCE at *
  rw [isGap_iff] at h
  omega

/-- The count that the message of a gap prints. -/
def missingCount (pair : (Nat × Int) × (Nat × Int)) : Nat := (forwardDistance pair - 1).toNat

theorem printsMissing_of_gap {pair : (Nat × Int) × (Nat × Int)} (hahead : Ahead pair) (hone : 1 < forwardDistance pair)
    {d : Diagnostic} (hd : d.toDiagnosticData = gapData pair) : PrintsMissing d (missingCount pair) := by
  have hmessage : d.message = gapMessage pair.1.2 pair.2.2 := congrArg DiagnosticData.message hd
  have hdistance : (pair.2.2 - pair.1.2) % ((MAX_PACKET_SEQUENCE : Int) + 1) = forwardDistance pair := rfl
  have hrange : 1 < forwardDistance pair ∧ forwardDistance pair ≤ ((MAX_PACKET_SEQUENCE : Int) + 1) / 2 := ⟨hone, hahead.2⟩
  obtain ⟨n, hn⟩ := Int.eq_ofNat_of_zero_le (show 0 ≤ forwardDistance pair - 1 by omega)
  unfold gapMessage at hmessage
  dsimp only at hmessage
  rw [hdistance, if_pos hrange, hn] at hmessage
  have hcount : missingCount pair = n := by rw [missingCount, hn, Int.toNat_natCast]
  rw [hcount]
  exact ⟨_, hmessage⟩

/-! ### The diagnostics -/

/-- The diagnostic of a repeated sequence lists its records in ascending order. -/
structure ReportsDuplicate (decoded : List (Nat × Int)) (sequence : Int) (d : Diagnostic) : Prop where
  code : d.code = .TELEMETRY_SEQUENCE_DUPLICATE
  message : d.message = "telemetry packet sequence " ++ toString sequence ++ " appears in multiple records"
  records : d.relatedSourceIndices = (decoded.filter fun pair => pair.2 = sequence).map Prod.fst
  ascending : d.relatedSourceIndices.Pairwise (· < ·)

/-- The diagnostic of a gap names the two records. -/
structure ReportsGap (pair : (Nat × Int) × (Nat × Int)) (d : Diagnostic) : Prop where
  code : d.code = .TELEMETRY_SEQUENCE_GAP
  message : d.message = gapMessage pair.1.2 pair.2.2
  sourceIndex : d.sourceIndex = some pair.2.1
  records : d.relatedSourceIndices = [pair.1.1, pair.2.1]

/-- The sequences of two or more packets, ascending. -/
def repeatedSequences (decoded : List (Nat × Int)) : List Int :=
  (sortedSet (decoded.map Prod.snd)).filter fun sequence => 2 ≤ (decoded.map Prod.snd).count sequence

/-- The neighbours of which the second neither repeats nor follows the first. -/
def gapsOf (decoded : List (Nat × Int)) : List ((Nat × Int) × (Nat × Int)) :=
  (adjacent decoded).filter fun pair => pair.2.2 ≠ pair.1.2 ∧ pair.2.2 ≠ (pair.1.2 + 1) % 2 ^ 32

theorem gapPairs_eq (decoded : List (Nat × Int)) : gapPairs decoded = gapsOf decoded :=
  List.filter_congr fun pair _ => by rw [Bool.eq_iff_iff, decide_eq_true_iff, isGap_iff]

theorem repeatedGroups_eq (decoded : List (Nat × Int)) :
    repeatedGroups decoded = (repeatedSequences decoded).map fun sequence => (sequence, indicesOf decoded sequence) := by
  rw [repeatedGroups, indicesBySequence, List.filter_map, repeatedSequences]
  refine congrArg _ (List.filter_congr fun sequence _ => ?_)
  rw [Function.comp_apply, length_indicesOf]

section
variable {decoded : List (Nat × Int)}

/-- The way from the first sequence to the last is that of the packets and of the missing ones. -/
theorem sum_missingCount (hfits : ∀ pair ∈ decoded, FitsSequence pair.2) (hahead : ∀ pair ∈ adjacent decoded, Ahead pair) :
    ((((gapsOf decoded).map missingCount).sum + (adjacent decoded).length : Nat) : Int) =
      ((adjacent decoded).map forwardDistance).sum := by
  have hsecond : ∀ pair ∈ adjacent decoded, FitsSequence pair.2.2 := fun pair hpair =>
    hfits pair.2 (List.mem_of_mem_tail (List.of_mem_zip hpair).2)
  rw [← gapPairs_eq, show gapPairs decoded = (adjacent decoded).filter isGap from rfl]
  revert hahead hsecond
  generalize adjacent decoded = pairs
  intro hahead hsecond
  induction pairs with
  | nil => rfl
  | cons pair pairs ih =>
    have hrest := ih (fun p hp => hahead p (List.mem_cons_of_mem _ hp)) fun p hp => hsecond p (List.mem_cons_of_mem _ hp)
    have hpair := hahead pair (List.mem_cons_self ..)
    rw [List.map_cons, List.sum_cons, List.length_cons, ← hrest]
    by_cases hgap : isGap pair = true
    · have hone := one_lt_forwardDistance hpair (hsecond pair (List.mem_cons_self ..)) hgap
      rw [List.filter_cons_of_pos hgap, List.map_cons, List.sum_cons, missingCount]
      omega
    · rw [List.filter_cons_of_neg hgap, forwardDistance_of_not_gap hpair hgap]
      omega

theorem forall₂_of_map_eq {α β γ : Type} {f : α → γ} {g : β → γ} {as : List α} {bs : List β} (h : as.map f = bs.map g) :
    List.Forall₂ (fun a b => f a = g b) as bs := by
  have hall : List.Forall₂ (· = ·) (as.map f) (bs.map g) := by
    rw [List.forall₂_eq_eq_eq]
    exact h
  rwa [List.forall₂_map_left_iff, List.forall₂_map_right_iff] at hall

/-- The sequence diagnostics of decoded packets count what is repeated and what is missing. -/
theorem telemetrySequenceDiagnostics_counts (hindices : decoded.Pairwise fun a b => a.1 < b.1)
    (hfits : ∀ pair ∈ decoded, FitsSequence pair.2) : ∃ duplicates gaps gapCount duplicateCount,
      telemetrySequenceDiagnostics decoded = .ok (duplicates ++ gaps, gapCount, duplicateCount) ∧
      duplicateCount + (decoded.map Prod.snd).dedup.length = decoded.length ∧
      List.Forall₂ (ReportsDuplicate decoded) (repeatedSequences decoded) duplicates ∧
      gapCount = (gapsOf decoded).length ∧ List.Forall₂ ReportsGap (gapsOf decoded) gaps ∧
      (decoded ≠ [] → (∀ pair ∈ adjacent decoded, Ahead pair) → ∃ missing, List.Forall₂ PrintsMissing gaps missing ∧
        ((missing.sum + decoded.length : Nat) : Int) = ((adjacent decoded).map forwardDistance).sum + 1) := by
  obtain ⟨ds, hok, hmap⟩ := telemetrySequenceDiagnostics_ok hindices
  obtain ⟨duplicates, gaps, rfl, hduplicates, hgaps⟩ := List.map_eq_append_iff.mp hmap
  rw [repeatedGroups_eq, List.map_map] at hduplicates
  rw [gapPairs_eq] at hgaps
  have hgaps := forall₂_of_map_eq hgaps.symm
  refine ⟨duplicates, gaps, _, _, hok, sum_repeatedGroups_add_dedup decoded, ?_, by rw [gapPairs_eq], ?_, ?_⟩
  · refine (forall₂_of_map_eq hduplicates.symm).imp fun sequence d hd => ?_
    constructor
    case code => exact (congrArg DiagnosticData.code hd).symm
    case message => exact (congrArg DiagnosticData.message hd).symm
    case records => exact (congrArg DiagnosticData.relatedSourceIndices hd).symm
    case ascending => exact d.valid.ordered
  · refine hgaps.imp fun pair d hd => ?_
    constructor
    case code => exact (congrArg DiagnosticData.code hd).symm
    case message => exact (congrArg DiagnosticData.message hd).symm
    case sourceIndex => exact (congrArg DiagnosticData.sourceIndex hd).symm
    case records => exact (congrArg DiagnosticData.relatedSourceIndices hd).symm
  · intro hne hahead
    refine ⟨(gapsOf decoded).map missingCount, ?_, ?_⟩
    · have hgap : ∀ pair ∈ gapsOf decoded, Ahead pair ∧ 1 < forwardDistance pair := by
        intro pair hpair
        obtain ⟨hmem, hgap⟩ := List.mem_filter.mp (gapPairs_eq decoded ▸ hpair)
        have hfits := hfits pair.2 (List.mem_of_mem_tail (List.of_mem_zip hmem).2)
        exact ⟨hahead pair hmem, one_lt_forwardDistance (hahead pair hmem) hfits hgap⟩
      rw [List.forall₂_map_right_iff]
      refine (List.Forall₂.imp (fun pair d h => ?_) ((List.forall₂_and_left _ _).mpr ⟨hgap, hgaps⟩)).flip
      exact printsMissing_of_gap h.1.1 h.1.2 h.2.symm
    · have hsum := sum_missingCount hfits hahead
      have hlength : (adjacent decoded).length + 1 = decoded.length := by
        have hpos := List.length_pos_iff.mpr hne
        rw [adjacent, List.length_zip, List.length_tail]
        omega
      omega

end

/-- Of no packet at all nothing is missing, though the way would be one packet long. -/
theorem telemetrySequenceDiagnostics_empty : telemetrySequenceDiagnostics [] = .ok ([], 0, 0) ∧
    (∀ pair ∈ adjacent ([] : List (Nat × Int)), Ahead pair) ∧
    ¬∃ missing, List.Forall₂ PrintsMissing [] missing ∧
      ((missing.sum + ([] : List (Nat × Int)).length : Nat) : Int) =
        ((adjacent ([] : List (Nat × Int))).map forwardDistance).sum + 1 := by
  refine ⟨rfl, fun pair hpair => absurd hpair List.not_mem_nil, ?_⟩
  rintro ⟨missing, hmissing, hsum⟩
  rw [List.forall₂_nil_left_iff.mp hmissing] at hsum
  simp at hsum

theorem telemetrySequenceDiagnostics_counts_wraparound : ∃ duplicates gaps gapCount duplicateCount missing,
    telemetrySequenceDiagnostics [(0, 4294967294), (1, 4294967295), (2, 1)] =
      .ok (duplicates ++ gaps, gapCount, duplicateCount) ∧ List.Forall₂ PrintsMissing gaps missing ∧
      ((missing.sum + 3 : Nat) : Int) = ((adjacent [(0, 4294967294), (1, 4294967295), (2, 1)]).map forwardDistance).sum + 1 := by
  have hfits : ∀ pair ∈ [((0 : Nat), (4294967294 : Int)), (1, 4294967295), (2, 1)], FitsSequence pair.2 := by
    simp [FitsSequence, MAX_PACKET_SEQUENCE]
  have hahead : ∀ pair ∈ adjacent [((0 : Nat), (4294967294 : Int)), (1, 4294967295), (2, 1)], Ahead pair := by
    simp [adjacent, Ahead, forwardDistance]
  obtain ⟨duplicates, gaps, gapCount, duplicateCount, hok, -, -, -, -, hsum⟩ :=
    telemetrySequenceDiagnostics_counts (by simp) hfits
  obtain ⟨missing, hmissing, hsum⟩ := hsum (by simp) hahead
  exact ⟨duplicates, gaps, gapCount, duplicateCount, missing, hok, hmissing, hsum⟩

end OrbitOps.Session
