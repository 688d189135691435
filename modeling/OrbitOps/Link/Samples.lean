import OrbitOps.Link.Impairments
import OrbitOps.Py.Words

/-!
# The samples of the engine

The `k`-th sample of the `n`-th packet is call `6 n + k` of the generator, whatever the packets and the
configuration are (`processAll_decided`). Each decision reads one sample and one setting, so two runs
with one seed differ only where their settings do. Over all seeds a sample takes every value once, which
makes the configured rates exact.
-/

namespace OrbitOps.Link
open Py Words

namespace SplitMix64

theorem state_advance (rng : SplitMix64) (n : Nat) :
    (rng.advance n).state = rng.state + BitVec.ofNat 64 n * goldenGamma := by
  induction n with
  | zero => simp [advance]
  | succ n ih =>
    have hsucc : BitVec.ofNat 64 (n + 1) = BitVec.ofNat 64 n + 1#64 := by rw [BitVec.ofNat_add]
    show (rng.advance n).state + goldenGamma = _
    rw [ih, hsucc, BitVec.add_mul, BitVec.one_mul, BitVec.add_assoc]

theorem output_eq (rng : SplitMix64) (n : Nat) :
    rng.output n = mix (rng.state + BitVec.ofNat 64 (n + 1) * goldenGamma) :=
  congrArg mix (state_advance rng (n + 1))

/-! ### The generator loses nothing -/

theorem mix_injective : Function.Injective mix := by
  have h1 : mix1 * 0x96de1b173f119089#64 = 1#64 := by decide
  have h2 : mix2 * 0x319642b2d24d8ec3#64 = 1#64 := by decide
  have hround : mix = (fun x : BitVec 64 => x ^^^ (x >>> 31)) ∘ (fun x : BitVec 64 => x * mix2) ∘
      (fun x : BitVec 64 => x ^^^ (x >>> 27)) ∘ (fun x : BitVec 64 => x * mix1) ∘ fun x : BitVec 64 => x ^^^ (x >>> 30) := rfl
  rw [hround]
  exact (xor_shiftRight_injective (by decide)).comp ((mul_injective h2).comp
    ((xor_shiftRight_injective (by decide)).comp ((mul_injective h1).comp (xor_shiftRight_injective (by decide)))))

/-- Different calls within a period have different outputs. -/
theorem output_ne (rng : SplitMix64) {i j : Nat} (hij : i < j) (hj : j < i + 2 ^ 64) : rng.output i ≠ rng.output j := by
  intro heq
  rw [output_eq, output_eq] at heq
  have hgamma : goldenGamma * 0xf1de83e19937733d#64 = 1#64 := by decide
  have hmul := mul_injective hgamma ((BitVec.add_right_inj _).mp (mix_injective heq))
  have hmod := congrArg BitVec.toNat hmul
  rw [BitVec.toNat_ofNat, BitVec.toNat_ofNat] at hmod
  omega

end SplitMix64

namespace ImpairmentEngine

/-- The `k`-th sample that an engine with the seed draws for its `n`-th packet. -/
def sample (seed n k : Nat) : BitVec 64 := (SplitMix64.new seed).output (6 * n + k)

theorem sample_injective (n k : Nat) {seed seed' : Nat} (h : seed < 2 ^ 64) (h' : seed' < 2 ^ 64)
    (heq : sample seed n k = sample seed' n k) : seed = seed' := by
  rw [sample, sample, SplitMix64.output_eq, SplitMix64.output_eq] at heq
  have hstate := (BitVec.add_left_inj _).mp (SplitMix64.mix_injective heq)
  have hmod := congrArg BitVec.toNat hstate
  rw [SplitMix64.new, SplitMix64.new, BitVec.toNat_ofNat, BitVec.toNat_ofNat] at hmod
  omega

/-- What the samples of the `n`-th packet decide. -/
structure Decided (config : LinkConfig) (payload : Bytes) (n : Nat) (o : PacketOutcome) : Prop where
  dropped : o.dropped = probabilityHit (sample config.seed n 0) config.lossRate.value.toRat
  kept : o.dropped = false → o.deliveries ≠ []
  duplicated : o.dropped = false →
    o.duplicated = probabilityHit (sample config.seed n 1) config.duplicateRate.value.toRat
  delay : ∀ d ∈ o.deliveries, ∃ jitter, jitterOffset config (sample config.seed n 3) = .ok jitter ∧
    d.delayMs = max 0 (config.latencyMs + jitter)
  hold : ∀ d ∈ o.deliveries, holdPackets config (sample config.seed n 4) = .ok d.holdPackets
  payload : ∀ d ∈ o.deliveries, corruptPayload payload (sample config.seed n 5)
    (probabilityHit (sample config.seed n 2) config.corruptRate.value.toRat) = .ok (d.corruptedBit, d.payload)

theorem process_decided {config : LinkConfig} {payload : Bytes} {n : Nat} {index : Int} {o : PacketOutcome}
    {e : ImpairmentEngine}
    (h : process payload ⟨config, (SplitMix64.new config.seed).advance (6 * n), index⟩ = (.ok o, e)) :
    Decided config payload n o := by
  have hsample (k : Nat) : ((SplitMix64.new config.seed).advance (6 * n)).output k = sample config.seed n k :=
    SplitMix64.output_advance _ _ _
  rw [process_apply] at h
  simp only [hsample] at h
  obtain ⟨jitter, hjitter, -⟩ := jitterOffset_spec config (sample config.seed n 3)
  obtain ⟨hold, hhold, -⟩ := holdPackets_spec config (sample config.seed n 4)
  obtain ⟨bit, out, hcorrupt, -⟩ := corruptPayload_spec payload (sample config.seed n 5)
    (probabilityHit (sample config.seed n 2) config.corruptRate.value.toRat)
  have himpair : impair config payload (sample config.seed n 3) (sample config.seed n 4) (sample config.seed n 5)
      (probabilityHit (sample config.seed n 2) config.corruptRate.value.toRat) =
        .ok ⟨out, 0, max 0 (config.latencyMs + jitter), hold, bit⟩ := by
    simp only [impair, hjitter, hhold, hcorrupt, bind, Except.bind]
    rfl
  rw [himpair] at h
  have ho := Except.ok.inj (congrArg Prod.fst h)
  subst ho
  cases hdrop : probabilityHit (sample config.seed n 0) config.lossRate.value.toRat with
  | true =>
    refine ⟨by rw [hdrop]; rfl, fun hkeep => ?_, fun hkeep => ?_, by simp [outcome], by simp [outcome],
      by simp [outcome]⟩
    · cases hkeep
    · cases hkeep
  | false =>
    cases hdup : probabilityHit (sample config.seed n 1) config.duplicateRate.value.toRat with
    | true =>
      exact ⟨by rw [hdrop]; rfl, fun _ => by simp [outcome], fun _ => by rw [hdup]; rfl,
        by simp [outcome, hjitter], by simp [outcome, hhold], by simp [outcome, hcorrupt]⟩
    | false =>
      exact ⟨by rw [hdrop]; rfl, fun _ => by simp [outcome], fun _ => by rw [hdup]; rfl,
        by simp [outcome, hjitter], by simp [outcome, hhold], by simp [outcome, hcorrupt]⟩

theorem processAll_decided (config : LinkConfig) (payloads : List Bytes) :
    ∃ os e, processAll payloads (new config) = (.ok os, e) ∧ os.length = payloads.length ∧
      ∀ (n : Nat) payload o, payloads[n]? = some payload → os[n]? = some o → Decided config payload n o := by
  obtain ⟨os, e, hos, hlen, -⟩ := processAll_spec payloads (new config)
  refine ⟨os, e, hos, hlen, fun n payload o hp ho => ?_⟩
  obtain ⟨o', e'', ho', hproc⟩ := processAll_getElem? hos hp
  rw [ho] at ho'
  cases ho'
  exact process_decided hproc

/-- As many seeds give a sample that passes a test as there are samples that pass it. -/
theorem card_seeds (n k : Nat) (p : Nat → Prop) [DecidablePred p] :
    ((Finset.range (2 ^ 64)).filter fun seed => p (sample seed n k).toNat).card =
      ((Finset.range (2 ^ 64)).filter p).card := by
  refine card_filter_of_injOn (fun seed _ => (sample seed n k).isLt) ?_ p
  intro seed hseed seed' hseed' heq
  exact sample_injective n k (Finset.mem_range.mp hseed) (Finset.mem_range.mp hseed') (BitVec.eq_of_toNat_eq heq)

/-! ### Exact rates -/

/-- A sample hits a rate when it is below the threshold, whatever the rate is. -/
theorem probabilityHit_iff (s : BitVec 64) (r : ℚ) : probabilityHit s r = true ↔ (s.toNat : Int) < ⌊r * 2 ^ 64⌋ := by
  have hs : (s.toNat : Int) < 2 ^ 64 := by exact_mod_cast s.isLt
  unfold probabilityHit
  split_ifs with h0 h1
  · have hfloor : ⌊r * 2 ^ 64⌋ ≤ 0 := by
      rw [Int.floor_le_iff]
      have : r * 2 ^ 64 ≤ 0 := mul_nonpos_of_nonpos_of_nonneg h0 (by norm_num)
      exact_mod_cast this.trans_lt zero_lt_one
    simp only [false_iff, not_lt]
    omega
  · have hfloor : (2 : Int) ^ 64 ≤ ⌊r * 2 ^ 64⌋ := by
      rw [Int.le_floor]
      push_cast
      exact le_mul_of_one_le_left (by norm_num) h1
    simp only [true_iff]
    omega
  · have hnum : r * 2 ^ 64 = ((r.num * 2 ^ 64 : Int) : ℚ) / (r.den : ℚ) := by
      push_cast
      rw [mul_div_right_comm, Rat.num_div_den]
      norm_num
    rw [decide_eq_true_eq, hnum, Rat.floor_intCast_div_natCast]

theorem probabilityHit_mono {s : BitVec 64} {r r' : ℚ} (h : r ≤ r') (hit : probabilityHit s r = true) :
    probabilityHit s r' = true := by
  rw [probabilityHit_iff] at hit ⊢
  have hfloor : ⌊r * 2 ^ 64⌋ ≤ ⌊r' * 2 ^ 64⌋ := Int.floor_le_floor (mul_le_mul_of_nonneg_right h (by norm_num))
  omega

/-- Of all seeds, exactly `⌊r * 2 ^ 64⌋` hit a rate at a sample. -/
theorem card_probabilityHit (n k : Nat) {r : ℚ} (h0 : 0 ≤ r) (h1 : r ≤ 1) :
    (((Finset.range (2 ^ 64)).filter fun seed => probabilityHit (sample seed n k) r = true).card : Int) =
      ⌊r * 2 ^ 64⌋ := by
  have hlow : 0 ≤ ⌊r * 2 ^ 64⌋ := Int.floor_nonneg.mpr (mul_nonneg h0 (by norm_num))
  have hhigh : ⌊r * 2 ^ 64⌋ ≤ 2 ^ 64 := by
    have hmul : r * 2 ^ 64 ≤ 2 ^ 64 := mul_le_of_le_one_left (by norm_num) h1
    have := Int.floor_le_floor hmul
    rwa [show ⌊(2 : ℚ) ^ 64⌋ = 2 ^ 64 by rw [show (2 : ℚ) ^ 64 = ((2 ^ 64 : Int) : ℚ) by norm_num, Int.floor_intCast]] at this
  obtain ⟨t, ht⟩ := Int.eq_ofNat_of_zero_le hlow
  have hcount : ((Finset.range (2 ^ 64)).filter fun seed => probabilityHit (sample seed n k) r = true).card =
      ((Finset.range (2 ^ 64)).filter fun x => x < t).card := by
    rw [← card_seeds n k fun x => x < t]
    refine congrArg Finset.card (Finset.filter_congr fun seed _ => ?_)
    rw [probabilityHit_iff, ht]
    exact Int.ofNat_lt
  rw [hcount, ht, card_filter_lt (by omega)]

/-- Of all seeds, `2 ^ 64 / (W + 1)`, rounded down or up, give each hold from `0` to `W`. -/
theorem card_holdPackets (config : LinkConfig) (n : Nat) {v : Nat} (hv : v ≤ config.reorderWindow) :
    ((Finset.range (2 ^ 64)).filter fun seed => holdPackets config (sample seed n 4) = .ok (v : Int)).card =
        2 ^ 64 / (config.reorderWindow + 1) ∨
      ((Finset.range (2 ^ 64)).filter fun seed => holdPackets config (sample seed n 4) = .ok (v : Int)).card =
        2 ^ 64 ⌈/⌉ (config.reorderWindow + 1) := by
  have hcount : ((Finset.range (2 ^ 64)).filter fun seed => holdPackets config (sample seed n 4) = .ok (v : Int)).card =
      ((Finset.range (2 ^ 64)).filter fun x => x * (config.reorderWindow + 1) / 2 ^ 64 = v).card := by
    rw [← card_seeds n 4 fun x => x * (config.reorderWindow + 1) / 2 ^ 64 = v]
    refine congrArg Finset.card (Finset.filter_congr fun seed _ => ?_)
    have hlt := (sample seed n 4).isLt
    by_cases hw : config.reorderWindow = 0
    · have hzero : (sample seed n 4).toNat * (config.reorderWindow + 1) / 2 ^ 64 = 0 := by
        rw [hw]
        exact Nat.div_eq_of_lt (by omega)
      rw [hzero, holdPackets, if_pos hw, Except.ok.injEq]
      omega
    · rw [holdPackets, if_neg hw, scaleU64, if_neg (by omega), Except.ok.injEq]
      exact_mod_cast Iff.rfl
  rw [hcount]
  exact card_filter_scale (Nat.lt_succ_of_le hv)

/-- The samples that decide the packets are exact over the seeds: a rate `r` is hit by `⌊r * 2 ^ 64⌋` of
the `2 ^ 64` seeds, every hold up to the reorder window is given by `2 ^ 64 / (W + 1)` of them, rounded
down or up; and any `2 ^ 64` consecutive outputs of the generator differ. -/
theorem rates_exact :
    (∀ config payloads, ∃ os e, processAll payloads (new config) = (.ok os, e) ∧ os.length = payloads.length ∧
      ∀ (n : Nat) payload o, payloads[n]? = some payload → os[n]? = some o → Decided config payload n o) ∧
    (∀ n k (r : ℚ), 0 ≤ r → r ≤ 1 →
      (((Finset.range (2 ^ 64)).filter fun seed => probabilityHit (sample seed n k) r = true).card : Int) =
        ⌊r * 2 ^ 64⌋) ∧
    (∀ (config : LinkConfig) n (v : Nat), v ≤ config.reorderWindow →
      ((Finset.range (2 ^ 64)).filter fun seed => holdPackets config (sample seed n 4) = .ok (v : Int)).card =
          2 ^ 64 / (config.reorderWindow + 1) ∨
        ((Finset.range (2 ^ 64)).filter fun seed => holdPackets config (sample seed n 4) = .ok (v : Int)).card =
          2 ^ 64 ⌈/⌉ (config.reorderWindow + 1)) ∧
    ∀ (rng : SplitMix64) (i j : Nat), i < j → j < i + 2 ^ 64 → rng.output i ≠ rng.output j :=
  ⟨processAll_decided, fun n k _ h0 h1 => card_probabilityHit n k h0 h1,
    fun config n _ hv => card_holdPackets config n hv, fun rng _ _ hij hj => rng.output_ne hij hj⟩

/-! ### Two runs with one seed -/

theorem corruptPayload_bit {payload out : Bytes} {s : BitVec 64} {corrupt : Bool} {bit : Option Int}
    (h : corruptPayload payload s corrupt = .ok (bit, out)) :
    bit = if corrupt = true ∧ payload.length ≠ 0 then some (((s.toNat : Int) * (payload.length * 8)) / 2 ^ 64) else none := by
  unfold corruptPayload at h
  by_cases hc : corrupt = true ∧ payload ≠ []
  · have hlen : payload.length ≠ 0 := fun hzero => hc.2 (List.length_eq_zero_iff.mp hzero)
    rw [if_pos hc, scaleU64, if_neg (by omega)] at h
    obtain ⟨b, hb, h⟩ := except_bind_eq_ok.mp h
    obtain ⟨flipped, -, h⟩ := except_bind_eq_ok.mp h
    cases hb
    cases h
    rw [if_pos ⟨hc.1, hlen⟩]
  · rw [if_neg hc] at h
    cases h
    rw [if_neg]
    rintro ⟨hcorrupt, hlen⟩
    exact hc ⟨hcorrupt, fun hnil => hlen (by rw [hnil]; rfl)⟩

/-- How the outcomes at one position of two streams relate when their engines have one seed. -/
structure Agrees (config config' : LinkConfig) (payload payload' : Bytes) (o o' : PacketOutcome) : Prop where
  dropped_eq : config.lossRate.value.toRat = config'.lossRate.value.toRat → o.dropped = o'.dropped
  dropped_mono : config.lossRate.value.toRat ≤ config'.lossRate.value.toRat → o.dropped = true → o'.dropped = true
  kept : (o.dropped = false → o.deliveries ≠ []) ∧ (o'.dropped = false → o'.deliveries ≠ [])
  duplicated_eq : o.dropped = false → o'.dropped = false →
    config.duplicateRate.value.toRat = config'.duplicateRate.value.toRat → o.duplicated = o'.duplicated
  duplicated_mono : o.dropped = false → o'.dropped = false →
    config.duplicateRate.value.toRat ≤ config'.duplicateRate.value.toRat → o.duplicated = true → o'.duplicated = true
  delay : config.latencyMs = config'.latencyMs → config.jitterMs = config'.jitterMs →
    ∀ d ∈ o.deliveries, ∀ d' ∈ o'.deliveries, d.delayMs = d'.delayMs
  hold : config.reorderWindow = config'.reorderWindow →
    ∀ d ∈ o.deliveries, ∀ d' ∈ o'.deliveries, d.holdPackets = d'.holdPackets
  corruptedBit : config.corruptRate.value.toRat = config'.corruptRate.value.toRat → payload.length = payload'.length →
    ∀ d ∈ o.deliveries, ∀ d' ∈ o'.deliveries, d.corruptedBit = d'.corruptedBit
  corrupted_mono : config.corruptRate.value.toRat ≤ config'.corruptRate.value.toRat → payload' ≠ [] →
    ∀ d ∈ o.deliveries, ∀ d' ∈ o'.deliveries, d.corruptedBit.isSome = true → d'.corruptedBit.isSome = true

theorem Decided.agrees {config config' : LinkConfig} {payload payload' : Bytes} {n : Nat} {o o' : PacketOutcome}
    (hseed : config.seed = config'.seed) (h : Decided config payload n o) (h' : Decided config' payload' n o') :
    Agrees config config' payload payload' o o' := by
  constructor
  · intro hrate
    rw [h.dropped, h'.dropped, hseed, hrate]
  · intro hrate hdrop
    rw [h.dropped, hseed] at hdrop
    rw [h'.dropped]
    exact probabilityHit_mono hrate hdrop
  · exact ⟨h.kept, h'.kept⟩
  · intro hkeep hkeep' hrate
    rw [h.duplicated hkeep, h'.duplicated hkeep', hseed, hrate]
  · intro hkeep hkeep' hrate hdup
    rw [h.duplicated hkeep, hseed] at hdup
    rw [h'.duplicated hkeep']
    exact probabilityHit_mono hrate hdup
  · intro hlatency hjitter d hd d' hd'
    obtain ⟨j, hj, hdelay⟩ := h.delay d hd
    obtain ⟨j', hj', hdelay'⟩ := h'.delay d' hd'
    rw [jitterOffset, hseed, hjitter] at hj
    obtain rfl : j = j' := Except.ok.inj (hj.symm.trans hj')
    rw [hdelay, hdelay', hlatency]
  · intro hwindow d hd d' hd'
    have hh := h.hold d hd
    rw [holdPackets, hseed, hwindow] at hh
    exact Except.ok.inj (hh.symm.trans (h'.hold d' hd'))
  · intro hrate hlen d hd d' hd'
    rw [corruptPayload_bit (h.payload d hd), corruptPayload_bit (h'.payload d' hd'), hseed, hrate, hlen]
  · intro hrate hne d hd d' hd' hsome
    rw [corruptPayload_bit (h.payload d hd), hseed] at hsome
    split_ifs at hsome with hc
    · have hlen' : payload'.length ≠ 0 := fun hzero => hne (List.length_eq_zero_iff.mp hzero)
      rw [corruptPayload_bit (h'.payload d' hd'), if_pos ⟨probabilityHit_mono hrate hc.1, hlen'⟩]
      rfl
    · cases hsome

/-- Two engines with one seed, fed with any two streams, decide the packets at each position alike as far
as the setting that a decision reads is the same, and monotonically in the rates. -/
theorem decisions_independent {config config' : LinkConfig} (hseed : config.seed = config'.seed)
    (payloads payloads' : List Bytes) :
    ∃ os e os' e', processAll payloads (new config) = (.ok os, e) ∧ processAll payloads' (new config') = (.ok os', e') ∧
      os.length = payloads.length ∧ os'.length = payloads'.length ∧
      ∀ (n : Nat) payload payload' o o', payloads[n]? = some payload → payloads'[n]? = some payload' →
        os[n]? = some o → os'[n]? = some o' → Agrees config config' payload payload' o o' := by
  obtain ⟨os, e, hos, hlen, hall⟩ := processAll_decided config payloads
  obtain ⟨os', e', hos', hlen', hall'⟩ := processAll_decided config' payloads'
  refine ⟨os, e, os', e', hos, hos', hlen, hlen', fun n payload payload' o o' hp hp' ho ho' => ?_⟩
  exact (hall n payload o hp ho).agrees hseed (hall' n payload' o' hp' ho')

/-- Nothing is lost, everything corrupted, and the latency is longer. -/
def losslessConfig : LinkConfig := { LinkConfig.busy with lossRate := .zero, corruptRate := .one, latencyMs := 9 }

def someStream : List Bytes := [[1, 2], [3, 4, 5], [6], [7, 8]]

def otherStream : List Bytes := [[9, 9], [8, 8, 8], [7, 7], []]

/-- The loss, the duplication and the holds of a packet. -/
def decided (o : PacketOutcome) : Bool × Bool × List Int :=
  (o.dropped, o.duplicated, o.deliveries.map fun d => d.holdPackets)

theorem map_decided {stream : List Bytes} {config : LinkConfig} {os : List PacketOutcome} {e : ImpairmentEngine}
    (hos : processAll stream (new config) = (.ok os, e)) {ds : List (Bool × Bool × List Int)}
    (h : (processAll stream (new config)).1.toOption.map (List.map decided) = some ds) : os.map decided = ds := by
  rw [hos] at h
  exact Option.some.inj h

/-- Two streams of four packets, with different rates and delays: the packets that both engines keep are duplicated and
held alike. -/
theorem decisions_independent_busy : ∃ os e os' e',
    processAll someStream (new .busy) = (.ok os, e) ∧ processAll otherStream (new losslessConfig) = (.ok os', e') ∧
      os.map decided =
        [(true, false, []), (false, true, [3, 3]), (false, false, [2]), (false, true, [2, 2])] ∧
      os'.map decided =
        [(false, false, [1]), (false, true, [3, 3]), (false, false, [2]), (false, true, [2, 2])] ∧
      ∀ (n : Nat) payload payload' o o', someStream[n]? = some payload → otherStream[n]? = some payload' →
        os[n]? = some o → os'[n]? = some o' → Agrees .busy losslessConfig payload payload' o o' := by
  have hseed : LinkConfig.busy.seed = losslessConfig.seed := rfl
  obtain ⟨os, e, os', e', hos, hos', -, -, h⟩ := decisions_independent hseed someStream otherStream
  exact ⟨os, e, os', e', hos, hos', map_decided hos (by decide +kernel), map_decided hos' (by decide +kernel), h⟩

end ImpairmentEngine

end OrbitOps.Link
