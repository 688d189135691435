import OrbitOps.Link.Decisions
import OrbitOps.Protocol

/-!
# The impairment engine

Every input draws six samples and gets the next packet index, whatever is decided. The bit that a
corruption flips is always inside the payload, so a copy that leaves the engine is either the
input or the input with exactly one bit changed; a changed copy of an encoded packet fails the
checksum.
-/

namespace OrbitOps.Link
open Py

/-- The bytes with one bit flipped; bit zero is the least significant one of byte zero. -/
def flipBit (payload : Bytes) (bitIndex : Int) : Result Bytes :=
  if 0 ≤ bitIndex ∧ bitIndex < payload.length * 8 then
    let byteIndex := bitIndex.toNat / 8
    let offset := bitIndex.toNat % 8
    .ok (payload.modify byteIndex fun b => b ^^^ UInt8.ofNat (1 <<< offset))
  else .error (valueError "bit_index is outside the payload")

structure ImpairmentEngine where
  config : LinkConfig
  rng : SplitMix64
  packetIndex : Int

namespace ImpairmentEngine

def new (config : LinkConfig) : ImpairmentEngine := ⟨config, .new config.seed, 0⟩

/-- The next sample, the generator advanced. -/
def draw : Method PyError ImpairmentEngine (BitVec 64) := fun e =>
  let (sample, rng) := e.rng.nextU64
  (.ok sample, { e with rng := rng })

theorem draw_apply (e : ImpairmentEngine) :
    draw e = (.ok e.rng.nextU64.1, { e with rng := e.rng.nextU64.2 }) := rfl

/-- The jitter added to the latency. -/
def jitterOffset (config : LinkConfig) (sample : BitVec 64) : Result Int :=
  if config.jitterMs = 0 then .ok 0
  else do
    let span : Int := 2 * config.jitterMs + 1
    let v ← scaleU64 sample span
    return v - config.jitterMs

/-- How many later packets may hold this one back. -/
def holdPackets (config : LinkConfig) (sample : BitVec 64) : Result Int :=
  if config.reorderWindow = 0 then .ok 0 else scaleU64 sample (config.reorderWindow + 1)

/-- The flipped bit and the payload to emit. -/
def corruptPayload (payload : Bytes) (sample : BitVec 64) (corrupt : Bool) : Result (Option Int × Bytes) :=
  if corrupt = true ∧ payload ≠ [] then do
    let bit ← scaleU64 sample (payload.length * 8)
    let flipped ← flipBit payload bit
    return (some bit, flipped)
  else .ok (none, payload)

/-- The first copy of a datagram, decided from its last samples. -/
def impair (config : LinkConfig) (payload : Bytes) (s3 s4 s5 : BitVec 64) (corrupt : Bool) : Result Delivery := do
  let jitter ← jitterOffset config s3
  let hold ← holdPackets config s4
  let (bit, out) ← corruptPayload payload s5 corrupt
  return {
    payload := out
    copyIndex := 0
    delayMs := max 0 (config.latencyMs + jitter)
    holdPackets := hold
    corruptedBit := bit }

/-- The outcome of a datagram whose first copy is known. -/
def outcome (packetIndex : Int) (drop duplicate : Bool) (delivery : Delivery) : PacketOutcome :=
  if drop then { packetIndex := packetIndex, dropped := true, deliveries := [] }
  else
    let copies : List Int := if duplicate then [0, 1] else [0]
    { packetIndex := packetIndex, dropped := false, deliveries := copies.map fun c => { delivery with copyIndex := c } }

def process (payload : Bytes) : Method PyError ImpairmentEngine PacketOutcome := do
  let s0 ← draw
  let s1 ← draw
  let s2 ← draw
  let s3 ← draw
  let s4 ← draw
  let s5 ← draw
  let self ← Method.get
  let packetIndex := self.packetIndex
  Method.modify fun e => { e with packetIndex := e.packetIndex + 1 }
  let drop := probabilityHit s0 self.config.lossRate.value.toRat
  let duplicate := probabilityHit s1 self.config.duplicateRate.value.toRat
  let corrupt := probabilityHit s2 self.config.corruptRate.value.toRat
  let delivery ← Method.lift (impair self.config payload s3 s4 s5 corrupt)
  return outcome packetIndex drop duplicate delivery

/-- One engine fed with datagrams in order. -/
def processAll : List Bytes → Method PyError ImpairmentEngine (List PacketOutcome)
  | [] => pure []
  | payload :: rest => do
    let outcome ← process payload
    let outcomes ← processAll rest
    return outcome :: outcomes

/-! ### What one input becomes -/

/-- A copy that the engine may emit for a payload. -/
structure Emits (config : LinkConfig) (payload : Bytes) (d : Delivery) : Prop where
  delay_ge : max 0 ((config.latencyMs : Int) - config.jitterMs) ≤ d.delayMs
  delay_le : d.delayMs ≤ config.latencyMs + config.jitterMs
  hold : 0 ≤ d.holdPackets ∧ d.holdPackets ≤ config.reorderWindow
  payload : (d.corruptedBit = none ∧ d.payload = payload) ∨
    ∃ bit, d.corruptedBit = some bit ∧ 0 ≤ bit ∧ bit < payload.length * 8 ∧ flipBit payload bit = .ok d.payload

/-- The outcome of one input: dropped, or one or two copies that differ only in their index. -/
structure Impairs (config : LinkConfig) (payload : Bytes) (index : Int) (o : PacketOutcome) : Prop where
  packetIndex : o.packetIndex = index
  deliveries : (o.dropped = true ∧ o.deliveries = []) ∨
    (o.dropped = false ∧ ∃ d copies, Emits config payload d ∧ (copies = [0] ∨ copies = [0, 1]) ∧
      o.deliveries = copies.map fun c => { d with copyIndex := c })

theorem flipBit_eq_ok {payload out : Bytes} {bit : Int} (h : flipBit payload bit = .ok out) :
    ∃ pre b b' suf, payload = pre ++ b :: suf ∧ out = pre ++ b' :: suf ∧ b ≠ b' := by
  unfold flipBit at h
  split_ifs at h with hr
  simp only [Except.ok.injEq] at h
  have hmask : ∀ k < 8, UInt8.ofNat (1 <<< k) ≠ 0 := by decide
  have hne (b m : UInt8) (hm : m ≠ 0) : b ≠ b ^^^ m := fun heq => hm <| by
    rw [← UInt8.zero_xor (a := m), ← UInt8.xor_self (a := b), UInt8.xor_assoc, ← heq, UInt8.xor_self]
  obtain ⟨pre, b, suf, hp, -, hm⟩ := List.exists_of_modify
    (fun b => b ^^^ UInt8.ofNat (1 <<< (bit.toNat % 8))) (show bit.toNat / 8 < payload.length by omega)
  exact ⟨pre, b, _, suf, hp, h.symm.trans hm, hne _ _ (hmask _ (Nat.mod_lt _ (by decide)))⟩

theorem flipBit_ok {payload : Bytes} {bit : Int} (h : 0 ≤ bit ∧ bit < payload.length * 8) :
    ∃ out, flipBit payload bit = .ok out := ⟨_, if_pos h⟩

theorem jitterOffset_spec (config : LinkConfig) (s : BitVec 64) :
    ∃ j, jitterOffset config s = .ok j ∧ -(config.jitterMs : Int) ≤ j ∧ j ≤ config.jitterMs := by
  unfold jitterOffset
  split_ifs with h
  · exact ⟨0, rfl, by omega, by omega⟩
  · obtain ⟨v, hv, h0, h1⟩ := scaleU64_spec s (show 0 < 2 * (config.jitterMs : Int) + 1 by positivity)
    refine ⟨v - config.jitterMs, ?_, by omega, by omega⟩
    dsimp only
    rw [hv]; rfl

theorem holdPackets_spec (config : LinkConfig) (s : BitVec 64) :
    ∃ k, holdPackets config s = .ok k ∧ 0 ≤ k ∧ k ≤ config.reorderWindow := by
  unfold holdPackets
  split_ifs with h
  · exact ⟨0, rfl, le_refl 0, by omega⟩
  · obtain ⟨v, hv, h0, h1⟩ := scaleU64_spec s (show 0 < (config.reorderWindow : Int) + 1 by positivity)
    exact ⟨v, hv, h0, by omega⟩

theorem corruptPayload_spec (payload : Bytes) (s : BitVec 64) (corrupt : Bool) :
    ∃ bit out, corruptPayload payload s corrupt = .ok (bit, out) ∧ ((bit = none ∧ out = payload) ∨
      ∃ b, bit = some b ∧ 0 ≤ b ∧ b < payload.length * 8 ∧ flipBit payload b = .ok out) := by
  unfold corruptPayload
  split_ifs with h
  · have hlen : (0 : Int) < payload.length * 8 := by
      have := List.length_pos_of_ne_nil h.2
      omega
    obtain ⟨b, hb, h0, h1⟩ := scaleU64_spec s hlen
    obtain ⟨out, hout⟩ := flipBit_ok ⟨h0, h1⟩
    exact ⟨some b, out, by rw [hb]; simp only [bind, Except.bind, hout]; rfl, .inr ⟨b, rfl, h0, h1, hout⟩⟩
  · exact ⟨none, payload, rfl, .inl ⟨rfl, rfl⟩⟩

theorem impair_spec (config : LinkConfig) (payload : Bytes) (s3 s4 s5 : BitVec 64) (corrupt : Bool) :
    ∃ d, impair config payload s3 s4 s5 corrupt = .ok d ∧ Emits config payload d := by
  obtain ⟨j, hj, hj0, hj1⟩ := jitterOffset_spec config s3
  obtain ⟨k, hk, hk0, hk1⟩ := holdPackets_spec config s4
  obtain ⟨bit, out, hc, hpayload⟩ := corruptPayload_spec payload s5 corrupt
  refine ⟨⟨out, 0, max 0 (config.latencyMs + j), k, bit⟩, ?_, ?_, ?_, ⟨hk0, hk1⟩, hpayload⟩
  · simp only [impair, hj, hk, hc, bind, Except.bind]; rfl
  · dsimp only; omega
  · dsimp only; omega

theorem outcome_impairs {config : LinkConfig} {payload : Bytes} {d : Delivery} (h : Emits config payload d)
    (index : Int) (drop duplicate : Bool) : Impairs config payload index (outcome index drop duplicate d) := by
  unfold outcome
  cases drop with
  | true => exact ⟨rfl, .inl ⟨rfl, rfl⟩⟩
  | false =>
    cases duplicate with
    | true => exact ⟨rfl, .inr ⟨rfl, d, [0, 1], h, .inr rfl, rfl⟩⟩
    | false => exact ⟨rfl, .inr ⟨rfl, d, [0], h, .inl rfl, rfl⟩⟩

/-- What processing does with the six samples. -/
theorem process_apply (payload : Bytes) (config : LinkConfig) (rng : SplitMix64) (index : Int) :
    process payload ⟨config, rng, index⟩ =
      ((impair config payload (rng.output 3) (rng.output 4) (rng.output 5)
          (probabilityHit (rng.output 2) config.corruptRate.value.toRat)).map
        (outcome index (probabilityHit (rng.output 0) config.lossRate.value.toRat)
          (probabilityHit (rng.output 1) config.duplicateRate.value.toRat)),
        ⟨config, rng.advance 6, index + 1⟩) := by
  unfold process
  iterate 6 rw [Method.bind_ok (draw_apply _)]
  rw [Method.bind_ok (Method.get_apply _), Method.bind_ok (Method.modify_apply _ _)]
  exact Method.lift_map _ _ _

/-- Processing never raises, keeps the configuration and moves to the next index. -/
theorem process_spec (payload : Bytes) (e : ImpairmentEngine) :
    ∃ o e', process payload e = (.ok o, e') ∧ Impairs e.config payload e.packetIndex o ∧
      e'.config = e.config ∧ e'.packetIndex = e.packetIndex + 1 := by
  unfold process
  iterate 6 rw [Method.bind_ok (draw_apply _)]
  rw [Method.bind_ok (Method.get_apply _), Method.bind_ok (Method.modify_apply _ _)]
  obtain ⟨d, hd, hem⟩ := impair_spec e.config payload _ _ _ _
  rw [Method.bind_ok (Method.lift_eq hd _)]
  exact ⟨_, _, rfl, outcome_impairs hem .., rfl, rfl⟩

/-- Every emitted copy is one the configuration allows. -/
theorem Impairs.emits {config : LinkConfig} {payload : Bytes} {index : Int} {o : PacketOutcome}
    (h : Impairs config payload index o) {d : Delivery} (hd : d ∈ o.deliveries) : Emits config payload d := by
  rcases h.deliveries with ⟨-, hnil⟩ | ⟨-, first, copies, hem, -, hds⟩
  · rw [hnil] at hd; cases hd
  · rw [hds, List.mem_map] at hd
    obtain ⟨c, -, rfl⟩ := hd
    exact ⟨hem.delay_ge, hem.delay_le, hem.hold, hem.payload⟩

theorem Impairs.deliveries_eq_nil {config : LinkConfig} {payload : Bytes} {index : Int} {o : PacketOutcome}
    (h : Impairs config payload index o) (hd : o.dropped = true) : o.deliveries = [] := by
  rcases h.deliveries with ⟨-, hnil⟩ | ⟨hnot, -⟩
  · exact hnil
  · rw [hd] at hnot; cases hnot

theorem Impairs.deliveries_ne_nil {config : LinkConfig} {payload : Bytes} {index : Int} {o : PacketOutcome}
    (h : Impairs config payload index o) (hd : o.dropped = false) : o.deliveries ≠ [] := by
  rcases h.deliveries with ⟨hnot, -⟩ | ⟨-, d, copies, -, rfl | rfl, hds⟩
  · rw [hd] at hnot; cases hnot
  · simp [hds]
  · simp [hds]

/-- A stream is processed whole, each input at its position. -/
theorem processAll_spec (payloads : List Bytes) (e : ImpairmentEngine) :
    ∃ os e', processAll payloads e = (.ok os, e') ∧ os.length = payloads.length ∧
      ∀ (n : Nat) payload o, payloads[n]? = some payload → os[n]? = some o →
        Impairs e.config payload (e.packetIndex + n) o := by
  induction payloads generalizing e with
  | nil => exact ⟨[], e, rfl, rfl, fun n _ _ h => by simp at h⟩
  | cons p ps ih =>
    obtain ⟨o, e1, ho, him, hcfg, hidx⟩ := process_spec p e
    obtain ⟨os, e2, hos, hlen, hall⟩ := ih e1
    refine ⟨o :: os, e2, ?_, by simp [hlen], ?_⟩
    · rw [processAll, Method.bind_ok ho, Method.bind_ok hos]; rfl
    · intro n payload o' hp ho'
      cases n with
      | zero =>
        simp only [List.getElem?_cons_zero, Option.some.injEq] at hp ho'
        subst hp ho'
        simpa using him
      | succ n =>
        simp only [List.getElem?_cons_succ] at hp ho'
        have := hall n payload o' hp ho'
        rw [hcfg, hidx] at this
        rw [show e.packetIndex + ((n + 1 : Nat) : Int) = e.packetIndex + 1 + n by push_cast; ring]
        exact this

/-! ### The flipped bit -/

/-- A bit of a payload; bit zero is the least significant one of byte zero. -/
def bitAt (payload : Bytes) (i : Nat) : Bool := (payload.getD (i / 8) 0).toNat.testBit (i % 8)

theorem length_flipBit {payload out : Bytes} {bit : Int} (h : flipBit payload bit = .ok out) :
    out.length = payload.length := by
  unfold flipBit at h
  split_ifs at h with hr
  simp only [Except.ok.injEq] at h
  rw [← h, List.length_modify]

theorem bitAt_flipBit {payload out : Bytes} {bit : Int} (h : flipBit payload bit = .ok out) (j : Nat) :
    bitAt out j = (bitAt payload j ^^ decide ((j : Int) = bit)) := by
  unfold flipBit at h
  split_ifs at h with hr
  simp only [Except.ok.injEq] at h
  obtain ⟨i, rfl⟩ := Int.eq_ofNat_of_zero_le hr.1
  simp only [Int.toNat_natCast] at h
  rw [bitAt, bitAt, List.getD_eq_getElem?_getD, List.getD_eq_getElem?_getD, ← h]
  by_cases hbyte : i / 8 = j / 8
  · have hlt : j / 8 < payload.length := by omega
    have hmask : (UInt8.ofNat (1 <<< (i % 8))).toNat = 2 ^ (i % 8) := by
      rw [Nat.one_shiftLeft, UInt8.toNat_ofNat']
      exact Nat.mod_eq_of_lt (Nat.pow_lt_pow_right (by decide) (Nat.mod_lt _ (by decide)))
    rw [hbyte, List.getElem?_modify_eq, List.getElem?_eq_getElem hlt]
    simp only [Option.map_eq_map, Option.map_some, Option.getD_some, UInt8.toNat_xor, hmask, Nat.testBit_xor, Nat.testBit_two_pow]
    refine congrArg _ (decide_eq_decide.mpr ?_)
    omega
  · have hne : ¬(j : Int) = i := by omega
    rw [List.getElem?_modify_ne _ _ hbyte, decide_eq_false hne, Bool.xor_false]

theorem flipBit_flipBit {payload out : Bytes} {bit : Int} (h : flipBit payload bit = .ok out) :
    flipBit out bit = .ok payload := by
  have hlen := length_flipBit h
  unfold flipBit at h
  split_ifs at h with hr
  simp only [Except.ok.injEq] at h
  rw [flipBit, if_pos (by rwa [hlen]), ← h]
  dsimp only
  have hback (m : UInt8) : (fun b : UInt8 => b ^^^ m) ∘ (fun b : UInt8 => b ^^^ m) = id := by
    funext b
    show b ^^^ m ^^^ m = b
    rw [UInt8.xor_assoc, UInt8.xor_self, UInt8.xor_zero]
  rw [List.modify_modify_eq, hback, List.modify_id]

/-! ### Every outcome is well formed -/

/-- A configuration without any impairment but holds. -/
structure Transparent (config : LinkConfig) : Prop where
  loss : config.lossRate.value.toRat = 0
  duplicate : config.duplicateRate.value.toRat = 0
  corrupt : config.corruptRate.value.toRat = 0
  latency : config.latencyMs = 0
  jitter : config.jitterMs = 0

theorem probabilityHit_zero (sample : BitVec 64) : probabilityHit sample 0 = false := by
  simp [probabilityHit]

/-- Without impairments the one delivery is the payload, without delay. -/
theorem process_transparent {config : LinkConfig} (h : Transparent config) (payload : Bytes) (rng : SplitMix64)
    (index : Int) : ∃ hold e, process payload ⟨config, rng, index⟩ =
      (.ok { packetIndex := index, dropped := false, deliveries := [⟨payload, 0, 0, hold, none⟩] }, e) ∧
      (config.reorderWindow = 0 → hold = 0) := by
  obtain ⟨hold, hhold, -⟩ := holdPackets_spec config (rng.output 4)
  have himpair : impair config payload (rng.output 3) (rng.output 4) (rng.output 5) false =
      .ok ⟨payload, 0, 0, hold, none⟩ := by
    simp only [impair, jitterOffset, h.jitter, h.latency, hhold, corruptPayload, bind, Except.bind]
    rfl
  refine ⟨hold, ⟨config, rng.advance 6, index + 1⟩, ?_, fun hwindow => ?_⟩
  · rw [process_apply, h.loss, h.duplicate, h.corrupt, probabilityHit_zero, probabilityHit_zero, probabilityHit_zero,
      himpair]
    rfl
  · rw [holdPackets, if_pos hwindow] at hhold
    exact (Except.ok.inj hhold).symm

/-- The packet at a position is processed with its own six samples, whatever was before it. -/
theorem processAll_getElem? {payloads : List Bytes} {e e' : ImpairmentEngine} {os : List PacketOutcome}
    (h : processAll payloads e = (.ok os, e')) {n : Nat} {payload : Bytes} (hp : payloads[n]? = some payload) :
    ∃ o e'', os[n]? = some o ∧
      process payload ⟨e.config, e.rng.advance (6 * n), e.packetIndex + n⟩ = (.ok o, e'') := by
  induction payloads generalizing e os n with
  | nil => simp at hp
  | cons p ps ih =>
    obtain ⟨o, e1, ho, -, hcfg, hidx⟩ := process_spec p e
    obtain ⟨os', e2, hos, -⟩ := processAll_spec ps e1
    rw [processAll, Method.bind_ok ho, Method.bind_ok hos] at h
    cases h
    cases n with
    | zero =>
      obtain rfl : p = payload := by simpa using hp
      exact ⟨o, e1, rfl, by simpa [SplitMix64.advance] using ho⟩
    | succ n =>
      rw [List.getElem?_cons_succ] at hp
      have hrng : e1.rng = e.rng.advance 6 := by
        obtain ⟨config, rng, index⟩ := e
        rw [process_apply, Prod.mk.injEq] at ho
        rw [← ho.2]
      obtain ⟨o', e'', ho', hproc⟩ := ih hos hp
      rw [hcfg, hidx, hrng, SplitMix64.advance_add] at hproc
      refine ⟨o', e'', by rwa [List.getElem?_cons_succ], ?_⟩
      rw [show e.packetIndex + ((n + 1 : Nat) : Int) = e.packetIndex + 1 + n by push_cast; ring,
        show 6 * (n + 1) = 6 + 6 * n by ring]
      exact hproc

/-- Processing never raises, and every outcome of a stream is well formed: it has the position of its
packet; it is dropped without deliveries or has one or two copies that differ in their index alone, with
the delay and the hold in their ranges and the payload as it was or with the one flipped bit, which
flipping again restores. Without impairments the stream passes unchanged. -/
theorem processAll_wellFormed (config : LinkConfig) (payloads : List Bytes) :
    (∀ payload e, ∃ o e', process payload e = (.ok o, e')) ∧
    ∃ outcomes e, processAll payloads (new config) = (.ok outcomes, e) ∧ outcomes.length = payloads.length ∧
      ∀ (n : Nat) payload o, payloads[n]? = some payload → outcomes[n]? = some o →
        o.packetIndex = n ∧
        ((o.dropped = true ∧ o.deliveries = []) ∨
          (o.dropped = false ∧ ∃ (d : Delivery) (copies : List Int), (copies = [0] ∨ copies = [0, 1]) ∧
            (o.deliveries = copies.map fun c => { d with copyIndex := c }) ∧
            max 0 ((config.latencyMs : Int) - config.jitterMs) ≤ d.delayMs ∧
            d.delayMs ≤ config.latencyMs + config.jitterMs ∧
            0 ≤ d.holdPackets ∧ d.holdPackets ≤ config.reorderWindow ∧
            ((d.corruptedBit = none ∧ d.payload = payload) ∨
              ∃ bit, d.corruptedBit = some bit ∧ 0 ≤ bit ∧ bit < 8 * payload.length ∧
                d.payload.length = payload.length ∧
                (∀ j : Nat, bitAt d.payload j = (bitAt payload j ^^ decide ((j : Int) = bit))) ∧
                flipBit d.payload bit = .ok payload))) ∧
        (Transparent config → ∃ hold, (config.reorderWindow = 0 → hold = 0) ∧
          o = { packetIndex := n, dropped := false, deliveries := [⟨payload, 0, 0, hold, none⟩] }) := by
  refine ⟨fun payload e => ?_, ?_⟩
  · obtain ⟨o, e', ho, -⟩ := process_spec payload e
    exact ⟨o, e', ho⟩
  · obtain ⟨os, e, hos, hlen, hall⟩ := processAll_spec payloads (new config)
    refine ⟨os, e, hos, hlen, fun n payload o hp ho => ?_⟩
    have him := hall n payload o hp ho
    refine ⟨by simpa [new] using him.packetIndex, ?_, fun htrans => ?_⟩
    · rcases him.deliveries with hdrop | ⟨hkeep, d, copies, hem, hcopies, hds⟩
      · exact .inl hdrop
      · refine .inr ⟨hkeep, d, copies, hcopies, hds, hem.delay_ge, hem.delay_le, hem.hold.1, hem.hold.2, ?_⟩
        rcases hem.payload with hsame | ⟨bit, hbit, h0, hlt, hflip⟩
        · exact .inl hsame
        · exact .inr ⟨bit, hbit, h0, by omega, length_flipBit hflip, bitAt_flipBit hflip, flipBit_flipBit hflip⟩
    · obtain ⟨o', e'', ho', hproc⟩ := processAll_getElem? hos hp
      obtain ⟨hold, e3, hok, hzero⟩ := process_transparent htrans payload ((new config).rng.advance (6 * n))
        ((new config).packetIndex + n)
      rw [ho] at ho'
      cases ho'
      have hsame := hproc.symm.trans hok
      refine ⟨hold, hzero, ?_⟩
      rw [Except.ok.inj (congrArg Prod.fst hsame)]
      simp [new]

/-! ### No fabricated telemetry -/

/-- A corrupted copy of an encoded packet is rejected. -/
theorem decodePacket_flipBit {p : TelemetryPacket Int} {bit : Int} {out : Bytes}
    (h : flipBit (encoding p) bit = .ok out) : ∃ e, decodePacket out = .error e ∧ e.cls = .protocolError := by
  obtain ⟨pre, b, b', suf, hp, rfl, hne⟩ := flipBit_eq_ok h
  exact decodePacket_byte_changed hp hne

/-- A copy of an encoded packet is either untouched and decodes to that packet, or corrupted and
rejected. -/
theorem Emits.decodes_or_rejected {config : LinkConfig} {p : TelemetryPacket Int} {d : Delivery} (hp : p.InRange)
    (h : Emits config (encoding p) d) :
    (d.corruptedBit = none ∧ ∃ q, decodePacket d.payload = .ok q ∧ q.numbered = p) ∨
    (∃ bit, d.corruptedBit = some bit) ∧ ∃ e, decodePacket d.payload = .error e ∧ e.cls = .protocolError := by
  rcases h.payload with ⟨hbit, hpay⟩ | ⟨bit, hbit, -, -, hflip⟩
  · exact .inl ⟨hbit, hpay ▸ decodePacket_encoding hp⟩
  · exact .inr ⟨⟨bit, hbit⟩, decodePacket_flipBit hflip⟩

/-- Packets that all encode are the ranges of their encodings. -/
theorem mapM_encodePacket_eq_ok {ps : List (TelemetryPacket Int)} {raws : List Bytes}
    (h : ps.mapM encodePacket = .ok raws) : raws = ps.map encoding ∧ ∀ p ∈ ps, p.InRange := by
  induction ps generalizing raws with
  | nil => cases h; exact ⟨rfl, fun p hp => by cases hp⟩
  | cons p ps ih =>
    rw [List.mapM_cons] at h
    obtain ⟨bs, hb, h⟩ := except_bind_eq_ok.mp h
    obtain ⟨rest, hr, h⟩ := except_bind_eq_ok.mp h
    cases h
    obtain ⟨hin, rfl⟩ := encodePacket_eq_ok.mp hb
    obtain ⟨rfl, hall⟩ := ih hr
    refine ⟨rfl, fun q hq => ?_⟩
    rcases List.mem_cons.mp hq with rfl | hq
    · exact hin
    · exact hall q hq

/-- Encoded packets fed to an engine give, at every position, only copies that decode to the packet
of that position and corrupted copies that are rejected; so whatever is accepted was sent. -/
theorem processAll_fabricates_nothing (config : LinkConfig) (ps : List (TelemetryPacket Int)) (raws : List Bytes)
    (hraws : ps.mapM encodePacket = .ok raws) :
    ∃ outcomes e, processAll raws (new config) = (.ok outcomes, e) ∧ outcomes.length = ps.length ∧
      (∀ (n : Nat) p o, ps[n]? = some p → outcomes[n]? = some o → ∀ d ∈ o.deliveries,
        (d.corruptedBit = none ∧ ∃ q, decodePacket d.payload = .ok q ∧ q.numbered = p) ∨
        ((∃ bit, d.corruptedBit = some bit) ∧ ∃ err, decodePacket d.payload = .error err ∧ err.cls = .protocolError)) ∧
      ∀ o ∈ outcomes, ∀ d ∈ o.deliveries, ∀ q, decodePacket d.payload = .ok q →
        d.corruptedBit = none ∧ q.numbered ∈ ps := by
  obtain ⟨rfl, hin⟩ := mapM_encodePacket_eq_ok hraws
  obtain ⟨os, e, hos, hlen, hall⟩ := processAll_spec (ps.map encoding) (new config)
  rw [List.length_map] at hlen
  have hcopy : ∀ (n : Nat) p o, ps[n]? = some p → os[n]? = some o → ∀ d ∈ o.deliveries,
      (d.corruptedBit = none ∧ ∃ q, decodePacket d.payload = .ok q ∧ q.numbered = p) ∨
      ((∃ bit, d.corruptedBit = some bit) ∧ ∃ err, decodePacket d.payload = .error err ∧ err.cls = .protocolError) := by
    intro n p o hp ho d hd
    have him := hall n (encoding p) o (by rw [List.getElem?_map, hp]; rfl) ho
    exact (him.emits hd).decodes_or_rejected (hin p (List.mem_of_getElem? hp))
  refine ⟨os, e, hos, hlen, hcopy, ?_⟩
  intro o ho d hd q hq
  obtain ⟨n, hn, rfl⟩ := List.getElem_of_mem ho
  have hnp : n < ps.length := hlen ▸ hn
  rcases hcopy n ps[n] os[n] (List.getElem?_eq_getElem hnp) (List.getElem?_eq_getElem hn) d hd with
    ⟨hbit, q', hq', hnum⟩ | ⟨-, err, herr, -⟩
  · obtain rfl : q' = q := by rw [hq] at hq'; cases hq'; rfl
    exact ⟨hbit, hnum ▸ List.getElem_mem hnp⟩
  · rw [hq] at herr; cases herr

def duplicatingConfig : LinkConfig := { LinkConfig.default with duplicateRate := .one }

theorem processAll_fabricates_nothing_duplicating : ∃ outcomes e,
    processAll [encoding nominalPacket, encoding nominalPacket] (new duplicatingConfig) = (.ok outcomes, e) ∧
      outcomes.length = 2 ∧ ∀ o ∈ outcomes, ∀ d ∈ o.deliveries, ∀ q, decodePacket d.payload = .ok q →
        d.corruptedBit = none ∧ q.numbered ∈ [nominalPacket, nominalPacket] := by
  obtain ⟨os, e, hos, hlen, -, hsent⟩ := processAll_fabricates_nothing duplicatingConfig
    [nominalPacket, nominalPacket] [encoding nominalPacket, encoding nominalPacket] rfl
  exact ⟨os, e, hos, hlen, hsent⟩

end ImpairmentEngine

end OrbitOps.Link
