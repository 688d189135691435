import Mathlib.Data.Prod.Lex
import OrbitOps.Link.Decisions
import OrbitOps.Py.Heapq

/-!
# The datagram scheduler

A datagram waits for its due time and for its hold: it may go once enough later packets were seen,
or once the holds were released. `pop_ready` pops every due datagram off the heap, hands out those
whose hold is over and pushes the others back; what it leaves is therefore either not due or held.
-/

namespace OrbitOps.Link
open Py Py.Heapq

def nanosecondsPerMillisecond : Int := 1000000

/-- One datagram waiting for its time and hold constraints. -/
structure ScheduledDatagram where
  dueAtNs : Int
  packetIndex : Int
  copyIndex : Int
  releaseAfterPacket : Int
  payload : Bytes
  corruptedBit : Option Int
deriving DecidableEq, Repr

/-- What datagrams are compared by. -/
def ScheduledDatagram.key (d : ScheduledDatagram) : Int ×ₗ Int ×ₗ Int ×ₗ Int :=
  toLex (d.dueAtNs, toLex (d.packetIndex, toLex (d.copyIndex, d.releaseAfterPacket)))

theorem ScheduledDatagram.dueAtNs_le_of_key_le {d d' : ScheduledDatagram} (h : d.key ≤ d'.key) :
    d.dueAtNs ≤ d'.dueAtNs := by
  rcases Prod.Lex.le_iff.mp h with h | h
  · exact h.le
  · exact h.1.le

structure DatagramScheduler where
  pending : Heap ScheduledDatagram.key
  highestPacketIndex : Int
  holdsReleased : Bool

namespace DatagramScheduler

def new : DatagramScheduler := ⟨.empty, -1, false⟩

def pendingCount (s : DatagramScheduler) : Nat := s.pending.toList.length

/-- The hold of a datagram is over. -/
def eligible (s : DatagramScheduler) (d : ScheduledDatagram) : Bool :=
  s.holdsReleased || decide (d.releaseAfterPacket ≤ s.highestPacketIndex)

/-- The datagrams of one outcome. -/
def scheduled (outcome : PacketOutcome) (receivedAtNs : Int) : List ScheduledDatagram :=
  outcome.deliveries.map fun delivery => {
    dueAtNs := receivedAtNs + delivery.delayMs * nanosecondsPerMillisecond
    packetIndex := outcome.packetIndex
    copyIndex := delivery.copyIndex
    releaseAfterPacket := outcome.packetIndex + delivery.holdPackets
    payload := delivery.payload
    corruptedBit := delivery.corruptedBit }

/-- A clock argument that the methods accept. -/
def requireNs (name : String) : Json → Result Int
  | .int n => if n < 0 then .error (valueError (name ++ " must be non-negative")) else .ok n
  | _ => .error (typeError (name ++ " must be an integer"))

def enqueue (outcome : PacketOutcome) (receivedAtNs : Json) : Method PyError DatagramScheduler Unit := do
  let receivedAtNs ← Method.lift (requireNs "received_at_ns" receivedAtNs)
  let self ← Method.get
  if outcome.packetIndex ≤ self.highestPacketIndex then
    Method.raise (valueError "packet outcomes must be enqueued in strictly increasing order")
  else
    Method.modify fun s => { s with highestPacketIndex := outcome.packetIndex }
    Method.modify fun s => { s with pending := s.pending.pushAll (scheduled outcome receivedAtNs) }

def releaseHolds : Method PyError DatagramScheduler Unit :=
  Method.modify fun s => { s with holdsReleased := true }

/-- The loop of `pop_ready`: the released and the blocked datagrams popped, and what is left. -/
def popDue (released : ScheduledDatagram → Bool) (nowNs : Int) :
    Nat → Heap ScheduledDatagram.key → List ScheduledDatagram × List ScheduledDatagram × Heap ScheduledDatagram.key
  | 0, pending => ([], [], pending)
  | fuel + 1, pending =>
    match pending.root? with
    | none => ([], [], pending)
    | some root =>
      if root.dueAtNs ≤ nowNs then
        match pending.pop? with
        | none => ([], [], pending)
        | some (item, rest) =>
          let (ready, blocked, left) := popDue released nowNs fuel rest
          if released item then (item :: ready, blocked, left) else (ready, item :: blocked, left)
      else ([], [], pending)

def popReady (nowNs : Json) : Method PyError DatagramScheduler (List ScheduledDatagram) := do
  let nowNs ← Method.lift (requireNs "now_ns" nowNs)
  let self ← Method.get
  let (ready, blocked, left) := popDue self.eligible nowNs self.pendingCount self.pending
  Method.modify fun s => { s with pending := left.pushAll blocked }
  return ready

/-- The earliest due time among the datagrams whose hold is over. -/
def nextDeadlineNs (s : DatagramScheduler) : Option Int :=
  ((s.pending.toList.filter s.eligible).map ScheduledDatagram.dueAtNs).min?

/-! ### One call -/

theorem requireNs_eq_ok {name : String} {j : Json} {n : Int} : requireNs name j = .ok n ↔ j = .int n ∧ 0 ≤ n := by
  cases j with
  | int m =>
    simp only [requireNs]
    split_ifs with h
    · simp only [Json.int.injEq, false_iff]
      omega
    · simp only [Except.ok.injEq, Json.int.injEq]
      omega
  | _ => simp [requireNs]

/-- What the loop of `pop_ready` does to a heap. -/
structure PopsDue (released : ScheduledDatagram → Bool) (nowNs : Int) (pending left : Heap ScheduledDatagram.key)
    (ready blocked : List ScheduledDatagram) : Prop where
  perm : (ready ++ (blocked ++ left.toList)).Perm pending.toList
  ready : ∀ d ∈ ready, d.dueAtNs ≤ nowNs ∧ released d = true
  blocked : ∀ d ∈ blocked, released d = false
  left : ∀ d ∈ left.toList, nowNs < d.dueAtNs

theorem popDue_spec (released : ScheduledDatagram → Bool) (nowNs : Int) (fuel : Nat)
    (pending : Heap ScheduledDatagram.key) (hfuel : pending.toList.length ≤ fuel) :
    PopsDue released nowNs pending (popDue released nowNs fuel pending).2.2
      (popDue released nowNs fuel pending).1 (popDue released nowNs fuel pending).2.1 := by
  induction fuel generalizing pending with
  | zero =>
    have hnil : pending.toList = [] := List.length_eq_zero_iff.mp (by omega)
    exact ⟨.refl _, by simp [popDue], by simp [popDue], by simp [popDue, hnil]⟩
  | succ fuel ih =>
    rw [popDue]
    cases hroot : pending.root? with
    | none =>
      have hnil := Heap.root?_eq_none hroot
      exact ⟨.refl _, by simp, by simp, by simp [hnil]⟩
    | some root =>
      dsimp only
      split_ifs with hdue
      · obtain ⟨rest, hpop⟩ := Heap.pop?_isSome hroot
        have hperm := (Heap.toList_pop? hpop).1
        have hlen := hperm.length_eq
        rw [List.length_cons] at hlen
        have h := ih rest (by omega)
        simp only [hpop]
        split_ifs with hrel
        · refine ⟨(h.perm.cons root).trans hperm.symm, ?_, h.blocked, h.left⟩
          intro d hd
          rcases List.mem_cons.mp hd with rfl | hd
          · exact ⟨hdue, hrel⟩
          · exact h.ready d hd
        · refine ⟨?_, h.ready, ?_, h.left⟩
          · exact (List.perm_middle.trans (h.perm.cons root)).trans hperm.symm
          · intro d hd
            rcases List.mem_cons.mp hd with rfl | hd
            · simpa using hrel
            · exact h.blocked d hd
      · -- the root has the smallest due time
        refine ⟨.refl _, by simp, by simp, fun d hd => ?_⟩
        have := ScheduledDatagram.dueAtNs_le_of_key_le (Heap.root?_le hroot hd)
        omega

/-- `pop_ready` on a non-negative time: what it hands out is due and released, what it keeps is not. -/
structure Pops (s s' : DatagramScheduler) (nowNs : Int) (items : List ScheduledDatagram) : Prop where
  perm : (items ++ s'.pending.toList).Perm s.pending.toList
  highestPacketIndex : s'.highestPacketIndex = s.highestPacketIndex
  holdsReleased : s'.holdsReleased = s.holdsReleased
  ready : ∀ d ∈ items, d.dueAtNs ≤ nowNs ∧ s.eligible d = true
  waiting : ∀ d ∈ s'.pending.toList, nowNs < d.dueAtNs ∨ s'.eligible d = false

theorem popReady_int (s : DatagramScheduler) {nowNs : Int} (h : 0 ≤ nowNs) : popReady (.int nowNs) s =
    (.ok (popDue s.eligible nowNs s.pendingCount s.pending).1, { s with
      pending := (popDue s.eligible nowNs s.pendingCount s.pending).2.2.pushAll
        (popDue s.eligible nowNs s.pendingCount s.pending).2.1 }) := by
  rw [popReady, Method.bind_ok (Method.lift_eq (requireNs_eq_ok.mpr ⟨rfl, h⟩) s),
    Method.bind_ok (Method.get_apply s)]
  rfl

theorem popReady_spec (s : DatagramScheduler) {nowNs : Int} (h : 0 ≤ nowNs) :
    ∃ items s', popReady (.int nowNs) s = (.ok items, s') ∧ Pops s s' nowNs items := by
  have hd := popDue_spec s.eligible nowNs s.pendingCount s.pending le_rfl
  have hpop := popReady_int s h
  rcases hp : popDue s.eligible nowNs s.pendingCount s.pending with ⟨ready, blocked, left⟩
  rw [hp] at hd hpop
  refine ⟨ready, _, hpop, ?_, rfl, rfl, hd.ready, ?_⟩
  · exact ((Heap.toList_pushAll left blocked).append_left ready).trans hd.perm
  · intro d hmem
    rcases List.mem_append.mp ((Heap.toList_pushAll left blocked).mem_iff.mp hmem) with hb | hl
    · exact .inr (hd.blocked d hb)
    · exact .inl (hd.left d hl)

/-- `pop_ready` raises before it touches the queue, or pops. -/
theorem popReady_cases (s : DatagramScheduler) (now : Json) :
    (∃ e, popReady now s = (.error e, s)) ∨
    ∃ nowNs items s', now = .int nowNs ∧ 0 ≤ nowNs ∧ popReady now s = (.ok items, s') ∧ Pops s s' nowNs items := by
  cases hn : requireNs "now_ns" now with
  | error e => exact .inl ⟨e, by rw [popReady, Method.bind_error (Method.lift_eq hn s)]⟩
  | ok nowNs =>
    obtain ⟨rfl, h0⟩ := requireNs_eq_ok.mp hn
    obtain ⟨items, s', hp, hspec⟩ := popReady_spec s h0
    exact .inr ⟨nowNs, items, s', rfl, h0, hp, hspec⟩

theorem enqueue_spec (s : DatagramScheduler) {outcome : PacketOutcome} {t : Int} (ht : 0 ≤ t)
    (hidx : s.highestPacketIndex < outcome.packetIndex) : enqueue outcome (.int t) s = (.ok (), { s with
      highestPacketIndex := outcome.packetIndex
      pending := s.pending.pushAll (scheduled outcome t) }) := by
  rw [enqueue, Method.bind_ok (Method.lift_eq (requireNs_eq_ok.mpr ⟨rfl, ht⟩) s),
    Method.bind_ok (Method.get_apply s), if_neg (not_le.mpr hidx)]
  rfl

/-- `enqueue` raises before it touches the queue, or adds the datagrams of a newer packet. -/
theorem enqueue_cases (s : DatagramScheduler) (outcome : PacketOutcome) (receivedAt : Json) :
    (∃ e, enqueue outcome receivedAt s = (.error e, s)) ∨
    ∃ t, receivedAt = .int t ∧ 0 ≤ t ∧ s.highestPacketIndex < outcome.packetIndex ∧
      enqueue outcome receivedAt s = (.ok (), { s with
        highestPacketIndex := outcome.packetIndex
        pending := s.pending.pushAll (scheduled outcome t) }) := by
  cases hn : requireNs "received_at_ns" receivedAt with
  | error e => exact .inl ⟨e, by rw [enqueue, Method.bind_error (Method.lift_eq hn s)]⟩
  | ok t =>
    obtain ⟨rfl, h0⟩ := requireNs_eq_ok.mp hn
    by_cases hidx : s.highestPacketIndex < outcome.packetIndex
    · exact .inr ⟨t, rfl, h0, hidx, enqueue_spec s h0 hidx⟩
    · rw [enqueue, Method.bind_ok (Method.lift_eq hn s), Method.bind_ok (Method.get_apply s),
        if_pos (not_lt.mp hidx)]
      exact .inl ⟨_, rfl⟩

/-! ### Runs -/

inductive Call where
  | enqueue (outcome : PacketOutcome) (receivedAtNs : Json)
  | popReady (nowNs : Json)
  | releaseHolds

def Call.apply : Call → Method PyError DatagramScheduler (List ScheduledDatagram)
  | .enqueue outcome receivedAtNs => do DatagramScheduler.enqueue outcome receivedAtNs; return []
  | .popReady nowNs => DatagramScheduler.popReady nowNs
  | .releaseHolds => do DatagramScheduler.releaseHolds; return []

/-- The datagrams that a call enqueues when it succeeds. -/
def Call.enqueues : Call → List ScheduledDatagram
  | .enqueue outcome (.int t) => scheduled outcome t
  | _ => []

/-- A scheduler with everything it was given and everything it has returned. -/
structure Run where
  scheduler : DatagramScheduler
  enqueued : List ScheduledDatagram
  returned : List ScheduledDatagram

def Run.start : Run := ⟨.new, [], []⟩

def Run.step (r : Run) (c : Call) : Run :=
  match c.apply r.scheduler with
  | (.ok items, s) => ⟨s, r.enqueued ++ c.enqueues, r.returned ++ items⟩
  | (.error _, s) => ⟨s, r.enqueued, r.returned⟩

def run (calls : List Call) : Run := calls.foldl Run.step .start

/-- Nothing is lost, duplicated or invented. -/
def Run.Conserves (r : Run) : Prop := (r.returned ++ r.scheduler.pending.toList).Perm r.enqueued

theorem Call.apply_error {c : Call} {s s' : DatagramScheduler} {e : PyError} (h : c.apply s = (.error e, s')) :
    s' = s := by
  cases c with
  | enqueue outcome t =>
    rcases enqueue_cases s outcome t with ⟨e', he⟩ | ⟨_, _, _, _, hok⟩
    · rw [Call.apply, Method.bind_error he] at h
      cases h; rfl
    · rw [Call.apply, Method.bind_ok hok] at h
      cases h
  | popReady now =>
    rcases popReady_cases s now with ⟨e', he⟩ | ⟨_, _, _, _, _, hok, _⟩
    · rw [Call.apply, he] at h
      cases h; rfl
    · rw [Call.apply, hok] at h
      cases h
  | releaseHolds => cases h

/-- A call that succeeds moves its datagrams between what is pending and what is returned. -/
theorem Call.apply_ok {c : Call} {s s' : DatagramScheduler} {items : List ScheduledDatagram}
    (h : c.apply s = (.ok items, s')) : (items ++ s'.pending.toList).Perm (s.pending.toList ++ c.enqueues) := by
  cases c with
  | enqueue outcome t =>
    rcases enqueue_cases s outcome t with ⟨e', he⟩ | ⟨t, rfl, _, _, hok⟩
    · rw [Call.apply, Method.bind_error he] at h
      cases h
    · rw [Call.apply, Method.bind_ok hok] at h
      cases h
      exact (Heap.toList_pushAll _ _).trans List.perm_append_comm
  | popReady now =>
    rcases popReady_cases s now with ⟨e', he⟩ | ⟨_, _, _, _, _, hok, hpops⟩
    · rw [Call.apply, he] at h
      cases h
    · rw [Call.apply, hok] at h
      cases h
      exact hpops.perm.trans (.of_eq (List.append_nil _).symm)
  | releaseHolds =>
    cases h
    exact .of_eq (List.append_nil _).symm

theorem Run.Conserves.step {r : Run} (h : r.Conserves) (c : Call) : (r.step c).Conserves := by
  unfold Run.step
  rcases hc : c.apply r.scheduler with ⟨e | items, s⟩
  · obtain rfl := Call.apply_error hc
    exact h
  · have hmove := Call.apply_ok hc
    show ((r.returned ++ items) ++ s.pending.toList).Perm (r.enqueued ++ c.enqueues)
    rw [List.append_assoc]
    refine (hmove.append_left r.returned).trans ?_
    rw [← List.append_assoc]
    exact h.append_right c.enqueues

/-- An outcome that was enqueued, with the time at which it was received. -/
structure Arrival where
  outcome : PacketOutcome
  receivedAtNs : Int

def Arrival.datagrams (a : Arrival) : List ScheduledDatagram := scheduled a.outcome a.receivedAtNs

/-- What a call enqueues. -/
def Run.arrival (r : Run) (c : Call) : List Arrival :=
  match c, c.apply r.scheduler with
  | .enqueue outcome (.int t), (.ok _, _) => [⟨outcome, t⟩]
  | _, _ => []

def arrivalsFrom : Run → List Call → List Arrival
  | _, [] => []
  | r, c :: cs => r.arrival c ++ arrivalsFrom (r.step c) cs

/-- What the calls have enqueued. -/
def arrivals (calls : List Call) : List Arrival := arrivalsFrom .start calls

/-- What holds at the start and is kept by every call holds after the calls. -/
theorem run_induction {P : Run → List Arrival → Prop} (hstart : P .start [])
    (hstep : ∀ r as c, P r as → P (r.step c) (as ++ r.arrival c)) (calls : List Call) :
    P (run calls) (arrivals calls) := by
  have hfold : ∀ (cs : List Call) (r : Run) (as : List Arrival), P r as →
      P (cs.foldl Run.step r) (as ++ arrivalsFrom r cs) := by
    intro cs
    induction cs with
    | nil =>
      intro r as h
      rwa [arrivalsFrom, List.append_nil]
    | cons c cs ih =>
      intro r as h
      rw [arrivalsFrom, ← List.append_assoc]
      exact ih _ _ (hstep r as c h)
  exact hfold calls .start [] hstart

/-- What a call does to a run: nothing, or it enqueues an outcome, returns datagrams or releases the
holds. -/
theorem Run.step_cases (r : Run) (c : Call) :
    (r.step c = r ∧ r.arrival c = []) ∨
    (∃ a : Arrival, 0 ≤ a.receivedAtNs ∧ r.scheduler.highestPacketIndex < a.outcome.packetIndex ∧
      r.step c = ⟨{ r.scheduler with
        highestPacketIndex := a.outcome.packetIndex
        pending := r.scheduler.pending.pushAll a.datagrams }, r.enqueued ++ a.datagrams, r.returned⟩ ∧
      r.arrival c = [a]) ∨
    (∃ t items s', 0 ≤ t ∧ DatagramScheduler.popReady (.int t) r.scheduler = (.ok items, s') ∧
      Pops r.scheduler s' t items ∧ r.step c = ⟨s', r.enqueued, r.returned ++ items⟩ ∧ r.arrival c = []) ∨
    r.step c = ⟨{ r.scheduler with holdsReleased := true }, r.enqueued, r.returned⟩ ∧ r.arrival c = [] := by
  unfold Run.step Run.arrival
  cases c with
  | enqueue outcome receivedAt =>
    rcases enqueue_cases r.scheduler outcome receivedAt with ⟨e, he⟩ | ⟨t, rfl, h0, hnew, hok⟩
    · rw [Call.apply, Method.bind_error he]
      exact .inl ⟨rfl, by split <;> simp_all⟩
    · rw [Call.apply, Method.bind_ok hok]
      exact .inr (.inl ⟨⟨outcome, t⟩, h0, hnew, by simp [Method.pure_apply, Call.enqueues, Arrival.datagrams], rfl⟩)
  | popReady now =>
    rcases popReady_cases r.scheduler now with ⟨e, he⟩ | ⟨t, items, s', rfl, h0, hok, hpops⟩
    · rw [Call.apply, he]
      exact .inl ⟨rfl, rfl⟩
    · rw [Call.apply, hok]
      exact .inr (.inr (.inl ⟨t, items, s', h0, hok, hpops, by simp [Call.enqueues], rfl⟩))
  | releaseHolds =>
    exact .inr (.inr (.inr ⟨congrArg₂ (Run.mk _) (List.append_nil _) (List.append_nil _), rfl⟩))

theorem conserves_run (calls : List Call) : (run calls).Conserves :=
  run_induction (P := fun r _ => r.Conserves) (.refl _) (fun _ _ c h => h.step c) calls

/-- The datagrams of a run are those of its arrivals, whose packets have increasing indices. -/
structure Run.Records (r : Run) (as : List Arrival) : Prop where
  enqueued : r.enqueued = as.flatMap Arrival.datagrams
  increasing : as.Pairwise fun a a' => a.outcome.packetIndex < a'.outcome.packetIndex
  newest : ∀ a ∈ as, a.outcome.packetIndex ≤ r.scheduler.highestPacketIndex

theorem Run.Records.step {r : Run} {as : List Arrival} (h : r.Records as) (c : Call) :
    (r.step c).Records (as ++ r.arrival c) := by
  rcases r.step_cases c with ⟨hs, ha⟩ | ⟨a, -, hnew, hs, ha⟩ | ⟨t, items, s', -, -, hpops, hs, ha⟩ | ⟨hs, ha⟩
  · rw [hs, ha, List.append_nil]
    exact h
  · rw [hs, ha]
    refine ⟨?_, ?_, fun a' ha' => ?_⟩
    · rw [List.flatMap_append, List.flatMap_singleton, h.enqueued]
    · refine List.pairwise_append.mpr ⟨h.increasing, List.pairwise_singleton _ _, fun a₁ h₁ a₂ h₂ => ?_⟩
      rw [List.mem_singleton.mp h₂]
      exact (h.newest a₁ h₁).trans_lt hnew
    · show a'.outcome.packetIndex ≤ a.outcome.packetIndex
      rcases List.mem_append.mp ha' with ha' | ha'
      · exact ((h.newest a' ha').trans_lt hnew).le
      · rw [List.mem_singleton.mp ha']
  · rw [hs, ha, List.append_nil]
    refine ⟨h.enqueued, h.increasing, fun a ha => ?_⟩
    show _ ≤ s'.highestPacketIndex
    rw [hpops.highestPacketIndex]
    exact h.newest a ha
  · rw [hs, ha, List.append_nil]
    exact ⟨h.enqueued, h.increasing, h.newest⟩

theorem records_run (calls : List Call) : (run calls).Records (arrivals calls) :=
  run_induction ⟨rfl, .nil, fun _ ha => by cases ha⟩ (fun _ _ c h => h.step c) calls

theorem packetIndex_of_mem_datagrams {a : Arrival} {d : ScheduledDatagram} (h : d ∈ a.datagrams) :
    d.packetIndex = a.outcome.packetIndex := by
  obtain ⟨_, -, rfl⟩ := List.mem_map.mp h
  rfl

/-- After any calls: the datagrams returned and pending are the deliveries of the outcomes that were enqueued, each due
after its delay and released after its hold; a `pop_ready` hands out only what is due and released and leaves nothing
that is both; a call that raises changes nothing. -/
theorem run_neither_loses_nor_releases_early (calls : List Call) :
    ((run calls).returned ++ (run calls).scheduler.pending.toList).Perm
      ((arrivals calls).flatMap fun a => a.outcome.deliveries.map fun delivery => {
        dueAtNs := a.receivedAtNs + delivery.delayMs * 1000000
        packetIndex := a.outcome.packetIndex
        copyIndex := delivery.copyIndex
        releaseAfterPacket := a.outcome.packetIndex + delivery.holdPackets
        payload := delivery.payload
        corruptedBit := delivery.corruptedBit }) ∧
    (∀ now items s', popReady now (run calls).scheduler = (.ok items, s') → ∃ t : Int, now = .int t ∧
      (∀ d ∈ items, d.dueAtNs ≤ t ∧ (d.releaseAfterPacket ≤ (run calls).scheduler.highestPacketIndex ∨
        (run calls).scheduler.holdsReleased = true)) ∧
      ∀ d ∈ s'.pending.toList, ¬(d.dueAtNs ≤ t ∧
        (d.releaseAfterPacket ≤ s'.highestPacketIndex ∨ s'.holdsReleased = true))) ∧
    ∀ c e s', Call.apply c (run calls).scheduler = (.error e, s') → s' = (run calls).scheduler := by
  have hconserves : ((run calls).returned ++ (run calls).scheduler.pending.toList).Perm
      ((arrivals calls).flatMap Arrival.datagrams) := (records_run calls).enqueued ▸ conserves_run calls
  refine ⟨hconserves, ?_, fun c e s' h => Call.apply_error h⟩
  intro now items s' hpop
  rcases popReady_cases (run calls).scheduler now with ⟨e, he⟩ | ⟨t, items', s'', rfl, -, hok, hpops⟩
  · rw [he] at hpop; cases hpop
  · rw [hok] at hpop; cases hpop
    refine ⟨t, rfl, fun d hd => ⟨(hpops.ready d hd).1, ?_⟩, fun d hd ⟨hdue, hrel⟩ => ?_⟩
    · have := (hpops.ready d hd).2
      rw [eligible, Bool.or_eq_true, decide_eq_true_eq] at this
      exact this.symm
    · rcases hpops.waiting d hd with hw | hw
      · omega
      · rw [eligible, Bool.or_eq_false_iff, decide_eq_false_iff_not] at hw
        rcases hrel with hrel | hrel
        · exact hw.2 hrel
        · rw [hw.1] at hrel; cases hrel

end DatagramScheduler

end OrbitOps.Link
