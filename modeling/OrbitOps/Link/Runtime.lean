import OrbitOps.Link.Impairments
import OrbitOps.Link.Scheduler
import OrbitOps.Link.Statistics

/-!
# The link runtime

`run` reads datagrams until it is stopped or has received its number of packets, and then drains
the scheduler. Its environment (the clock, the stop event, what each `recvfrom` and `sendto` does)
is given; the loop is a sequence of iterations that continue, leave the loop or raise.

The accounting is an invariant of the loop head (`Accounts`): the tags of the forwarded events and
of the pending datagrams together are the tags of the scheduled events, and no two scheduled events
have the same packet and copy.
-/

namespace OrbitOps.Link
open Py

def requirePollInterval (pollIntervalS : Float64) : Result Float64 :=
  if pollIntervalS.isFinite = false then .error (valueError "poll_interval_s must be a finite positive number")
  else if Float64.zero.lt pollIntervalS = true ∧ pollIntervalS.le oneFloat = true then .ok pollIntervalS
  else .error (valueError "poll_interval_s must be between 0.0 and 1.0")

/-- The outcome of one `recvfrom`. -/
inductive Received where
  | timeout
  | datagram (raw : Bytes)
  | failed (error : PyError)

/-- What the run loop meets: clock readings and sends in the order of the calls, and the stop event
and the received datagram of each iteration. -/
structure Environment where
  clock : Nat → Int
  stop : Nat → Bool
  recv : Nat → Received
  sendto : Nat → Bytes → Result Nat

/-- The attributes of the runtime that a run changes, with the local variables of `run`, the number of
clock readings and the payloads given to `sendto` so far. -/
structure RunState (σ : Type) where
  engine : ImpairmentEngine
  scheduler : DatagramScheduler
  eventStream : LinkEventStream σ
  highestForwardedPacketIndex : Int
  reorderedPackets : List Int
  receivedPackets : Nat
  draining : Bool
  clockCalls : Nat
  handed : List Bytes

namespace RunState
variable {σ : Type} (S : EventSink σ) (env : Environment)

def readClock : Method PyError (RunState σ) Int := fun s =>
  (.ok (env.clock s.clockCalls), { s with clockCalls := s.clockCalls + 1 })

/-- `self._event_stream.emit(...)`. -/
def emit (eventType : LinkEventType) (nowNs packetIndex : Int) (attributes : List (String × Scalar)) :
    Method PyError (RunState σ) Unit := do
  let _ ← Method.zoom RunState.eventStream (fun t s => { s with eventStream := t })
    (LinkEventStream.emit S eventType (.int nowNs) (.int packetIndex) (scalarObj attributes))
  return ()

/-- `int | None` as an attribute. -/
def optionalBit : Option Int → Scalar
  | none => .none
  | some n => .int n

def deliveryAttributes (delivery : Delivery) : List (String × Scalar) :=
  [("copy_index", .int delivery.copyIndex), ("corrupted_bit", optionalBit delivery.corruptedBit),
    ("delay_ms", .int delivery.delayMs), ("hold_packets", .int delivery.holdPackets),
    ("payload_bytes", .int delivery.payload.length)]

def emitOutcome (raw : Bytes) (outcome : PacketOutcome) (nowNs : Int) : Method PyError (RunState σ) Unit := do
  let packetIndex := outcome.packetIndex
  emit S .PACKET_RECEIVED nowNs packetIndex [("payload_bytes", .int raw.length)]
  if outcome.dropped then
    emit S .PACKET_DROPPED nowNs packetIndex [("payload_bytes", .int raw.length)]
  else
    match outcome.deliveries with
    | [] => Method.raise (indexError "tuple index out of range")
    | first :: _ => do
      if outcome.duplicated then
        emit S .PACKET_DUPLICATED nowNs packetIndex [("copies", .int outcome.deliveries.length)]
      match first.corruptedBit with
      | some bit => emit S .PACKET_CORRUPTED nowNs packetIndex [("corrupted_bit", .int bit)]
      | none => pure ()
      if 0 < first.delayMs then
        emit S .PACKET_DELAYED nowNs packetIndex [("delay_ms", .int first.delayMs)]
      Method.forEach (fun delivery => emit S .DELIVERY_SCHEDULED nowNs packetIndex (deliveryAttributes delivery))
        outcome.deliveries

def forwardAttributes (item : ScheduledDatagram) : List (String × Scalar) :=
  [("copy_index", .int item.copyIndex), ("corrupted_bit", optionalBit item.corruptedBit),
    ("payload_bytes", .int item.payload.length)]

/-- The first part of `_emit_forwarded`: a packet that a later one has overtaken. -/
def emitReordered (item : ScheduledDatagram) (nowNs : Int) : Method PyError (RunState σ) Unit := do
  let self ← Method.get
  if item.packetIndex < self.highestForwardedPacketIndex ∧ item.packetIndex ∉ self.reorderedPackets then
    Method.modify fun s => { s with reorderedPackets := item.packetIndex :: s.reorderedPackets }
    emit S .PACKET_REORDERED nowNs item.packetIndex
      [("overtaken_by_packet_index", .int self.highestForwardedPacketIndex),
        ("release_after_packet", .int item.releaseAfterPacket)]

def emitForwarded (item : ScheduledDatagram) (nowNs : Int) : Method PyError (RunState σ) Unit := do
  emitReordered S item nowNs
  Method.modify fun s =>
    { s with highestForwardedPacketIndex := max s.highestForwardedPacketIndex item.packetIndex }
  emit S .PACKET_FORWARDED nowNs item.packetIndex (forwardAttributes item)

/-- `self._output_socket.sendto(payload, ...)`. -/
def sendto (payload : Bytes) : Method PyError (RunState σ) Nat := fun s =>
  (env.sendto s.handed.length payload, { s with handed := s.handed ++ [payload] })

/-- Sending one datagram. -/
def sendItem (nowNs : Int) (item : ScheduledDatagram) : Method PyError (RunState σ) Unit := do
  let transmitted ← sendto env item.payload
  if transmitted ≠ item.payload.length then
    Method.raise (runtimeError "failed to forward complete UDP datagram")
  else emitForwarded S item nowNs

def sendReady (nowNs : Int) : Method PyError (RunState σ) Unit := do
  let items ← Method.zoom RunState.scheduler (fun t s => { s with scheduler := t })
    (DatagramScheduler.popReady (.int nowNs))
  Method.forEach (sendItem S env nowNs) items

/-- `min(poll_interval_s, max(0, ns) / 1_000_000_000)`. -/
def clampWait (pollIntervalS : Float64) (ns : Int) : Result Float64 :=
  match Float64.ofQuotient? (max 0 ns) 1000000000 with
  | none => .error (overflowError "integer division result too large for a float")
  | some remaining => .ok (pollIntervalS.pyMin remaining)

def receiveTimeout (pollIntervalS : Float64) (scheduler : DatagramScheduler) (nowNs : Int) : Result Float64 :=
  match scheduler.nextDeadlineNs with
  | none => .ok pollIntervalS
  | some deadline => clampWait pollIntervalS (deadline - nowNs)

/-- How an iteration ends. -/
inductive Flow where
  | again
  | stopped
  | drained
  | noDeadline
deriving DecidableEq, Repr

variable (pollIntervalS : Float64) (maxPackets : Option Int)

/-- An iteration after the sends, while draining. -/
def drain : Method PyError (RunState σ) Flow := do
  let self ← Method.get
  if self.scheduler.pendingCount = 0 then return .drained
  else
    match self.scheduler.nextDeadlineNs with
    | none => return .noDeadline
    | some deadline => do
      let nowNs ← readClock env
      let _ ← Method.lift (clampWait pollIntervalS (deadline - nowNs))
      return .again

/-- A run that has its packets drains: no later packet will end a hold. -/
def beginDraining : Method PyError (RunState σ) Unit := do
  let self ← Method.get
  if ∃ m ∈ maxPackets, m ≤ (self.receivedPackets : Int) then
    Method.zoom RunState.scheduler (fun t s => { s with scheduler := t }) DatagramScheduler.releaseHolds
    Method.modify fun s => { s with draining := true }

/-- A received datagram. -/
def accept (raw : Bytes) : Method PyError (RunState σ) Unit := do
  let receivedAtNs ← readClock env
  let outcome ← Method.zoom RunState.engine (fun t s => { s with engine := t }) (ImpairmentEngine.process raw)
  emitOutcome S raw outcome receivedAtNs
  Method.zoom RunState.scheduler (fun t s => { s with scheduler := t })
    (DatagramScheduler.enqueue outcome (.int receivedAtNs))
  Method.modify fun s => { s with receivedPackets := s.receivedPackets + 1 }
  beginDraining maxPackets

/-- An iteration after the sends, while receiving. -/
def receive (nowNs : Int) (k : Nat) : Method PyError (RunState σ) Flow := do
  let self ← Method.get
  let _ ← Method.lift (receiveTimeout pollIntervalS self.scheduler nowNs)
  match env.recv k with
  | .timeout => return .again
  | .failed error => Method.raise error
  | .datagram raw => do
    accept S env maxPackets raw
    return .again

/-- The `k`-th iteration of the loop. -/
def iteration (k : Nat) : Method PyError (RunState σ) Flow :=
  if env.stop k then return .stopped
  else do
    let nowNs ← readClock env
    sendReady S env nowNs
    let self ← Method.get
    if self.draining then drain env pollIntervalS else receive S env pollIntervalS maxPackets nowNs k

/-- Where a run is: before an iteration, out of the loop, or out by an exception. -/
inductive Progress (σ : Type) where
  | running (s : RunState σ)
  | left (flow : Flow) (s : RunState σ)
  | raised (error : PyError) (s : RunState σ)

/-- The first `n` iterations. -/
def iterations (s : RunState σ) : Nat → Progress σ
  | 0 => .running s
  | n + 1 =>
    match iterations s n with
    | .running s =>
      match iteration S env pollIntervalS maxPackets n s with
      | (.ok .again, s') => .running s'
      | (.ok flow, s') => .left flow s'
      | (.error e, s') => .raised e s'
    | p => p

/-- `run` up to its loop: the checks, the event stream and its metadata. -/
def start (config : LinkConfig) (sessionId : String) (metadata : LinkRunMetadata) (sink : σ) : Result (RunState σ) := do
  if ∃ m ∈ maxPackets, m ≤ 0 then .error (valueError "max_packets must be positive")
  else
    let startNs := env.clock 0
    let stream ← LinkEventStream.new sessionId (.int startNs) sink
    match LinkEventStream.emitRunMetadata S metadata (.int startNs) stream with
    | (.error e, _) => .error e
    | (.ok _, stream) => .ok {
        engine := .new config
        scheduler := .new
        eventStream := stream
        highestForwardedPacketIndex := -1
        reorderedPackets := []
        receivedPackets := 0
        draining := false
        clockCalls := 1
        handed := [] }

end RunState

end OrbitOps.Link
