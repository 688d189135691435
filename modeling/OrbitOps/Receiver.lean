import OrbitOps.AlarmLog
import OrbitOps.Recorder

/-!
# Receiving and replaying

The listen loop records every datagram, then shows the packet and its alarm transitions or the
reason of its rejection. The replay loop runs the same `processPacket` over a recording, but outside
of any handler: the first rejected record ends it. So a replay shows what the live pass showed
exactly when nothing decodable was received after a rejected datagram or an unusable pause.
-/

namespace OrbitOps
open Py

/-! ### Presentation -/

def formatPacket (packet : DecodedPacket) : String :=
  let degrees (n : Int) : String := padLeft ' ' 6 (Float64.fixed 2 ((Float64.ofQuotient? n 100).getD .nan))
  "seq=" ++ padLeft '0' 5 (toString packet.sequence) ++ " mode=" ++ padRight 7 packet.mode.name ++
    " battery=" ++ padLeft ' ' 5 (Float64.fixed 3 packet.batteryV) ++ "V current=" ++
    padLeft ' ' 4 (toString packet.busCurrentMa) ++ "mA temp=" ++
    padLeft ' ' 6 (Float64.fixed 2 packet.temperatureC) ++ "C att=(" ++ degrees packet.rollCentiDeg ++ "," ++
    degrees packet.pitchCentiDeg ++ "," ++ degrees packet.yawCentiDeg ++ ")deg"

def AlarmSeverity.upper : AlarmSeverity → String
  | WARNING => "WARNING"
  | CRITICAL => "CRITICAL"

def AlarmTransitionType.upper : AlarmTransitionType → String
  | RAISED => "RAISED"
  | UPDATED => "UPDATED"
  | CLEARED => "CLEARED"

def formatAlarmTransition (alarm : AlarmTransition Float64) : String :=
  if alarm.transition = .RAISED then
    "  " ++ (if alarm.severity = .WARNING then "!" else "!!") ++ " " ++ padRight 8 alarm.severity.upper ++ " " ++
      alarm.code ++ ": " ++ alarm.message
  else
    "  " ++ (if alarm.transition = .UPDATED then "~" else "OK") ++ " " ++ padRight 8 alarm.severity.upper ++ " " ++
      alarm.code ++ " [" ++ alarm.transition.upper ++ "]: " ++ alarm.message

/-- What the loops print. -/
inductive Shown where
  | packet (packet : DecodedPacket)
  | alarm (transition : AlarmTransition Float64)
  | reject (host : String) (port : Nat) (reason : String)
deriving DecidableEq

def Shown.text : Shown → String
  | .packet p => formatPacket p
  | .alarm t => formatAlarmTransition t
  | .reject host port reason => s!"REJECT from {host}:{port}: {reason}"

/-- The packet that an item shows. -/
def Shown.packet? : Shown → Option DecodedPacket
  | .packet p => some p
  | _ => none

/-- A packet or an alarm transition. -/
def Shown.isPresented : Shown → Bool
  | .reject .. => false
  | _ => true

/-! ### The loops -/

/-- A received datagram: its bytes, its sender and the time of its arrival. -/
structure Received where
  raw : Bytes
  host : String
  port : Nat
  receivedAt : Timestamp

/-- What a loop reads and writes. -/
structure GroundStation where
  engine : AlarmEngine Float64
  recorder : Option SessionRecorder
  alarmRecorder : Option AlarmEventRecorder
  terminal : List Shown

/-- A datagram that `decode_packet` accepts. -/
def Received.Decodable (d : Received) : Prop := ∃ p, decodePacket d.raw = .ok p

namespace GroundStation

def print (shown : Shown) : Method PyError GroundStation Unit :=
  Method.modify fun s => { s with terminal := s.terminal ++ [shown] }

def evaluate (packet : DecodedPacket) : Method PyError GroundStation (List (AlarmTransition Float64)) := fun s =>
  let (transitions, engine) := s.engine.evaluate packet
  (.ok transitions, { s with engine := engine })

/-- A call on an optional recorder, skipped without one. -/
def onOptional {τ : Type} (view : GroundStation → Option τ) (put : τ → GroundStation → GroundStation)
    (m : Method PyError τ Unit) : Method PyError GroundStation Unit := fun s =>
  match view s with
  | none => (.ok (), s)
  | some t =>
    let (result, t) := m t
    (result, put t s)

def onRecorder : Method PyError SessionRecorder Unit → Method PyError GroundStation Unit :=
  onOptional recorder fun r s => { s with recorder := some r }

def onAlarmRecorder : Method PyError AlarmEventRecorder Unit → Method PyError GroundStation Unit :=
  onOptional alarmRecorder fun r s => { s with alarmRecorder := some r }

def processPacket (clock : ClockNs) (raw : Bytes) : Method PyError GroundStation Unit := do
  let packet ← Method.lift (decodePacket raw)
  print (.packet packet)
  let transitions ← evaluate packet
  onAlarmRecorder (AlarmEventRecorder.writeTransitions clock packet.sequence transitions)
  Method.forEach (fun transition => print (.alarm transition)) transitions

/-- One pass of the listen loop. -/
def receive (clock : ClockNs) (d : Received) : Method PyError GroundStation Unit := do
  onRecorder (SessionRecorder.write d.raw (.float d.receivedAt.1))
  Method.tryExcept (processPacket clock d.raw) (fun exc => exc.cls = .protocolError) fun exc =>
    print (.reject d.host d.port exc.message)

/-- What `listen` opens before its loop. -/
def opened (clock : ClockNs) (policy : AlarmPolicy Float64) (reference : String) (uuid : Bytes)
    (record alarmLog : Bool) : Result GroundStation :=
  let station : GroundStation := ⟨.new policy, if record then some .new else none, none, []⟩
  if alarmLog then do
    let metadata ← AlarmRunMetadata.fromPolicy policy reference
    let alarmRecorder ← AlarmEventRecorder.new clock metadata uuid none
    return { station with alarmRecorder := some alarmRecorder }
  else .ok station

/-- The listen loop over the datagrams received until it is stopped, and the closing of its files. -/
def listen (clock : ClockNs) (ds : List Received) : Method PyError GroundStation Unit :=
  Method.tryFinally (Method.forEach (receive clock) ds) (onAlarmRecorder (AlarmEventRecorder.close clock))

/-- The replay loop over a recording, with a fresh engine. -/
def replay (loads : String → Option Json) (file : TextFile) (speed : Json) : Except PyError Unit × GroundStation :=
  iterRecords loads file speed (processPacket fun _ => 0) ⟨.new DEFAULT_ALARM_POLICY, none, none, []⟩

end GroundStation

/-- The alarm log of a run holds short lines, if evaluating the run says so. -/
theorem short_of_run {x : Result GroundStation} {m : Method PyError GroundStation Unit} {r : Except PyError Unit}
    {s s' : GroundStation} {log : AlarmEventRecorder}
    (hshort : (x.toOption.bind fun s => (m s).2.alarmRecorder.map fun log =>
      log.lines.all fun line => decide (line.utf8ByteSize ≤ maxStrDigits)) = some true)
    (hopen : x = .ok s) (hrun : m s = (r, s')) (hlog : s'.alarmRecorder = some log) :
    ∀ line ∈ log.lines, line.utf8ByteSize ≤ maxStrDigits := by
  rw [hopen, Except.toOption, Option.bind_some, hrun, hlog, Option.map_some, Option.some.injEq, List.all_eq_true] at hshort
  exact fun line hline => of_decide_eq_true (hshort line hline)

/-! ### What the loops do -/

/-- The packets that datagrams decode to, in order. -/
def decodedPackets (raws : List Bytes) : List DecodedPacket := raws.filterMap fun raw => (decodePacket raw).toOption

/-- What is shown for a stream of packets. -/
def presented : AlarmEngine Float64 → List DecodedPacket → List Shown
  | _, [] => []
  | e, p :: ps => .packet p :: (e.evaluate p).1.map .alarm ++ presented (e.advance p) ps

/-- A transition with the record and the packet that triggered it. -/
structure Triggered where
  recordIndex : Nat
  packet : DecodedPacket
  transition : AlarmTransition Float64

/-- The transitions that datagrams trigger, the first of them being record `i`. -/
def triggered : AlarmEngine Float64 → Nat → List Bytes → List Triggered
  | _, _, [] => []
  | e, i, raw :: raws =>
    match decodePacket raw with
    | .error _ => triggered e (i + 1) raws
    | .ok p => (e.evaluate p).1.map (fun t => ⟨i, p, t⟩) ++ triggered (e.advance p) (i + 1) raws

/-- The event that a triggered transition became. -/
def Triggered.LoggedAs (x : Triggered) (e : AlarmEvent) : Prop :=
  AlarmEventRecorder.Carries x.packet.sequence.toNat x.transition e

/-- The alarm log, if there is one, holds the events it started with and one for each triggered transition. -/
def Logs (clock : ClockNs) (begun : List AlarmEvent) (xs : List Triggered) (a : Option AlarmEventRecorder) : Prop :=
  ∀ r ∈ a, ∃ es, r.Wrote clock (begun ++ es) ∧ List.Forall₂ Triggered.LoggedAs xs es

@[simp] theorem decodedPackets_nil : decodedPackets [] = [] := rfl

theorem decodedPackets_cons_ok {raw : Bytes} {p : DecodedPacket} (h : decodePacket raw = .ok p) (raws : List Bytes) :
    decodedPackets (raw :: raws) = p :: decodedPackets raws := by
  rw [decodedPackets, List.filterMap_cons_some (by rw [h]; rfl)]
  rfl

theorem decodedPackets_cons_error {raw : Bytes} {exc : PyError} (h : decodePacket raw = .error exc) (raws : List Bytes) :
    decodedPackets (raw :: raws) = decodedPackets raws := by
  rw [decodedPackets, List.filterMap_cons_none (by rw [h]; rfl)]
  rfl

theorem decodedPackets_append (raws raws' : List Bytes) :
    decodedPackets (raws ++ raws') = decodedPackets raws ++ decodedPackets raws' :=
  List.filterMap_append

theorem presented_append (e : AlarmEngine Float64) (ps qs : List DecodedPacket) :
    presented e (ps ++ qs) = presented e ps ++ presented (ps.foldl AlarmEngine.advance e) qs := by
  induction ps generalizing e with
  | nil => rfl
  | cons p ps ih => rw [List.cons_append, presented, presented, ih, List.foldl_cons, List.append_assoc]

theorem triggered_cons (e : AlarmEngine Float64) (i : Nat) (raw : Bytes) (raws : List Bytes) :
    triggered e i (raw :: raws) =
      triggered e i [raw] ++ triggered ((decodedPackets [raw]).foldl AlarmEngine.advance e) (i + 1) raws := by
  cases h : decodePacket raw with
  | error exc =>
    rw [decodedPackets_cons_error h, triggered, triggered, h]
    rfl
  | ok p =>
    rw [decodedPackets_cons_ok h, triggered, triggered, h]
    simp [triggered]

/-- The triggered transitions are those that the engine emits for the decoded packets. -/
theorem transition_triggered (e : AlarmEngine Float64) (i : Nat) (raws : List Bytes) :
    (triggered e i raws).map Triggered.transition = e.transitions (decodedPackets raws) := by
  induction raws generalizing e i with
  | nil => rfl
  | cons raw raws ih =>
    cases h : decodePacket raw with
    | error exc => rw [triggered, h, decodedPackets_cons_error h]; exact ih e (i + 1)
    | ok p =>
      rw [triggered, h, decodedPackets_cons_ok h, AlarmEngine.transitions, List.map_append, ih, List.map_map]
      exact congrArg (· ++ _) (List.map_id _)

namespace GroundStation
variable {clock : ClockNs} {s : GroundStation}

theorem print_apply (shown : Shown) (s : GroundStation) :
    print shown s = (.ok (), { s with terminal := s.terminal ++ [shown] }) := rfl

theorem forEach_print (ts : List (AlarmTransition Float64)) (s : GroundStation) :
    Method.forEach (fun t => print (.alarm t)) ts s = (.ok (), { s with terminal := s.terminal ++ ts.map .alarm }) := by
  induction ts generalizing s with
  | nil => simp
  | cons t ts ih =>
    rw [Method.forEach_cons, Method.bind_ok (print_apply _ s), ih, List.map_cons, List.append_assoc]
    rfl

/-- A decodable datagram is shown with its transitions, which are logged. -/
theorem processPacket_ok (hclock : Monotone clock) {raw : Bytes} {p : DecodedPacket} (hp : decodePacket raw = .ok p)
    {begun : List AlarmEvent} {xs : List Triggered} (hlogs : Logs clock begun xs s.alarmRecorder) (i : Nat) :
    ∃ a, processPacket clock raw s = (.ok (), { s with
        engine := s.engine.advance p
        alarmRecorder := a
        terminal := s.terminal ++ .packet p :: (s.engine.evaluate p).1.map .alarm }) ∧
      a.isSome = s.alarmRecorder.isSome ∧
      Logs clock begun (xs ++ (s.engine.evaluate p).1.map fun t => ⟨i, p, t⟩) a := by
  have hrange := decodePacket_inRange hp
  obtain ⟨hlo, hhi⟩ : 0 ≤ p.sequence ∧ p.sequence ≤ 0xFFFFFFFF := hrange.sequence
  let s₁ : GroundStation := { s with terminal := s.terminal ++ [.packet p] }
  let s₂ : GroundStation := { s₁ with engine := s.engine.advance p }
  have hprint : print (.packet p) s = (.ok (), s₁) := rfl
  have hevaluate : evaluate p s₁ = (.ok (s.engine.evaluate p).1, s₂) := rfl
  obtain ⟨a, ha, hsome, hlogs'⟩ : ∃ a, onAlarmRecorder (AlarmEventRecorder.writeTransitions clock p.sequence
      (s.engine.evaluate p).1) s₂ = (.ok (), { s₂ with alarmRecorder := a }) ∧
      a.isSome = s.alarmRecorder.isSome ∧ Logs clock begun (xs ++ (s.engine.evaluate p).1.map fun t => ⟨i, p, t⟩) a := by
    cases ha : s.alarmRecorder with
    | none =>
      have hskip : s₂.alarmRecorder = none := ha
      refine ⟨none, ?_, rfl, fun r hr => by cases hr⟩
      rw [onAlarmRecorder, onOptional, hskip]
      exact congrArg (fun a => (Except.ok (), { s₂ with alarmRecorder := a })) hskip
    | some r =>
      have hopen : s₂.alarmRecorder = some r := ha
      obtain ⟨es, hwrote, hall⟩ := hlogs r ha
      obtain ⟨n, hn⟩ := Int.eq_ofNat_of_zero_le hlo
      obtain ⟨es', r', hwrite, hwrote', hall'⟩ := hwrote.writeTransitions_ok hclock
        (show n ≤ MAX_PACKET_SEQUENCE by rw [MAX_PACKET_SEQUENCE]; omega)
        (fun t ht => AlarmEngine.recordable_of_mem_evaluate hrange ht)
      refine ⟨some r', ?_, rfl, fun r'' hr => ?_⟩
      · rw [onAlarmRecorder, onOptional, hopen, hn]
        dsimp only
        rw [hwrite]
      · cases hr
        rw [List.append_assoc] at hwrote'
        refine ⟨es ++ es', hwrote', List.rel_append hall ?_⟩
        rw [List.forall₂_map_left_iff]
        refine hall'.imp fun t e he => ?_
        rw [Triggered.LoggedAs, hn, Int.toNat_natCast]
        exact he
  refine ⟨a, ?_, hsome, hlogs'⟩
  rw [processPacket, Method.bind_ok (Method.lift_eq hp s), Method.bind_ok hprint, Method.bind_ok hevaluate,
    Method.bind_ok ha, forEach_print]
  simp [s₂, s₁]

def recordLines (ds : List Received) : List String := ds.map fun d => (recordJson d.receivedAt d.raw).line

/-- Where a loop has got to after some datagrams: what was recorded, shown and logged. -/
structure Heard (clock : ClockNs) (begun : List AlarmEvent) (s : GroundStation) (ds : List Received) (xs : List Triggered)
    (s' : GroundStation) : Prop where
  engine : s'.engine = (decodedPackets (ds.map Received.raw)).foldl AlarmEngine.advance s.engine
  recorder : s'.recorder = s.recorder.map fun r => ⟨r.lines ++ recordLines ds⟩
  logging : s'.alarmRecorder.isSome = s.alarmRecorder.isSome
  logs : Logs clock begun xs s'.alarmRecorder
  shown : s'.terminal.filter Shown.isPresented =
    s.terminal.filter Shown.isPresented ++ presented s.engine (decodedPackets (ds.map Received.raw))

theorem onRecorder_write (raw : Bytes) (t : Timestamp) (s : GroundStation) :
    onRecorder (SessionRecorder.write raw (.float t.1)) s =
      (.ok (), { s with recorder := s.recorder.map fun r => ⟨r.lines ++ [(recordJson t raw).line]⟩ }) := by
  cases hr : s.recorder with
  | none =>
    rw [onRecorder, onOptional, hr]
    exact congrArg (fun a => (Except.ok (), { s with recorder := a })) hr
  | some r =>
    rw [onRecorder, onOptional, hr]
    dsimp only
    rw [SessionRecorder.write_ok]
    rfl

theorem Heard.append {begun : List AlarmEvent} {ds ds' : List Received} {xs xs' : List Triggered} {s' s'' : GroundStation}
    (h : Heard clock begun s ds xs s') (h' : Heard clock begun s' ds' xs' s'') :
    Heard clock begun s (ds ++ ds') xs' s'' where
  engine := by rw [h'.engine, h.engine, List.map_append, decodedPackets_append, List.foldl_append]
  recorder := by
    rw [h'.recorder, h.recorder]
    cases s.recorder <;> simp [recordLines]
  logging := h'.logging.trans h.logging
  logs := h'.logs
  shown := by
    rw [h'.shown, h.shown, h.engine, List.map_append, decodedPackets_append, presented_append, List.append_assoc]

/-- A pass of the loop records, shows and logs its datagram, also one that is rejected. -/
theorem receive_ok (hclock : Monotone clock) {begun : List AlarmEvent} {xs : List Triggered}
    (hlogs : Logs clock begun xs s.alarmRecorder) (i : Nat) (d : Received) : ∃ s',
      receive clock d s = (.ok (), s') ∧ Heard clock begun s [d] (xs ++ triggered s.engine i [d.raw]) s' := by
  let s₀ : GroundStation := { s with
    recorder := s.recorder.map fun r => ⟨r.lines ++ [(recordJson d.receivedAt d.raw).line]⟩ }
  have hrecord : onRecorder (SessionRecorder.write d.raw (.float d.receivedAt.1)) s = (.ok (), s₀) :=
    onRecorder_write d.raw d.receivedAt s
  cases hp : decodePacket d.raw with
  | error exc =>
    have hfail : processPacket clock d.raw s₀ = (.error exc, s₀) := by
      rw [processPacket, Method.bind_error (Method.lift_eq hp s₀)]
    let s₁ : GroundStation := { s₀ with terminal := s.terminal ++ [.reject d.host d.port exc.message] }
    have hreceive : receive clock d s = (.ok (), s₁) := by
      rw [receive, Method.bind_ok hrecord, Method.tryExcept_error hfail (by simp [decodePacket_error hp])]
      rfl
    have hnone : decodedPackets [d.raw] = [] := decodedPackets_cons_error hp []
    have htriggered : triggered s.engine i [d.raw] = [] := by rw [triggered, hp]; rfl
    refine ⟨s₁, hreceive, ?_⟩
    rw [htriggered, List.append_nil]
    exact {
      engine := by rw [List.map_singleton, hnone]; rfl
      recorder := rfl
      logging := rfl
      logs := hlogs
      shown := by
        rw [List.map_singleton, hnone, List.filter_append]
        simp [presented, Shown.isPresented] }
  | ok p =>
    obtain ⟨a, hprocess, hsome, hlogs'⟩ := processPacket_ok (s := s₀) hclock hp hlogs i
    let s₁ : GroundStation := { s₀ with
      engine := s.engine.advance p
      alarmRecorder := a
      terminal := s.terminal ++ .packet p :: (s.engine.evaluate p).1.map .alarm }
    have hreceive : receive clock d s = (.ok (), s₁) := by
      rw [receive, Method.bind_ok hrecord, Method.tryExcept_ok hprocess]
    have hone : decodedPackets [d.raw] = [p] := decodedPackets_cons_ok hp []
    have htriggered : triggered s.engine i [d.raw] = (s.engine.evaluate p).1.map fun t => ⟨i, p, t⟩ := by
      rw [triggered, hp]
      exact List.append_nil _
    have halarms : ((s.engine.evaluate p).1.map Shown.alarm).filter Shown.isPresented =
        (s.engine.evaluate p).1.map Shown.alarm := by
      rw [List.filter_eq_self]
      intro x hx
      obtain ⟨t, -, rfl⟩ := List.mem_map.mp hx
      rfl
    refine ⟨s₁, hreceive, ?_⟩
    rw [htriggered]
    exact {
      engine := by rw [List.map_singleton, hone]; rfl
      recorder := rfl
      logging := hsome
      logs := hlogs'
      shown := by
        rw [List.map_singleton, hone, presented, presented, List.append_nil, List.filter_append,
          List.filter_cons_of_pos (by rfl), halarms] }

/-- The listen loop records, shows and logs every datagram; rejected ones do not stop it. -/
theorem forEach_receive (hclock : Monotone clock) {begun : List AlarmEvent} {xs : List Triggered}
    (hlogs : Logs clock begun xs s.alarmRecorder) (i : Nat) (ds : List Received) : ∃ s',
      Method.forEach (receive clock) ds s = (.ok (), s') ∧
        Heard clock begun s ds (xs ++ triggered s.engine i (ds.map Received.raw)) s' := by
  induction ds generalizing s xs i with
  | nil =>
    refine ⟨s, rfl, rfl, ?_, rfl, ?_, ?_⟩
    · cases s.recorder <;> simp [recordLines]
    · rwa [List.map_nil, triggered, List.append_nil]
    · simp [presented]
  | cons d ds ih =>
    obtain ⟨s₁, hreceive, hone⟩ := receive_ok hclock hlogs i d
    obtain ⟨s', hrun, hrest⟩ := ih hone.logs (i + 1)
    refine ⟨s', by rw [Method.forEach_cons, Method.bind_ok hreceive, hrun], ?_⟩
    have hengine : s₁.engine = (decodedPackets [d.raw]).foldl AlarmEngine.advance s.engine := hone.engine
    rw [List.map_cons, triggered_cons, ← hengine, ← List.append_assoc]
    exact hone.append hrest

/-- Opening succeeds, with a fresh engine and an alarm log that holds its metadata. -/
theorem opened_ok (hclock : Monotone clock) (hstart : 0 ≤ clock 0) (policy : AlarmPolicy Float64) {reference : String}
    (href : IsVisible reference) (uuid : Bytes) (record alarmLog : Bool) : ∃ s e,
      opened clock policy reference uuid record alarmLog = .ok s ∧ s.engine = .new policy ∧
        s.recorder = (if record then some .new else none) ∧ s.alarmRecorder.isSome = alarmLog ∧ s.terminal = [] ∧
        Logs clock [e] [] s.alarmRecorder ∧ e.eventType = .RUN_METADATA := by
  obtain ⟨m, hm⟩ := AlarmRunMetadata.fromPolicy_ok policy href
  obtain ⟨r, hnew⟩ := AlarmEventRecorder.exists_new hstart m uuid
    (show ∀ s ∈ (none : Option String), IsVisible s from fun _ h => by cases h)
  obtain ⟨e, hwrote, htype, -⟩ := AlarmEventRecorder.wrote_of_new hclock hnew
  cases alarmLog with
  | false => exact ⟨_, e, rfl, rfl, rfl, rfl, rfl, (fun r hr => by cases hr), htype⟩
  | true =>
    refine ⟨⟨.new policy, if record then some .new else none, some r, []⟩, e, ?_, rfl, rfl, rfl, rfl, ?_, htype⟩
    · rw [opened, if_pos rfl, hm]
      exact except_bind_eq_ok.mpr ⟨m, rfl, except_bind_eq_ok.mpr ⟨r, hnew, rfl⟩⟩
    · rintro r' hr
      cases hr
      exact ⟨[], hwrote, .nil⟩

/-- The packets that a replay presents: it ends at the first pause that fails and at the first rejected record. -/
def replayed (speed : Speed) : Option Timestamp → List Received → List DecodedPacket
  | _, [] => []
  | previousTime, d :: ds =>
    match pause speed previousTime d.receivedAt, decodePacket d.raw with
    | .ok (), .ok p => p :: replayed speed (some d.receivedAt) ds
    | _, _ => []

/-- A replay shows the packets up to its end, with their transitions. -/
theorem terminal_replayEach (speed : Speed) (previousTime : Option Timestamp) (ds : List Received)
    (h : s.alarmRecorder = none) :
    (replayEach speed (processPacket fun _ => 0) previousTime (ds.map fun d => (d.receivedAt, d.raw)) s).2.terminal =
      s.terminal ++ presented s.engine (replayed speed previousTime ds) := by
  induction ds generalizing s previousTime with
  | nil => simp [replayEach, replayed, presented]
  | cons d ds ih =>
    rw [List.map_cons, replayEach, replayed]
    cases hpause : pause speed previousTime d.receivedAt with
    | error exc =>
      rw [Method.bind_error (Method.lift_apply _ s)]
      simp [presented]
    | ok u =>
      rw [Method.bind_ok (Method.lift_apply _ s)]
      cases hp : decodePacket d.raw with
      | error exc =>
        have hfail : processPacket (fun _ => 0) d.raw s = (.error exc, s) := by
          rw [processPacket, Method.bind_error (Method.lift_eq hp s)]
        rw [Method.bind_error hfail]
        simp [presented]
      | ok p =>
        have hstill : Monotone (fun _ => 0 : ClockNs) := fun _ _ _ => le_rfl
        have hlogs : Logs (fun _ => 0) [] [] s.alarmRecorder := fun r hr => by rw [h] at hr; cases hr
        obtain ⟨a, hprocess, hsome, -⟩ := processPacket_ok hstill hp hlogs 0
        have ha : a = none := by
          rw [h] at hsome
          exact Option.not_isSome_iff_eq_none.mp (by rw [hsome]; decide)
        rw [Method.bind_ok hprocess, ih (some d.receivedAt) ha, List.append_assoc]
        rfl

/-- A replay can sleep for the time between two receptions. -/
def PauseFits (speed : Speed) (a b : Received) : Prop :=
  ∃ delay, recordDelay speed a.receivedAt b.receivedAt = some delay ∧ Sleepable delay

/-- A replay gets through all of these records. -/
def Plays (speed : Speed) : Option Timestamp → List Received → Prop
  | _, [] => True
  | previousTime, d :: ds =>
    pause speed previousTime d.receivedAt = .ok () ∧ d.Decodable ∧ Plays speed (some d.receivedAt) ds

theorem plays_some_iff (speed : Speed) (a : Received) (ds : List Received) : Plays speed (some a.receivedAt) ds ↔
    (∀ d ∈ ds, d.Decodable) ∧ (a :: ds).IsChain (PauseFits speed) := by
  induction ds generalizing a with
  | nil => simp [Plays]
  | cons d ds ih =>
    rw [Plays, ih, List.isChain_cons_cons, List.forall_mem_cons, PauseFits, pause_some_eq_ok]
    tauto

theorem plays_none_iff (speed : Speed) (ds : List Received) : Plays speed none ds ↔
    (∀ d ∈ ds, d.Decodable) ∧ ds.IsChain (PauseFits speed) := by
  cases ds with
  | nil => simp [Plays]
  | cons d ds =>
    rw [Plays, plays_some_iff, List.forall_mem_cons]
    exact ⟨fun h => ⟨⟨h.2.1, h.2.2.1⟩, h.2.2.2⟩, fun h => ⟨rfl, h.1.1, h.1.2, h.2⟩⟩

theorem decodedPackets_eq_nil {ds : List Received} :
    decodedPackets (ds.map Received.raw) = [] ↔ ∀ d ∈ ds, ¬d.Decodable := by
  rw [decodedPackets, List.filterMap_eq_nil_iff, List.forall_mem_map]
  refine forall₂_congr fun d _ => ?_
  rw [Received.Decodable]
  cases decodePacket d.raw <;> simp [Except.toOption]

/-- A replay presents every packet exactly when it gets through to each decodable datagram. -/
theorem replayed_eq_iff (speed : Speed) (previousTime : Option Timestamp) (ds : List Received) :
    replayed speed previousTime ds = decodedPackets (ds.map Received.raw) ↔
      ∀ pre d post, ds = pre ++ d :: post → d.Decodable → Plays speed previousTime (pre ++ [d]) := by
  induction ds generalizing previousTime with
  | nil => simp [replayed]
  | cons d ds ih =>
    have hstuck : (¬∃ p, pause speed previousTime d.receivedAt = .ok () ∧ decodePacket d.raw = .ok p) →
        ((∀ pre c post, d :: ds = pre ++ c :: post → c.Decodable → Plays speed previousTime (pre ++ [c])) ↔
          ∀ c ∈ d :: ds, ¬c.Decodable) := by
      intro hno
      constructor
      · intro h c hc hdec
        obtain ⟨pre, post, hsplit⟩ := List.append_of_mem hc
        have hplays := h pre c post hsplit hdec
        cases pre with
        | nil =>
          cases hsplit
          exact hno ⟨_, hplays.1, hdec.choose_spec⟩
        | cons x pre =>
          cases hsplit
          exact hno ⟨_, hplays.1, hplays.2.1.choose_spec⟩
      · rintro h pre c post hsplit hdec
        exact absurd hdec (h c (by rw [hsplit]; simp))
    rw [replayed]
    cases hpause : pause speed previousTime d.receivedAt with
    | error exc =>
      rw [hstuck (by simp [hpause]), ← decodedPackets_eq_nil]
      exact eq_comm
    | ok u =>
      cases hp : decodePacket d.raw with
      | error exc =>
        rw [hstuck (by simp [hp]), ← decodedPackets_eq_nil]
        exact eq_comm
      | ok p =>
        dsimp only
        rw [List.map_cons, decodedPackets_cons_ok hp, List.cons.injEq, and_iff_right rfl, ih]
        constructor
        · intro h pre c post hsplit hdec
          cases pre with
          | nil =>
            cases hsplit
            exact ⟨hpause, hdec, trivial⟩
          | cons x pre =>
            cases hsplit
            exact ⟨hpause, ⟨p, hp⟩, h pre c post rfl hdec⟩
        · intro h pre c post hsplit hdec
          exact (h (d :: pre) c post (by rw [hsplit]; rfl) hdec).2.2

/-- What a listener leaves behind: its recording, its terminal, and a complete alarm log. -/
structure Listened (policy : AlarmPolicy Float64) (record alarmLog : Bool) (ds : List Received) (s : GroundStation) :
    Prop where
  recording : s.recorder = if record then some ⟨recordLines ds⟩ else none
  shown : s.terminal.filter Shown.isPresented = presented (.new policy) (decodedPackets (ds.map Received.raw))
  logging : s.alarmRecorder.isSome = alarmLog
  logged : ∀ r ∈ s.alarmRecorder, ∃ header es summary, r.lines = (header :: es ++ [summary]).map (fun e => e.toDict.line) ∧
    Grows AlarmEvent.Next [] (header :: es ++ [summary]) ∧ requireSummary (header :: es ++ [summary]) = .ok () ∧
    summary.eventType = .RUN_SUMMARY ∧ header.eventType = .RUN_METADATA ∧
    List.Forall₂ Triggered.LoggedAs (triggered (.new policy) 0 (ds.map Received.raw)) es

/-- A listener runs until it is stopped and closes its files, whatever it receives. -/
theorem listen_ok (hclock : Monotone clock) (hstart : 0 ≤ clock 0) (policy : AlarmPolicy Float64) {reference : String}
    (href : IsVisible reference) (uuid : Bytes) (record alarmLog : Bool) (ds : List Received) : ∃ s s',
      opened clock policy reference uuid record alarmLog = .ok s ∧ listen clock ds s = (.ok (), s') ∧
        Listened policy record alarmLog ds s' := by
  obtain ⟨s, header, hopen, hengine, hrecorder, hlogging, hterminal, hlogs, hheader⟩ :=
    opened_ok hclock hstart policy href uuid record alarmLog
  obtain ⟨s₁, hrun, hheard⟩ := forEach_receive hclock hlogs 0 ds
  have hrecording : s₁.recorder = if record then some ⟨recordLines ds⟩ else none := by
    rw [hheard.recorder, hrecorder]
    cases record <;> rfl
  have hshown : s₁.terminal.filter Shown.isPresented =
      presented (.new policy) (decodedPackets (ds.map Received.raw)) := by
    rw [hheard.shown, hterminal, hengine]
    rfl
  cases ha : s₁.alarmRecorder with
  | none =>
    refine ⟨s, s₁, hopen, ?_, hrecording, hshown, hheard.logging.trans hlogging, fun r hr => by rw [ha] at hr; cases hr⟩
    rw [listen, Method.tryFinally_ok hrun]
    have hskip : onAlarmRecorder (AlarmEventRecorder.close clock) s₁ = (.ok (), s₁) := by
      rw [onAlarmRecorder, onOptional, ha]
    rw [Method.bind_ok hskip]
    rfl
  | some r =>
    obtain ⟨es, hwrote, hall⟩ := hheard.logs r ha
    obtain ⟨summary, r', hclose, hlines, hgrows, hsummary, htype⟩ := hwrote.close_ok hclock
    refine ⟨s, { s₁ with alarmRecorder := some r' }, hopen, ?_, hrecording, hshown, ?_, ?_⟩
    · rw [listen, Method.tryFinally_ok hrun]
      have hcloses : onAlarmRecorder (AlarmEventRecorder.close clock) s₁ =
          (.ok (), { s₁ with alarmRecorder := some r' }) := by
        rw [onAlarmRecorder, onOptional, ha]
        dsimp only
        rw [hclose]
      rw [Method.bind_ok hcloses]
      rfl
    · rw [← hlogging, ← hheard.logging, ha]
      rfl
    · rintro _ ⟨⟩
      rw [hengine] at hall
      exact ⟨header, es, summary, hlines, hgrows, hsummary, htype, hheader, hall⟩

/-- A replay of the lines that a listener recorded. -/
theorem terminal_replay {loads : String → Option Json} {ds : List Received}
    (hloads : ∀ d ∈ ds, ReadsBack loads (recordJson d.receivedAt d.raw)) (speed : Speed) :
    (replay loads ⟨recordLines ds, none⟩ (.float speed.1)).2.terminal =
      presented (.new DEFAULT_ALARM_POLICY) (replayed speed none ds) := by
  have hlines : recordLines ds = (ds.map fun d => (d.receivedAt, d.raw)).map fun d => (recordJson d.1 d.2).line := by
    rw [List.map_map]; rfl
  rw [replay, hlines, iterRecords_written (by simpa using hloads), terminal_replayEach speed none ds rfl]
  rfl

theorem filterMap_presented (e : AlarmEngine Float64) (ps : List DecodedPacket) :
    (presented e ps).filterMap Shown.packet? = ps := by
  induction ps generalizing e with
  | nil => rfl
  | cons p ps ih =>
    have halarms : ((e.evaluate p).1.map Shown.alarm).filterMap Shown.packet? = [] := by
      rw [List.filterMap_map, List.filterMap_eq_nil_iff]
      exact fun _ _ => rfl
    rw [presented, List.cons_append, List.filterMap_cons_some (show Shown.packet? (.packet p) = some p from rfl),
      List.filterMap_append, halarms, ih]
    rfl

theorem presented_inj {e : AlarmEngine Float64} {ps qs : List DecodedPacket} :
    presented e ps = presented e qs ↔ ps = qs := by
  refine ⟨fun h => ?_, congrArg _⟩
  rw [← filterMap_presented e ps, h, filterMap_presented]

/-- Replaying a listener's recording shows what the listener presented exactly when every decodable
datagram was received before any rejected one and after pauses that a replay can make. -/
theorem replay_reproduces_iff (hclock : Monotone clock) (hstart : 0 ≤ clock 0) (uuid : Bytes) (alarmLog : Bool)
    (ds : List Received) : ∃ s s' file,
      opened clock DEFAULT_ALARM_POLICY "builtin:standard" uuid true alarmLog = .ok s ∧
      listen clock ds s = (.ok (), s') ∧ s'.recorder = some file ∧
      ∀ (loads : String → Option Json) (speed : Speed), (∀ d ∈ ds, ReadsBack loads (recordJson d.receivedAt d.raw)) →
        ((replay loads ⟨file.lines, none⟩ (.float speed.1)).2.terminal = s'.terminal.filter Shown.isPresented ↔
          ∀ pre d post, ds = pre ++ d :: post → d.Decodable →
            (∀ c ∈ pre, c.Decodable) ∧ (pre ++ [d]).IsChain (PauseFits speed)) := by
  obtain ⟨s, s', hopen, hlisten, h⟩ := listen_ok hclock hstart DEFAULT_ALARM_POLICY
    (by decide : IsVisible "builtin:standard") uuid true alarmLog ds
  refine ⟨s, s', ⟨recordLines ds⟩, hopen, hlisten, h.recording, fun loads speed hloads => ?_⟩
  rw [h.shown, terminal_replay hloads, presented_inj, replayed_eq_iff]
  refine forall₄_congr fun pre d post hsplit => forall_congr' fun hdec => ?_
  rw [plays_none_iff]
  simp [or_imp, forall_and, hdec]

/-- The datagrams of a listener that receives at time zero. -/
def arriving (raws : List Bytes) : List Received := raws.map fun raw => ⟨raw, "127.0.0.1", 40000, zeroTimestamp⟩

/-- The speed of `--speed 1.0`. -/
def unitSpeed : Speed := ⟨⟨0x3FF0000000000000#64⟩, by decide⟩

/-- Two packets, received one second apart. -/
def apart : List Received :=
  [⟨encoding nominalPacket, "127.0.0.1", 40000, zeroTimestamp⟩,
    ⟨encoding { nominalPacket with sequence := 8 }, "127.0.0.1", 40000, oneSecond⟩]

theorem decodable_apart : ∀ d ∈ apart, d.Decodable := by
  intro d hd
  simp only [apart, List.mem_cons, List.not_mem_nil, or_false] at hd
  rcases hd with rfl | rfl
  · obtain ⟨p, hp, -⟩ := decodePacket_encoding (validatePacket_eq_ok.mp (by decide) : nominalPacket.InRange)
    exact ⟨p, hp⟩
  · obtain ⟨p, hp, -⟩ := decodePacket_encoding
      (validatePacket_eq_ok.mp (by decide) : ({ nominalPacket with sequence := 8 } : TelemetryPacket Int).InRange)
    exact ⟨p, hp⟩

theorem recordDelay_apart : recordDelay unitSpeed zeroTimestamp oneSecond = some oneSecond.1 := by decide +kernel

theorem isChain_apart : apart.IsChain (PauseFits unitSpeed) := by
  refine List.isChain_cons_cons.mpr ⟨⟨oneSecond.1, recordDelay_apart, sleep_eq_ok.mp (by decide +kernel)⟩, ?_⟩
  exact List.isChain_singleton _

/-- The replay sleeps for a second and shows both packets, as the listener did. -/
theorem replay_reproduces_iff_apart : ∃ s s' file,
    opened (fun _ => 0) DEFAULT_ALARM_POLICY "builtin:standard" [] true false = .ok s ∧
    listen (fun _ => 0) apart s = (.ok (), s') ∧ s'.recorder = some file ∧
    (replay Json.loads ⟨file.lines, none⟩ (.float unitSpeed.1)).2.terminal = s'.terminal.filter Shown.isPresented ∧
    recordDelay unitSpeed zeroTimestamp oneSecond = some oneSecond.1 := by
  have hstill : Monotone (fun _ => 0 : ClockNs) := fun _ _ _ => le_rfl
  obtain ⟨s, s', file, hopen, hlisten, hfile, h⟩ := replay_reproduces_iff hstill le_rfl [] false apart
  refine ⟨s, s', file, hopen, hlisten, hfile,
    (h Json.loads unitSpeed fun d _ => readsBack_recordJson _ _).mpr fun pre d post hsplit _ => ?_, recordDelay_apart⟩
  have hbefore : (pre ++ [d]) <+: apart := ⟨post, by rw [hsplit, List.append_assoc, List.singleton_append]⟩
  refine ⟨fun c hc => decodable_apart c ?_, isChain_apart.prefix hbefore⟩
  exact hbefore.subset (List.mem_append_left _ hc)

/-- After a rejected datagram the replay shows nothing more, the listener does. -/
theorem replay_loses_after_reject : ∃ s s' file,
    opened (fun _ => 0) DEFAULT_ALARM_POLICY "builtin:standard" [] true false = .ok s ∧
    listen (fun _ => 0) (arriving [[], encoding nominalPacket]) s = (.ok (), s') ∧ s'.recorder = some file ∧
    (∀ d ∈ arriving [[], encoding nominalPacket], ReadsBack Json.loads (recordJson d.receivedAt d.raw)) ∧
    (replay Json.loads ⟨file.lines, none⟩ (.float unitSpeed.1)).2.terminal ≠
      s'.terminal.filter Shown.isPresented := by
  have hstill : Monotone (fun _ => 0 : ClockNs) := fun _ _ _ => le_rfl
  obtain ⟨s, s', hopen, hlisten, h⟩ := listen_ok hstill le_rfl DEFAULT_ALARM_POLICY
    (by decide : IsVisible "builtin:standard") [] true false (arriving [[], encoding nominalPacket])
  have hloads : ∀ d ∈ arriving [[], encoding nominalPacket], ReadsBack Json.loads (recordJson d.receivedAt d.raw) :=
    fun d _ => readsBack_recordJson _ _
  refine ⟨s, s', ⟨_⟩, hopen, hlisten, h.recording, hloads, ?_⟩
  rw [h.shown, terminal_replay hloads, Ne, presented_inj]
  obtain ⟨p, hp, -⟩ := decodePacket_encoding (validatePacket_eq_ok.mp (by decide) : nominalPacket.InRange)
  have hlive : decodedPackets ((arriving [[], encoding nominalPacket]).map Received.raw) = [p] := by
    show decodedPackets [[], encoding nominalPacket] = [p]
    rw [decodedPackets_cons_error rfl, decodedPackets_cons_ok hp, decodedPackets_nil]
  have hreplay : replayed unitSpeed none (arriving [[], encoding nominalPacket]) = [] := rfl
  rw [hlive, hreplay]
  exact (List.cons_ne_nil p []).symm

end GroundStation

end OrbitOps
