import OrbitOps.Fingerprints
import OrbitOps.Link.Overtaking
import OrbitOps.Py.Preserves

/-!
# The life of a link runtime

`open` binds the sockets and resets the state, `run` owns the event stream and the loop, `close` may be
called at any time. Whatever is called in whatever order, the runtime holds both sockets or none, the
only other ones that nothing has closed are those of an `open` that got no second socket, and an open
runtime is as new: so every run that begins does what the first run of a new runtime does. However a run
ends, its `finally` writes the summary unless the sink refuses it (`run_completes`).
-/

namespace OrbitOps.Link
open Py

/-- The outcomes of the calls `socket.socket` and `bind`, by the number of the socket. -/
structure Network where
  socket : Nat → Result Unit
  bind : Nat → Result Unit

/-- `LinkRuntime` with the state behind its event sink; `live` are the sockets that it has created and not closed
(the garbage collector closes those that it no longer holds, at a time of its own). -/
structure LinkRuntime (σ : Type) where
  config : LinkConfig
  pollIntervalS : Float64
  sessionId : Option String
  runMetadata : LinkRunMetadata
  sink : σ
  engine : ImpairmentEngine
  scheduler : DatagramScheduler
  eventStream : Option (LinkEventStream σ)
  highestForwardedPacketIndex : Int
  reorderedPackets : List Int
  inputSocket : Option Nat
  outputSocket : Option Nat
  created : Nat
  live : List Nat
  fingerprint_ok : configurationFingerprint config = .ok runMetadata.configurationFingerprint
  session_visible : ∀ s ∈ sessionId, isBlank s = false

theorem isFingerprint_configurationFingerprint {config : LinkConfig} {fingerprint : String}
    (h : configurationFingerprint config = .ok fingerprint) : isFingerprint fingerprint = true := by
  obtain ⟨canonical, -, hf⟩ := except_bind_eq_ok.mp h
  rw [← Except.ok.inj hf]
  exact isFingerprint_digest (asciiBytes canonical)

/-! Metadata without a profile: its three fields are absent together. -/

theorem LinkRunMetadata.together_none : (none : Option VisibleText).isSome = (none : Option VisibleText).isSome ∧
    (none : Option VisibleText).isSome = (none : Option Nat).isSome := ⟨rfl, rfl⟩

theorem LinkRunMetadata.version_pos_none : ∀ v ∈ (none : Option Nat), 0 < v :=
  fun v hv => absurd hv (Option.not_mem_none v)

/-- `LinkRunMetadata(expected_fingerprint)`. -/
def LinkRunMetadata.ofFingerprint (fingerprint : String) (h : isFingerprint fingerprint = true) : LinkRunMetadata where
  configurationFingerprint := fingerprint
  profileName := none
  profileReference := none
  profileSchemaVersion := none
  fingerprint_ok := h
  together := together_none
  version_pos := version_pos_none

namespace LinkRuntime
variable {σ : Type}

/-- `__init__`. -/
def new (config : LinkConfig) (pollIntervalS : Float64) (sessionId : Option String) (runMetadata : Option LinkRunMetadata)
    (sink : σ) : Result (LinkRuntime σ) := do
  let pollIntervalS ← requirePollInterval pollIntervalS
  if hs : ∀ s ∈ sessionId, isBlank s = false then
    match hf : configurationFingerprint config with
    | .error e => .error e
    | .ok expected =>
      let metadata := runMetadata.getD (.ofFingerprint expected (isFingerprint_configurationFingerprint hf))
      if hm : metadata.configurationFingerprint = expected then
        return {
          config := config
          pollIntervalS := pollIntervalS
          sessionId := sessionId
          runMetadata := metadata
          sink := sink
          engine := .new config
          scheduler := .new
          eventStream := none
          highestForwardedPacketIndex := -1
          reorderedPackets := []
          inputSocket := none
          outputSocket := none
          created := 0
          live := []
          fingerprint_ok := hf.trans (congrArg Except.ok hm.symm)
          session_visible := hs }
      else .error (valueError "run_metadata configuration_fingerprint does not match the effective LinkConfig")
  else .error (valueError "session_id must be a non-empty string")

def isOpen (self : LinkRuntime σ) : Bool := self.inputSocket.isSome && self.outputSocket.isSome

def pendingCount (self : LinkRuntime σ) : Nat := self.scheduler.pendingCount

def statistics (self : LinkRuntime σ) : LinkStatistics :=
  match self.eventStream with
  | none => {}
  | some stream => stream.statistics

/-! ### Opening and closing -/

/-- `socket.socket(...)`. -/
def createSocket (net : Network) : Method PyError (LinkRuntime σ) Nat := do
  let self ← Method.get
  Method.lift (net.socket self.created)
  Method.modify fun self => { self with created := self.created + 1, live := self.live ++ [self.created] }
  return self.created

def closeSocket (socket : Nat) : Method PyError (LinkRuntime σ) Unit :=
  Method.modify fun self => { self with live := self.live.filter (· ≠ socket) }

/-- `except BaseException:` the sockets are closed and the exception goes on. -/
def abandon {α : Type} (sockets : List Nat) (e : PyError) : Method PyError (LinkRuntime σ) α := do
  Method.forEach closeSocket sockets
  Method.raise e

/-- The state that `open` starts from. -/
def reset (input output : Nat) (self : LinkRuntime σ) : LinkRuntime σ := { self with
  engine := .new self.config
  scheduler := .new
  eventStream := none
  highestForwardedPacketIndex := -1
  reorderedPackets := []
  inputSocket := some input
  outputSocket := some output }

end LinkRuntime

def LinkRuntime.open {σ : Type} (net : Network) : Method PyError (LinkRuntime σ) Unit := do
  let self ← Method.get
  if self.isOpen then Method.raise (runtimeError "link runtime is already open")
  else do
    let input ← createSocket net
    -- only the binding is guarded: an input socket that gets no output socket is not closed
    let output ← createSocket net
    Method.tryExcept (Method.lift (net.bind input)) (fun _ => true) (abandon [input, output])
    Method.modify (reset input output)

namespace LinkRuntime
variable {σ : Type}

def close : Method PyError (LinkRuntime σ) Unit := do
  let self ← Method.get
  Method.modify fun self => { self with inputSocket := none, outputSocket := none }
  Method.forEach closeSocket (self.inputSocket.toList ++ self.outputSocket.toList)

/-! ### Running -/

/-- The runtime after its loop. -/
def leave (self : LinkRuntime σ) (s : RunState σ) : LinkRuntime σ := { self with
  sink := s.eventStream.sink
  engine := s.engine
  scheduler := s.scheduler
  eventStream := some s.eventStream
  highestForwardedPacketIndex := s.highestForwardedPacketIndex
  reorderedPackets := s.reorderedPackets }

variable (S : EventSink σ) (env : Environment)

/-- The `finally` of `run`: the summary, whose exception replaces the loop's, and then `close`. -/
def runFinally (outcome : Result Unit) (s : RunState σ) (self : LinkRuntime σ) : Result Unit × LinkRuntime σ :=
  match LinkEventStream.emitSummary S (.int (env.clock s.clockCalls)) s.eventStream with
  | (.ok _, stream) => (outcome, (close (self.leave { s with eventStream := stream })).2)
  | (.error e, stream) => (.error e, (close (self.leave { s with eventStream := stream })).2)

/-- The first values of the loop's variables. -/
def loopState (self : LinkRuntime σ) (stream : LinkEventStream σ) : RunState σ where
  engine := self.engine
  scheduler := self.scheduler
  eventStream := stream
  highestForwardedPacketIndex := self.highestForwardedPacketIndex
  reorderedPackets := self.reorderedPackets
  receivedPackets := 0
  draining := false
  clockCalls := 1
  handed := []

/-- `self._session_id or uuid.uuid4().hex`. -/
def session (self : LinkRuntime σ) (uuid : Bytes) : String := self.sessionId.getD (hexOfBytes uuid)

/-- `run`, when it is over after `n` iterations of its loop. -/
def run (uuid : Bytes) (maxPackets : Option Int) (n : Nat) (self : LinkRuntime σ) :
    Option (Result Unit × LinkRuntime σ) :=
  if ∃ m ∈ maxPackets, m ≤ 0 then some (.error (valueError "max_packets must be positive"), self)
  else if self.isOpen = false then some (.error (runtimeError "link runtime must be opened before run"), self)
  else
    match LinkEventStream.new (self.session uuid) (.int (env.clock 0)) self.sink with
    | .error e => some (.error e, self)
    | .ok stream =>
      match LinkEventStream.emitRunMetadata S self.runMetadata (.int (env.clock 0)) stream with
      | (.error e, stream) => some (.error e, { self with sink := stream.sink, eventStream := some stream })
      | (.ok _, stream) =>
        match RunState.iterations S env self.pollIntervalS maxPackets (self.loopState stream) n with
        | .running _ => none
        | .left _ s => some (runFinally S env (.ok ()) s self)
        | .raised e s => some (runFinally S env (.error e) s self)

/-- A call of a method; a run is one that is over. -/
inductive Call where
  | open (net : Network)
  | close
  | run (env : Environment) (uuid : Bytes) (maxPackets : Option Int) (n : Nat)

def Call.apply (c : Call) (self : LinkRuntime σ) : LinkRuntime σ :=
  match c with
  | .open net => (LinkRuntime.open net self).2
  | .close => (LinkRuntime.close self).2
  | .run env uuid maxPackets n =>
    match LinkRuntime.run S env uuid maxPackets n self with
    | none => self
    | some (_, self') => self'

/-- The runtime after some calls. -/
def after (calls : List Call) (self : LinkRuntime σ) : LinkRuntime σ :=
  calls.foldl (fun self c => c.apply S self) self

/-- The socket of a call that nothing closes: the input socket of an `open` that gets no output socket. -/
def Call.leaves (c : Call) (self : LinkRuntime σ) : List Nat :=
  match c with
  | .open net =>
    if self.isOpen = false ∧ (net.socket self.created).toBool = true ∧ (net.socket (self.created + 1)).toBool = false then
      [self.created]
    else []
  | .close | .run .. => []

/-- The sockets that nothing closes. -/
def leftBehind : List Call → LinkRuntime σ → List Nat
  | [], _ => []
  | c :: calls, self => c.leaves self ++ leftBehind calls (c.apply S self)

/-! ### Reachable runtimes -/

/-- What holds between calls, when nothing closes the sockets `left`. -/
structure Sound (left : List Nat) (rt : LinkRuntime σ) : Prop where
  live : rt.live = left ++ (rt.inputSocket.toList ++ rt.outputSocket.toList)
  paired : rt.inputSocket.isSome = rt.outputSocket.isSome
  nodup : rt.live.Nodup
  below : ∀ k ∈ rt.live, k < rt.created
  fresh : rt.isOpen = true → rt.engine = .new rt.config ∧ rt.scheduler = .new ∧
    rt.highestForwardedPacketIndex = -1 ∧ rt.reorderedPackets = []

/-- The arguments of the constructor. -/
structure SameArguments (rt rt' : LinkRuntime σ) : Prop where
  config : rt'.config = rt.config
  pollIntervalS : rt'.pollIntervalS = rt.pollIntervalS
  sessionId : rt'.sessionId = rt.sessionId
  runMetadata : rt'.runMetadata = rt.runMetadata

theorem SameArguments.refl (self : LinkRuntime σ) : SameArguments self self := ⟨rfl, rfl, rfl, rfl⟩

theorem SameArguments.trans {self self' self'' : LinkRuntime σ} (h : SameArguments self self')
    (h' : SameArguments self' self'') : SameArguments self self'' :=
  ⟨h'.config.trans h.config, h'.pollIntervalS.trans h.pollIntervalS, h'.sessionId.trans h.sessionId,
    h'.runMetadata.trans h.runMetadata⟩

theorem closeSocket_apply (k : Nat) (self : LinkRuntime σ) :
    closeSocket k self = (.ok (), { self with live := self.live.filter (· ≠ k) }) := rfl

theorem forEach_closeSocket (ks : List Nat) (self : LinkRuntime σ) :
    Method.forEach closeSocket ks self = (.ok (), { self with live := self.live.filter (· ∉ ks) }) := by
  induction ks generalizing self with
  | nil => simp
  | cons k ks ih =>
    rw [Method.forEach_cons, Method.bind_ok (closeSocket_apply k self), ih]
    simp only [List.filter_filter, List.mem_cons, not_or, Bool.decide_and, Bool.and_comm]

/-- A failed step of `open` closes the sockets that it has. -/
theorem tryExcept_abandon {α : Type} {m : Method PyError (LinkRuntime σ) α} {ks : List Nat} {e : PyError}
    {self self' : LinkRuntime σ} (h : m self = (.error e, self')) :
    Method.tryExcept m (fun _ => true) (abandon ks) self =
      (.error e, { self' with live := self'.live.filter (· ∉ ks) }) := by
  rw [Method.tryExcept_error h rfl, abandon, Method.bind_ok (forEach_closeSocket ks self'), Method.raise_apply]

/-- Closing the last two sockets of a list without repetitions. -/
theorem filter_notMem_append {left held : List Nat} (h : (left ++ held).Nodup) :
    (left ++ held).filter (· ∉ held) = left := by
  have hleft : ∀ k ∈ left, k ∉ held := fun k hk hk' => (List.nodup_append.mp h).2.2 k hk k hk' rfl
  rw [List.filter_append, List.filter_eq_self.mpr (by simpa using hleft), List.filter_eq_nil_iff.mpr (by simp),
    List.append_nil]

/-- The sockets that a runtime holds are all its open ones but those left behind. -/
theorem Sound.filter_live {left : List Nat} {self : LinkRuntime σ} (h : Sound left self) :
    self.live.filter (· ∉ self.inputSocket.toList ++ self.outputSocket.toList) = left := by
  rw [h.live]
  exact filter_notMem_append (h.live ▸ h.nodup)

theorem close_apply (self : LinkRuntime σ) : close self = (.ok (), { self with
    inputSocket := none
    outputSocket := none
    live := self.live.filter (· ∉ self.inputSocket.toList ++ self.outputSocket.toList) }) := by
  rw [close, Method.bind_ok (Method.get_apply self), Method.bind_ok (Method.modify_apply _ self), forEach_closeSocket]

theorem Sound.closed {left : List Nat} {self : LinkRuntime σ} (h : Sound left self) :
    close self = (.ok (), { self with inputSocket := none, outputSocket := none, live := left }) := by
  rw [close_apply, h.filter_live]

/-- A runtime that holds no socket. -/
theorem sound_closed {left : List Nat} {self : LinkRuntime σ} (hi : self.inputSocket = none)
    (ho : self.outputSocket = none) (hl : self.live = left) (hnodup : left.Nodup) (hbelow : ∀ k ∈ left, k < self.created) :
    Sound left self :=
  ⟨by rw [hl, hi, ho]; exact (List.append_nil left).symm, by rw [hi, ho], hl ▸ hnodup, hl ▸ hbelow,
    fun hopen => by simp [isOpen, hi] at hopen⟩

/-- The sockets left behind are open ones. -/
theorem Sound.left {left : List Nat} {self : LinkRuntime σ} (h : Sound left self) :
    left.Nodup ∧ ∀ k ∈ left, k < self.created := by
  refine ⟨(List.nodup_append.mp (h.live ▸ h.nodup)).1, fun k hk => h.below k ?_⟩
  rw [h.live]
  exact List.mem_append_left _ hk

/-- New sockets have numbers from `n` on. -/
theorem nodup_append_of_lt {left fresh : List Nat} {n : Nat} (hleft : left.Nodup) (hfresh : fresh.Nodup)
    (hbelow : ∀ k ∈ left, k < n) (habove : ∀ k ∈ fresh, n ≤ k) : (left ++ fresh).Nodup :=
  List.nodup_append.mpr ⟨hleft, hfresh, fun k hk k' hk' => ((hbelow k hk).trans_le (habove k' hk')).ne⟩

theorem forall_lt_append {left fresh : List Nat} {n m : Nat} (hbelow : ∀ k ∈ left, k < n) (hle : n ≤ m)
    (hfresh : ∀ k ∈ fresh, k < m) : ∀ k ∈ left ++ fresh, k < m := fun k hk =>
  (List.mem_append.mp hk).elim (fun hk => (hbelow k hk).trans_le hle) (hfresh k)

theorem createSocket_cases (net : Network) (self : LinkRuntime σ) :
    (∃ e, net.socket self.created = .error e ∧ createSocket net self = (.error e, self)) ∨
    net.socket self.created = .ok () ∧ createSocket net self = (.ok self.created, { self with
      created := self.created + 1
      live := self.live ++ [self.created] }) := by
  rw [createSocket, Method.bind_ok (Method.get_apply self)]
  rcases hs : net.socket self.created with e | u
  · exact .inl ⟨e, rfl, Method.bind_error (Method.lift_apply _ self)⟩
  · rw [Method.bind_ok (Method.lift_apply _ self)]
    exact .inr ⟨rfl, rfl⟩

/-- `open` raises, and leaves a socket behind when it gets no second one, or resets the state. -/
theorem Sound.opened {left : List Nat} {self : LinkRuntime σ} (h : Sound left self) (net : Network) :
    (∃ e self', LinkRuntime.open net self = (.error e, self') ∧ Sound (left ++ (Call.open net).leaves self) self' ∧
      SameArguments self self') ∨
    ∃ self', LinkRuntime.open net self = (.ok (), self') ∧ Sound (left ++ (Call.open net).leaves self) self' ∧
      SameArguments self self' := by
  rw [LinkRuntime.open, Call.leaves, Method.bind_ok (Method.get_apply self)]
  by_cases hopen : self.isOpen = true
  · rw [if_pos hopen, if_neg (by simp [hopen]), List.append_nil]
    exact .inl ⟨_, self, rfl, h, .refl self⟩
  have hclosed : self.isOpen = false := Bool.not_eq_true _ ▸ hopen
  obtain ⟨hi, ho⟩ : self.inputSocket = none ∧ self.outputSocket = none := by
    have hpaired := h.paired
    rw [isOpen, ← hpaired, Bool.and_self] at hclosed
    exact ⟨Option.not_isSome_iff_eq_none.mp (by simp [hclosed]), Option.not_isSome_iff_eq_none.mp (by simp [← hpaired, hclosed])⟩
  have hl : self.live = left := by
    rw [h.live, hi, ho]
    exact List.append_nil left
  obtain ⟨hnodup, hbelow⟩ := h.left
  rw [if_neg hopen]
  rcases createSocket_cases net self with ⟨e, hs, he⟩ | ⟨hs, hok⟩
  · rw [Method.bind_error he, if_neg (by simp [hs, Except.toBool]), List.append_nil]
    exact .inl ⟨e, self, rfl, h, .refl self⟩
  rw [Method.bind_ok hok]
  rcases createSocket_cases net { self with created := self.created + 1, live := self.live ++ [self.created] } with
    ⟨e, hs', he⟩ | ⟨hs', hok'⟩
  · have hs' : net.socket (self.created + 1) = .error e := hs'
    rw [Method.bind_error he, if_pos ⟨hclosed, by rw [hs]; rfl, by rw [hs']; rfl⟩]
    have hnew : (left ++ [self.created]).Nodup := nodup_append_of_lt hnodup (List.nodup_singleton _) hbelow (by simp)
    exact .inl ⟨e, _, rfl, sound_closed hi ho (by rw [hl]) hnew
      (forall_lt_append hbelow (Nat.le_succ _) (by simp)), ⟨rfl, rfl, rfl, rfl⟩⟩
  have hs' : net.socket (self.created + 1) = .ok () := hs'
  have hboth : (left ++ [self.created, self.created + 1]).Nodup := nodup_append_of_lt hnodup (by simp) hbelow (by simp)
  have hlive : self.live ++ [self.created] ++ [self.created + 1] = left ++ [self.created, self.created + 1] := by
    rw [hl, List.append_assoc, List.singleton_append]
  rw [Method.bind_ok hok', if_neg (by simp [hs', Except.toBool]), List.append_nil]
  rcases hbind : net.bind self.created with e | u
  · refine .inl ⟨e, _, Method.bind_error (tryExcept_abandon (Method.lift_apply (.error e) _)),
      sound_closed hi ho ?_ hnodup fun k hk => (hbelow k hk).trans (by simp), ⟨rfl, rfl, rfl, rfl⟩⟩
    show (self.live ++ [self.created] ++ [self.created + 1]).filter (· ∉ [self.created, self.created + 1]) = left
    rw [hlive]
    exact filter_notMem_append hboth
  · rw [Method.bind_ok (Method.tryExcept_ok (Method.lift_apply _ _))]
    have hbelow' : ∀ k ∈ left ++ [self.created, self.created + 1], k < self.created + 1 + 1 :=
      forall_lt_append hbelow (by omega) (by simp)
    exact .inr ⟨_, rfl, ⟨hlive, rfl, hlive ▸ hboth, fun k hk => hbelow' k (hlive ▸ hk), fun _ => ⟨rfl, rfl, rfl, rfl⟩⟩,
      ⟨rfl, rfl, rfl, rfl⟩⟩

theorem sound_new {config : LinkConfig} {pollIntervalS : Float64} {sessionId : Option String}
    {runMetadata : Option LinkRunMetadata} {sink : σ} {self : LinkRuntime σ}
    (h : new config pollIntervalS sessionId runMetadata sink = .ok self) : Sound [] self ∧ self.config = config := by
  obtain ⟨p, -, h⟩ := except_bind_eq_ok.mp h
  simp only at h
  split_ifs at h
  split at h
  · cases h
  · split_ifs at h
    cases h
    exact ⟨sound_closed rfl rfl rfl List.nodup_nil (fun k hk => absurd hk List.not_mem_nil), rfl⟩

/-! ### One run -/

/-- The runtime after the `finally`, whatever the summary did. -/
theorem Sound.finished {left : List Nat} {self : LinkRuntime σ} (h : Sound left self) (outcome : Result Unit)
    (s : RunState σ) :
    (runFinally S env outcome s self).2 = { self.leave { s with
        eventStream := (LinkEventStream.emitSummary S (.int (env.clock s.clockCalls)) s.eventStream).2 } with
      inputSocket := none
      outputSocket := none
      live := left } := by
  have hleave (stream : LinkEventStream σ) : close (self.leave { s with eventStream := stream }) =
      (.ok (), { self.leave { s with eventStream := stream } with
        inputSocket := none
        outputSocket := none
        live := left }) := by
    rw [close_apply]
    exact congrArg (fun live => ((Except.ok () : Result Unit), { self.leave { s with eventStream := stream } with
      inputSocket := none
      outputSocket := none
      live := live })) h.filter_live
  rw [runFinally]
  rcases LinkEventStream.emitSummary S (.int (env.clock s.clockCalls)) s.eventStream with ⟨e | e, stream⟩
  · exact congrArg Prod.snd (hleave stream)
  · exact congrArg Prod.snd (hleave stream)

/-- The `finally` lets the outcome of the loop through when it raises nothing itself. -/
theorem outcome_of_runFinally {outcome : Result Unit} {s : RunState σ} {self self' : LinkRuntime σ}
    (h : runFinally S env outcome s self = (.ok (), self')) : outcome = .ok () := by
  rw [runFinally] at h
  split at h
  · exact congrArg Prod.fst h
  · cases congrArg Prod.fst h

/-- The loop is over, with an outcome. -/
def Over (outcome : Result Unit) (s : RunState σ) : RunState.Progress σ → Prop
  | .running _ => False
  | .left _ s' => outcome = .ok () ∧ s = s'
  | .raised e s' => outcome = .error e ∧ s = s'

/-- A run that begins on a runtime that is as new starts as `start` says. -/
theorem Sound.start_eq {left : List Nat} {self : LinkRuntime σ} (h : Sound left self) (hopen : self.isOpen = true) {uuid : Bytes}
    {maxPackets : Option Int} {stream stream' : LinkEventStream σ} {e : LinkEvent} (hmax : ¬∃ m ∈ maxPackets, m ≤ 0)
    (hnew : LinkEventStream.new (self.session uuid) (.int (env.clock 0)) self.sink = .ok stream)
    (hemit : LinkEventStream.emitRunMetadata S self.runMetadata (.int (env.clock 0)) stream = (.ok e, stream')) :
    RunState.start S env maxPackets self.config (self.session uuid) self.runMetadata self.sink =
      .ok (self.loopState stream') := by
  obtain ⟨hengine, hscheduler, hhighest, hnoted⟩ := h.fresh hopen
  rw [RunState.start, if_neg hmax]
  refine except_bind_eq_ok.mpr ⟨stream, hnew, ?_⟩
  rw [hemit, loopState, hengine, hscheduler, hhighest, hnoted]

/-- A call of `run` is refused, and changes nothing but the event stream, or runs the loop from the state that a new
runtime starts from and ends with its `finally`. -/
theorem Sound.run_cases {left : List Nat} {self self' : LinkRuntime σ} (h : Sound left self) {uuid : Bytes}
    {maxPackets : Option Int} {n : Nat} {r : Result Unit} (hrun : run S env uuid maxPackets n self = some (r, self')) :
    (∃ e, r = .error e ∧ Sound left self' ∧ SameArguments self self' ∧ self'.isOpen = self.isOpen ∧ self'.live = self.live ∧
      S.recorded self'.sink = S.recorded self.sink) ∨
    self.isOpen = true ∧ ∃ s₀ outcome s,
      RunState.start S env maxPackets self.config (self.session uuid) self.runMetadata self.sink = .ok s₀ ∧
      Over outcome s (RunState.iterations S env self.pollIntervalS maxPackets s₀ n) ∧
      runFinally S env outcome s self = (r, self') := by
  unfold run at hrun
  split_ifs at hrun with hmax hclosed
  · cases hrun
    exact .inl ⟨_, rfl, h, .refl self, rfl, rfl, rfl⟩
  · cases hrun
    exact .inl ⟨_, rfl, h, .refl self, rfl, rfl, rfl⟩
  have hopen : self.isOpen = true := Bool.not_eq_false _ ▸ hclosed
  cases hnew : LinkEventStream.new (self.session uuid) (.int (env.clock 0)) self.sink with
  | error e =>
    rw [hnew] at hrun
    cases hrun
    exact .inl ⟨e, rfl, h, .refl self, rfl, rfl, rfl⟩
  | ok stream =>
    rw [hnew] at hrun
    have hsink : stream.sink = self.sink := by
      unfold LinkEventStream.new at hnew
      simp only at hnew
      split_ifs at hnew
      cases hnew
      rfl
    rcases LinkEventStream.emitRunMetadata_cases (S := S) self.runMetadata (.int (env.clock 0)) stream with
      ⟨e, s', he, -, hsame⟩ | ⟨e, s', now, -, hok, -⟩
    · simp only [he] at hrun
      cases hrun
      exact .inl ⟨e, rfl, ⟨h.live, h.paired, h.nodup, h.below, h.fresh⟩, ⟨rfl, rfl, rfl, rfl⟩, rfl, rfl, hsame.trans (by rw [hsink])⟩
    · simp only [hok] at hrun
      refine .inr ⟨hopen, self.loopState s', ?_⟩
      cases hiter : RunState.iterations S env self.pollIntervalS maxPackets (self.loopState s') n with
      | running s =>
        rw [hiter] at hrun
        cases hrun
      | left flow s =>
        rw [hiter] at hrun
        exact ⟨.ok (), s, h.start_eq S env hopen hmax hnew hok, ⟨rfl, rfl⟩, Option.some.inj hrun⟩
      | raised e' s =>
        rw [hiter] at hrun
        exact ⟨.error e', s, h.start_eq S env hopen hmax hnew hok, ⟨rfl, rfl⟩, Option.some.inj hrun⟩

theorem Sound.runFinally {left : List Nat} {self self' : LinkRuntime σ} (h : Sound left self) {outcome r : Result Unit}
    {s : RunState σ} (hfin : runFinally S env outcome s self = (r, self')) :
    Sound left self' ∧ SameArguments self self' ∧ self'.isOpen = false ∧ self'.live = left := by
  have hself := h.finished S env outcome s
  rw [hfin] at hself
  cases hself
  exact ⟨sound_closed rfl rfl rfl h.left.1 h.left.2, ⟨rfl, rfl, rfl, rfl⟩, rfl, rfl⟩

theorem Sound.apply {left : List Nat} {self : LinkRuntime σ} (h : Sound left self) (c : Call) :
    Sound (left ++ c.leaves self) (c.apply S self) ∧ SameArguments self (c.apply S self) := by
  cases c with
  | «open» net =>
    rcases h.opened net with ⟨e, self', hopen, hs, hsame⟩ | ⟨self', hopen, hs, hsame⟩
    · rw [Call.apply, hopen]
      exact ⟨hs, hsame⟩
    · rw [Call.apply, hopen]
      exact ⟨hs, hsame⟩
  | close =>
    rw [Call.apply, h.closed, Call.leaves, List.append_nil]
    exact ⟨sound_closed rfl rfl rfl h.left.1 h.left.2, rfl, rfl, rfl, rfl⟩
  | run env uuid maxPackets n =>
    rw [Call.apply, Call.leaves, List.append_nil]
    cases hrun : LinkRuntime.run S env uuid maxPackets n self with
    | none => exact ⟨h, .refl self⟩
    | some out =>
      obtain ⟨r, self'⟩ := out
      rcases h.run_cases S env hrun with ⟨e, -, hs, hsame, -⟩ | ⟨-, s₀, outcome, s, -, -, hfin⟩
      · exact ⟨hs, hsame⟩
      · obtain ⟨hs, hsame, -⟩ := h.runFinally S env hfin
        exact ⟨hs, hsame⟩

theorem Sound.after {left : List Nat} {self : LinkRuntime σ} (h : Sound left self) (calls : List Call) :
    Sound (left ++ leftBehind S calls self) (after S calls self) ∧ SameArguments self (after S calls self) := by
  induction calls generalizing left self with
  | nil =>
    rw [leftBehind, List.append_nil]
    exact ⟨h, .refl self⟩
  | cons c calls ih =>
    obtain ⟨hs, hsame⟩ := h.apply S c
    obtain ⟨hs', hsame'⟩ := ih hs
    rw [leftBehind, ← List.append_assoc]
    exact ⟨hs', hsame.trans hsame'⟩

/-- A runtime that was constructed and then called. -/
theorem sound_after {config : LinkConfig} {pollIntervalS : Float64} {sessionId : Option String}
    {runMetadata : Option LinkRunMetadata} {sink : σ} {start : LinkRuntime σ}
    (hnew : new config pollIntervalS sessionId runMetadata sink = .ok start) (calls : List Call) :
    Sound (leftBehind S calls start) (after S calls start) ∧ SameArguments start (after S calls start) ∧
      start.config = config := by
  obtain ⟨hsound, hconfig⟩ := sound_new hnew
  obtain ⟨hs, hsame⟩ := hsound.after S calls
  exact ⟨hs, hsame, hconfig⟩

/-- After any calls of `open`, `close` and `run` the runtime holds both its sockets or none. The only other sockets
that nothing has closed are the input sockets of the calls of `open` whose second socket could not be created. A call
of `run` is refused and leaves the sockets alone; or it runs the loop from the state that a new runtime of the same
configuration starts from, and closes the sockets that the runtime holds however the loop ends. -/
theorem runtime_lifecycle {config : LinkConfig} {pollIntervalS : Float64} {sessionId : Option String}
    {runMetadata : Option LinkRunMetadata} {sink : σ} {start : LinkRuntime σ}
    (hnew : new config pollIntervalS sessionId runMetadata sink = .ok start) (calls : List Call) :
    let self := after S calls start
    let left := leftBehind S calls start
    ((self.inputSocket = none ∧ self.outputSocket = none ∧ self.live = left) ∨
      ∃ input output, self.inputSocket = some input ∧ self.outputSocket = some output ∧
        self.live = left ++ [input, output]) ∧
    self.live.Nodup ∧
    ∀ uuid maxPackets n r self', run S env uuid maxPackets n self = some (r, self') →
      (∃ e, r = .error e ∧ self'.isOpen = self.isOpen ∧ self'.live = self.live ∧
        S.recorded self'.sink = S.recorded self.sink) ∨
      self.isOpen = true ∧ self'.isOpen = false ∧ self'.live = left ∧ ∃ s₀ outcome s,
        RunState.start S env maxPackets config (start.session uuid) start.runMetadata self.sink = .ok s₀ ∧
        Over outcome s (RunState.iterations S env start.pollIntervalS maxPackets s₀ n) ∧
        runFinally S env outcome s self = (r, self') := by
  intro self left
  obtain ⟨hs, hsame, hconfig⟩ := sound_after S hnew calls
  refine ⟨?_, hs.nodup, fun uuid maxPackets n r self' hrun => ?_⟩
  · have hpaired := hs.paired
    have hlive := hs.live
    cases hi : self.inputSocket with
    | none =>
      have ho : self.outputSocket = none := Option.not_isSome_iff_eq_none.mp (by simp [self, ← hpaired, hi])
      rw [hi, ho] at hlive
      exact .inl ⟨rfl, ho, hlive.trans (List.append_nil left)⟩
    | some input =>
      obtain ⟨output, ho⟩ := Option.isSome_iff_exists.mp (show self.outputSocket.isSome = true by simp [self, ← hpaired, hi])
      rw [hi, ho] at hlive
      exact .inr ⟨input, output, rfl, ho, hlive⟩
  · rcases hs.run_cases S env hrun with ⟨e, hr, -, -, hopen, hlive, hrec⟩ | ⟨hopen, s₀, outcome, s, hstart, hover, hfin⟩
    · exact .inl ⟨e, hr, hopen, hlive, hrec⟩
    · obtain ⟨-, -, hclosed, hlive⟩ := hs.runFinally S env hfin
      rw [hsame.config, hconfig, session, hsame.sessionId, hsame.runMetadata] at hstart
      rw [hsame.pollIntervalS] at hover
      exact .inr ⟨hopen, hclosed, hlive, s₀, outcome, s, hstart, hover, hfin⟩

/-- A network on which every call succeeds. -/
def reliableNetwork : Network where
  socket _ := .ok ()
  bind _ := .ok ()

/-- A network that refuses the second socket. -/
def crowdedNetwork : Network where
  socket k := if k = 1 then .error ⟨.osError, "Too many open files"⟩ else .ok ()
  bind _ := .ok ()

abbrev newBusy : Result (LinkRuntime (List LinkEvent)) :=
  new .busy RunState.defaultPollIntervalS (some "run") none []

abbrev afterBusy (calls : List Call) (rt : LinkRuntime (List LinkEvent)) : LinkRuntime (List LinkEvent) :=
  after LinkEventStream.listSink calls rt

abbrev runBusy (rt : LinkRuntime (List LinkEvent)) : Option (Result Unit × LinkRuntime (List LinkEvent)) :=
  run LinkEventStream.listSink RunState.busyEnvironment [] (some 4) 9 rt

/-- A run after some calls, with what `f` shows of the runtime before and after it. -/
theorem exists_runBusy {β : Type} (calls : List Call)
    (f : LinkRuntime (List LinkEvent) → LinkRuntime (List LinkEvent) → β) (b : β)
    (h : (newBusy.toOption.bind fun rt => (runBusy (afterBusy calls rt)).map fun y => (y.1, f (afterBusy calls rt) y.2)) =
      some (.ok (), b)) :
    ∃ rt self', newBusy = .ok rt ∧ runBusy (afterBusy calls rt) = some (.ok (), self') ∧ f (afterBusy calls rt) self' = b := by
  cases hnew : newBusy with
  | error e =>
    rw [hnew] at h
    cases h
  | ok rt =>
    rw [hnew] at h
    obtain ⟨⟨r, self'⟩, hrun, heq⟩ := Option.map_eq_some_iff.mp (show (runBusy (afterBusy calls rt)).map _ = _ from h)
    cases heq
    exact ⟨rt, self', rfl, hrun, rfl⟩

/-- The first `open` gets one socket only, the second opens the runtime. -/
def openings : List Call := [.open crowdedNetwork, .open reliableNetwork]

/-- The runtime is opened again after a run. -/
def secondOpening : List Call := openings ++ [.run RunState.busyEnvironment [] (some 4) 9, .open reliableNetwork]

/-- The socket of the first `open` is left behind, and the run of the four packets closes the other two. -/
theorem runtime_lifecycle_busy : ∃ rt self', newBusy = .ok rt ∧
    runBusy (afterBusy openings rt) = some (.ok (), self') ∧ (afterBusy openings rt).live = [0, 1, 2] ∧
    leftBehind LinkEventStream.listSink openings rt = [0] ∧ self'.live = [0] ∧ ∃ s₀ s,
      RunState.start LinkEventStream.listSink RunState.busyEnvironment (some 4) .busy (rt.session []) rt.runMetadata [] =
        .ok s₀ ∧
      Over (.ok ()) s (RunState.iterations LinkEventStream.listSink RunState.busyEnvironment rt.pollIntervalS (some 4) s₀ 9) := by
  obtain ⟨rt, self', hnew, hrun, hseen⟩ := exists_runBusy openings (fun before rt => (before.live, rt.live, before.sink))
    ([0, 1, 2], [0], []) (by decide +kernel)
  obtain ⟨hbefore, hafter, hsink⟩ : _ ∧ _ ∧ _ := by simpa only [Prod.mk.injEq] using hseen
  rcases (runtime_lifecycle LinkEventStream.listSink RunState.busyEnvironment hnew openings).2.2 [] (some 4) 9 (.ok ())
    self' hrun with ⟨e, hr, -⟩ | ⟨-, -, hlive, s₀, outcome, s, hstart, hover, hfin⟩
  · cases hr
  have hsink : (after LinkEventStream.listSink openings rt).sink = [] := hsink
  rw [hsink] at hstart
  obtain rfl := outcome_of_runFinally LinkEventStream.listSink RunState.busyEnvironment hfin
  exact ⟨rt, self', hnew, hrun, hbefore, hlive.symm.trans hafter, hafter, s₀, s, hstart, hover⟩

end LinkRuntime

end OrbitOps.Link

namespace OrbitOps.Link
open Py

/-! ### The log of a run -/

namespace RunState
variable {σ : Type} {S : EventSink σ} {env : Environment} {metadata : LinkRunMetadata} {pollIntervalS : Float64}
  {maxPackets : Option Int} {k : Nat}

/-- The event stream of a run is open and, after the first `k` events of the sink, begins with its metadata; its last
event and `bound` are not after the next clock reading. -/
structure Writing (S : EventSink σ) (env : Environment) (metadata : LinkRunMetadata) (k : Nat) (bound : Int)
    (s : RunState σ) : Prop where
  records : LinkEventStream.Records S k s.eventStream
  opened : s.eventStream.closed = false
  header : ∃ e rest, S.since k s.eventStream.sink = e :: rest ∧ e.schemaVersion = 2 ∧
    e.attributes = metadata.toAttributes
  timely : s.eventStream.startNs + s.eventStream.lastElapsedNs ≤ env.clock s.clockCalls
  bound_le : bound ≤ env.clock s.clockCalls

theorem Writing.begun {bound : Int} {s : RunState σ} (h : Writing S env metadata k bound s) : s.eventStream.eventIndex ≠ 0 := by
  obtain ⟨e, rest, hrec, -⟩ := h.header
  rw [h.records.index, hrec]
  exact Nat.succ_ne_zero _

/-- What an unsuccessful call on the stream leaves. -/
theorem Writing.unchanged {bound : Int} {s : RunState σ} {stream : LinkEventStream σ} (h : Writing S env metadata k bound s)
    (hun : LinkEventStream.Unchanged s.eventStream stream)
    (hrec : S.recorded stream.sink = S.recorded s.eventStream.sink) :
    Writing S env metadata k bound { s with eventStream := stream } := by
  refine ⟨h.records.of_unchanged hun hrec, hun.closed.trans h.opened, ?_, ?_, h.bound_le⟩
  · rw [show S.since k stream.sink = S.since k s.eventStream.sink by rw [EventSink.since, hrec, EventSink.since]]
    exact h.header
  · show stream.startNs + stream.lastElapsedNs ≤ _
    rw [hun.startNs, hun.lastElapsedNs]
    exact h.timely

/-- Emitting at a time that has been read. -/
theorem preserves_emit (t : LinkEventType) (now index : Int) (attributes : List (String × Scalar)) :
    Method.Preserves (Writing S env metadata k now) (emit S t now index attributes) := by
  intro s h
  rcases LinkEventStream.emit_cases (S := S) t (.int now) (.int index) (scalarObj attributes) s.eventStream with
    ⟨e, stream, he, hun, hrec⟩ | ⟨e, stream, now', hnow, he, hopen, hidx, hmeta, hsum, hem⟩
  · rw [emit, Method.bind_error (Method.zoom_eq he)]
    exact h.unchanged hun hrec
  · obtain rfl : now = now' := Json.int.inj hnow
    rw [emit, Method.bind_ok (Method.zoom_eq he)]
    obtain ⟨first, rest, hfirst, hheader⟩ := h.header
    refine ⟨h.records.emitted_open hopen hem (by simp [hidx, hmeta]) hsum, ?_, ⟨first, rest ++ [e], ?_, hheader⟩, ?_,
      h.bound_le⟩
    · show stream.closed = false
      rw [hem.state]
      exact h.opened
    · show S.since k stream.sink = _
      rw [hem.since h.records.before, hfirst]
      rfl
    · show stream.startNs + stream.lastElapsedNs ≤ _
      rw [hem.state]
      have := h.bound_le
      show s.eventStream.startNs + (now - s.eventStream.startNs) ≤ env.clock s.clockCalls
      omega

/-- A change that the stream and the clock take no part in. -/
theorem Writing.of_eq {bound : Int} {s s' : RunState σ} (h : Writing S env metadata k bound s)
    (hstream : s'.eventStream = s.eventStream) (hclock : s'.clockCalls = s.clockCalls) :
    Writing S env metadata k bound s' := by
  refine ⟨?_, ?_, ?_, ?_, ?_⟩ <;> first | rw [hstream] | rw [hclock]
  · exact h.records
  · exact h.opened
  · exact h.header
  · rw [hclock]
    exact h.timely
  · exact h.bound_le

theorem preserves_emitForwarded (d : ScheduledDatagram) (now : Int) :
    Method.Preserves (Writing S env metadata k now) (emitForwarded S d now) := by
  have hreordered : Method.Preserves (Writing S env metadata k now) (emitReordered S d now) := by
    refine Method.preserves_get.bind fun self => ?_
    split_ifs
    · exact Method.Preserves.bind (Method.preserves_modify fun s h => h.of_eq rfl rfl) fun _ => preserves_emit _ now _ _
    · exact Method.preserves_pure ()
  refine hreordered.bind fun _ => Method.Preserves.bind (Method.preserves_modify fun s h => h.of_eq rfl rfl) fun _ => ?_
  exact preserves_emit _ now _ _

theorem preserves_sendReady (now : Int) : Method.Preserves (Writing S env metadata k now) (sendReady S env now) := by
  have hpop : Method.Preserves (Writing S env metadata k now)
      (Method.zoom RunState.scheduler (fun t s => { s with scheduler := t }) (DatagramScheduler.popReady (.int now))) :=
    Method.preserves_zoom (fun s t h => h.of_eq rfl rfl) _
  refine hpop.bind fun items => Method.preserves_forEach (fun d => ?_) items
  have hsend : Method.Preserves (Writing S env metadata k now) (sendto env d.payload) := fun s h => h.of_eq rfl rfl
  refine hsend.bind fun n => ?_
  split_ifs
  · exact Method.preserves_raise _
  · exact preserves_emitForwarded d now

theorem preserves_emitOutcome (raw : Bytes) (o : PacketOutcome) (now : Int) :
    Method.Preserves (Writing S env metadata k now) (emitOutcome S raw o now) := by
  by_cases hkeep : o.dropped = false ∧ o.deliveries = []
  · refine (preserves_emit _ now _ _).bind fun _ => ?_
    rw [if_neg (by rw [hkeep.1]; decide), hkeep.2]
    exact Method.preserves_raise _
  · rw [emitOutcome_eq fun hd hnil => hkeep ⟨hd, hnil⟩]
    exact Method.preserves_forEach (fun x => preserves_emit _ now _ _) _

variable (hclock : Monotone env.clock)
include hclock

/-- Reading the clock gives a new bound. -/
theorem preserves_readClock {α : Type} {bound : Int} {f : Int → Method PyError (RunState σ) α}
    (hf : ∀ now, Method.Preserves (Writing S env metadata k now) (f now)) :
    Method.Preserves (Writing S env metadata k bound) (readClock env >>= f) := by
  intro s h
  have hread : readClock env s = (.ok (env.clock s.clockCalls), { s with clockCalls := s.clockCalls + 1 }) := rfl
  rw [Method.bind_ok hread]
  have hle : env.clock s.clockCalls ≤ env.clock (s.clockCalls + 1) := hclock (Nat.le_succ _)
  have hwriting := hf (env.clock s.clockCalls) { s with clockCalls := s.clockCalls + 1 }
    ⟨h.records, h.opened, h.header, h.timely.trans hle, hle⟩
  exact { hwriting with bound_le := h.bound_le.trans hwriting.bound_le }

theorem preserves_accept {bound : Int} (raw : Bytes) :
    Method.Preserves (Writing S env metadata k bound) (accept S env maxPackets raw) := by
  refine preserves_readClock hclock fun now => ?_
  refine Method.Preserves.bind (Method.preserves_zoom (fun s t h => h.of_eq rfl rfl) _) fun o => ?_
  refine Method.Preserves.bind (preserves_emitOutcome raw o now) fun _ => ?_
  refine Method.Preserves.bind (Method.preserves_zoom (fun s t h => h.of_eq rfl rfl) _) fun _ => ?_
  refine Method.Preserves.bind (Method.preserves_modify fun s h => h.of_eq rfl rfl) fun _ => ?_
  refine Method.Preserves.bind Method.preserves_get fun self => ?_
  split_ifs
  · refine Method.Preserves.bind (Method.preserves_zoom (fun s t h => h.of_eq rfl rfl) _) fun _ => ?_
    exact Method.preserves_modify fun s h => h.of_eq rfl rfl
  · exact Method.preserves_pure ()

variable (pollIntervalS maxPackets) in
theorem preserves_iteration {bound : Int} (i : Nat) :
    Method.Preserves (Writing S env metadata k bound) (iteration S env pollIntervalS maxPackets i) := by
  unfold iteration
  split_ifs
  · exact Method.preserves_pure _
  refine preserves_readClock hclock fun now => (preserves_sendReady now).bind fun _ => Method.preserves_get.bind fun self => ?_
  split_ifs
  · refine Method.preserves_get.bind fun s => ?_
    split_ifs
    · exact Method.preserves_pure _
    · cases s.scheduler.nextDeadlineNs with
      | none => exact Method.preserves_pure _
      | some deadline =>
        exact preserves_readClock hclock fun now' => (Method.preserves_lift _).bind fun _ => Method.preserves_pure _
  · refine Method.preserves_get.bind fun s => (Method.preserves_lift _).bind fun _ => ?_
    cases env.recv i with
    | timeout => exact Method.preserves_pure _
    | failed e => exact Method.preserves_raise e
    | datagram raw => exact (preserves_accept hclock raw).bind fun _ => Method.preserves_pure _

variable (pollIntervalS maxPackets) in
theorem writing_iterations {bound : Int} {s₀ : RunState σ} (h : Writing S env metadata k bound s₀) (n : Nat) :
    Writing S env metadata k bound (iterations S env pollIntervalS maxPackets s₀ n).state := by
  induction n with
  | zero => exact h
  | succ n ih =>
    cases hn : iterations S env pollIntervalS maxPackets s₀ n with
    | running s =>
      rw [hn] at ih
      have hstep := preserves_iteration pollIntervalS maxPackets hclock n s ih
      rcases hi : iteration S env pollIntervalS maxPackets n s with ⟨e | flow, s'⟩
      · rw [hi] at hstep
        simp only [iterations, hn, hi]
        exact hstep
      · rw [hi] at hstep
        cases flow <;> · simp only [iterations, hn, hi]; exact hstep
    | left flow s =>
      rw [hn] at ih
      simp only [iterations, hn]
      exact ih
    | raised e s =>
      rw [hn] at ih
      simp only [iterations, hn]
      exact ih

theorem writing_start {config : LinkConfig} {sessionId : String} {sink : σ} {s₀ : RunState σ}
    (hstart : start S env maxPackets config sessionId metadata sink = .ok s₀) :
    Writing S env metadata (S.recorded sink).length (env.clock 0) s₀ := by
  unfold start at hstart
  split_ifs at hstart with hmax
  obtain ⟨stream, hnew, hstart⟩ := except_bind_eq_ok.mp hstart
  have hrec := LinkEventStream.records_new (S := S) hnew
  obtain ⟨hsink, hstartNs⟩ : stream.sink = sink ∧ stream.startNs = env.clock 0 := by
    unfold LinkEventStream.new at hnew
    simp only at hnew
    split_ifs at hnew
    cases hnew
    exact ⟨rfl, rfl⟩
  rcases LinkEventStream.emitRunMetadata_cases (S := S) metadata (.int (env.clock 0)) stream with
    ⟨e, s', he, -, -⟩ | ⟨e, s', now, hnow, hok, hopen, hidx, hem⟩
  · rw [he] at hstart
    cases hstart
  · rw [hok] at hstart
    cases hstart
    obtain rfl : env.clock 0 = now := Json.int.inj hnow
    obtain ⟨-, -, -, ht, -, hversion, hattr⟩ := LinkEvent.fields_of_new hem.built
    have hle : env.clock 0 ≤ env.clock 1 := hclock (Nat.zero_le 1)
    refine ⟨hrec.emitted_open hopen hem (by simp [hidx]) (by decide), ?_, ⟨e, [], ?_, ?_, ?_⟩, ?_, hle⟩
    · show s'.closed = false
      rw [hem.state]
      exact hopen
    · show S.since (S.recorded sink).length s'.sink = [e]
      rw [hem.since hrec.before, hsink, EventSink.since, List.drop_length]
      rfl
    · have := Json.int.inj hversion
      simp only [LINK_EVENT_SCHEMA_VERSION] at this
      omega
    · obtain ⟨ha, hattributes⟩ := hattr
      rw [LinkEvent.eventAttributes, dif_pos rfl] at hattributes
      split_ifs at hattributes
      rw [show LinkEventStream.orEmpty metadata.toAttributes.toJson = metadata.toAttributes.toJson from rfl,
        LinkRunMetadata.fromAttributes_toAttributes] at hattributes
      exact (Subtype.mk.inj (Except.ok.inj hattributes)).symm
    · show s'.startNs + s'.lastElapsedNs ≤ env.clock 1
      rw [hem.state, hstartNs]
      show env.clock 0 + (env.clock 0 - env.clock 0) ≤ env.clock 1
      omega

end RunState

/-! ### However a run ends -/

namespace LinkRuntime
variable {σ : Type} {S : EventSink σ} {env : Environment} {k : Nat}

/-- The metadata that a reader finds is that of the first event. -/
theorem streamMetadata_eq {e : LinkEvent} {rest : List LinkEvent} {metadata : LinkRunMetadata} {m : Option LinkRunMetadata}
    (h : streamMetadata (e :: rest) = .ok m) (hv : e.schemaVersion = 2) (ha : e.attributes = metadata.toAttributes) :
    m = some metadata := by
  unfold streamMetadata at h
  simp only [hv] at h
  split_ifs at h with hversions hone
  · cases hone
  · rw [ha, LinkRunMetadata.fromAttributes_toAttributes] at h
    exact (Except.ok.inj h).symm

/-- The events that a runtime's sink recorded after its first `k` are read back, if no integer in them is too long to
be written, and their header describes the runtime's configuration. -/
structure Legible (S : EventSink σ) (k : Nat) (rt : LinkRuntime σ) : Prop where
  loads : (∀ e ∈ S.since k rt.sink, e.toDict.Writable) →
    loadLinkEvents Json.loads ⟨(S.since k rt.sink).map fun e => e.toDict.line, none⟩ = .ok (S.since k rt.sink)
  metadata : runMetadataFromEvents (S.since k rt.sink) = .ok (some rt.runMetadata)

theorem legible_of_grows {rt : LinkRuntime σ} {first : LinkEvent} {rest : List LinkEvent}
    (hlog : S.since k rt.sink = first :: rest) (hversion : first.schemaVersion = 2)
    (hattributes : first.attributes = rt.runMetadata.toAttributes) (hgrows : Grows LinkEvent.Next [] (S.since k rt.sink)) :
    Legible S k rt := by
  refine ⟨fun hwritable => loadLinkEvents_written (fun e he => e.readable.readsBack (hwritable e he)) hgrows, ?_⟩
  rw [hlog] at hgrows ⊢
  obtain ⟨m, hm⟩ := streamMetadata_of_grows hgrows
  rw [runMetadataFromEvents, hm, streamMetadata_eq hm hversion hattributes]

/-- The summary of a stream that can go on is built, and then only the sink can raise. -/
theorem emitSummary_writing {metadata : LinkRunMetadata} {bound : Int} {s : RunState σ}
    (h : RunState.Writing S env metadata k bound s) : ∃ summary : LinkEvent, summary.eventType = .RUN_SUMMARY ∧
      summary.attributes = s.eventStream.statistics.toAttributes ∧
      LinkEventStream.emitSummary S (.int (env.clock s.clockCalls)) s.eventStream =
        match S.call summary s.eventStream.sink with
        | (.ok _, sink) => (.ok summary, { s.eventStream with
            statistics := s.eventStream.statistics.count .RUN_SUMMARY
            eventIndex := s.eventStream.eventIndex + 1
            lastElapsedNs := env.clock s.clockCalls - s.eventStream.startNs
            closed := true
            sink := sink })
        | (.error err, sink) => (.error err, { s.eventStream with sink := sink }) := by
  have hlast := h.records.elapsed_nonneg
  have hnow : s.eventStream.lastElapsedNs ≤ env.clock s.clockCalls - s.eventStream.startNs := by
    have := h.timely
    omega
  obtain ⟨elapsed, helapsed⟩ := Int.eq_ofNat_of_zero_le (hlast.trans hnow)
  have hattr : ∃ ha, LinkEvent.eventAttributes .RUN_SUMMARY LINK_EVENT_SCHEMA_VERSION none s.eventStream.statistics.toDict =
      .ok ⟨s.eventStream.statistics.toAttributes, ha⟩ := by
    rw [LinkEvent.eventAttributes, dif_neg (by decide), LinkStatistics.toDict,
      validateAttributes_scalarObj s.eventStream.statistics.valid_toItems]
    exact ⟨_, rfl⟩
  obtain ⟨e, hnew, -, -, -, htype, -, hattributes, -⟩ := LinkEvent.new_eq_ok s.eventStream.eventIndex elapsed
    h.records.visible (.inr rfl) hattr (fun _ => rfl)
  have he : LinkEvent.new s.eventStream.sessionId (.int s.eventStream.eventIndex) (.int elapsed) .RUN_SUMMARY .null
      (LinkEventStream.orEmpty s.eventStream.statistics.toDict) (.int LINK_EVENT_SCHEMA_VERSION) = .ok e := hnew
  refine ⟨e, htype, hattributes, ?_⟩
  rw [LinkEventStream.emitSummary, Method.bind_ok (Method.get_apply _), if_neg (by simp [h.opened]), if_neg h.begun,
    LinkEventStream.emitEvent, LinkEventStream.emitAt, bind_assoc, Method.bind_ok (Method.get_apply _),
    if_neg (not_lt.mpr hnow), helapsed, bind_assoc, Method.bind_ok (Method.lift_eq he _), bind_assoc]
  rcases hcall : S.call e s.eventStream.sink with ⟨err | ⟨⟩, sink⟩
  · rw [Method.bind_error (Method.zoom_eq hcall)]
  · rw [Method.bind_ok (Method.zoom_eq hcall)]
    rfl

/-- What becomes of the log of a run in the `finally`: the sink takes the summary, and the log agrees with it and with
the statistics, or refuses it, and its exception is raised instead of the loop's. -/
def Concluded (S : EventSink σ) (k : Nat) (outcome r : Result Unit) (s : RunState σ) (rt : LinkRuntime σ) : Prop :=
  ∃ summary : LinkEvent, summary.eventType = .RUN_SUMMARY ∧
    summary.attributes = s.eventStream.statistics.toAttributes ∧
    match (S.call summary s.eventStream.sink).1 with
    | .ok _ => r = outcome ∧ S.since k rt.sink = S.since k s.eventStream.sink ++ [summary] ∧
        validateRunSummary (S.since k rt.sink) = .ok rt.statistics
    | .error err => r = .error err ∧ S.since k rt.sink = S.since k s.eventStream.sink

/-- The `finally` of a run whose stream can go on. -/
theorem Sound.concludes {left : List Nat} {self self' : LinkRuntime σ} (h : Sound left self) {bound : Int}
    {s : RunState σ} (hwriting : RunState.Writing S env self.runMetadata k bound s) {outcome r : Result Unit}
    (hfin : LinkRuntime.runFinally S env outcome s self = (r, self')) :
    Legible S k self' ∧ Concluded S k outcome r s self' := by
  obtain ⟨summary, htype, hattributes, hemit⟩ := emitSummary_writing hwriting
  obtain ⟨first, rest, hfirst, hversion, hheader⟩ := hwriting.header
  have hself := h.finished S env outcome s
  rw [hfin] at hself
  rw [LinkRuntime.runFinally] at hfin
  rcases LinkEventStream.emitSummary_cases (S := S) (.int (env.clock s.clockCalls)) s.eventStream with
    ⟨err, stream, herr, hun, hrec⟩ | ⟨e, s₁, stream, now, hok, hopen, hidx, hem, rfl⟩
  · have hsink : self'.sink = stream.sink := by rw [show self' = _ from hself, herr]; rfl
    have hmetadata : self'.runMetadata = self.runMetadata := by rw [show self' = _ from hself]; rfl
    have hsince : S.since k self'.sink = S.since k s.eventStream.sink := by
      rw [hsink, EventSink.since, hrec, EventSink.since]
    rw [herr] at hfin hemit
    refine ⟨legible_of_grows (hsince.trans hfirst) hversion (hmetadata ▸ hheader) (hsince ▸ hwriting.records.grows),
      summary, htype, hattributes, ?_⟩
    rcases hcall : S.call summary s.eventStream.sink with ⟨err' | ⟨⟩, sink⟩
    · rw [hcall] at hemit
      cases hemit
      exact ⟨(congrArg Prod.fst hfin).symm, hsince⟩
    · rw [hcall] at hemit
      cases hemit
  · have hsink : self'.sink = s₁.sink := by rw [show self' = _ from hself, hok]; rfl
    have hmetadata : self'.runMetadata = self.runMetadata := by rw [show self' = _ from hself]; rfl
    have hstatistics : self'.statistics = s₁.statistics := by rw [show self' = _ from hself, hok]; rfl
    have hsince : S.since k self'.sink = S.since k s.eventStream.sink ++ [e] := by
      rw [hsink, hem.since hwriting.records.before]
    have hsummary := hwriting.records.validateRunSummary_emitted hopen hidx hem
    have hgrows := (hwriting.records.emitted hopen hem (by simp [hidx]) true (by simp) fun _ => hsummary).grows
    rw [hok] at hfin hemit
    refine ⟨legible_of_grows (by rw [hsince, hfirst, List.cons_append]) hversion (hmetadata ▸ hheader) ?_, summary, htype,
      hattributes, ?_⟩
    · rw [hsink]
      exact hgrows
    · rcases hcall : S.call summary s.eventStream.sink with ⟨err' | ⟨⟩, sink⟩
      · rw [hcall] at hemit
        cases hemit
      · rw [hcall] at hemit
        obtain rfl : e = summary := Except.ok.inj (congrArg Prod.fst hemit)
        refine ⟨(congrArg Prod.fst hfin).symm, hsince, ?_⟩
        rw [hstatistics, hsink]
        exact hsummary

/-- The state of a loop that is over. -/
theorem Over.state_eq {outcome : Result Unit} {s : RunState σ} {p : RunState.Progress σ} (h : Over outcome s p) :
    s = p.state := by
  cases p with
  | running _ => exact h.elim
  | left _ _ => exact h.2
  | raised _ _ => exact h.2

/-- However the loop of a run ends, on its own, by a stop or by an exception: when the clock does not go back, the
events that the sink took since the run began are read back if `json.dumps` can write them, their header has the
fingerprint of the configuration in force, and the run's `finally` adds the summary, which agrees with the events, and
raises what the loop raised, unless the sink refuses the summary with an exception that is raised instead. The runtime
is closed either way. A run that is refused records nothing. -/
theorem run_completes {config : LinkConfig} {pollIntervalS : Float64} {sessionId : Option String}
    {runMetadata : Option LinkRunMetadata} {sink : σ} {start : LinkRuntime σ}
    (hnew : new config pollIntervalS sessionId runMetadata sink = .ok start) (calls : List Call)
    (hclock : Monotone env.clock) {uuid : Bytes} {maxPackets : Option Int} {n : Nat} {r : Result Unit}
    {self' : LinkRuntime σ} (hrun : run S env uuid maxPackets n (after S calls start) = some (r, self')) :
    let self := after S calls start
    let k := (S.recorded self.sink).length
    (∃ e, r = .error e ∧ S.recorded self'.sink = S.recorded self.sink ∧ self'.isOpen = self.isOpen) ∨
      self'.isOpen = false ∧ self'.live = leftBehind S calls start ∧
      configurationFingerprint config = .ok self'.runMetadata.configurationFingerprint ∧ Legible S k self' ∧
      ∃ s₀ outcome s,
        RunState.start S env maxPackets config (start.session uuid) start.runMetadata self.sink = .ok s₀ ∧
        Over outcome s (RunState.iterations S env start.pollIntervalS maxPackets s₀ n) ∧ Concluded S k outcome r s self' := by
  intro self k
  obtain ⟨hs, hsame, hconfig⟩ := sound_after S hnew calls
  rcases hs.run_cases S env hrun with ⟨e, hr, -, -, hsame', -, hrec⟩ | ⟨hopen, s₀, outcome, s, hstart, hover, hfin⟩
  · exact .inl ⟨e, hr, hrec, hsame'⟩
  obtain ⟨-, hsame', hclosed, hlive⟩ := hs.runFinally S env hfin
  have hwriting := RunState.writing_iterations self.pollIntervalS maxPackets hclock (RunState.writing_start hclock hstart) n
  rw [← hover.state_eq] at hwriting
  obtain ⟨hlegible, hconcluded⟩ := hs.concludes hwriting hfin
  have hfingerprint := self'.fingerprint_ok
  rw [hsame'.config, hsame.config, hconfig] at hfingerprint
  rw [hsame.config, hconfig, session, hsame.sessionId, hsame.runMetadata] at hstart
  rw [hsame.pollIntervalS] at hover
  exact .inr ⟨hclosed, hlive, hfingerprint, hlegible, s₀, outcome, s, hstart, hover, hconcluded⟩

/-- The runtime has run once before on the same sink: the second run appends a log of its own, which its statistics
summarise. -/
theorem run_completes_busy : ∃ rt self', newBusy = .ok rt ∧
    runBusy (afterBusy secondOpening rt) = some (.ok (), self') ∧
    (LinkEventStream.listSink.recorded (afterBusy secondOpening rt).sink).length = 25 ∧ self'.live = [0] ∧
    Legible LinkEventStream.listSink 25 self' ∧
    loadLinkEvents Json.loads ⟨(self'.sink.drop 25).map fun e => e.toDict.line, none⟩ = .ok (self'.sink.drop 25) ∧
    validateRunSummary (self'.sink.drop 25) = .ok self'.statistics ∧
    self'.statistics = ⟨4, 1, 3, 2, 2, 1, 5, 5⟩ := by
  obtain ⟨rt, self', hnew, hrun, hseen⟩ := exists_runBusy secondOpening
    (fun before rt => (before.sink.length, rt.live, rt.statistics, rt.sink.all fun e => decide e.toDict.Writable))
    (25, [0], ⟨4, 1, 3, 2, 2, 1, 5, 5⟩, true) (by decide +kernel)
  obtain ⟨hcount, hlive, hstats, hall⟩ : _ ∧ _ ∧ _ ∧ _ := by simpa only [Prod.mk.injEq] using hseen
  have hwritable : ∀ e ∈ self'.sink.drop 25, e.toDict.Writable := fun e he =>
    of_decide_eq_true (List.all_eq_true.mp hall e (List.mem_of_mem_drop he))
  have hcount : (LinkEventStream.listSink.recorded (after LinkEventStream.listSink secondOpening rt).sink).length = 25 :=
    hcount
  rcases run_completes hnew secondOpening RunState.steady_busy.clock hrun with
    ⟨e, hr, -⟩ | ⟨-, -, -, hlegible, s₀, outcome, s, -, -, summary, -, -, -, -, hsummary⟩
  · cases hr
  rw [hcount] at hlegible hsummary
  exact ⟨rt, self', hnew, hrun, hcount, hlive, hlegible, hlegible.loads hwritable, hsummary, hstats⟩

end LinkRuntime

end OrbitOps.Link
