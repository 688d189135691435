import Mathlib.Logic.Function.Basic
import OrbitOps.Session.Inspection

/-!
# Writing a report

A report is written to a temporary file that then replaces the destination. `writeReportAtomically` is the
function step by step, with one fault: an operation raises, having passed on a part of its text, or the
process is interrupted between two steps. The cleanup knows the temporary file by a variable, and it is
told the path only after the file exists. An interruption in between leaves the file behind; after any other
fault the destination is the old file or the whole report, and nothing else has changed.
-/

namespace OrbitOps.Session
open Py

deriving instance DecidableEq for EvidencePath

/-! ### The function -/

/-- The files of a file system, with their content. -/
abbrev Files := EvidencePath → Option String

inductive Raised where
  | error (e : PyError)
  | KEYBOARD_INTERRUPT

/-- The variables of `_write_report_atomically`: the open handle and what its buffer holds back, and `temporary_path`. -/
structure Writing where
  files : Files
  handle : Option EvidencePath := none
  pending : String := ""
  temporaryPath : Option EvidencePath := none

/-- The arguments, the random texts that `NamedTemporaryFile` tries, and how much of a text its buffer passes on at once. -/
structure WriteCall where
  outputPath : EvidencePath
  rendered : String
  names : List String
  eager : Nat

/-- The name of a temporary file: prefix, random text and suffix, in the directory of the output. -/
def WriteCall.candidate (call : WriteCall) (random : String) : EvidencePath :=
  ⟨call.outputPath.parent, "." ++ call.outputPath.name ++ "." ++ random ++ ".tmp"⟩

/-- The first candidate that is no file yet. -/
def WriteCall.free (call : WriteCall) (files : Files) : Option EvidencePath :=
  (call.names.map call.candidate).find? fun p => files p = none

/-- Up to `n` characters leave the buffer for the open file. -/
def Writing.passOn (n : Nat) (s : Writing) : Writing :=
  match s.handle with
  | none => s
  | some p => { s with
      files := Function.update s.files p (some ((s.files p).getD "" ++ String.ofList (s.pending.toList.take n)))
      pending := String.ofList (s.pending.toList.drop n) }

def Writing.flush (s : Writing) : Writing := s.passOn s.pending.length

def Writing.closeHandle (s : Writing) : Writing := { s.flush with handle := none }

/-- The calls that touch files. -/
inductive FileOperation where
  | CREATE
  | WRITE
  | FLUSH
  | FSYNC
  | CLOSE
  | REPLACE
deriving DecidableEq

inductive WriteStep where
  | operation (op : FileOperation)
  /-- `as handle` -/
  | ENTER
  /-- `temporary_path = Path(handle.name)` -/
  | ASSIGN
  /-- `if temporary_path is None` -/
  | CHECK
  /-- `temporary_path = None` -/
  | CLEAR
deriving DecidableEq

def WriteStep.run (call : WriteCall) : WriteStep → Method Raised Writing Unit
  | .operation .CREATE => do
    let s ← Method.get
    match call.free s.files with
    | none => Method.raise (.error ⟨.osError, "No usable temporary file name found"⟩)
    | some p => Method.modify fun s => { s with files := Function.update s.files p (some ""), handle := some p }
  | .ENTER => return ()
  | .ASSIGN => Method.modify fun s => { s with temporaryPath := s.handle }
  | .operation .WRITE => Method.modify fun s => { s with pending := call.rendered }.passOn call.eager
  | .operation .FLUSH => Method.modify Writing.flush
  | .operation .FSYNC => return ()
  | .operation .CLOSE => Method.modify Writing.closeHandle
  | .CHECK => do
    let s ← Method.get
    if s.temporaryPath = none then Method.raise (.error (assertionError "temporary report path was not created"))
    else return ()
  | .operation .REPLACE => Method.modify fun s =>
    match s.temporaryPath with
    | none => s
    | some p => { s with
        files := Function.update (Function.update s.files p none) call.outputPath (s.files p) }
  | .CLEAR => Method.modify fun s => { s with temporaryPath := none }

/-- What an operation leaves that raises after it has passed on `n` characters. -/
def FileOperation.fail (call : WriteCall) (n : Nat) : FileOperation → Writing → Writing
  | .WRITE, s => { s with pending := call.rendered }.passOn n
  | .FLUSH, s => s.passOn n
  | .CLOSE, s => { s.passOn n with handle := none }
  | .CREATE, s | .FSYNC, s | .REPLACE, s => s

inductive Fault where
  | NONE
  /-- The operation raises, having passed on some characters. -/
  | RAISES (op : FileOperation) (exc : Raised) (reached : Nat)
  /-- `KeyboardInterrupt` is received after so many steps. -/
  | INTERRUPTED (steps : Nat)

/-- A step with its number, or the fault in its place. -/
def attempt (call : WriteCall) (fault : Fault) (step : Nat × WriteStep) : Method Raised Writing Unit :=
  match fault, step with
  | .NONE, (_, step) => step.run call
  | .INTERRUPTED k, (n, step) => if k = n then Method.raise .KEYBOARD_INTERRUPT else step.run call
  | .RAISES op exc reached, (_, .operation op') =>
    if op = op' then do
      Method.modify (op.fail call reached)
      Method.raise exc
    else (WriteStep.operation op').run call
  | .RAISES .., (_, step) => step.run call

/-- The statements under `try`; the handle is closed whenever its block is left. -/
def writeSteps (call : WriteCall) (fault : Fault) : Method Raised Writing Unit := do
  attempt call fault (0, .operation .CREATE)
  attempt call fault (1, .ENTER)
  Method.tryExcept
    (Method.forEach (attempt call fault) [(2, .ASSIGN), (3, .operation .WRITE), (4, .operation .FLUSH), (5, .operation .FSYNC)])
    (fun _ => true)
    fun exc => do
      Method.modify Writing.closeHandle
      Method.raise exc
  Method.forEach (attempt call fault) [(6, .operation .CLOSE), (7, .CHECK), (8, .operation .REPLACE), (9, .CLEAR)]

/-- `temporary_path.unlink(missing_ok=True)`, which succeeds. -/
def Writing.cleanUp (s : Writing) : Writing :=
  match s.temporaryPath with
  | none => s
  | some p => { s with files := Function.update s.files p none }

def writeReportAtomically (call : WriteCall) (fault : Fault) : Method Raised Writing Unit :=
  Method.tryFinally (writeSteps call fault) (Method.modify Writing.cleanUp)

/-! ### What each operation keeps -/

/-- The destination is as before or holds the whole text, and every other path is as before, temporary or not. -/
structure AllOrNothing (call : WriteCall) (before after : Files) : Prop where
  destination : after call.outputPath = before call.outputPath ∨ after call.outputPath = some call.rendered
  others : ∀ p, p ≠ call.outputPath → after p = before p

theorem AllOrNothing.refl (call : WriteCall) (files : Files) : AllOrNothing call files files := ⟨.inl rfl, fun _ _ => rfl⟩

theorem WriteCall.candidate_ne (call : WriteCall) (random : String) : call.candidate random ≠ call.outputPath := by
  intro h
  have hlength := congrArg (fun p => p.name.length) h
  simp only [candidate, String.length_append] at hlength
  have hdot : ".".length = 1 := rfl
  omega

theorem WriteCall.free_eq_some {call : WriteCall} {files : Files} {t : EvidencePath} (h : call.free files = some t) :
    files t = none ∧ t ≠ call.outputPath := by
  obtain ⟨random, -, rfl⟩ := List.mem_map.mp (List.mem_of_find?_eq_some h)
  exact ⟨by simpa using List.find?_some h, call.candidate_ne random⟩

section
variable {call : WriteCall} {fault : Fault} {before : Files} {t : EvidencePath} {s : Writing}

@[simp] theorem Writing.handle_passOn (n : Nat) (s : Writing) : (s.passOn n).handle = s.handle := by
  unfold passOn
  split
  · rfl
  · rfl

@[simp] theorem Writing.temporaryPath_passOn (n : Nat) (s : Writing) : (s.passOn n).temporaryPath = s.temporaryPath := by
  unfold passOn
  split
  · rfl
  · rfl

theorem Writing.files_passOn {n : Nat} (h : ∀ p ∈ s.handle, p = t) {p : EvidencePath} (hp : p ≠ t) :
    (s.passOn n).files p = s.files p := by
  unfold passOn
  split
  · rfl
  · rename_i q hq
    exact Function.update_of_ne (fun heq => hp (heq.trans (h q hq))) ..

/-- The variable knows the temporary file, and no other file has changed. -/
structure Managed (before : Files) (t : EvidencePath) (s : Writing) : Prop where
  temporaryPath : s.temporaryPath = some t
  handle : ∀ p ∈ s.handle, p = t
  files : ∀ p, p ≠ t → s.files p = before p

theorem Managed.passOn (h : Managed before t s) (n : Nat) : Managed before t (s.passOn n) where
  temporaryPath := (Writing.temporaryPath_passOn n s).trans h.temporaryPath
  handle := by rw [Writing.handle_passOn]; exact h.handle
  files := fun p hp => (Writing.files_passOn h.handle hp).trans (h.files p hp)

theorem Managed.closeHandle (h : Managed before t s) : Managed before t s.closeHandle where
  temporaryPath := (h.passOn _).temporaryPath
  handle := fun _ hp => by cases hp
  files := (h.passOn _).files

/-- A failing operation leaves the file to the cleanup. -/
theorem Managed.fail (h : Managed before t s) (op : FileOperation) (n : Nat) : Managed before t (op.fail call n s) := by
  have hpending : Managed before t { s with pending := call.rendered } := ⟨h.temporaryPath, h.handle, h.files⟩
  cases op with
  | WRITE => exact hpending.passOn n
  | FLUSH => exact h.passOn n
  | CLOSE => exact ⟨(h.passOn n).temporaryPath, (fun _ hp => by cases hp), (h.passOn n).files⟩
  | CREATE => exact h
  | FSYNC => exact h
  | REPLACE => exact h

/-- The cleanup of a known temporary file undoes everything. -/
theorem Managed.cleanUp (h : Managed before t s) (ht : before t = none) : s.cleanUp.files = before := by
  have hfiles : s.cleanUp.files = Function.update s.files t none := by rw [Writing.cleanUp, h.temporaryPath]
  rw [hfiles]
  funext p
  by_cases hp : p = t
  · rw [hp, Function.update_self, ht]
  · rw [Function.update_of_ne hp, h.files p hp]

/-- What the file and the buffer hold together is the text. -/
structure Written (call : WriteCall) (t : EvidencePath) (s : Writing) : Prop where
  handle : s.handle = some t
  text : ∃ a, s.files t = some a ∧ a ++ s.pending = call.rendered

theorem Written.passOn (h : Written call t s) (n : Nat) : Written call t (s.passOn n) := by
  obtain ⟨a, ha, htext⟩ := h.text
  refine ⟨(Writing.handle_passOn n s).trans h.handle, a ++ String.ofList (s.pending.toList.take n), ?_, ?_⟩
  · rw [Writing.passOn, h.handle]
    simp [ha]
  · rw [← htext, Writing.passOn, h.handle, String.append_assoc, ← String.ofList_append, List.take_append_drop,
      String.ofList_toList]

/-- A closed file holds the whole text. -/
theorem Written.closeHandle (h : Written call t s) : s.closeHandle.files t = some call.rendered := by
  obtain ⟨a, ha, htext⟩ := (h.passOn s.pending.length).text
  have hempty : (s.passOn s.pending.length).pending = "" := by
    rw [Writing.passOn, h.handle]
    simp [String.length_toList]
  rw [hempty, String.append_empty] at htext
  rw [← htext]
  exact ha

/-- The destination has been replaced and the temporary file is gone. -/
structure Replaced (call : WriteCall) (before : Files) (t : EvidencePath) (s : Writing) : Prop where
  temporaryPath : ∀ p ∈ s.temporaryPath, p = t
  files : s.files = Function.update (Function.update before t none) call.outputPath (some call.rendered)

theorem Replaced.cleanUp (h : Replaced call before t s) (ht : before t = none) (hne : t ≠ call.outputPath) :
    AllOrNothing call before s.cleanUp.files ∧ s.cleanUp.files call.outputPath = some call.rendered := by
  have hfiles : s.cleanUp.files = s.files := by
    unfold Writing.cleanUp
    split
    · rfl
    · rename_i p hp
      obtain rfl := h.temporaryPath p hp
      funext q
      show Function.update s.files p none q = s.files q
      by_cases hq : q = p
      · rw [hq, Function.update_self, h.files, Function.update_of_ne hne, Function.update_self]
      · rw [Function.update_of_ne hq]
  rw [hfiles, h.files]
  have houtput := Function.update_self call.outputPath (some call.rendered) (Function.update before t none)
  refine ⟨⟨.inr houtput, fun p hp => ?_⟩, houtput⟩
  rw [Function.update_of_ne hp]
  by_cases hpt : p = t
  · rw [hpt, Function.update_self, ht]
  · rw [Function.update_of_ne hpt]

/-! ### The steps -/

/-- A step, the fault in its place, or the fault within it. -/
theorem wp_attempt {n : Nat} {step : WriteStep} {Q : Unit → Writing → Prop} {E : Raised → Writing → Prop}
    (hrun : Method.wp (step.run call) Q E s) (hinterrupt : fault = .INTERRUPTED n → E .KEYBOARD_INTERRUPT s)
    (hfail : ∀ op exc reached, step = .operation op → E exc (op.fail call reached s)) :
    Method.wp (attempt call fault (n, step)) Q E s := by
  cases fault with
  | NONE => exact hrun
  | INTERRUPTED k =>
    rw [attempt]
    split_ifs with hk
    · exact Method.wp_of_error rfl (hinterrupt (congrArg Fault.INTERRUPTED hk))
    · exact hrun
  | RAISES op exc reached =>
    cases step with
    | operation op' =>
      rw [attempt]
      split_ifs with hop
      · exact Method.wp_of_error rfl (hop ▸ hfail op exc reached (congrArg WriteStep.operation hop.symm))
      · exact hrun
    | ENTER => exact hrun
    | ASSIGN => exact hrun
    | CHECK => exact hrun
    | CLEAR => exact hrun

/-- The block of the handle, from the assignment of the path on. -/
theorem wp_block (hpath : s.handle = some t) (hempty : s.files t = some "")
    (hfiles : ∀ p, p ≠ t → s.files p = before p) (hfault : fault ≠ .INTERRUPTED 2) :
    Method.wp (Method.forEach (attempt call fault)
        [(2, .ASSIGN), (3, .operation .WRITE), (4, .operation .FLUSH), (5, .operation .FSYNC)])
      (fun _ s' => Managed before t s' ∧ Written call t s') (fun _ s' => Managed before t s') s := by
  have hmanaged : Managed before t { s with temporaryPath := s.handle } := by
    refine ⟨hpath, fun p hp => ?_, hfiles⟩
    rw [hpath] at hp
    exact (Option.some.inj hp).symm
  refine Method.wp_bind (wp_attempt ?_ (fun h => absurd h hfault) fun _ _ _ h => by cases h)
  refine Method.wp_of_ok rfl (Method.wp_bind (wp_attempt ?_ (fun _ => hmanaged) fun op _ n _ => hmanaged.fail op n))
  have hwrite : Managed before t { s with temporaryPath := s.handle, pending := call.rendered } :=
    ⟨hmanaged.temporaryPath, hmanaged.handle, hmanaged.files⟩
  have hwritten : Written call t { s with temporaryPath := s.handle, pending := call.rendered } :=
    ⟨hpath, "", hempty, String.empty_append⟩
  refine Method.wp_of_ok rfl (Method.wp_bind (wp_attempt ?_ (fun _ => hwrite.passOn _) fun op _ n _ => (hwrite.passOn _).fail op n))
  refine Method.wp_of_ok rfl (Method.wp_bind (wp_attempt ?_ (fun _ => (hwrite.passOn _).passOn _)
    fun op _ n _ => ((hwrite.passOn _).passOn _).fail op n))
  exact Method.wp_of_ok rfl (Method.wp_of_ok rfl ⟨(hwrite.passOn _).passOn _, (hwritten.passOn _).passOn _⟩)

/-- After its block: the file is closed and replaces the destination. -/
theorem wp_replace (h : Managed before t s) (hwritten : Written call t s) (ht : before t = none) (hne : t ≠ call.outputPath) :
    Method.wp (Method.forEach (attempt call fault)
        [(6, .operation .CLOSE), (7, .CHECK), (8, .operation .REPLACE), (9, .CLEAR)])
      (fun _ s' => AllOrNothing call before s'.cleanUp.files ∧ s'.cleanUp.files call.outputPath = some call.rendered)
      (fun _ s' => AllOrNothing call before s'.cleanUp.files) s := by
  have hundo {s' : Writing} (h : Managed before t s') : AllOrNothing call before s'.cleanUp.files := by
    rw [h.cleanUp ht]
    exact .refl call before
  refine Method.wp_bind (wp_attempt ?_ (fun _ => hundo h) fun op _ n _ => hundo (h.fail op n))
  have hclosed := h.closeHandle
  refine Method.wp_of_ok rfl (Method.wp_bind (wp_attempt ?_ (fun _ => hundo hclosed) fun _ _ _ h => by cases h))
  have hcheck : WriteStep.CHECK.run call s.closeHandle = (.ok (), s.closeHandle) := by
    rw [WriteStep.run, Method.bind_ok (Method.get_apply _), if_neg (by rw [hclosed.temporaryPath]; simp)]
    rfl
  refine Method.wp_of_ok hcheck (Method.wp_bind (wp_attempt ?_ (fun _ => hundo hclosed) fun op _ n _ => hundo (hclosed.fail op n)))
  have hrun : (WriteStep.operation .REPLACE).run call s.closeHandle = (.ok (), { s.closeHandle with
      files := Function.update (Function.update s.closeHandle.files t none) call.outputPath (s.closeHandle.files t) }) := by
    rw [WriteStep.run, Method.modify_apply]
    split
    · rename_i hnone
      rw [hclosed.temporaryPath] at hnone
      cases hnone
    · rename_i p hp
      obtain rfl : t = p := Option.some.inj (hclosed.temporaryPath.symm.trans hp)
      rfl
  have hsame : Function.update s.closeHandle.files t none = Function.update before t none := by
    funext p
    by_cases hp : p = t
    · rw [hp, Function.update_self, Function.update_self]
    · rw [Function.update_of_ne hp, Function.update_of_ne hp, hclosed.files p hp]
  rw [hwritten.closeHandle, hsame] at hrun
  have hpath : ∀ p ∈ s.closeHandle.temporaryPath, p = t := by
    intro p hp
    rw [hclosed.temporaryPath] at hp
    exact (Option.some.inj hp).symm
  have hreplaced : Replaced call before t { s.closeHandle with
      files := Function.update (Function.update before t none) call.outputPath (some call.rendered) } := ⟨hpath, rfl⟩
  refine Method.wp_of_ok hrun (Method.wp_bind (wp_attempt ?_ (fun _ => (hreplaced.cleanUp ht hne).1)
    fun _ _ _ h => by cases h))
  exact Method.wp_of_ok rfl (Method.wp_of_ok rfl (Replaced.cleanUp ⟨(fun _ hp => by cases hp), rfl⟩ ht hne))

theorem create_eq (h : call.free before = some t) : (WriteStep.operation .CREATE).run call { files := before } =
    (.ok (), { files := Function.update before t (some ""), handle := some t }) := by
  rw [WriteStep.run, Method.bind_ok (Method.get_apply _)]
  dsimp only
  rw [h]
  rfl

/-- The statements under `try`, where the path is assigned before any interruption. -/
theorem wp_writeSteps (ht : call.free before = some t) (hfault : fault ≠ .INTERRUPTED 1 ∧ fault ≠ .INTERRUPTED 2) :
    Method.wp (writeSteps call fault)
      (fun _ s' => AllOrNothing call before s'.cleanUp.files ∧ s'.cleanUp.files call.outputPath = some call.rendered)
      (fun _ s' => AllOrNothing call before s'.cleanUp.files) { files := before } := by
  obtain ⟨hfree, hne⟩ := WriteCall.free_eq_some ht
  have hundo {s' : Writing} (h : Managed before t s') : AllOrNothing call before s'.cleanUp.files := by
    rw [h.cleanUp hfree]
    exact .refl call before
  refine Method.wp_bind (wp_attempt ?_ (fun _ => .refl call before) fun op _ n hop => ?_)
  case refine_2 =>
    obtain rfl : FileOperation.CREATE = op := WriteStep.operation.inj hop
    exact .refl call before
  refine Method.wp_of_ok (create_eq ht) (Method.wp_bind (wp_attempt ?_ (fun h => absurd h hfault.1) fun _ _ _ h => by cases h))
  refine Method.wp_of_ok rfl (Method.wp_bind ?_)
  have hblock := @wp_block call fault before t
    ({ files := Function.update before t (some ""), handle := some t } : Writing) rfl (Function.update_self ..)
    (fun p hp => Function.update_of_ne hp ..) hfault.2
  rcases hrun : Method.forEach (attempt call fault)
      [(2, .ASSIGN), (3, .operation .WRITE), (4, .operation .FLUSH), (5, .operation .FSYNC)]
      { files := Function.update before t (some ""), handle := some t } with ⟨exc | u, s'⟩
  · refine Method.wp_of_error (Method.tryExcept_error hrun rfl) (hundo (hblock.of_error hrun).closeHandle)
  · obtain ⟨hmanaged, hwritten⟩ := hblock.of_ok hrun
    exact Method.wp_of_ok (Method.tryExcept_ok hrun) (wp_replace hmanaged hwritten hfree hne)

/-- Without a free name nothing is created. -/
theorem wp_writeSteps_of_not_free (h : call.free before = none) :
    Method.wp (writeSteps call fault) (fun _ _ => False) (fun _ s' => s'.cleanUp.files = before) { files := before } := by
  refine Method.wp_bind (wp_attempt ?_ (fun _ => rfl) fun op _ n hop => ?_)
  · have hcreate : (WriteStep.operation .CREATE).run call { files := before } =
        (.error (.error ⟨.osError, "No usable temporary file name found"⟩), { files := before }) := by
      rw [WriteStep.run, Method.bind_ok (Method.get_apply _)]
      dsimp only
      rw [h]
      rfl
    exact Method.wp_of_error hcreate rfl
  · obtain rfl : FileOperation.CREATE = op := WriteStep.operation.inj hop
    rfl

/-- An interruption before the path is assigned leaves the file and no variable that knows it. -/
theorem writeSteps_interrupted (h : call.free before = some t) (hfault : fault = .INTERRUPTED 1 ∨ fault = .INTERRUPTED 2) :
    ∃ s', writeSteps call fault { files := before } = (.error .KEYBOARD_INTERRUPT, s') ∧ s'.temporaryPath = none ∧
      s'.files t ≠ none := by
  have hcreate := create_eq h
  rcases hfault with rfl | rfl
  · refine ⟨{ files := Function.update before t (some ""), handle := some t }, ?_, rfl, by simp⟩
    rw [writeSteps, Method.bind_ok (show attempt call (.INTERRUPTED 1) (0, .operation .CREATE) _ = _ from hcreate)]
    rfl
  · refine ⟨Writing.closeHandle { files := Function.update before t (some ""), handle := some t }, ?_, rfl, ?_⟩
    · rw [writeSteps, Method.bind_ok (show attempt call (.INTERRUPTED 2) (0, .operation .CREATE) _ = _ from hcreate)]
      rfl
    · show Function.update (Function.update before t (some "")) t _ t ≠ none
      simp

end

/-! ### Faults -/

theorem files_writeReportAtomically (call : WriteCall) (fault : Fault) (s : Writing) :
    (writeReportAtomically call fault s).2.files = (writeSteps call fault s).2.cleanUp.files := by
  rw [writeReportAtomically, Method.tryFinally]
  rcases writeSteps call fault s with ⟨exc | u, s'⟩ <;> rfl

/-- Writing is all or nothing unless it is interrupted between the creation of the file and the assignment of its path. -/
theorem writeReportAtomically_allOrNothing_iff (call : WriteCall) (fault : Fault) (before : Files) :
    AllOrNothing call before (writeReportAtomically call fault { files := before }).2.files ↔
      (call.free before ≠ none → fault ≠ .INTERRUPTED 1 ∧ fault ≠ .INTERRUPTED 2) := by
  rcases hfree : call.free before with - | t
  · refine iff_of_true ?_ fun h => absurd rfl h
    rw [files_writeReportAtomically]
    rcases hrun : writeSteps call fault { files := before } with ⟨exc | u, s'⟩
    · rw [(wp_writeSteps_of_not_free hfree).of_error hrun]
      exact .refl call before
    · exact ((wp_writeSteps_of_not_free hfree).of_ok hrun).elim
  · constructor
    · intro h _
      obtain ⟨hnone, hne⟩ := WriteCall.free_eq_some hfree
      have hleft : (writeReportAtomically call fault { files := before }).2.files t = none := (h.others t hne).trans hnone
      refine not_or.mp fun hfault => ?_
      obtain ⟨s', hrun, hpath, hfile⟩ := writeSteps_interrupted hfree hfault
      rw [files_writeReportAtomically, hrun, Writing.cleanUp, hpath] at hleft
      exact hfile hleft
    · intro h
      have hwp := wp_writeSteps hfree (h (by simp))
      rw [files_writeReportAtomically]
      rcases hrun : writeSteps call fault { files := before } with ⟨exc | u, s'⟩
      · exact hwp.of_error hrun
      · exact (hwp.of_ok hrun).1

/-- Interrupted before the path of the new file is assigned, `_write_report_atomically` leaves it beside the old report. -/
theorem writeReportAtomically_interrupted :
    ¬AllOrNothing ⟨⟨"sessions/", "report.json"⟩, "new report\n", ["abcd1234"], 0⟩
      (fun p => if p = ⟨"sessions/", "report.json"⟩ then some "previous report\n" else none)
      (writeReportAtomically ⟨⟨"sessions/", "report.json"⟩, "new report\n", ["abcd1234"], 0⟩ (.INTERRUPTED 2)
        { files := fun p => if p = ⟨"sessions/", "report.json"⟩ then some "previous report\n" else none }).2.files := by
  intro h
  have hleft := h.others ⟨"sessions/", ".report.json.abcd1234.tmp"⟩ (by decide)
  revert hleft
  decide

/-- A call that returns has written the whole report. -/
theorem writeReportAtomically_ok {call : WriteCall} {fault : Fault} {before : Files}
    (h : (writeReportAtomically call fault { files := before }).1 = .ok ()) :
    (writeReportAtomically call fault { files := before }).2.files call.outputPath = some call.rendered := by
  rw [files_writeReportAtomically]
  rcases hrun : writeSteps call fault { files := before } with ⟨exc | u, s'⟩
  · rw [writeReportAtomically, Method.tryFinally, hrun] at h
    cases h
  · rcases hfree : call.free before with - | t
    · exact ((wp_writeSteps_of_not_free hfree).of_ok hrun).elim
    · by_cases hfault : fault = .INTERRUPTED 1 ∨ fault = .INTERRUPTED 2
      · obtain ⟨_, herror, -⟩ := writeSteps_interrupted hfree hfault
        rw [hrun] at herror
        cases herror
      · exact ((wp_writeSteps hfree (not_or.mp hfault)).of_ok hrun).2

end OrbitOps.Session
