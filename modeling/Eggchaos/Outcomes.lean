import Eggchaos.Connections
import Eggchaos.Control
/-!
# Recorded outcomes

`run_connection`, `handle_termination`, `record_close` and
`purge_proxy_connections` beside the control plane, with the kill and the reset of
connections and the shutdown of the service. A connection's token is a child of the
scope in the entry it was accepted with, and every scope a child of the shutdown
token, so a cancelled token does not say which of them was cancelled.

Every accepted connection says which supervisor accepted it and under which scope,
and `killed` the connections whose own token a kill or a reset cancelled. A call
made after the shutdown, which the source refuses, goes on here.
-/

namespace Eggchaos
open Lib

inductive ResetResult where
  | applied
  | failed (reason : String)
  | unsupported (reason : String)
deriving DecidableEq, Repr

inductive ConnectionOutcome where
  | relayCompleted
  | connectFailed (message : String)
  | killedByOperator
  | serviceShutdown
  | proxyRemoved
  | gracefulTermination (drained : Bool)
  | hardReset (client upstream : ResetResult)
  | relayError (message : String)
deriving DecidableEq, Repr

/-- Where a connection task is. -/
inductive TaskPhase where
  | dialling
  /-- Dialled; the record is set to relaying, the engines are built and registered. -/
  | opening
  | relaying
  /-- A graceful termination was requested; the relay may still deliver. -/
  | draining
  /-- `record_close`: the record is taken, and then appended to the history. -/
  | closing (outcome : ConnectionOutcome) (taking : Taking)
  | recording (outcome : ConnectionOutcome)
  | ended
deriving DecidableEq, Repr

structure ConnectionTask where
  id : Nat
  phase : TaskPhase
deriving DecidableEq, Repr

/-- What a supervisor awaits beside its loop. -/
inductive SupervisorWork where
  | idle
  /-- `accept_connection` awaits the connections, then the cancellations. -/
  | inserting (id : Nat)
  | registering (id : Nat)
  /-- `purge_proxy_connections`: the ids, then the counter, then one by one. -/
  | reading (outcome : ConnectionOutcome)
  | lookingUp (outcome : ConnectionOutcome) (ids : List Nat)
  | purging (outcome : ConnectionOutcome) (id : Nat) (rest : List Nat) (taking : Taking)
  | purgeRecording (outcome : ConnectionOutcome) (id : Nat) (rest : List Nat)
  | purged
deriving DecidableEq, Repr

/-- The supervisor that accepted a connection, the proxy and the scope. -/
structure AcceptedUnder where
  owner : Nat
  name : String
  scope : Nat
deriving DecidableEq, Repr

/-- A `ClosedConnection`, without its snapshot and evidence. -/
structure ClosedConnection where
  id : Nat
  outcome : ConnectionOutcome
deriving DecidableEq, Repr

structure OutcomeState where
  control : ControlState
  /-- The scope in the entry that a supervisor has cloned. -/
  scopes : Nat → Option Nat
  work : Nat → SupervisorWork
  /-- The accepted connections in the order of their ids. -/
  accepted : List AcceptedUnder
  tasks : List ConnectionTask
  connections : List (Nat × String)
  cancellations : List Nat
  killed : List Nat
  /-- The tokens that each reset has read. -/
  resets : List (List Nat)
  shutdownInitiated : Bool
  /-- The shutdown token is cancelled. -/
  cascaded : Bool
  history : List ClosedConnection

/-- What ends a relay that is not cancelled. -/
inductive RelayEnd where
  | completed
  /-- It fails with an engine's termination, requested as the handles say. -/
  | terminated (requested : Option TerminationRequest)
  | failed (message : String)
  /-- A handle announces a termination; a hard reset has these results. -/
  | requested (request : TerminationRequest) (client upstream : ResetResult)
deriving DecidableEq

/-- What ends a graceful drain that is not cancelled. -/
inductive DrainEnd where
  | completed
  | terminated
  | failed (message : String)
  | expired
deriving DecidableEq, Repr

inductive OutcomeOp where
  | control (op : ControlState.Op)
  /-- The listener of a waiting supervisor has a connection that no limit refuses. -/
  | accepted (k : Nat)
  | work (k : Nat)
  /-- `children.shutdown` drops the task at the await it is at. -/
  | abort (i : Nat)
  | kill (id : Nat)
  /-- `reset` reads the tokens, and later cancels those it has read. -/
  | resetRead
  | resetCancel (j : Nat)
  /-- `initiate_shutdown`: the flag, and then the token. -/
  | initiateShutdown
  | cascadeShutdown
  /-- The task finds its token cancelled. -/
  | observe (i : Nat)
  | dial (i : Nat) (result : Except String Unit)
  | opened (i : Nat) (result : Except String Unit)
  | relay (i : Nat) (e : RelayEnd)
  | drain (i : Nat) (e : DrainEnd)
  | close (i : Nat)

namespace OutcomeState

open Function (update)

def empty : OutcomeState where
  control := .empty
  scopes _ := none
  work _ := .idle
  accepted := []
  tasks := []
  connections := []
  cancellations := []
  killed := []
  resets := []
  shutdownInitiated := false
  cascaded := false
  history := []

variable (s : OutcomeState)

def setWork (k : Nat) (work : SupervisorWork) : OutcomeState := { s with work := update s.work k work }

def setTask (i : Nat) (phase : TaskPhase) : OutcomeState :=
  { s with tasks := s.tasks.modify i fun t => { t with phase } }

/-- After the shutdown every scope is cancelled, also those made later. -/
def withControl (control : ControlState) : OutcomeState :=
  { s with
    control :=
      if s.cascaded then { control with cancelled := List.range control.tokens ++ control.cancelled } else control }

/-! ## Tokens -/

/-- `proxy_cancel.is_cancelled()` for a connection. -/
def scopeCancelled (id : Nat) : Bool := (s.accepted[id]?).any fun a => a.scope ∈ s.control.cancelled

/-- The connection's token is cancelled, or a token above it. -/
def tokenCancelled (id : Nat) : Bool := id ∈ s.killed || s.scopeCancelled id

/-- `classify_cancel`. -/
def classifyCancel (id : Nat) : ConnectionOutcome :=
  if s.shutdownInitiated then .serviceShutdown
  else if s.scopeCancelled id then .proxyRemoved
  else .killedByOperator

/-! ## Records -/

/-- One lock of `take_connection`, with what it awaits next. -/
def take (id : Nat) : Taking → OutcomeState × Option Taking
  | .token => ({ s with cancellations := s.cancellations.filter (· ≠ id) }, some .record)
  | .record =>
    ({ s with connections := s.connections.filter (·.1 ≠ id) }, some (.evidence (s.connections.any (·.1 = id))))
  | .evidence _ => (s, none)

/-- The bounded history drops its oldest records first. -/
def push (limit : Nat) (closed : ClosedConnection) : OutcomeState :=
  if limit = 0 then s else { s with history := s.history.drop (s.history.length + 1 - limit) ++ [closed] }

/-! ## Supervisors -/

/-- The scope that a supervisor holds after one of its turns. -/
def turned (k : Nat) : ControlState.Turn → Nat → Option Nat
  | .look =>
    match s.control.supervisors[k]? with
    | none => s.scopes
    | some v =>
      match s.control.proxies.get v.name with
      | none => s.scopes
      | some entry => if v.phase = .looking then update s.scopes k (some entry.cancel) else s.scopes
  | .observe | .accepted | .finish => s.scopes

/-- A turn of the loop needs the supervisor to be at its loop; it finishes when it
has purged. -/
def mayTurn (k : Nat) : ControlState.Turn → Bool
  | .look | .observe | .accepted => s.work k = .idle
  | .finish => s.work k = .purged

/-- The connection is accepted with the entry the supervisor has cloned. -/
def accept (k : Nat) : OutcomeState :=
  match s.control.supervisors[k]?, s.scopes k with
  | some v, some scope =>
    if v.phase = .accepting && s.work k = .idle then
      { s.setWork k (.inserting s.accepted.length) with accepted := s.accepted ++ [⟨k, v.name, scope⟩] }
    else s
  | _, _ => s

/-- The children of the supervisor have all ended. -/
def childless (k : Nat) : Bool := s.tasks.all fun t => (s.accepted[t.id]?).all (·.owner ≠ k) || t.phase = .ended

/-- The purge turns to its next id. -/
def purgeNext (k : Nat) (outcome : ConnectionOutcome) : List Nat → OutcomeState
  | [] => s.setWork k .purged
  | id :: rest => s.setWork k (.purging outcome id rest .token)

/-- What the supervisor awaits beside its loop is over. -/
def doWork (seed : UInt64) (limit k : Nat) (v : Supervisor) : OutcomeState :=
  match s.work k with
  | .idle =>
    if v.phase = .closing && s.childless k then
      s.setWork k (.reading (if s.shutdownInitiated then .serviceShutdown else .proxyRemoved))
    else s
  | .inserting id => { s.setWork k (.registering id) with connections := s.connections ++ [(id, v.name)] }
  | .registering id =>
    { (s.setWork k .idle).withControl (s.control.step seed (.supervisor k .accepted)) with
      cancellations := s.cancellations ++ [id]
      tasks := s.tasks ++ [⟨id, .dialling⟩] }
  | .reading outcome =>
    match (s.connections.filter (·.2 = v.name)).map (·.1) with
    | [] => s.setWork k .purged
    | ids => s.setWork k (.lookingUp outcome ids)
  | .lookingUp outcome ids => s.purgeNext k outcome ids
  | .purging outcome id rest taking =>
    match taking, s.take id taking with
    | _, (s, some taking) => s.setWork k (.purging outcome id rest taking)
    | .evidence true, (s, none) => s.setWork k (.purgeRecording outcome id rest)
    | _, (s, none) => s.purgeNext k outcome rest
  | .purgeRecording outcome id rest => (s.push limit ⟨id, outcome⟩).purgeNext k outcome rest
  | .purged => s

/-! ## Connection tasks -/

/-- `record_close` begins. -/
def closeWith (i : Nat) (outcome : ConnectionOutcome) : OutcomeState := s.setTask i (.closing outcome .token)

/-- The cancelled token is observed while dialling, relaying or draining. -/
def observed (i : Nat) (t : ConnectionTask) : OutcomeState :=
  if s.tokenCancelled t.id then
    match t.phase with
    | .dialling | .relaying => s.closeWith i (s.classifyCancel t.id)
    | .draining => s.closeWith i .killedByOperator
    | .opening | .closing _ _ | .recording _ | .ended => s
  else s

def dialled (i : Nat) (t : ConnectionTask) (result : Except String Unit) : OutcomeState :=
  match t.phase, result with
  | .dialling, .ok () => s.setTask i .opening
  | .dialling, .error message => s.closeWith i (.connectFailed message)
  | _, _ => s

def openedStreams (i : Nat) (t : ConnectionTask) (result : Except String Unit) : OutcomeState :=
  match t.phase, result with
  | .opening, .ok () => s.setTask i .relaying
  | .opening, .error message => s.closeWith i (.relayError message)
  | _, _ => s

/-- The text of a hard reset that came too late. -/
def socketsReleased : ResetResult :=
  .unsupported "relay failed as the hard-reset request resolved; sockets already released"

def relayEnded (i : Nat) (t : ConnectionTask) (e : RelayEnd) : OutcomeState :=
  match t.phase with
  | .relaying =>
    match e with
    | .completed => s.closeWith i .relayCompleted
    | .terminated (some .hardReset) => s.closeWith i (.hardReset socketsReleased socketsReleased)
    | .terminated (some .graceful) | .terminated none => s.closeWith i (.gracefulTermination true)
    | .failed message => s.closeWith i (.relayError message)
    | .requested .graceful _ _ => s.setTask i .draining
    | .requested .hardReset client upstream => s.closeWith i (.hardReset client upstream)
  | _ => s

def drainEnded (i : Nat) (t : ConnectionTask) (e : DrainEnd) : OutcomeState :=
  match t.phase with
  | .draining =>
    match e with
    | .completed | .terminated => s.closeWith i (.gracefulTermination true)
    | .failed message => s.closeWith i (.relayError ("graceful termination due, then relay failed: " ++ message))
    | .expired => s.closeWith i (.gracefulTermination false)
  | _ => s

/-- The next await of `record_close` is over. -/
def closeNext (limit i : Nat) (t : ConnectionTask) : OutcomeState :=
  match t.phase with
  | .closing outcome taking =>
    match taking, s.take t.id taking with
    | _, (s, some taking) => s.setTask i (.closing outcome taking)
    | .evidence true, (s, none) => s.setTask i (.recording outcome)
    | _, (s, none) => s.setTask i .ended
  | .recording outcome => (s.push limit ⟨t.id, outcome⟩).setTask i .ended
  | .dialling | .opening | .relaying | .draining | .ended => s

/-- The supervisor of the task is shutting its children down. -/
def aborting (t : ConnectionTask) : Bool :=
  (s.accepted[t.id]?).any fun a =>
    (s.control.supervisors[a.owner]?).any (·.phase = .closing) && s.work a.owner = .idle

def step (seed : UInt64) (limit : Nat) : OutcomeOp → OutcomeState
  | .control op =>
    match op with
    | .supervisor k turn =>
      if s.mayTurn k turn then { s.withControl (s.control.step seed op) with scopes := s.turned k turn } else s
    | .begin _ | .advance _ _ => s.withControl (s.control.step seed op)
  | .accepted k => s.accept k
  | .work k =>
    match s.control.supervisors[k]? with
    | none => s
    | some v => s.doWork seed limit k v
  | .abort i =>
    match s.tasks[i]? with
    | none => s
    | some t => if s.aborting t then s.setTask i .ended else s
  | .kill id =>
    if id ∈ s.cancellations then
      { s with cancellations := s.cancellations.filter (· ≠ id), killed := id :: s.killed }
    else s
  | .resetRead => { s with resets := s.resets ++ [s.cancellations] }
  | .resetCancel j => { s with killed := (s.resets[j]?).getD [] ++ s.killed }
  | .initiateShutdown => { s with shutdownInitiated := true }
  | .cascadeShutdown =>
    if s.shutdownInitiated then { s with cascaded := true }.withControl s.control else s
  | .observe i =>
    match s.tasks[i]? with
    | none => s
    | some t => s.observed i t
  | .dial i result =>
    match s.tasks[i]? with
    | none => s
    | some t => s.dialled i t result
  | .opened i result =>
    match s.tasks[i]? with
    | none => s
    | some t => s.openedStreams i t result
  | .relay i e =>
    match s.tasks[i]? with
    | none => s
    | some t => s.relayEnded i t e
  | .drain i e =>
    match s.tasks[i]? with
    | none => s
    | some t => s.drainEnded i t e
  | .close i =>
    match s.tasks[i]? with
    | none => s
    | some t => s.closeNext limit i t

end OutcomeState

end Eggchaos
