import Eggchaos.Lib.Accounts
import Eggchaos.Lib.Runs
/-!
# Connection accounting

`accept_connection`, `record_close` with its `take_connection`, and
`purge_proxy_connections` as one state machine, with the exit of
`proxy_supervisor` around them. A supervisor and a connection task each go from
one await to the next; everything else may happen in between.

What the control plane does to a proxy is any order of storing a new entry,
changing its limit, removing it, spawning a supervisor for its name and
cancelling a supervisor's scope: delete, recreate, disable, enable and restart
are such orders. A connection may end at any moment, whatever ends it: its peer,
a fault or a kill.

`runtime.active` and the counter of each entry are machine words. A counter is
shared by everyone who cloned its entry, so counters are numbered and an entry
refers to one. Every accepted connection also says which supervisor accepted it
and which counter it raised, and `closed` lists the connections that were
counted as closed, which nothing reads.
-/

namespace Eggchaos
open Lib Lib.Accounts

/-- What `take_connection` awaits: each of its three locks, the last one with
whether it has got the record. -/
inductive Taking where
  | token
  | record
  | evidence (taken : Bool)
deriving DecidableEq, Repr

/-- A stored proxy: its connection counter and limit. -/
structure CountedProxy where
  counter : Nat
  maxConnections : Option Nat
deriving DecidableEq, Repr

inductive AcceptPhase where
  | looking
  /-- Waiting for a connection, with the entry as it was read. -/
  | waiting (entry : CountedProxy)
  /-- `accept_connection` awaits the connections, then the cancellations. -/
  | inserting (id counter : Nat)
  | registering (id counter : Nat)
  /-- `children.shutdown`. -/
  | leaving
  /-- `purge_proxy_connections`: the ids, then the counter, then one by one. -/
  | reading
  | lookingUp (ids : List Nat)
  | purging (id : Nat) (rest : List Nat) (counter : Option Nat) (taking : Taking)
  | purgeRecording (rest : List Nat) (counter : Option Nat)
  | finished
deriving DecidableEq, Repr

structure Acceptor where
  name : String
  cancelled : Bool
  phase : AcceptPhase
deriving DecidableEq, Repr

inductive ConnectionPhase where
  | running
  /-- `record_close`. -/
  | taking (taking : Taking)
  | recording
  | ended
deriving DecidableEq, Repr

/-- A connection task, with the supervisor whose child it is. -/
structure Connection where
  id : Nat
  owner : Nat
  counter : Nat
  phase : ConnectionPhase
deriving DecidableEq, Repr

/-- Who accepted a connection and which counter it raised. -/
structure AcceptedBy where
  owner : Nat
  counter : Nat
deriving DecidableEq, Repr

structure ConnectionState where
  proxies : String → Option CountedProxy
  /-- The counters, with the name of the proxy each was made for. -/
  counters : List (String × Nat)
  active : Nat
  /-- The records, each with the name of its proxy. -/
  connections : List (Nat × String)
  cancellations : List Nat
  evidence : List Nat
  acceptors : List Acceptor
  tasks : List Connection
  accepted : List AcceptedBy
  closed : List Nat
  underflow : Bool

namespace ConnectionState

def empty : ConnectionState := ⟨fun _ => none, [], 0, [], [], [], [], [], [], [], false⟩

variable (s : ConnectionState)

def setPhase (k : Nat) (phase : AcceptPhase) : ConnectionState :=
  { s with acceptors := s.acceptors.modify k fun v => { v with phase } }

def setTask (i : Nat) (phase : ConnectionPhase) : ConnectionState :=
  { s with tasks := s.tasks.modify i fun t => { t with phase } }

/-! ## Counting -/

def counterValue (c : Nat) : Nat := (s.counters[c]?.map (·.2)).getD 0

/-- `fetch_add(1)` on both counters. -/
def countOpen (c : Nat) : ConnectionState :=
  { s with
    active := s.active + 1
    counters := s.counters.modify c fun p => (p.1, p.2 + 1) }

/-- `fetch_sub(1)` on `runtime.active` and on the given counter, if there is one. -/
def countClose (id : Nat) (counter : Option Nat) : ConnectionState :=
  { s with
    active := usizePred s.active
    counters := match counter with
      | none => s.counters
      | some c => s.counters.modify c fun p => (p.1, usizePred p.2)
    closed := id :: s.closed
    underflow := s.underflow || s.active = 0 || counter.any (s.counterValue · = 0) }

/-! ## `take_connection` -/

def dropToken (id : Nat) : ConnectionState := { s with cancellations := s.cancellations.filter (· ≠ id) }

def dropRecord (id : Nat) : ConnectionState := { s with connections := s.connections.filter (·.1 ≠ id) }

def dropEvidence (id : Nat) : ConnectionState := { s with evidence := s.evidence.filter (· ≠ id) }

/-- One lock of `take_connection`, with what it awaits next. The record decides
who has won the removal. -/
def take (id : Nat) : Taking → ConnectionState × Option Taking
  | .token => (s.dropToken id, some .record)
  | .record => (s.dropRecord id, some (.evidence (s.connections.any (·.1 = id))))
  | .evidence _ => (s.dropEvidence id, none)

/-! ## Supervisors -/

/-- `accept_connection` up to its first await: both counters are raised, and
lowered again when a limit is passed. -/
def accept (limit k : Nat) (entry : CountedProxy) : ConnectionState :=
  let overGlobal := limit < s.active + 1
  let overProxy := entry.maxConnections.any (· < s.counterValue entry.counter + 1)
  if overGlobal || overProxy then s.setPhase k .looking
  else
    let id := s.accepted.length
    { (s.countOpen entry.counter).setPhase k (.inserting id entry.counter) with
      accepted := s.accepted ++ [⟨k, entry.counter⟩] }

/-- The purge turns to its next id. -/
def purgeNext (k : Nat) (ids : List Nat) (counter : Option Nat) : ConnectionState :=
  match ids with
  | [] => s.setPhase k .finished
  | id :: rest => s.setPhase k (.purging id rest counter .token)

/-- The next await of a supervisor that is not about its loop is over. -/
def advance (k : Nat) (v : Acceptor) : ConnectionState :=
  match v.phase with
  | .looking =>
    match s.proxies v.name with
    | none => s.setPhase k .leaving
    | some entry => s.setPhase k (if v.cancelled then .leaving else .waiting entry)
  | .waiting _ => if v.cancelled then s.setPhase k .leaving else s
  | .inserting id counter =>
    { s.setPhase k (.registering id counter) with connections := s.connections ++ [(id, v.name)] }
  | .registering id counter =>
    { s.setPhase k .looking with
      cancellations := s.cancellations ++ [id]
      tasks := s.tasks ++ [⟨id, k, counter, .running⟩] }
  | .leaving =>
    if s.tasks.all fun t => t.owner ≠ k || t.phase = .ended then s.setPhase k .reading else s
  | .reading =>
    match (s.connections.filter (·.2 = v.name)).map (·.1) with
    | [] => s.setPhase k .finished
    | ids => s.setPhase k (.lookingUp ids)
  | .lookingUp ids => s.purgeNext k ids ((s.proxies v.name).map (·.counter))
  | .purging id rest counter taking =>
    match taking, s.take id taking with
    | _, (s, some taking) => s.setPhase k (.purging id rest counter taking)
    | .evidence true, (s, none) => (s.countClose id counter).setPhase k (.purgeRecording rest counter)
    | _, (s, none) => s.purgeNext k rest counter
  | .purgeRecording rest counter => s.purgeNext k rest counter
  | .finished => s

/-! ## Connection tasks -/

/-- The next await of `record_close` is over. -/
def closeNext (i : Nat) (t : Connection) : ConnectionState :=
  match t.phase with
  | .running | .ended => s
  | .taking taking =>
    match taking, s.take t.id taking with
    | _, (s, some taking) => s.setTask i (.taking taking)
    | .evidence true, (s, none) => (s.countClose t.id (some t.counter)).setTask i .recording
    | _, (s, none) => s.setTask i .ended
  | .recording => s.setTask i .ended

inductive Op where
  /-- `create_proxy` or `import_definition` stores an entry. -/
  | store (name : String) (maxConnections : Option Nat)
  | limit (name : String) (maxConnections : Option Nat)
  | remove (name : String)
  | spawn (name : String)
  | cancel (k : Nat)
  /-- The listener of a waiting supervisor has a connection, or an error. -/
  | accepted (k : Nat)
  | acceptFailed (k : Nat)
  | advance (k : Nat)
  /-- `run_connection` registers its evidence. -/
  | register (i : Nat)
  /-- The connection ends and is about to be recorded. -/
  | close (i : Nat)
  | closeNext (i : Nat)
  /-- `children.shutdown` drops the task at the await it is at. -/
  | abort (i : Nat)
deriving DecidableEq, Repr

def step (limit : Nat) (s : ConnectionState) : Op → ConnectionState
  | .store name maxConnections =>
    if (s.proxies name).isSome then s
    else
      { s with
        proxies := Function.update s.proxies name (some ⟨s.counters.length, maxConnections⟩)
        counters := s.counters ++ [(name, 0)] }
  | .limit name maxConnections =>
    match s.proxies name with
    | none => s
    | some entry => { s with proxies := Function.update s.proxies name (some { entry with maxConnections }) }
  | .remove name => { s with proxies := Function.update s.proxies name none }
  | .spawn name => { s with acceptors := s.acceptors ++ [⟨name, false, .looking⟩] }
  | .cancel k => { s with acceptors := s.acceptors.modify k fun v => { v with cancelled := true } }
  | .accepted k =>
    match s.acceptors[k]? with
    | some ⟨_, _, .waiting entry⟩ => s.accept limit k entry
    | _ => s
  | .acceptFailed k =>
    match s.acceptors[k]? with
    | some ⟨_, cancelled, .waiting _⟩ => s.setPhase k (if cancelled then .leaving else .looking)
    | _ => s
  | .advance k =>
    match s.acceptors[k]? with
    | none => s
    | some v => s.advance k v
  | .register i =>
    match s.tasks[i]? with
    | some ⟨id, _, _, .running⟩ => { s with evidence := id :: s.evidence }
    | _ => s
  | .close i =>
    match s.tasks[i]? with
    | some ⟨_, _, _, .running⟩ => s.setTask i (.taking .token)
    | _ => s
  | .closeNext i =>
    match s.tasks[i]? with
    | none => s
    | some t => s.closeNext i t
  | .abort i =>
    match s.tasks[i]? with
    | none => s
    | some t =>
      match s.acceptors[t.owner]? with
      | some ⟨_, _, .leaving⟩ => s.setTask i .ended
      | _ => s

end ConnectionState

end Eggchaos
