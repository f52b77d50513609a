import Eggchaos.Connections
/-!
# Every connection is closed once

The accounting of connections as an account of opened items (`Lib.Accounts`): an
accepted connection is held by the supervisor that is inserting its record, then
by its record, then by whoever has taken the record and not counted it yet.

This is a step of that account (`step_book`) unless a purge reads records of
another supervisor of the same name, finds the counter of another entry, or a
task is aborted between the removal of its record and its decrements. In runs
without such steps every connection is closed exactly once, no counter wraps and
the counters are the numbers of records (`connections_closed_once`).
-/

namespace Eggchaos
open Lib Lib.Accounts

/-! ## Who holds a connection -/

/-- A supervisor holds the connection whose record it is about to insert, or has
purged and not counted yet. -/
def Acceptor.held (v : Acceptor) : Option Item :=
  match v.phase with
  | .inserting id counter => some ⟨id, some counter⟩
  | .purging id _ counter (.evidence true) => some ⟨id, counter⟩
  | _ => none

/-- A task holds its connection between the removal of the record and the
decrements. -/
def Connection.held (t : Connection) : Option Item :=
  match t.phase with
  | .taking (.evidence true) => some ⟨t.id, some t.counter⟩
  | _ => none

/-- The ids whose records a purge has still to take, once it has read them. -/
def AcceptPhase.remaining : AcceptPhase → Option (List Nat)
  | .lookingUp ids => some ids
  | .purging _ rest _ (.evidence _) => some rest
  | .purging id rest _ _ => some (id :: rest)
  | .purgeRecording rest _ => some rest
  | .finished => some []
  | .looking | .waiting _ | .inserting _ _ | .registering _ _ | .leaving | .reading => none

/-- The children of the supervisor have been shut down. -/
def AcceptPhase.childless : AcceptPhase → Bool
  | .reading | .lookingUp _ | .purging _ _ _ _ | .purgeRecording _ _ | .finished => true
  | .looking | .waiting _ | .inserting _ _ | .registering _ _ | .leaving => false

namespace ConnectionState

variable (s : ConnectionState)

/-- The debt of a record. -/
def recordItem (p : Nat × String) : Item := ⟨p.1, (s.accepted[p.1]?).map (·.counter)⟩

/-- The name a counter was made for. -/
def counterName (c : Nat) : Option String := (s.counters[c]?).map (·.1)

/-- The counter is an entry's. -/
def Known (c : Nat) : Prop := ∃ name entry, s.proxies name = some entry ∧ entry.counter = c

def book : Book where
  held := (s.connections.map s.recordItem : List Item) + (s.acceptors.filterMap Acceptor.held : List Item) +
    (s.tasks.filterMap Connection.held : List Item)
  closed := s.closed
  opened := s.accepted.length
  total := s.active
  counter := s.counterValue
  made := s.counters.length
  known := { c | s.Known c }
  wrapped := s.underflow

/-- The supervisor accepted all these connections. -/
def Mine (k : Nat) (ids : List Nat) : Prop := ∀ id ∈ ids, ∃ c, s.accepted[id]? = some ⟨k, c⟩

/-- The counter that a purge has found is that of the connections; if it found
none, theirs is no entry's. -/
def Finds (counter : Option Nat) (ids : List Nat) : Prop :=
  ∀ id ∈ ids, ∀ a, s.accepted[id]? = some a →
    (∀ c, counter = some c → a.counter = c) ∧ (counter = none → ¬ s.Known a.counter)

/-- What a supervisor relies on where it is. -/
def PhaseOk (k : Nat) (name : String) : AcceptPhase → Prop
  | .waiting entry => s.counterName entry.counter = some name
  | .inserting id counter | .registering id counter => s.accepted[id]? = some ⟨k, counter⟩
  | .lookingUp ids => s.Mine k ids
  | .purging id rest counter _ => s.Mine k (id :: rest) ∧ s.Finds counter (id :: rest)
  | .purgeRecording rest counter => s.Mine k rest ∧ s.Finds counter rest
  | .looking | .leaving | .reading | .finished => True

/-- Records, tasks and supervisors agree on who accepted what. -/
structure Owned : Prop where
  entry : ∀ name entry, s.proxies name = some entry → s.counterName entry.counter = some name
  origin : ∀ (id : Nat) (a : AcceptedBy), s.accepted[id]? = some a →
    ∃ v : Acceptor, s.acceptors[a.owner]? = some v ∧ s.counterName a.counter = some v.name
  record : ∀ (id : Nat) (name : String), (id, name) ∈ s.connections → ∃ (a : AcceptedBy) (v : Acceptor), s.accepted[id]? = some a ∧
    s.acceptors[a.owner]? = some v ∧ v.name = name ∧ ∀ ids, v.phase.remaining = some ids → id ∈ ids
  acceptor : ∀ (k : Nat) (v : Acceptor), s.acceptors[k]? = some v → s.PhaseOk k v.name v.phase
  task : ∀ t ∈ s.tasks, s.accepted[t.id]? = some ⟨t.owner, t.counter⟩ ∧
    ∀ v : Acceptor, s.acceptors[t.owner]? = some v → v.phase.childless → t.phase = .ended

variable {s} {s' : ConnectionState}

theorem phaseOk_congr (hp : s'.proxies = s.proxies) (hn : s'.counterName = s.counterName)
    (hacc : s'.accepted = s.accepted) (k : Nat) (name : String) (phase : AcceptPhase) :
    s'.PhaseOk k name phase ↔ s.PhaseOk k name phase := by
  cases phase <;> simp only [PhaseOk, Mine, Finds, Known, hp, hn, hacc]

/-- What no supervisor and no task relies on may change; records may go. -/
theorem Owned.congr (h : s.Owned) (hp : s'.proxies = s.proxies) (hn : s'.counterName = s.counterName)
    (hacc : s'.accepted = s.accepted) (hc : ∀ p ∈ s'.connections, p ∈ s.connections)
    (ha : s'.acceptors = s.acceptors) (ht : s'.tasks = s.tasks) : s'.Owned where
  entry := by
    rw [hp, hn]
    exact h.entry
  origin := by
    rw [hacc, ha, hn]
    exact h.origin
  record := by
    intro id name hmem
    rw [hacc, ha]
    exact h.record id name (hc _ hmem)
  acceptor := by
    intro k v hv
    rw [phaseOk_congr hp hn hacc]
    rw [ha] at hv
    exact h.acceptor k v hv
  task := by
    rw [ht, hacc, ha]
    exact h.task

/-- Entries may change as long as each refers to a counter of its own name, and
counters in use do not come back. -/
theorem Owned.reproxy (h : s.Owned) (hn : ∀ c name, s.counterName c = some name → s'.counterName c = some name)
    (hentry : ∀ name entry, s'.proxies name = some entry → s'.counterName entry.counter = some name)
    (hknown : ∀ c, s'.Known c → s.Known c ∨ s.counterName c = none)
    (hacc : s'.accepted = s.accepted) (hc : s'.connections = s.connections)
    (ha : s'.acceptors = s.acceptors) (ht : s'.tasks = s.tasks) : s'.Owned where
  entry := hentry
  origin := by
    rw [hacc, ha]
    intro id a hid
    obtain ⟨v, hv, hname⟩ := h.origin id a hid
    exact ⟨v, hv, hn _ _ hname⟩
  record := by
    rw [hacc, ha, hc]
    exact h.record
  acceptor := by
    rw [ha]
    intro k v hv
    have hmine : ∀ ids, s.Mine k ids → s'.Mine k ids := by
      intro ids hids id hid
      rw [hacc]
      exact hids id hid
    have hfinds : ∀ counter ids, s.Finds counter ids → s'.Finds counter ids := by
      intro counter ids hids id hid a ha
      rw [hacc] at ha
      refine ⟨(hids id hid a ha).1, fun hnone hk => ?_⟩
      rcases hknown _ hk with hold | hnew
      · exact (hids id hid a ha).2 hnone hold
      · obtain ⟨w, -, hname⟩ := h.origin id a ha
        rw [hnew] at hname
        cases hname
    have hok := h.acceptor k v hv
    cases hphase : v.phase with
    | waiting entry =>
      rw [hphase] at hok
      exact hn _ _ hok
    | inserting id counter | registering id counter =>
      rw [hphase] at hok
      exact (congrArg (·[id]?) hacc).trans hok
    | lookingUp ids =>
      rw [hphase] at hok
      exact hmine ids hok
    | purging id rest counter taking =>
      rw [hphase] at hok
      exact ⟨hmine _ hok.1, hfinds _ _ hok.2⟩
    | purgeRecording rest counter =>
      rw [hphase] at hok
      exact ⟨hmine _ hok.1, hfinds _ _ hok.2⟩
    | looking | leaving | reading | finished => trivial
  task := by
    rw [ht, hacc, ha]
    exact h.task

/-- A supervisor goes on, to a phase whose needs are met. -/
theorem Owned.modifyAcceptor (h : s.Owned) {k : Nat} {f : Acceptor → Acceptor} (hname : ∀ v, (f v).name = v.name)
    (hok : ∀ v, s.acceptors[k]? = some v → s.PhaseOk k v.name (f v).phase)
    (hrem : ∀ v ids, s.acceptors[k]? = some v → (f v).phase.remaining = some ids →
      ∀ id name c, (id, name) ∈ s.connections → s.accepted[id]? = some ⟨k, c⟩ → id ∈ ids)
    (hchild : ∀ v, s.acceptors[k]? = some v → (f v).phase.childless →
      ∀ t ∈ s.tasks, t.owner = k → t.phase = .ended) :
    Owned { s with acceptors := s.acceptors.modify k f } where
  entry := h.entry
  origin := by
    intro id a ha
    obtain ⟨v, hv, hcounter⟩ := h.origin id a ha
    simp only [List.getElem?_modify, hv, Option.map_eq_map, Option.map_some, Option.some.injEq, exists_eq_left']
    split
    · exact (hname v).symm ▸ hcounter
    · exact hcounter
  record := by
    intro id name hmem
    obtain ⟨a, v, ha, hv, hvname, hids⟩ := h.record id name hmem
    simp only [List.getElem?_modify]
    by_cases howner : k = a.owner
    · refine ⟨a, f v, ha, by simp [howner, hv], (hname v).trans hvname, ?_⟩
      subst howner
      intro ids hrest
      exact hrem v ids hv hrest id name a.counter hmem ha
    · exact ⟨a, v, ha, by simp [howner, hv], hvname, hids⟩
  acceptor := by
    intro j w hw
    simp only [List.getElem?_modify] at hw
    obtain ⟨v, hv, rfl⟩ := Option.map_eq_some_iff.1 hw
    change s.PhaseOk j _ _
    split
    · next hkj =>
      subst hkj
      rw [hname]
      exact hok v hv
    · exact h.acceptor j v hv
  task := by
    intro t ht
    obtain ⟨hacc, hended⟩ := h.task t ht
    refine ⟨hacc, ?_⟩
    intro w hw hless
    simp only [List.getElem?_modify] at hw
    obtain ⟨v, hv, rfl⟩ := Option.map_eq_some_iff.1 hw
    by_cases howner : k = t.owner
    · subst howner
      rw [if_pos rfl] at hless
      exact hchild v hv hless t ht rfl
    · rw [if_neg howner] at hless
      exact hended v hv hless

/-- A task goes on. -/
theorem Owned.setTask (h : s.Owned) (i : Nat) {phase : ConnectionPhase}
    (hended : ∀ t, s.tasks[i]? = some t → t.phase = .ended → phase = .ended) : (s.setTask i phase).Owned where
  entry := h.entry
  origin := h.origin
  record := h.record
  acceptor := h.acceptor
  task := by
    intro t' ht'
    obtain ⟨j, hj⟩ := List.mem_iff_getElem?.1 ht'
    simp only [ConnectionState.setTask, List.getElem?_modify] at hj
    obtain ⟨t, ht, rfl⟩ := Option.map_eq_some_iff.1 hj
    obtain ⟨hacc, hless⟩ := h.task t (List.mem_of_getElem? ht)
    split
    · next hij =>
      subst hij
      exact ⟨hacc, fun v hv hc => hended t ht (hless v hv hc)⟩
    · exact ⟨hacc, hless⟩

/-- A phase in which a supervisor has not shut its children down, and neither
reads nor purges. -/
theorem Owned.setPhase (h : s.Owned) {k : Nat} {phase : AcceptPhase}
    (hok : ∀ v, s.acceptors[k]? = some v → s.PhaseOk k v.name phase) (hrem : phase.remaining = none)
    (hchild : phase.childless = false) : (s.setPhase k phase).Owned := by
  refine h.modifyAcceptor (fun v => rfl) hok ?_ ?_
  · intro v ids hv hids
    rw [hrem] at hids
    cases hids
  · intro v hv hless
    rw [hchild] at hless
    cases hless

theorem Owned.spawn (h : s.Owned) (name : String) :
    Owned { s with acceptors := s.acceptors ++ [⟨name, false, .looking⟩] } where
  entry := h.entry
  origin := by
    intro id a ha
    obtain ⟨v, hv, hname⟩ := h.origin id a ha
    exact ⟨v, List.getElem?_append_left (List.getElem?_eq_some_iff.1 hv).1 ▸ hv, hname⟩
  record := by
    intro id name hmem
    obtain ⟨a, v, ha, hv, hrest⟩ := h.record id name hmem
    exact ⟨a, v, ha, List.getElem?_append_left (List.getElem?_eq_some_iff.1 hv).1 ▸ hv, hrest⟩
  acceptor := by
    intro k v hv
    change s.PhaseOk k v.name v.phase
    rcases Nat.lt_or_ge k s.acceptors.length with hlt | hge
    · rw [List.getElem?_append_left hlt] at hv
      exact h.acceptor k v hv
    · rw [List.getElem?_append_right hge] at hv
      obtain ⟨_, heq⟩ := List.getElem?_eq_some_iff.1 hv
      simp only [List.getElem_singleton] at heq
      subst heq
      trivial
  task := by
    intro t ht
    obtain ⟨hacc, hended⟩ := h.task t ht
    refine ⟨hacc, ?_⟩
    intro v hv hless
    obtain ⟨w, hw, -⟩ := h.origin t.id _ hacc
    rw [List.getElem?_append_left (List.getElem?_eq_some_iff.1 hw).1] at hv
    exact hended v hv hless

/-- A connection is accepted by a supervisor, with the counter of the entry it
read. -/
theorem Owned.accepted (h : s.Owned) {k c : Nat} {v : Acceptor} (hv : s.acceptors[k]? = some v)
    (hc : s.counterName c = some v.name) : Owned { s with accepted := s.accepted ++ [⟨k, c⟩] } := by
  have hget : ∀ {id : Nat} {a : AcceptedBy}, s.accepted[id]? = some a → (s.accepted ++ [⟨k, c⟩])[id]? = some a := by
    intro id a ha
    rw [List.getElem?_append_left (List.getElem?_eq_some_iff.1 ha).1]
    exact ha
  have hmine : ∀ {j : Nat} {ids : List Nat}, s.Mine j ids →
      Mine { s with accepted := s.accepted ++ [⟨k, c⟩] } j ids := by
    intro j ids hids id hid
    obtain ⟨c', hc'⟩ := hids id hid
    exact ⟨c', hget hc'⟩
  have hfinds : ∀ {j : Nat} {counter : Option Nat} {ids : List Nat}, s.Mine j ids → s.Finds counter ids →
      Finds { s with accepted := s.accepted ++ [⟨k, c⟩] } counter ids := by
    intro j counter ids hids hf id hid a ha
    obtain ⟨c', hc'⟩ := hids id hid
    have heq : a = ⟨j, c'⟩ := Option.some.inj (ha.symm.trans (hget hc'))
    exact hf id hid a (heq ▸ hc')
  constructor
  case entry => exact h.entry
  case origin =>
    intro id a ha
    rcases Nat.lt_or_ge id s.accepted.length with hlt | hge
    · rw [List.getElem?_append_left hlt] at ha
      exact h.origin id a ha
    · rw [List.getElem?_append_right hge] at ha
      obtain ⟨_, heq⟩ := List.getElem?_eq_some_iff.1 ha
      simp only [List.getElem_singleton] at heq
      subst heq
      exact ⟨v, hv, hc⟩
  case record =>
    intro id name hmem
    obtain ⟨a, w, ha, hrest⟩ := h.record id name hmem
    exact ⟨a, w, hget ha, hrest⟩
  case acceptor =>
    intro j w hw
    have hok := h.acceptor j w hw
    cases hphase : w.phase with
    | waiting entry =>
      rw [hphase] at hok
      exact hok
    | inserting id counter | registering id counter =>
      rw [hphase] at hok
      exact hget hok
    | lookingUp ids =>
      rw [hphase] at hok
      exact hmine hok
    | purging id rest counter taking =>
      rw [hphase] at hok
      exact ⟨hmine hok.1, hfinds hok.1 hok.2⟩
    | purgeRecording rest counter =>
      rw [hphase] at hok
      exact ⟨hmine hok.1, hfinds hok.1 hok.2⟩
    | looking | leaving | reading | finished => trivial
  case task =>
    intro t ht
    obtain ⟨hacc, hended⟩ := h.task t ht
    exact ⟨hget hacc, hended⟩

/-- The record of an accepted connection is inserted while its supervisor is not
purging. -/
theorem Owned.insertRecord (h : s.Owned) {k id c : Nat} {v : Acceptor} (hv : s.acceptors[k]? = some v)
    (hacc : s.accepted[id]? = some ⟨k, c⟩) (hrem : v.phase.remaining = none) :
    Owned { s with connections := s.connections ++ [(id, v.name)] } where
  entry := h.entry
  origin := h.origin
  record := by
    intro id' name hmem
    rcases List.mem_append.1 hmem with hold | hnew
    · exact h.record id' name hold
    · obtain ⟨rfl, rfl⟩ := Prod.mk.inj (List.mem_singleton.1 hnew)
      refine ⟨_, v, hacc, hv, rfl, ?_⟩
      intro ids hids
      rw [hrem] at hids
      cases hids
  acceptor := h.acceptor
  task := h.task

theorem Owned.addTask (h : s.Owned) {k id c : Nat} {v : Acceptor} (hv : s.acceptors[k]? = some v)
    (hacc : s.accepted[id]? = some ⟨k, c⟩) (hless : v.phase.childless = false) :
    Owned { s with tasks := s.tasks ++ [⟨id, k, c, .running⟩] } where
  entry := h.entry
  origin := h.origin
  record := h.record
  acceptor := h.acceptor
  task := by
    intro t ht
    rcases List.mem_append.1 ht with hold | hnew
    · exact h.task t hold
    · rw [List.mem_singleton.1 hnew]
      refine ⟨hacc, ?_⟩
      intro w hw hw'
      rw [hv] at hw
      cases hw
      rw [hless] at hw'
      cases hw'

/-! ## Steps that keep it -/

theorem counterName_modify (s : ConnectionState) (c : Nat) (g : Nat → Nat) :
    counterName { s with counters := s.counters.modify c fun p => (p.1, g p.2) } = s.counterName := by
  funext c'
  simp only [counterName, List.getElem?_modify]
  cases s.counters[c']? with
  | none => rfl
  | some p =>
    by_cases hc : c = c'
    · simp [hc]
    · simp [hc]

theorem Owned.countClose (h : s.Owned) (id : Nat) (counter : Option Nat) : (s.countClose id counter).Owned := by
  refine h.congr rfl ?_ rfl (fun p hp => hp) rfl rfl
  cases counter with
  | none => rfl
  | some c => exact s.counterName_modify c usizePred

/-- What is left of a supervisor's records is what its purge has still to take. -/
theorem Owned.remaining (h : s.Owned) {k : Nat} {v : Acceptor} (hv : s.acceptors[k]? = some v) (ids : List Nat)
    (hids : v.phase.remaining = some ids) :
    ∀ id name c, (id, name) ∈ s.connections → s.accepted[id]? = some ⟨k, c⟩ → id ∈ ids := by
  intro id name c hmem hacc
  obtain ⟨a, w, ha, hw, -, hrest⟩ := h.record id name hmem
  rw [hacc] at ha
  cases ha
  rw [hv] at hw
  cases hw
  exact hrest ids hids

/-- A supervisor goes on behind the end of its children. -/
theorem Owned.repurge (h : s.Owned) {k : Nat} {v : Acceptor} (hv : s.acceptors[k]? = some v) (hless : v.phase.childless)
    {phase : AcceptPhase} (hok : s.PhaseOk k v.name phase)
    (hrem : ∀ ids, phase.remaining = some ids →
      ∀ id name c, (id, name) ∈ s.connections → s.accepted[id]? = some ⟨k, c⟩ → id ∈ ids) :
    (s.setPhase k phase).Owned := by
  refine h.modifyAcceptor (fun v => rfl) ?_ (fun _ ids _ => hrem ids) ?_
  · intro w hw
    rw [hv] at hw
    cases hw
    exact hok
  · intro w hw _ t ht howner
    subst howner
    exact (h.task t ht).2 v hv hless

theorem Owned.purgeNext (h : s.Owned) {k : Nat} {v : Acceptor} (hv : s.acceptors[k]? = some v)
    (hless : v.phase.childless) {ids : List Nat} {counter : Option Nat} (hmine : s.Mine k ids)
    (hfinds : s.Finds counter ids)
    (hids : ∀ id name c, (id, name) ∈ s.connections → s.accepted[id]? = some ⟨k, c⟩ → id ∈ ids) :
    (s.purgeNext k ids counter).Owned := by
  unfold ConnectionState.purgeNext
  split
  · refine h.repurge hv hless trivial ?_
    rintro _ ⟨rfl⟩
    exact hids
  · refine h.repurge hv hless ⟨hmine, hfinds⟩ ?_
    rintro _ ⟨rfl⟩
    exact hids

/-- A purge reads the records of its own connections only, and finds their
counter: no other supervisor of the name is unfinished when the ids are read,
and the entry is still theirs when the counter is. -/
def PurgesOwn (s : ConnectionState) (k : Nat) (v : Acceptor) : Prop :=
  match v.phase with
  | .reading => ∀ j < s.acceptors.length, j ≠ k →
    s.acceptors[j]?.all fun w => w.name ≠ v.name || w.phase = .finished
  | .lookingUp ids => ∀ id ∈ ids, ∀ entry ∈ s.proxies v.name, (s.accepted[id]?).map (·.counter) = some entry.counter
  | _ => True

instance (s : ConnectionState) (k : Nat) (v : Acceptor) : Decidable (s.PurgesOwn k v) := by
  unfold PurgesOwn
  split <;> infer_instance

/-- What a step needs: a purge keeps to its own supervisor's connections, and no
task is aborted between the removal of its record and its decrements. -/
def Careful (s : ConnectionState) : Op → Prop
  | .advance k => ∀ v ∈ s.acceptors[k]?, s.PurgesOwn k v
  | .abort i => ∀ t ∈ s.tasks[i]?, t.phase ≠ .taking (.evidence true)
  | _ => True

instance (s : ConnectionState) (o : Op) : Decidable (s.Careful o) := by
  cases o <;> unfold Careful <;> infer_instance

/-- The ids that a purge reads are its own supervisor's. -/
theorem Owned.reads (h : s.Owned) {k : Nat} {v : Acceptor} (hphase : v.phase = .reading) (hown : s.PurgesOwn k v) :
    s.Mine k ((s.connections.filter (·.2 = v.name)).map (·.1)) := by
  intro id hid
  obtain ⟨⟨id', name⟩, hp, rfl⟩ := List.mem_map.1 hid
  obtain ⟨hmem, hname⟩ := List.mem_filter.1 hp
  obtain ⟨a, w, ha, hw, hwname, hrest⟩ := h.record id' name hmem
  refine ⟨a.counter, ?_⟩
  by_cases howner : a.owner = k
  · rw [ha, ← howner]
  · -- another supervisor of the name has finished, so nothing of it is left
    simp only [PurgesOwn, hphase] at hown
    have hfin := hown a.owner (List.getElem?_eq_some_iff.1 hw).1 howner
    simp only [decide_eq_true_eq] at hname
    simp only [hw, Option.all_some, hwname, hname, ne_eq, not_true, decide_false, Bool.false_or,
      decide_eq_true_eq] at hfin
    have := hrest [] (by rw [hfin]; rfl)
    cases this

/-- The counter under the name is that of the supervisor's connections, or none
of an entry. -/
theorem Owned.looksUp (h : s.Owned) {k : Nat} {v : Acceptor} (hv : s.acceptors[k]? = some v) {ids : List Nat}
    (hphase : v.phase = .lookingUp ids) (hown : s.PurgesOwn k v) :
    s.Finds ((s.proxies v.name).map (·.counter)) ids := by
  have hmine : s.Mine k ids := by
    have hok := h.acceptor k v hv
    rw [hphase] at hok
    exact hok
  simp only [PurgesOwn, hphase] at hown
  intro id hid a ha
  constructor
  · intro c hc
    obtain ⟨entry, hentry, rfl⟩ := Option.map_eq_some_iff.1 hc
    have := hown id hid entry hentry
    rw [ha] at this
    exact Option.some.inj this
  · rintro hnone ⟨name, entry, hentry, hcounter⟩
    obtain ⟨c, hc⟩ := hmine id hid
    rw [hc] at ha
    cases ha
    obtain ⟨w, hw, hname⟩ := h.origin id _ hc
    rw [hv] at hw
    cases hw
    have hsame := h.entry name entry hentry
    rw [hcounter, hname] at hsame
    cases hsame
    simp [hentry] at hnone

theorem advance_owned (h : s.Owned) {k : Nat} {v : Acceptor} (hv : s.acceptors[k]? = some v) (hown : s.PurgesOwn k v) :
    (s.advance k v).Owned := by
  have hok := h.acceptor k v hv
  have same : ∀ {w : Acceptor}, s.acceptors[k]? = some w → w = v := by
    intro w hw
    rw [hv] at hw
    exact (Option.some.inj hw).symm
  unfold ConnectionState.advance
  cases hphase : v.phase with
  | looking =>
    dsimp only
    split
    · exact h.setPhase (fun _ _ => trivial) rfl rfl
    · next entry hentry =>
      split
      · exact h.setPhase (fun _ _ => trivial) rfl rfl
      · refine h.setPhase (fun w hw => ?_) rfl rfl
        rw [same hw]
        exact h.entry v.name entry hentry
  | waiting entry =>
    dsimp only
    split
    · exact h.setPhase (fun _ _ => trivial) rfl rfl
    · exact h
  | inserting id counter =>
    rw [hphase] at hok
    have hins := h.insertRecord hv hok (by rw [hphase]; rfl)
    exact hins.setPhase (fun _ _ => hok) rfl rfl
  | registering id counter =>
    rw [hphase] at hok
    have htask := h.addTask hv hok (by rw [hphase]; rfl)
    have hset : (ConnectionState.setPhase _ k .looking).Owned := htask.setPhase (fun _ _ => trivial) rfl rfl
    exact hset.congr rfl rfl rfl (fun p hp => hp) rfl rfl
  | leaving =>
    dsimp only
    split
    · next hall =>
      refine h.modifyAcceptor (fun v => rfl) (fun _ _ => trivial) (fun _ _ _ hids => ?_) ?_
      · cases hids
      · intro w hw _ t ht howner
        have := List.all_eq_true.1 hall t ht
        simpa [howner] using this
    · exact h
  | reading =>
    have hmine := h.reads hphase hown
    -- every record of the supervisor is under its name
    have hall : ∀ id name c, (id, name) ∈ s.connections → s.accepted[id]? = some ⟨k, c⟩ →
        id ∈ (s.connections.filter (·.2 = v.name)).map (·.1) := by
      intro id name c hmem hacc
      obtain ⟨a, w, ha, hw, hname, -⟩ := h.record id name hmem
      rw [hacc] at ha
      cases ha
      rw [same hw] at hname
      refine List.mem_map.2 ⟨(id, name), List.mem_filter.2 ⟨hmem, ?_⟩, rfl⟩
      simp [hname]
    have hless : v.phase.childless := by rw [hphase]; rfl
    dsimp only
    split
    · next hnil =>
      rw [hnil] at hall
      refine h.repurge hv hless trivial ?_
      rintro _ ⟨rfl⟩
      exact hall
    · refine h.repurge hv hless hmine ?_
      rintro _ ⟨rfl⟩
      exact hall
  | lookingUp ids =>
    have hless : v.phase.childless := by rw [hphase]; rfl
    have hrem := h.remaining hv ids (by rw [hphase]; rfl)
    have hfinds := h.looksUp hv hphase hown
    rw [hphase] at hok
    exact h.purgeNext hv hless hok hfinds hrem
  | purging id rest counter taking =>
    have hless : v.phase.childless := by rw [hphase]; rfl
    cases taking with
    | token =>
      have hrem := h.remaining hv (id :: rest) (by rw [hphase]; rfl)
      rw [hphase] at hok
      have hdrop : (s.dropToken id).Owned := h.congr rfl rfl rfl (fun p hp => hp) rfl rfl
      refine hdrop.repurge hv hless hok ?_
      rintro _ ⟨rfl⟩
      exact hrem
    | record =>
      have hrem := h.remaining hv (id :: rest) (by rw [hphase]; rfl)
      rw [hphase] at hok
      have hdrop : (s.dropRecord id).Owned := h.congr rfl rfl rfl (fun p hp => List.mem_of_mem_filter hp) rfl rfl
      refine hdrop.repurge hv hless hok ?_
      rintro _ ⟨rfl⟩ id' name c hmem hacc
      obtain ⟨hmem', hne⟩ := List.mem_filter.1 hmem
      simp only [ne_eq, decide_eq_true_eq] at hne
      exact (List.mem_cons.1 (hrem id' name c hmem' hacc)).resolve_left hne
    | evidence taken =>
      have hrem := h.remaining hv rest (by rw [hphase]; rfl)
      rw [hphase] at hok
      have hmine : s.Mine k rest := fun id' hid' => hok.1 id' (List.mem_cons_of_mem _ hid')
      have hfinds : s.Finds counter rest := fun id' hid' => hok.2 id' (List.mem_cons_of_mem _ hid')
      have hdrop : (s.dropEvidence id).Owned := h.congr rfl rfl rfl (fun p hp => hp) rfl rfl
      cases taken with
      | false => exact hdrop.purgeNext hv hless hmine hfinds hrem
      | true =>
        refine (hdrop.countClose id counter).repurge hv hless ⟨hmine, hfinds⟩ ?_
        rintro _ ⟨rfl⟩
        exact hrem
  | purgeRecording rest counter =>
    have hless : v.phase.childless := by rw [hphase]; rfl
    have hrem := h.remaining hv rest (by rw [hphase]; rfl)
    rw [hphase] at hok
    exact h.purgeNext hv hless hok.1 hok.2 hrem
  | finished => exact h

theorem closeNext_owned (h : s.Owned) {i : Nat} {t : Connection} (ht : s.tasks[i]? = some t) : (s.closeNext i t).Owned := by
  -- a task that is not over goes on
  have go : ∀ {s' : ConnectionState} {phase : ConnectionPhase}, s'.Owned → s'.tasks = s.tasks → t.phase ≠ .ended →
      (s'.setTask i phase).Owned := by
    intro s' phase hs' htasks hlive
    refine hs'.setTask i fun t' ht' hended => ?_
    rw [htasks, ht] at ht'
    cases ht'
    exact absurd hended hlive
  unfold ConnectionState.closeNext
  cases hphase : t.phase with
  | running | ended => exact h
  | taking taking =>
    have hlive : t.phase ≠ .ended := by rw [hphase]; nofun
    cases taking with
    | token => exact go (h.congr rfl rfl rfl (fun p hp => hp) rfl rfl) rfl hlive
    | record => exact go (h.congr rfl rfl rfl (fun p hp => List.mem_of_mem_filter hp) rfl rfl) rfl hlive
    | evidence taken =>
      have hdrop : (s.dropEvidence t.id).Owned := h.congr rfl rfl rfl (fun p hp => hp) rfl rfl
      cases taken with
      | false => exact go hdrop rfl hlive
      | true => exact go (hdrop.countClose t.id (some t.counter)) rfl hlive
  | recording => exact h.setTask i fun _ _ _ => rfl

theorem accept_owned (h : s.Owned) (limit : Nat) {k : Nat} {v : Acceptor} {entry : CountedProxy}
    (hv : s.acceptors[k]? = some v) (hphase : v.phase = .waiting entry) : (s.accept limit k entry).Owned := by
  have hok := h.acceptor k v hv
  rw [hphase] at hok
  unfold ConnectionState.accept
  dsimp only
  split
  · exact h.setPhase (fun _ _ => trivial) rfl rfl
  · have hcount : (s.countOpen entry.counter).Owned :=
      h.congr rfl (s.counterName_modify entry.counter (· + 1)) rfl (fun p hp => hp) rfl rfl
    have hname : (s.countOpen entry.counter).counterName entry.counter = some v.name :=
      (congrFun (s.counterName_modify entry.counter (· + 1)) entry.counter).trans hok
    have hacc := hcount.accepted hv hname
    refine hacc.setPhase (fun _ _ => ?_) rfl rfl
    simp [PhaseOk, countOpen]

theorem counterName_append (s : ConnectionState) (name : String) (n c : Nat) :
    counterName { s with counters := s.counters ++ [(name, n)] } c =
      if c = s.counters.length then some name else s.counterName c := by
  simp only [counterName]
  rcases Nat.lt_trichotomy c s.counters.length with hlt | rfl | hgt
  · rw [List.getElem?_append_left hlt, if_neg hlt.ne]
  · simp
  · rw [if_neg hgt.ne', List.getElem?_eq_none (by simp; omega), List.getElem?_eq_none hgt.le]

theorem counterName_lt {c : Nat} {name : String} (h : s.counterName c = some name) : c < s.counters.length := by
  obtain ⟨p, hp, -⟩ := Option.map_eq_some_iff.1 h
  exact (List.getElem?_eq_some_iff.1 hp).1

theorem step_owned (h : s.Owned) (limit : Nat) {o : Op} (hok : s.Careful o) : (s.step limit o).Owned := by
  cases o with
  | store name maxConnections =>
    simp only [step]
    split
    · exact h
    · have hn : ∀ c, counterName { s with
          proxies := Function.update s.proxies name (some ⟨s.counters.length, maxConnections⟩)
          counters := s.counters ++ [(name, 0)] } c = if c = s.counters.length then some name else s.counterName c :=
        s.counterName_append name 0
      refine h.reproxy ?_ ?_ ?_ rfl rfl rfl rfl
      · intro c n hc
        rw [hn, if_neg (counterName_lt hc).ne]
        exact hc
      · intro n entry hentry
        rw [hn]
        by_cases hname : n = name
        · simp only [hname, Function.update_self, Option.some.injEq] at hentry
          rw [← hentry, if_pos rfl, hname]
        · simp only [Function.update_of_ne hname] at hentry
          have hold := h.entry n entry hentry
          rw [if_neg (counterName_lt hold).ne]
          exact hold
      · rintro c ⟨n, entry, hentry, rfl⟩
        by_cases hname : n = name
        · simp only [hname, Function.update_self, Option.some.injEq] at hentry
          refine .inr ?_
          rw [← hentry]
          simp [counterName]
        · simp only [Function.update_of_ne hname] at hentry
          exact .inl ⟨n, entry, hentry, rfl⟩
  | limit name maxConnections =>
    simp only [step]
    split
    · exact h
    · next entry hget =>
      -- the entry keeps its counter
      have hold : ∀ n e, Function.update s.proxies name (some { entry with maxConnections }) n = some e →
          ∃ e', s.proxies n = some e' ∧ e'.counter = e.counter := by
        intro n e he
        by_cases hname : n = name
        · subst hname
          rw [Function.update_self] at he
          cases he
          exact ⟨entry, hget, rfl⟩
        · rw [Function.update_of_ne hname] at he
          exact ⟨e, he, rfl⟩
      refine h.reproxy (fun _ _ hc => hc) ?_ ?_ rfl rfl rfl rfl
      · intro n e he
        obtain ⟨e', he', hcounter⟩ := hold n e he
        rw [← hcounter]
        exact h.entry n e' he'
      · rintro c ⟨n, e, he, rfl⟩
        obtain ⟨e', he', hcounter⟩ := hold n e he
        exact .inl ⟨n, e', he', hcounter⟩
  | remove name =>
    have hold : ∀ n e, Function.update s.proxies name none n = some e → s.proxies n = some e := by
      intro n e he
      by_cases hname : n = name
      · subst hname
        rw [Function.update_self] at he
        cases he
      · rwa [Function.update_of_ne hname] at he
    refine h.reproxy (fun _ _ hc => hc) ?_ ?_ rfl rfl rfl rfl
    · intro n e he
      exact h.entry n e (hold n e he)
    · rintro c ⟨n, e, he, rfl⟩
      exact .inl ⟨n, e, hold n e he, rfl⟩
  | spawn name => exact h.spawn name
  | cancel k =>
    refine h.modifyAcceptor (fun v => rfl) (fun v hv => h.acceptor k v hv) (fun v ids hv hids => ?_) ?_
    · exact h.remaining hv ids hids
    · intro v hv hless t ht howner
      subst howner
      exact (h.task t ht).2 v hv hless
  | accepted k =>
    simp only [step]
    split
    · next hv => exact accept_owned h limit hv rfl
    · exact h
  | acceptFailed k =>
    simp only [step]
    split
    · split
      · exact h.setPhase (fun _ _ => trivial) rfl rfl
      · exact h.setPhase (fun _ _ => trivial) rfl rfl
    · exact h
  | advance k =>
    simp only [step]
    split
    · exact h
    · next v hv => exact advance_owned h hv (hok v hv)
  | register i =>
    simp only [step]
    split
    · exact h.congr rfl rfl rfl (fun p hp => hp) rfl rfl
    · exact h
  | close i =>
    simp only [step]
    split
    · next ht =>
      refine h.setTask i fun t ht' hended => ?_
      rw [ht] at ht'
      cases ht'
      cases hended
    · exact h
  | closeNext i =>
    simp only [step]
    split
    · exact h
    · next t ht => exact closeNext_owned h ht
  | abort i =>
    simp only [step]
    split
    · exact h
    · split
      · exact h.setTask i fun _ _ _ => rfl
      · exact h

/-! ## The book -/

/-- A supervisor goes on and holds something else. -/
theorem held_setPhase {k : Nat} {v : Acceptor} (hv : s.acceptors[k]? = some v) (phase : AcceptPhase) :
    (s.setPhase k phase).book.held + (v.held.toList : Multiset Item) =
      s.book.held + ((Acceptor.held { v with phase }).toList : Multiset Item) := by
  have hmod := coe_filterMap_modify Acceptor.held (fun v => { v with phase }) hv
  simp only [book, setPhase]
  rw [add_right_comm, add_assoc (Multiset.ofList (List.map _ _)), hmod, ← add_assoc, add_right_comm]
  rfl

theorem held_setTask {i : Nat} {t : Connection} (ht : s.tasks[i]? = some t) (phase : ConnectionPhase) :
    (s.setTask i phase).book.held + (t.held.toList : Multiset Item) =
      s.book.held + ((Connection.held { t with phase }).toList : Multiset Item) := by
  have hmod := coe_filterMap_modify Connection.held (fun t => { t with phase }) ht
  simp only [book, setTask]
  rw [add_assoc, hmod, ← add_assoc]
  rfl

/-- A supervisor takes something in hand, or lets it go. -/
theorem held_gain (s : ConnectionState) {k : Nat} {v : Acceptor} (hv : s.acceptors[k]? = some v) (phase : AcceptPhase)
    {item : Item}
    (hnone : v.held = none) (hsome : Acceptor.held { v with phase } = some item) :
    (s.setPhase k phase).book.held = item ::ₘ s.book.held := by
  have hset := held_setPhase hv phase
  rw [hnone, hsome] at hset
  simpa [add_comm, Multiset.singleton_add] using hset

theorem held_lose (s : ConnectionState) {k : Nat} {v : Acceptor} (hv : s.acceptors[k]? = some v) (phase : AcceptPhase)
    {item : Item}
    (hsome : v.held = some item) (hnone : Acceptor.held { v with phase } = none) :
    s.book.held = item ::ₘ (s.setPhase k phase).book.held := by
  have hset := held_setPhase hv phase
  rw [hnone, hsome] at hset
  simpa [add_comm, Multiset.singleton_add] using hset.symm

theorem held_task_gain (s : ConnectionState) {i : Nat} {t : Connection} (ht : s.tasks[i]? = some t) (phase : ConnectionPhase)
    {item : Item}
    (hnone : t.held = none) (hsome : Connection.held { t with phase } = some item) :
    (s.setTask i phase).book.held = item ::ₘ s.book.held := by
  have hset := held_setTask ht phase
  rw [hnone, hsome] at hset
  simpa [add_comm, Multiset.singleton_add] using hset

theorem held_task_lose (s : ConnectionState) {i : Nat} {t : Connection} (ht : s.tasks[i]? = some t) (phase : ConnectionPhase)
    {item : Item}
    (hsome : t.held = some item) (hnone : Connection.held { t with phase } = none) :
    s.book.held = item ::ₘ (s.setTask i phase).book.held := by
  have hset := held_setTask ht phase
  rw [hnone, hsome] at hset
  simpa [add_comm, Multiset.singleton_add] using hset.symm

theorem book_setPhase (s : ConnectionState) (k : Nat) (phase : AcceptPhase) :
    (s.setPhase k phase).book = { s.book with held := (s.setPhase k phase).book.held } := rfl

theorem book_setTask (s : ConnectionState) (i : Nat) (phase : ConnectionPhase) :
    (s.setTask i phase).book = { s.book with held := (s.setTask i phase).book.held } := rfl

/-- A supervisor goes on and holds what it held. -/
theorem book_setPhase_same (s : ConnectionState) {k : Nat} {v : Acceptor} (hv : s.acceptors[k]? = some v) (phase : AcceptPhase)
    (hheld : Acceptor.held { v with phase } = v.held) : (s.setPhase k phase).book = s.book := by
  have hmod := held_setPhase hv phase
  rw [hheld] at hmod
  rw [book_setPhase, add_right_cancel hmod]

theorem book_setTask_same (s : ConnectionState) {i : Nat} {t : Connection} (ht : s.tasks[i]? = some t) (phase : ConnectionPhase)
    (hheld : Connection.held { t with phase } = t.held) : (s.setTask i phase).book = s.book := by
  have hmod := held_setTask ht phase
  rw [hheld] at hmod
  rw [book_setTask, add_right_cancel hmod]

theorem counterValue_modify (s : ConnectionState) {c : Nat} (hc : c < s.counters.length) (g : Nat → Nat) :
    counterValue { s with counters := s.counters.modify c fun p => (p.1, g p.2) } =
      Function.update s.counterValue c (g (s.counterValue c)) := by
  funext c'
  rw [Function.update_apply]
  simp only [counterValue, List.getElem?_modify]
  by_cases hcc : c' = c
  · subst hcc
    simp [List.getElem?_eq_getElem hc]
  · simp [hcc, Ne.symm hcc]

theorem book_countClose (s : ConnectionState) (id : Nat) {counter : Option Nat}
    (hc : ∀ c, counter = some c → c < s.counters.length) :
    (s.countClose id counter).book = { s.book with
      closed := id ::ₘ s.book.closed
      total := usizePred s.book.total
      counter := settle s.book.counter counter
      wrapped := s.book.wrapped ∨ s.book.total = 0 ∨ ∃ c, counter = some c ∧ s.book.counter c = 0 } := by
  cases counter with
  | none =>
    simp only [countClose, book, settle, Book.mk.injEq, true_and, and_true, Option.any_none, Bool.or_false,
      Bool.or_eq_true, decide_eq_true_eq, reduceCtorEq, false_and, exists_false, or_false]
    exact ⟨rfl, rfl, rfl, rfl⟩
  | some c =>
    have hval := s.counterValue_modify (hc c rfl) usizePred
    simp only [countClose, book, settle, Book.mk.injEq, true_and, and_true, Option.any_some, Bool.or_eq_true,
      decide_eq_true_eq, Option.some.injEq, exists_eq_left', List.length_modify, or_assoc]
    refine ⟨rfl, rfl, ?_, rfl⟩
    exact hval

/-- A connection that someone has taken is counted. -/
theorem step_close {s' : ConnectionState} {id : Nat} {counter : Option Nat}
    (hc : ∀ c, counter = some c → c < s.counters.length)
    (hbook : s'.book = { (s.countClose id counter).book with held := s'.book.held })
    (hheld : s.book.held = ⟨id, counter⟩ ::ₘ s'.book.held) : Step s.book s'.book := by
  rw [hbook, s.book_countClose id hc]
  exact Step.close s.book ⟨id, counter⟩ s'.book.held hheld

/-- The ids of the records are distinct. -/
theorem connections_nodup (hb : Balanced s.book) : (s.connections.map (·.1)).Nodup := by
  have hnodup : (s.book.held.map (·.id) + s.book.closed).Nodup := hb.once ▸ Multiset.nodup_range _
  have hle : ((s.connections.map (·.1) : List Nat) : Multiset Nat) ≤ s.book.held.map (·.id) + s.book.closed := by
    have hrec : ((s.connections.map (·.1) : List Nat) : Multiset Nat) =
        ((s.connections.map s.recordItem : List Item) : Multiset Item).map (·.id) := by
      simp [recordItem, Function.comp_def]
    rw [hrec]
    simp only [book, Multiset.map_add, add_assoc]
    exact Multiset.le_add_right _ _
  exact Multiset.coe_nodup.1 (Multiset.nodup_of_le hle hnodup)

/-- The record is there, and goes. -/
theorem held_dropRecord (hb : Balanced s.book) {id : Nat} {name : String} (hmem : (id, name) ∈ s.connections) :
    s.book.held = s.recordItem (id, name) ::ₘ (s.dropRecord id).book.held := by
  have hcoe := coe_filter_key (connections_nodup hb) hmem
  have hmap := congrArg (Multiset.map s.recordItem) hcoe
  simp only [Multiset.map_coe, Multiset.map_cons] at hmap
  simp only [book, dropRecord, hmap, Multiset.cons_add]
  rfl

theorem dropRecord_absent {id : Nat} (hnone : s.connections.any (·.1 = id) = false) : s.dropRecord id = s := by
  unfold dropRecord
  have hself : s.connections.filter (·.1 ≠ id) = s.connections := by
    refine List.filter_eq_self.2 fun p hp => ?_
    have := List.any_eq_false.1 hnone p hp
    simpa using this
  rw [hself]

theorem owner_counter_lt (h : s.Owned) {id : Nat} {a : AcceptedBy} (ha : s.accepted[id]? = some a) :
    a.counter < s.counters.length := by
  obtain ⟨v, -, hname⟩ := h.origin id a ha
  exact counterName_lt hname

/-- A supervisor that holds nothing goes on and holds nothing. -/
theorem step_idle (s : ConnectionState) {k : Nat} {v : Acceptor} (hv : s.acceptors[k]? = some v) {phase : AcceptPhase} (hnone : v.held = none)
    (hphase : Acceptor.held { v with phase } = none) : Step s.book (s.setPhase k phase).book := by
  rw [s.book_setPhase_same hv phase (hphase.trans hnone.symm)]
  exact .stay _

theorem step_purgeNext (s : ConnectionState) {k : Nat} {v : Acceptor} (hv : s.acceptors[k]? = some v) (hnone : v.held = none) (ids : List Nat)
    (counter : Option Nat) : Step s.book (s.purgeNext k ids counter).book := by
  unfold purgeNext
  split
  · exact s.step_idle hv hnone rfl
  · exact s.step_idle hv hnone rfl

/-- A purge takes a record of its own supervisor. -/
theorem step_purge_record (h : s.Owned) (hb : Balanced s.book) {k id : Nat} {rest : List Nat} {counter : Option Nat}
    {v : Acceptor} (hv : s.acceptors[k]? = some v) (hphase : v.phase = .purging id rest counter .record) :
    Step s.book ((s.dropRecord id).setPhase k
      (.purging id rest counter (.evidence (s.connections.any (·.1 = id))))).book := by
  have hnone : v.held = none := by simp [Acceptor.held, hphase]
  cases htaken : s.connections.any (·.1 = id) with
  | false =>
    rw [dropRecord_absent htaken]
    exact s.step_idle hv hnone rfl
  | true =>
    obtain ⟨⟨id', name⟩, hmem, hid⟩ := List.any_eq_true.1 htaken
    simp only [decide_eq_true_eq] at hid
    subst hid
    obtain ⟨a, -, ha, -⟩ := h.record id' name hmem
    have hok := h.acceptor k v hv
    rw [hphase] at hok
    obtain ⟨hsome, hgone⟩ := hok.2 id' (List.mem_cons_self ..) a ha
    have hdrop := held_dropRecord hb hmem
    have hitem : s.recordItem (id', name) = ⟨id', some a.counter⟩ := by simp [recordItem, ha]
    rw [hitem] at hdrop
    have hnew : ((s.dropRecord id').setPhase k (.purging id' rest counter (.evidence true))).book.held =
        ⟨id', counter⟩ ::ₘ (s.dropRecord id').book.held :=
      (s.dropRecord id').held_gain hv _ hnone rfl
    rw [book_setPhase, hnew]
    cases counter with
    | none => exact Step.drop s.book id' a.counter _ hdrop (hgone rfl)
    | some c =>
      rw [← hsome c rfl, ← hdrop]
      exact .stay _

/-- A task takes its own record. -/
theorem step_task_record (h : s.Owned) (hb : Balanced s.book) {i : Nat} {t : Connection} (ht : s.tasks[i]? = some t)
    (hphase : t.phase = .taking .record) :
    Step s.book ((s.dropRecord t.id).setTask i (.taking (.evidence (s.connections.any (·.1 = t.id))))).book := by
  have hnone : t.held = none := by simp [Connection.held, hphase]
  cases htaken : s.connections.any (·.1 = t.id) with
  | false =>
    rw [dropRecord_absent htaken, s.book_setTask_same ht _ (by rw [hnone]; rfl)]
    exact .stay _
  | true =>
    obtain ⟨⟨id', name⟩, hmem, hid⟩ := List.any_eq_true.1 htaken
    simp only [decide_eq_true_eq] at hid
    subst hid
    obtain ⟨hacc, -⟩ := h.task t (List.mem_of_getElem? ht)
    have hdrop := held_dropRecord hb hmem
    have hitem : s.recordItem (t.id, name) = ⟨t.id, some t.counter⟩ := by simp [recordItem, hacc]
    have hnew : ((s.dropRecord t.id).setTask i (.taking (.evidence true))).book.held =
        ⟨t.id, some t.counter⟩ ::ₘ (s.dropRecord t.id).book.held :=
      (s.dropRecord t.id).held_task_gain ht _ hnone rfl
    rw [book_setTask, hnew, ← hitem, ← hdrop]
    exact .stay _

theorem held_insert (s : ConnectionState) (p : Nat × String) :
    (book { s with connections := s.connections ++ [p] }).held = s.recordItem p ::ₘ s.book.held := by
  have hperm : ((s.connections.map s.recordItem ++ [s.recordItem p] : List Item) : Multiset Item) =
      s.recordItem p ::ₘ (s.connections.map s.recordItem : List Item) :=
    Multiset.coe_eq_coe.2 (List.perm_append_singleton _ _)
  simp only [book, List.map_append, List.map_cons, List.map_nil]
  change ((s.connections.map s.recordItem ++ [s.recordItem p] : List Item) : Multiset Item) + _ + _ = _
  rw [hperm, Multiset.cons_add, Multiset.cons_add]

/-- A supervisor inserts the record of the connection it holds. -/
theorem book_insert {k id c : Nat} {v : Acceptor} (hv : s.acceptors[k]? = some v)
    (hphase : v.phase = .inserting id c) (hacc : s.accepted[id]? = some ⟨k, c⟩) :
    (ConnectionState.setPhase { s with connections := s.connections ++ [(id, v.name)] } k (.registering id c)).book =
      s.book := by
  have hins := s.held_insert (id, v.name)
  have hitem : s.recordItem (id, v.name) = ⟨id, some c⟩ := by simp [recordItem, hacc]
  have hlose : (book { s with connections := s.connections ++ [(id, v.name)] }).held = ⟨id, some c⟩ ::ₘ
      (ConnectionState.setPhase { s with connections := s.connections ++ [(id, v.name)] } k
        (.registering id c)).book.held :=
    held_lose { s with connections := s.connections ++ [(id, v.name)] } hv _ (by simp [Acceptor.held, hphase]) rfl
  rw [hins, hitem, Multiset.cons_inj_right] at hlose
  rw [book_setPhase, ← hlose]
  rfl

/-- A connection is accepted and counted. -/
theorem step_accept (h : s.Owned) (limit : Nat) {k : Nat} {v : Acceptor} {entry : CountedProxy}
    (hv : s.acceptors[k]? = some v) (hphase : v.phase = .waiting entry) : Step s.book (s.accept limit k entry).book := by
  have hnone : v.held = none := by simp [Acceptor.held, hphase]
  have hok := h.acceptor k v hv
  rw [hphase] at hok
  have hlt := counterName_lt hok
  unfold accept
  dsimp only
  split
  · exact s.step_idle hv hnone rfl
  · -- the new id is no record's, so the records owe what they owed
    have hrecords : (s.connections.map fun p => Item.mk p.1
        (((s.accepted ++ [⟨k, entry.counter⟩])[p.1]?).map (·.counter))) = s.connections.map s.recordItem := by
      refine List.map_congr_left fun p hp => ?_
      obtain ⟨a, -, ha, -⟩ := h.record p.1 p.2 hp
      simp only [recordItem]
      rw [List.getElem?_append_left (List.getElem?_eq_some_iff.1 ha).1]
    have hgain := s.held_gain hv (.inserting s.accepted.length entry.counter) hnone rfl
    have hstep := Step.enter s.book entry.counter hlt
    have hval := s.counterValue_modify hlt (· + 1)
    have hbook : book { (s.countOpen entry.counter).setPhase k (.inserting s.accepted.length entry.counter) with
        accepted := s.accepted ++ [⟨k, entry.counter⟩] } = { s.book with
          held := (s.setPhase k (.inserting s.accepted.length entry.counter)).book.held
          opened := s.book.opened + 1
          total := s.book.total + 1
          counter := Function.update s.book.counter entry.counter (s.book.counter entry.counter + 1) } := by
      simp only [book, setPhase, countOpen, Book.mk.injEq, List.length_append, List.length_singleton,
        List.length_modify, true_and, and_true]
      refine ⟨?_, ?_, rfl⟩
      · change ((s.connections.map fun p => Item.mk p.1
          (((s.accepted ++ [⟨k, entry.counter⟩])[p.1]?).map (·.counter)) : List Item) : Multiset Item) + _ + _ = _
        rw [hrecords]
        rfl
      · exact hval
    rw [hbook, hgain]
    exact hstep

theorem step_advance (h : s.Owned) (hb : Balanced s.book) {k : Nat} {v : Acceptor} (hv : s.acceptors[k]? = some v) :
    Step s.book (s.advance k v).book := by
  have hok := h.acceptor k v hv
  unfold advance
  cases hphase : v.phase with
  | looking =>
    have hnone : v.held = none := by simp [Acceptor.held, hphase]
    dsimp only
    split
    · exact s.step_idle hv hnone rfl
    · split
      · exact s.step_idle hv hnone rfl
      · exact s.step_idle hv hnone rfl
  | waiting entry =>
    dsimp only
    split
    · exact s.step_idle hv (by simp [Acceptor.held, hphase]) rfl
    · exact .stay _
  | inserting id counter =>
    rw [hphase] at hok
    have hstep : Step s.book (ConnectionState.setPhase { s with connections := s.connections ++ [(id, v.name)] } k
        (.registering id counter)).book := by
      rw [book_insert hv hphase hok]
      exact .stay _
    exact hstep
  | registering id counter =>
    have hnone : v.held = none := by simp [Acceptor.held, hphase]
    have hsame := s.book_setPhase_same hv .looking (by rw [hnone]; rfl)
    -- a task that runs holds nothing
    have hlist : (s.tasks ++ [Connection.mk id k counter .running]).filterMap Connection.held =
        s.tasks.filterMap Connection.held := by
      rw [List.filterMap_append]
      exact List.append_nil _
    have htasks : book { s.setPhase k .looking with
        cancellations := s.cancellations ++ [id]
        tasks := s.tasks ++ [⟨id, k, counter, .running⟩] } = (s.setPhase k .looking).book := by
      simp only [book, hlist]
      rfl
    rw [htasks, hsame]
    exact .stay _
  | leaving =>
    dsimp only
    split
    · exact s.step_idle hv (by simp [Acceptor.held, hphase]) rfl
    · exact .stay _
  | reading =>
    dsimp only
    split
    · exact s.step_idle hv (by simp [Acceptor.held, hphase]) rfl
    · exact s.step_idle hv (by simp [Acceptor.held, hphase]) rfl
  | lookingUp ids => exact s.step_purgeNext hv (by simp [Acceptor.held, hphase]) _ _
  | purging id rest counter taking =>
    cases taking with
    | token =>
      have hnone : v.held = none := by simp [Acceptor.held, hphase]
      exact (s.dropToken id).step_idle hv hnone rfl
    | record => exact step_purge_record h hb hv hphase
    | evidence taken =>
      cases taken with
      | false =>
        have hnone : v.held = none := by simp [Acceptor.held, hphase]
        exact (s.dropEvidence id).step_purgeNext hv hnone _ _
      | true =>
        have hsome : v.held = some ⟨id, counter⟩ := by simp [Acceptor.held, hphase]
        rw [hphase] at hok
        have hc : ∀ c, counter = some c → c < s.counters.length := by
          intro c hc
          obtain ⟨c', hacc⟩ := hok.1 id (List.mem_cons_self ..)
          have hcc := (hok.2 id (List.mem_cons_self ..) _ hacc).1 c hc
          exact hcc ▸ owner_counter_lt h hacc
        have hlose := held_lose ((s.dropEvidence id).countClose id counter) hv (.purgeRecording rest counter) hsome rfl
        exact step_close hc rfl hlose
  | purgeRecording rest counter => exact s.step_purgeNext hv (by simp [Acceptor.held, hphase]) _ _
  | finished => exact .stay _

theorem step_closeNext (h : s.Owned) (hb : Balanced s.book) {i : Nat} {t : Connection} (ht : s.tasks[i]? = some t) :
    Step s.book (s.closeNext i t).book := by
  unfold closeNext
  cases hphase : t.phase with
  | running | ended => exact .stay _
  | taking taking =>
    cases taking with
    | token =>
      have hnone : t.held = none := by simp [Connection.held, hphase]
      have hsame := (s.dropToken t.id).book_setTask_same ht (.taking .record) (by rw [hnone]; rfl)
      exact hsame ▸ .stay _
    | record => exact step_task_record h hb ht hphase
    | evidence taken =>
      cases taken with
      | false =>
        have hnone : t.held = none := by simp [Connection.held, hphase]
        have hsame := (s.dropEvidence t.id).book_setTask_same ht .ended (by rw [hnone]; rfl)
        exact hsame ▸ .stay _
      | true =>
        have hsome : t.held = some ⟨t.id, some t.counter⟩ := by simp [Connection.held, hphase]
        have hlose := held_task_lose ((s.dropEvidence t.id).countClose t.id (some t.counter)) ht .recording hsome rfl
        obtain ⟨hacc, -⟩ := h.task t (List.mem_of_getElem? ht)
        refine step_close ?_ rfl hlose
        rintro c ⟨rfl⟩
        exact owner_counter_lt h hacc
  | recording =>
    have hnone : t.held = none := by simp [Connection.held, hphase]
    have hsame := s.book_setTask_same ht .ended (by rw [hnone]; rfl)
    exact hsame ▸ .stay _

/-- A step of the connections is a step of the account. -/
theorem step_book (h : s.Owned) (hb : Balanced s.book) (limit : Nat) {o : Op} (hok : s.Careful o) :
    Step s.book (s.step limit o).book := by
  cases o with
  | store name maxConnections =>
    simp only [step]
    split
    · exact .stay _
    · have hval : counterValue { s with
          proxies := Function.update s.proxies name (some ⟨s.counters.length, maxConnections⟩)
          counters := s.counters ++ [(name, 0)] } = s.counterValue := by
        funext c
        simp only [counterValue]
        rcases Nat.lt_trichotomy c s.counters.length with hlt | rfl | hgt
        · rw [List.getElem?_append_left hlt]
        · simp
        · rw [List.getElem?_eq_none (by simp; omega), List.getElem?_eq_none hgt.le]
      have hmake := Step.make s.book { c | Known { s with
        proxies := Function.update s.proxies name (some ⟨s.counters.length, maxConnections⟩)
        counters := s.counters ++ [(name, 0)] } c } (by
          rintro c ⟨n, entry, hentry, rfl⟩
          by_cases hname : n = name
          · simp only [hname, Function.update_self, Option.some.injEq] at hentry
            exact .inr (by rw [← hentry]; rfl)
          · simp only [Function.update_of_ne hname] at hentry
            exact .inl ⟨n, entry, hentry, rfl⟩)
      simp only [book, hval, List.length_append, List.length_singleton] at hmake ⊢
      exact hmake
  | limit name maxConnections =>
    simp only [step]
    split
    · exact .stay _
    · next entry hget =>
      refine Step.forget s.book { c | Known { s with
        proxies := Function.update s.proxies name (some { entry with maxConnections }) } c } ?_
      rintro c ⟨n, e, he, rfl⟩
      by_cases hname : n = name
      · subst hname
        simp only [Function.update_self, Option.some.injEq] at he
        exact ⟨n, entry, hget, by rw [← he]⟩
      · simp only [Function.update_of_ne hname] at he
        exact ⟨n, e, he, rfl⟩
  | remove name =>
    refine Step.forget s.book { c | Known { s with proxies := Function.update s.proxies name none } c } ?_
    rintro c ⟨n, e, he, rfl⟩
    by_cases hname : n = name
    · simp [hname] at he
    · simp only [Function.update_of_ne hname] at he
      exact ⟨n, e, he, rfl⟩
  | spawn name =>
    have hlist : (s.acceptors ++ [Acceptor.mk name false .looking]).filterMap Acceptor.held =
        s.acceptors.filterMap Acceptor.held := by
      rw [List.filterMap_append]
      exact List.append_nil _
    have hsame : (s.step limit (.spawn name)).book = s.book := by
      simp only [step, book, hlist]
      rfl
    rw [hsame]
    exact .stay _
  | cancel k =>
    have hlist : (((s.acceptors.modify k fun v => { v with cancelled := true }).filterMap Acceptor.held : List Item) :
        Multiset Item) = (s.acceptors.filterMap Acceptor.held : List Item) := by
      cases hv : s.acceptors[k]? with
      | none => rw [List.modify_eq_self (List.getElem?_eq_none_iff.1 hv)]
      | some v =>
        have hmod := coe_filterMap_modify Acceptor.held (fun v => { v with cancelled := true }) hv
        exact add_right_cancel hmod
    have hsame : (s.step limit (.cancel k)).book = s.book := by
      simp only [step, book, hlist]
      rfl
    rw [hsame]
    exact .stay _
  | accepted k =>
    simp only [step]
    split
    · next hv => exact step_accept h limit hv rfl
    · exact .stay _
  | acceptFailed k =>
    simp only [step]
    split
    · next hv => split <;> exact s.step_idle hv rfl rfl
    · exact .stay _
  | advance k =>
    simp only [step]
    split
    · exact .stay _
    · next v hv => exact step_advance h hb hv
  | register i =>
    simp only [step]
    split
    · exact .stay _
    · exact .stay _
  | close i =>
    simp only [step]
    split
    · next ht =>
      rw [s.book_setTask_same ht (.taking .token) rfl]
      exact .stay _
    · exact .stay _
  | closeNext i =>
    simp only [step]
    split
    · exact .stay _
    · next t ht => exact step_closeNext h hb ht
  | abort i =>
    simp only [step]
    split
    · exact .stay _
    · next t ht =>
      split
      · have hnone : t.held = none := by
          have hphase := hok t ht
          unfold Connection.held
          split
          · next heq => exact absurd heq hphase
          · rfl
        rw [s.book_setTask_same ht .ended (by rw [hnone]; rfl)]
        exact .stay _
      · exact .stay _

/-! ## Runs -/

/-- The connections that are counted but have no record: one is about to be
inserted, or was taken out and is not yet counted as closed. -/
def halfway (s : ConnectionState) : List Item :=
  s.acceptors.filterMap Acceptor.held ++ s.tasks.filterMap Connection.held

/-- The accounting is exact. -/
structure Exact (s : ConnectionState) : Prop where
  /-- An accepted connection has a record, is half-way or is closed, once. -/
  once : ∀ id < s.accepted.length,
    (s.connections.map (·.1)).count id + (s.halfway.map (·.id)).count id + s.closed.count id = 1
  /-- Those of a supervisor that has finished are closed. -/
  ended : ∀ (id : Nat) (a : AcceptedBy) (v : Acceptor), s.accepted[id]? = some a → s.acceptors[a.owner]? = some v →
    v.phase = .finished → s.closed.count id = 1
  underflow : s.underflow = false
  active : s.active = s.connections.length + s.halfway.length
  proxies : ∀ name entry, s.proxies name = some entry → s.counterValue entry.counter =
    s.connections.countP (fun p => (s.accepted[p.1]?).map (·.counter) = some entry.counter) +
      s.halfway.countP (·.owes = some entry.counter)
  /-- A purge takes records of its own supervisor's connections only. -/
  purge : ∀ (k : Nat) (v : Acceptor) (ids : List Nat), s.acceptors[k]? = some v → v.phase.remaining = some ids →
    s.Mine k ids

theorem held_eq (s : ConnectionState) :
    s.book.held = ((s.connections.map s.recordItem ++ s.halfway : List Item) : Multiset Item) := by
  simp only [book, halfway, ← Multiset.coe_add, add_assoc]

/-- Whoever holds a connection belongs to a supervisor that has not finished. -/
theorem Owned.not_finished (h : s.Owned) {item : Item} (hitem : item ∈ s.connections.map s.recordItem ++ s.halfway)
    {a : AcceptedBy} {v : Acceptor} (ha : s.accepted[item.id]? = some a) (hv : s.acceptors[a.owner]? = some v) :
    v.phase ≠ .finished := by
  intro hfin
  rcases List.mem_append.1 hitem with hrec | hhalf
  · obtain ⟨⟨id, name⟩, hmem, rfl⟩ := List.mem_map.1 hrec
    obtain ⟨a', w, ha', hw, -, hids⟩ := h.record id name hmem
    have heq : a' = a := Option.some.inj (ha'.symm.trans ha)
    subst heq
    rw [hv] at hw
    cases hw
    have := hids [] (by rw [hfin]; rfl)
    cases this
  · rcases List.mem_append.1 hhalf with hacc | htask
    · obtain ⟨w, hw, hheld⟩ := List.mem_filterMap.1 hacc
      obtain ⟨j, hj⟩ := List.mem_iff_getElem?.1 hw
      -- a supervisor holds only connections that it accepted itself
      have hown : a.owner = j := by
        have hok := h.acceptor j w hj
        unfold Acceptor.held at hheld
        split at hheld
        · next hphase =>
          rw [hphase] at hok
          cases hheld
          exact congrArg AcceptedBy.owner (Option.some.inj (ha.symm.trans hok))
        · next hphase =>
          rw [hphase] at hok
          cases hheld
          obtain ⟨c, hc⟩ := hok.1 _ (List.mem_cons_self ..)
          exact congrArg AcceptedBy.owner (Option.some.inj (ha.symm.trans hc))
        · cases hheld
      subst hown
      rw [hv] at hj
      cases hj
      simp [Acceptor.held, hfin] at hheld
    · obtain ⟨t, ht, hheld⟩ := List.mem_filterMap.1 htask
      obtain ⟨hacc, hended⟩ := h.task t ht
      unfold Connection.held at hheld
      split at hheld
      · next hphase =>
        cases hheld
        have heq : a = ⟨t.owner, t.counter⟩ := Option.some.inj (ha.symm.trans hacc)
        subst heq
        have := hended v hv (by rw [hfin]; rfl)
        rw [hphase] at this
        cases this
      · cases hheld

theorem exact_of_balanced (h : s.Owned) (hb : Balanced s.book) : s.Exact := by
  have hids : (s.connections.map s.recordItem).map (·.id) = s.connections.map (·.1) := by
    simp [recordItem, Function.comp_def]
  have honce : ∀ id < s.accepted.length,
      (s.connections.map (·.1)).count id + (s.halfway.map (·.id)).count id + s.closed.count id = 1 := by
    intro id hid
    have hcount := congrArg (Multiset.count id) hb.once
    have hclosed : Multiset.count id s.book.closed = s.closed.count id := Multiset.coe_count id s.closed
    rw [held_eq, Multiset.count_add, Multiset.map_coe, Multiset.coe_count, List.map_append, hids,
      List.count_append, hclosed] at hcount
    exact hcount.trans (Multiset.count_eq_one_of_mem (Multiset.nodup_range _) (Multiset.mem_range.2 hid))
  constructor
  case once => exact honce
  case ended =>
    intro id a v ha hv hfin
    have hcount := honce id (List.getElem?_eq_some_iff.1 ha).1
    -- nobody holds it
    have hrec : (s.connections.map (·.1)).count id = 0 := by
      refine List.count_eq_zero.2 fun hmem => ?_
      rw [← hids] at hmem
      obtain ⟨item, hitem, rfl⟩ := List.mem_map.1 hmem
      exact h.not_finished (List.mem_append_left _ hitem) ha hv hfin
    have hhalf : (s.halfway.map (·.id)).count id = 0 := by
      refine List.count_eq_zero.2 fun hmem => ?_
      obtain ⟨item, hitem, rfl⟩ := List.mem_map.1 hmem
      exact h.not_finished (List.mem_append_right _ hitem) ha hv hfin
    omega
  case underflow =>
    have := hb.unwrapped
    simpa [book] using this
  case active =>
    have := hb.total
    rw [held_eq] at this
    simpa [book] using this
  case proxies =>
    intro name entry hentry
    have := hb.exact entry.counter ⟨name, entry, hentry, rfl⟩
    rw [held_eq, owed, Multiset.coe_countP, List.countP_append, List.countP_map] at this
    exact this
  case purge =>
    intro k v ids hv hids
    have hok := h.acceptor k v hv
    cases hphase : v.phase with
    | lookingUp ids' =>
      rw [hphase] at hok hids
      cases hids
      exact hok
    | purging id rest counter taking =>
      rw [hphase] at hok hids
      cases taking with
      | token | record =>
        cases hids
        exact hok.1
      | evidence taken =>
        cases hids
        exact fun id' hid' => hok.1 id' (List.mem_cons_of_mem _ hid')
    | purgeRecording rest counter =>
      rw [hphase] at hok hids
      cases hids
      exact hok.1
    | finished =>
      rw [hphase] at hids
      cases hids
      intro id hid
      cases hid
    | looking | waiting | inserting | registering | leaving | reading =>
      rw [hphase] at hids
      cases hids

theorem owned_empty : ConnectionState.empty.Owned := by
  constructor <;> simp [empty]

theorem balanced_empty : Balanced ConnectionState.empty.book := by
  constructor <;> simp [book, empty, owed, counterValue, Known]

end ConnectionState

open ConnectionState in
/-- In every run whose steps are careful the accounting is exact in every state. -/
theorem connections_closed_once {limit : Nat} {ops : List Op} (h : Along (step limit) Careful .empty ops) :
    ∀ pre, pre <+: ops → (run (step limit) .empty pre).Exact := by
  rintro pre ⟨rest, rfl⟩
  have hinv : (run (step limit) .empty pre).Owned ∧ Balanced (run (step limit) .empty pre).book := by
    refine run_inv_along (fun s => s.Owned ∧ Balanced s.book) ?_ ⟨owned_empty, balanced_empty⟩ (along_append.1 h).1
    rintro s o ⟨hs, hb⟩ hok
    exact ⟨step_owned hs limit hok, hb.step (step_book hs hb limit hok)⟩
  exact exact_of_balanced hinv.1 hinv.2

/-! ## A proxy that is recreated too soon -/

/-- A proxy accepts a connection and is disabled; the task is aborted and its
record purged. -/
def purgeOps : List ConnectionState.Op :=
  [.store "p" none, .spawn "p", .advance 0, .accepted 0, .advance 0, .advance 0, .cancel 0, .advance 0, .abort 0,
    .advance 0, .advance 0, .advance 0, .advance 0, .advance 0, .advance 0, .advance 0]

open ConnectionState in
theorem connections_closed_once_purged :
    (run (step 10) .empty purgeOps).Exact ∧ (run (step 10) .empty purgeOps).closed = [0] := by
  have halong : Along (step 10) Careful .empty purgeOps := by decide
  exact ⟨connections_closed_once halong purgeOps (List.prefix_refl _), by decide⟩

/-- The proxy is deleted instead, and created again before the purge. -/
def recreateOps : List ConnectionState.Op :=
  [.store "p" none, .spawn "p", .advance 0, .accepted 0, .advance 0, .advance 0, .remove "p", .cancel 0, .store "p" none,
    .advance 0, .abort 0, .advance 0, .advance 0, .advance 0, .advance 0, .advance 0, .advance 0]

open ConnectionState in
/-- The purge lowers the counter of the new proxy, which wraps round. -/
theorem recreated_counter_wraps :
    let s := run (step 10) .empty recreateOps
    s.underflow = true ∧ (s.proxies "p").map (fun entry => s.counterValue entry.counter) = some u64Max ∧
      s.connections = [] ∧ s.tasks.all (fun t => t.phase = .ended) ∧ ¬ s.Exact := by
  intro s
  have hunder : s.underflow = true := by decide
  refine ⟨hunder, by decide, by decide, by decide, ?_⟩
  intro hexact
  rw [hexact.underflow] at hunder
  cases hunder

end Eggchaos
