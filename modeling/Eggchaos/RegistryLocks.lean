import Eggchaos.Lib.Locks
import Eggchaos.Lib.Runs
/-!
# The locks of the registry

The maps of the runtime are each behind a lock of its own: the proxies, the live
evidence, the connections, the cancellation tokens, the history and the list of
supervisors. A call is the sequence of locks that it takes and gives back; where
the source branches on what it finds in a map, the branch is a parameter of the
call.

Most calls have one lock in hand at a time. `metrics_text` takes the connections
with the evidence in hand, `connections` and `get_connection` the evidence with
the connections in hand. They only read, so the two orders meet in a cycle only
where writers queue in between: `registry_acyclic_iff` says exactly when.
-/

namespace Eggchaos
open Lib Lib.Locks

inductive RegistryLock where
  | proxies
  | evidence
  | connections
  | cancellations
  | history
  | root
deriving DecidableEq, Repr

/-- How far a connection task comes before it is closed. -/
inductive ConnectionCourse where
  | dialFailed
  | engineFailed
  | relayed
deriving DecidableEq, Repr

/-- What becomes of a stored proxy that `reset` starts. -/
inductive StoredStart where
  /-- Gone before its definition was read, or not bound. -/
  | notBound
  | refused
  | stored
  | vanished
deriving DecidableEq, Repr

/-- A call on the registry, with the branches it takes. `recorded` says of a
connection that its record was still there and that the history keeps it. -/
inductive RegistryCall where
  | metricsText
  | connections
  | getConnection (found : Bool)
  | acceptConnection (admitted : Bool)
  | runConnection (course : ConnectionCourse) (recorded : Bool)
  | recordClose (recorded : Bool)
  | purgeProxyConnections (ids : List Bool)
  | kill
  | reset (toStart : List StoredStart)
deriving DecidableEq, Repr

/-- A lock that is given back before anything else is awaited. -/
def locked (l : RegistryLock) (mode : Mode) : List (Act RegistryLock) := [.acquire l mode, .release l]

def takeConnection : List (Act RegistryLock) :=
  locked .cancellations .write ++ locked .connections .write ++ locked .evidence .write

/-- The locks of `record_close`, and of each connection that a purge closes. -/
def closing (recorded : Bool) : List (Act RegistryLock) :=
  takeConnection ++ if recorded then locked .history .write else []

def startStored : StoredStart → List (Act RegistryLock)
  | .notBound => []
  | .refused => locked .root .write
  | .stored => locked .root .write ++ locked .proxies .write
  | .vanished => locked .root .write ++ locked .proxies .write ++ locked .root .write

namespace RegistryCall

def program : RegistryCall → List (Act RegistryLock)
  | .metricsText =>
    [.acquire .proxies .read, .acquire .evidence .read, .acquire .connections .read,
      .release .connections, .release .evidence, .release .proxies]
  | .connections | .getConnection true =>
    [.acquire .connections .read, .acquire .evidence .read, .release .evidence, .release .connections]
  | .getConnection false => locked .connections .read
  | .acceptConnection admitted => if admitted then locked .connections .write ++ locked .cancellations .write else []
  | .runConnection .dialFailed recorded => closing recorded
  | .runConnection .engineFailed recorded => locked .connections .write ++ closing recorded
  | .runConnection .relayed recorded => locked .connections .write ++ locked .evidence .write ++ closing recorded
  | .recordClose recorded => closing recorded
  | .purgeProxyConnections ids =>
    locked .connections .read ++ if ids.isEmpty then [] else locked .proxies .read ++ ids.flatMap closing
  | .kill => locked .cancellations .write
  | .reset toStart =>
    locked .cancellations .read ++ locked .proxies .write ++
      toStart.flatMap fun start => locked .proxies .read ++ startStored start

end RegistryCall

/-- Any call may begin, any task take its turn, and any task be dropped where it
stands. -/
inductive RegistryOp where
  | begin (call : RegistryCall)
  | turn (i : Nat)
  | abort (i : Nat)
deriving DecidableEq, Repr

abbrev RegistryState := LockState RegistryLock

def registryStep (s : RegistryState) : RegistryOp → RegistryState
  | .begin call => s.start call.program
  | .turn i => s.turn i
  | .abort i => s.abort i

/-- The locks that a call may have in hand where it asks for another. -/
inductive MayHold : RegistryLock → RegistryLock → Prop
  | scrapedProxies : MayHold .proxies .evidence
  | scrapedConnections : MayHold .proxies .connections
  | scraped : MayHold .evidence .connections
  | listed : MayHold .connections .evidence

/-- A lock that is given back at once may be taken wherever nothing is in hand. -/
theorem follows_locked (l : RegistryLock) (mode : Mode) {rest : List (Act RegistryLock)}
    (h : LockState.Follows MayHold [] rest) : LockState.Follows MayHold [] (locked l mode ++ rest) := by
  simpa [locked, LockState.Follows] using h

theorem follows_closing (recorded : Bool) {rest : List (Act RegistryLock)} (h : LockState.Follows MayHold [] rest) :
    LockState.Follows MayHold [] (closing recorded ++ rest) := by
  cases recorded with
  | false =>
    simp only [closing, takeConnection, Bool.false_eq_true, if_false, List.append_nil, List.append_assoc]
    exact follows_locked _ _ (follows_locked _ _ (follows_locked _ _ h))
  | true =>
    simp only [closing, takeConnection, if_true, List.append_assoc]
    exact follows_locked _ _ (follows_locked _ _ (follows_locked _ _ (follows_locked _ _ h)))

theorem follows_startStored (start : StoredStart) {rest : List (Act RegistryLock)}
    (h : LockState.Follows MayHold [] rest) : LockState.Follows MayHold [] (startStored start ++ rest) := by
  cases start with
  | notBound => exact h
  | refused => exact follows_locked _ _ h
  | stored =>
    simp only [startStored, List.append_assoc]
    exact follows_locked _ _ (follows_locked _ _ h)
  | vanished =>
    simp only [startStored, List.append_assoc]
    exact follows_locked _ _ (follows_locked _ _ (follows_locked _ _ h))

theorem follows_flatMap {α : Type} (f : α → List (Act RegistryLock))
    (hf : ∀ a {rest}, LockState.Follows MayHold [] rest → LockState.Follows MayHold [] (f a ++ rest)) (xs : List α) :
    LockState.Follows MayHold [] (xs.flatMap f) := by
  induction xs with
  | nil => trivial
  | cons a xs ih =>
    rw [List.flatMap_cons]
    exact hf a ih

theorem program_follows (call : RegistryCall) : LockState.Follows MayHold [] call.program := by
  have nothing : LockState.Follows MayHold [] [] := trivial
  have closed : ∀ recorded, LockState.Follows MayHold [] (closing recorded) := fun recorded => by
    simpa using follows_closing recorded nothing
  have reading : LockState.Follows MayHold [] [.acquire .connections .read, .acquire .evidence .read,
      .release .evidence, .release .connections] := by
    simp [LockState.Follows, MayHold.listed]
  cases call with
  | metricsText =>
    simp [RegistryCall.program, LockState.Follows, MayHold.scrapedProxies, MayHold.scrapedConnections, MayHold.scraped]
  | connections => exact reading
  | getConnection found =>
    cases found with
    | false => exact follows_locked .connections .read nothing
    | true => exact reading
  | acceptConnection admitted =>
    cases admitted with
    | false => exact nothing
    | true => exact follows_locked .connections .write (follows_locked .cancellations .write nothing)
  | runConnection course recorded =>
    cases course with
    | dialFailed => exact closed recorded
    | engineFailed => exact follows_locked .connections .write (closed recorded)
    | relayed =>
      simp only [RegistryCall.program, List.append_assoc]
      exact follows_locked .connections .write (follows_locked .evidence .write (closed recorded))
  | recordClose recorded => exact closed recorded
  | purgeProxyConnections ids =>
    refine follows_locked .connections .read ?_
    split
    · exact nothing
    · exact follows_locked .proxies .read (follows_flatMap closing (fun recorded _ h => follows_closing recorded h) ids)
  | kill => exact follows_locked .cancellations .write nothing
  | reset toStart =>
    simp only [RegistryCall.program, List.append_assoc]
    refine follows_locked .cancellations .read (follows_locked .proxies .write ?_)
    refine follows_flatMap _ (fun start rest h => ?_) toStart
    rw [List.append_assoc]
    exact follows_locked .proxies .read (follows_startStored start h)

theorem registryStep_sound {s : RegistryState} (h : s.Sound MayHold) (o : RegistryOp) :
    (registryStep s o).Sound MayHold := by
  cases o with
  | begin call => exact LockState.start_sound h (program_follows call)
  | turn i => exact LockState.turn_sound h i
  | abort i => exact LockState.abort_sound h i

/-! ## Cycles -/

/-- No cycle of tasks that each wait for a lock held by the next, or behind a
request of the next. -/
def NoDeadlock (s : RegistryState) : Prop := ∀ a, ¬ Relation.TransGen s.WaitsFor a a

/-- Two tasks that wait, each for a lock that the other has in hand. -/
def Crossed (s : RegistryState) (i j : Nat) : Prop :=
  ∃ t u l h mode mode', s.tasks[i]? = some t ∧ s.tasks[j]? = some u ∧
    t.waiting = some (l, mode) ∧ u.waiting = some (h, mode') ∧ h ∈ t.held.map (·.1) ∧ l ∈ u.held.map (·.1)

/-- A task asks for a second lock that it cannot have at once, while a task that
has this lock in hand waits for one that the first task has in hand. -/
def Crosses (s : RegistryState) : RegistryOp → Prop
  | .turn i => ∃ t l mode todo, s.tasks[i]? = some t ∧ t.waiting = none ∧ t.todo = .acquire l mode :: todo ∧
      ¬ (s.queue l = [] ∧ s.free l mode) ∧
      ∃ (j : Nat) (u : LockTask RegistryLock) (h : RegistryLock) (mode' : Mode), s.tasks[j]? = some u ∧
        u.waiting = some (h, mode') ∧ h ∈ t.held.map (·.1) ∧ l ∈ u.held.map (·.1)
  | _ => False

theorem Crossed.deadlock {s : RegistryState} {i j : Nat} (h : Crossed s i j) : ¬ NoDeadlock s := by
  obtain ⟨t, u, l, h, mode, mode', ht, hu, htw, huw, hth, hul⟩ := h
  intro hno
  have hij : s.WaitsFor i j := ⟨t, l, mode, ht, htw, .inl ⟨u, hu, hul⟩⟩
  have hji : s.WaitsFor j i := ⟨u, h, mode', hu, huw, .inl ⟨t, ht, hth⟩⟩
  exact hno i (.head hij (.single hji))

/-- The order of the locks where no task waits for the connections with the
evidence in hand. -/
def listedRank : RegistryLock → Nat
  | .connections => 1
  | .evidence => 2
  | _ => 0

/-- The order where no task waits for the evidence with the connections in hand. -/
def scrapedRank : RegistryLock → Nat
  | .evidence => 1
  | .connections => 2
  | _ => 0

theorem waiting_mayHold {s : RegistryState} (hs : s.Sound MayHold) {t : LockTask RegistryLock} (ht : t ∈ s.tasks)
    {l : RegistryLock} {mode : Mode} (hw : t.waiting = some (l, mode)) {h : RegistryLock}
    (hh : h ∈ t.held.map (·.1)) : MayHold h l := by
  have horderly := hs.orderly t ht
  simp only [LockState.Orderly, hw] at horderly
  exact horderly.1 h hh

theorem noDeadlock_of_not_crossed {s : RegistryState} (hs : s.Sound MayHold) (hno : ∀ i j, ¬ Crossed s i j) :
    NoDeadlock s := by
  by_cases hscrape : ∃ t ∈ s.tasks, ∃ mode, t.waiting = some (.connections, mode) ∧ .evidence ∈ t.held.map (·.1)
  · obtain ⟨t, ht, mode, htw, htheld⟩ := hscrape
    obtain ⟨i, hi⟩ := List.mem_iff_getElem?.1 ht
    refine LockState.acyclic_of_rank hs.fair.queued scrapedRank ?_
    intro u hu l mode' huw h hh
    cases waiting_mayHold hs hu huw hh with
    | scrapedProxies => decide
    | scrapedConnections => decide
    | scraped => decide
    | listed =>
      obtain ⟨j, hj⟩ := List.mem_iff_getElem?.1 hu
      exact absurd ⟨t, u, _, _, mode, mode', hi, hj, htw, huw, htheld, hh⟩ (hno i j)
  · refine LockState.acyclic_of_rank hs.fair.queued listedRank ?_
    intro u hu l mode' huw h hh
    cases waiting_mayHold hs hu huw hh with
    | scrapedProxies => decide
    | scrapedConnections => decide
    | scraped => exact absurd ⟨u, hu, mode', huw, hh⟩ hscrape
    | listed => decide

/-- A task that waits after a step waited before it, with the same locks in hand,
or asks in this step. -/
theorem step_waiting {s : RegistryState} (hs : s.Sound MayHold) (o : RegistryOp) {j : Nat} {u : LockTask RegistryLock}
    {l : RegistryLock} {mode : Mode} (hu : (registryStep s o).tasks[j]? = some u) (hw : u.waiting = some (l, mode)) :
    s.tasks[j]? = some u ∨
      o = .turn j ∧ ∃ t todo, s.tasks[j]? = some t ∧ t.waiting = none ∧ t.todo = .acquire l mode :: todo ∧
        ¬ (s.queue l = [] ∧ s.free l mode) ∧ u.held = t.held := by
  have passed : ∀ {t : LockTask RegistryLock}, s.tasks[j]? = some t → LockState.Passed t u → s.tasks[j]? = some u := by
    intro t ht hpass
    rcases hpass with rfl | ⟨l', mode', -, rfl⟩
    · exact ht
    · cases hw
  cases o with
  | begin call =>
    simp only [registryStep, LockState.start, List.getElem?_append] at hu
    split at hu
    · exact .inl hu
    · obtain ⟨k, hk⟩ : ∃ k, ([⟨[], none, call.program⟩] : List (LockTask RegistryLock))[k]? = some u := ⟨_, hu⟩
      rw [List.mem_singleton.1 (List.mem_of_getElem? hk)] at hw
      cases hw
  | abort i =>
    obtain ⟨t, ht, hcase⟩ := LockState.abort_tasks hs.fair i hu
    split at hcase
    · rw [hcase] at hw
      cases hw
    · exact .inl (passed ht hcase)
  | turn i =>
    obtain ⟨t, ht, hcase⟩ := LockState.turn_tasks hs.fair i hu
    split at hcase
    · next hji =>
      subst hji
      cases hcase with
      | idle hu => exact .inl (hu ▸ ht)
      | entered l' mode' todo hw' ht' hu' =>
        rw [hu'] at hw
        cases hw
      | queued l' mode' todo hw' ht' hno hu' =>
        rw [hu'] at hw
        cases hw
        exact .inr ⟨rfl, t, todo, ht, hw', ht', hno, by rw [hu']⟩
      | gaveBack l' todo hw' ht' hu' =>
        rw [hu', hw'] at hw
        cases hw
    · exact .inl (passed ht hcase)

/-- A step from a state without a cycle leads to one without, exactly when it does
not cross. -/
theorem noDeadlock_step_iff (s : RegistryState) (o : RegistryOp) (hno : NoDeadlock s) (hs : s.Sound MayHold) :
    NoDeadlock (registryStep s o) ↔ ¬ Crosses s o := by
  constructor
  · intro hno' hcross
    cases o with
    | begin call => exact hcross
    | abort i => exact hcross
    | turn i =>
      obtain ⟨t, l, mode, todo, ht, htw, htodo, hcan, j, u, h, mode', hu, huw, hth, hul⟩ := hcross
      have hne : j ≠ i := by
        rintro rfl
        rw [ht] at hu
        cases hu
        rw [htw] at huw
        cases huw
      have hcan' : ¬ ((s.queue l).isEmpty && s.free l mode) = true := by simpa using hcan
      -- the task that asks now waits; the one that waits is still there
      have hstep : (registryStep s (.turn i)).tasks =
          (s.tasks.modify i fun t => { t with todo }).modify i fun t => { t with waiting := some (l, mode) } := by
        simp only [registryStep, LockState.turn, ht, htw, htodo, LockState.request, LockState.free_modify_todo]
        rw [if_neg hcan']
      have hcrossed : Crossed (registryStep s (.turn i)) i j := by
        refine ⟨{ t with waiting := some (l, mode), todo }, u, l, h, mode, mode', ?_, ?_, rfl, huw, hth, hul⟩
        · simp [hstep, ht]
        · simp [hstep, Ne.symm hne, hu]
      exact hcrossed.deadlock hno'
  · intro hcross
    refine noDeadlock_of_not_crossed (registryStep_sound hs o) ?_
    rintro i j ⟨t, u, l, h, mode, mode', ht, hu, htw, huw, hth, hul⟩
    rcases step_waiting hs o ht htw with ht' | ⟨rfl, t', todo, ht', htw', htodo, hcan, htheld⟩
    · rcases step_waiting hs o hu huw with hu' | ⟨rfl, u', todo, hu', huw', hutodo, hcan, huheld⟩
      · exact Crossed.deadlock ⟨t, u, l, h, mode, mode', ht', hu', htw, huw, hth, hul⟩ hno
      · exact hcross ⟨u', h, mode', todo, hu', huw', hutodo, hcan, i, t, l, mode, ht', htw, huheld ▸ hul, hth⟩
    · rcases step_waiting hs (.turn i) hu huw with hu' | ⟨heq, u', todo', hu', huw', hutodo, hcan', huheld⟩
      · exact hcross ⟨t', l, mode, todo, ht', htw', htodo, hcan, j, u, h, mode', hu', huw, htheld ▸ hth, hul⟩
      · -- one task cannot wait for a lock that it has in hand
        cases heq
        rw [ht] at hu
        cases hu
        exact absurd (waiting_mayHold (registryStep_sound hs (.turn i)) (List.mem_of_getElem? ht) htw hul)
          (by rintro ⟨⟩)

/-- The runs that never wait in a cycle are those in which no task asks for a lock
that it cannot have at once while a task that has it in hand waits for one that the
first has in hand. -/
theorem registry_acyclic_iff (ops : List RegistryOp) :
    (∀ pre, pre <+: ops → NoDeadlock (run registryStep .empty pre)) ↔
      Along registryStep (fun s o => ¬ Crosses s o) .empty ops :=
  prefixes_iff_along (J := LockState.Sound MayHold) (fun _ o h => registryStep_sound h o)
    (fun s o h hs => noDeadlock_step_iff s o h hs)
    (noDeadlock_of_not_crossed LockState.empty_sound fun i j h => by
      obtain ⟨t, _, _, _, _, _, ht, _⟩ := h
      simp [LockState.empty] at ht)
    LockState.empty_sound ops

/-- A scrape and a listing with a new connection and a relayed one between them: the
scrape has the evidence, the listing the connections, the relayed connection queues
for the evidence and the new one for the connections; then the listing asks for the
evidence and the scrape for the connections. -/
def crossingOps : List RegistryOp :=
  [.begin .metricsText, .begin .connections, .begin (.acceptConnection true), .begin (.runConnection .relayed true),
    .turn 3, .turn 3, .turn 0, .turn 0, .turn 1, .turn 3, .turn 1, .turn 2, .turn 0]

theorem scrape_crosses_listing : ¬ NoDeadlock (run registryStep .empty crossingOps) := by
  have hcrossed : Crossed (run registryStep .empty crossingOps) 0 1 :=
    ⟨_, _, .connections, .evidence, .read, .read, rfl, rfl, rfl, rfl, by decide, by decide⟩
  exact hcrossed.deadlock

end Eggchaos
