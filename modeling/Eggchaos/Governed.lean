import Eggchaos.Registered
/-!
# The definition a connection is accepted with

The accept loop of `supervisor.rs` clones its entry, waits for a connection, and
admits and dials it with the clone: `Accepting` puts these clones beside the
control plane, and `accept` is the loop's own step. An update that has returned
governs the connections accepted after it, unless a supervisor still waits with
an entry it cloned before (`accepted_governed`).
-/

namespace Eggchaos
open Lib ControlState

/-- The fields of a definition that a connection is admitted and dialled with. -/
structure Governing where
  maxConnections : Option Nat
  connectTimeout : Nat
  upstream : SocketAddr
deriving DecidableEq, Repr

def ProxySpec.governing (spec : ProxySpec) : Governing := ⟨spec.maxConnections, spec.connectTimeout, spec.upstream⟩

/-- What a connection task is spawned with. -/
structure ProxyConnParams where
  name : String
  upstream : SocketAddr
  connectTimeout : Nat
deriving DecidableEq, Repr

/-- `accept_connection`: the connection is counted, and admitted if neither the
service nor the proxy has too many then. -/
def acceptConnection (spec : ProxySpec) (globalConnections current currentProxy : Nat) : Option ProxyConnParams :=
  if globalConnections < current || spec.maxConnections.any (· < currentProxy) then none
  else some ⟨spec.name, spec.upstream, spec.connectTimeout⟩

/-- The entry a supervisor has cloned, and the number of settings of its
definition that had been made by then. -/
structure EntryClone where
  name : String
  entry : ManagedProxy
  seen : Nat

/-- A definition as a call left it when it returned: an update by its number, or
a creation. -/
structure Setting where
  caller : Option Nat
  values : Governing
deriving DecidableEq, Repr

/-- Call `i` updates the proxy of this name. -/
def ControlState.updates (s : ControlState) (i : Nat) (name : String) : Prop :=
  ∃ call patch, s.calls[i]? = some call ∧ call.request = .update name patch

structure Accepting where
  control : ControlState
  clones : Nat → Option EntryClone
  /-- The settings of each name, newest first. -/
  settings : String → List Setting
  /-- The updates whose callers have their result. -/
  answered : List Nat
  /-- The connections accepted so far, and what became of them. -/
  connections : List (String × Option ProxyConnParams)

/-- The sections in which `update_proxy` returns, and those that create a
definition: the name it is for, and whether it is an update. -/
def Task.settles : Task → Option (String × Bool)
  | .viewing name _ | .writingBack name _ _ | .restoring name _ _ _ _ => some (name, true)
  | .inserting spec _ _ | .importing spec => some (spec.name, false)
  | _ => none

def Task.succeeded : Task → Bool
  | .returned (.ok _) => true
  | _ => false

namespace Accepting

open Function (update)

/-- The settings after a section of call `i` that led to `next`. -/
def settle (s : Accepting) (i : Nat) (task : Task) (next : ControlState × Task) : String → List Setting :=
  match task.settles with
  | none => s.settings
  | some (name, isUpdate) =>
    match next.1.proxies.get name with
    | none => s.settings
    | some entry =>
      if next.2.succeeded then
        update s.settings name (⟨if isUpdate then some i else none, entry.spec.governing⟩ :: s.settings name)
      else s.settings

/-- The clone of a supervisor after one of its turns. -/
def turned (s : Accepting) (k : Nat) : Turn → Nat → Option EntryClone
  | .look =>
    match s.control.supervisors[k]? with
    | none => s.clones
    | some v =>
      match s.control.proxies.get v.name with
      | none => s.clones
      | some entry =>
        if v.phase = .looking then update s.clones k (some ⟨v.name, entry, (s.settings v.name).length⟩) else s.clones
  | .observe | .accepted | .finish => s.clones

end Accepting

inductive AcceptOp where
  | control (op : ControlState.Op)
  /-- The caller of call `i` has its result. -/
  | answer (i : Nat)
  /-- The supervisor's accept completes, the counters standing at these values. -/
  | accept (k : Nat) (current currentProxy : Nat)

namespace Accepting

variable (seed : UInt64) (globalConnections : Nat) (s : Accepting)

/-- The entry a supervisor that waits for a connection holds. -/
def waiting (k : Nat) : Option EntryClone :=
  if s.control.supervisors[k]?.any (·.phase = .accepting) then s.clones k else none

def step : AcceptOp → Accepting
  | .control op =>
    let control := s.control.step seed op
    match op with
    | .begin _ => { s with control }
    | .advance i bind =>
      match s.control.calls[i]? with
      | none => { s with control }
      | some call => { s with control, settings := s.settle i call.task (s.control.proceed seed call.task bind) }
    | .supervisor k turn => { s with control, clones := s.turned k turn }
  | .answer i =>
    if (s.control.calls[i]?.map (·.task.succeeded)).getD false then { s with answered := i :: s.answered } else s
  | .accept k current currentProxy =>
    match s.waiting k with
    | none => s
    | some c =>
      { s with
        control := s.control.step seed (.supervisor k .accepted)
        connections := (c.name, acceptConnection c.entry.spec globalConnections current currentProxy) :: s.connections }

def empty : Accepting := ⟨.empty, fun _ => none, fun _ => [], [], []⟩

/-- The values a supervisor holds are those that each answered update of its proxy
left when it returned, or those of a later setting. -/
def GovernedBy (c : EntryClone) : Prop :=
  ∀ i ∈ s.answered, s.control.updates i c.name →
    ∃ newer d older, s.settings c.name = newer ++ d :: older ∧ d.caller = some i ∧
      ∃ e ∈ newer ++ [d], c.entry.spec.governing = e.values

/-- Every connection is accepted with the values that govern it. -/
def Governed : AcceptOp → Prop
  | .accept k _ _ => ∀ c ∈ s.waiting k, s.GovernedBy c
  | .control _ | .answer _ => True

/-- The supervisor has looked at its entry since every update that has been
answered, or the entry still has the values it saw. -/
def Fresh : AcceptOp → Prop
  | .accept k _ _ => ∀ c ∈ s.waiting k,
    (s.control.proxies.get c.name).any (·.spec.governing = c.entry.spec.governing) ∨
      ∀ d ∈ (s.settings c.name).take ((s.settings c.name).length - c.seen), d.caller.all (· ∉ s.answered)
  | .control _ | .answer _ => True

instance Fresh.decidable : DecidablePred s.Fresh
  | .accept k _ _ => inferInstanceAs (Decidable (∀ c ∈ s.waiting k, _ ∨ _))
  | .control _ | .answer _ => .isTrue trivial

end Accepting

/-! ## What sets these fields -/

theorem ProxySpec.Replans.governing {spec spec' : ProxySpec} (h : spec.Replans spec') :
    spec'.governing = spec.governing := by
  induction h with
  | refl => rfl
  | withPolicy _ direction p ih =>
    rw [← ih]
    cases direction <;> rfl
  | withMirror _ direction hvalid ih =>
    rw [← ih]
    cases direction <;> rfl

theorem ManagedProxy.changed_governing (entry : ManagedProxy) (change : PolicyChange) :
    (entry.changed change).spec.governing = entry.spec.governing := by
  have hreplans := (change.apply_replans entry.spec).governing
  unfold ManagedProxy.changed
  split
  · next heq => rwa [heq] at hreplans
  · next heq => rwa [heq] at hreplans

theorem ManagedProxy.cleared_governing (entry : ManagedProxy) :
    entry.cleared.spec.governing = entry.spec.governing := by
  have hup := (ProxySpec.clearDirection_replans { entry.spec with enabled := true } .upstream).governing
  have hdown := (ProxySpec.clearDirection_replans
    (ProxySpec.clearDirection { entry.spec with enabled := true } .upstream).2 .downstream).governing
  exact hdown.trans hup

namespace Registry

variable {r : Registry} {name : String} {entry' : ManagedProxy}

/-- A change of an entry that leaves its governing fields. -/
theorem modify_governing {name' : String} {f : ManagedProxy → ManagedProxy}
    (h : (r.modify name' f).get name = some entry') (hf : ∀ entry, (f entry).spec.governing = entry.spec.governing) :
    ∃ entry, r.get name = some entry ∧ entry.spec.governing = entry'.spec.governing := by
  rw [get_modify] at h
  split at h
  · obtain ⟨entry, hentry, rfl⟩ := Option.map_eq_some_iff.1 h
    exact ⟨entry, hentry, (hf entry).symm⟩
  · exact ⟨entry', h, rfl⟩

end Registry

/-- Only an update and a creation set the governing fields of an entry. -/
theorem Task.Writes.governing {r r' : Registry} {task : Task} (h : task.Writes r r') {name : String}
    {entry' : ManagedProxy} (hget : r'.get name = some entry') :
    (∃ entry, r.get name = some entry ∧ entry.spec.governing = entry'.spec.governing) ∨
      ∃ isUpdate, task.settles = some (name, isUpdate) := by
  cases h with
  | nothing => exact .inl ⟨entry', hget, rfl⟩
  | asked _ name' enabled => exact .inl (Registry.modify_governing hget fun _ => rfl)
  | disabled _ name' token => exact .inl (Registry.modify_governing hget fun _ => rfl)
  | stored _ name' bound token k => exact .inl (Registry.modify_governing hget fun _ => rfl)
  | released _ name' token => exact .inl (Registry.modify_governing hget fun _ => rfl)
  | changed _ name' change => exact .inl (Registry.modify_governing hget fun entry => entry.changed_governing change)
  | cleared =>
    rw [Registry.get_map] at hget
    obtain ⟨entry, hentry, rfl⟩ := Option.map_eq_some_iff.1 hget
    exact .inl ⟨entry, hentry, entry.cleared_governing.symm⟩
  | removed _ name' =>
    rw [Registry.get_remove] at hget
    split at hget
    · cases hget
    · exact .inl ⟨entry', hget, rfl⟩
  | written name' p spec =>
    by_cases hname : name' = name
    · exact .inr ⟨true, by rw [← hname]; rfl⟩
    · rw [Registry.get_modify, if_neg (Ne.symm hname)] at hget
      exact .inl ⟨entry', hget, rfl⟩
  | restarted name' p spec bound token k =>
    by_cases hname : name' = name
    · exact .inr ⟨true, by rw [← hname]; rfl⟩
    · rw [Registry.get_modify, if_neg (Ne.symm hname)] at hget
      exact .inl ⟨entry', hget, rfl⟩
  | created spec bound token k hfree hroom =>
    by_cases hname : spec.name = name
    · exact .inr ⟨false, by rw [← hname]; rfl⟩
    · rw [Registry.get_insert, if_neg hname, Option.or_none] at hget
      exact .inl ⟨entry', hget, rfl⟩
  | imported spec token hfree =>
    by_cases hname : spec.name = name
    · exact .inr ⟨false, by rw [← hname]; rfl⟩
    · rw [Registry.get_insert, if_neg hname, Option.or_none] at hget
      exact .inl ⟨entry', hget, rfl⟩

namespace ControlState

variable (s : ControlState) (seed : UInt64)

theorem updated_succeeded (p : Patching) : (s.updated p).2.succeeded = true := by
  unfold updated
  split <;> rfl

/-- A section that may set the fields returns, or it writes nothing. -/
theorem proceed_settles {task : Task} {x : String × Bool} (h : task.settles = some x) (bind : Except String SocketAddr) :
    (s.proceed seed task bind).2.succeeded = true ∨ (s.proceed seed task bind).1.proxies = s.proxies := by
  cases task with
  | viewing name generation =>
    simp only [proceed]
    split
    · exact .inr rfl
    · exact .inl rfl
  | writingBack name p spec =>
    simp only [proceed]
    split
    · exact .inr rfl
    · exact .inl (updated_succeeded _ p)
  | restoring name p spec bound k =>
    simp only [proceed]
    split
    · exact .inr rfl
    · exact .inl (updated_succeeded _ p)
  | inserting spec bound k =>
    simp only [proceed]
    split
    · exact .inr rfl
    · split
      · exact .inr rfl
      · exact .inl rfl
  | importing spec =>
    simp only [proceed]
    split
    · exact .inr rfl
    · exact .inl rfl
  | _ => cases h

end ControlState

/-! ## Clones and settings -/

namespace Accepting

open Function (update)

variable {s : Accepting} {seed : UInt64} {globalConnections : Nat}

/-- The newest setting of a name is what its entry has, and a clone has what was
newest when it was made. -/
structure Tracked (s : Accepting) : Prop where
  current : ∀ name entry, s.control.proxies.get name = some entry →
    (s.settings name).head?.map (·.values) = some entry.spec.governing
  cloned : ∀ k c, s.clones k = some c → c.seen ≤ (s.settings c.name).length ∧
    ((s.settings c.name).drop ((s.settings c.name).length - c.seen)).head?.map (·.values) = some c.entry.spec.governing

theorem Tracked.empty : Tracked Accepting.empty where
  current name entry h := by cases h
  cloned k c h := by cases h

/-- A section leaves the settings of a name, or adds the entry it leaves. -/
theorem settle_cases (s : Accepting) (i : Nat) (task : Task) (next : ControlState × Task) (name : String) :
    s.settle i task next name = s.settings name ∨
      ∃ isUpdate entry, task.settles = some (name, isUpdate) ∧ next.1.proxies.get name = some entry ∧
        s.settle i task next name = ⟨if isUpdate then some i else none, entry.spec.governing⟩ :: s.settings name := by
  unfold settle
  cases hsettles : task.settles with
  | none => exact .inl rfl
  | some x =>
    obtain ⟨name', isUpdate⟩ := x
    simp only
    cases hget : next.1.proxies.get name' with
    | none => exact .inl rfl
    | some entry =>
      simp only
      split
      · by_cases hname : name = name'
        · subst hname
          rw [Function.update_self]
          exact .inr ⟨isUpdate, entry, rfl, hget, rfl⟩
        · rw [Function.update_of_ne hname]
          exact .inl rfl
      · exact .inl rfl

/-- More settings on top leave a clone where it was. -/
theorem drop_cons_seen {d : Setting} {settings : List Setting} {seen : Nat} (h : seen ≤ settings.length) :
    (d :: settings).drop ((d :: settings).length - seen) = settings.drop (settings.length - seen) := by
  have hlength : (d :: settings).length - seen = settings.length - seen + 1 := by
    rw [List.length_cons]
    omega
  rw [hlength, List.drop_succ_cons]

theorem Tracked.advance (h : Tracked s) {i : Nat} {call : ControlCall} (hcall : s.control.calls[i]? = some call)
    (bind : Except String SocketAddr) :
    Tracked (s.step seed globalConnections (.control (.advance i bind))) := by
  have hsettings : (s.step seed globalConnections (.control (.advance i bind))).settings =
      s.settle i call.task (s.control.proceed seed call.task bind) := by
    simp only [step, hcall]
  have hclones : (s.step seed globalConnections (.control (.advance i bind))).clones = s.clones := by
    simp only [step, hcall]
  have hproxies : (s.step seed globalConnections (.control (.advance i bind))).control.proxies =
      (s.control.proceed seed call.task bind).1.proxies := by
    simp only [step, hcall, ControlState.step]
  constructor
  · intro name entry hget
    rw [hproxies] at hget
    rw [hsettings]
    rcases settle_cases s i call.task (s.control.proceed seed call.task bind) name with
      hsame | ⟨isUpdate, entry', hsettles, hget', hset⟩
    · rw [hsame]
      rcases (s.control.proceed_writes call.task bind).governing hget with ⟨old, hold, heq⟩ | ⟨isUpdate, hsettles⟩
      · rw [← heq]
        exact h.current name old hold
      · rcases s.control.proceed_settles seed hsettles bind with hreturned | hwrote
        · -- a section that returns has added its setting
          have hset : s.settle i call.task (s.control.proceed seed call.task bind) name =
              ⟨if isUpdate then some i else none, entry.spec.governing⟩ :: s.settings name := by
            unfold settle
            rw [hsettles]
            simp only [hget, hreturned, if_true, Function.update_self]
          have hlength := congrArg List.length (hset.symm.trans hsame)
          simp at hlength
        · rw [hwrote] at hget
          exact h.current name entry hget
    · rw [hget] at hget'
      cases hget'
      rw [hset]
      rfl
  · intro k c hc
    rw [hclones] at hc
    obtain ⟨hle, hhead⟩ := h.cloned k c hc
    rw [hsettings]
    rcases settle_cases s i call.task (s.control.proceed seed call.task bind) c.name with
      hsame | ⟨isUpdate, entry', -, -, hset⟩
    · rw [hsame]
      exact ⟨hle, hhead⟩
    · rw [hset]
      refine ⟨Nat.le_succ_of_le hle, ?_⟩
      rw [drop_cons_seen hle]
      exact hhead

/-- A turn leaves a clone, or the supervisor has looked and cloned its entry. -/
theorem turned_cases (s : Accepting) (k : Nat) (turn : Turn) (j : Nat) :
    s.turned k turn j = s.clones j ∨
      ∃ v entry, s.control.supervisors[j]? = some v ∧ s.control.proxies.get v.name = some entry ∧
        s.turned k turn j = some ⟨v.name, entry, (s.settings v.name).length⟩ := by
  cases turn with
  | look =>
    simp only [turned]
    cases hv : s.control.supervisors[k]? with
    | none => exact .inl rfl
    | some v =>
      cases hget : s.control.proxies.get v.name with
      | none => simp only [hget, true_or]
      | some entry =>
        simp only [hget]
        split
        · by_cases hj : j = k
          · subst hj
            exact .inr ⟨v, entry, hv, hget, Function.update_self _ _ _⟩
          · exact .inl (Function.update_of_ne hj _ _)
        · exact .inl rfl
  | observe => exact .inl rfl
  | accepted => exact .inl rfl
  | finish => exact .inl rfl

theorem Tracked.turned (h : Tracked s) (k : Nat) (turn : Turn) {j : Nat} {c : EntryClone}
    (hc : s.turned k turn j = some c) : c.seen ≤ (s.settings c.name).length ∧
      ((s.settings c.name).drop ((s.settings c.name).length - c.seen)).head?.map (·.values) =
        some c.entry.spec.governing := by
  rcases turned_cases s k turn j with hsame | ⟨v, entry, -, hget, hcloned⟩
  · exact h.cloned j c (hsame ▸ hc)
  · rw [hcloned] at hc
    cases hc
    refine ⟨Nat.le_refl _, ?_⟩
    rw [Nat.sub_self, List.drop_zero]
    exact h.current v.name entry hget

theorem Tracked.step (h : Tracked s) (op : AcceptOp) : Tracked (s.step seed globalConnections op) := by
  cases op with
  | control op =>
    cases op with
    | begin request =>
      have hproxies : (s.control.step seed (.begin request)).proxies = s.control.proxies :=
        (s.control.start_regenerated seed request).proxies
      exact ⟨fun name entry hget => h.current name entry (hproxies ▸ hget), h.cloned⟩
    | advance i bind =>
      cases hcall : s.control.calls[i]? with
      | none =>
        have hsame : s.step seed globalConnections (.control (.advance i bind)) = s := by
          simp only [Accepting.step, ControlState.step, hcall]
        rw [hsame]
        exact h
      | some call => exact h.advance hcall bind
    | supervisor k turn =>
      refine ⟨fun name entry hget => h.current name entry ?_, fun j c hc => h.turned k turn hc⟩
      exact (s.control.step_supervisor_proxies seed k turn) ▸ hget
  | answer i =>
    simp only [Accepting.step]
    split
    · exact ⟨h.current, h.cloned⟩
    · exact h
  | accept k current currentProxy =>
    simp only [Accepting.step]
    split
    · exact h
    · refine ⟨fun name entry hget => h.current name entry ?_, h.cloned⟩
      exact (s.control.step_supervisor_proxies seed k .accepted) ▸ hget

theorem mem_take_append {α : Type} {newer older : List α} {d : α} {n : Nat} (h : newer.length < n) :
    d ∈ (newer ++ d :: older).take n := by
  obtain ⟨m, hm⟩ := Nat.exists_eq_add_of_lt h
  rw [List.take_append, hm]
  refine List.mem_append_right _ ?_
  have hrest : newer.length + m + 1 - newer.length = m + 1 := by omega
  rw [hrest, List.take_succ_cons]
  exact List.mem_cons_self

theorem head_drop_mem {α : Type} {newer older : List α} {d e : α} {n : Nat} (h : n ≤ newer.length)
    (he : ((newer ++ d :: older).drop n).head? = some e) : e ∈ newer ++ [d] := by
  rw [List.head?_drop] at he
  rcases Nat.lt_or_eq_of_le h with hlt | heq
  · rw [List.getElem?_append_left hlt] at he
    exact List.mem_append_left _ (List.mem_of_getElem? he)
  · rw [heq, List.getElem?_append_right (Nat.le_refl _), Nat.sub_self] at he
    cases he
    exact List.mem_append_right _ (List.mem_singleton.2 rfl)

/-- A fresh clone has the values of any setting by an answered update, or of one after it. -/
theorem Tracked.newest (h : Tracked s) {k : Nat} {c : EntryClone} (hc : s.clones k = some c)
    (hfresh : (s.control.proxies.get c.name).any (·.spec.governing = c.entry.spec.governing) ∨
      ∀ d ∈ (s.settings c.name).take ((s.settings c.name).length - c.seen), d.caller.all (· ∉ s.answered))
    {newer older : List Setting} {d : Setting} {i : Nat} (hsettings : s.settings c.name = newer ++ d :: older)
    (hcaller : d.caller = some i) (hanswered : i ∈ s.answered) :
    ∃ e ∈ newer ++ [d], c.entry.spec.governing = e.values := by
  rcases hfresh with hsame | hunanswered
  · obtain ⟨entry, hget, heq⟩ := (Option.any_eq_true _ _).1 hsame
    have hhead := h.current c.name entry hget
    rw [hsettings, of_decide_eq_true heq] at hhead
    cases newer with
    | nil => exact ⟨d, List.mem_singleton.2 rfl, (Option.some.inj hhead).symm⟩
    | cons e newer => exact ⟨e, List.mem_cons_self, (Option.some.inj hhead).symm⟩
  · obtain ⟨-, hhead⟩ := h.cloned k c hc
    have hlate : (s.settings c.name).length - c.seen ≤ newer.length := by
      by_contra hearly
      have hmem : d ∈ (s.settings c.name).take ((s.settings c.name).length - c.seen) := by
        rw [hsettings] at hearly ⊢
        exact mem_take_append (by omega)
      have hanswer := hunanswered d hmem
      simp [hcaller, hanswered] at hanswer
    rw [hsettings] at hhead hlate
    obtain ⟨e, he, hvalues⟩ := Option.map_eq_some_iff.1 hhead
    exact ⟨e, head_drop_mem hlate he, hvalues.symm⟩

end Accepting

/-! ## A supervisor that waits has an entry -/

namespace ControlState

theorem Supervisor.turn_accepting {v : Supervisor} {present cancelled : Bool} {turn : Turn}
    (h : (Supervisor.turn v present cancelled turn).phase = .accepting) :
    v.phase = .accepting ∨ turn = .look ∧ v.phase = .looking ∧ present = true := by
  cases turn with
  | look =>
    simp only [Supervisor.turn] at h
    split at h
    · next hphase =>
      cases present with
      | false => simp at h
      | true => exact .inr ⟨rfl, hphase, rfl⟩
    · exact .inl h
  | observe =>
    simp only [Supervisor.turn] at h
    split at h
    · cases h
    · exact .inl h
  | accepted =>
    simp only [Supervisor.turn] at h
    split at h
    · cases h
    · exact .inl h
  | finish =>
    simp only [Supervisor.turn] at h
    split at h
    · cases h
    · exact .inl h

theorem Supervisor.turn_name (v : Supervisor) (present cancelled : Bool) (turn : Turn) :
    (Supervisor.turn v present cancelled turn).name = v.name := by
  cases turn <;> simp only [Supervisor.turn] <;> split <;> rfl

end ControlState

namespace Accepting

open Function (update)

variable {s : Accepting} {seed : UInt64} {globalConnections : Nat}

/-- A supervisor that waits for a connection has cloned an entry of its proxy. -/
def Looked (s : Accepting) : Prop :=
  ∀ k v, s.control.supervisors[k]? = some v → v.phase = .accepting → ∃ c, s.clones k = some c ∧ c.name = v.name

theorem Looked.empty : Looked Accepting.empty := by
  intro k v hv
  cases hv

theorem turned_some (s : Accepting) (k : Nat) (turn : Turn) {j : Nat} {c : EntryClone} (hc : s.clones j = some c)
    {v : Supervisor} (hv : s.control.supervisors[j]? = some v) (hname : c.name = v.name) :
    ∃ c', s.turned k turn j = some c' ∧ c'.name = v.name := by
  rcases turned_cases s k turn j with hsame | ⟨w, entry, hw, -, hcloned⟩
  · exact ⟨c, hsame.trans hc, hname⟩
  · rw [hv] at hw
    cases hw
    exact ⟨_, hcloned, rfl⟩

theorem Looked.supervisor (h : s.Looked) (seed : UInt64) (k : Nat) (turn : Turn) :
    ∀ j v, (s.control.step seed (.supervisor k turn)).supervisors[j]? = some v → v.phase = .accepting →
      ∃ c, s.turned k turn j = some c ∧ c.name = v.name := by
  intro j v hv hphase
  simp only [ControlState.step] at hv
  cases hw : s.control.supervisors[k]? with
  | none =>
    rw [hw] at hv
    obtain ⟨c, hc, hname⟩ := h j v hv hphase
    exact turned_some s k turn hc hv hname
  | some w =>
    rw [hw] at hv
    simp only [List.getElem?_set] at hv
    split at hv
    · next hkj =>
      subst hkj
      split at hv
      · cases hv
        rcases Supervisor.turn_accepting hphase with hbefore | ⟨rfl, hlooking, hpresent⟩
        · obtain ⟨c, hc, hname⟩ := h k w hw hbefore
          rw [Supervisor.turn_name]
          exact turned_some s k turn hc hw hname
        · obtain ⟨entry, hget⟩ := Option.isSome_iff_exists.1 hpresent
          refine ⟨⟨w.name, entry, (s.settings w.name).length⟩, ?_, (Supervisor.turn_name _ _ _ _).symm⟩
          simp only [turned, hw, hget, hlooking, if_true, Function.update_self]
      · cases hv
    · obtain ⟨c, hc, hname⟩ := h j v hv hphase
      exact turned_some s k turn hc hv hname

theorem Looked.step (h : s.Looked) (op : AcceptOp) : (s.step seed globalConnections op).Looked := by
  cases op with
  | control op =>
    cases op with
    | begin request =>
      intro k v hv hphase
      have hsupervisors : (s.control.step seed (.begin request)).supervisors = s.control.supervisors :=
        (s.control.start_regenerated seed request).supervisors
      exact h k v (hsupervisors ▸ hv) hphase
    | advance i bind =>
      intro k v hv hphase
      cases hcall : s.control.calls[i]? with
      | none =>
        simp only [Accepting.step, ControlState.step, hcall] at hv ⊢
        exact h k v hv hphase
      | some call =>
        simp only [Accepting.step, ControlState.step, hcall] at hv ⊢
        rcases (s.control.proceed_spawns seed call.task bind).supervisors with hsame | ⟨name, hspawned⟩
        · rw [hsame] at hv
          exact h k v hv hphase
        · rw [hspawned, List.getElem?_append] at hv
          split at hv
          · exact h k v hv hphase
          · have hmem := List.mem_singleton.1 (List.mem_of_getElem? hv)
            rw [hmem] at hphase
            cases hphase
    | supervisor k turn => exact h.supervisor seed k turn
  | answer i =>
    simp only [Accepting.step]
    split
    · exact h
    · exact h
  | accept k current currentProxy =>
    simp only [Accepting.step]
    split
    · exact h
    · exact h.supervisor seed k .accepted

end Accepting

/-! ## What an update that returned has set -/

/-- What a call awaits that updates proxy `name` and has not returned `Ok`. -/
inductive Task.Updating (name : String) : Task → Prop
  | enabling (patch : ProxyPatch) : Updating name (.enabling name (some patch))
  | disabling (patch : ProxyPatch) : Updating name (.disabling name (some patch))
  | stopping (done : Option Nat) (patch : ProxyPatch) : Updating name (.stopping name done (some patch))
  | binding (listen : SocketAddr) (patch : ProxyPatch) : Updating name (.binding listen (.setEnabled name (some patch)))
  | spawning (bound : SocketAddr) (patch : ProxyPatch) : Updating name (.spawning bound (.setEnabled name (some patch)))
  | storing (bound : SocketAddr) (k : Nat) (patch : ProxyPatch) :
      Updating name (.storing bound k (.setEnabled name (some patch)))
  | abandoning (k : Nat) (e : ControlError) (patch : ProxyPatch) :
      Updating name (.abandoning name k e (some (.setEnabled name (some patch))))
  | abandoned (k : Nat) (e : ControlError) : Updating name (.abandoning name k e none)
  | viewing (generation : Nat) : Updating name (.viewing name generation)
  | cloning (p : Patching) : Updating name (.cloning name p)
  | writingBack (p : Patching) (spec : ProxySpec) : Updating name (.writingBack name p spec)
  | prebinding (p : Patching) (spec : ProxySpec) : Updating name (.prebinding name p spec)
  | releasing (p : Patching) (spec : ProxySpec) (bound : SocketAddr) : Updating name (.releasing name p spec bound)
  | draining (p : Patching) (spec : ProxySpec) (bound : SocketAddr) (done : Option Nat) :
      Updating name (.draining name p spec bound done)
  | respawning (p : Patching) (spec : ProxySpec) (bound : SocketAddr) : Updating name (.respawning name p spec bound)
  | restoring (p : Patching) (spec : ProxySpec) (bound : SocketAddr) (k : Nat) :
      Updating name (.restoring name p spec bound k)
  | refused (e : ControlError) : Updating name (.returned (.error e))

theorem Task.Updating.not_succeeded {name : String} {task : Task} (h : task.Updating name) : task.succeeded = false := by
  cases h <;> rfl

namespace ControlState

variable (s : ControlState) (seed : UInt64)

theorem patchFields_updating (name : String) (p : Patching) : (s.patchFields name p).2.Updating name := by
  unfold patchFields
  split
  · exact .refused _
  · exact .cloning p

theorem enabledDone_updating (name : String) (patch : ProxyPatch) : (s.enabledDone name (some patch)).2.Updating name := by
  simp only [enabledDone]
  split
  · exact .viewing _
  · exact s.patchFields_updating name _

/-- An update goes on, or it returns `Ok` from a section that settles its proxy. -/
theorem proceed_updating {name : String} {task : Task} (h : task.Updating name) (bind : Except String SocketAddr) :
    (s.proceed seed task bind).2.Updating name ∨
      task.settles = some (name, true) ∧ (s.proceed seed task bind).2.succeeded = true ∧
        ((s.proceed seed task bind).1.proxies.get name).isSome = true := by
  cases h with
  | enabling patch =>
    simp only [proceed]
    split
    · exact .inl (.refused _)
    · split
      · exact .inl (enabledDone_updating _ name patch)
      · exact .inl (.binding _ patch)
  | disabling patch =>
    simp only [proceed]
    split
    · exact .inl (.refused _)
    · split
      · exact .inl (enabledDone_updating _ name patch)
      · exact .inl (.stopping _ patch)
  | stopping done patch =>
    simp only [proceed]
    split
    · exact .inl (enabledDone_updating _ name patch)
    · exact .inl (.stopping done patch)
  | binding listen patch =>
    cases bind with
    | error reason => exact .inl (.refused _)
    | ok bound => exact .inl (.spawning bound patch)
  | spawning bound patch => exact .inl (.storing bound _ patch)
  | storing bound k patch =>
    simp only [proceed, Caller.name]
    split
    · exact .inl (.abandoning k _ patch)
    · exact .inl (enabledDone_updating _ name patch)
  | abandoning k e patch =>
    simp only [proceed]
    split
    · exact .inl (.refused _)
    · exact .inl (.abandoning k e patch)
  | abandoned k e =>
    simp only [proceed]
    split
    · exact .inl (.refused _)
    · exact .inl (.abandoned k e)
  | viewing generation =>
    simp only [proceed]
    split
    · exact .inl (.refused _)
    · next entry hget => exact .inr ⟨rfl, rfl, by rw [hget]; rfl⟩
  | cloning p =>
    simp only [proceed]
    split
    · exact .inl (.refused _)
    · split
      · exact .inl (.refused _)
      · split
        · exact .inl (.writingBack p _)
        · exact .inl (.prebinding p _)
  | writingBack p spec =>
    simp only [proceed]
    split
    · exact .inl (.refused _)
    · next entry hget =>
      refine .inr ⟨rfl, updated_succeeded _ p, ?_⟩
      rw [(updated_regenerated _ p).proxies, writeBack_proxies, Registry.get_modify, if_pos rfl, hget]
      rfl
  | prebinding p spec =>
    cases bind with
    | error reason => exact .inl (.refused _)
    | ok bound => exact .inl (.releasing p spec bound)
  | releasing p spec bound =>
    simp only [proceed]
    split
    · exact .inl (.refused _)
    · split
      · exact .inl (.refused _)
      · exact .inl (.draining p spec bound _)
  | draining p spec bound done =>
    simp only [proceed]
    split
    · exact .inl (.respawning p spec bound)
    · exact .inl (.draining p spec bound done)
  | respawning p spec bound => exact .inl (.restoring p spec bound _)
  | restoring p spec bound k =>
    simp only [proceed]
    split
    · exact .inl (.abandoned k _)
    · next entry hget =>
      refine .inr ⟨rfl, updated_succeeded _ p, ?_⟩
      rw [(updated_regenerated _ p).proxies, restore_proxies, Registry.get_modify, if_pos rfl, hget]
      rfl
  | refused e => exact .inl (.refused e)

theorem start_updating (name : String) (patch : ProxyPatch) : (s.start seed (.update name patch)).2.Updating name := by
  simp only [start]
  split
  · exact .enabling patch
  · exact .disabling patch
  · exact s.patchFields_updating name _

end ControlState

namespace Accepting

variable {s : Accepting} {seed : UInt64} {globalConnections : Nat}

/-- An update that is answered has left its setting. -/
structure Recorded (s : Accepting) : Prop where
  updating : ∀ i name patch call, s.control.calls[i]? = some call → call.request = .update name patch →
    call.task.Updating name ∨ ∃ d ∈ s.settings name, d.caller = some i
  answered : ∀ i ∈ s.answered, ∃ call, s.control.calls[i]? = some call ∧ call.task.succeeded = true

theorem Recorded.empty : Recorded Accepting.empty where
  updating i name patch call hcall := by cases hcall
  answered i hi := by cases hi

theorem mem_settle (s : Accepting) (i : Nat) (task : Task) (next : ControlState × Task) {name : String} {d : Setting}
    (h : d ∈ s.settings name) : d ∈ s.settle i task next name := by
  rcases settle_cases s i task next name with hsame | ⟨isUpdate, entry, -, -, hset⟩
  · rw [hsame]
    exact h
  · rw [hset]
    exact List.mem_cons_of_mem _ h

theorem proceed_succeeded (s : ControlState) (seed : UInt64) {task : Task} (h : task.succeeded = true)
    (bind : Except String SocketAddr) : (s.proceed seed task bind).2 = task := by
  cases task with
  | returned result => rfl
  | _ => cases h

theorem Recorded.advance (h : Recorded s) {i : Nat} {call : ControlCall} (hcall : s.control.calls[i]? = some call)
    (bind : Except String SocketAddr) :
    Recorded (s.step seed globalConnections (.control (.advance i bind))) := by
  have hlt : i < s.control.calls.length := (List.getElem?_eq_some_iff.1 hcall).1
  have hsettings : (s.step seed globalConnections (.control (.advance i bind))).settings =
      s.settle i call.task (s.control.proceed seed call.task bind) := by
    simp only [Accepting.step, hcall]
  have hcalls : (s.step seed globalConnections (.control (.advance i bind))).control.calls =
      s.control.calls.set i { call with task := (s.control.proceed seed call.task bind).2 } := by
    simp only [Accepting.step, hcall, ControlState.step, ControlState.proceed_calls]
  have hanswered : (s.step seed globalConnections (.control (.advance i bind))).answered = s.answered := by
    simp only [Accepting.step, hcall]
  constructor
  · intro j name patch call' hcall' hrequest
    rw [hsettings]
    rw [hcalls, List.getElem?_set] at hcall'
    split at hcall'
    · next hij =>
      subst hij
      cases hcall'
      rcases h.updating i name patch call hcall hrequest with hupdating | ⟨d, hd, hcaller⟩
      · rcases s.control.proceed_updating seed hupdating bind with hnext | ⟨hsettles, hreturned, hpresent⟩
        · exact .inl hnext
        · obtain ⟨entry, hget⟩ := Option.isSome_iff_exists.1 hpresent
          refine .inr ⟨⟨some i, entry.spec.governing⟩, ?_, rfl⟩
          simp only [settle, hsettles, hget, hreturned, if_true, Function.update_self]
          exact List.mem_cons_self
      · exact .inr ⟨d, mem_settle s i _ _ hd, hcaller⟩
    · rcases h.updating j name patch call' hcall' hrequest with hupdating | ⟨d, hd, hcaller⟩
      · exact .inl hupdating
      · exact .inr ⟨d, mem_settle s i _ _ hd, hcaller⟩
  · intro j hj
    rw [hanswered] at hj
    obtain ⟨call', hcall', hsucceeded⟩ := h.answered j hj
    rw [hcalls, List.getElem?_set]
    split
    · next hij =>
      subst hij
      rw [hcall] at hcall'
      cases hcall'
      refine ⟨_, rfl, ?_⟩
      rw [proceed_succeeded s.control seed hsucceeded bind]
      exact hsucceeded
    · exact ⟨call', hcall', hsucceeded⟩

theorem Recorded.step (h : Recorded s) (op : AcceptOp) : Recorded (s.step seed globalConnections op) := by
  cases op with
  | control op =>
    cases op with
    | begin request =>
      have hcalls : (s.control.step seed (.begin request)).calls =
          s.control.calls ++ [⟨request, (s.control.start seed request).2⟩] := by
        simp only [ControlState.step, (s.control.start_regenerated seed request).calls]
      constructor
      · intro i name patch call hcall hrequest
        change (s.control.step seed (.begin request)).calls[i]? = some call at hcall
        rw [hcalls, List.getElem?_append] at hcall
        split at hcall
        · exact h.updating i name patch call hcall hrequest
        · rw [List.mem_singleton.1 (List.mem_of_getElem? hcall)] at hrequest ⊢
          cases hrequest
          exact .inl (s.control.start_updating seed name patch)
      · intro i hi
        obtain ⟨call, hcall, hsucceeded⟩ := h.answered i hi
        refine ⟨call, ?_, hsucceeded⟩
        change (s.control.step seed (.begin request)).calls[i]? = some call
        rw [hcalls, List.getElem?_append_left (List.getElem?_eq_some_iff.1 hcall).1]
        exact hcall
    | advance i bind =>
      cases hcall : s.control.calls[i]? with
      | none =>
        have hsame : s.step seed globalConnections (.control (.advance i bind)) = s := by
          simp only [Accepting.step, ControlState.step, hcall]
        rw [hsame]
        exact h
      | some call => exact h.advance hcall bind
    | supervisor k turn =>
      have hcalls := s.control.step_supervisor_calls seed k turn
      exact ⟨fun i name patch call hcall => h.updating i name patch call (hcalls ▸ hcall),
        fun i hi => hcalls.symm ▸ h.answered i hi⟩
  | answer i =>
    simp only [Accepting.step]
    split
    · next hdone =>
      refine ⟨h.updating, fun j hj => ?_⟩
      rcases List.mem_cons.1 hj with rfl | hj
      · cases hcall : s.control.calls[j]? with
        | none =>
          rw [hcall] at hdone
          cases hdone
        | some call =>
          rw [hcall] at hdone
          exact ⟨call, rfl, hdone⟩
      · exact h.answered j hj
    · exact h
  | accept k current currentProxy =>
    have hcalls := s.control.step_supervisor_calls seed k .accepted
    simp only [Accepting.step]
    split
    · exact h
    · exact ⟨fun i name patch call hcall => h.updating i name patch call (hcalls ▸ hcall),
        fun i hi => hcalls.symm ▸ h.answered i hi⟩

/-- The setting that an answered update of the proxy has left. -/
theorem Recorded.setting (h : Recorded s) {i : Nat} (hi : i ∈ s.answered) {name : String} (hupdates : s.control.updates i name) :
    ∃ newer d older, s.settings name = newer ++ d :: older ∧ d.caller = some i := by
  obtain ⟨call, patch, hcall, hrequest⟩ := hupdates
  obtain ⟨call', hcall', hsucceeded⟩ := h.answered i hi
  rw [hcall] at hcall'
  cases hcall'
  rcases h.updating i name patch call hcall hrequest with hupdating | ⟨d, hd, hcaller⟩
  · rw [hupdating.not_succeeded] at hsucceeded
    cases hsucceeded
  · obtain ⟨newer, older, hsettings⟩ := List.append_of_mem hd
    exact ⟨newer, d, older, hsettings, hcaller⟩

theorem waiting_clones {k : Nat} {c : EntryClone} (h : c ∈ s.waiting k) : s.clones k = some c := by
  unfold waiting at h
  split at h
  · exact h
  · cases h

/-- An accept by a supervisor that has looked late enough is governed. -/
theorem governed_of_fresh (ht : Tracked s) (hr : Recorded s) {op : AcceptOp} (hfresh : s.Fresh op) : s.Governed op := by
  cases op with
  | control op => trivial
  | answer i => trivial
  | accept k current currentProxy =>
    intro c hc i hi hupdates
    obtain ⟨newer, d, older, hsettings, hcaller⟩ := hr.setting hi hupdates
    exact ⟨newer, d, older, hsettings, hcaller, ht.newest (waiting_clones hc) (hfresh c hc) hsettings hcaller hi⟩

/-- In every run in which each supervisor that accepts has looked at its entry since
the updates answered so far, or finds it unchanged, each connection is accepted with
the values of every update answered by then, or of a later setting. Every
supervisor that waits for a connection holds such values. -/
theorem accepted_governed (seed : UInt64) (globalConnections : Nat) (ops : List AcceptOp)
    (hfresh : Along (Accepting.step seed globalConnections) Fresh .empty ops) :
    Along (Accepting.step seed globalConnections) Governed .empty ops ∧
    ∀ k v, (run (Accepting.step seed globalConnections) .empty ops).control.supervisors[k]? = some v →
      v.phase = .accepting →
      ∃ c, (run (Accepting.step seed globalConnections) .empty ops).waiting k = some c ∧ c.name = v.name := by
  constructor
  · refine Along.imp (fun s => Tracked s ∧ Recorded s) ?_ ?_ ⟨Tracked.empty, Recorded.empty⟩ hfresh
    · intro s op hs _
      exact ⟨hs.1.step op, hs.2.step op⟩
    · intro s op hs hok
      exact governed_of_fresh hs.1 hs.2 hok
  · intro k v hv hphase
    have hlooked : Looked (run (Accepting.step seed globalConnections) .empty ops) :=
      run_inv Looked (fun s op hs => hs.step op) Looked.empty ops
    obtain ⟨c, hc, hname⟩ := hlooked k v hv hphase
    refine ⟨c, ?_, hname⟩
    simp [waiting, hv, hphase, hc]

/-- Proxy `p` is imported and started, and its supervisor waits for a connection. -/
def waitingOps : List AcceptOp :=
  [.control (.begin (.importDefinition plainSpec)), .control (.advance 0 (.error "")),
    .control (.begin (.setEnabled "p" true)), .control (.advance 1 (.error "")),
    .control (.advance 1 (.ok plainSpec.listen)), .control (.advance 1 (.error "")),
    .control (.advance 1 (.error "")), .control (.supervisor 0 .look)]

/-- An update of `p` returns, and its caller has the result. -/
def limitedOps : List AcceptOp :=
  waitingOps ++ [.control (.begin (.update "p" limitPatch)), .control (.advance 2 (.error "")),
    .control (.advance 2 (.error "")), .answer 2]

/-- Two connections after the update: the first finds an accept that failed before it. -/
theorem accepted_governed_limited :
    Along (Accepting.step 0 64) Governed .empty
      (limitedOps ++ [.control (.supervisor 0 .accepted), .control (.supervisor 0 .look), .accept 0 6 6]) ∧
    (run (Accepting.step 0 64) .empty
      (limitedOps ++ [.control (.supervisor 0 .accepted), .control (.supervisor 0 .look), .accept 0 6 6])).connections =
        [("p", none)] :=
  ⟨(accepted_governed 0 64 _ (by decide)).1, rfl⟩

/-- The supervisor waits with the entry from before the update: a sixth connection is
admitted although the update that allows five has returned. -/
theorem waiting_not_governed :
    (run (Accepting.step 0 64) .empty (limitedOps ++ [.accept 0 6 6])).connections =
        [("p", some ⟨"p", plainSpec.upstream, plainSpec.connectTimeout⟩)] ∧
    ¬ ∀ (seed : UInt64) (globalConnections : Nat) (ops : List AcceptOp),
      Along (Accepting.step seed globalConnections) Governed .empty ops := by
  refine ⟨rfl, fun hall => ?_⟩
  have hlast := (along_append.1 (hall 0 64 (limitedOps ++ [.accept 0 6 6]))).2.1
  have hupdates : (run (Accepting.step 0 64) .empty limitedOps).control.updates 2 "p" := ⟨_, limitPatch, rfl, rfl⟩
  obtain ⟨newer, d, older, hsettings, hcaller, e, he, hvalues⟩ := hlast _ rfl 2 (by decide) hupdates
  have hstood : (run (Accepting.step 0 64) .empty limitedOps).settings "p" =
      [⟨some 2, ⟨some 5, plainSpec.connectTimeout, plainSpec.upstream⟩⟩, ⟨none, plainSpec.governing⟩] := rfl
  have hset := hstood.symm.trans hsettings
  cases newer with
  | nil =>
    rw [List.mem_singleton.1 he, ← (List.cons.inj hset).1] at hvalues
    exact absurd hvalues (by decide)
  | cons e' newer =>
    have hd : d ∈ [(⟨none, plainSpec.governing⟩ : Setting)] := by
      rw [List.cons_append, List.cons.injEq] at hset
      rw [hset.2]
      exact List.mem_append_right _ List.mem_cons_self
    rw [List.mem_singleton.1 hd] at hcaller
    cases hcaller

end Accepting

end Eggchaos
