import Eggchaos.FieldUpdates
import Mathlib.Data.List.Nodup
import Mathlib.Data.List.ProdSigma
/-!
# What is registered

`proceed_writes` says everything a completed await does to the registry, and
`Proceeds.sound` what a call has checked of the definition it holds. From these
the registry keeps its facts over every run: keys are names, stored definitions
are valid, and a proxy runs exactly if it has a bound address.

The limit of 1024 entries is another matter. `create_proxy` checks it before it
binds and again where it inserts, `import_definition` does not.
-/

namespace Eggchaos
open Lib

/-! ## Entries -/

/-- What holds of the entry stored under `name`. -/
structure ManagedProxy.Sound (name : String) (entry : ManagedProxy) : Prop where
  key : entry.spec.name = name
  valid : entry.spec.validate = .ok ()
  bound : entry.running = entry.boundAddr.isSome

def Registry.Sound (r : Registry) : Prop := ∀ p ∈ r, ManagedProxy.Sound p.1 p.2

namespace Registry

variable {r : Registry}

theorem Sound.modify (h : r.Sound) {name : String} {f : ManagedProxy → ManagedProxy}
    (hf : ∀ entry, entry.Sound name → (f entry).Sound name) : (r.modify name f).Sound := by
  intro p hp
  obtain ⟨q, hq, rfl⟩ := List.mem_map.1 hp
  split
  · next hname => exact hname ▸ hf q.2 (hname ▸ h q hq)
  · exact h q hq

theorem Sound.insert (h : r.Sound) {name : String} {entry : ManagedProxy} (he : entry.Sound name) :
    (r.insert name entry).Sound := by
  intro p hp
  rcases List.mem_append.1 hp with hold | hnew
  · exact h p hold
  · rw [List.mem_singleton.1 hnew]
    exact he

theorem Sound.remove (h : r.Sound) (name : String) : (r.remove name).Sound :=
  fun p hp => h p (List.mem_of_mem_filter hp)

theorem Sound.get (h : r.Sound) {name : String} {entry : ManagedProxy} (hget : r.get name = some entry) :
    entry.Sound name := h _ (mem_of_get hget)

theorem length_modify (name : String) (f : ManagedProxy → ManagedProxy) : (r.modify name f).length = r.length :=
  List.length_map _

theorem length_insert (name : String) (entry : ManagedProxy) : (r.insert name entry).length = r.length + 1 :=
  List.length_append

theorem length_remove_le (name : String) : (r.remove name).length ≤ r.length := List.length_filter_le _ _

end Registry

/-! ## Publications keep definitions valid -/

namespace ProxySpec

/-- The checks of `validate` that do not look at the plans. -/
theorem validate_withMirror {spec : ProxySpec} (h : spec.validate = .ok ()) (direction : Direction) {plan : FaultPlan}
    (hplan : plan.validate = .ok ()) : (spec.withMirror direction plan).validate = .ok () := by
  obtain ⟨hup, hdown⟩ := validate_plans h
  cases direction with
  | upstream =>
    unfold validate at h ⊢
    simp only [withMirror, hup, hdown, hplan] at h ⊢
    exact h
  | downstream =>
    unfold validate at h ⊢
    simp only [withMirror, hup, hdown, hplan] at h ⊢
    exact h

/-- The checks that do not look at the name. -/
theorem validate_rename {spec : ProxySpec} (h : spec.validate = .ok ()) {name : String} (hne : name ≠ "")
    (hsize : name.utf8ByteSize ≤ 128) (hchars : name.toList.all isNameChar = true) :
    ({ spec with name } : ProxySpec).validate = .ok () := by
  unfold validate at h ⊢
  rw [if_neg (by simp [hne, hsize]), if_neg (by simp [hchars])]
  split at h
  · cases h
  · split at h
    · cases h
    · exact h

/-- A change of the plans that keeps name and validity. -/
structure Keeps (spec spec' : ProxySpec) : Prop where
  name : spec'.name = spec.name
  valid : spec.validate = .ok () → spec'.validate = .ok ()

theorem Keeps.trans {spec spec' spec'' : ProxySpec} (h : Keeps spec spec') (h' : Keeps spec' spec'') : Keeps spec spec'' :=
  ⟨h'.name.trans h.name, fun hv => h'.valid (h.valid hv)⟩

/-- Only policies and mirrors are exchanged, the mirrors for validated plans. -/
inductive Replans (spec : ProxySpec) : ProxySpec → Prop
  | refl : Replans spec spec
  | withPolicy {spec' : ProxySpec} (h : Replans spec spec') (direction : Direction) (p : LivePolicy) :
      Replans spec (spec'.withPolicy direction p)
  | withMirror {spec' : ProxySpec} (h : Replans spec spec') (direction : Direction) {plan : FaultPlan}
      (hvalid : plan.validate = .ok ()) : Replans spec (spec'.withMirror direction plan)

theorem Replans.keeps {spec spec' : ProxySpec} (h : Replans spec spec') : Keeps spec spec' := by
  induction h with
  | refl => exact ⟨rfl, id⟩
  | withPolicy _ direction p ih =>
    refine ih.trans ?_
    cases direction <;> exact ⟨rfl, id⟩
  | withMirror _ direction hvalid ih =>
    refine ih.trans ⟨?_, fun hv => validate_withMirror hv direction hvalid⟩
    cases direction <;> rfl

variable (spec : ProxySpec)

theorem publishDirection_replans (direction : Direction) (plan : FaultPlan) (seedNamespace : UInt64) :
    Replans spec (spec.publishDirection direction plan seedNamespace).2 := by
  unfold publishDirection
  split
  · exact .withPolicy .refl direction _
  · next published _ _ => exact .withMirror (.withPolicy .refl direction _) direction published.valid

theorem clearDirection_replans (direction : Direction) : Replans spec (spec.clearDirection direction).2 := by
  unfold clearDirection
  split
  · exact .withPolicy .refl direction _
  · exact .withMirror (.withPolicy .refl direction _) direction rfl

end ProxySpec

theorem PolicyChange.apply_replans (change : PolicyChange) (spec : ProxySpec) : spec.Replans (change.apply spec).2 := by
  cases change with
  | addFault upsert =>
    simp only [apply, ProxySpec.addFault]
    split
    · exact .refl
    · split
      · exact .refl
      · split
        · exact .refl
        · exact spec.publishDirection_replans _ _ _
  | updateFault id patch =>
    simp only [apply, ProxySpec.updateFault]
    split
    · exact .refl
    · split
      · exact .refl
      · split
        · exact .refl
        · split
          · exact .refl
          · split
            · exact .refl
            · exact spec.publishDirection_replans _ _ _
  | removeFault id =>
    simp only [apply, ProxySpec.removeFault]
    split
    · exact .refl
    · split
      · exact .refl
      · exact spec.publishDirection_replans _ _ _
  | publishPlans upstream downstream =>
    simp only [apply, ProxySpec.publishPlans]
    split
    · exact .refl
    · exact .refl
    · split
      · exact .withPolicy .refl .upstream _
      · next up _ _ =>
        have hup := ProxySpec.Replans.withPolicy (@ProxySpec.Replans.refl spec) .upstream
        split
        · exact (hup _).withPolicy .downstream _
        · next down _ _ => exact (((hup _).withPolicy .downstream _).withMirror .upstream up.valid).withMirror .downstream down.valid
  | publishDirectionExpected direction plan seedNamespace expected =>
    simp only [apply, ProxySpec.publishDirectionExpected]
    split
    · exact .withPolicy .refl direction _
    · exact .withPolicy .refl direction _
    · next published _ _ => exact .withMirror (.withPolicy .refl direction _) direction published.valid

namespace ManagedProxy

variable {name : String} {entry : ManagedProxy}

theorem Sound.keeps (h : entry.Sound name) {spec : ProxySpec} (hk : entry.spec.Keeps spec) (asked : SpecFields) :
    ManagedProxy.Sound name { entry with spec, asked } := ⟨hk.name.trans h.key, hk.valid h.valid, h.bound⟩

theorem Sound.changed (h : entry.Sound name) (change : PolicyChange) : (entry.changed change).Sound name := by
  have hk := (change.apply_replans entry.spec).keeps
  unfold ManagedProxy.changed
  split
  · next heq =>
    rw [heq] at hk
    exact h.keeps hk _
  · next heq =>
    rw [heq] at hk
    exact h.keeps hk _

theorem Sound.cleared (h : entry.Sound name) : entry.cleared.Sound name := by
  have henabled : entry.spec.Keeps { entry.spec with enabled := true } := ⟨rfl, id⟩
  exact h.keeps ((henabled.trans (ProxySpec.clearDirection_replans _ .upstream).keeps).trans
    (ProxySpec.clearDirection_replans _ .downstream).keeps) _

theorem Sound.written (h : entry.Sound name) (patch : ProxyPatch) {spec : ProxySpec} (hname : spec.name = name)
    (hvalid : spec.validate = .ok ()) : (entry.written patch spec).Sound name := ⟨hname, hvalid, h.bound⟩

end ManagedProxy

/-! ## What a call holds -/

/-- The definition a call has in hand, and the name it goes under. -/
def Task.holds : Task → Option (String × ProxySpec)
  | .writingBack name _ spec | .prebinding name _ spec | .releasing name _ spec _ | .draining name _ spec _ _
  | .respawning name _ spec _ | .restoring name _ spec _ _ => some (name, spec)
  | .checking spec | .createBinding spec | .createSpawning spec _ | .inserting spec _ _ | .importing spec =>
    some (spec.name, spec)
  | _ => none

/-- What a call holds is checked. -/
def Task.Sound (task : Task) : Prop :=
  ∀ name spec, task.holds = some (name, spec) → spec.name = name ∧ spec.validate = .ok ()

theorem Task.Resumed.holds {task : Task} (h : task.Resumed) : task.holds = none := by
  cases h <;> rfl

theorem Task.sound_of_none {task : Task} (h : task.holds = none) : task.Sound := by
  intro name spec hheld
  rw [h] at hheld
  cases hheld

namespace ControlState

variable (s : ControlState)

/-- What a call goes on with: nothing, what it held before, the clone that it has
just checked, or the definition it has bound a listener for. -/
inductive Holds (seed : UInt64) : Task → Option (String × ProxySpec) → Prop
  | nothing (task) : Holds seed task none
  | same {task held} (h : task.holds = held) : Holds seed task held
  | cloned {name p entry} (hget : s.proxies.get name = some entry) (hvalid : (p.patch.apply entry.spec).validate = .ok ()) :
      Holds seed (.cloning name p) (some (name, p.patch.apply entry.spec))
  | bound (spec) : Holds seed (.createBinding spec) (some (spec.name, { spec.initPolicies seed with enabled := true }))

variable {seed : UInt64}

theorem Proceeds.holds {task : Task} {out : ControlState × Task} (h : Proceeds seed s task out) :
    s.Holds seed task out.2.holds := by
  have none : ∀ {task' : Task}, task'.Resumed → s.Holds seed task task'.holds := by
    intro task' h
    rw [h.holds]
    exact .nothing task
  cases h with
  | leaves _ _ ht | joined _ _ _ ht | foundRunning _ _ _ ht | foundStopped _ _ _ ht | stores _ _ ht | clears _ ht
  | writes _ _ ht | restores _ _ ht | inserts _ _ _ ht | imports _ _ ht | changes _ _ ht => exact none ht
  | returned | waits | prebound | releases | drained | respawns | checks | createSpawns => exact .same rfl
  | clones hget hvalid | clonesRestart hget hvalid => exact .cloned hget hvalid
  | createBound => exact .bound _
  | enables | disables | rereads | bound | spawns | removes | abandonsStart | abandonsRestart | abandonsCreate =>
    exact .nothing _

theorem Proceeds.sound {task : Task} {out : ControlState × Task} (hp : Proceeds seed s task out)
    (h : s.proxies.Sound) (ht : task.Sound) : out.2.Sound := by
  have hheld : s.Holds seed task _ := hp.holds
  intro name spec hspec
  rw [hspec] at hheld
  cases hheld with
  | same hsame => exact ht name spec hsame
  | cloned hget hvalid => exact ⟨(h.get hget).key, hvalid⟩
  | bound spec => exact ⟨rfl, (ht _ spec rfl).2⟩

end ControlState

/-! ## What a call writes -/

/-- Everything a completed await does to the registry. -/
inductive Task.Writes (r : Registry) : Task → Registry → Prop
  | nothing (task) : Writes r task r
  | asked (task name enabled) : Writes r task (r.modify name (·.askedEnabled enabled))
  | disabled (task name token) : Writes r task (r.modify name (·.disabled token))
  | stored (task name bound token k) : Writes r task (r.modify name (·.stored bound token k))
  | released (task name token) : Writes r task (r.modify name (·.released token))
  | changed (task name change) : Writes r task (r.modify name (·.changed change))
  | cleared (task) : Writes r task (r.map fun p => (p.1, p.2.cleared))
  | removed (task name) : Writes r task (r.remove name)
  | written (name p spec) : Writes r (.writingBack name p spec) (r.modify name (·.written p.patch spec))
  | restarted (name p spec bound token k) :
      Writes r (.restoring name p spec bound k) (r.modify name (·.restarted p.patch spec bound token k))
  | created (spec bound token k) (hfree : r.get spec.name = none) (hroom : r.length < maxStreamProxies) :
      Writes r (.inserting spec bound k) (r.insert spec.name ⟨spec, true, some bound, token, some k, spec.fields⟩)
  | imported (spec token) (hfree : r.get spec.name = none) :
      Writes r (.importing spec) (r.insert spec.name ⟨spec, false, none, token, none, spec.fields⟩)

namespace ControlState

variable (s : ControlState) {seed : UInt64}

theorem Proceeds.writing {task : Task} {out : ControlState × Task} (h : Proceeds seed s task out) :
    task.Writes s.proxies out.1.proxies := by
  cases h with
  | leaves _ hs | joined _ _ hs =>
    rw [hs.proxies]
    exact .nothing task
  | foundRunning _ _ hs | foundStopped _ _ hs =>
    rw [hs.proxies]
    exact .asked _ _ _
  | stores _ hs =>
    rw [hs.proxies]
    exact .stored _ _ _ _ _
  | clears hs =>
    rw [hs.proxies]
    exact .cleared _
  | writes _ hs =>
    rw [hs.proxies]
    exact .written _ _ _
  | restores _ hs =>
    rw [hs.proxies]
    exact .restarted _ _ _ _ _ _
  | inserts hfree hroom hs =>
    rw [hs.proxies]
    exact .created _ _ _ _ hfree hroom
  | imports hfree hs =>
    rw [hs.proxies]
    exact .imported _ _ hfree
  | changes _ hs =>
    rw [hs.proxies]
    exact .changed _ _ _
  | disables => exact .disabled _ _ _
  | releases => exact .released _ _ _
  | removes => exact .removed _ _
  | returned | waits | enables | rereads | bound | spawns | clones | clonesRestart | prebound | drained | respawns
  | checks | createBound | createSpawns | abandonsStart | abandonsRestart | abandonsCreate => exact .nothing _

theorem proceed_writes (task : Task) (bind : Except String SocketAddr) :
    task.Writes s.proxies (s.proceed seed task bind).1.proxies := (s.proceed_cases seed task bind).writing

end ControlState

namespace Task

variable {r r' : Registry} {task : Task}

theorem Writes.sound (hw : task.Writes r r') (h : r.Sound) (ht : task.Sound) : r'.Sound := by
  cases hw with
  | nothing => exact h
  | asked _ name enabled => exact h.modify fun entry he => ⟨he.key, he.valid, he.bound⟩
  | disabled _ name token => exact h.modify fun entry he => ⟨he.key, he.valid, rfl⟩
  | stored _ name bound token k => exact h.modify fun entry he => ⟨he.key, he.valid, rfl⟩
  | released _ name token => exact h.modify fun entry he => ⟨he.key, he.valid, rfl⟩
  | changed _ name change => exact h.modify fun entry he => he.changed change
  | cleared =>
    intro p hp
    obtain ⟨q, hq, rfl⟩ := List.mem_map.1 hp
    exact (h q hq).cleared
  | removed _ name => exact h.remove name
  | written name p spec =>
    obtain ⟨hname, hvalid⟩ := ht name spec rfl
    exact h.modify fun entry he => he.written p.patch hname hvalid
  | restarted name p spec bound token k =>
    obtain ⟨hname, hvalid⟩ := ht name spec rfl
    exact h.modify fun entry he => ⟨hname, hvalid, rfl⟩
  | created spec bound token k _ _ => exact h.insert ⟨rfl, (ht _ spec rfl).2, rfl⟩
  | imported spec token _ => exact h.insert ⟨rfl, (ht _ spec rfl).2, rfl⟩

end Task

namespace Task

/-- The await of `import_definition` that adds an entry to a full registry. -/
def Overfills (r : Registry) : Task → Prop
  | .importing spec => r.get spec.name = none ∧ maxStreamProxies ≤ r.length
  | _ => False

variable {r r' : Registry} {task : Task}

theorem Writes.length_le (hw : task.Writes r r') (h : r.length ≤ maxStreamProxies) (hfill : ¬ task.Overfills r) :
    r'.length ≤ maxStreamProxies := by
  cases hw with
  | nothing => exact h
  | asked | disabled | stored | released | changed | written | restarted =>
    rw [Registry.length_modify]
    exact h
  | cleared =>
    rw [List.length_map]
    exact h
  | removed _ name => exact (Registry.length_remove_le name).trans h
  | created spec bound token k _ hroom =>
    rw [Registry.length_insert]
    omega
  | imported spec token hfree =>
    have hroom : ¬ maxStreamProxies ≤ r.length := fun hfull => hfill ⟨hfree, hfull⟩
    rw [Registry.length_insert]
    omega

end Task

namespace ControlState

variable (s : ControlState) {seed : UInt64}

/-! ## Runs -/

/-- An import proceeds that finds its name free. -/
theorem proceed_importing {spec : ProxySpec} (hfree : s.proxies.get spec.name = none) (bind : Except String SocketAddr) :
    s.proceed seed (.importing spec) bind = (s.insertStopped spec).bump.ok := by
  simp [proceed, hfree]

theorem proceed_length_iff (h : s.proxies.length ≤ maxStreamProxies) (task : Task) (bind : Except String SocketAddr) :
    (s.proceed seed task bind).1.proxies.length ≤ maxStreamProxies ↔ ¬ task.Overfills s.proxies := by
  constructor
  · intro hle hfill
    cases task with
    | importing spec =>
      obtain ⟨hfree, hfull⟩ := hfill
      rw [s.proceed_importing hfree] at hle
      have hlen : (s.insertStopped spec).bump.ok.1.proxies.length = s.proxies.length + 1 := Registry.length_insert _ _
      omega
    | _ => exact hfill
  · exact (s.proceed_writes task bind).length_le h

theorem start_sound (request : ControlRequest) : (s.start seed request).2.Sound := by
  unfold start
  cases request with
  | create spec =>
    dsimp only
    split
    · exact Task.sound_of_none rfl
    · next hvalid =>
      intro name spec' hheld
      cases hheld
      exact ⟨rfl, hvalid⟩
  | importDefinition spec =>
    dsimp only
    split
    · exact Task.sound_of_none rfl
    · next hvalid =>
      intro name spec' hheld
      cases hheld
      exact ⟨rfl, hvalid⟩
  | startAll | delete name | reset => exact Task.sound_of_none rfl
  | setEnabled name enabled => cases enabled <;> exact Task.sound_of_none rfl
  | update name patch =>
    dsimp only
    split
    · exact Task.sound_of_none rfl
    · exact Task.sound_of_none rfl
    · exact Task.sound_of_none (patchFields_resumed _ _ _).holds
  | change name change =>
    dsimp only
    split <;> exact Task.sound_of_none rfl

/-- The entries are sound, and so is what calls hold. -/
structure Sound : Prop where
  proxies : s.proxies.Sound
  calls : ∀ call ∈ s.calls, call.task.Sound

variable {s}

theorem Sound.step (h : s.Sound) (o : Op) : (s.step seed o).Sound := by
  cases o with
  | begin request =>
    refine ⟨?_, ?_⟩
    · simp only [ControlState.step, (s.start_regenerated seed request).proxies]
      exact h.proxies
    · simp only [ControlState.step, (s.start_regenerated seed request).calls]
      intro call hcall
      rcases List.mem_append.1 hcall with hold | hnew
      · exact h.calls call hold
      · rw [List.mem_singleton.1 hnew]
        exact s.start_sound request
  | advance i bind =>
    simp only [ControlState.step]
    split
    · exact h
    · next call hcall =>
      have ht := h.calls call (List.mem_of_getElem? hcall)
      refine ⟨(s.proceed_writes call.task bind).sound h.proxies ht, ?_⟩
      simp only [s.proceed_calls]
      intro call' hmem
      rcases List.mem_or_eq_of_mem_set hmem with hold | rfl
      · exact h.calls call' hold
      · exact (s.proceed_cases seed call.task bind).sound s h.proxies ht
  | supervisor k turn =>
    simp only [ControlState.step]
    split
    · exact h
    · exact ⟨h.proxies, h.calls⟩

/-- The step lets an import overfill the registry. -/
def StepOverfills (s : ControlState) : Op → Prop
  | .advance i _ => ∃ call, s.calls[i]? = some call ∧ call.task.Overfills s.proxies
  | .begin _ | .supervisor _ _ => False

theorem step_length_iff (h : s.proxies.length ≤ maxStreamProxies) (o : Op) :
    (s.step seed o).proxies.length ≤ maxStreamProxies ↔ ¬ s.StepOverfills o := by
  cases o with
  | begin request =>
    simp only [step, (s.start_regenerated seed request).proxies]
    exact iff_of_true h id
  | advance i bind =>
    simp only [step, StepOverfills]
    split
    · next hnone => simpa [hnone] using h
    · next call hcall =>
      simp only [hcall, Option.some.injEq, exists_eq_left']
      exact s.proceed_length_iff h call.task bind
  | supervisor k turn =>
    simp only [step, StepOverfills]
    split <;> exact iff_of_true h id

end ControlState

/-- What the registry is to keep. -/
def Registry.Kept (r : Registry) : Prop := r.length ≤ maxStreamProxies ∧ r.Sound

open ControlState in
/-- Whatever calls are made and however they interleave, the registry keeps all
its facts in every state exactly if no import adds an entry to a full one. -/
theorem registry_kept_iff (seed : UInt64) (ops : List Op) :
    (∀ pre, pre <+: ops → (run (step seed) .empty pre).proxies.Kept) ↔
      Along (step seed) (fun s o => ¬ s.StepOverfills o) .empty ops := by
  have hnil : ControlState.Sound .empty := by
    refine ⟨?_, ?_⟩
    · intro p hp
      cases hp
    · intro call hcall
      cases hcall
  refine prefixes_iff_along (I := fun s => s.proxies.Kept) (J := ControlState.Sound) (fun s o h => h.step o) ?_
    ⟨Nat.zero_le _, hnil.proxies⟩ hnil ops
  intro s o hkept hsound
  rw [Registry.Kept, and_iff_left (hsound.step o).proxies]
  exact step_length_iff hkept.1 o

/-! ## Imports one after the other -/

/-- Import the definitions in order; the first of these calls is call `i`. -/
def imports : Nat → List ProxySpec → List ControlState.Op
  | _, [] => []
  | i, spec :: specs => .begin (.importDefinition spec) :: .advance i (.error "") :: imports (i + 1) specs

open ControlState in
/-- An import of a valid definition under a free name, with both its steps. -/
theorem run_import (seed : UInt64) (s : ControlState) {spec : ProxySpec} (hvalid : spec.validate = .ok ())
    (hfree : s.proxies.get spec.name = none) :
    let s' := run (step seed) s [.begin (.importDefinition spec), .advance s.calls.length (.error "")]
    s'.proxies = s.proxies.insert spec.name
        ⟨spec.initPolicies seed, false, none, s.tokens, none, (spec.initPolicies seed).fields⟩ ∧
      s'.calls.length = s.calls.length + 1 := by
  have hstart : s.start seed (.importDefinition spec) = (s, .importing (spec.initPolicies seed)) := by
    simp [start, hvalid]
  have hget : s.proxies.get (spec.initPolicies seed).name = none := hfree
  have hgo : ∀ calls, proceed seed { s with calls } (.importing (spec.initPolicies seed)) (.error "") =
      (insertStopped { s with calls } (spec.initPolicies seed)).bump.ok :=
    fun calls => proceed_importing { s with calls } hget _
  simp only [run_cons, run_nil, step, hstart, List.getElem?_concat_length, hgo]
  exact ⟨rfl, by simp [ok, bump, insertStopped]⟩

open ControlState in
/-- Imports of new definitions all get through, however many there are. -/
theorem run_imports (seed : UInt64) (specs : List ProxySpec) (s : ControlState)
    (hvalid : ∀ spec ∈ specs, spec.validate = .ok ()) (hnames : (specs.map (·.name)).Nodup)
    (hfree : ∀ spec ∈ specs, s.proxies.get spec.name = none) :
    (run (step seed) s (imports s.calls.length specs)).proxies.length = s.proxies.length + specs.length := by
  induction specs generalizing s with
  | nil => rfl
  | cons spec specs ih =>
    obtain ⟨hproxies, hcalls⟩ := run_import seed s (hvalid spec (by simp)) (hfree spec (by simp))
    obtain ⟨hnew, hnodup⟩ := List.nodup_cons.1 hnames
    simp only [run_cons, run_nil] at hproxies hcalls
    simp only [imports, run_cons, ← hcalls]
    rw [ih _ (fun spec' h => hvalid spec' (by simp [h])) hnodup, hproxies, Registry.length_insert, List.length_cons]
    · omega
    · intro spec' hmem
      rw [hproxies, Registry.get_insert, hfree spec' (by simp [hmem])]
      have hne : spec.name ≠ spec'.name := by
        intro heq
        exact hnew (List.mem_map.2 ⟨spec', hmem, heq.symm⟩)
      simp [hne]

/-- Letters and digits, enough of them for more than 1024 names of two. -/
def nameChars : List Char := "abcdefghijklmnopqrstuvwxyz0123456789".toList

def shortNames : List String := (nameChars ×ˢ nameChars).map fun p => String.ofList [p.1, p.2]

theorem shortNames_nodup : shortNames.Nodup := by
  refine List.Nodup.map ?_ (List.Nodup.product (by decide) (by decide))
  rintro ⟨a, b⟩ ⟨a', b'⟩ h
  simpa using congrArg String.toList h

theorem shortNames_valid : ∀ name ∈ shortNames, ({ plainSpec with name } : ProxySpec).validate = .ok () := by
  intro name hname
  have h : plainSpec.validate = .ok () := rfl
  obtain ⟨⟨a, b⟩, hmem, rfl⟩ := List.mem_map.1 hname
  obtain ⟨ha, hb⟩ := List.mem_product.1 hmem
  have hclass : nameChars.all ProxySpec.isNameChar = true := by decide
  have hsize : (nameChars ×ˢ nameChars).all (fun p => (String.ofList [p.1, p.2]).utf8ByteSize ≤ 128) = true := by
    decide +kernel
  rw [List.all_eq_true] at hclass hsize
  refine ProxySpec.validate_rename h ?_ (by simpa using hsize (a, b) hmem) ?_
  · intro hempty
    have := congrArg String.toList hempty
    simp at this
  · simp [hclass a ha, hclass b hb]

open ControlState in
/-- 1296 definitions are imported, one after the other. -/
theorem imports_overfill :
    ¬ ∀ (seed : UInt64) (ops : List Op), (run (step seed) .empty ops).proxies.Kept := by
  intro hall
  have hlen := (hall 0 (imports 0 (shortNames.map fun name => { plainSpec with name }))).1
  have hspecs : ∀ spec ∈ shortNames.map fun name => ({ plainSpec with name } : ProxySpec), spec.validate = .ok () := by
    intro spec hspec
    obtain ⟨name, hname, rfl⟩ := List.mem_map.1 hspec
    exact shortNames_valid name hname
  have hnames : ((shortNames.map fun name => ({ plainSpec with name } : ProxySpec)).map (·.name)).Nodup := by
    simpa [List.map_map, Function.comp_def] using shortNames_nodup
  have hrun := run_imports 0 _ .empty hspecs hnames fun _ _ => rfl
  rw [show ControlState.empty.calls.length = 0 from rfl] at hrun
  rw [hrun] at hlen
  have hcount : shortNames.length = 1296 := by
    rw [shortNames, List.length_map, List.length_product]
    rfl
  rw [List.length_map, hcount] at hlen
  exact absurd hlen (by decide)

end Eggchaos
