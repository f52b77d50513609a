import Eggchaos.DatagramImmediate
import Eggchaos.Lib.PopOrder
import Eggchaos.Lib.Runs
/-!
# Release order of datagrams

`take_ready` pops a `BinaryHeap` of candidates while the first is due. A heap
promises a least element only, so its order is fixed as far as the candidates'
order is: this module shows that no two candidates of an engine ever share
ordinal and copy index, over its whole history (`DatagramHistory`), and with it
that every heap pops the same list (`release_order`).
-/

namespace Eggchaos
open Lib

/-! ## Identities -/

/-- A candidate's identity: the ordinal of its datagram and its copy index. -/
def Candidate.key (c : Candidate) : Nat × Nat := (c.ordinal, c.copy)

def DatagramScheduled.key (d : DatagramScheduled) : Nat × Nat := (d.ingressOrdinal, d.copyIndex)

/-- Released earlier, or at one instant with the smaller identity. -/
def Candidate.before (a b : Candidate) : Prop :=
  a.at_ < b.at_ ∨ (a.at_ = b.at_ ∧ (a.ordinal < b.ordinal ∨ (a.ordinal = b.ordinal ∧ a.copy < b.copy)))

def DatagramAdmission.items : DatagramAdmission → List DatagramScheduled
  | .immediate items => items
  | .consumed | .queued => []

namespace DatagramDirectionEngine

/-- The identities an admission hands out: those of the items it emits and of
the candidates it adds to the queue. -/
def admittedKeys (e : DatagramDirectionEngine) (now : Nat) (payload : List Byte) (policy : PublishedDatagramPolicy) :
    List (Nat × Nat) :=
  let (admission, e') := e.admitDatagram now payload policy
  admission.items.map (·.key) ++ (e'.queue.diff e.queue).map (·.key)

end DatagramDirectionEngine

/-- An engine and the identities it has admitted so far. -/
structure DatagramHistory where
  engine : DatagramDirectionEngine
  admitted : List (Nat × Nat)

namespace DatagramHistory

def start (engine : DatagramDirectionEngine) : DatagramHistory := ⟨engine, []⟩

def step (s : DatagramHistory) : DatagramOp → DatagramHistory
  | .admission now payload policy =>
    ⟨(s.engine.admitDatagram now payload policy).2, s.admitted ++ s.engine.admittedKeys now payload policy⟩
  | .takeReady now => { s with engine := (s.engine.takeReady now).2 }
  | .discardAll => { s with engine := s.engine.discardAll.2 }

/-- An admission takes an ordinal below `u64::MAX`. -/
def OrdinalFree (s : DatagramHistory) : DatagramOp → Prop
  | .admission _ _ _ => s.engine.ordinal < u64Max
  | .takeReady _ | .discardAll => True

instance OrdinalFree.decidable : ∀ s op, Decidable (OrdinalFree s op)
  | s, .admission _ _ _ => inferInstanceAs (Decidable (s.engine.ordinal < u64Max))
  | _, .takeReady _ | _, .discardAll => .isTrue trivial

end DatagramHistory

/-! ## What an admission adds -/

namespace DatagramDirectionEngine

variable {e e' : DatagramDirectionEngine}

theorem apply_ordinal (e : DatagramDirectionEngine) (now : Nat) (fault : DatagramFaultSpec) (rng : DeterministicRng)
    (nextCopy : Nat) (c : Staged) : (e.apply now fault rng nextCopy c).2.1.ordinal = e.ordinal := by
  simp only [apply]
  cases fault.kind with
  | loss => rfl
  | duplicate copies => rfl
  | payloadCorrupt count =>
    simp only
    split <;> rfl
  | bandwidth rate burst =>
    simp only [bandwidthDelay]
    split <;> rfl
  | delay delay jitter => rfl
  | reorder hold => rfl

theorem runStage_ordinal (now : Nat) (policy : PublishedDatagramPolicy) (ordinal stage : Nat) (fault : DatagramFaultSpec)
    (cs : List Staged) (e : DatagramDirectionEngine) (nextCopy : Nat) :
    (runStage now policy ordinal stage fault e nextCopy cs).2.1.ordinal = e.ordinal := by
  induction cs generalizing e nextCopy with
  | nil => rfl
  | cons c cs ih =>
    simp only [runStage, ih, runCandidate]
    split
    · exact apply_ordinal ..
    · rfl

theorem runStages_ordinal (now : Nat) (policy : PublishedDatagramPolicy) (ordinal : Nat) (faults : List DatagramFaultSpec)
    (stage : Nat) (e : DatagramDirectionEngine) (nextCopy : Nat) (cs : List Staged) :
    (runStages now policy ordinal stage faults e nextCopy cs).2.ordinal = e.ordinal := by
  induction faults generalizing stage e nextCopy cs with
  | nil => rfl
  | cons fault faults ih => simp only [runStages, ih, runStage_ordinal]

/-- An admission under an ordinal emits `items` and queues `news`: their
identities are of that ordinal and differ, and the queue stays in order. -/
structure Adds (e e' : DatagramDirectionEngine) (ordinal : Nat) (items : List DatagramScheduled) (news : List Candidate) :
    Prop where
  ordinal_eq : e'.ordinal = e.ordinal
  queue : e'.queue.Perm (news ++ e.queue)
  sorted : e.queue.Pairwise Candidate.le → e'.queue.Pairwise Candidate.le
  of_ordinal : ∀ key ∈ items.map (·.key) ++ news.map (·.key), key.1 = ordinal
  nodup : (items.map (·.key) ++ news.map (·.key)).Nodup

/-- Nothing emitted, nothing queued. -/
theorem Adds.none (hordinal : e'.ordinal = e.ordinal) (hqueue : e'.queue = e.queue) (ordinal : Nat) :
    Adds e e' ordinal [] [] where
  ordinal_eq := hordinal
  queue := by rw [hqueue, List.nil_append]
  sorted h := by rwa [hqueue]
  of_ordinal := by simp
  nodup := by simp

theorem emitAll_engine (ordinal generation : Nat) (cs : List Staged) (e : DatagramDirectionEngine) :
    (emitAll ordinal generation e cs).2.queue = e.queue ∧ (emitAll ordinal generation e cs).2.ordinal = e.ordinal := by
  induction cs generalizing e with
  | nil => exact ⟨rfl, rfl⟩
  | cons c cs ih =>
    simp only [emitAll, emitImmediate]
    exact ih _

/-- The candidates that found room are queued. -/
theorem queueAll_queue (now ordinal generation : Nat) (cs : List Staged) (e : DatagramDirectionEngine) :
    ∃ kept : List Staged, kept.Sublist cs ∧
      (queueAll now ordinal generation e cs).2.queue.Perm
        (kept.map (Staged.queuedAt now ordinal generation) ++ e.queue) ∧
      (e.queue.Pairwise Candidate.le → (queueAll now ordinal generation e cs).2.queue.Pairwise Candidate.le) ∧
      (queueAll now ordinal generation e cs).2.ordinal = e.ordinal := by
  induction cs generalizing e with
  | nil => exact ⟨[], .slnil, .refl _, id, rfl⟩
  | cons c cs ih =>
    simp only [queueAll]
    split
    · obtain ⟨kept, hsub, hperm, hsorted, hordinal⟩ := ih { e with evidence := e.evidence.noteOverflow }
      exact ⟨kept, hsub.cons c, hperm, hsorted, hordinal⟩
    · obtain ⟨kept, hsub, hperm, hsorted, hordinal⟩ := ih (e.enqueue (now + c.delay) ordinal c.copy c.bytes generation)
      refine ⟨c :: kept, hsub.cons_cons c, ?_, fun h => hsorted (push_sorted _ h), hordinal⟩
      exact hperm.trans (((push_perm _ _).append_left _).trans List.perm_middle)

/-- The end of an admission: of distinct copies every one is emitted, queued or
dropped. -/
theorem settle_adds (e : DatagramDirectionEngine) (now ordinal generation : Nat) {cs : List Staged}
    (hnodup : (cs.map (·.copy)).Nodup) :
    ∃ news, Adds e (e.settle now ordinal generation cs).2 ordinal (e.settle now ordinal generation cs).1.items news := by
  have hkeys : (cs.map fun c => (ordinal, c.copy)).Nodup := by
    have := hnodup.map (f := fun copy => (ordinal, copy)) fun a b h => (Prod.mk.inj h).2
    rwa [List.map_map] at this
  simp only [settle]
  split
  · obtain ⟨hqueue, hordinal⟩ := emitAll_engine ordinal generation cs e
    have hperm : ((sortItems (emitAll ordinal generation e cs).1).map (·.key)).Perm (cs.map fun c => (ordinal, c.copy)) := by
      refine ((List.perm_insertionSort _ _).map _).trans ?_
      rw [emitAll_items, List.map_map]
      exact .refl _
    refine ⟨[], hordinal, by rw [hqueue, List.nil_append], fun h => by rwa [hqueue], ?_, ?_⟩
    · intro key hkey
      rw [List.map_nil, List.append_nil] at hkey
      obtain ⟨c, -, rfl⟩ := List.mem_map.1 (hperm.subset hkey)
      rfl
    · rw [List.map_nil, List.append_nil]
      exact hperm.nodup_iff.2 hkeys
  · obtain ⟨kept, hsub, hperm, hsorted, hordinal⟩ := queueAll_queue now ordinal generation cs e
    have hkept : (kept.map (Staged.queuedAt now ordinal generation)).map (·.key) = kept.map fun c => (ordinal, c.copy) := by
      rw [List.map_map]
      rfl
    have hitems : (if (queueAll now ordinal generation e cs).1 then DatagramAdmission.queued else .consumed).items = [] := by
      split <;> rfl
    refine ⟨_, hordinal, hperm, hsorted, ?_, ?_⟩
    · intro key hkey
      rw [hitems, List.map_nil, List.nil_append, hkept] at hkey
      obtain ⟨c, -, rfl⟩ := List.mem_map.1 hkey
      rfl
    · rw [hitems, List.map_nil, List.nil_append, hkept]
      exact hkeys.sublist (hsub.map _)

/-- The candidates of a datagram have distinct copy indices, whatever the stages
did to them. -/
theorem candidates_nodup (e : DatagramDirectionEngine) (now : Nat) (payload : List Byte) (policy : PublishedDatagramPolicy)
    (ordinal : Nat) : ((e.candidates now payload policy ordinal).1.map (·.copy)).Nodup := by
  have hcopies := (runStages_copies now policy ordinal policy.plan.faults 0 e 1 payload.length [⟨0, payload, 0⟩]
    (by simp)).1
  have hbound := DatagramPlan.amplification_le policy.valid
  rw [candidates, hcopies]
  exact e.copiesFrom_nodup policy ordinal policy.plan.faults 0 (m := 1) (b := 1) (List.nodup_singleton 0) (by simp)
    (le_refl 1) (by simp) (by omega)

/-- Every admission takes the next ordinal and adds candidates under it. -/
theorem admitDatagram_adds (e : DatagramDirectionEngine) (now : Nat) (payload : List Byte)
    (policy : PublishedDatagramPolicy) :
    ∃ news, Adds { e with ordinal := satAdd e.ordinal 1 } (e.admitDatagram now payload policy).2 e.ordinal
      (e.admitDatagram now payload policy).1.items news := by
  simp only [admitDatagram]
  split
  · refine ⟨[], Adds.none ?_ ?_ _⟩ <;> rfl
  · have hadopted : ((e.count payload).adopt policy).ordinal = satAdd e.ordinal 1 := by
      simp only [adopt]
      split <;> rfl
    have hqueue : ((e.count payload).adopt policy).queue = e.queue := (adopt_staging (e.count payload) policy).1.queue
    generalize (e.count payload).adopt policy = adopted at *
    split
    · split
      · exact ⟨[], hadopted, by rw [List.nil_append]; exact .of_eq hqueue,
          fun h => by simpa only [emitImmediate, hqueue] using h,
          by simp [DatagramAdmission.items, DatagramScheduled.key, emitImmediate], by simp [DatagramAdmission.items]⟩
      · split
        · refine ⟨[⟨now, e.ordinal, 0, payload, policy.generation⟩], hadopted, ?_, fun h => ?_,
            by simp [DatagramAdmission.items, Candidate.key], by simp [DatagramAdmission.items]⟩
          · simp only [enqueue, hqueue]
            exact push_perm _ _
          · simp only [enqueue, hqueue]
            exact push_sorted _ h
        · refine ⟨[], Adds.none ?_ ?_ _⟩
          · exact hadopted
          · exact hqueue
    · obtain ⟨hstaged, -⟩ := runStages_spec now policy e.ordinal policy.plan.faults 0 adopted 1 [⟨0, payload, 0⟩]
      have hordinal := runStages_ordinal now policy e.ordinal policy.plan.faults 0 adopted 1 [⟨0, payload, 0⟩]
      have hnodup := adopted.candidates_nodup now payload policy e.ordinal
      simp only [candidates] at hnodup ⊢
      generalize runStages now policy e.ordinal 0 policy.plan.faults adopted 1 [⟨0, payload, 0⟩] = r at *
      obtain ⟨cs, staged⟩ := r
      obtain ⟨news, hadds⟩ := settle_adds staged now e.ordinal policy.generation hnodup
      have hq : staged.queue = e.queue := hstaged.queue.trans hqueue
      exact ⟨news, hadds.ordinal_eq.trans (hordinal.trans hadopted), by rw [← hq]; exact hadds.queue,
        fun h => hadds.sorted (by rw [hq]; exact h), hadds.of_ordinal, hadds.nodup⟩

/-- The identities an admission hands out are those of what it emits and queues. -/
theorem Adds.admittedKeys {now : Nat} {payload : List Byte} {policy : PublishedDatagramPolicy} {news : List Candidate}
    (h : Adds { e with ordinal := satAdd e.ordinal 1 } (e.admitDatagram now payload policy).2 e.ordinal
      (e.admitDatagram now payload policy).1.items news) :
    (e.admittedKeys now payload policy).Perm
      ((e.admitDatagram now payload policy).1.items.map (·.key) ++ news.map (·.key)) := by
  have hnews : ((e.admitDatagram now payload policy).2.queue.diff e.queue).Perm news := by
    rw [← Multiset.coe_eq_coe, ← Multiset.coe_sub, Multiset.coe_eq_coe.2 h.queue, ← Multiset.coe_add,
      Multiset.add_sub_cancel_right]
  exact (hnews.map _).append_left _

/-! ## What is due -/

/-- In an ordered queue the due candidates stand in front. -/
theorem drain_eq (now : Nat) {queue : List Candidate} (hsorted : queue.Pairwise Candidate.le) (ev : DatagramEvidence) :
    (drain now queue ev).1 = (queue.filter (·.at_ ≤ now)).map Candidate.scheduled ∧
      (drain now queue ev).2.1 = queue.filter (now < ·.at_) := by
  induction queue generalizing ev with
  | nil => exact ⟨rfl, rfl⟩
  | cons c cs ih =>
    obtain ⟨hc, hcs⟩ := List.pairwise_cons.1 hsorted
    simp only [drain]
    split
    · next hdue =>
      obtain ⟨hitems, hrest⟩ := ih hcs (ev.noteEmitted c.payload.length)
      rw [hitems, hrest, List.filter_cons_of_pos (by simpa using hdue), List.filter_cons_of_neg (by simpa using hdue)]
      exact ⟨rfl, rfl⟩
    · next hdue =>
      -- The first is not due, and nothing leaves before it.
      have hlater : ∀ d ∈ c :: cs, now < d.at_ := by
        intro d hd
        rcases List.mem_cons.1 hd with rfl | hd
        · omega
        · have hle := hc d hd
          simp only [Candidate.le] at hle
          omega
      refine ⟨?_, (List.filter_eq_self.2 fun d hd => by simpa using hlater d hd).symm⟩
      rw [List.filter_eq_nil_iff.2 fun d hd => by simpa using hlater d hd]
      rfl

end DatagramDirectionEngine

/-! ## Whole histories -/

namespace DatagramHistory

/-- The queue is in order, its identities are among the admitted ones, these
are all different and of ordinals already taken. -/
structure Ordered (s : DatagramHistory) : Prop where
  sorted : s.engine.queue.Pairwise Candidate.le
  queued : (s.engine.queue.map (·.key)).Nodup
  admitted : ∀ c ∈ s.engine.queue, c.key ∈ s.admitted
  nodup : s.admitted.Nodup
  taken : ∀ key ∈ s.admitted, key.1 < s.engine.ordinal

variable {s : DatagramHistory}

/-- Taking candidates out keeps the order. -/
theorem Ordered.sub (h : Ordered s) {engine : DatagramDirectionEngine} (hsub : engine.queue.Sublist s.engine.queue)
    (hordinal : engine.ordinal = s.engine.ordinal) : Ordered ⟨engine, s.admitted⟩ where
  sorted := h.sorted.sublist hsub
  queued := h.queued.sublist (hsub.map _)
  admitted c hc := h.admitted c (hsub.subset hc)
  nodup := h.nodup
  taken key hkey := hordinal ▸ h.taken key hkey

theorem step_ordered (s : DatagramHistory) (op : DatagramOp) (h : Ordered s) (hfree : OrdinalFree s op) :
    Ordered (s.step op) := by
  cases op with
  | admission now payload policy =>
    obtain ⟨news, hadds⟩ := s.engine.admitDatagram_adds now payload policy
    have hkeys := hadds.admittedKeys
    have hnext : satAdd s.engine.ordinal 1 = s.engine.ordinal + 1 := clampU64_of_le hfree
    have hordinal := hadds.ordinal_eq
    simp only [hnext] at hordinal
    have hof : ∀ key ∈ s.engine.admittedKeys now payload policy, key.1 = s.engine.ordinal :=
      fun key hkey => hadds.of_ordinal key (hkeys.subset hkey)
    have hnews : ∀ c ∈ news, c.key ∈ s.engine.admittedKeys now payload policy := fun c hc =>
      hkeys.symm.subset (List.mem_append_right _ (List.mem_map_of_mem hc))
    refine ⟨hadds.sorted h.sorted, ?_, ?_, ?_, ?_⟩
    · refine ((hadds.queue.map _).nodup_iff).2 ?_
      rw [List.map_append]
      refine List.nodup_append.2 ⟨(List.nodup_append.1 hadds.nodup).2.1, h.queued, ?_⟩
      rintro key hkey _ hkey' rfl
      obtain ⟨c, hc, rfl⟩ := List.mem_map.1 hkey
      obtain ⟨d, hd, hdc⟩ := List.mem_map.1 hkey'
      have htaken := h.taken _ (h.admitted d hd)
      have := hof _ (hnews c hc)
      rw [hdc] at htaken
      omega
    · intro c hc
      rcases List.mem_append.1 (hadds.queue.subset hc) with hc | hc
      · exact List.mem_append_right _ (hnews c hc)
      · exact List.mem_append_left _ (h.admitted c hc)
    · refine List.nodup_append.2 ⟨h.nodup, hkeys.nodup_iff.2 hadds.nodup, ?_⟩
      rintro key hkey _ hkey' rfl
      have := h.taken key hkey
      have := hof key hkey'
      omega
    · intro key hkey
      show key.1 < (s.engine.admitDatagram now payload policy).2.ordinal
      rw [hordinal]
      rcases List.mem_append.1 hkey with hkey | hkey
      · exact Nat.lt_succ_of_lt (h.taken key hkey)
      · exact Nat.lt_succ_of_le (hof key hkey).le
  | takeReady now =>
    have hrest := (DatagramDirectionEngine.drain_eq now h.sorted s.engine.evidence).2
    refine h.sub ?_ rfl
    show ((DatagramDirectionEngine.drain now s.engine.queue s.engine.evidence).2.1).Sublist _
    rw [hrest]
    exact List.filter_sublist
  | discardAll => exact h.sub (List.nil_sublist _) rfl

/-- In an ordered queue no two candidates tie. -/
theorem Ordered.strict (h : Ordered s) :
    s.engine.queue.Pairwise Candidate.before := by
  refine (h.sorted.and (List.pairwise_map.1 h.queued)).imp fun {a b} hab => ?_
  obtain ⟨hle, hne⟩ := hab
  simp only [Candidate.le, Candidate.before, Candidate.key, ne_eq, Prod.mk.injEq] at hle hne ⊢
  omega

theorem start_ordered {limits : DatagramQueueLimits} {proxy : String} {association : UInt64} {direction : Direction}
    {e : DatagramDirectionEngine} (h : DatagramDirectionEngine.new limits proxy association direction = .ok e) :
    Ordered (start e) := by
  have hqueue : e.queue = [] := by
    simp only [DatagramDirectionEngine.new] at h
    split at h
    · cases h
    · cases h
      rfl
  exact ⟨by simp [start, hqueue], by simp [start, hqueue], by simp [start, hqueue], List.nodup_nil, by simp [start]⟩

end DatagramHistory

/-- In every history of an engine, while ordinals are left, `take_ready` returns
the due candidates of the queue in the order of release, ordinal and copy, and
leaves the others; no identity is ever handed out twice; and whatever way a heap
holds the queue, popping it gives this list. -/
theorem release_order (limits : DatagramQueueLimits) (proxy : String) (association : UInt64) (direction : Direction)
    (e : DatagramDirectionEngine) (hnew : DatagramDirectionEngine.new limits proxy association direction = .ok e)
    (ops : List DatagramOp) (hfree : Along DatagramHistory.step DatagramHistory.OrdinalFree (.start e) ops) (now : Nat) :
    let s := run DatagramHistory.step (.start e) ops
    let due := s.engine.queue.filter (·.at_ ≤ now)
    let rest := s.engine.queue.filter (now < ·.at_)
    (s.engine.takeReady now).1 = due.map Candidate.scheduled ∧ due.Pairwise Candidate.before ∧
      (s.engine.takeReady now).2.queue = rest ∧ s.admitted.Nodup ∧ (∀ c ∈ s.engine.queue, c.key ∈ s.admitted) ∧
      ∀ (popped : List Candidate) (left : Multiset Candidate),
        Pops Candidate.le (fun c => c.at_ ≤ now) s.engine.queue popped left ↔ popped = due ∧ left = rest := by
  intro s due rest
  have h : s.Ordered := run_inv_along _ DatagramHistory.step_ordered (DatagramHistory.start_ordered hnew) hfree
  obtain ⟨hitems, hrest⟩ := DatagramDirectionEngine.drain_eq now h.sorted s.engine.evidence
  refine ⟨hitems, h.strict.sublist List.filter_sublist, hrest, h.nodup, h.admitted, fun popped left => ?_⟩
  have hstrict : s.engine.queue.Pairwise fun a b => a.le b ∧ ¬b.le a := h.strict.imp fun {a b} hab => by
    simp only [Candidate.before, Candidate.le] at hab ⊢
    omega
  have hdown : ∀ a b : Candidate, a.le b → b.at_ ≤ now → a.at_ ≤ now := fun a b hle hb => by
    simp only [Candidate.le] at hle
    omega
  rw [pops_iff hstrict hdown]
  simp only [Nat.not_le, due, rest]

/-- Three copies for a queue of two: the queued ones leave in copy order. -/
theorem release_order_copies :
    let s := run DatagramHistory.step (.start pairEngine)
      [.admission 0 [1, 2, 3] delayedCopies, .takeReady 999999999, .admission 500 [4] delayedCopies]
    (s.engine.takeReady 1000000000).1 = [⟨[1, 2, 3], 0, 0, 1⟩, ⟨[1, 2, 3], 0, 1, 1⟩] ∧ s.admitted = [(0, 0), (0, 1)] ∧
      s.admitted.Nodup := by
  have h := release_order pairLimits "dns" 1 .upstream pairEngine rfl
    [.admission 0 [1, 2, 3] delayedCopies, .takeReady 999999999, .admission 500 [4] delayedCopies]
    (by decide) 1000000000
  exact ⟨by decide, by decide, h.2.2.2.1⟩

end Eggchaos
