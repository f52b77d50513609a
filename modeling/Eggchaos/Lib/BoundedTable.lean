import Eggchaos.Lib.Runs
import Mathlib.Algebra.GroupWithZero.Nat
import Mathlib.Data.List.Induction
import Mathlib.Data.List.Nodup
/-!
# Tables and logs of bounded size

A table has one row for each key it tracks, at most `capacity` of them, and one
row more, the overflow, for every other key. A key that comes in while there is
room is tracked from then on; nothing ever leaves. So what a table holds can be
read off the writes (`Holds`): the tracked keys are the first ones that came, a
row is the series of its key's writes, and the overflow the series of all others.

A log drops its oldest entries to take a new one. What it holds is always the end of
everything that was ever put in (`lastOf_concat`).
-/

namespace Eggchaos.Lib

structure BoundedTable (κ ρ : Type) where
  rows : List (κ × ρ)
  overflow : ρ
deriving DecidableEq, Repr

/-- A write under a key: a row as it is first stored, and how one that exists changes. -/
structure TableWrite (κ ρ : Type) where
  key : κ
  first : ρ
  update : ρ → ρ

namespace BoundedTable
variable {κ ρ : Type}

def empty (blank : ρ) : BoundedTable κ ρ := ⟨[], blank⟩

def keys (t : BoundedTable κ ρ) : List κ := t.rows.map (·.1)

/-- What one row has become after the writes, in order. -/
def series (blank : ρ) (ws : List (TableWrite κ ρ)) : ρ := ws.foldl (fun r w => w.update r) blank

@[simp] theorem series_nil (blank : ρ) : series blank ([] : List (TableWrite κ ρ)) = blank := rfl

theorem series_concat (blank : ρ) (ws : List (TableWrite κ ρ)) (w : TableWrite κ ρ) :
    series blank (ws ++ [w]) = w.update (series blank ws) := by simp [series]

variable [DecidableEq κ]

/-- Changes the row of a tracked key, stores a first one while there is room, and
changes the overflow otherwise. -/
def record (capacity : Nat) (t : BoundedTable κ ρ) (w : TableWrite κ ρ) : BoundedTable κ ρ :=
  if w.key ∈ t.keys then
    { t with rows := t.rows.map fun row => if row.1 = w.key then (row.1, w.update row.2) else row }
  else if capacity ≤ t.rows.length then { t with overflow := w.update t.overflow }
  else { t with rows := t.rows ++ [(w.key, w.first)] }

variable {capacity : Nat} {t : BoundedTable κ ρ} {w : TableWrite κ ρ} {ws : List (TableWrite κ ρ)} {blank : ρ}

/-! ## One write -/

theorem keys_record_tracked (h : w.key ∈ t.keys) : (record capacity t w).keys = t.keys := by
  rw [record, if_pos h]
  simp only [keys, List.map_map]
  apply List.map_congr_left
  intro row _
  simp only [Function.comp_apply]
  split <;> rfl

theorem record_full (h : w.key ∉ t.keys) (hfull : capacity ≤ t.rows.length) :
    record capacity t w = { t with overflow := w.update t.overflow } := by rw [record, if_neg h, if_pos hfull]

theorem record_fresh (h : w.key ∉ t.keys) (hroom : t.rows.length < capacity) :
    record capacity t w = { t with rows := t.rows ++ [(w.key, w.first)] } := by
  rw [record, if_neg h, if_neg (by omega)]

/-- A tracked key stays tracked. -/
theorem mem_keys_record {key : κ} (h : key ∈ t.keys) : key ∈ (record capacity t w).keys := by
  by_cases hk : w.key ∈ t.keys
  · rw [keys_record_tracked hk]
    exact h
  · by_cases hfull : capacity ≤ t.rows.length
    · rw [record_full hk hfull]
      exact h
    · rw [record_fresh hk (by omega), keys, List.map_append]
      exact List.mem_append_left _ h

/-! ## What the table holds -/

/-- The table is what these writes make of an empty one. -/
structure Holds (capacity : Nat) (blank : ρ) (ws : List (TableWrite κ ρ)) (t : BoundedTable κ ρ) : Prop where
  keys : t.keys = (ws.map (·.key)).eraseDups.take capacity
  row : ∀ row ∈ t.rows, row.2 = series blank (ws.filter (·.key = row.1))
  rest : t.overflow = series blank (ws.filter (·.key ∉ t.keys))

theorem eraseDups_concat_of_mem {l : List κ} {k : κ} (h : k ∈ l) : (l ++ [k]).eraseDups = l.eraseDups := by
  rw [List.eraseDups_append]
  simp [List.removeAll, h]

theorem eraseDups_concat_of_notMem {l : List κ} {k : κ} (h : k ∉ l) : (l ++ [k]).eraseDups = l.eraseDups ++ [k] := by
  rw [List.eraseDups_append]
  simp [List.removeAll, h, List.eraseDups_cons]

theorem nodup_eraseDups (l : List κ) : l.eraseDups.Nodup := by
  induction l using List.reverseRecOn with
  | nil => exact List.nodup_nil
  | append_singleton l k ih =>
    by_cases hk : k ∈ l
    · rw [eraseDups_concat_of_mem hk]
      exact ih
    · rw [eraseDups_concat_of_notMem hk, List.nodup_append']
      refine ⟨ih, List.nodup_singleton k, ?_⟩
      rw [List.disjoint_singleton]
      exact fun hmem => hk (List.mem_eraseDups.1 hmem)

theorem filter_concat_of_pos {α : Type} {p : α → Bool} {l : List α} {a : α} (h : p a = true) :
    (l ++ [a]).filter p = l.filter p ++ [a] := by simp [List.filter_append, h]

theorem filter_concat_of_neg {α : Type} {p : α → Bool} {l : List α} {a : α} (h : p a = false) :
    (l ++ [a]).filter p = l.filter p := by simp [List.filter_append, h]

theorem Holds.length_eq (h : Holds capacity blank ws t) :
    t.rows.length = min capacity (ws.map (·.key)).eraseDups.length := by
  have hlen := congrArg List.length h.keys
  rwa [BoundedTable.keys, List.length_map, List.length_take] at hlen

theorem Holds.nodup (h : Holds capacity blank ws t) : t.keys.Nodup := by
  rw [h.keys]
  exact (nodup_eraseDups _).sublist (List.take_sublist _ _)

/-- The key of a row was written. -/
theorem Holds.written (h : Holds capacity blank ws t) {key : κ} (hkey : key ∈ t.keys) : key ∈ ws.map (·.key) := by
  rw [h.keys] at hkey
  exact List.mem_eraseDups.1 (List.mem_of_mem_take hkey)

/-- While there is room every key that was written is tracked. -/
theorem Holds.tracked_of_room (h : Holds capacity blank ws t) (hroom : t.rows.length < capacity) :
    t.keys = (ws.map (·.key)).eraseDups := by
  have hlen := h.length_eq
  rw [h.keys, List.take_of_length_le (by omega)]

theorem Holds.record_tracked (h : Holds capacity blank ws t) (hk : w.key ∈ t.keys) :
    Holds capacity blank (ws ++ [w]) (record capacity t w) := by
  have hkeys : (BoundedTable.record capacity t w).keys = t.keys := keys_record_tracked hk
  refine ⟨?_, ?_, ?_⟩
  · rw [hkeys, h.keys, List.map_append, List.map_singleton, eraseDups_concat_of_mem (h.written hk)]
  · intro row' hrow'
    rw [record, if_pos hk] at hrow'
    obtain ⟨row, hrow, rfl⟩ := List.mem_map.1 hrow'
    by_cases heq : row.1 = w.key
    · rw [if_pos heq, filter_concat_of_pos (by simp [heq]), series_concat, ← h.row row hrow]
    · rw [if_neg heq, filter_concat_of_neg (by simpa using Ne.symm heq), ← h.row row hrow]
  · rw [hkeys, filter_concat_of_neg (by simpa using hk), ← h.rest, record, if_pos hk]

theorem Holds.record_overflow (h : Holds capacity blank ws t) (hk : w.key ∉ t.keys) (hfull : capacity ≤ t.rows.length) :
    Holds capacity blank (ws ++ [w]) (record capacity t w) := by
  rw [record_full hk hfull]
  refine ⟨?_, ?_, ?_⟩
  · have hlen := h.length_eq
    have hcap : capacity ≤ (ws.map (·.key)).eraseDups.length := by omega
    rw [List.map_append, List.eraseDups_append, List.take_append_of_le_length hcap]
    exact h.keys
  · intro row hrow
    have hne : w.key ≠ row.1 := by
      intro heq
      apply hk
      rw [heq]
      exact List.mem_map_of_mem hrow
    rw [filter_concat_of_neg (by simpa using hne)]
    exact h.row row hrow
  · show w.update t.overflow = series blank ((ws ++ [w]).filter (·.key ∉ t.keys))
    rw [filter_concat_of_pos (by simpa using hk), series_concat, ← h.rest]

theorem Holds.record_room (h : Holds capacity blank ws t) (hfirst : w.first = w.update blank) (hk : w.key ∉ t.keys)
    (hroom : t.rows.length < capacity) : Holds capacity blank (ws ++ [w]) (record capacity t w) := by
  have hall := h.tracked_of_room hroom
  have hnew : ∀ v ∈ ws, v.key ≠ w.key := by
    intro v hv heq
    apply hk
    rw [hall, List.mem_eraseDups, ← heq]
    exact List.mem_map_of_mem hv
  have hnotin : w.key ∉ ws.map (·.key) := by
    intro hin
    obtain ⟨v, hv, heq⟩ := List.mem_map.1 hin
    exact hnew v hv heq
  rw [record_fresh hk hroom]
  refine ⟨?_, ?_, ?_⟩
  · have hlen : (ws.map (·.key)).eraseDups.length < capacity := by
      rw [← hall, BoundedTable.keys, List.length_map]
      exact hroom
    rw [List.map_append, List.map_singleton, eraseDups_concat_of_notMem hnotin,
      List.take_of_length_le (by rw [List.length_append, List.length_singleton]; omega), ← hall]
    simp [BoundedTable.keys]
  · intro row hrow
    rcases List.mem_append.1 hrow with hrow | hrow
    · have hne : w.key ≠ row.1 := by
        intro heq
        apply hk
        rw [heq]
        exact List.mem_map_of_mem hrow
      rw [filter_concat_of_neg (by simpa using hne)]
      exact h.row row hrow
    · obtain rfl := List.mem_singleton.1 hrow
      have hnone : ws.filter (·.key = w.key) = [] := List.filter_eq_nil_iff.2 (by simpa using hnew)
      rw [filter_concat_of_pos (by simp), hnone, series_concat, series_nil]
      exact hfirst
  · show t.overflow = _
    rw [filter_concat_of_neg (by simp [BoundedTable.keys])]
    refine h.rest.trans (congrArg (series blank) ?_)
    apply List.filter_congr
    intro v hv
    have hiff : v.key ∈ t.keys ↔ v.key ∈ (⟨t.rows ++ [(w.key, w.first)], t.overflow⟩ : BoundedTable κ ρ).keys := by
      simp [BoundedTable.keys, hnew v hv]
    simp only [hiff]

theorem Holds.record (h : Holds capacity blank ws t) (hfirst : w.first = w.update blank) :
    Holds capacity blank (ws ++ [w]) (record capacity t w) := by
  by_cases hk : w.key ∈ t.keys
  · exact h.record_tracked hk
  · by_cases hfull : capacity ≤ t.rows.length
    · exact h.record_overflow hk hfull
    · exact h.record_room hfirst hk (by omega)

/-- After any writes, if a first row is what a blank one becomes. -/
theorem holds_run (ws : List (TableWrite κ ρ)) (hfirst : ∀ w ∈ ws, w.first = w.update blank) :
    Holds capacity blank ws (run (record capacity) (empty blank) ws) := by
  induction ws using List.reverseRecOn with
  | nil => exact ⟨by simp [empty, keys], by simp [empty], by simp [empty]⟩
  | append_singleton ws w ih =>
    rw [run_append, run_cons, run_nil]
    exact (ih fun v hv => hfirst v (by simp [hv])).record (hfirst w (by simp))

/-! ## Counting by key -/

/-- What is counted under each of some keys, and under all others, makes the whole. -/
theorem sum_countP_keys {α : Type} (key : α → κ) (p : α → Bool) {keys : List κ} (hkeys : keys.Nodup) (l : List α) :
    (keys.map fun k => (l.filter (key · = k)).countP p).sum + (l.filter (key · ∉ keys)).countP p = l.countP p := by
  induction keys with
  | nil => simp
  | cons k keys ih =>
    obtain ⟨hk, hkeys⟩ := List.nodup_cons.1 hkeys
    have hown : (l.filter (key · ∉ keys)).filter (key · = k) = l.filter (key · = k) := by
      rw [List.filter_filter]
      apply List.filter_congr
      intro a _
      by_cases ha : key a = k <;> simp [ha, hk]
    have hothers : (l.filter (key · ∉ keys)).filter (fun a => !decide (key a = k)) = l.filter (key · ∉ k :: keys) := by
      rw [List.filter_filter]
      apply List.filter_congr
      intro a _
      simp [List.mem_cons, not_or]
    have hsplit := List.countP_eq_countP_filter_add (l.filter (key · ∉ keys)) p (key · = k)
    rw [hown, hothers] at hsplit
    rw [List.map_cons, List.sum_cons, ← ih hkeys, hsplit]
    omega

end BoundedTable

/-! ## Logs -/

variable {α : Type}

/-- The last `limit` of some. -/
def lastOf (limit : Nat) (l : List α) : List α := l.drop (l.length - limit)

/-- Room is made first: of what is there, all but `limit - 1` go. -/
theorem lastOf_concat {limit : Nat} (hlimit : limit ≠ 0) (l : List α) (a : α) :
    (lastOf limit l).drop ((lastOf limit l).length + 1 - limit) ++ [a] = lastOf limit (l ++ [a]) := by
  have hnew : lastOf limit (l ++ [a]) = l.drop (l.length + 1 - limit) ++ [a] := by
    rw [lastOf, List.length_append, List.length_singleton, List.drop_append_of_le_length (by omega)]
  rw [hnew, lastOf, List.drop_drop, List.length_drop]
  congr 2
  omega

@[simp] theorem lastOf_zero (l : List α) : lastOf 0 l = [] := by simp [lastOf]

end Eggchaos.Lib
