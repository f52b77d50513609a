import Eggchaos.Admin
import Eggchaos.Lib.Checks
/-!
# Durations in configuration files

`parse_duration` of `config.rs`, and which texts it takes (`parseDuration_ok_iff`).
-/

namespace Eggchaos
open Lib

/-- `char::is_whitespace`. -/
def isWhiteSpace (c : Char) : Bool :=
  (9 ≤ c.toNat && c.toNat ≤ 13) || (0x2000 ≤ c.toNat && c.toNat ≤ 0x200a) ||
    [0x20, 0x85, 0xa0, 0x1680, 0x2028, 0x2029, 0x202f, 0x205f, 0x3000].contains c.toNat

/-- `str::trim`. -/
def trim (cs : List Char) : List Char := ((cs.dropWhile isWhiteSpace).reverse.dropWhile isWhiteSpace).reverse

/-- `strip_suffix`. -/
def stripSuffix (suffix cs : List Char) : Option (List Char) :=
  if suffix <:+ cs then some (cs.take (cs.length - suffix.length)) else none

/-- A number and its unit, in nanoseconds. -/
def parseAmount (multiplier : Nat) (number : List Char) : Except String Nat :=
  match parseU64 (String.ofList number) with
  | none => .error "duration number is invalid"
  | some number => if u64Max < number * multiplier then .error "duration overflows" else .ok (number * multiplier)

/-- `parse_duration`. -/
def parseDuration (value : String) : Except String Nat :=
  let value := trim value.toList
  match stripSuffix ['m', 's'] value with
  | some number => parseAmount 1000000 number
  | none =>
    match stripSuffix ['u', 's'] value with
    | some number => parseAmount 1000 number
    | none =>
      match stripSuffix ['s'] value with
      | some number => parseAmount 1000000000 number
      | none => .error "duration must use ms, us, or s"

/-! ## Which texts are durations -/

theorem stripSuffix_eq_some {suffix cs rest : List Char} : stripSuffix suffix cs = some rest ↔ cs = rest ++ suffix := by
  unfold stripSuffix
  constructor
  · intro h
    split at h
    · next hsuffix =>
      obtain ⟨front, rfl⟩ := hsuffix
      obtain rfl : front = rest := by simpa using Option.some.inj h
      rfl
    · cases h
  · rintro rfl
    simp

theorem dropWhile_ends (p : Char → Bool) (cs : List Char) : ∃ pre, pre.all p ∧ cs = pre ++ cs.dropWhile p :=
  ⟨cs.takeWhile p, List.all_takeWhile, List.takeWhile_append_dropWhile.symm⟩

/-- Only white space is trimmed. -/
theorem trim_eq (cs : List Char) :
    ∃ pre post, cs = pre ++ trim cs ++ post ∧ pre.all isWhiteSpace ∧ post.all isWhiteSpace := by
  obtain ⟨pre, hpre, hcs⟩ := dropWhile_ends isWhiteSpace cs
  obtain ⟨post, hpost, hrest⟩ := dropWhile_ends isWhiteSpace (cs.dropWhile isWhiteSpace).reverse
  refine ⟨pre, post.reverse, ?_, hpre, by simpa using hpost⟩
  have hback := congrArg List.reverse hrest
  rw [List.reverse_reverse, List.reverse_append] at hback
  rw [trim, List.append_assoc, ← hback, ← hcs]

/-- A text that neither begins nor ends with white space is all that is left of it. -/
theorem trim_of_ends {pre cs post : List Char} (hpre : pre.all isWhiteSpace) (hpost : post.all isWhiteSpace)
    (hhead : ∃ c rest, cs = c :: rest ∧ isWhiteSpace c = false)
    (hlast : ∃ front c, cs = front ++ [c] ∧ isWhiteSpace c = false) : trim (pre ++ cs ++ post) = cs := by
  have hdrop : (pre ++ cs ++ post).dropWhile isWhiteSpace = cs ++ post := by
    obtain ⟨c, rest, rfl, hc⟩ := hhead
    rw [List.append_assoc, List.dropWhile_append_of_pos (fun a ha => List.all_eq_true.1 hpre a ha)]
    simp [hc]
  obtain ⟨front, c, rfl, hc⟩ := hlast
  rw [trim, hdrop, List.reverse_append,
    List.dropWhile_append_of_pos fun a ha => List.all_eq_true.1 hpost a (List.mem_reverse.1 ha)]
  simp [hc]

/-- The digits of a number: what of its text a sign leaves. -/
def IsNumber (cs : List Char) (n : Nat) : Prop :=
  ∃ sign digits, cs = sign ++ digits ∧ (sign = [] ∨ sign = ['+']) ∧ digits ≠ [] ∧ digits.all Char.isDigit ∧
    n = Nat.ofDigitChars 10 digits 0

theorem parseU64_eq_some {cs : List Char} {n : Nat} :
    parseU64 (String.ofList cs) = some n ↔ IsNumber cs n ∧ n ≤ u64Max := by
  have hdigits : ∀ digits : List Char,
      (if digits = [] ∨ ¬ digits.all Char.isDigit then none
        else if digits.foldl (fun n c => 10 * n + (c.toNat - '0'.toNat)) 0 ≤ u64Max then
          some (digits.foldl (fun n c => 10 * n + (c.toNat - '0'.toNat)) 0)
        else none) = some n ↔
      (digits ≠ [] ∧ digits.all Char.isDigit ∧ n = Nat.ofDigitChars 10 digits 0) ∧ n ≤ u64Max := by
    intro digits
    rw [← Nat.ofDigitChars_eq_foldl]
    by_cases hfine : digits = [] ∨ ¬ digits.all Char.isDigit
    · rw [if_pos hfine]
      refine iff_of_false (by simp) ?_
      rintro ⟨⟨hne, hall, -⟩, -⟩
      exact hfine.elim hne (· hall)
    · rw [if_neg hfine]
      rw [not_or, not_not] at hfine
      by_cases hfits : Nat.ofDigitChars 10 digits 0 ≤ u64Max
      · rw [if_pos hfits, Option.some_inj]
        exact ⟨fun h => ⟨⟨hfine.1, hfine.2, h.symm⟩, h ▸ hfits⟩, fun h => h.1.2.2.symm⟩
      · rw [if_neg hfits]
        exact iff_of_false (by simp) fun h => hfits (h.1.2.2 ▸ h.2)
  unfold parseU64
  simp only [String.toList_ofList]
  split
  · next rest =>
    rw [hdigits]
    refine and_congr_left fun _ => ⟨fun ⟨hne, hall, hn⟩ => ⟨['+'], rest, rfl, .inr rfl, hne, hall, hn⟩, ?_⟩
    rintro ⟨sign, digits, hcs, rfl | rfl, hne, hall, hn⟩
    · rw [List.nil_append] at hcs
      rw [← hcs] at hall
      simp at hall
    · obtain rfl := List.cons.inj hcs |>.2
      exact ⟨hne, hall, hn⟩
  · next hplus =>
    rw [hdigits]
    refine and_congr_left fun _ => ⟨fun ⟨hne, hall, hn⟩ => ⟨[], cs, rfl, .inl rfl, hne, hall, hn⟩, ?_⟩
    rintro ⟨sign, digits, hcs, rfl | rfl, hne, hall, hn⟩
    · rw [List.nil_append] at hcs
      exact hcs ▸ ⟨hne, hall, hn⟩
    · exact absurd hcs (hplus digits)

theorem parseAmount_ok {multiplier : Nat} (hpos : 0 < multiplier) {number : List Char} {ns : Nat} :
    parseAmount multiplier number = .ok ns ↔ ∃ n, IsNumber number n ∧ ns = n * multiplier ∧ ns ≤ u64Max := by
  unfold parseAmount
  cases hparse : parseU64 (String.ofList number) with
  | none =>
    refine iff_of_false (by simp) ?_
    rintro ⟨n, hn, rfl, hfits⟩
    have hle : n ≤ n * multiplier := Nat.le_mul_of_pos_right n hpos
    rw [parseU64_eq_some.2 ⟨hn, hle.trans hfits⟩] at hparse
    cases hparse
  | some n =>
    obtain ⟨hn, -⟩ := parseU64_eq_some.1 hparse
    simp only [refuse_ok_iff, Nat.not_lt]
    constructor
    · rintro ⟨hfits, h⟩
      obtain rfl := Except.ok.inj h
      exact ⟨n, hn, rfl, hfits⟩
    · rintro ⟨n', hn', rfl, hfits⟩
      have hle : n' ≤ n' * multiplier := Nat.le_mul_of_pos_right n' hpos
      have hsame := parseU64_eq_some.2 ⟨hn', hle.trans hfits⟩
      rw [hparse] at hsame
      obtain rfl := Option.some.inj hsame
      exact ⟨hfits, rfl⟩

theorem isWhiteSpace_digit {c : Char} (h : c.isDigit = true) : isWhiteSpace c = false := by
  have hrange : 48 ≤ c.toNat ∧ c.toNat ≤ 57 := Char.isDigit_iff_toNat.1 h
  simp [isWhiteSpace]
  omega

/-- A number ends with a digit, and begins with one or with a sign. -/
theorem IsNumber.ends {cs : List Char} {n : Nat} (h : IsNumber cs n) :
    (∃ c rest, cs = c :: rest ∧ isWhiteSpace c = false) ∧ ∃ front c, cs = front ++ [c] ∧ c.isDigit = true := by
  obtain ⟨sign, digits, rfl, hsign, hne, hall, -⟩ := h
  constructor
  · rcases hsign with rfl | rfl
    · obtain ⟨c, rest, rfl⟩ := List.exists_cons_of_ne_nil hne
      exact ⟨c, rest, rfl, isWhiteSpace_digit (List.all_eq_true.1 hall c (by simp))⟩
    · exact ⟨'+', digits, rfl, by decide⟩
  · refine ⟨sign ++ digits.dropLast, digits.getLast hne, ?_, List.all_eq_true.1 hall _ (List.getLast_mem hne)⟩
    rw [List.append_assoc, List.dropLast_concat_getLast]

/-- The units, each with the nanoseconds it stands for. -/
def durationUnits : List (List Char × Nat) := [(['m', 's'], 1000000), (['u', 's'], 1000), (['s'], 1000000000)]

/-- A number followed by one unit is not followed by another. -/
theorem stripSuffix_number {number : List Char} {n : Nat} (h : IsNumber number n) {c : Char} (hc : c.isDigit = false) :
    stripSuffix [c, 's'] (number ++ ['s']) = none := by
  rw [Option.eq_none_iff_forall_ne_some]
  intro rest hrest
  rw [stripSuffix_eq_some] at hrest
  obtain ⟨front, d, rfl, hd⟩ := h.ends.2
  have hsame : front ++ [d] ++ ['s'] = rest ++ [c] ++ ['s'] := by simpa using hrest
  have hlast := (List.append_inj' (List.append_inj_left' hsame rfl) rfl).2
  rw [List.singleton_inj.1 hlast, hc] at hd
  cases hd

/-- White space, a number and its unit, white space; the nanoseconds fit in 64 bits. -/
def IsDuration (text : List Char) (ns : Nat) : Prop :=
  ∃ pre number unit post n, text = pre ++ (number ++ Prod.fst unit) ++ post ∧ pre.all isWhiteSpace ∧
    post.all isWhiteSpace ∧ unit ∈ durationUnits ∧ IsNumber number n ∧ ns = n * unit.2 ∧ ns ≤ u64Max

/-- `parse_duration` takes exactly the durations. -/
theorem parseDuration_ok_iff (value : String) (ns : Nat) :
    parseDuration value = .ok ns ↔ IsDuration value.toList ns := by
  obtain ⟨pre, post, htrim, hpre, hpost⟩ := trim_eq value.toList
  constructor
  · intro h
    have hfound : ∀ {number : List Char} (unit : List Char × Nat), unit ∈ durationUnits → 0 < unit.2 →
        stripSuffix unit.1 (trim value.toList) = some number → parseAmount unit.2 number = .ok ns →
        IsDuration value.toList ns := by
      intro number unit hunit hpos hstrip hamount
      obtain ⟨n, hn, hns, hfits⟩ := (parseAmount_ok hpos).1 hamount
      rw [stripSuffix_eq_some.1 hstrip] at htrim
      exact ⟨pre, number, unit, post, n, htrim, hpre, hpost, hunit, hn, hns, hfits⟩
    unfold parseDuration at h
    simp only at h
    split at h
    · next number hstrip => exact hfound (['m', 's'], 1000000) (by simp [durationUnits]) (by decide) hstrip h
    · split at h
      · next number hstrip => exact hfound (['u', 's'], 1000) (by simp [durationUnits]) (by decide) hstrip h
      · split at h
        · next number hstrip => exact hfound (['s'], 1000000000) (by simp [durationUnits]) (by decide) hstrip h
        · cases h
  · rintro ⟨pre, number, unit, post, n, hvalue, hpre, hpost, hunit, hn, hns, hfits⟩
    obtain ⟨⟨c, rest, hhead, hc⟩, -⟩ := hn.ends
    have hlast : ∃ front c, number ++ unit.1 = front ++ [c] ∧ isWhiteSpace c = false := by
      simp only [durationUnits, List.mem_cons, List.not_mem_nil, or_false] at hunit
      rcases hunit with rfl | rfl | rfl
      · exact ⟨number ++ ['m'], 's', by simp, by decide⟩
      · exact ⟨number ++ ['u'], 's', by simp, by decide⟩
      · exact ⟨number, 's', rfl, by decide⟩
    have htrimmed : trim value.toList = number ++ unit.1 := by
      rw [hvalue]
      exact trim_of_ends hpre hpost ⟨c, rest ++ unit.1, by rw [hhead]; rfl, hc⟩ hlast
    have hstrip : stripSuffix unit.1 (number ++ unit.1) = some number := stripSuffix_eq_some.2 rfl
    unfold parseDuration
    simp only [htrimmed]
    simp only [durationUnits, List.mem_cons, List.not_mem_nil, or_false] at hunit
    rcases hunit with rfl | rfl | rfl
    · simp only [hstrip]
      exact (parseAmount_ok (by decide)).2 ⟨n, hn, hns, hfits⟩
    · have hother : stripSuffix ['m', 's'] (number ++ ['u', 's']) = none := by
        rw [Option.eq_none_iff_forall_ne_some]
        intro rest' hrest
        have hsame := stripSuffix_eq_some.1 hrest
        have hends := (List.append_inj' hsame rfl).2
        simp at hends
      simp only [hother, hstrip]
      exact (parseAmount_ok (by decide)).2 ⟨n, hn, hns, hfits⟩
    · have hms : stripSuffix ['m', 's'] (number ++ ['s']) = none := stripSuffix_number hn (by decide)
      have hus : stripSuffix ['u', 's'] (number ++ ['s']) = none := stripSuffix_number hn (by decide)
      simp only [hms, hus, hstrip]
      exact (parseAmount_ok (by decide)).2 ⟨n, hn, hns, hfits⟩

end Eggchaos
