import Eggchaos.Lib.Text
import Mathlib.Data.List.Nodup
/-!
# Samples as text

The text format of metrics: a line for each sample, with the metric's name, its
labels in braces and a number, and lines of comments. A reader of the format gets
back the samples that were written, as long as names and values hold none of the
characters that the format gives a meaning to (`readText_writeText`).
-/

namespace Eggchaos.Lib

structure Sample where
  metric : String
  labels : List (String × String)
  value : Nat
deriving DecidableEq, Repr

/-- What a sample is about: a metric and its labels. -/
abbrev Series := String × List (String × String)

def Sample.series (s : Sample) : Series := (s.metric, s.labels)

inductive SampleLine where
  /-- The text after the hash. -/
  | comment (text : String)
  | sample (s : Sample)
deriving DecidableEq, Repr

/-! ## Writing -/

def writeLabel (label : String × String) : List Char := label.1.toList ++ '=' :: '\x22' :: (label.2.toList ++ ['\x22'])

/-- The labels behind the opening brace, up to the closing one. -/
def writeLabels : List (String × String) → List Char
  | [] => ['\x7d']
  | [label] => writeLabel label ++ ['\x7d']
  | label :: labels => writeLabel label ++ ',' :: writeLabels labels

def Sample.write (s : Sample) : List Char :=
  s.metric.toList ++ (if s.labels = [] then [] else '\x7b' :: writeLabels s.labels) ++ ' ' :: (toString s.value).toList

def SampleLine.write : SampleLine → List Char
  | .comment text => '#' :: text.toList
  | .sample s => s.write

def SampleLine.sample? : SampleLine → Option Sample
  | .comment _ => none
  | .sample s => some s

def SampleLine.comment? : SampleLine → Option String
  | .comment text => some text
  | .sample _ => none

/-- Every line ends in a newline. -/
def writeText (lines : List SampleLine) : List Char := lines.flatMap fun line => line.write ++ ['\n']

/-! ## Reading -/

/-- A label's value, up to its closing quote; a backslash escapes. -/
def readValue : List Char → Option (List Char × List Char)
  | [] => none
  | '\x22' :: rest => some ([], rest)
  | ['\x5c'] => none
  | '\x5c' :: c :: rest => (readValue rest).map fun (value, rest) => ((if c = 'n' then '\n' else c) :: value, rest)
  | c :: rest => (readValue rest).map fun (value, rest) => (c :: value, rest)

/-- The labels up to the closing brace; every label takes some fuel. -/
def readLabels : Nat → List Char → Option (List (String × String) × List Char)
  | 0, _ => none
  | fuel + 1, text => do
    let name := String.ofList (text.takeWhile (· ≠ '='))
    let (value, rest) ← match text.dropWhile (· ≠ '=') with
      | '=' :: '\x22' :: rest => readValue rest
      | _ => none
    match rest with
    | '\x7d' :: rest => return ([(name, String.ofList value)], rest)
    | ',' :: rest =>
      let (labels, rest) ← readLabels fuel rest
      return ((name, String.ofList value) :: labels, rest)
    | _ => none

def readNumber : List Char → Option Nat
  | ' ' :: digits => if digits ≠ [] ∧ digits.all Char.isDigit then some (Nat.ofDigitChars 10 digits 0) else none
  | _ => none

def readSample (line : List Char) : Option Sample := do
  let metric := String.ofList (line.takeWhile fun c => c ≠ '\x7b' && c ≠ ' ')
  match line.dropWhile fun c => c ≠ '\x7b' && c ≠ ' ' with
  | '\x7b' :: rest =>
    let (labels, rest) ← readLabels rest.length rest
    return ⟨metric, labels, ← readNumber rest⟩
  | rest => return ⟨metric, [], ← readNumber rest⟩

/-- The samples of all lines that are neither empty nor comments. -/
def readText (text : List Char) : Option (List Sample) :=
  ((text.splitOn '\n').filter fun line => line ≠ [] && line.head? ≠ some '#').mapM readSample

example : readText "# TYPE up gauge\nup\x7bjob=\"a\\\"b\",at=\"c\"\x7d 12\nerrors 0\n".toList =
    some [⟨"up", [("job", "a\"b"), ("at", "c")], 12⟩, ⟨"errors", [], 0⟩] := by decide

/-! ## What can be written -/

/-- None of the characters with a meaning: letters, digits and some more. -/
def isPlain (c : Char) : Bool := c.isAlphanum || ['_', '-', '.', ':'].contains c

def Plain (text : String) : Prop := text.toList.all isPlain = true

instance (text : String) : Decidable (Plain text) := inferInstanceAs (Decidable (text.toList.all isPlain = true))

/-- A series whose samples are read back, whatever the number. -/
structure WritableSeries (s : Series) : Prop where
  nonempty : s.1 ≠ ""
  metric : Plain s.1
  names : ∀ label ∈ s.2, Plain label.1
  values : ∀ label ∈ s.2, Plain label.2

/-- Plain texts have plain bytes, and these are quicker to look at. -/
def plainBytes (text : String) : Bool := text.toByteArray.data.toList.all fun byte => isPlain (Char.ofUInt8 byte)

theorem isPlain_high (byte : UInt8) (h : 128 ≤ byte.toNat) : isPlain (Char.ofUInt8 byte) = false := by
  have htable : ∀ n < 128, isPlain (Char.ofUInt8 (UInt8.ofNat (128 + n))) = false := by decide
  have hlt := byte.toNat_lt
  have hbyte := htable (byte.toNat - 128) (by omega)
  rwa [show 128 + (byte.toNat - 128) = byte.toNat by omega, UInt8.ofNat_toNat] at hbyte

/-- Only ASCII has plain bytes, and there a character is its byte. -/
theorem isPlain_of_encoded {c : Char} (h : ∀ byte ∈ String.utf8EncodeChar c, isPlain (Char.ofUInt8 byte) = true) :
    isPlain c = true := by
  have hhead : ∀ n rest, String.utf8EncodeChar c = UInt8.ofNat n :: rest → n < 256 → n < 128 := by
    intro n rest heq hn
    by_contra hle
    have hplain := h (UInt8.ofNat n) (by simp [heq])
    rw [isPlain_high _ (by rw [UInt8.toNat_ofNat_of_lt' hn]; omega)] at hplain
    cases hplain
  by_cases hascii : c.val.toNat ≤ 0x7f
  · have hencode : String.utf8EncodeChar c = [UInt8.ofNat c.val.toNat] := if_pos hascii
    have hsame : Char.ofUInt8 (UInt8.ofNat c.val.toNat) = c := by
      apply Char.ext
      apply UInt32.toNat_inj.1
      change (UInt8.ofNat c.val.toNat).toUInt32.toNat = c.val.toNat
      rw [UInt8.toNat_toUInt32, UInt8.toNat_ofNat_of_lt' (by change _ < 256; omega)]
    rw [← hsame]
    exact h _ (by simp [hencode])
  · have hwide : ∃ n rest, 128 ≤ n ∧ n < 256 ∧ String.utf8EncodeChar c = UInt8.ofNat n :: rest := by
      unfold String.utf8EncodeChar
      simp only [if_neg hascii]
      split
      · exact ⟨_, _, by omega, by omega, rfl⟩
      · split
        · exact ⟨_, _, by omega, by omega, rfl⟩
        · exact ⟨_, _, by omega, by omega, rfl⟩
    obtain ⟨n, rest, hle, hlt, heq⟩ := hwide
    have hlow := hhead n rest heq hlt
    omega

theorem toByteArray_toList (text : String) :
    text.toByteArray.data.toList = text.toList.flatMap String.utf8EncodeChar := by
  rw [← String.utf8Encode_toList, List.utf8Encode]
  exact List.toList_data_toByteArray

theorem plain_of_bytes {text : String} (h : plainBytes text = true) : Plain text := by
  refine List.all_eq_true.2 fun c hc => isPlain_of_encoded fun byte hbyte => ?_
  refine List.all_eq_true.1 h byte ?_
  rw [toByteArray_toList]
  exact List.mem_flatMap.2 ⟨c, hc, hbyte⟩

/-- The text has no newline, looked at by its bytes. -/
def oneLine (text : String) : Bool := !text.toByteArray.data.toList.contains 10

theorem no_newline_of_oneLine {text : String} (h : oneLine text = true) : '\n' ∉ text.toList := by
  intro hmem
  have hbyte : 10 ∈ text.toByteArray.data.toList := by
    rw [toByteArray_toList]
    exact List.mem_flatMap.2 ⟨_, hmem, by decide⟩
  simp [oneLine, hbyte] at h

/-- A series is writable by its bytes. -/
def plainSeries (s : Series) : Bool :=
  s.1 ≠ "" && plainBytes s.1 && s.2.all fun label => plainBytes label.1 && plainBytes label.2

theorem writable_of_plain {s : Series} (h : plainSeries s = true) : WritableSeries s := by
  obtain ⟨h, hlabels⟩ := Bool.and_eq_true_iff.1 h
  obtain ⟨hne, hmetric⟩ := Bool.and_eq_true_iff.1 h
  have hlabel := fun label hl => Bool.and_eq_true_iff.1 (List.all_eq_true.1 hlabels label hl)
  exact ⟨of_decide_eq_true hne, plain_of_bytes hmetric, fun label hl => plain_of_bytes (hlabel label hl).1,
    fun label hl => plain_of_bytes (hlabel label hl).2⟩

/-- A line of which nothing is read that it does not say. -/
def SampleLine.Writable : SampleLine → Prop
  | .comment text => '\n' ∉ text.toList
  | .sample s => WritableSeries s.series

theorem ne_of_isPlain {c d : Char} (hc : isPlain c = true) (hd : isPlain d = false) : c ≠ d := by
  rintro rfl
  rw [hc] at hd
  cases hd

theorem Plain.ne {text : String} (h : Plain text) {d : Char} (hd : isPlain d = false) : ∀ c ∈ text.toList, c ≠ d :=
  fun _ hc => ne_of_isPlain (List.all_eq_true.1 h _ hc) hd

/-! ## Reading what was written -/

theorem takeWhile_stop {p : Char → Bool} {a : List Char} {c : Char} (ha : ∀ x ∈ a, p x = true) (hc : p c = false)
    (rest : List Char) : (a ++ c :: rest).takeWhile p = a ∧ (a ++ c :: rest).dropWhile p = c :: rest := by
  rw [List.takeWhile_append_of_pos ha, List.dropWhile_append_of_pos ha]
  simp [hc]

theorem readValue_plain {value : List Char} (h : ∀ c ∈ value, isPlain c = true) (rest : List Char) :
    readValue (value ++ '\x22' :: rest) = some (value, rest) := by
  induction value with
  | nil => rfl
  | cons c value ih =>
    have hc := h c List.mem_cons_self
    have hquote : c ≠ '\x22' := ne_of_isPlain hc (by decide)
    have hslash : c ≠ '\x5c' := ne_of_isPlain hc (by decide)
    rw [List.cons_append, readValue, ih fun c hc => h c (List.mem_cons_of_mem _ hc)]
    · rfl
    · exact hquote
    · intro heq
      exact absurd heq hslash
    · intro c' rest' heq
      exact absurd heq hslash

/-- Where a label's name ends. -/
theorem writeLabel_split {label : String × String} (hname : Plain label.1) (rest : List Char) :
    (writeLabel label ++ rest).takeWhile (· ≠ '=') = label.1.toList ∧
      (writeLabel label ++ rest).dropWhile (· ≠ '=') = '=' :: '\x22' :: (label.2.toList ++ '\x22' :: rest) := by
  have htext : writeLabel label ++ rest =
      label.1.toList ++ '=' :: '\x22' :: (label.2.toList ++ '\x22' :: rest) := by simp [writeLabel]
  rw [htext]
  exact takeWhile_stop (fun c hc => decide_eq_true (hname.ne (by decide) c hc)) (by decide) _

theorem readLabels_last {label : String × String} (hname : Plain label.1) (hvalue : Plain label.2) (fuel : Nat)
    (rest : List Char) : readLabels (fuel + 1) (writeLabel label ++ '\x7d' :: rest) = some ([label], rest) := by
  obtain ⟨htake, hdrop⟩ := writeLabel_split hname ('\x7d' :: rest)
  rw [readLabels, htake, hdrop]
  simp only [readValue_plain (List.all_eq_true.1 hvalue), Option.bind_eq_bind, Option.bind_some, String.ofList_toList]
  rfl

theorem readLabels_next {label : String × String} (hname : Plain label.1) (hvalue : Plain label.2) (fuel : Nat)
    (rest : List Char) : readLabels (fuel + 1) (writeLabel label ++ ',' :: rest) =
      (readLabels fuel rest).map fun (labels, rest) => (label :: labels, rest) := by
  obtain ⟨htake, hdrop⟩ := writeLabel_split hname (',' :: rest)
  rw [readLabels, htake, hdrop]
  simp only [readValue_plain (List.all_eq_true.1 hvalue), Option.bind_eq_bind, Option.bind_some, String.ofList_toList]
  cases readLabels fuel rest <;> rfl

theorem readLabels_write {labels : List (String × String)} (hne : labels ≠ [])
    (hplain : ∀ label ∈ labels, Plain label.1 ∧ Plain label.2) (fuel : Nat) (hfuel : labels.length ≤ fuel)
    (rest : List Char) : readLabels fuel (writeLabels labels ++ rest) = some (labels, rest) := by
  induction labels generalizing fuel with
  | nil => exact absurd rfl hne
  | cons label labels ih =>
    obtain ⟨hname, hvalue⟩ := hplain label List.mem_cons_self
    obtain ⟨fuel, rfl⟩ : ∃ n, fuel = n + 1 := ⟨fuel - 1, by simp at hfuel; omega⟩
    cases labels with
    | nil =>
      rw [writeLabels, List.append_assoc]
      exact readLabels_last hname hvalue fuel rest
    | cons next labels =>
      have hrest := ih (List.cons_ne_nil _ _) (fun l hl => hplain l (List.mem_cons_of_mem _ hl)) fuel
        (Nat.le_of_succ_le_succ hfuel)
      rw [writeLabels, List.append_assoc, List.cons_append, readLabels_next hname hvalue, hrest, Option.map_some]
      exact List.cons_ne_nil _ _

theorem readNumber_write (n : Nat) : readNumber (' ' :: (toString n).toList) = some n := by
  rw [toString_digits, readNumber, if_pos, Nat.ofDigitChars_ten_toDigits]
  refine ⟨Nat.toDigits_ne_nil, List.all_eq_true.2 fun c hc => ?_⟩
  exact Nat.isDigit_of_mem_toDigits (by decide) (by decide) hc

/-- Every label takes room. -/
theorem length_le_writeLabels (labels : List (String × String)) : labels.length ≤ (writeLabels labels).length := by
  fun_induction writeLabels labels with
  | case1 => exact Nat.zero_le _
  | case2 label => simp
  | case3 label labels hne ih =>
    rw [List.length_append, List.length_cons, List.length_cons]
    omega

theorem readSample_write {s : Sample} (h : WritableSeries s.series) : readSample s.write = some s := by
  have hstop : ∀ c ∈ s.metric.toList, (decide (c ≠ '\x7b') && decide (c ≠ ' ')) = true := by
    intro c hc
    rw [decide_eq_true (h.metric.ne (by decide) c hc), decide_eq_true (h.metric.ne (by decide) c hc), Bool.and_true]
  obtain ⟨metric, labels, value⟩ := s
  have hnumber := readNumber_write value
  cases labels with
  | nil =>
    obtain ⟨htake, hdrop⟩ := takeWhile_stop hstop (by decide) (toString value).toList (c := ' ')
    simp only [readSample, Sample.write, if_true, List.append_nil, htake, hdrop, String.ofList_toList]
    change (readNumber (' ' :: (toString value).toList)).bind _ = _
    rw [hnumber]
    rfl
  | cons label labels =>
    have hplain : ∀ l ∈ label :: labels, Plain l.1 ∧ Plain l.2 := fun l hl => ⟨h.names l hl, h.values l hl⟩
    have hlabels := readLabels_write (List.cons_ne_nil label labels) hplain
      (writeLabels (label :: labels) ++ ' ' :: (toString value).toList).length
      (by have := length_le_writeLabels (label :: labels); rw [List.length_append]; omega)
      (' ' :: (toString value).toList)
    have htext : metric.toList ++ (if label :: labels = [] then [] else '\x7b' :: writeLabels (label :: labels)) ++
        ' ' :: (toString value).toList =
          metric.toList ++ '\x7b' :: (writeLabels (label :: labels) ++ ' ' :: (toString value).toList) := by simp
    obtain ⟨htake, hdrop⟩ := takeWhile_stop hstop (by decide)
      (writeLabels (label :: labels) ++ ' ' :: (toString value).toList) (c := '\x7b')
    simp only [readSample, Sample.write, htext, htake, hdrop, hlabels, String.ofList_toList, Option.bind_eq_bind,
      Option.bind_some, hnumber]
    rfl

/-! ## Lines -/

theorem writeText_eq (lines : List SampleLine) :
    writeText lines = ['\n'].intercalate (lines.map SampleLine.write ++ [[]]) := by
  unfold writeText
  induction lines with
  | nil => rfl
  | cons line lines ih =>
    rw [List.flatMap_cons, ih, List.map_cons, List.cons_append]
    cases lines <;> simp [List.intercalate]

theorem writeLabel_no_newline {label : String × String} (hname : Plain label.1) (hvalue : Plain label.2) :
    '\n' ∉ writeLabel label := by
  have h1 : '\n' ∉ label.1.toList := fun h => hname.ne (by decide) _ h rfl
  have h2 : '\n' ∉ label.2.toList := fun h => hvalue.ne (by decide) _ h rfl
  simp [writeLabel, h1, h2]

theorem writeLabels_no_newline {labels : List (String × String)} (h : ∀ label ∈ labels, Plain label.1 ∧ Plain label.2) :
    '\n' ∉ writeLabels labels := by
  fun_induction writeLabels labels with
  | case1 => decide
  | case2 label =>
    have hlabel := writeLabel_no_newline (h label List.mem_cons_self).1 (h label List.mem_cons_self).2
    simp [hlabel]
  | case3 label labels hne ih =>
    have hlabel := writeLabel_no_newline (h label List.mem_cons_self).1 (h label List.mem_cons_self).2
    simp [hlabel, ih fun l hl => h l (List.mem_cons_of_mem _ hl)]

theorem digits_no_newline (n : Nat) : '\n' ∉ Nat.toDigits 10 n := by
  intro h
  exact absurd (Nat.isDigit_of_mem_toDigits (by decide) (by decide) h) (by decide)

theorem SampleLine.Writable.no_newline {line : SampleLine} (h : line.Writable) : '\n' ∉ line.write := by
  cases line with
  | comment text => exact fun hmem => h (by simpa [SampleLine.write] using hmem)
  | sample s =>
    have hmetric : '\n' ∉ s.metric.toList := fun hmem => h.metric.ne (by decide) _ hmem rfl
    have hlabels : '\n' ∉ writeLabels s.labels := writeLabels_no_newline fun l hl => ⟨h.names l hl, h.values l hl⟩
    simp only [SampleLine.write, Sample.write]
    split <;> simp [hmetric, hlabels, digits_no_newline]

/-- What the reader keeps of a line. -/
theorem SampleLine.Writable.kept {line : SampleLine} (h : line.Writable) :
    (decide (line.write ≠ []) && decide (line.write.head? ≠ some '#')) = line.sample?.isSome := by
  cases line with
  | comment text => simp [SampleLine.write, SampleLine.sample?]
  | sample s =>
    cases hmetric : s.metric.toList with
    | nil => exact absurd (String.toList_eq_nil_iff.1 hmetric) h.nonempty
    | cons c metric =>
      have hmem : c ∈ s.metric.toList := hmetric ▸ List.mem_cons_self
      have hc : c ≠ '#' := h.metric.ne (by decide) c hmem
      simp [SampleLine.write, Sample.write, SampleLine.sample?, hmetric, hc]

theorem kept_lines {lines : List SampleLine} (h : ∀ line ∈ lines, line.Writable) :
    (lines.map SampleLine.write).filter (fun line => line ≠ [] && line.head? ≠ some '#') =
      (lines.filterMap SampleLine.sample?).map Sample.write := by
  induction lines with
  | nil => rfl
  | cons line lines ih =>
    have hkept := (h line List.mem_cons_self).kept
    rw [List.map_cons, List.filter_cons, hkept, ih fun l hl => h l (List.mem_cons_of_mem _ hl)]
    cases line <;> rfl

theorem mapM_readSample {samples : List Sample} (h : ∀ s ∈ samples, WritableSeries s.series) :
    (samples.map Sample.write).mapM readSample = some samples := by
  induction samples with
  | nil => rfl
  | cons s samples ih =>
    rw [List.map_cons, List.mapM_cons, readSample_write (h s List.mem_cons_self),
      ih fun s hs => h s (List.mem_cons_of_mem _ hs)]
    rfl

/-- The samples of a text are the ones that were written. -/
theorem readText_writeText {lines : List SampleLine} (h : ∀ line ∈ lines, line.Writable) :
    readText (writeText lines) = some (lines.filterMap SampleLine.sample?) := by
  have hsplit : (writeText lines).splitOn '\n' = lines.map SampleLine.write ++ [[]] := by
    rw [writeText_eq]
    apply List.splitOn_intercalate
    · intro l hl
      rcases List.mem_append.1 hl with hl | hl
      · obtain ⟨line, hline, rfl⟩ := List.mem_map.1 hl
        exact (h line hline).no_newline
      · rw [List.mem_singleton.1 hl]
        exact List.not_mem_nil
    · simp
  have hsamples : ∀ s ∈ lines.filterMap SampleLine.sample?, WritableSeries s.series := by
    intro s hs
    obtain ⟨line, hline, hsample⟩ := List.mem_filterMap.1 hs
    cases line with
    | comment text => cases hsample
    | sample s' =>
      obtain rfl := Option.some.inj hsample
      exact h _ hline
  rw [readText, hsplit, List.filter_append, kept_lines h, List.filter_cons_of_neg (by decide), List.filter_nil,
    List.append_nil]
  exact mapM_readSample hsamples

/-! ## Families of series -/

/-- The series with one more label, in front. -/
def withLabel (name value : String) (s : Series) : Series := (s.1, (name, value) :: s.2)

/-- One family for each of some values. -/
def labeled (name : String) (values : List String) (family : List Series) : List Series :=
  values.flatMap fun value => family.map (withLabel name value)

theorem WritableSeries.withLabel {s : Series} (h : WritableSeries s) {name value : String} (hname : Plain name)
    (hvalue : Plain value) : WritableSeries (withLabel name value s) := by
  refine ⟨h.nonempty, h.metric, ?_, ?_⟩
  · exact List.forall_mem_cons.2 ⟨hname, h.names⟩
  · exact List.forall_mem_cons.2 ⟨hvalue, h.values⟩

theorem withLabel_injective (name value : String) : Function.Injective (withLabel name value) := by
  rintro ⟨metric, labels⟩ ⟨metric', labels'⟩ h
  simpa [withLabel] using h

theorem mem_labeled {name : String} {values : List String} {family : List Series} {s : Series} :
    s ∈ labeled name values family ↔ ∃ value ∈ values, ∃ t ∈ family, withLabel name value t = s := by
  simp only [labeled, List.mem_flatMap, List.mem_map]

theorem nodup_labeled (name : String) {values : List String} {family : List Series} (hvalues : values.Nodup)
    (hfamily : family.Nodup) : (labeled name values family).Nodup := by
  rw [labeled, List.nodup_flatMap]
  refine ⟨fun value _ => hfamily.map (withLabel_injective name value), ?_⟩
  refine hvalues.imp fun {value value'} hne => ?_
  intro s hs hs'
  obtain ⟨t, _, rfl⟩ := List.mem_map.1 hs
  obtain ⟨t', _, heq⟩ := List.mem_map.1 hs'
  have hlabel : (name, value') = (name, value) := (List.cons.inj (congrArg Prod.snd heq)).1
  exact hne (congrArg Prod.snd hlabel).symm

end Eggchaos.Lib
