import Eggchaos.Plan
import Eggchaos.Rng
/-!
# Path components

A fault is addressed by the path `/v1/proxies/{proxy}/faults/{id}` (or
`/v1/datagram-proxies/..`). The CLI escapes both names with
`encode_path_component`; `handle_request` splits the path at slashes, drops
empty segments, and unescapes the fault id with `decode_path_component`. The
path is taken to arrive as it was built.
-/

namespace Eggchaos
open Lib

/-! ## The two loops -/

def isUnreserved (byte : UInt8) : Bool :=
  (Char.ofUInt8 byte).isAlphanum || [0x2d, 0x5f, 0x2e, 0x7e].contains byte

/-- One byte of `encode_path_component`: itself, or `%` and `{:02X}`. -/
def encodeByte (byte : UInt8) : List Char :=
  if isUnreserved byte then [Char.ofUInt8 byte]
  else ['%', (Nat.digitChar (byte.toNat / 16)).toUpper, (Nat.digitChar (byte.toNat % 16)).toUpper]

/-- `encode_path_component`. -/
def encodePathComponent (value : String) : String := String.ofList ((utf8Bytes value).flatMap encodeByte)

/-- `hex_value`. -/
def hexValue (byte : UInt8) : Option UInt8 :=
  if 0x30 ≤ byte ∧ byte ≤ 0x39 then some (byte - 0x30)
  else if 0x61 ≤ byte ∧ byte ≤ 0x66 then some (byte - 0x61 + 10)
  else if 0x41 ≤ byte ∧ byte ≤ 0x46 then some (byte - 0x41 + 10)
  else none

/-- The loop of `decode_path_component`. -/
def decodeBytes : List UInt8 → Option (List UInt8)
  | [] => some []
  | byte :: rest =>
    if byte = 0x25 then
      match rest with
      | hi :: lo :: rest => do
        let hi ← hexValue hi
        let lo ← hexValue lo
        return ((hi <<< 4) ||| lo) :: (← decodeBytes rest)
      | _ => none
    else do
      return byte :: (← decodeBytes rest)

/-- `decode_path_component`. -/
def decodePathComponent (input : String) : Option String :=
  (decodeBytes (utf8Bytes input)).bind fun decoded => String.fromUTF8? decoded.toByteArray

example : decodePathComponent "a%2Fb%25" = some "a/b%" := by decide
example : decodePathComponent "bad%2" = none := by decide
example : decodePathComponent "%FF" = none := by decide

/-! ## Segments -/

/-- `path.split('/')` without the empty parts. -/
def pathSegments (path : String) : List String :=
  ((path.toList.splitOn '/').map String.ofList).filter (· ≠ "")

/-- The segments `handle_request` routes on, the fault id decoded; nothing is the
`400` answer to an id that does not decode. -/
def decodedSegments (path : String) : Option (List String) :=
  let segments := pathSegments path
  if segments.length = 5 ∧ segments[0]? = some "v1" ∧
      (segments[1]? = some "proxies" ∨ segments[1]? = some "datagram-proxies") ∧ segments[3]? = some "faults" then
    (decodePathComponent (segments.getD 4 "")).map fun id => segments.set 4 id
  else some segments

/-- `validate_proxy_name`. -/
def validateProxyName (name : String) : Except String Unit :=
  if name = "" ∨ 128 < name.utf8ByteSize then .error "proxy name must be 1..=128 bytes"
  else if ¬ (utf8Bytes name).all (fun byte =>
      (Char.ofUInt8 byte).isAlphanum || [0x2e, 0x5f, 0x2d].contains byte) then
    .error "proxy name must match [A-Za-z0-9._-]+"
  else .ok ()

/-- The path of a fault of a stream proxy. -/
def streamFaultPath (proxy id : String) : String :=
  "/v1/proxies/" ++ encodePathComponent proxy ++ "/faults/" ++ encodePathComponent id

/-- The path of a fault of a datagram proxy. -/
def datagramFaultPath (proxy id : String) : String :=
  "/v1/datagram-proxies/" ++ encodePathComponent proxy ++ "/faults/" ++ encodePathComponent id

/-! ## What escapes stand for -/

/-- The byte is the hex digit `d`, in either case. -/
def HexDigit (byte : UInt8) (d : Nat) : Prop :=
  d < 16 ∧ (byte.toNat = (Nat.digitChar d).toNat ∨ byte.toNat = (Nat.digitChar d).toUpper.toNat)

/-- Every percent sign is followed by two hex digits. -/
def Escaped (bytes : List UInt8) : Prop :=
  ∀ i : Nat, bytes[i]? = some 0x25 →
    ∃ hi lo h l, bytes[i + 1]? = some hi ∧ bytes[i + 2]? = some lo ∧ HexDigit hi h ∧ HexDigit lo l

/-- The second text is the first with its escapes replaced. -/
inductive Unescapes : List UInt8 → List UInt8 → Prop
  | nil : Unescapes [] []
  | plain {byte : UInt8} {s t : List UInt8} : byte ≠ 0x25 → Unescapes s t → Unescapes (byte :: s) (byte :: t)
  | escape {hi lo byte : UInt8} {h l : Nat} {s t : List UInt8} : HexDigit hi h → HexDigit lo l →
      byte.toNat = 16 * h + l → Unescapes s t → Unescapes (0x25 :: hi :: lo :: s) (byte :: t)

/-! ### Digits -/

/-- What holds for every two nibbles holds of every byte. -/
theorem byte_of_nibbles {P : UInt8 → Prop} (h : ∀ hi < 16, ∀ lo < 16, P (UInt8.ofNat (16 * hi + lo))) (byte : UInt8) :
    P byte := by
  have hlt := byte.toNat_lt
  have hbyte := h (byte.toNat / 16) (by omega) (byte.toNat % 16) (by omega)
  rwa [Nat.div_add_mod, UInt8.ofNat_toNat] at hbyte

theorem hexValue_table (byte : UInt8) : ∀ v < 16, hexValue byte = some (UInt8.ofNat v) ↔
    byte.toNat = (Nat.digitChar v).toNat ∨ byte.toNat = (Nat.digitChar v).toUpper.toNat := by
  apply byte_of_nibbles _ byte
  decide

theorem hexValue_lt (byte : UInt8) : ((hexValue byte).getD 0).toNat < 16 := by
  apply byte_of_nibbles _ byte
  decide

/-- `hex_value` reads the digits of either case and nothing else. -/
theorem hexValue_eq_some_iff (byte value : UInt8) : hexValue byte = some value ↔ HexDigit byte value.toNat := by
  have htable := hexValue_table byte value.toNat
  rw [UInt8.ofNat_toNat] at htable
  constructor
  · intro h
    have hlt := hexValue_lt byte
    rw [h] at hlt
    exact ⟨hlt, (htable hlt).1 h⟩
  · rintro ⟨hlt, hdigit⟩
    exact (htable hlt).2 hdigit

theorem hexValue_of_digit {byte : UInt8} {d : Nat} (h : HexDigit byte d) : hexValue byte = some (UInt8.ofNat d) := by
  have hval : (UInt8.ofNat d).toNat = d := UInt8.toNat_ofNat_of_lt (lt_trans h.1 (by decide))
  rw [hexValue_eq_some_iff, hval]
  exact h

theorem nibbles_table : ∀ h < 16, ∀ l < 16, ((UInt8.ofNat h <<< 4) ||| UInt8.ofNat l).toNat = 16 * h + l := by
  decide

theorem nibbles_toNat {hi lo h l : UInt8} (hh : HexDigit hi h.toNat) (hl : HexDigit lo l.toNat) :
    ((h <<< 4) ||| l).toNat = 16 * h.toNat + l.toNat := by
  have htable := nibbles_table h.toNat hh.1 l.toNat hl.1
  rw [UInt8.ofNat_toNat, UInt8.ofNat_toNat] at htable
  exact htable

theorem percent_not_digit {d : Nat} : ¬ HexDigit 0x25 d := by
  rintro ⟨hd, heq⟩
  have hnone : ∀ d < 16, ¬ ((0x25 : UInt8).toNat = (Nat.digitChar d).toNat ∨
      (0x25 : UInt8).toNat = (Nat.digitChar d).toUpper.toNat) := by decide
  exact hnone d hd heq

/-! ### The loop -/

/-- The loop replaces the escapes. -/
theorem decodeBytes_eq_some_iff (s t : List UInt8) : decodeBytes s = some t ↔ Unescapes s t := by
  constructor
  · intro h
    fun_induction decodeBytes s generalizing t with
    | case1 =>
      rw [← Option.some.inj h]
      exact .nil
    | case2 hi lo rest ih =>
      obtain ⟨h', hh, h⟩ := Option.bind_eq_some_iff.1 h
      obtain ⟨l', hl, h⟩ := Option.bind_eq_some_iff.1 h
      obtain ⟨rest', hrest, h⟩ := Option.bind_eq_some_iff.1 h
      rw [← Option.some.inj h]
      have hhi := (hexValue_eq_some_iff hi h').1 hh
      have hlo := (hexValue_eq_some_iff lo l').1 hl
      exact .escape hhi hlo (nibbles_toNat hhi hlo) (ih rest' hrest)
    | case3 => cases h
    | case4 byte rest hbyte ih =>
      obtain ⟨rest', hrest, h⟩ := Option.bind_eq_some_iff.1 h
      rw [← Option.some.inj h]
      exact .plain hbyte (ih rest' hrest)
  · intro h
    induction h with
    | nil => rfl
    | plain hbyte _ ih =>
      unfold decodeBytes
      simp [hbyte, ih]
    | @escape hi lo byte h l s t hhi hlo hbyte _ ih =>
      have hval : (UInt8.ofNat h <<< 4) ||| UInt8.ofNat l = byte := by
        apply UInt8.toNat_inj.1
        rw [nibbles_table h hhi.1 l hlo.1, hbyte]
      unfold decodeBytes
      simp [hexValue_of_digit hhi, hexValue_of_digit hlo, ih, hval]

theorem Unescapes.escaped {s t : List UInt8} (h : Unescapes s t) : Escaped s := by
  induction h with
  | nil => simp [Escaped]
  | plain hbyte _ ih =>
    intro i hi
    cases i with
    | zero => exact absurd (Option.some.inj hi) hbyte
    | succ i => exact ih i hi
  | @escape hi lo byte h l s t hhi hlo _ _ ih =>
    intro i hpercent
    rcases i with _ | _ | _ | i
    · exact ⟨hi, lo, h, l, rfl, rfl, hhi, hlo⟩
    · cases Option.some.inj hpercent
      exact absurd hhi percent_not_digit
    · cases Option.some.inj hpercent
      exact absurd hlo percent_not_digit
    · exact ih i hpercent

/-- Past its first byte, or its first escape, a text stays escaped. -/
theorem Escaped.drop {s : List UInt8} (h : Escaped s) (n : Nat) : Escaped (s.drop n) := by
  intro i hi
  rw [List.getElem?_drop] at hi
  obtain ⟨hi, lo, a, b, hhi, hlo, ha, hb⟩ := h (n + i) hi
  refine ⟨hi, lo, a, b, ?_, ?_, ha, hb⟩
  · rw [List.getElem?_drop]
    exact hhi
  · rw [List.getElem?_drop]
    exact hlo

/-- A text whose percent signs all start escapes stands for another one. -/
theorem Escaped.unescapes {s : List UInt8} (h : Escaped s) : ∃ t, Unescapes s t := by
  induction hn : s.length using Nat.strong_induction_on generalizing s with
  | _ n ih =>
    cases s with
    | nil => exact ⟨[], .nil⟩
    | cons byte rest =>
      by_cases hbyte : byte = 0x25
      · subst hbyte
        obtain ⟨hi, lo, a, b, hhi, hlo, ha, hb⟩ := h 0 rfl
        obtain ⟨hi', rest, rfl⟩ : ∃ hi' tail, rest = hi' :: tail := List.exists_cons_of_ne_nil (by rintro rfl; cases hhi)
        obtain ⟨lo', rest, rfl⟩ : ∃ lo' tail, rest = lo' :: tail := List.exists_cons_of_ne_nil (by rintro rfl; cases hlo)
        cases Option.some.inj hhi
        cases Option.some.inj hlo
        obtain ⟨t, ht⟩ := ih rest.length (by simp at hn; omega) (h.drop 3) rfl
        have hfits : 16 * a + b < 256 := by
          have := ha.1
          have := hb.1
          omega
        exact ⟨_, .escape ha hb (UInt8.toNat_ofNat_of_lt hfits) ht⟩
      · obtain ⟨t, ht⟩ := ih rest.length (by simp at hn; omega) (h.drop 1) rfl
        exact ⟨_, .plain hbyte ht⟩

/-! ## Bytes of texts -/

theorem utf8Bytes_ofList (l : List Char) : utf8Bytes (String.ofList l) = l.flatMap String.utf8EncodeChar := by
  rw [utf8Bytes, String.toUTF8_eq_toByteArray, String.toByteArray_ofList, List.utf8Encode]
  exact List.toList_data_toByteArray

theorem fromUTF8?_eq_some_iff (bytes : List UInt8) (t : String) :
    String.fromUTF8? bytes.toByteArray = some t ↔ bytes = utf8Bytes t := by
  constructor
  · intro h
    unfold String.fromUTF8? at h
    split at h
    · rw [← Option.some.inj h]
      exact List.toList_data_toByteArray.symm
    · cases h
  · rintro rfl
    have hbytes : (utf8Bytes t).toByteArray = t.toByteArray := ByteArray.ext (by simp [utf8Bytes])
    rw [hbytes, String.fromUTF8?, dif_pos t.isValidUTF8]
    rfl

theorem decodePathComponent_eq_some_iff (s t : String) :
    decodePathComponent s = some t ↔ Unescapes (utf8Bytes s) (utf8Bytes t) := by
  simp only [decodePathComponent, Option.bind_eq_some_iff, fromUTF8?_eq_some_iff, decodeBytes_eq_some_iff,
    exists_eq_right]

/-! ## Encoded texts -/

/-- An encoded byte is in ASCII, has no slash, and its text stands for the byte. -/
theorem encodeByte_table (byte : UInt8) : encodeByte byte ≠ [] ∧
    (encodeByte byte).all (fun c => String.utf8EncodeChar c = [c.toUInt8] ∧ c ≠ '/') ∧
      decodeBytes ((encodeByte byte).map Char.toUInt8) = some [byte] := by
  apply byte_of_nibbles _ byte
  decide

theorem encodeByte_ascii {byte : UInt8} {c : Char} (h : c ∈ encodeByte byte) :
    String.utf8EncodeChar c = [c.toUInt8] ∧ c ≠ '/' :=
  of_decide_eq_true (List.all_eq_true.1 (encodeByte_table byte).2.1 c h)

theorem encodeByte_ne_nil (byte : UInt8) : encodeByte byte ≠ [] := (encodeByte_table byte).1

theorem encodeByte_unescapes (byte : UInt8) : Unescapes ((encodeByte byte).map Char.toUInt8) [byte] :=
  (decodeBytes_eq_some_iff _ _).1 (encodeByte_table byte).2.2

theorem Unescapes.append {s t s' t' : List UInt8} (h : Unescapes s t) (h' : Unescapes s' t') :
    Unescapes (s ++ s') (t ++ t') := by
  induction h with
  | nil => exact h'
  | plain hbyte _ ih => exact .plain hbyte ih
  | escape hhi hlo hval _ ih => exact .escape hhi hlo hval ih

theorem utf8Bytes_encode (value : String) :
    utf8Bytes (encodePathComponent value) = (utf8Bytes value).flatMap fun byte => (encodeByte byte).map Char.toUInt8 := by
  rw [encodePathComponent, utf8Bytes_ofList, List.flatMap_assoc]
  apply List.flatMap_congr
  intro byte _
  rw [List.map_eq_flatMap]
  apply List.flatMap_congr
  intro c hc
  exact (encodeByte_ascii hc).1

/-- Decoding undoes encoding. -/
theorem decode_encode (value : String) : decodePathComponent (encodePathComponent value) = some value := by
  rw [decodePathComponent_eq_some_iff, utf8Bytes_encode]
  induction utf8Bytes value with
  | nil => exact .nil
  | cons byte bytes ih =>
    rw [List.flatMap_cons]
    exact (encodeByte_unescapes byte).append ih

theorem encode_no_slash (value : String) : '/' ∉ (encodePathComponent value).toList := by
  rw [encodePathComponent, String.toList_ofList, List.mem_flatMap]
  rintro ⟨byte, -, hslash⟩
  exact (encodeByte_ascii hslash).2 rfl

theorem utf8Bytes_eq_nil {s : String} (h : utf8Bytes s = []) : s = "" := by
  have hempty : utf8Bytes s = utf8Bytes "" := h
  have hself := (fromUTF8?_eq_some_iff (utf8Bytes s) s).2 rfl
  have hother := (fromUTF8?_eq_some_iff (utf8Bytes s) "").2 hempty
  exact Option.some.inj (hself.symm.trans hother)

theorem encode_ne_empty {value : String} (h : value ≠ "") : encodePathComponent value ≠ "" := by
  intro heq
  have hnil : (utf8Bytes value).flatMap encodeByte = [] := by
    rw [← String.toList_ofList (l := (utf8Bytes value).flatMap encodeByte)]
    exact congrArg String.toList heq
  rw [List.flatMap_eq_nil_iff] at hnil
  cases hbytes : utf8Bytes value with
  | nil => exact h (utf8Bytes_eq_nil hbytes)
  | cons byte bytes => exact encodeByte_ne_nil byte (hnil byte (hbytes ▸ List.mem_cons_self))

/-! ## Names -/

/-- The bytes of names are unreserved. -/
theorem unreserved_table (byte : UInt8) :
    ((Char.ofUInt8 byte).isAlphanum || [0x2e, 0x5f, 0x2d].contains byte) = true →
      (encodeByte byte).map Char.toUInt8 = [byte] := by
  apply byte_of_nibbles _ byte
  decide

/-- A name needs no escapes. -/
theorem encode_name {name : String} (h : validateProxyName name = .ok ()) : encodePathComponent name = name := by
  unfold validateProxyName at h
  split at h
  · cases h
  · split at h
    · cases h
    · next hbytes =>
      rw [not_not, List.all_eq_true] at hbytes
      have hsame : utf8Bytes (encodePathComponent name) = utf8Bytes name := by
        rw [utf8Bytes_encode]
        calc (utf8Bytes name).flatMap (fun byte => (encodeByte byte).map Char.toUInt8)
            = (utf8Bytes name).flatMap (fun byte => [byte]) := by
              apply List.flatMap_congr
              intro byte hmem
              exact unreserved_table byte (hbytes byte hmem)
          _ = utf8Bytes name := List.flatMap_singleton' _
      have hself := (fromUTF8?_eq_some_iff _ (encodePathComponent name)).2 rfl
      rw [hsame, (fromUTF8?_eq_some_iff _ name).2 rfl] at hself
      exact (Option.some.inj hself).symm

theorem name_ne_empty {name : String} (h : validateProxyName name = .ok ()) : name ≠ "" := by
  rintro rfl
  cases h

/-! ## Segments of a path -/

/-- Segments without slashes, none empty, each behind a slash. -/
theorem pathSegments_eq {path : String} {segments : List String}
    (hpath : path.toList = ['/'].intercalate ([] :: segments.map String.toList))
    (hslash : ∀ s ∈ segments, '/' ∉ s.toList) (hne : ∀ s ∈ segments, s ≠ "") : pathSegments path = segments := by
  unfold pathSegments
  have hparts : ∀ l ∈ [] :: segments.map String.toList, '/' ∉ l := by
    intro l hl
    rcases List.mem_cons.1 hl with rfl | hl
    · exact List.not_mem_nil
    · obtain ⟨s, hs, rfl⟩ := List.mem_map.1 hl
      exact hslash s hs
  have hback : (segments.map String.toList).map String.ofList = segments := by
    rw [List.map_map]
    exact (List.map_congr_left fun s _ => String.ofList_toList).trans (List.map_id segments)
  have hkept : ∀ s ∈ segments, decide (s ≠ "") = true := fun s hs => decide_eq_true (hne s hs)
  rw [hpath, List.splitOn_intercalate '/' hparts (List.cons_ne_nil _ _), List.map_cons, hback,
    List.filter_cons_of_neg (by decide), List.filter_eq_self.2 hkept]

/-- The path of a fault: five segments, of which the last one decodes to the id. -/
theorem faultPath_segments {family name id : String} (hname : validateProxyName name = .ok ()) (hid : id ≠ "")
    (hfamily : family = "proxies" ∨ family = "datagram-proxies") (path : String)
    (hpath : path = "/v1/" ++ family ++ "/" ++ encodePathComponent name ++ "/faults/" ++ encodePathComponent id) :
    pathSegments path = ["v1", family, name, "faults", encodePathComponent id] ∧
      decodedSegments path = some ["v1", family, name, "faults", id] := by
  have hsegments : pathSegments path = ["v1", family, name, "faults", encodePathComponent id] := by
    have hslash : '/' ∉ name.toList := encode_name hname ▸ encode_no_slash name
    apply pathSegments_eq
    · rw [hpath, encode_name hname]
      simp [List.intercalate, List.intersperse]
    · have hplain : '/' ∉ family.toList := by rcases hfamily with rfl | rfl <;> decide
      simp only [List.forall_mem_cons]
      exact ⟨by decide, hplain, hslash, by decide, encode_no_slash id, List.forall_mem_nil _⟩
    · have hplain : family ≠ "" := by rcases hfamily with rfl | rfl <;> decide
      simp only [List.forall_mem_cons]
      exact ⟨by decide, hplain, name_ne_empty hname, by decide, encode_ne_empty hid, List.forall_mem_nil _⟩
  refine ⟨hsegments, ?_⟩
  unfold decodedSegments
  simp only [hsegments]
  rw [if_pos ⟨rfl, rfl, hfamily.imp (congrArg some) (congrArg some), rfl⟩]
  change (decodePathComponent (encodePathComponent id)).map _ = _
  rw [decode_encode]
  rfl

/-- The path built for a fault reaches the route with the proxy's name and the
fault's id. A component stands for some bytes exactly if every percent sign starts
an escape of two hex digits, and decodes to a text exactly if the bytes it stands
for are those of the text. -/
theorem faults_addressable :
    (∀ (name : String) (id : FaultId), validateProxyName name = .ok () →
      (pathSegments (streamFaultPath name id.value)).length = 5 ∧
        decodedSegments (streamFaultPath name id.value) = some ["v1", "proxies", name, "faults", id.value] ∧
        (pathSegments (datagramFaultPath name id.value)).length = 5 ∧
        decodedSegments (datagramFaultPath name id.value) =
          some ["v1", "datagram-proxies", name, "faults", id.value]) ∧
      ∀ s : String, (Escaped (utf8Bytes s) ↔ ∃ bytes, Unescapes (utf8Bytes s) bytes) ∧
        ∀ t, decodePathComponent s = some t ↔ Escaped (utf8Bytes s) ∧ Unescapes (utf8Bytes s) (utf8Bytes t) := by
  constructor
  · intro name id hname
    have hstream := faultPath_segments hname id.nonempty (Or.inl rfl) (streamFaultPath name id.value) rfl
    have hdatagram := faultPath_segments hname id.nonempty (Or.inr rfl) (datagramFaultPath name id.value) rfl
    exact ⟨congrArg List.length hstream.1, hstream.2, congrArg List.length hdatagram.1, hdatagram.2⟩
  · intro s
    constructor
    · constructor
      · intro h
        exact h.unescapes
      · rintro ⟨bytes, h⟩
        exact h.escaped
    · intro t
      rw [decodePathComponent_eq_some_iff]
      constructor
      · intro h
        exact ⟨h.escaped, h⟩
      · intro h
        exact h.2

theorem slashed_nonempty : "a/b%" ≠ "" := by decide
theorem slashed_short : "a/b%".utf8ByteSize ≤ 128 := by decide

def slashedId : FaultId := ⟨"a/b%", slashed_nonempty, slashed_short⟩

/-- An id with a slash and a percent sign at its end. -/
theorem faults_addressable_slashed :
    decodedSegments "/v1/proxies/web/faults/a%2Fb%25" = some ["v1", "proxies", "web", "faults", "a/b%"] := by
  have hpath : streamFaultPath "web" slashedId.value = "/v1/proxies/web/faults/a%2Fb%25" := by decide
  rw [← hpath]
  exact (faults_addressable.1 "web" slashedId (by decide)).2.1

end Eggchaos
