import Eggchaos.Proxy
/-!
# Proxy patches on the wire

`NativeProxyPatchV1` as serde writes and reads it, and the body `proxy set`
builds. An absent option is written as `null` and `null` is read as an absent
option, at the outer of the two options around the limit: a cleared limit is
written like one that is left alone and read as such. The text form of addresses
is a parameter.
-/

namespace Eggchaos
open Lib

/-! ## JSON objects -/

/-- The values the fields of a patch may have in a document. -/
inductive JsonValue where
  | null
  | bool (value : Bool)
  | number (value : Nat)
  | string (value : String)
deriving DecidableEq, Repr

abbrev JsonObject := List (String × JsonValue)

namespace JsonObject

/-- `Map::insert`. -/
def insert (fields : JsonObject) (key : String) (value : JsonValue) : JsonObject :=
  fields.filter (·.1 ≠ key) ++ [(key, value)]

/-- Insert if there is a value. -/
def insertSome (fields : JsonObject) (key : String) (value : Option JsonValue) : JsonObject :=
  value.elim fields (fields.insert key)

/-- The keys are among these, each at most once. -/
structure Keyed (keys : List String) (fields : JsonObject) : Prop where
  known : ∀ entry ∈ fields, entry.1 ∈ keys
  nodup : (fields.map (·.1)).Nodup

instance (keys : List String) (fields : JsonObject) : Decidable (Keyed keys fields) :=
  decidable_of_iff ((∀ entry ∈ fields, entry.1 ∈ keys) ∧ (fields.map (·.1)).Nodup)
    ⟨fun h => ⟨h.1, h.2⟩, fun h => ⟨h.known, h.nodup⟩⟩

end JsonObject

/-- `Option::deserialize`. -/
def readOption {α : Type} (read : JsonValue → Option α) : JsonValue → Option (Option α)
  | .null => some none
  | value => (read value).map some

/-- `Option::serialize`. -/
def writeOption {α : Type} (write : α → JsonValue) : Option α → JsonValue
  | none => .null
  | some value => write value

def readBool : JsonValue → Option Bool
  | .bool value => some value
  | _ => none

/-- A `u64`, or a `usize` of 64 bits. -/
def readU64 : JsonValue → Option UInt64
  | .number value => if value ≤ u64Max then some (UInt64.ofNat value) else none
  | _ => none

/-- `Display` and `FromStr` of socket addresses. -/
structure AddrText where
  write : SocketAddr → String
  read : String → Option SocketAddr

def AddrText.readValue (text : AddrText) : JsonValue → Option SocketAddr
  | .string value => text.read value
  | _ => none

/-- The text of the address, if there is one, reads back as it. -/
def AddrText.ReadsBack (text : AddrText) (addr : Option SocketAddr) : Prop := ∀ a ∈ addr, text.read (text.write a) = some a

instance (text : AddrText) (addr : Option SocketAddr) : Decidable (text.ReadsBack addr) :=
  inferInstanceAs (Decidable (∀ a ∈ addr, text.read (text.write a) = some a))

/-! ## The schema -/

structure NativeProxyPatchV1 where
  listen : Option SocketAddr
  upstream : Option SocketAddr
  enabled : Option Bool
  maxConnections : Option (Option UInt64)
  connectTimeoutMs : Option UInt64
deriving DecidableEq, Repr

namespace NativeProxyPatchV1

def keys : List String := ["listen", "upstream", "enabled", "max_connections", "connect_timeout_ms"]

/-- The derived `Serialize`. -/
def encode (text : AddrText) (patch : NativeProxyPatchV1) : JsonObject :=
  [("listen", writeOption (.string ∘ text.write) patch.listen),
   ("upstream", writeOption (.string ∘ text.write) patch.upstream),
   ("enabled", writeOption .bool patch.enabled),
   ("max_connections", writeOption (writeOption (.number ∘ UInt64.toNat)) patch.maxConnections),
   ("connect_timeout_ms", writeOption (.number ∘ UInt64.toNat) patch.connectTimeoutMs)]

/-- A field of the derived `Deserialize`: one that is missing is an absent
option, by the rule for options as by `#[serde(default)]`. -/
def field {α : Type} (fields : JsonObject) (key : String) (read : JsonValue → Option α) : Option (Option α) :=
  match fields.lookup key with
  | some value => readOption read value
  | none => some none

/-- The derived `Deserialize`, with `deny_unknown_fields`. -/
def decode (text : AddrText) (fields : JsonObject) : Option NativeProxyPatchV1 :=
  if JsonObject.Keyed keys fields then do
    let listen ← field fields "listen" text.readValue
    let upstream ← field fields "upstream" text.readValue
    let enabled ← field fields "enabled" readBool
    let maxConnections ← field fields "max_connections" (readOption readU64)
    let connectTimeoutMs ← field fields "connect_timeout_ms" readU64
    return { listen, upstream, enabled, maxConnections, connectTimeoutMs }
  else none

/-- `ProxyPatch::from`. -/
def toPatch (patch : NativeProxyPatchV1) : ProxyPatch where
  listen := patch.listen
  upstream := patch.upstream
  enabled := patch.enabled
  maxConnections := patch.maxConnections.map (Option.map UInt64.toNat)
  connectTimeoutMs := patch.connectTimeoutMs.map UInt64.toNat

end NativeProxyPatchV1

/-! ## `proxy set` -/

/-- The options of `proxy set`. The argument parser refuses a limit together with
`--clear-max-connections`, and `--enable` with `--disable`. -/
structure ProxySetOptions where
  listen : Option SocketAddr
  upstream : Option SocketAddr
  maxConnections : Option UInt64
  clearMaxConnections : Bool
  connectTimeoutMs : Option UInt64
  enable : Bool
  disable : Bool
deriving DecidableEq, Repr

namespace ProxySetOptions

/-- The body of the request. -/
def body (text : AddrText) (o : ProxySetOptions) : Except String JsonObject :=
  if !o.enable && !o.disable && o.listen.isNone && o.upstream.isNone && o.maxConnections.isNone &&
      !o.clearMaxConnections && o.connectTimeoutMs.isNone then
    .error "proxy set requires at least one field to change"
  else
    let patch : JsonObject := []
    let patch := patch.insertSome "listen" (o.listen.map (.string ∘ text.write))
    let patch := patch.insertSome "upstream" (o.upstream.map (.string ∘ text.write))
    let patch := if o.enable then patch.insert "enabled" (.bool true) else patch
    let patch := if o.disable then patch.insert "enabled" (.bool false) else patch
    let patch := patch.insertSome "max_connections" (o.maxConnections.map (.number ∘ UInt64.toNat))
    let patch := if o.clearMaxConnections then patch.insert "max_connections" .null else patch
    let patch := patch.insertSome "connect_timeout_ms" (o.connectTimeoutMs.map (.number ∘ UInt64.toNat))
    .ok patch

/-- What the options ask for. -/
def requested (o : ProxySetOptions) : NativeProxyPatchV1 where
  listen := o.listen
  upstream := o.upstream
  enabled := if o.disable then some false else if o.enable then some true else none
  maxConnections := if o.clearMaxConnections then some none else o.maxConnections.map some
  connectTimeoutMs := o.connectTimeoutMs

/-- The definition with the fields the options ask for, and no others, changed. -/
def applied (o : ProxySetOptions) (spec : ProxySpec) : ProxySpec :=
  { spec with
    listen := o.listen.getD spec.listen
    upstream := o.upstream.getD spec.upstream
    maxConnections :=
      if o.clearMaxConnections then none
      else (o.maxConnections.map UInt64.toNat).or spec.maxConnections
    connectTimeout := (o.connectTimeoutMs.map fun ms => ms.toNat * 1000000).getD spec.connectTimeout }

end ProxySetOptions

/-! ## Objects -/

namespace JsonObject

variable (fields : JsonObject) (key : String)

theorem lookup_insert (value : JsonValue) (key' : String) :
    (fields.insert key value).lookup key' = if key' = key then some value else fields.lookup key' := by
  unfold insert
  induction fields with
  | nil =>
    rw [List.filter_nil, List.nil_append, List.lookup_cons]
    by_cases h : key' = key
    · rw [if_pos h, beq_iff_eq.2 h]
    · rw [if_neg h, beq_eq_false_iff_ne.2 h]
  | cons entry fields ih =>
    obtain ⟨k, v⟩ := entry
    rw [List.lookup_cons]
    by_cases hk : k = key
    · rw [List.filter_cons_of_neg (by simpa using hk), ih]
      by_cases h : key' = key
      · rw [if_pos h, if_pos h]
      · rw [if_neg h, if_neg h, beq_eq_false_iff_ne.2 (hk ▸ h)]
    · rw [List.filter_cons_of_pos (by simpa using hk), List.cons_append, List.lookup_cons, ih]
      by_cases h : key' = k
      · have hne : key' ≠ key := fun heq => hk (h.symm.trans heq)
        simp only [beq_iff_eq.2 h, if_neg hne]
      · rw [beq_eq_false_iff_ne.2 h]

theorem lookup_insertSome (value : Option JsonValue) (key' : String) :
    (fields.insertSome key value).lookup key' = if key' = key then value.or (fields.lookup key) else fields.lookup key' := by
  cases value with
  | none =>
    unfold insertSome
    split
    · next h => rw [h]; rfl
    · rfl
  | some value =>
    unfold insertSome
    rw [Option.elim_some, lookup_insert]
    rfl

theorem lookup_insertIf (p : Bool) (value : JsonValue) (key' : String) :
    (if p then fields.insert key value else fields).lookup key' =
      if key' = key then (if p then some value else fields.lookup key) else fields.lookup key' := by
  cases p with
  | true =>
    rw [if_pos rfl, lookup_insert]
    rfl
  | false =>
    by_cases h : key' = key
    · rw [if_pos h, h]
      rfl
    · rw [if_neg h]
      rfl

variable {fields key} {keys : List String}

theorem Keyed.nil : Keyed keys [] := ⟨by simp, List.nodup_nil⟩

theorem Keyed.insert (h : Keyed keys fields) (hkey : key ∈ keys) (value : JsonValue) :
    Keyed keys (fields.insert key value) := by
  unfold JsonObject.insert
  constructor
  · intro entry hentry
    rcases List.mem_append.1 hentry with hold | hnew
    · exact h.known entry (List.mem_of_mem_filter hold)
    · rw [List.mem_singleton.1 hnew]
      exact hkey
  · rw [List.map_append, List.nodup_append]
    refine ⟨h.nodup.sublist ((List.filter_sublist).map _), by simp, ?_⟩
    intro a ha b hb
    obtain ⟨entry, hentry, rfl⟩ := List.mem_map.1 ha
    have hne := (List.mem_filter.1 hentry).2
    simp only [List.map_cons, List.map_nil, List.mem_singleton] at hb
    rw [hb]
    simpa using hne

theorem Keyed.insertSome (h : Keyed keys fields) (hkey : key ∈ keys) (value : Option JsonValue) :
    Keyed keys (fields.insertSome key value) := by
  cases value with
  | none => exact h
  | some value => exact h.insert hkey value

theorem Keyed.insertIf (h : Keyed keys fields) (hkey : key ∈ keys) (p : Bool) (value : JsonValue) :
    Keyed keys (if p then fields.insert key value else fields) := by
  cases p with
  | false => exact h
  | true => exact h.insert hkey value

end JsonObject

/-! ## Fields -/

theorem readU64_number (value : UInt64) : readU64 (.number value.toNat) = some value := by
  have hle : value.toNat ≤ u64Max := by
    have := value.toNat_lt
    unfold u64Max
    omega
  simp only [readU64, if_pos hle, UInt64.ofNat_toNat]

namespace NativeProxyPatchV1

theorem decode_eq_some_iff {text : AddrText} {fields : JsonObject} (h : JsonObject.Keyed keys fields)
    (patch : NativeProxyPatchV1) :
    decode text fields = some patch ↔
      field fields "listen" text.readValue = some patch.listen ∧
      field fields "upstream" text.readValue = some patch.upstream ∧
      field fields "enabled" readBool = some patch.enabled ∧
      field fields "max_connections" (readOption readU64) = some patch.maxConnections ∧
      field fields "connect_timeout_ms" readU64 = some patch.connectTimeoutMs := by
  unfold decode
  rw [if_pos h]
  simp only [Option.bind_eq_bind, Option.bind_eq_some_iff, Option.pure_def, Option.some.injEq]
  constructor
  · rintro ⟨a, ha, b, hb, c, hc, d, hd, e, he, rfl⟩
    exact ⟨ha, hb, hc, hd, he⟩
  · rintro ⟨ha, hb, hc, hd, he⟩
    exact ⟨_, ha, _, hb, _, hc, _, hd, _, he, rfl⟩

/-- A key that holds a value if there is one, or is missing. -/
theorem field_of_lookup {α : Type} {fields : JsonObject} {key : String} {value : Option α} {write : α → JsonValue}
    (h : fields.lookup key = value.map write) (read : JsonValue → Option α) :
    field fields key read = readOption read (writeOption write value) := by
  unfold field
  rw [h]
  cases value <;> rfl

/-- An address as the schema reads and writes it. -/
theorem readOption_addr (text : AddrText) (addr : Option SocketAddr) :
    readOption text.readValue (writeOption (.string ∘ text.write) addr) = some addr ↔ text.ReadsBack addr := by
  cases addr with
  | none => simp [readOption, writeOption, AddrText.ReadsBack]
  | some a => simp [readOption, writeOption, AddrText.ReadsBack, AddrText.readValue]

/-- Every limit comes back but the cleared one. -/
theorem readOption_limit (limit : Option (Option UInt64)) :
    readOption (readOption readU64) (writeOption (writeOption (.number ∘ UInt64.toNat)) limit) = some limit ↔
      limit ≠ some none := by
  cases limit with
  | none => simp [readOption, writeOption]
  | some limit =>
    cases limit with
    | none => simp [readOption, writeOption]
    | some n => simp [readOption, writeOption, readU64_number]

theorem readOption_u64 (value : Option UInt64) :
    readOption readU64 (writeOption (.number ∘ UInt64.toNat) value) = some value := by
  cases value with
  | none => rfl
  | some n => simp [readOption, writeOption, readU64_number]

theorem readOption_bool (value : Option Bool) : readOption readBool (writeOption .bool value) = some value := by
  cases value <;> rfl

theorem encode_keyed (text : AddrText) (patch : NativeProxyPatchV1) : JsonObject.Keyed keys (encode text patch) := by
  constructor
  · simp [encode, keys]
  · simp [encode]

/-- Through the schema and back. -/
theorem decode_encode_iff (text : AddrText) (patch : NativeProxyPatchV1) :
    decode text (encode text patch) = some patch ↔
      text.ReadsBack patch.listen ∧ text.ReadsBack patch.upstream ∧ patch.maxConnections ≠ some none := by
  rw [decode_eq_some_iff (encode_keyed text patch)]
  simp only [field, encode, List.lookup_cons, String.reduceBEq, readOption_addr, readOption_bool, readOption_limit,
    readOption_u64, true_and, and_true]

end NativeProxyPatchV1

/-! ## The body of `proxy set` -/

namespace ProxySetOptions

variable {text : AddrText} {o : ProxySetOptions} {fields : JsonObject}

theorem body_keyed (h : o.body text = .ok fields) : JsonObject.Keyed NativeProxyPatchV1.keys fields := by
  unfold body at h
  split at h
  · cases h
  · rw [← Except.ok.inj h]
    exact ((((((JsonObject.Keyed.nil.insertSome (by decide) _).insertSome (by decide) _).insertIf (by decide) _ _).insertIf
      (by decide) _ _).insertSome (by decide) _).insertIf (by decide) _ _).insertSome (by decide) _

/-- What the body holds under each key. -/
theorem body_lookup (h : o.body text = .ok fields) :
    fields.lookup "listen" = o.listen.map (.string ∘ text.write) ∧
      fields.lookup "upstream" = o.upstream.map (.string ∘ text.write) ∧
      fields.lookup "enabled" = o.requested.enabled.map .bool ∧
      fields.lookup "max_connections" =
        (if o.clearMaxConnections then some .null else o.maxConnections.map (.number ∘ UInt64.toNat)) ∧
      fields.lookup "connect_timeout_ms" = o.connectTimeoutMs.map (.number ∘ UInt64.toNat) := by
  unfold body at h
  split at h
  · cases h
  · rw [← Except.ok.inj h]
    simp only [JsonObject.lookup_insertSome, JsonObject.lookup_insertIf, String.reduceEq, if_false, if_true,
      List.lookup_nil, Option.or_none, requested]
    cases o.disable <;> cases o.enable <;> simp

open NativeProxyPatchV1

/-- The limit is what was asked for unless it was to be cleared. -/
theorem body_limit_iff (h : o.body text = .ok fields) :
    field fields "max_connections" (readOption readU64) = some o.requested.maxConnections ↔
      o.clearMaxConnections = false := by
  obtain ⟨-, -, -, hlimit, -⟩ := body_lookup h
  unfold requested
  cases hclear : o.clearMaxConnections with
  | true =>
    rw [hclear, if_pos rfl] at hlimit
    simp [field, hlimit, readOption]
  | false =>
    rw [hclear, if_neg (by decide)] at hlimit
    have hlookup : fields.lookup "max_connections" =
        (o.maxConnections.map some).map (writeOption (.number ∘ UInt64.toNat)) := by
      rw [hlimit, Option.map_map]
      rfl
    simp only [Bool.false_eq_true, if_false, field_of_lookup hlookup, readOption_limit, iff_true]
    cases o.maxConnections <;> simp

theorem decode_body_iff (h : o.body text = .ok fields) :
    decode text fields = some o.requested ↔
      text.ReadsBack o.listen ∧ text.ReadsBack o.upstream ∧ o.clearMaxConnections = false := by
  obtain ⟨hlisten, hupstream, henabled, -, htimeout⟩ := body_lookup h
  rw [decode_eq_some_iff (body_keyed h), body_limit_iff h, field_of_lookup hlisten, field_of_lookup hupstream,
    field_of_lookup henabled, field_of_lookup htimeout]
  have haddr (addr : Option SocketAddr) := readOption_addr text addr
  simp only [requested, readOption_bool, readOption_u64, true_and, and_true, haddr]

/-- The patch asked for changes the fields asked for. -/
theorem apply_requested (h : o.clearMaxConnections = false) (spec : ProxySpec) :
    o.requested.toPatch.apply spec = o.applied spec := by
  unfold ProxyPatch.apply toPatch requested applied
  simp only [h, Bool.false_eq_true, if_false, Option.map_map]
  cases o.maxConnections <;> cases o.connectTimeoutMs <;> rfl

end ProxySetOptions

/-! ## Patches survive -/

def limitedSpec (limit : Option Nat) : ProxySpec where
  name := "web"
  listen := ⟨.v4 127 0 0 1, 8080⟩
  upstream := ⟨.v4 127 0 0 1, 9090⟩
  upstreamFaults := .empty
  downstreamFaults := .empty
  upstreamPolicy := .new .empty 0 FaultPlan.validate_empty
  downstreamPolicy := .new .empty 0 FaultPlan.validate_empty
  enabled := true
  maxConnections := limit
  connectTimeout := 5000000000
  seed := 0

/-- An address that is set as it was asked for has come back. -/
theorem readsBack_of_getD {text : AddrText} {asked got : Option SocketAddr} {old : SocketAddr}
    (hread : readOption text.readValue (writeOption (.string ∘ text.write) asked) = some got)
    (hset : got.getD old = asked.getD old) : text.ReadsBack asked := by
  intro a ha
  rw [Option.mem_def.1 ha] at hread hset
  obtain ⟨b, hb, hgot⟩ := Option.map_eq_some_iff.1 hread
  rw [← hgot] at hset
  have hsame : b = a := hset
  exact hsame ▸ hb

/-- A patch that decodes and changes what the options ask for is the one they ask
for. -/
theorem decode_of_applied {text : AddrText} {o : ProxySetOptions} {fields : JsonObject} {patch : NativeProxyPatchV1}
    (h : o.body text = .ok fields) (hdecode : NativeProxyPatchV1.decode text fields = some patch)
    (happly : ∀ spec, patch.toPatch.apply spec = o.applied spec) :
    text.ReadsBack o.listen ∧ text.ReadsBack o.upstream ∧ o.clearMaxConnections = false := by
  obtain ⟨hlisten, hupstream, -, hlimit, -⟩ := ProxySetOptions.body_lookup h
  obtain ⟨hfirst, hsecond, -, hthird, -⟩ :=
    (NativeProxyPatchV1.decode_eq_some_iff (ProxySetOptions.body_keyed h) patch).1 hdecode
  have hspec := happly (limitedSpec (some 1))
  rw [NativeProxyPatchV1.field_of_lookup hlisten] at hfirst
  rw [NativeProxyPatchV1.field_of_lookup hupstream] at hsecond
  refine ⟨readsBack_of_getD hfirst (congrArg ProxySpec.listen hspec),
    readsBack_of_getD hsecond (congrArg ProxySpec.upstream hspec), ?_⟩
  cases hclear : o.clearMaxConnections with
  | false => rfl
  | true =>
    -- The clear is read as no change, which leaves a limit of one in place.
    rw [hclear, if_pos rfl] at hlimit
    simp only [NativeProxyPatchV1.field, hlimit, readOption, Option.some.injEq] at hthird
    have hkept := congrArg ProxySpec.maxConnections hspec
    simp [ProxyPatch.apply, NativeProxyPatchV1.toPatch, ← hthird, ProxySetOptions.applied, hclear, limitedSpec] at hkept

/-- A patch comes back from its encoding exactly if it does not clear the limit
and its addresses come back from their text; and the body of `proxy set` decodes
to the patch that was asked for, which is to one that changes the fields that
were asked for and no others, exactly if the limit is not to be cleared (and the
addresses come back). -/
theorem patch_survives_iff (text : AddrText) :
    (∀ patch, NativeProxyPatchV1.decode text (patch.encode text) = some patch ↔
      text.ReadsBack patch.listen ∧ text.ReadsBack patch.upstream ∧ patch.maxConnections ≠ some none) ∧
    ∀ (o : ProxySetOptions) (fields : JsonObject), o.body text = .ok fields →
      (NativeProxyPatchV1.decode text fields = some o.requested ↔
        text.ReadsBack o.listen ∧ text.ReadsBack o.upstream ∧ o.clearMaxConnections = false) ∧
      ((∃ patch, NativeProxyPatchV1.decode text fields = some patch ∧ patch.enabled = o.requested.enabled ∧
          ∀ spec, patch.toPatch.apply spec = o.applied spec) ↔
        text.ReadsBack o.listen ∧ text.ReadsBack o.upstream ∧ o.clearMaxConnections = false) := by
  refine ⟨NativeProxyPatchV1.decode_encode_iff text, ?_⟩
  intro o fields h
  refine ⟨ProxySetOptions.decode_body_iff h, ?_⟩
  constructor
  · rintro ⟨patch, hdecode, -, happly⟩
    exact decode_of_applied h hdecode happly
  · intro hsurvives
    exact ⟨o.requested, (ProxySetOptions.decode_body_iff h).2 hsurvives, rfl,
      ProxySetOptions.apply_requested hsurvives.2.2⟩

def noChange : NativeProxyPatchV1 := ⟨none, none, none, none, none⟩

def noOptions : ProxySetOptions := ⟨none, none, none, false, none, false, false⟩

/-- Two loopback addresses and their texts. -/
def loopbackText : AddrText where
  write addr := if addr.port = 8081 then "127.0.0.1:8081" else "127.0.0.1:8080"
  read text :=
    if text = "127.0.0.1:8081" then some ⟨.v4 127 0 0 1, 8081⟩
    else if text = "127.0.0.1:8080" then some ⟨.v4 127 0 0 1, 8080⟩
    else none

/-- A limit that is set, beside a listener that moves. -/
theorem patch_survives_iff_set :
    NativeProxyPatchV1.decode loopbackText
        [("listen", .string "127.0.0.1:8081"), ("max_connections", .number 5)] =
      some { noChange with listen := some ⟨.v4 127 0 0 1, 8081⟩, maxConnections := some (some 5) } :=
  ((patch_survives_iff loopbackText).2
    { noOptions with listen := some ⟨.v4 127 0 0 1, 8081⟩, maxConnections := some 5 } _ (by decide)).1.2
      (by decide)

/-- Clearing the limit: the schema reads its own encoding as no change, and so it
does the body of `proxy set --clear-max-connections`. -/
theorem cleared_limit_lost :
    ¬ ((∀ (text : AddrText) (patch : NativeProxyPatchV1), text.ReadsBack patch.listen → text.ReadsBack patch.upstream →
        NativeProxyPatchV1.decode text (patch.encode text) = some patch) ∧
      ∀ (text : AddrText) (o : ProxySetOptions) (fields : JsonObject), text.ReadsBack o.listen →
        text.ReadsBack o.upstream → o.body text = .ok fields →
          NativeProxyPatchV1.decode text fields = some o.requested) := by
  rintro ⟨-, h⟩
  have hbody := h loopbackText { noOptions with clearMaxConnections := true } [("max_connections", .null)]
    (by simp [AddrText.ReadsBack, noOptions]) (by simp [AddrText.ReadsBack, noOptions]) (by decide)
  exact absurd hbody (by decide)

end Eggchaos
