import Eggchaos.PathComponents
/-!
# Native routes

`NATIVE_OPERATIONS`, the table of all operations, and the dispatch of `route` on a
method and the segments of a path. Every request is dispatched to the one operation
of the table whose template it fits, and to none if it fits none
(`dispatch_listed`).
-/

namespace Eggchaos

structure NativeOperation where
  method : String
  path : String
  operationId : String
deriving DecidableEq, Repr

/-- `NATIVE_OPERATIONS`, without the summaries. -/
def nativeOperations : List NativeOperation := [
  ⟨"GET", "/v1/health", "getHealth"⟩,
  ⟨"GET", "/v1/version", "getVersion"⟩,
  ⟨"GET", "/metrics", "getMetrics"⟩,
  ⟨"POST", "/v1/reset", "resetService"⟩,
  ⟨"GET", "/v1/proxies", "listProxies"⟩,
  ⟨"POST", "/v1/proxies", "createProxy"⟩,
  ⟨"GET", "/v1/proxies/\x7bname\x7d", "getProxy"⟩,
  ⟨"PATCH", "/v1/proxies/\x7bname\x7d", "patchProxy"⟩,
  ⟨"DELETE", "/v1/proxies/\x7bname\x7d", "deleteProxy"⟩,
  ⟨"GET", "/v1/proxies/\x7bname\x7d/faults", "listFaults"⟩,
  ⟨"POST", "/v1/proxies/\x7bname\x7d/faults", "addFault"⟩,
  ⟨"GET", "/v1/proxies/\x7bname\x7d/faults/\x7bid\x7d", "getFault"⟩,
  ⟨"PATCH", "/v1/proxies/\x7bname\x7d/faults/\x7bid\x7d", "patchFault"⟩,
  ⟨"DELETE", "/v1/proxies/\x7bname\x7d/faults/\x7bid\x7d", "deleteFault"⟩,
  ⟨"GET", "/v1/connections", "listConnections"⟩,
  ⟨"GET", "/v1/connections/\x7bid\x7d", "getConnection"⟩,
  ⟨"DELETE", "/v1/connections/\x7bid\x7d", "killConnection"⟩,
  ⟨"GET", "/v1/history", "getHistory"⟩,
  ⟨"POST", "/v1/scenarios/apply", "applyScenario"⟩,
  ⟨"POST", "/v1/scenarios/validate", "validateSchedule"⟩,
  ⟨"POST", "/v1/scenarios/compile", "compileSchedule"⟩,
  ⟨"GET", "/v1/scenarios/\x7bid\x7d", "getScenario"⟩,
  ⟨"DELETE", "/v1/scenarios/\x7bid\x7d", "cancelScenario"⟩,
  ⟨"GET", "/v1/datagram-proxies", "listDatagramProxies"⟩,
  ⟨"POST", "/v1/datagram-proxies", "createDatagramProxy"⟩,
  ⟨"GET", "/v1/datagram-proxies/\x7bname\x7d", "getDatagramProxy"⟩,
  ⟨"PATCH", "/v1/datagram-proxies/\x7bname\x7d", "patchDatagramProxy"⟩,
  ⟨"DELETE", "/v1/datagram-proxies/\x7bname\x7d", "deleteDatagramProxy"⟩,
  ⟨"GET", "/v1/datagram-proxies/\x7bname\x7d/faults", "listDatagramFaults"⟩,
  ⟨"POST", "/v1/datagram-proxies/\x7bname\x7d/faults", "addDatagramFault"⟩,
  ⟨"GET", "/v1/datagram-proxies/\x7bname\x7d/faults/\x7bid\x7d", "getDatagramFault"⟩,
  ⟨"PATCH", "/v1/datagram-proxies/\x7bname\x7d/faults/\x7bid\x7d", "patchDatagramFault"⟩,
  ⟨"DELETE", "/v1/datagram-proxies/\x7bname\x7d/faults/\x7bid\x7d", "deleteDatagramFault"⟩,
  ⟨"GET", "/v1/datagram-associations", "listDatagramAssociations"⟩,
  ⟨"GET", "/v1/datagram-associations/\x7bid\x7d", "getDatagramAssociation"⟩,
  ⟨"DELETE", "/v1/datagram-associations/\x7bid\x7d", "killDatagramAssociation"⟩]

/-! ## Dispatch -/

/-- The arms of `route`, each with the segments it binds. -/
inductive NativeRoute where
  | health
  | version
  | metrics
  | reset
  | datagramProxies
  | createDatagramProxy
  | getDatagramProxy (name : String)
  | patchDatagramProxy (name : String)
  | deleteDatagramProxy (name : String)
  | datagramFaults (name : String)
  | addDatagramFault (name : String)
  | getDatagramFault (name id : String)
  | patchDatagramFault (name id : String)
  | deleteDatagramFault (name id : String)
  | datagramAssociations
  | getDatagramAssociation (id : String)
  | killDatagramAssociation (id : String)
  | proxies
  | createProxy
  | getProxy (name : String)
  | patchProxy (name : String)
  | deleteProxy (name : String)
  | faults (name : String)
  | addFault (name : String)
  | getFault (name id : String)
  | patchFault (name id : String)
  | deleteFault (name id : String)
  | connections
  | getConnection (id : String)
  | killConnection (id : String)
  | history
  | applyScenario
  | validateSchedule
  | compileSchedule
  | getScenario (id : String)
  | cancelScenario (id : String)
deriving DecidableEq, Repr

/-- The `match` of `route`; nothing is `RouteOutcome::NotFound`. -/
def dispatch (method : String) (segments : List String) : Option NativeRoute :=
  match method, segments with
  | "GET", ["v1", "health"] => some .health
  | "GET", ["v1", "version"] => some .version
  | "GET", ["metrics"] => some .metrics
  | "POST", ["v1", "reset"] => some .reset
  | "GET", ["v1", "datagram-proxies"] => some .datagramProxies
  | "POST", ["v1", "datagram-proxies"] => some .createDatagramProxy
  | "GET", ["v1", "datagram-proxies", name] => some (.getDatagramProxy name)
  | "PATCH", ["v1", "datagram-proxies", name] => some (.patchDatagramProxy name)
  | "DELETE", ["v1", "datagram-proxies", name] => some (.deleteDatagramProxy name)
  | "GET", ["v1", "datagram-proxies", name, "faults"] => some (.datagramFaults name)
  | "POST", ["v1", "datagram-proxies", name, "faults"] => some (.addDatagramFault name)
  | "GET", ["v1", "datagram-proxies", name, "faults", id] => some (.getDatagramFault name id)
  | "PATCH", ["v1", "datagram-proxies", name, "faults", id] => some (.patchDatagramFault name id)
  | "DELETE", ["v1", "datagram-proxies", name, "faults", id] => some (.deleteDatagramFault name id)
  | "GET", ["v1", "datagram-associations"] => some .datagramAssociations
  | "GET", ["v1", "datagram-associations", id] => some (.getDatagramAssociation id)
  | "DELETE", ["v1", "datagram-associations", id] => some (.killDatagramAssociation id)
  | "GET", ["v1", "proxies"] => some .proxies
  | "POST", ["v1", "proxies"] => some .createProxy
  | "GET", ["v1", "proxies", name] => some (.getProxy name)
  | "PATCH", ["v1", "proxies", name] => some (.patchProxy name)
  | "DELETE", ["v1", "proxies", name] => some (.deleteProxy name)
  | "GET", ["v1", "proxies", name, "faults"] => some (.faults name)
  | "POST", ["v1", "proxies", name, "faults"] => some (.addFault name)
  | "GET", ["v1", "proxies", name, "faults", id] => some (.getFault name id)
  | "PATCH", ["v1", "proxies", name, "faults", id] => some (.patchFault name id)
  | "DELETE", ["v1", "proxies", name, "faults", id] => some (.deleteFault name id)
  | "GET", ["v1", "connections"] => some .connections
  | "GET", ["v1", "connections", id] => some (.getConnection id)
  | "DELETE", ["v1", "connections", id] => some (.killConnection id)
  | "GET", ["v1", "history"] => some .history
  | "POST", ["v1", "scenarios", "apply"] => some .applyScenario
  | "POST", ["v1", "scenarios", "validate"] => some .validateSchedule
  | "POST", ["v1", "scenarios", "compile"] => some .compileSchedule
  | "GET", ["v1", "scenarios", id] => some (.getScenario id)
  | "DELETE", ["v1", "scenarios", id] => some (.cancelScenario id)
  | _, _ => none

/-- The operation of an arm. -/
def NativeRoute.operationId : NativeRoute → String
  | .health => "getHealth"
  | .version => "getVersion"
  | .metrics => "getMetrics"
  | .reset => "resetService"
  | .datagramProxies => "listDatagramProxies"
  | .createDatagramProxy => "createDatagramProxy"
  | .getDatagramProxy _ => "getDatagramProxy"
  | .patchDatagramProxy _ => "patchDatagramProxy"
  | .deleteDatagramProxy _ => "deleteDatagramProxy"
  | .datagramFaults _ => "listDatagramFaults"
  | .addDatagramFault _ => "addDatagramFault"
  | .getDatagramFault _ _ => "getDatagramFault"
  | .patchDatagramFault _ _ => "patchDatagramFault"
  | .deleteDatagramFault _ _ => "deleteDatagramFault"
  | .datagramAssociations => "listDatagramAssociations"
  | .getDatagramAssociation _ => "getDatagramAssociation"
  | .killDatagramAssociation _ => "killDatagramAssociation"
  | .proxies => "listProxies"
  | .createProxy => "createProxy"
  | .getProxy _ => "getProxy"
  | .patchProxy _ => "patchProxy"
  | .deleteProxy _ => "deleteProxy"
  | .faults _ => "listFaults"
  | .addFault _ => "addFault"
  | .getFault _ _ => "getFault"
  | .patchFault _ _ => "patchFault"
  | .deleteFault _ _ => "deleteFault"
  | .connections => "listConnections"
  | .getConnection _ => "getConnection"
  | .killConnection _ => "killConnection"
  | .history => "getHistory"
  | .applyScenario => "applyScenario"
  | .validateSchedule => "validateSchedule"
  | .compileSchedule => "compileSchedule"
  | .getScenario _ => "getScenario"
  | .cancelScenario _ => "cancelScenario"

/-! ## Templates -/

def NativeOperation.template (op : NativeOperation) : List String := pathSegments op.path

/-- A segment in braces stands for any other. -/
def isPlaceholder (segment : String) : Bool := segment.toList.head? = some '\x7b'

/-- The segments are the template's, its placeholders replaced. -/
def fits : List String → List String → Bool
  | [], [] => true
  | t :: ts, s :: ss => (isPlaceholder t || t = s) && fits ts ss
  | _, _ => false

/-- The table with its templates taken apart. -/
def routeTable : List (String × List (Option String) × String) := [
  ("GET", [some "v1", some "health"], "getHealth"),
  ("GET", [some "v1", some "version"], "getVersion"),
  ("GET", [some "metrics"], "getMetrics"),
  ("POST", [some "v1", some "reset"], "resetService"),
  ("GET", [some "v1", some "proxies"], "listProxies"),
  ("POST", [some "v1", some "proxies"], "createProxy"),
  ("GET", [some "v1", some "proxies", none], "getProxy"),
  ("PATCH", [some "v1", some "proxies", none], "patchProxy"),
  ("DELETE", [some "v1", some "proxies", none], "deleteProxy"),
  ("GET", [some "v1", some "proxies", none, some "faults"], "listFaults"),
  ("POST", [some "v1", some "proxies", none, some "faults"], "addFault"),
  ("GET", [some "v1", some "proxies", none, some "faults", none], "getFault"),
  ("PATCH", [some "v1", some "proxies", none, some "faults", none], "patchFault"),
  ("DELETE", [some "v1", some "proxies", none, some "faults", none], "deleteFault"),
  ("GET", [some "v1", some "connections"], "listConnections"),
  ("GET", [some "v1", some "connections", none], "getConnection"),
  ("DELETE", [some "v1", some "connections", none], "killConnection"),
  ("GET", [some "v1", some "history"], "getHistory"),
  ("POST", [some "v1", some "scenarios", some "apply"], "applyScenario"),
  ("POST", [some "v1", some "scenarios", some "validate"], "validateSchedule"),
  ("POST", [some "v1", some "scenarios", some "compile"], "compileSchedule"),
  ("GET", [some "v1", some "scenarios", none], "getScenario"),
  ("DELETE", [some "v1", some "scenarios", none], "cancelScenario"),
  ("GET", [some "v1", some "datagram-proxies"], "listDatagramProxies"),
  ("POST", [some "v1", some "datagram-proxies"], "createDatagramProxy"),
  ("GET", [some "v1", some "datagram-proxies", none], "getDatagramProxy"),
  ("PATCH", [some "v1", some "datagram-proxies", none], "patchDatagramProxy"),
  ("DELETE", [some "v1", some "datagram-proxies", none], "deleteDatagramProxy"),
  ("GET", [some "v1", some "datagram-proxies", none, some "faults"], "listDatagramFaults"),
  ("POST", [some "v1", some "datagram-proxies", none, some "faults"], "addDatagramFault"),
  ("GET", [some "v1", some "datagram-proxies", none, some "faults", none], "getDatagramFault"),
  ("PATCH", [some "v1", some "datagram-proxies", none, some "faults", none], "patchDatagramFault"),
  ("DELETE", [some "v1", some "datagram-proxies", none, some "faults", none], "deleteDatagramFault"),
  ("GET", [some "v1", some "datagram-associations"], "listDatagramAssociations"),
  ("GET", [some "v1", some "datagram-associations", none], "getDatagramAssociation"),
  ("DELETE", [some "v1", some "datagram-associations", none], "killDatagramAssociation")]

/-- A template with its placeholders taken out. -/
def pattern (template : List String) : List (Option String) :=
  template.map fun t => if isPlaceholder t then none else some t

def fitsPattern : List (Option String) → List String → Bool
  | [], [] => true
  | none :: ts, _ :: ss => fitsPattern ts ss
  | some t :: ts, s :: ss => t = s && fitsPattern ts ss
  | _, _ => false

theorem nativeOperations_table :
    (nativeOperations.map fun op => (op.method, pattern op.template, op.operationId)) = routeTable := by
  decide

theorem fits_eq (template segments : List String) : fits template segments = fitsPattern (pattern template) segments := by
  induction template generalizing segments with
  | nil => cases segments <;> rfl
  | cons t ts ih =>
    cases segments with
    | nil => cases h : isPlaceholder t <;> simp [fits, pattern, fitsPattern, h]
    | cons s ss =>
      cases h : isPlaceholder t with
      | true => simpa [fits, pattern, fitsPattern, h] using ih ss
      | false => simp [fits, pattern, fitsPattern, h, ih ss]

theorem fitsPattern_nil (segments : List String) : fitsPattern [] segments = true ↔ segments = [] := by
  cases segments <;> simp [fitsPattern]

theorem fitsPattern_some (t : String) (ts : List (Option String)) (segments : List String) :
    fitsPattern (some t :: ts) segments = true ↔ ∃ ss, segments = t :: ss ∧ fitsPattern ts ss = true := by
  cases segments with
  | nil => simp [fitsPattern]
  | cons s ss =>
    simp only [fitsPattern, Bool.and_eq_true, decide_eq_true_eq, List.cons.injEq]
    constructor
    · rintro ⟨rfl, h⟩
      exact ⟨ss, ⟨rfl, rfl⟩, h⟩
    · rintro ⟨_, ⟨rfl, rfl⟩, h⟩
      exact ⟨rfl, h⟩

theorem fitsPattern_none (ts : List (Option String)) (segments : List String) :
    fitsPattern (none :: ts) segments = true ↔ ∃ s ss, segments = s :: ss ∧ fitsPattern ts ss = true := by
  cases segments with
  | nil => simp [fitsPattern]
  | cons s ss =>
    simp only [fitsPattern, List.cons.injEq]
    constructor
    · intro h
      exact ⟨s, ss, ⟨rfl, rfl⟩, h⟩
    · rintro ⟨_, _, ⟨rfl, rfl⟩, h⟩
      exact h

/-- A request that fits a template has an arm. -/
theorem dispatch_of_fits : ∀ row ∈ routeTable, ∀ segments, fitsPattern row.2.1 segments = true →
    (dispatch row.1 segments).isSome = true := by
  simp only [routeTable, List.forall_mem_cons, fitsPattern_some, fitsPattern_none, fitsPattern_nil, exists_eq_right,
    forall_exists_index, and_imp, forall_eq]
  and_intros
  all_goals
    intros
    subst_vars
    first
      | rfl
      | contradiction

/-- An arm's operation is in the table, alone. -/
theorem table_of_dispatch {method : String} {segments : List String} {r : NativeRoute}
    (h : dispatch method segments = some r) :
    (routeTable.filter fun row => row.1 = method && fitsPattern row.2.1 segments).map (·.2.2) = [r.operationId] := by
  unfold dispatch at h
  split at h
  case h_37 => cases h
  all_goals
    obtain rfl := Option.some.inj h
    rfl

/-- A request is dispatched to the operation whose method and template it fits, and
no other fits it; it is refused if none does. -/
theorem dispatch_listed (method : String) (segments : List String) :
    (nativeOperations.filter fun op => op.method = method && fits op.template segments).map (·.operationId) =
      ((dispatch method segments).map NativeRoute.operationId).toList := by
  have htable : (nativeOperations.filter fun op => op.method = method && fits op.template segments).map (·.operationId) =
      (routeTable.filter fun row => row.1 = method && fitsPattern row.2.1 segments).map (·.2.2) := by
    rw [← nativeOperations_table, List.filter_map, List.map_map]
    simp only [fits_eq]
    rfl
  rw [htable]
  cases hd : dispatch method segments with
  | some r => exact table_of_dispatch hd
  | none =>
    rw [Option.map_none, Option.toList_none, List.map_eq_nil_iff, List.filter_eq_nil_iff]
    intro row hrow hfits
    rw [Bool.and_eq_true, decide_eq_true_eq] at hfits
    have hsome := dispatch_of_fits row hrow segments hfits.2
    rw [hfits.1, hd] at hsome
    cases hsome

end Eggchaos
