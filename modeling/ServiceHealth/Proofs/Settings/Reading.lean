import ServiceHealth.Proofs.Json.Reading
import ServiceHealth.Proofs.Net.Address
import ServiceHealth.Proofs.Settings.File
import ServiceHealth.Settings.Encoding

/-!
# Reading settings back

The document of settings spells every key out. Any of the optional ones may be left out of it as
long as it holds its default, at either level and in any combination: what is read is the same. So
a file that holds the document, or what is left of it, gives the settings if they are valid, and
otherwise fails with their fault.

What is left of an object is a record whose fields are looked up one by one
(`Json.field?_kept`), so each part of the settings is read from the fields that it has, and those
that are missing have the value that the reader puts in their place (`Json.optional?_kept`).

## Main definitions

* `Json.Step`, `Json.Path`, `Json.without` — a document without the fields at some paths.
* `Settings.HoldsDefault` — the paths of optional keys and sections that hold their defaults.

## Main results

* `Json.optional?_kept` — reading a field that may have been left out.
* `Settings.ofJson?_without` — reading what is left of the document of settings.
* `Settings.load_document`, `Settings.load_without_defaults` — loading a file that holds it.
-/

namespace ServiceHealth

/-! ### Documents with fields left out -/

namespace Json

/-- A step into a document: to the value of a key, or to an item. -/
inductive Step
  | key (name : String)
  | item (i : Nat)
  deriving DecidableEq

/-- The way to a value in a document. -/
abbrev Path := List Step

/-- Paths as they are seen from behind a step. -/
def behind (omitted : Path → Bool) (step : Step) : Path → Bool := fun p => omitted (step :: p)

mutual

/-- A document without the fields at some paths. -/
def without (omitted : Path → Bool) : Json → Json
  | .array items => .array (itemsWithout omitted 0 items)
  | .object fields => .object (fieldsWithout omitted fields)
  | j => j

/-- Items from place `i` on without the fields at some paths. -/
def itemsWithout (omitted : Path → Bool) : (i : Nat) → List Json → List Json
  | _, [] => []
  | i, v :: vs => v.without (behind omitted (.item i)) :: itemsWithout omitted (i + 1) vs

/-- Fields without those at some paths, and without the fields at some paths in the others. A key
that spells no text is on no path. -/
def fieldsWithout (omitted : Path → Bool) : List (Literal × Json) → List (Literal × Json)
  | [] => []
  | (none, v) :: fs => (none, v) :: fieldsWithout omitted fs
  | (some name, v) :: fs =>
    if omitted [.key name] then fieldsWithout omitted fs
    else (some name, v.without (behind omitted (.key name))) :: fieldsWithout omitted fs

end

mutual

/-- Leaving nothing out leaves a document as it is. -/
theorem without_nothing : (j : Json) → j.without (fun _ => false) = j
  | .null | .bool _ | .number _ | .string _ => rfl
  | .array items => congrArg Json.array (itemsWithout_nothing 0 items)
  | .object fields => congrArg Json.object (fieldsWithout_nothing fields)

/-- Leaving nothing out leaves items as they are. -/
theorem itemsWithout_nothing :
    (i : Nat) → (items : List Json) → itemsWithout (fun _ => false) i items = items
  | _, [] => rfl
  | i, v :: vs => congrArg₂ List.cons (without_nothing v) (itemsWithout_nothing (i + 1) vs)

/-- Leaving nothing out leaves fields as they are. -/
theorem fieldsWithout_nothing :
    (fields : List (Literal × Json)) → fieldsWithout (fun _ => false) fields = fields
  | [] => rfl
  | (none, _) :: fs => congrArg (List.cons _) (fieldsWithout_nothing fs)
  | (some _, v) :: fs =>
    congrArg₂ (fun v fs => (_, v) :: fs) (without_nothing v) (fieldsWithout_nothing fs)

end

variable {omitted : Path → Bool}

/-- What is left of the fields of a record. -/
def kept (omitted : Path → Bool) : List (String × Json) → List (String × Json)
  | [] => []
  | (name, v) :: fields =>
    if omitted [.key name] then kept omitted fields
    else (name, v.without (behind omitted (.key name))) :: kept omitted fields

/-- An object with named fields, some of them left out, is read as the record of what is left. -/
theorem record?_without (names : List String) (fields : List (String × Json)) :
    format.record? names ((Json.object (fields.map fun f => (some f.1, f.2))).without omitted) =
      some (kept omitted fields) := by
  show namedFields? (fieldsWithout omitted _) = _
  induction fields with
  | nil => rfl
  | cons f fields ih =>
    rw [namedFields?] at ih ⊢
    rw [List.map_cons, fieldsWithout, kept]
    split
    · exact ih
    · rw [List.mapM_cons, ih]
      rfl

section Records

variable {fields : List (String × Json)} {name : String} {v : Json}

/-- No field is left of a name that no field has. -/
theorem filter_kept_of_notMem (hfresh : name ∉ fields.map Prod.fst) :
    (kept omitted fields).filter (·.1 == name) = [] := by
  induction fields with
  | nil => rfl
  | cons f fields ih =>
    rw [List.map_cons, List.mem_cons, not_or] at hfresh
    rw [kept]
    split
    · exact ih hfresh.2
    · rw [List.filter_cons_of_neg (by simpa using Ne.symm hfresh.1), ih hfresh.2]

/-- Of the fields of one name, that name occurring once, what is left of it stays. -/
theorem filter_kept (hnodup : (fields.map Prod.fst).Nodup) (hmem : (name, v) ∈ fields) :
    (kept omitted fields).filter (·.1 == name) =
      if omitted [.key name] then [] else [(name, v.without (behind omitted (.key name)))] := by
  induction fields with
  | nil => simp at hmem
  | cons f fields ih =>
    rw [List.map_cons, List.nodup_cons] at hnodup
    obtain ⟨hfresh, hnodup⟩ := hnodup
    rcases List.mem_cons.mp hmem with rfl | hmem
    · have hrest : (kept omitted fields).filter (·.1 == name) = [] := filter_kept_of_notMem hfresh
      rw [kept]
      split
      · exact hrest
      · rw [List.filter_cons_of_pos (by simp), hrest]
    · have hne : f.1 ≠ name := by
        rintro rfl
        exact hfresh (List.mem_map.mpr ⟨_, hmem, rfl⟩)
      rw [kept, ← ih hnodup hmem]
      split
      · rfl
      · rw [List.filter_cons_of_neg (by simpa using hne)]

/-- Looking a field up in what is left of a record whose fields have different names. -/
theorem field?_kept (hnodup : (fields.map Prod.fst).Nodup) (hmem : (name, v) ∈ fields) :
    Format.field? (kept omitted fields) name = some
      (if omitted [.key name] then none else some (v.without (behind omitted (.key name)))) := by
  rw [Format.field?, filter_kept hnodup hmem]
  by_cases h : omitted [.key name] = true
  · rw [if_pos h, if_pos h]
  · rw [if_neg h, if_neg h]

/-- A field that has to be there is read if it was not left out. -/
theorem required?_kept {β : Type} (i : Nat) (hfield : fields[i]? = some (name, v))
    (hnodup : (fields.map Prod.fst).Nodup) (hstays : omitted [.key name] = false)
    {read : Json → Option β} {x : β}
    (hread : read (v.without (behind omitted (.key name))) = some x) :
    Format.required? (kept omitted fields) name read = some x := by
  rw [Format.required?, field?_kept hnodup (List.mem_of_getElem? hfield), hstays]
  exact hread

/-- A field that takes its default is read if it was left out only when it holds the default. -/
theorem optional?_kept {β : Type} (i : Nat) (hfield : fields[i]? = some (name, v))
    (hnodup : (fields.map Prod.fst).Nodup) {read : Json → Option β} {x default : β}
    (hread : read (v.without (behind omitted (.key name))) = some x)
    (hdefault : omitted [.key name] = true → x = default) :
    Format.optional? (kept omitted fields) name default read = some x := by
  rw [Format.optional?, field?_kept hnodup (List.mem_of_getElem? hfield)]
  split
  next homitted => rw [hdefault homitted]; rfl
  next => exact hread

end Records

/-- A list is read from its documents if each of its items is read from what is left of its own. -/
theorem list?_without {α : Type} {read : Json → Option α} {doc : α → Json} {xs : List α}
    (hread : ∀ i x, xs[i]? = some x → read ((doc x).without (behind omitted (.item i))) = some x) :
    format.list? read ((Json.array (xs.map doc)).without omitted) = some xs := by
  have hitems (ys : List α) : ∀ i, (∀ k y, ys[k]? = some y →
      read ((doc y).without (behind omitted (.item (i + k)))) = some y) →
      (itemsWithout omitted i (ys.map doc)).mapM read = some ys := by
    induction ys with
    | nil => exact fun _ _ => rfl
    | cons y ys ih =>
      intro i hread
      have hhead : read ((doc y).without (behind omitted (.item i))) = some y := hread 0 y rfl
      have htail := ih (i + 1) fun k z hz => by
        have hz' := hread (k + 1) z (by simpa using hz)
        rwa [show i + (k + 1) = i + 1 + k by omega] at hz'
      rw [List.map_cons, itemsWithout, List.mapM_cons, hhead, htail]
      rfl
  exact hitems xs 0 fun k y hy => by simpa using hread k y hy

/-- A natural number below a bound is read. -/
theorem below?_nat {n bound : Nat} (h : n < bound) : format.below? bound (.nat n) = some n := by
  have hnat : format.nat? (.nat n) = some n := rfl
  rw [Format.below?, hnat, Option.filter_some_pos (by simpa using h)]

end Json

/-! ### Defaults -/

open Json

/-- An application holds the default at the key of its members when it has none. -/
def Application.HoldsDefault (a : Application) : Path → Prop
  | [.key "members"] => a.members = []
  | _ => False

/-- The probe settings hold the default, as a whole or at a key. -/
def ProbeSettings.HoldsDefault (p : ProbeSettings) : Path → Prop
  | [] => p = ⟨3000⟩
  | [.key "timeout_ms"] => p.timeoutMs = 3000
  | _ => False

/-- The server settings hold the default, as a whole or at a key. -/
def ServerSettings.HoldsDefault (s : ServerSettings) : Path → Prop
  | [] => s = ⟨.v4 ⟨0, 0, 0, 0⟩ 8080, "/api/health"⟩
  | [.key "listen_addr"] => s.listenAddress = .v4 ⟨0, 0, 0, 0⟩ 8080
  | [.key "base_path"] => s.basePath = "/api/health"
  | _ => False

/-- The metrics settings hold the default, as a whole or at a key. -/
def MetricsSettings.HoldsDefault (m : MetricsSettings) : Path → Prop
  | [] => m = ⟨false, 9090, "/metrics"⟩
  | [.key "enabled"] => m.enabled = false
  | [.key "port"] => m.port = 9090
  | [.key "path"] => m.path = "/metrics"
  | _ => False

/-- The settings hold the default at the optional key or section at a path. -/
def Settings.HoldsDefault (s : Settings) : Path → Prop
  | [.key "health_checks"] => s.healthChecks = []
  | [.key "applications"] => s.applications = []
  | .key "applications" :: .item i :: p => ∃ a, s.applications[i]? = some a ∧ a.HoldsDefault p
  | .key "probe" :: p => s.probe.HoldsDefault p
  | .key "server" :: p => s.server.HoldsDefault p
  | .key "metrics" :: p => s.metrics.HoldsDefault p
  | _ => False

/-! ### Reading -/

variable {omitted : Path → Bool}

/-- A health check is read from its document, which has to be whole. -/
theorem HealthCheck.read_without (c : HealthCheck) (hwhole : ∀ p, omitted p = false) :
    format.healthCheck? (c.toJson.without omitted) = some c := by
  let fields : List (String × Json) := [("name", .text c.name), ("uri", .text c.uri)]
  have hrecord : format.record? ["name", "uri"] (c.toJson.without omitted) =
      some (kept omitted fields) := record?_without _ fields
  have hnodup : (fields.map Prod.fst).Nodup := show ["name", "uri"].Nodup by decide
  have hname : Format.required? (kept omitted fields) "name" format.text? = some c.name :=
    required?_kept 0 rfl hnodup (hwhole _) rfl
  have huri : Format.required? (kept omitted fields) "uri" format.text? = some c.uri :=
    required?_kept 1 rfl hnodup (hwhole _) rfl
  simp [Format.healthCheck?, hrecord, hname, huri]

/-- An application is read from what is left of its document. -/
theorem Application.read_without (a : Application) (hdefault : ∀ p, omitted p → a.HoldsDefault p) :
    format.application? (a.toJson.without omitted) = some a := by
  let fields : List (String × Json) :=
    [("name", .text a.name), ("members", .array (a.members.map Json.text))]
  have hrecord : format.record? ["name", "members"] (a.toJson.without omitted) =
      some (kept omitted fields) := record?_without _ fields
  have hnodup : (fields.map Prod.fst).Nodup := show ["name", "members"].Nodup by decide
  have hstays : omitted [.key "name"] = false := by
    rw [← Bool.not_eq_true]
    intro h
    simpa [HoldsDefault] using hdefault _ h
  have hname : Format.required? (kept omitted fields) "name" format.text? = some a.name :=
    required?_kept 0 rfl hnodup hstays rfl
  have hmembers : Format.optional? (kept omitted fields) "members" [] (format.list? format.text?) =
      some a.members :=
    optional?_kept 1 rfl hnodup (list?_without fun _ _ _ => rfl) (hdefault _)
  simp [Format.application?, hrecord, hname, hmembers]

/-- The probe settings are read from what is left of their document. -/
theorem ProbeSettings.read_without (p : ProbeSettings)
    (hdefault : ∀ q, omitted q → p.HoldsDefault q) :
    format.probe? (p.toJson.without omitted) = some p := by
  let fields : List (String × Json) := [("timeout_ms", .nat p.timeoutMs.toNat)]
  have hrecord : format.record? ["timeout_ms"] (p.toJson.without omitted) =
      some (kept omitted fields) := record?_without _ fields
  have hnodup : (fields.map Prod.fst).Nodup := show ["timeout_ms"].Nodup by decide
  have hread : (format.below? UInt64.size (.nat p.timeoutMs.toNat)).map UInt64.ofNat =
      some p.timeoutMs := by
    rw [below?_nat p.timeoutMs.toNat_lt]
    simp
  have htimeout : Format.optional? (kept omitted fields) "timeout_ms" 3000
      (fun v => (format.below? UInt64.size v).map UInt64.ofNat) = some p.timeoutMs :=
    optional?_kept (v := .nat p.timeoutMs.toNat) 0 rfl hnodup hread (hdefault _)
  simp [Format.probe?, hrecord, htimeout]

/-- The server settings are read from what is left of their document. -/
theorem ServerSettings.read_without (s : ServerSettings)
    (hdefault : ∀ p, omitted p → s.HoldsDefault p) :
    format.server? (s.toJson.without omitted) = some s := by
  let fields : List (String × Json) :=
    [("listen_addr", .text s.listenAddress.render), ("base_path", .text s.basePath)]
  have hrecord : format.record? ["listen_addr", "base_path"] (s.toJson.without omitted) =
      some (kept omitted fields) := record?_without _ fields
  have hnodup : (fields.map Prod.fst).Nodup := show ["listen_addr", "base_path"].Nodup by decide
  have haddress : Format.optional? (kept omitted fields) "listen_addr" (.v4 ⟨0, 0, 0, 0⟩ 8080)
      (fun v => (format.text? v).bind Net.SocketAddress.parse?) = some s.listenAddress :=
    optional?_kept (v := .text s.listenAddress.render) 0 rfl hnodup s.listenAddress.parse?_render
      (hdefault _)
  have hbase : Format.optional? (kept omitted fields) "base_path" "/api/health" format.text? =
      some s.basePath :=
    optional?_kept 1 rfl hnodup rfl (hdefault _)
  simp [Format.server?, hrecord, haddress, hbase]

/-- The metrics settings are read from what is left of their document. -/
theorem MetricsSettings.read_without (m : MetricsSettings)
    (hdefault : ∀ p, omitted p → m.HoldsDefault p) :
    format.metrics? (m.toJson.without omitted) = some m := by
  let fields : List (String × Json) :=
    [("enabled", .bool m.enabled), ("port", .nat m.port.toNat), ("path", .text m.path)]
  have hrecord : format.record? ["enabled", "port", "path"] (m.toJson.without omitted) =
      some (kept omitted fields) := record?_without _ fields
  have hnodup : (fields.map Prod.fst).Nodup := show ["enabled", "port", "path"].Nodup by decide
  have henabled : Format.optional? (kept omitted fields) "enabled" false format.bool? =
      some m.enabled :=
    optional?_kept 0 rfl hnodup rfl (hdefault _)
  have hread : (format.below? UInt16.size (.nat m.port.toNat)).map UInt16.ofNat =
      some m.port := by
    rw [below?_nat m.port.toNat_lt]
    simp
  have hport : Format.optional? (kept omitted fields) "port" 9090
      (fun v => (format.below? UInt16.size v).map UInt16.ofNat) = some m.port :=
    optional?_kept (v := .nat m.port.toNat) 1 rfl hnodup hread (hdefault _)
  have hpath : Format.optional? (kept omitted fields) "path" "/metrics" format.text? =
      some m.path :=
    optional?_kept 2 rfl hnodup rfl (hdefault _)
  simp [Format.metrics?, hrecord, henabled, hport, hpath]

namespace Settings

/-- The settings are read from what is left of their document. -/
theorem ofJson?_without (s : Settings) (hdefault : ∀ p, omitted p → s.HoldsDefault p) :
    ofJson? (s.toJson.without omitted) = some s := by
  let fields : List (String × Json) := [
    ("health_checks", .array (s.healthChecks.map HealthCheck.toJson)),
    ("applications", .array (s.applications.map Application.toJson)),
    ("probe", s.probe.toJson),
    ("server", s.server.toJson),
    ("metrics", s.metrics.toJson)]
  have hrecord :
      format.record? ["health_checks", "applications", "probe", "server", "metrics"]
        (s.toJson.without omitted) = some (kept omitted fields) := record?_without _ fields
  have hnodup : (fields.map Prod.fst).Nodup :=
    show ["health_checks", "applications", "probe", "server", "metrics"].Nodup by decide
  have hchecks : Format.optional? (kept omitted fields) "health_checks" []
      (format.list? format.healthCheck?) = some s.healthChecks := by
    refine optional?_kept 0 rfl hnodup
      (list?_without fun i c _ => c.read_without fun p => ?_) (hdefault _)
    rw [← Bool.not_eq_true]
    intro h
    simpa [HoldsDefault] using hdefault (.key "health_checks" :: .item i :: p) h
  have happlications : Format.optional? (kept omitted fields) "applications" []
      (format.list? format.application?) = some s.applications := by
    refine optional?_kept 1 rfl hnodup
      (list?_without fun i a ha => a.read_without fun p h => ?_) (hdefault _)
    obtain ⟨a', ha', hholds⟩ := hdefault (.key "applications" :: .item i :: p) h
    rw [ha] at ha'
    rwa [Option.some.inj ha']
  have hprobe : Format.optional? (kept omitted fields) "probe" {} format.probe? = some s.probe :=
    optional?_kept 2 rfl hnodup
      (s.probe.read_without fun p => hdefault (.key "probe" :: p)) (hdefault [.key "probe"])
  have hserver : Format.optional? (kept omitted fields) "server" {} format.server? =
      some s.server :=
    optional?_kept 3 rfl hnodup
      (s.server.read_without fun p => hdefault (.key "server" :: p)) (hdefault [.key "server"])
  have hmetrics : Format.optional? (kept omitted fields) "metrics" {} format.metrics? =
      some s.metrics :=
    optional?_kept 4 rfl hnodup
      (s.metrics.read_without fun p => hdefault (.key "metrics" :: p)) (hdefault [.key "metrics"])
  simp [ofJson?, Format.settings?, hrecord, hchecks, happlications, hprobe, hserver, hmetrics]

/-- The text that a string is encoded as is that string. -/
theorem fromUTF8?_toUTF8 (text : String) : String.fromUTF8? text.toUTF8 = some text := by
  rw [String.toUTF8_eq_toByteArray, String.fromUTF8?, dif_pos text.isValidUTF8]
  rfl

/-- **Run.** A file that is not named as YAML and holds a text of what is left of the document of
settings gives the settings if they are valid, and otherwise fails with their fault. -/
theorem load_document (s : Settings) (hdefault : ∀ p, omitted p → s.HoldsDefault p) {path : String}
    (hyaml : extension? path ≠ some "yaml") (hyml : extension? path ≠ some "yml") {text : String}
    (htext : IsDocument (s.toJson.without omitted) text) :
    load path (some text.toUTF8) =
      match s.validate with
      | .ok _ => .ok s
      | .error fault => .error (.invalid fault) := by
  have hformat : FileFormat.ofPath path = .json := by
    rw [FileFormat.ofPath, if_neg (not_or.mpr ⟨hyaml, hyml⟩)]
  have hparse : parse? (.ofPath path) text = some s := by
    rw [hformat, parse?, htext.parse?_eq, Option.bind_some, s.ofJson?_without hdefault]
  cases hvalid : s.validate with
  | ok => exact (Loads.valid (fromUTF8?_toUTF8 text) hparse hvalid).load_eq
  | error fault => exact (LoadFails.invalid (fromUTF8?_toUTF8 text) hparse hvalid).load_eq

/-- Loading a file that is not named as YAML and holds the document of settings, with any of the
optional keys and sections left out that hold their defaults, gives exactly the settings if they are
valid, and otherwise fails with their very fault; leaving nothing out makes no difference. -/
theorem load_without_defaults (s : Settings) (hdefault : ∀ p, omitted p → s.HoldsDefault p)
    {path : String} (hyaml : extension? path ≠ some "yaml") (hyml : extension? path ≠ some "yml") :
    (load path (some (s.toJson.without omitted).render.toUTF8) =
      match s.validate with
      | .ok _ => .ok s
      | .error fault => .error (.invalid fault)) ∧
    load path (some (s.toJson.without omitted).render.toUTF8) =
      load path (some s.toJson.render.toUTF8) := by
  have hpart := s.load_document hdefault hyaml hyml (isDocument_render _)
  have hnothing : ∀ p : Path, (fun _ => false) p = true → s.HoldsDefault p := fun _ h => nomatch h
  have hwhole := s.load_document hnothing hyaml hyml (isDocument_render _)
  rw [without_nothing] at hwhole
  exact ⟨hpart, hpart.trans hwhole.symm⟩

/-- Settings with an address that has a scope, the greatest timeout and a name with a quotation mark
and a line break, written without the members of the first application, the base path and the
metrics, or with empty metrics instead; and the fault of the same settings with timeout zero. -/
theorem load_of_absent_and_of_empty_metrics :
    let s : Settings :=
      { healthChecks := [⟨"a\"\n", "http://ü/"⟩]
        applications := [⟨"A", []⟩, ⟨"B", ["a\"\n"]⟩]
        probe := ⟨18446744073709551615⟩
        server := ⟨.v6 ⟨[0xfe80, 0, 0, 0, 0, 0, 0, 1], rfl⟩ 7 8443, "/api/health"⟩ }
    let text := "\x7b\"health_checks\":[\x7b\"name\":\"a\\\"\\n\",\"uri\":\"http://ü/\"\x7d]," ++
      "\"applications\":[\x7b\"name\":\"A\"\x7d," ++
      "\x7b\"name\":\"B\",\"members\":[\"a\\\"\\n\"]\x7d]," ++
      "\"probe\":\x7b\"timeout_ms\":18446744073709551615\x7d," ++
      "\"server\":\x7b\"listen_addr\":\"[fe80::1%7]:8443\"\x7d"
    load "settings.json" (some (text ++ "\x7d").toUTF8) = .ok s ∧
    load "settings.json" (some (text ++ ",\"metrics\":\x7b\x7d\x7d").toUTF8) = .ok s ∧
    load "settings.json" (some { s with probe := ⟨0⟩ }.toJson.render.toUTF8) =
      .error (.invalid .zeroProbeTimeout) := by
  intro s text
  let inner : List Path :=
    [[.key "applications", .item 0, .key "members"], [.key "server", .key "base_path"]]
  have hinner : ∀ p ∈ inner, s.HoldsDefault p := by
    simp only [inner, List.forall_mem_cons]
    exact ⟨⟨_, rfl, rfl⟩, rfl, fun _ h => nomatch h⟩
  have hsection : ∀ p, decide (p ∈ [.key "metrics"] :: inner) = true → s.HoldsDefault p := by
    simp only [decide_eq_true_eq, List.forall_mem_cons]
    exact ⟨rfl, hinner⟩
  have hkeys : ∀ p, decide (p ∈ [.key "metrics", .key "enabled"] :: [.key "metrics", .key "port"] ::
      [.key "metrics", .key "path"] :: inner) = true → s.HoldsDefault p := by
    simp only [decide_eq_true_eq, List.forall_mem_cons]
    exact ⟨rfl, rfl, rfl, hinner⟩
  have hjson (extension : String) (h : extension ≠ "json") :
      extension? "settings.json" ≠ some extension := by
    rw [show extension? "settings.json" = some "json" by decide +kernel]
    exact fun heq => h (Option.some.inj heq).symm
  have habsent := (s.load_without_defaults hsection (hjson "yaml" (by decide))
    (hjson "yml" (by decide))).1
  have hempty := (s.load_without_defaults hkeys (hjson "yaml" (by decide))
    (hjson "yml" (by decide))).1
  have hinvalid := ({ s with probe := ⟨0⟩ } : Settings).load_without_defaults
    (fun _ h => nomatch (h : false = true)) (hjson "yaml" (by decide)) (hjson "yml" (by decide))
  have hvalid : s.validate = .ok () := by decide +kernel
  rw [hvalid] at habsent hempty
  have hload {t t' : String} (h : t = t') {r : Except LoadError Settings}
      (hr : load "settings.json" (some t'.toUTF8) = r) :
      load "settings.json" (some t.toUTF8) = r := h ▸ hr
  exact ⟨hload (by decide +kernel) habsent, hload (by decide +kernel) hempty,
    hinvalid.2.symm.trans hinvalid.1⟩

end Settings

end ServiceHealth
