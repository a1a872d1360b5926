import Mathlib.Data.List.Nodup
import ServiceHealth.Settings

/-!
# Valid settings

Settings without a fault have names that are given and differ, in both of their lists. So a name
means at most one application, and looking it up finds that one wherever it stands.

## Main results

* `NameFault.first?_eq_none_iff` — the lists of names that have no fault.
* `Settings.validate_eq_ok_iff` — the settings that are valid.
* `Settings.application?_eq_some_iff` — looking an application up in valid settings.
-/

namespace ServiceHealth

/-- Names have no fault just when none of them is empty, was seen before or is repeated. -/
theorem NameFault.first?_eq_none_iff {seen names : List String} :
    NameFault.first? seen names = none ↔
      (∀ name ∈ names, name ≠ "" ∧ name ∉ seen) ∧ names.Nodup := by
  induction names generalizing seen with
  | nil => simp [first?]
  | cons name names ih =>
    rw [first?]
    by_cases hempty : name = ""
    · simp [hempty]
    · by_cases hseen : name ∈ seen
      · simp [hempty, hseen]
      · rw [if_neg hempty, if_neg hseen, ih, List.nodup_cons, List.forall_mem_cons]
        constructor
        · rintro ⟨hall, hnodup⟩
          refine ⟨⟨⟨hempty, hseen⟩, fun other hother => ?_⟩, fun hmem => ?_, hnodup⟩
          · exact ⟨(hall other hother).1, fun h => (hall other hother).2 (List.mem_cons_of_mem _ h)⟩
          · exact (hall name hmem).2 List.mem_cons_self
        · rintro ⟨⟨-, hall⟩, hmem, hnodup⟩
          refine ⟨fun other hother => ⟨(hall other hother).1, ?_⟩, hnodup⟩
          rw [List.mem_cons, not_or]
          exact ⟨fun h => hmem (h ▸ hother), (hall other hother).2⟩

namespace Settings

variable {s : Settings}

/-- Settings without a fault are the valid ones. -/
theorem fault?_eq_none_iff : s.fault? = none ↔ s.validate = .ok () := by
  rw [validate]
  cases s.fault? <;> simp

/-- The fault of settings is the error of their validation. -/
theorem fault?_eq_some_iff {e : SettingsError} : s.fault? = some e ↔ s.validate = .error e := by
  rw [validate]
  cases s.fault? <;> simp

/-- Settings are valid just when in both lists no name is empty and no name is repeated, and the
timeout is positive. -/
theorem validate_eq_ok_iff :
    s.validate = .ok () ↔
      ((∀ check ∈ s.healthChecks, check.name ≠ "") ∧ (s.healthChecks.map (·.name)).Nodup) ∧
      ((∀ app ∈ s.applications, app.name ≠ "") ∧ (s.applications.map (·.name)).Nodup) ∧
      s.probe.timeoutMs ≠ 0 := by
  have hnames (names : List String) : NameFault.first? [] names = none ↔
      (∀ name ∈ names, name ≠ "") ∧ names.Nodup := by
    rw [NameFault.first?_eq_none_iff]
    simp
  have hchecks := hnames (s.healthChecks.map (·.name))
  have happs := hnames (s.applications.map (·.name))
  rw [List.forall_mem_map] at hchecks happs
  rw [← fault?_eq_none_iff, ← hchecks, ← happs, fault?]
  cases NameFault.first? [] (s.healthChecks.map (·.name)) with
  | some fault => cases fault <;> simp
  | none =>
    cases NameFault.first? [] (s.applications.map (·.name)) with
    | some fault => cases fault <;> simp
    | none => simp

/-- Looking a name up finds nothing just when no application has it. -/
theorem application?_eq_none_iff {name : String} :
    s.application? name = none ↔ ∀ app ∈ s.applications, app.name ≠ name := by
  simp [application?]

/-- In valid settings the application of a name is the one that has it. -/
theorem application?_eq_some_iff (hvalid : s.validate = .ok ()) {name : String}
    {app : Application} :
    s.application? name = some app ↔ app ∈ s.applications ∧ app.name = name := by
  obtain ⟨-, ⟨-, hnodup⟩, -⟩ := validate_eq_ok_iff.mp hvalid
  constructor
  · intro h
    exact ⟨List.mem_of_find?_eq_some h, by simpa using List.find?_some h⟩
  · rintro ⟨hmem, rfl⟩
    cases hfind : s.application? app.name with
    | none => exact absurd rfl (application?_eq_none_iff.mp hfind app hmem)
    | some other =>
      have hname : other.name = app.name := by simpa using List.find?_some hfind
      have hother : other ∈ s.applications := List.mem_of_find?_eq_some hfind
      rw [List.inj_on_of_nodup_map hnodup hother hmem hname]

end Settings

end ServiceHealth
