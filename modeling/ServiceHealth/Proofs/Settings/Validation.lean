import ServiceHealth.Proofs.Settings

/-!
# The first offence

Validation goes through the names of the health checks, then through those of the applications, each
time with the names that it has seen, and comes to the timeout last. The names seen are at every
point those of the positions before it (`NameFault.first?_eq_some`), so what it reports is the
offence at the first place that has one, told by the settings alone: a name offends by being empty,
or else by standing at an earlier position of its own list as well. A place has at most one offence,
and of two places one comes first, so there is at most one first offence
(`Settings.FirstOffence.unique`).

## Main definitions

* `NameFault.At` — the name at a position of a list is at fault.
* `Settings.Place`, `Settings.Place.Before` — where settings can offend, in the order in which they
  are looked at.
* `Settings.OffenceAt`, `Settings.FirstOffence` — the offences of settings.

## Main results

* `Settings.validate_reports_first_offence` — when settings are valid, and what is reported if they
  are not.
-/

namespace ServiceHealth

/-! ### Names -/

namespace NameFault

/-- The name at a position is at fault: it is empty, or it is not and stands at an earlier position
as well. -/
inductive At (names : List String) (i : Nat) : NameFault → Prop
  | empty : names[i]? = some "" → At names i .empty
  | duplicate {name : String} {j : Nat} : names[i]? = some name → name ≠ "" →
      j < i → names[j]? = some name → At names i (.duplicate name)

variable {names : List String} {i : Nat} {f g : NameFault}

/-- The name at a position has one fault at most. -/
theorem At.unique (hf : At names i f) (hg : At names i g) : f = g := by
  cases hf with
  | empty hi =>
    cases hg with
    | empty => rfl
    | duplicate hi' hne => exact absurd (Option.some.inj (hi'.symm.trans hi)) hne
  | duplicate hi hne =>
    cases hg with
    | empty hi' => exact absurd (Option.some.inj (hi.symm.trans hi')) hne
    | duplicate hi' => rw [Option.some.inj (hi.symm.trans hi')]

/-- Names without a fault have none at any position. -/
theorem not_at_of_first?_eq_none (h : first? [] names = none) : ¬ At names i f := by
  obtain ⟨hgiven, hnodup⟩ := first?_eq_none_iff.mp h
  rintro (hi | ⟨hi, -, hlt, hj⟩)
  · exact (hgiven "" (List.mem_of_getElem? hi)).1 rfl
  · have hlength := (List.getElem?_eq_some_iff.mp hi).1
    exact List.nodup_iff_getElem?_ne_getElem?.mp hnodup _ _ hlt hlength (hj.trans hi.symm)

/-- **Run.** Behind names that were scanned, and that are therefore the ones seen, the first fault
is that of the first position which has one. -/
theorem first?_eq_some {before after : List String}
    (h : first? before.reverse after = some f) :
    ∃ i, before.length ≤ i ∧ At (before ++ after) i f ∧
      ∀ j, before.length ≤ j → j < i → ∀ g, ¬ At (before ++ after) j g := by
  induction after generalizing before with
  | nil => cases h
  | cons name after ih =>
    have hhere : (before ++ name :: after)[before.length]? = some name := by simp
    rw [first?] at h
    split at h
    next hempty =>
      obtain rfl := Option.some.inj h
      subst hempty
      exact ⟨before.length, Nat.le_refl _, .empty hhere, fun j hle hlt => by omega⟩
    next hempty =>
      split at h
      next hseen =>
        obtain rfl := Option.some.inj h
        obtain ⟨j, hj⟩ := List.getElem?_of_mem (List.mem_reverse.mp hseen)
        have hlt : j < before.length := (List.getElem?_eq_some_iff.mp hj).1
        have hearlier : (before ++ name :: after)[j]? = some name := by
          rw [List.getElem?_append_left hlt, hj]
        exact ⟨before.length, Nat.le_refl _, .duplicate hhere hempty hlt hearlier,
          fun j hle hlt => by omega⟩
      next hseen =>
        -- Nothing is wrong here: the name joins those that were scanned.
        rw [← List.reverse_concat'] at h
        obtain ⟨i, hle, hat, hnone⟩ := ih h
        simp only [List.append_assoc, List.singleton_append, List.length_append,
          List.length_singleton] at hle hat hnone
        refine ⟨i, by omega, hat, fun j hj hji g hg => ?_⟩
        rcases Nat.eq_or_lt_of_le hj with rfl | hlt
        · rcases hg with hg | ⟨hg, -, hlt, hearlier⟩
          · exact hempty (Option.some.inj (hhere.symm.trans hg))
          · obtain rfl := Option.some.inj (hhere.symm.trans hg)
            rw [List.getElem?_append_left hlt] at hearlier
            exact hseen (List.mem_reverse.mpr (List.mem_of_getElem? hearlier))
        · exact hnone j hlt hji g hg

/-- The first fault of names is that of the first position which has one. -/
theorem exists_first_at (h : first? [] names = some f) :
    ∃ i, At names i f ∧ ∀ j < i, ∀ g, ¬ At names j g := by
  rw [← List.reverse_nil] at h
  obtain ⟨i, -, hat, hnone⟩ := first?_eq_some h
  exact ⟨i, hat, fun j => hnone j j.zero_le⟩

end NameFault

/-- The error for a name of a health check. -/
def NameFault.ofHealthCheck : NameFault → SettingsError
  | empty => .emptyHealthCheckName
  | duplicate name => .duplicateHealthCheck name

/-- The error for a name of an application. -/
def NameFault.ofApplication : NameFault → SettingsError
  | empty => .emptyApplicationName
  | duplicate name => .duplicateApplication name

namespace Settings

/-! ### Places -/

/-- Where settings can offend: at a health check or an application, by position, or in the
timeout. -/
inductive Place
  | healthCheck (i : Nat)
  | application (i : Nat)
  | timeout
  deriving DecidableEq, Repr

/-- Health checks come before applications, both by position, and the timeout comes last. -/
def Place.Before : Place → Place → Prop
  | .healthCheck i, .healthCheck j => i < j
  | .healthCheck _, _ => True
  | .application i, .application j => i < j
  | .application _, .timeout => True
  | _, _ => False

/-- Of two places one comes first. -/
theorem Place.eq_or_before (p q : Place) : p = q ∨ p.Before q ∨ q.Before p := by
  cases p <;> cases q <;> simp [Before] <;> omega

/-- What offends at a place, and the error that tells it. -/
inductive OffenceAt (s : Settings) : Place → SettingsError → Prop
  | healthCheck {i f} : NameFault.At (s.healthChecks.map (·.name)) i f →
      OffenceAt s (.healthCheck i) f.ofHealthCheck
  | application {i f} : NameFault.At (s.applications.map (·.name)) i f →
      OffenceAt s (.application i) f.ofApplication
  | timeout : s.probe.timeoutMs = 0 → OffenceAt s .timeout .zeroProbeTimeout

/-- The offence at the first place that has one. -/
def FirstOffence (s : Settings) (e : SettingsError) : Prop :=
  ∃ place, s.OffenceAt place e ∧ ∀ earlier, earlier.Before place → ∀ e', ¬ s.OffenceAt earlier e'

variable {s : Settings} {e e' : SettingsError}

/-- A place has one offence at most. -/
theorem OffenceAt.unique {place : Place} (h : s.OffenceAt place e) (h' : s.OffenceAt place e') :
    e = e' := by
  cases h with
  | healthCheck hf =>
    cases h' with
    | healthCheck hg => rw [hf.unique hg]
  | application hf =>
    cases h' with
    | application hg => rw [hf.unique hg]
  | timeout =>
    cases h' with
    | timeout => rfl

/-- There is one first offence at most. -/
theorem FirstOffence.unique (h : s.FirstOffence e) (h' : s.FirstOffence e') : e = e' := by
  obtain ⟨place, hat, hnone⟩ := h
  obtain ⟨place', hat', hnone'⟩ := h'
  rcases place.eq_or_before place' with rfl | hlt | hlt
  · exact hat.unique hat'
  · exact absurd hat (hnone' place hlt e)
  · exact absurd hat' (hnone place' hlt e')

/-- The fault of settings is that of the health checks, of the applications or of the timeout,
whichever is there first. -/
theorem fault?_eq (s : Settings) : s.fault? =
    ((NameFault.first? [] (s.healthChecks.map (·.name))).map NameFault.ofHealthCheck).or
      (((NameFault.first? [] (s.applications.map (·.name))).map NameFault.ofApplication).or
        (if s.probe.timeoutMs = 0 then some .zeroProbeTimeout else none)) := by
  rw [fault?]
  cases NameFault.first? [] (s.healthChecks.map (·.name)) with
  | some f => cases f <;> rfl
  | none =>
    cases NameFault.first? [] (s.applications.map (·.name)) with
    | some f => cases f <;> rfl
    | none => rfl

/-- A fault is the first offence. -/
theorem firstOffence_of_fault? (h : s.fault? = some e) : s.FirstOffence e := by
  rw [fault?_eq] at h
  cases hchecks : NameFault.first? [] (s.healthChecks.map (·.name)) with
  | some f =>
    obtain rfl : f.ofHealthCheck = e := by simpa [hchecks] using h
    obtain ⟨i, hat, hnone⟩ := NameFault.exists_first_at hchecks
    refine ⟨.healthCheck i, .healthCheck hat, ?_⟩
    rintro earlier hearlier e' (hf | hf | -)
    · exact hnone _ hearlier _ hf
    · cases hearlier
    · cases hearlier
  | none =>
    have hnoCheck {i f} : ¬ NameFault.At (s.healthChecks.map (·.name)) i f :=
      NameFault.not_at_of_first?_eq_none hchecks
    cases happs : NameFault.first? [] (s.applications.map (·.name)) with
    | some f =>
      obtain rfl : f.ofApplication = e := by simpa [hchecks, happs] using h
      obtain ⟨i, hat, hnone⟩ := NameFault.exists_first_at happs
      refine ⟨.application i, .application hat, ?_⟩
      rintro earlier hearlier e' (hf | hf | -)
      · exact hnoCheck hf
      · exact hnone _ hearlier _ hf
      · cases hearlier
    | none =>
      obtain ⟨htimeout, rfl⟩ : s.probe.timeoutMs = 0 ∧ .zeroProbeTimeout = e := by
        simpa [hchecks, happs] using h
      refine ⟨.timeout, .timeout htimeout, ?_⟩
      rintro earlier hearlier e' (hf | hf | -)
      · exact hnoCheck hf
      · exact NameFault.not_at_of_first?_eq_none happs hf
      · cases hearlier

/-- Settings that offend at some place have a fault. -/
theorem OffenceAt.fault?_ne_none {place : Place} (h : s.OffenceAt place e) : s.fault? ≠ none := by
  intro hnone
  simp only [fault?_eq, Option.or_eq_none_iff, Option.map_eq_none_iff] at hnone
  obtain ⟨hchecks, happs, htimeout⟩ := hnone
  cases h with
  | healthCheck hf => exact NameFault.not_at_of_first?_eq_none hchecks hf
  | application hf => exact NameFault.not_at_of_first?_eq_none happs hf
  | timeout hzero => simp [hzero] at htimeout

/-- The error of settings that are not valid is their first offence. -/
theorem validate_eq_error_iff : s.validate = .error e ↔ s.FirstOffence e := by
  rw [← fault?_eq_some_iff]
  refine ⟨firstOffence_of_fault?, fun h => ?_⟩
  obtain ⟨place, hat, -⟩ := id h
  obtain ⟨e', he'⟩ := Option.ne_none_iff_exists'.mp hat.fault?_ne_none
  rw [he', h.unique (firstOffence_of_fault? he')]

/-- **Validation.** Settings are valid just when in both lists every name is given and no two are
the same, and the timeout is positive. Otherwise the error tells the first offence: health checks
come first, by position, then applications, by position, then the timeout, and a name offends by
being empty or, if it is not, by standing at an earlier position of the same list. Nothing but the
names of the two lists and the timeout counts, and valid health checks go with all valid
applications, whatever names they share. -/
theorem validate_reports_first_offence (s : Settings) :
    (s.validate = .ok () ↔
      ((∀ check ∈ s.healthChecks, check.name ≠ "") ∧
        s.healthChecks.Pairwise fun check check' => check.name ≠ check'.name) ∧
      ((∀ app ∈ s.applications, app.name ≠ "") ∧
        s.applications.Pairwise fun app app' => app.name ≠ app'.name) ∧
      0 < s.probe.timeoutMs) ∧
    (∀ e, s.validate = .error e ↔ s.FirstOffence e) ∧
    (∀ s' : Settings, s'.healthChecks.map (·.name) = s.healthChecks.map (·.name) →
      s'.applications.map (·.name) = s.applications.map (·.name) →
      s'.probe.timeoutMs = s.probe.timeoutMs → s'.validate = s.validate) ∧
    ∀ s' : Settings, s.validate = .ok () → s'.validate = .ok () →
      { s with applications := s'.applications }.validate = .ok () := by
  refine ⟨?_, fun e => validate_eq_error_iff, fun s' hchecks happs htimeout => ?_,
    fun s' h h' => ?_⟩
  · simp only [validate_eq_ok_iff, List.nodup_iff_pairwise_ne, List.pairwise_map,
      UInt64.pos_iff_ne_zero]
  · rw [validate, validate, fault?_eq, fault?_eq, hchecks, happs, htimeout]
  · obtain ⟨hchecks, -, htimeout⟩ := validate_eq_ok_iff.mp h
    obtain ⟨-, happs, -⟩ := validate_eq_ok_iff.mp h'
    exact validate_eq_ok_iff.mpr ⟨hchecks, happs, htimeout⟩

/-- A check and an application share a name, and an application without one stands before a repeated
one and a timeout of zero: what is reported is the empty name, wherever the members are to be
probed. Without the offences the shared name does no harm. -/
theorem validate_reports_first_offence_of_three :
    let checks (uri : String) : List HealthCheck := [⟨"app", uri⟩, ⟨"App", uri⟩]
    let apps : List Application := [⟨"App", ["ghost", "app", "app"]⟩]
    let s : Settings :=
      { healthChecks := checks "", applications := apps ++ [⟨"", []⟩, ⟨"App", []⟩], probe := ⟨0⟩ }
    let elsewhere : Settings :=
      { s with healthChecks := checks "http://app", server := { basePath := "/status" } }
    let checked : Settings := { healthChecks := checks "" }
    let applied : Settings := { applications := apps }
    s.FirstOffence .emptyApplicationName ∧ elsewhere.validate = s.validate ∧
    { checked with applications := applied.applications }.validate = .ok () := by
  intro checks apps s elsewhere checked applied
  obtain ⟨-, herror, hsame, -⟩ := validate_reports_first_offence s
  obtain ⟨-, -, -, hmixed⟩ := validate_reports_first_offence checked
  exact ⟨(herror _).mp (by decide), hsame elsewhere rfl rfl rfl,
    hmixed applied (by decide) (by decide)⟩

end Settings

end ServiceHealth
