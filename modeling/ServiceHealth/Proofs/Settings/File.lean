import ServiceHealth.Proofs.Settings
import ServiceHealth.Settings.File

/-!
# Loading settings

A file gives settings just when it can be read, is text, holds settings and these are valid. It
fails at the first of these stages that it does not pass, and the error tells which one that is.

## Main definitions

* `Settings.WellFormed` — what validity means for names and the timeout.
* `Settings.Loads`, `Settings.LoadFails` — files that give settings, and files that fail.

## Main results

* `Settings.load_eq_ok_iff`, `Settings.load_eq_error_iff` — what loading a file gives.
-/

namespace ServiceHealth.Settings

/-- Names are given and differ, in both lists, and the timeout is positive. -/
structure WellFormed (s : Settings) : Prop where
  healthChecks_ne : ∀ check ∈ s.healthChecks, check.name ≠ ""
  healthChecks_nodup : (s.healthChecks.map (·.name)).Nodup
  applications_ne : ∀ app ∈ s.applications, app.name ≠ ""
  applications_nodup : (s.applications.map (·.name)).Nodup
  timeout_pos : 0 < s.probe.timeoutMs

/-- Valid settings are well-formed. -/
theorem wellFormed_of_validate {s : Settings} (h : s.validate = .ok ()) : s.WellFormed := by
  obtain ⟨⟨hchecks, hchecksNodup⟩, ⟨happs, happsNodup⟩, htimeout⟩ := validate_eq_ok_iff.mp h
  exact ⟨hchecks, hchecksNodup, happs, happsNodup, UInt64.pos_iff_ne_zero.mpr htimeout⟩

/-- What a file holds gives settings: it is text of the format, and the settings are valid. -/
inductive Loads (path : String) : Option ByteArray → Settings → Prop
  | valid {bytes text s} : String.fromUTF8? bytes = some text →
      parse? (.ofPath path) text = some s → s.validate = .ok () → Loads path (some bytes) s

/-- What a file holds gives no settings: there is nothing to be read, it is no text, no text of the
format, or settings that are not valid. -/
inductive LoadFails (path : String) : Option ByteArray → LoadError → Prop
  | missing : LoadFails path none (.read path)
  | notText {bytes} : String.fromUTF8? bytes = none → LoadFails path (some bytes) (.read path)
  | unparsable {bytes text} : String.fromUTF8? bytes = some text →
      parse? (.ofPath path) text = none → LoadFails path (some bytes) (.parse (.ofPath path))
  | invalid {bytes text s fault} : String.fromUTF8? bytes = some text →
      parse? (.ofPath path) text = some s → s.validate = .error fault →
      LoadFails path (some bytes) (.invalid fault)

variable {path : String} {content : Option ByteArray}

/-- Settings that a file gives are loaded. -/
theorem Loads.load_eq {s : Settings} (h : Loads path content s) : load path content = .ok s := by
  cases h with
  | valid htext hparse hvalid =>
    simp only [load, Option.bind_some, htext, hparse, fault?_eq_none_iff.mpr hvalid]

/-- Loading a file that fails gives its error. -/
theorem LoadFails.load_eq {e : LoadError} (h : LoadFails path content e) :
    load path content = .error e := by
  cases h with
  | missing => rfl
  | notText htext => simp only [load, Option.bind_some, htext]
  | unparsable htext hparse => simp only [load, Option.bind_some, htext, hparse]
  | invalid htext hparse hinvalid =>
    simp only [load, Option.bind_some, htext, hparse, fault?_eq_some_iff.mpr hinvalid]

/-- A file gives settings or fails. -/
theorem loads_or_fails (path : String) (content : Option ByteArray) :
    (∃ s, Loads path content s) ∨ ∃ e, LoadFails path content e := by
  cases content with
  | none => exact .inr ⟨_, .missing⟩
  | some bytes =>
    cases htext : String.fromUTF8? bytes with
    | none => exact .inr ⟨_, .notText htext⟩
    | some text =>
      cases hparse : parse? (.ofPath path) text with
      | none => exact .inr ⟨_, .unparsable htext hparse⟩
      | some s =>
        cases hvalid : s.validate with
        | error fault => exact .inr ⟨_, .invalid htext hparse hvalid⟩
        | ok => exact .inl ⟨s, .valid htext hparse hvalid⟩

/-- Loading gives settings just when the file does. -/
theorem load_eq_ok_iff {s : Settings} : load path content = .ok s ↔ Loads path content s := by
  refine ⟨fun h => ?_, Loads.load_eq⟩
  rcases loads_or_fails path content with ⟨s', hs'⟩ | ⟨e, he⟩
  · obtain rfl := Except.ok.inj (hs'.load_eq.symm.trans h)
    exact hs'
  · cases he.load_eq.symm.trans h

/-- Loading gives an error just when the file fails with it. -/
theorem load_eq_error_iff {e : LoadError} :
    load path content = .error e ↔ LoadFails path content e := by
  refine ⟨fun h => ?_, LoadFails.load_eq⟩
  rcases loads_or_fails path content with ⟨s, hs⟩ | ⟨e', he'⟩
  · cases hs.load_eq.symm.trans h
  · obtain rfl := Except.error.inj (he'.load_eq.symm.trans h)
    exact he'

end ServiceHealth.Settings
