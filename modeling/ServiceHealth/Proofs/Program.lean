import Mathlib.Data.List.Induction
import ServiceHealth.Program
import ServiceHealth.Proofs.Service
import ServiceHealth.Proofs.Settings.File

/-!
# Runs of the program

A run begins with the settings of its file. At every hangup the file is loaded again, whatever it
holds then, while any number of requests are under way and look at the current settings. Only a load
that succeeds changes these, so they are always those of the last load that succeeded, which was the
start if none has since. What a look has seen was therefore loaded at some time, and is valid.

## Main definitions

* `Serving`, `Serving.Event`, `Serving.react`, `Serving.during` — a run, what happens in it, and all
  that happens from its start.
* `LastLoaded` — the settings of the last load that succeeded.
* `Serving.Sound` — the invariant.

## Main results

* `Serving.settings_are_last_loaded` — the current settings, and those that any look has seen.
-/

namespace ServiceHealth

open Server

/-! ### Requests keep the settings -/

/-- A step of a request keeps the settings. -/
theorem Server.Handler.settings_step (h : Handler) (v : Service) (stage : Stage) :
    (h.step v stage).2.settings = v.settings := by
  cases stage with
  | received r =>
    rw [step]
    cases gate h.basePath v.settings r <;> rfl
  | admitted q => exact v.settings_ask h.probing h.clock v.settings none q
  | answered => rfl

/-! ### Runs -/

/-- A run of the program: the requests that came in, with the stages that they have reached, and the
settings that each look at them has seen so far. -/
structure Serving where
  program : Program
  stages : List Stage := []
  looks : List Settings := []

namespace Serving

/-- What happens in a run: a hangup, and what the file holds then; a request comes in; or a request
takes its next step. -/
inductive Event
  | hangup (content : Option ByteArray)
  | request (r : Request)
  | advance (i : Nat)

/-- What the file holds when it is loaded. -/
def Event.contents : Event → List (Option ByteArray)
  | .hangup content => [content]
  | _ => []

/-- A request takes its next step, and looks at the settings unless it has been answered. -/
def advance (network : Net.Network) (clock : Nat → Timestamp) (x : Serving) (i : Nat) : Serving :=
  match x.stages[i]? with
  | none | some (.answered ..) => x
  | some stage =>
    let (next, service) := (x.program.handler network clock).step x.program.service stage
    { program := { x.program with service }
      stages := x.stages.set i next
      looks := x.looks ++ [x.program.service.settings] }

/-- One event. -/
def react (network : Net.Network) (clock : Nat → Timestamp) (x : Serving) : Event → Serving
  | .hangup content => { x with program := (x.program.reload content).2 }
  | .request r => { x with stages := x.stages ++ [.received r] }
  | .advance i => x.advance network clock i

/-- All that happens from the start of a run. -/
def during (network : Net.Network) (clock : Nat → Timestamp) (p : Program)
    (events : List Event) : Serving :=
  events.foldl (react network clock) ⟨p, [], []⟩

end Serving

/-- The settings of the last load that succeeded, when a file was loaded with several contents. -/
def LastLoaded (path : String) (contents : List (Option ByteArray)) (s : Settings) : Prop :=
  ∃ before content after, contents = before ++ content :: after ∧ Settings.Loads path content s ∧
    ∀ later ∈ after, ∃ e, Settings.LoadFails path later e

namespace LastLoaded

variable {path : String} {contents : List (Option ByteArray)} {content : Option ByteArray}
  {s s' : Settings}

/-- A load that succeeds is the last one. -/
theorem append_loads (hloads : Settings.Loads path content s) :
    LastLoaded path (contents ++ [content]) s :=
  ⟨contents, content, [], rfl, hloads, by simp⟩

/-- A load that fails leaves the last one. -/
theorem append_fails (h : LastLoaded path contents s) {e : LoadError}
    (hfails : Settings.LoadFails path content e) : LastLoaded path (contents ++ [content]) s := by
  obtain ⟨before, last, after, rfl, hloads, hafter⟩ := h
  refine ⟨before, last, after ++ [content], by simp, hloads, fun later hlater => ?_⟩
  rcases List.mem_append.mp hlater with hlater | hlater
  · exact hafter later hlater
  · exact ⟨e, List.mem_singleton.mp hlater ▸ hfails⟩

/-- The last load is one of all loads. -/
theorem exists_loads (h : LastLoaded path contents s) :
    ∃ content ∈ contents, Settings.Loads path content s := by
  obtain ⟨before, content, after, rfl, hloads, -⟩ := h
  exact ⟨content, by simp, hloads⟩

end LastLoaded

/-- Settings that a file gives are valid. -/
theorem Settings.Loads.validate_eq {path : String} {content : Option ByteArray} {s : Settings}
    (h : Settings.Loads path content s) : s.validate = .ok () := by
  cases h with
  | valid _ _ hvalid => exact hvalid

namespace Program

variable {p : Program} {content : Option ByteArray}

/-- A hangup when the file gives settings makes these current. -/
theorem reload_of_loads {s : Settings} (h : Settings.Loads p.path content s) :
    p.reload content = (.ok s, { p with service := p.service.swap s }) := by
  rw [reload, h.load_eq]

/-- A hangup when the file fails changes nothing. -/
theorem reload_of_fails {e : LoadError} (h : Settings.LoadFails p.path content e) :
    p.reload content = (.error e, p) := by
  rw [reload, h.load_eq]

/-- A run that starts has loaded its file. -/
theorem start_eq_ok {path : String} (h : start path content = .ok p) :
    p.path = path ∧ Settings.Loads path content p.service.settings := by
  rw [start] at h
  cases hload : Settings.load path content with
  | error e => simp [hload, bind, Except.bind] at h
  | ok s =>
    rw [hload] at h
    obtain rfl := Except.ok.inj h
    exact ⟨rfl, Settings.load_eq_ok_iff.mp hload⟩

end Program

namespace Serving

variable {network : Net.Network} {clock : Nat → Timestamp} {path : String}
  {contents : List (Option ByteArray)} {x : Serving}

/-- What is true of a run whose file was loaded with several contents: the current settings are
those of the last load that succeeded, and each look has seen settings that were loaded. -/
structure Sound (path : String) (contents : List (Option ByteArray)) (x : Serving) : Prop where
  file : x.program.path = path
  current : LastLoaded path contents x.program.service.settings
  looks : ∀ s ∈ x.looks, ∃ content ∈ contents, Settings.Loads path content s

/-- A hangup keeps what is true of a run. -/
theorem Sound.hangup (hx : Sound path contents x) (content : Option ByteArray) :
    Sound path (contents ++ [content]) (x.react network clock (.hangup content)) := by
  obtain ⟨rfl, hcurrent, hlooks⟩ := hx
  have hlooks' : ∀ s ∈ x.looks, ∃ content' ∈ contents ++ [content],
      Settings.Loads x.program.path content' s := by
    intro s hs
    obtain ⟨content', hmem, hloads⟩ := hlooks s hs
    exact ⟨content', List.mem_append_left _ hmem, hloads⟩
  rw [react]
  cases hload : Settings.load x.program.path content with
  | ok s =>
    have hloads := Settings.load_eq_ok_iff.mp hload
    rw [Program.reload_of_loads hloads]
    exact ⟨rfl, .append_loads hloads, hlooks'⟩
  | error e =>
    have hfails := Settings.load_eq_error_iff.mp hload
    rw [Program.reload_of_fails hfails]
    exact ⟨rfl, hcurrent.append_fails hfails, hlooks'⟩

/-- A step of a request keeps what is true of a run. -/
theorem Sound.advance (hx : Sound path contents x) (i : Nat) :
    Sound path contents (x.advance network clock i) := by
  rw [Serving.advance]
  split
  next => exact hx
  next => exact hx
  next stage _ _ =>
    -- The look sees what was current before the step, and the step leaves that current.
    refine ⟨hx.file, ?_, ?_⟩
    · show LastLoaded path contents
        ((x.program.handler network clock).step x.program.service stage).2.settings
      rw [Handler.settings_step]
      exact hx.current
    · intro s hs
      rcases List.mem_append.mp hs with hs | hs
      · exact hx.looks s hs
      · exact List.mem_singleton.mp hs ▸ hx.current.exists_loads

/-- **Step.** An event keeps what is true of a run. -/
theorem Sound.react (hx : Sound path contents x) (e : Event) :
    Sound path (contents ++ e.contents) (x.react network clock e) := by
  have hnone : contents ++ [] = contents := List.append_nil contents
  cases e with
  | hangup content => exact hx.hangup content
  | request r => exact hnone.symm ▸ ⟨hx.file, hx.current, hx.looks⟩
  | advance i => exact hnone.symm ▸ hx.advance i

/-- **Run.** It is true of a run at every point from a successful start on. -/
theorem sound_during {content : Option ByteArray} {p : Program}
    (hstart : Program.start path content = .ok p) (events : List Event) :
    Sound path (content :: events.flatMap Event.contents) (during network clock p events) := by
  induction events using List.reverseRecOn with
  | nil =>
    obtain ⟨hpath, hloads⟩ := Program.start_eq_ok hstart
    have hfirst : LastLoaded path ([] ++ [content]) p.service.settings := .append_loads hloads
    exact ⟨hpath, hfirst, by simp [during]⟩
  | append_singleton events e ih =>
    rw [during, List.foldl_append, List.flatMap_append, List.flatMap_singleton,
      ← List.cons_append]
    exact ih.react e

/-- **The current settings are those of the last load that succeeded.** After a successful start,
whatever the file holds at each hangup and whatever steps the requests take between them, the
current settings are valid and those of the last load that succeeded, the start being the first
one. A hangup when the file cannot be read, is no text, cannot be parsed or holds settings that are
not valid changes nothing at all, and one when the file gives settings makes these current. Every
look of a request has seen well-formed settings that were loaded. -/
theorem settings_are_last_loaded {content : Option ByteArray} {p : Program}
    (hstart : Program.start path content = .ok p) (network : Net.Network)
    (clock : Nat → Timestamp) (events : List Event) :
    let x := during network clock p events
    let contents := content :: events.flatMap Event.contents
    x.program.service.settings.validate = .ok () ∧
    LastLoaded path contents x.program.service.settings ∧
    (∀ content' e, Settings.LoadFails path content' e →
      x.program.reload content' = (.error e, x.program) ∧
      x.react network clock (.hangup content') = x) ∧
    (∀ content' s, Settings.Loads path content' s →
      (x.react network clock (.hangup content')).program.service = x.program.service.swap s) ∧
    ∀ s ∈ x.looks, s.WellFormed ∧ ∃ content' ∈ contents, Settings.Loads path content' s := by
  intro x contents
  obtain ⟨rfl, hcurrent, hlooks⟩ : Sound path contents x := sound_during hstart events
  obtain ⟨_, -, hloads⟩ := hcurrent.exists_loads
  refine ⟨hloads.validate_eq, hcurrent, ?_, ?_, ?_⟩
  · intro content' e hfails
    have hreload := Program.reload_of_fails hfails
    exact ⟨hreload, by rw [react, hreload]⟩
  · intro content' s hloads'
    rw [react, Program.reload_of_loads hloads']
  · intro s hs
    obtain ⟨content', hmem, hloads'⟩ := hlooks s hs
    exact ⟨Settings.wellFormed_of_validate hloads'.validate_eq, content', hmem, hloads'⟩

/-- A request whose looks lie before and behind five hangups: the file is missing, no text, no
document and not valid before it gives other settings, and is missing again in the end. -/
theorem settings_are_last_loaded_of_five_hangups :
    let holding (text : String) : Option ByteArray := some text.toUTF8
    let content := holding "\x7b\"applications\":[\x7b\"name\":\"A\"\x7d]\x7d"
    let content' := holding "\x7b\"applications\":[\x7b\"name\":\"B\"\x7d]\x7d"
    let s : Settings := { applications := [⟨"A", []⟩] }
    let s' : Settings := { applications := [⟨"B", []⟩] }
    let p : Program := ⟨"config.json", s, .ofSettings s false⟩
    let events : List Event :=
      [.request ⟨.get, ⟨"/api/health/applications"⟩⟩, .hangup none, .hangup (some ⟨#[0xFF]⟩),
        .advance 0, .hangup (holding "\x7b"),
        .hangup (holding "\x7b\"probe\":\x7b\"timeout_ms\":0\x7d\x7d"), .hangup content',
        .advance 0, .hangup none]
    let x := during .silent (fun _ => default) p events
    Program.start "config.json" content = .ok p ∧
    x.program.service.settings = s' ∧ x.program.service.settings.validate = .ok () ∧
    x.looks = [s, s'] ∧ s.WellFormed ∧ s'.WellFormed ∧
    x.react .silent (fun _ => default) (.hangup (holding "[")) = x := by
  intro holding content content' s s' p events x
  have hstart : Program.start "config.json" content = .ok p := by decide +kernel
  obtain ⟨hvalid, -, hfails, -, hlooks⟩ :=
    settings_are_last_loaded hstart .silent (fun _ => default) events
  have hseen : x.looks = [s, s'] := by decide +kernel
  have htext : String.fromUTF8? "[".toUTF8 = some "[" := by decide +kernel
  have hunparsable : Settings.LoadFails "config.json" (holding "[") (.parse .json) :=
    .unparsable htext (by decide +kernel)
  refine ⟨hstart, by decide +kernel, hvalid, hseen, ?_, ?_, (hfails _ _ hunparsable).2⟩
  · exact (hlooks s (by rw [hseen]; simp)).1
  · exact (hlooks s' (by rw [hseen]; simp)).1

end Serving

end ServiceHealth
