import ServiceHealth.Classification
import ServiceHealth.Proofs.Json.Reading

/-!
# The status that a document reports

An answer whose body is a document that reports a status is classified by that status word for
word, as long as the document is within the limits of values. One that nests its containers too
deep, or holds anywhere a number out of range or a literal that spells no text, counts as no
document at all: what it reports is lost, and the code of the answer decides.

## Main definitions

* `Json.LastValue` — the value of the last field with a key.
* `Reports` — the status that the fields of an object report.

## Main results

* `classify_eq_reported_iff` — when the reported status is the status of the answer, and what is
  it otherwise.
* `classify_ignores_report` — an answer whose report is lost.
-/

namespace ServiceHealth

/-! ### The fields of an object -/

namespace Json

/-- The last of the fields with the key has the value. -/
def LastValue (fields : List (Literal × Json)) (key : String) (v : Json) : Prop :=
  ∃ before after, fields = before ++ (some key, v) :: after ∧ ∀ f ∈ after, f.1 ≠ some key

/-- Looking a key up finds its last value. -/
theorem field?_eq_some_iff {fields : List (Literal × Json)} {key : String} {v : Json} :
    (Json.object fields).field? key = some v ↔ LastValue fields key v := by
  rw [field?, Option.map_eq_some_iff]
  constructor
  · rintro ⟨⟨k, w⟩, hfind, rfl⟩
    obtain ⟨hkey, before, after, hsplit, hafter⟩ := List.find?_eq_some_iff_append.mp hfind
    obtain rfl : k = some key := by simpa using hkey
    refine ⟨after.reverse, before.reverse, ?_, fun f hf => ?_⟩
    · rw [← List.reverse_reverse fields, hsplit]
      simp
    · simpa using hafter f (List.mem_reverse.mp hf)
  · rintro ⟨before, after, rfl, hafter⟩
    refine ⟨(some key, v), ?_, rfl⟩
    rw [List.find?_eq_some_iff_append]
    refine ⟨by simp, after.reverse, before.reverse, by simp, fun f hf => ?_⟩
    simpa using hafter f (List.mem_reverse.mp hf)

/-- An object is written with a brace. -/
theorem Element.brace_mem {fields : List (Literal × Json)} {cs : List Char}
    (h : Element (.object fields) cs) : '{' ∈ cs := by
  cases h with
  | mk _ hv _ => cases hv <;> simp

/-- The text of an object is not blank. -/
theorem IsDocument.isBlank_eq {fields : List (Literal × Json)} {text : String}
    (h : IsDocument (.object fields) text) : Text.isBlank text = false := by
  rw [Text.isBlank, List.all_eq_false]
  exact ⟨'{', Element.brace_mem h, by decide⟩

end Json

open Json

/-- The status that the fields of an object report: the text that is the last value of `status`
or, when that is absent or no string, the one that is the last value of `Status`. -/
def Reports (fields : List (Literal × Json)) (s : String) : Prop :=
  LastValue fields "status" (.text s) ∨
    (∀ l, ¬ LastValue fields "status" (.string l)) ∧ LastValue fields "Status" (.text s)

/-- The reported status is found. -/
theorem Reports.reportedStatus?_eq {fields : List (Literal × Json)} {s : String}
    (h : Reports fields s) : reportedStatus? (.object fields) = some s := by
  rcases h with hstatus | ⟨hno, hother⟩
  · rw [reportedStatus?, field?_eq_some_iff.mpr hstatus]
    rfl
  · have hnone : ((Json.object fields).field? "status").bind Json.text? = none := by
      cases hfield : (Json.object fields).field? "status" with
      | none => rfl
      | some v =>
        cases v with
        | string l => exact absurd (field?_eq_some_iff.mp hfield) (hno l)
        | _ => rfl
    rw [reportedStatus?, hnone, field?_eq_some_iff.mpr hother]
    rfl

/-! ### Classification -/

variable {fields : List (Literal × Json)} {text s : String}

/-- An answer whose body reports a status has that status, if the body is within the limits of
values, and else the one of its code. -/
theorem classify_document (code : StatusCode) (hdoc : IsDocument (.object fields) text)
    (hreports : Reports fields s) :
    classify code text =
      if (Json.object fields).withinLimits then ⟨s⟩ else .ofHealth code.status := by
  rw [classify, hdoc.isBlank_eq, hdoc.parseValue?_eq]
  by_cases hlimits : (Json.object fields).withinLimits = true
  · simp [hlimits, hreports.reportedStatus?_eq]
  · simp [hlimits]

/-- An answer whose body reports a status has just that status if the body is within the limits
of values or its code says the same; beyond the limits its code decides. -/
theorem classify_eq_reported_iff (code : StatusCode) (hdoc : IsDocument (.object fields) text)
    (hreports : Reports fields s) :
    (classify code text = ⟨s⟩ ↔
        (Json.object fields).withinLimits = true ∨ s = code.status.name) ∧
      ((Json.object fields).withinLimits = false → classify code text = .ofHealth code.status) := by
  have hclassify := classify_document code hdoc hreports
  by_cases hlimits : (Json.object fields).withinLimits = true
  · rw [if_pos hlimits] at hclassify
    exact ⟨iff_of_true hclassify (.inl hlimits), fun h => absurd hlimits (by rw [h]; decide)⟩
  · rw [if_neg hlimits] at hclassify
    refine ⟨?_, fun _ => hclassify⟩
    rw [hclassify]
    constructor
    · intro h
      exact .inr (congrArg MemberStatus.text h).symm
    · rintro (h | rfl)
      · exact absurd h hlimits
      · rfl

/-- A text under `Status` beside a `status` that is no string, in a body within the limits. -/
theorem classify_of_second_key :
    classify ⟨503, by decide, by decide⟩
      (Json.object [(some "Status", .text "Degraded"), (some "status", .nat 7)]).render =
        ⟨"Degraded"⟩ := by
  have hreports : Reports [(some "Status", .text "Degraded"), (some "status", .nat 7)]
      "Degraded" := by
    refine .inr ⟨fun l hl => ?_, field?_eq_some_iff.mp (by simp [field?])⟩
    have hfield := field?_eq_some_iff.mpr hl
    simp [field?] at hfield
  exact (classify_eq_reported_iff _ (isDocument_render _) hreports).1.mpr (.inl (by decide +kernel))

/-- A number out of range beside the status: a member that reports `Unhealthy` is healthy. -/
theorem classify_ignores_report :
    IsDocument (.object [(some "status", .text "Unhealthy"),
        (some "load", .number ⟨false, 1, [], some ⟨false, none, 4, [0, 0]⟩⟩)])
      "\x7b\"status\":\"Unhealthy\",\"load\":1e400\x7d" ∧
    Reports [(some "status", .text "Unhealthy"),
        (some "load", .number ⟨false, 1, [], some ⟨false, none, 4, [0, 0]⟩⟩)] "Unhealthy" ∧
    classify ⟨200, by decide, by decide⟩ "\x7b\"status\":\"Unhealthy\",\"load\":1e400\x7d" =
      .ofHealth .healthy := by
  have hrender : (Json.object [(some "status", .text "Unhealthy"),
      (some "load", .number ⟨false, 1, [], some ⟨false, none, 4, [0, 0]⟩⟩)]).render =
      "\x7b\"status\":\"Unhealthy\",\"load\":1e400\x7d" := by decide +kernel
  have hdoc := hrender ▸ isDocument_render (.object [(some "status", .text "Unhealthy"),
    (some "load", .number ⟨false, 1, [], some ⟨false, none, 4, [0, 0]⟩⟩)])
  have hreports : Reports [(some "status", .text "Unhealthy"),
      (some "load", .number ⟨false, 1, [], some ⟨false, none, 4, [0, 0]⟩⟩)] "Unhealthy" :=
    .inl (field?_eq_some_iff.mp (by simp [field?]))
  refine ⟨hdoc, hreports, ?_⟩
  rw [classify_document _ hdoc hreports, if_neg (by decide +kernel)]
  rfl

end ServiceHealth
