import ServiceHealth.Proofs.Classification
import ServiceHealth.Proofs.Json.Recognition
import ServiceHealth.Proofs.Json.Value

/-!
# One status for all spellings

The status of an answer depends on what its body says and not on how that is spelled. A body that
spells a value within the limits of reading gives the string that the value has under `status`,
or else under `Status`; every other body, and every value without such a string, leaves the
status to the code, of which only the success counts.

The limits are those of depth, of strings that spell no text, and of numbers: a number that
denotes more than the third greatest double may be taken for one out of range, although it is not.

## Main definitions

* `Value.reported?` — the status that a value reports.
* `Spells` — a text spells a value within the limits of reading.
* `statusFrom` — the status of an answer whose body reports this.

## Main results

* `classify_spelled` — the status of every answer, by the value that its body spells.
* `classify_of_greatest_double` — a finite number that is taken for one out of range.
-/

namespace ServiceHealth

open Json Number

/-- The status that a value reports: its string under `status`, else the one under `Status`. -/
def Value.reported? (v : Value) : Option String :=
  ((v.member? "status").bind Value.text?).or ((v.member? "Status").bind Value.text?)

/-- The text spells the value within the limits of reading. -/
def Spells (text : String) (v : Value) : Prop :=
  ∃ doc : Json, IsDocument doc text ∧ doc.value? = some v ∧ doc.withinLimits = true

/-- The status of an answer whose body reports this: the text reported, or what the code says. -/
def statusFrom (reported : Option String) (code : StatusCode) : MemberStatus :=
  match reported with
  | some s => ⟨s⟩
  | none => .ofHealth (if 200 ≤ code.value ∧ code.value ≤ 299 then .healthy else .unhealthy)

/-- Without a report the code is what counts. -/
theorem statusFrom_none (code : StatusCode) : statusFrom none code = .ofHealth code.status := by
  have hsuccess : code.isSuccess = decide (200 ≤ code.value ∧ code.value ≤ 299) := by
    rw [StatusCode.isSuccess, ← Bool.decide_and, decide_eq_decide]
    omega
  rw [statusFrom, StatusCode.status, HealthStatus.ofSuccess, hsuccess]
  simp only [decide_eq_true_eq]

/-- The texts under a key are those of the value. -/
theorem bind_text?_eq {doc : Json} {v : Value} (h : doc.value? = some v) (key : String) :
    (doc.field? key).bind Json.text? = (v.member? key).bind Value.text? := by
  have hmembers := map_value?_eq h key
  cases hfield : doc.field? key with
  | none =>
    rw [hfield, Option.map_none, eq_comm, Option.map_eq_none_iff] at hmembers
    rw [hmembers, Option.bind_none, Option.bind_none]
  | some j =>
    rw [hfield, Option.map_some, eq_comm, Option.map_eq_some_iff] at hmembers
    obtain ⟨w, hmember, hvalue⟩ := hmembers
    rw [hmember, Option.bind_some, Option.bind_some, text?_eq hvalue.symm]

/-- A document reports what its value reports. -/
theorem reportedStatus?_eq {doc : Json} {v : Value} (h : doc.value? = some v) :
    reportedStatus? doc = v.reported? := by
  rw [reportedStatus?, bind_text?_eq h, bind_text?_eq h, Value.reported?]

/-- A blank text reports nothing. -/
theorem reportedStatus?_of_isBlank {doc : Json} {text : String} (hdoc : IsDocument doc text)
    (hblank : Text.isBlank text = true) : reportedStatus? doc = none := by
  cases doc with
  | object fields =>
    rw [hdoc.isBlank_eq] at hblank
    cases hblank
  | _ => rfl

variable {text : String} {v : Value}

/-- An answer whose body spells a value has the status that the value gives. -/
theorem classify_of_spells (code : StatusCode) (h : Spells text v) :
    classify code text = statusFrom v.reported? code := by
  obtain ⟨doc, hdoc, hvalue, hlimits⟩ := h
  have hread := parseValue?_eq_some_iff.mpr ⟨hdoc, hlimits⟩
  rw [← reportedStatus?_eq hvalue, classify, hread, Option.bind_some]
  by_cases hblank : Text.isBlank text = true
  · rw [if_pos hblank, reportedStatus?_of_isBlank hdoc hblank, statusFrom_none]
  · rw [if_neg hblank]
    cases reportedStatus? doc with
    | none => exact (statusFrom_none code).symm
    | some s => rfl

/-- An answer whose body is blank or spells no value has the status of its code. -/
theorem classify_of_not_spells (code : StatusCode)
    (h : Text.isBlank text = true ∨ ∀ v, ¬ Spells text v) :
    classify code text = statusFrom none code := by
  rw [classify, statusFrom_none]
  rcases h with hblank | hnone
  · rw [if_pos hblank]
  · have hread : Json.parseValue? text = none := by
      refine Option.eq_none_iff_forall_ne_some.mpr fun doc hread => ?_
      obtain ⟨hdoc, hlimits⟩ := parseValue?_eq_some_iff.mp hread
      obtain ⟨v, hv⟩ := exists_value? doc (withinLimits_iff.mp hlimits).2.2
      exact hnone v ⟨doc, hdoc, hv, hlimits⟩
    rw [hread, Option.bind_none, ite_self]

/-- A text that spells a value is within the limits if its containers, its strings and its numbers
are, of which those up to the third greatest double are. -/
theorem spells_of_magnitude_le {doc : Json} (hdoc : IsDocument doc text)
    (hvalue : doc.value? = some v) (hdepth : doc.depth < 128)
    (hliterals : ∀ l ∈ doc.literals, l ≠ none)
    (hnumerals : ∀ n ∈ doc.numerals, |n.value| ≤ (2 ^ 53 - 3) * 2 ^ (971 : Int)) :
    Spells text v := by
  refine ⟨doc, hdoc, hvalue, withinLimits_iff.mpr ⟨hdepth, fun n hn => ?_, hliterals⟩⟩
  exact Numeral.isFinite_of_magnitude_le (n.abs_value ▸ hnumerals n hn)

/-- A text of a document beyond one of the limits spells no value within them. -/
theorem not_spells_of_beyond {doc : Json} (hdoc : IsDocument doc text)
    (h : 128 ≤ doc.depth ∨ none ∈ doc.literals ∨
      ∃ n ∈ doc.numerals, (2 ^ 53 + 4) * 2 ^ (971 : Int) ≤ |n.value|) : ¬ Spells text v := by
  rintro ⟨doc', hdoc', -, hlimits⟩
  obtain rfl := hdoc'.unique hdoc
  obtain ⟨hdepth, hnumerals, hliterals⟩ := withinLimits_iff.mp hlimits
  rcases h with hdeep | hnone | ⟨n, hn, hgreat⟩
  · omega
  · exact hliterals none hnone rfl
  · have hfinite := hnumerals n hn
    rw [Numeral.isFinite_eq_false_of_le_magnitude (n.abs_value ▸ hgreat)] at hfinite
    cases hfinite

/-- The status of an answer is that of the value that its body spells within the limits of
reading, and that of its code if the body is blank or spells none. Whether a document is within
the limits is decided by its depth, its strings and the numbers that it holds, but for numbers
around the greatest doubles. Answers whose bodies report the same have the same status, whatever
the spellings and, unless nothing is reported, the codes. -/
theorem classify_spelled (code : StatusCode) (text : String) :
    (∀ v, Spells text v → classify code text = statusFrom v.reported? code) ∧
    (Text.isBlank text = true ∨ (∀ v, ¬ Spells text v) →
      classify code text = statusFrom none code) ∧
    (∀ doc v, IsDocument doc text → doc.value? = some v → doc.depth < 128 →
      (∀ l ∈ doc.literals, l ≠ none) →
      (∀ n ∈ doc.numerals, |n.value| ≤ (2 ^ 53 - 3) * 2 ^ (971 : Int)) → Spells text v) ∧
    (∀ doc, IsDocument doc text →
      (128 ≤ doc.depth ∨ none ∈ doc.literals ∨
        ∃ n ∈ doc.numerals, (2 ^ 53 + 4) * 2 ^ (971 : Int) ≤ |n.value|) →
      ∀ v, ¬ Spells text v) ∧
    (∀ code' text' v v', Spells text v → Spells text' v' → v.reported? = v'.reported? →
      (code.isSuccess = code'.isSuccess ∨ v.reported? ≠ none) →
      classify code text = classify code' text') := by
  refine ⟨fun v => classify_of_spells code, classify_of_not_spells code,
    fun doc v => spells_of_magnitude_le, fun doc hdoc h v => not_spells_of_beyond hdoc h, ?_⟩
  intro code' text' v v' hspells hspells' hreported hcodes
  rw [classify_of_spells code hspells, classify_of_spells code' hspells', ← hreported]
  cases hreport : v.reported? with
  | some s => rfl
  | none =>
    have hsuccess := hcodes.resolve_right (absurd hreport)
    rw [statusFrom_none, statusFrom_none, StatusCode.status, StatusCode.status, hsuccess]

/-- A report with white space, escapes, a key that comes twice and the other key further inside. -/
def spelledReport : String :=
  "\x7b\"status\":\"Healthy\",\n\"inner\": \x7b\"Status\":2\x7d," ++
    "\"st\\u0061tus\" :\"\\u0044egraded\"\x7d "

/-- The last field under the key is what counts, with a code of failure. -/
theorem classify_spelled_of_escapes :
    IsDocument (.object [(some "status", .text "Healthy"), (some "inner", .object
      [(some "Status", .nat 2)]), (some "status", .text "Degraded")]) spelledReport ∧
    classify ⟨503, by decide, by decide⟩ spelledReport = ⟨"Degraded"⟩ := by
  have hdoc : IsDocument (.object [(some "status", .text "Healthy"), (some "inner", .object
      [(some "Status", .nat 2)]), (some "status", .text "Degraded")]) spelledReport :=
    isDocument_of_render_eq (by decide +kernel)
  obtain ⟨hstatus, -, hwithin, -, -⟩ := classify_spelled ⟨503, by decide, by decide⟩ spelledReport
  refine ⟨hdoc, hstatus _ (hwithin _ _ hdoc rfl (by decide) (by decide) ?_)⟩
  intro n hn
  obtain rfl : n = .ofNat 2 := by simpa [numerals, numeralsOfFields] using hn
  rw [Numeral.abs_value, Numeral.magnitude_ofNat]
  exact le_trans (by norm_num) Numeral.pow_hundred_le

/-! ### At the greatest double -/

/-- A number just below the greatest double. -/
def greatNumeral : Numeral :=
  ⟨false, 1, fixedDigits 18 797693134862315708, some (.ofInt 308)⟩

/-- The number is not greater than the greatest double. -/
theorem abs_greatNumeral_le : |greatNumeral.value| ≤ Binary64.greatest := by
  have hdigits : extended greatNumeral.whole greatNumeral.fraction = 1797693134862315708 := by
    decide
  have hpower : greatNumeral.power = 308 := Exponent.value_ofInt 308
  have hplaces : greatNumeral.power - greatNumeral.fraction.length = 290 := by rw [hpower]; rfl
  have hmantissa : (2 : ℚ) ^ 53 - 1 = 9007199254740991 := by norm_num
  have hcompare : 1797693134862315708 * 10 ^ 290 ≤ 9007199254740991 * 2 ^ 971 := by
    decide +kernel
  rw [Numeral.abs_value, Numeral.magnitude, hdigits, hplaces, Binary64.greatest, hmantissa]
  exact_mod_cast hcompare

/-- A report with this number beside the status. -/
def greatReport : String := "\x7b\"status\":\"Degraded\",\"load\":1.797693134862315708e+308\x7d"

/-- A finite number that is taken for one out of range: a member that reports `Degraded` is
healthy. -/
theorem classify_of_greatest_double :
    ∃ doc v, IsDocument doc greatReport ∧ doc.value? = some v ∧ doc.depth < 128 ∧
      (∀ l ∈ doc.literals, l ≠ none) ∧ (∀ n ∈ doc.numerals, |n.value| ≤ Binary64.greatest) ∧
      v.reported? = some "Degraded" ∧
      classify ⟨200, by decide, by decide⟩ greatReport = .ofHealth .healthy := by
  refine ⟨.object [(some "status", .text "Degraded"), (some "load", .number greatNumeral)], _,
    isDocument_of_render_eq (by decide +kernel), rfl, by decide, by decide, ?_, by decide +kernel,
    by decide +kernel⟩
  intro n hn
  obtain rfl : n = greatNumeral := by simpa [numerals, numeralsOfFields] using hn
  exact abs_greatNumeral_le

end ServiceHealth
