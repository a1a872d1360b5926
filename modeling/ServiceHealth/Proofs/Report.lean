import ServiceHealth.Proofs.Classification
import ServiceHealth.Proofs.Json.Range
import ServiceHealth.Report.Encoding

/-!
# The document of a report as the body of an answer

The document of an application's report is within the limits of values whatever texts its members
hold: every text is one literal, containers nest three deep, and the counts and the mean are in
range as long as durations and lengths fit in 64 bits. Its status stands at the top level, so an
answer with this document is classified by the status of the application.

## Main results

* `ApplicationReport.value_averageDurationMs_le` — the size of the mean.
* `ApplicationReport.withinLimits_toJson` — the document of a report is accepted as a value.
* `ApplicationReport.classify_render` — the status of an answer with this document.
-/

namespace ServiceHealth

open Number Json

/-! ### Members -/

/-- The fields of a member are texts, a number and perhaps a text. -/
theorem MemberReport.depth_toJson (m : MemberReport) : m.toJson.depth = 1 := by
  obtain ⟨name, uri, status, durationMs, payload⟩ := m
  cases payload <;> rfl

/-- The document of a member is plain if its duration fits in 64 bits. -/
theorem MemberReport.isPlain_toJson {m : MemberReport} (h : m.durationMs < UInt64.size) :
    m.toJson.isPlain = true := by
  have hduration := Numeral.isFinite_ofNat h
  obtain ⟨name, uri, status, durationMs, payload⟩ := m
  cases payload <;> simp [toJson, isPlain, arePlainFields, hduration]

/-- Documents of members nest one deep. -/
theorem depthOfItems_members_le (ms : List MemberReport) :
    depthOfItems (ms.map MemberReport.toJson) ≤ 1 := by
  induction ms with
  | nil => exact Nat.zero_le 1
  | cons m ms ih =>
    rw [List.map_cons, depthOfItems, m.depth_toJson]
    exact Nat.max_le.mpr ⟨Nat.le_refl 1, ih⟩

/-- Documents of members whose durations fit in 64 bits are plain. -/
theorem arePlain_members {ms : List MemberReport} (h : ∀ m ∈ ms, m.durationMs < UInt64.size) :
    arePlain (ms.map MemberReport.toJson) = true := by
  induction ms with
  | nil => rfl
  | cons m ms ih =>
    rw [List.forall_mem_cons] at h
    rw [List.map_cons, arePlain, MemberReport.isPlain_toJson h.1, ih h.2]
    rfl

namespace ApplicationReport

variable {r : ApplicationReport}

/-! ### Durations -/

/-- A member takes no longer than all members together. -/
theorem durationMs_le_total {m : MemberReport} (hm : m ∈ r.members) :
    m.durationMs ≤ r.totalDurationMs := by
  rw [totalDurationMs]
  generalize r.members = ms at hm
  induction ms with
  | nil => cases hm
  | cons n ms ih =>
    rw [List.foldr_cons]
    rcases List.mem_cons.mp hm with rfl | hmem
    · exact Nat.le_add_right _ _
    · exact (ih hmem).trans (Nat.le_add_left _ _)

/-- The mean before it is rounded to hundredths. -/
def mean (r : ApplicationReport) : Binary64 :=
  Binary64.ofNat r.totalDurationMs / Binary64.ofNat r.totalCount

/-- The mean of durations that together fit in 64 bits is at most `2 ^ 64`. -/
theorem value_mean_le (hne : r.members ≠ []) (hsum : r.totalDurationMs < UInt64.size) :
    r.mean.value ≤ 2 ^ (64 : Int) := by
  have hcount : r.totalCount ≠ 0 := mt List.length_eq_zero_iff.mp hne
  have htotal : (Binary64.ofNat r.totalDurationMs).value ≤ 2 ^ (64 : Int) := by
    refine Binary64.value_ofNat_le ?_
    exact_mod_cast hsum.le
  exact Binary64.value_div_le ((div_le_self (Binary64.value_nonneg _)
    (Binary64.one_le_value_ofNat hcount)).trans htotal)

/-- A number up to `2 ^ 64`, rounded to hundredths by way of its hundredfold, is at most
`2 ^ 71`. -/
theorem value_hundredths_le {x : Binary64} (h : x.value ≤ 2 ^ (64 : Int)) (hundred : Nat)
    (hlow : hundred ≠ 0) (hhigh : hundred ≤ 2 ^ 7) :
    (Binary64.ofNat (x * Binary64.ofNat hundred).roundToInteger / Binary64.ofNat hundred).value ≤
      2 ^ (71 : Int) := by
  have hhundred : (Binary64.ofNat hundred).value ≤ 2 ^ (7 : Int) := by
    refine Binary64.value_ofNat_le ?_
    exact_mod_cast hhigh
  have hscaled : (x * Binary64.ofNat hundred).value ≤ 2 ^ (71 : Int) := by
    refine Binary64.value_mul_le ?_
    calc x.value * (Binary64.ofNat hundred).value ≤ 2 ^ (64 : Int) * 2 ^ (7 : Int) :=
          mul_le_mul h hhundred (Binary64.value_nonneg _) (by positivity)
      _ = 2 ^ (71 : Int) := by norm_num
  have hrounded : (x * Binary64.ofNat hundred).roundToInteger ≤ 2 ^ 71 := by
    refine Binary64.roundToInteger_le ?_
    exact_mod_cast hscaled
  have hwhole : (Binary64.ofNat (x * Binary64.ofNat hundred).roundToInteger).value ≤
      2 ^ (71 : Int) := by
    refine Binary64.value_ofNat_le ?_
    exact_mod_cast hrounded
  exact Binary64.value_div_le ((div_le_self (Binary64.value_nonneg _)
    (Binary64.one_le_value_ofNat hlow)).trans hwhole)

/-- The mean of durations that together fit in 64 bits stays far from the overflow: a hundred
times the sum is below `2 ^ 71`. -/
theorem value_averageDurationMs_le (hsum : r.totalDurationMs < UInt64.size) :
    r.averageDurationMs.value ≤ 2 ^ (71 : Int) := by
  by_cases hne : r.members = []
  · rw [averageDurationMs, if_pos hne]
    norm_num [Binary64.value, Binary64.zero]
  · rw [averageDurationMs, if_neg hne]
    exact value_hundredths_le (value_mean_le hne hsum) 100 (by decide) (by decide)

/-- The mean has at most 53 bits. -/
theorem mantissa_averageDurationMs_le :
    r.averageDurationMs.mantissa ≤ 2 * Binary64.leastMantissa := by
  rw [averageDurationMs]
  split
  next => exact Nat.zero_le _
  next => exact (Binary64.mantissa_div_lt _ _).le

/-! ### The document -/

/-- The document of a report is accepted as a value, whatever texts its members hold. -/
theorem withinLimits_toJson (hcount : r.members.length < UInt64.size)
    (hsum : r.totalDurationMs < UInt64.size) : r.toJson.withinLimits = true := by
  have hmembers := arePlain_members fun m hm => (durationMs_le_total hm).trans_lt hsum
  have hhealthy : (Numeral.ofNat r.healthyCount).isFinite = true :=
    Numeral.isFinite_ofNat (List.countP_le_length.trans_lt hcount)
  have htotal := Numeral.isFinite_ofNat hcount
  have hmean := Numeral.isFinite_ofDouble mantissa_averageDurationMs_le
    (value_averageDurationMs_le hsum)
  have hplain : r.toJson.isPlain = true := by
    simp only [toJson, isPlain, arePlainFields, hmembers, hmean, totalCount, htotal, hhealthy,
      Option.isSome_some, Bool.and_self]
  have hdepth : r.toJson.depth ≤ maxDepth := by
    have hitems := depthOfItems_members_le r.members
    simp only [toJson, depth, depthOfFields, maxDepth]
    omega
  rw [withinLimits, hplain, Bool.and_true, decide_eq_true_eq]
  exact hdepth

/-- An answer with the document of a report has the status of the application, whatever its
code. -/
theorem classify_render (code : StatusCode) (hcount : r.members.length < UInt64.size)
    (hsum : r.totalDurationMs < UInt64.size) :
    classify code r.toJson.render = .ofHealth r.status := by
  have hclassify := classify_document code (isDocument_render r.toJson)
    (.inl (field?_eq_some_iff.mp rfl) : Reports _ r.status.name)
  exact hclassify.trans (if_pos (withinLimits_toJson hcount hsum))

end ApplicationReport

end ServiceHealth
