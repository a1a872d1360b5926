import Mathlib.Data.List.Induction
import ServiceHealth.Join

/-!
# Joins in any order

The slots of a join depend on which tasks have ended, never on the order in which they did:
`Join.Holds` is what every slot holds at any moment, `Join.Holds.finishFrom` that one more end
keeps it, and `Join.holds_run` that it therefore holds after any sequence of ends.

## Main results

* `Join.results?_run` — there are results just when every task has ended, and they are in the
  order of the tasks.
-/

namespace ServiceHealth.Join

variable {α : Type}

/-- The slot of each task that has ended holds its result, and every other slot is empty. -/
def Holds (results : List α) (ended : List Nat) (j : Join α) : Prop :=
  j.slots = results.mapIdx fun i result => if i ∈ ended then some result else none

/-- Before a task has ended all slots are empty. -/
theorem holds_start (results : List α) : Holds results [] (start results.length) := by
  refine List.ext_getElem? fun i => ?_
  by_cases hi : i < results.length <;> simp [start, hi]

/-- **Step.** When a task ends, its slot and no other is filled. -/
theorem Holds.finishFrom {results : List α} {ended : List Nat} {j : Join α}
    (h : Holds results ended j) (i : Nat) :
    Holds results (ended ++ [i]) (finishFrom results j i) := by
  unfold Join.finishFrom
  refine List.ext_getElem? fun k => ?_
  cases hi : results[i]? with
  | none =>
    have hlt : ∀ result, results[k]? = some result → k ≠ i := by
      rintro result hk rfl
      simp [hi] at hk
    rw [h]
    cases hk : results[k]? with
    | none => simp [hk]
    | some result => simp [hk, hlt result hk]
  | some result =>
    have hlen : i < results.length := (List.getElem?_eq_some_iff.mp hi).1
    have hval : results[i] = result := (List.getElem?_eq_some_iff.mp hi).2
    simp only [finish, List.getElem?_set]
    rw [h]
    by_cases hik : i = k
    · subst hik
      simp [hlen, hval]
    · have hki : k ≠ i := fun h => hik h.symm
      simp [hik, hki]

/-- **Run.** After any sequence of ends the slots hold the results of the tasks in it. -/
theorem holds_run (results : List α) (order : List Nat) :
    Holds results order (run results order) := by
  induction order using List.reverseRecOn with
  | nil => exact holds_start results
  | append_singleton order i ih =>
    have hstep : run results (order ++ [i]) = finishFrom results (run results order) i := by
      simp [run]
    rw [hstep]
    exact ih.finishFrom i

/-- Filled slots give their contents. -/
theorem mapM_id_map_some (results : List α) :
    (results.map some).mapM id = some results := by
  induction results with
  | nil => rfl
  | cons result results ih => simp [ih]

/-- An empty slot gives nothing. -/
theorem mapM_id_eq_none {slots : List (Option α)} (h : none ∈ slots) :
    slots.mapM id = none := by
  induction slots with
  | nil => simp at h
  | cons slot slots ih =>
    rcases List.mem_cons.mp h with rfl | h
    · simp
    · simp [ih h]

/-- The results are there just when every task has ended, in the order of the tasks and not in
that of their ends. -/
theorem results?_run (results : List α) (order : List Nat) :
    (run results order).results? =
      if ∀ i < results.length, i ∈ order then some results else none := by
  have hslots : (run results order).slots = _ := holds_run results order
  unfold results?
  rw [hslots]
  split
  next hall =>
    have hfilled : (results.mapIdx fun i result => if i ∈ order then some result else none) =
        results.map some := by
      refine List.ext_getElem (by simp) fun i hi _ => ?_
      simp only [List.length_mapIdx] at hi
      simp [hall i hi]
    rw [hfilled, mapM_id_map_some]
  next hsome =>
    push Not at hsome
    obtain ⟨i, hi, hnot⟩ := hsome
    refine mapM_id_eq_none (List.mem_iff_getElem.mpr ⟨i, by simpa using hi, ?_⟩)
    simp [hnot]

end ServiceHealth.Join
