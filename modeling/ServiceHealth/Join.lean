/-!
# Joining tasks

Tasks that run at the same time are awaited together. Each of them has a slot, in the order in
which they began, and its result goes into that slot when it ends, whichever ends first. The
results are there once every slot is filled.

## Main definitions

* `Join`, `Join.start`, `Join.finish` — the slots, before a task has ended and when one ends.
* `Join.results?` — the results of all tasks.
* `Join.run` — the slots after tasks ended in some order.
-/

namespace ServiceHealth

/-- The slots of tasks that are awaited together. -/
structure Join (α : Type) where
  slots : List (Option α)
  deriving DecidableEq, Repr

namespace Join

variable {α : Type}

/-- None of `n` tasks has ended. -/
def start (n : Nat) : Join α := ⟨List.replicate n none⟩

/-- Task `i` ends with a result. -/
def finish (j : Join α) (i : Nat) (result : α) : Join α := ⟨j.slots.set i (some result)⟩

/-- The results of all tasks, once the last of them has ended. -/
def results? (j : Join α) : Option (List α) := j.slots.mapM id

/-- Task `i` ends with the result it has in a list. -/
def finishFrom (results : List α) (j : Join α) (i : Nat) : Join α :=
  match results[i]? with
  | some result => j.finish i result
  | none => j

/-- The slots after tasks ended in an order, each with its result. -/
def run (results : List α) (order : List Nat) : Join α :=
  order.foldl (finishFrom results) (start results.length)

example : (run ["a", "b", "c"] [2, 0, 1]).results? = some ["a", "b", "c"] := by decide
example : (run ["a", "b", "c"] [2, 0]).results? = none := by decide

end Join

end ServiceHealth
