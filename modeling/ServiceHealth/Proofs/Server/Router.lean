import Mathlib.Data.List.TakeWhile
import ServiceHealth.Proofs.Text.Percent
import ServiceHealth.Server.Router

/-!
# The route of a name

Behind a base path, with any number of slashes at its end, the segment `applications` and any
encoding of a name route to the query for that name. The path is split before the name is
decoded, so the name may hold slashes: its encoding holds none.

## Main results

* `exists_eq_trimSlashes_append` — a base path is its trimmed form and slashes.
* `segments_append_slash` — the segments of a path, one after another.
* `route?_list`, `route?_name` — the routes of all applications and of a name.
-/

namespace ServiceHealth.Server

open Text

/-- A base path is what trimming leaves and the slashes that it removes. -/
theorem exists_eq_trimSlashes_append (base : String) :
    ∃ k, base.toList = trimSlashes base ++ List.replicate k '/' := by
  refine ⟨(base.toList.reverse.takeWhile (· == '/')).length, ?_⟩
  have hslashes : base.toList.reverse.takeWhile (· == '/') =
      List.replicate (base.toList.reverse.takeWhile (· == '/')).length '/' := by
    refine List.eq_replicate_of_mem fun c hc => ?_
    simpa using List.mem_takeWhile_imp hc
  have hsplit := List.takeWhile_append_dropWhile (p := (· == '/')) (l := base.toList.reverse)
  rw [hslashes] at hsplit
  have hreverse := congrArg List.reverse hsplit
  rw [List.reverse_append, List.reverse_replicate, List.reverse_reverse] at hreverse
  exact hreverse.symm

/-- A path that goes on with a slash is behind its beginning. -/
theorem behind?_append (base rest : List Char) :
    behind? base (base ++ '/' :: rest) = some ('/' :: rest) := by
  rw [behind?, if_pos (by simp), List.drop_left]
  rfl

/-! ### Segments -/

/-- A slash in front begins no segment. -/
theorem segments_slash (cs : List Char) : segments ('/' :: cs) = segments cs := by
  simp [segments, List.splitOn_cons_eq_if_modifyHead]

/-- Slashes in front begin no segments. -/
theorem segments_replicate_append (k : Nat) (cs : List Char) :
    segments (List.replicate k '/' ++ cs) = segments cs := by
  induction k with
  | zero => rfl
  | succ k ih => rw [List.replicate_succ, List.cons_append, segments_slash, ih]

variable {word : List Char}

/-- A word without slashes is one segment. -/
theorem segments_word (hne : word ≠ []) (hslash : '/' ∉ word) : segments word = [word] := by
  rw [segments, List.splitOn_eq_singleton hslash]
  simp [hne]

/-- A word without slashes is the first segment if a slash follows it. -/
theorem segments_append_slash (hne : word ≠ []) (hslash : '/' ∉ word) (cs : List Char) :
    segments (word ++ '/' :: cs) = word :: segments cs := by
  rw [segments, List.splitOn_append_cons_self_of_not_mem hslash]
  simp [hne, segments]

/-! ### Routes -/

/-- Behind a base path, whatever slashes it ends with, are the segments of what follows. -/
theorem exists_behind?_eq (base : String) (cs : List Char) :
    ∃ rest, behind? (trimSlashes base) (base.toList ++ '/' :: cs) = some rest ∧
      segments rest = segments cs := by
  obtain ⟨k, hbase⟩ := exists_eq_trimSlashes_append base
  refine ⟨List.replicate k '/' ++ '/' :: cs, ?_, ?_⟩
  · rw [hbase, List.append_assoc]
    cases k with
    | zero => exact behind?_append _ _
    | succ k => exact behind?_append _ _
  · rw [segments_replicate_append, segments_slash]

/-- The path `applications` behind the base path routes to the query for all. -/
theorem route?_list (base : String) : route? base (base ++ "/applications") = some .list := by
  obtain ⟨rest, hrest, hsegments⟩ := exists_behind?_eq base "applications".toList
  have hpath : (base ++ "/applications").toList = base.toList ++ '/' :: "applications".toList := by
    rw [String.toList_append]
    rfl
  rw [route?, hpath, hrest, Option.bind_eq_bind, Option.bind_some, hsegments,
    segments_word (by simp) (by simp)]
  simp

/-- Every encoding of a name, behind the base path and `applications`, routes to the query for
the name. -/
theorem route?_name (base : String) {name encoded : String} (hname : name ≠ "")
    (hencoded : Percent.Encodes (Percent.bytes name) (Percent.bytes encoded)) :
    route? base (base ++ "/applications/" ++ encoded) = some (.get name) := by
  have hne : encoded.toList ≠ [] := by
    intro h
    exact hencoded.ne_empty hname (String.toList_inj.mp h)
  obtain ⟨rest, hrest, hsegments⟩ :=
    exists_behind?_eq base ("applications".toList ++ '/' :: encoded.toList)
  have hpath : (base ++ "/applications/" ++ encoded).toList =
      base.toList ++ '/' :: ("applications".toList ++ '/' :: encoded.toList) := by
    rw [String.toList_append, String.toList_append]
    simp
  rw [segments_append_slash (by simp) (by simp), segments_word hne hencoded.slash_not_mem]
    at hsegments
  rw [route?, hpath, hrest, Option.bind_eq_bind, Option.bind_some, hsegments]
  simp [hencoded.decode?_eq]

end ServiceHealth.Server
