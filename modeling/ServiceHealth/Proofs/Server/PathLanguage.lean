import ServiceHealth.Proofs.Server.Router

/-!
# The paths that are routed

The router cuts a path at its slashes and drops what is empty, so it does not see how many slashes
stand together. What it accepts is nevertheless a simple language: the base path without the slashes
at its end, slashes, the word `applications` as it is, perhaps slashes and one more segment, and any
number of slashes. The cut is undone by two facts: a text without segments is a run of slashes
(`exists_slashes_of_segments_eq_nil`), and a text with a first segment is slashes, the segment, and
what is behind it (`exists_append_of_segments_eq_cons`).

## Main definitions

* `slashes`, `EndsSegment` — runs of slashes, and what may stand behind a segment.
* `Routed` — the language of the routes.
* `queryOf?` — the query that segments ask for.

## Main results

* `route?_eq_some_iff` — a path is routed to a query just when the language says so.
* `route?_language` — the same, and what never matches.
-/

namespace ServiceHealth.Server

open Text

/-- A run of slashes. -/
def slashes (k : Nat) : List Char := List.replicate k '/'

/-- What may stand behind a segment: nothing, or a slash and anything. -/
def EndsSegment (cs : List Char) : Prop := cs = [] ∨ ∃ rest, cs = '/' :: rest

/-- The paths that ask for a query, below a base path that has no slashes at its end: the word
`applications` asks for all, and the word with one more segment for the name that the bytes of the
segment stand for. Any number of slashes may stand where one does, and behind it all. -/
inductive Routed (base : List Char) : List Char → Query → Prop
  | list (k j : Nat) :
      Routed base (base ++ slashes (k + 1) ++ "applications".toList ++ slashes j) .list
  | get (k l j : Nat) {segment : List Char} {name : String} : segment ≠ [] → '/' ∉ segment →
      Percent.StandsFor (Percent.bytes (String.ofList segment)) (Percent.bytes name) →
      Routed base (base ++ slashes (k + 1) ++ "applications".toList ++ slashes (l + 1) ++ segment ++
        slashes j) (.get name)

/-! ### Base paths -/

/-- More slashes at the end of a base path are trimmed as well. -/
theorem trimSlashes_append (base : String) (k : Nat) :
    trimSlashes (base ++ String.ofList (slashes k)) = trimSlashes base := by
  have hslashes : ∀ c ∈ slashes k, (c == '/') = true := by
    intro c hc
    simpa using List.eq_of_mem_replicate hc
  rw [trimSlashes, String.toList_append, String.toList_ofList, List.reverse_append, slashes,
    List.reverse_replicate, ← slashes, List.dropWhile_append_of_pos hslashes, ← trimSlashes]

/-- A trimmed base path has no slash at its end. -/
theorem getLast?_trimSlashes (base : String) : (trimSlashes base).getLast? ≠ some '/' := by
  intro h
  rw [trimSlashes, List.getLast?_reverse] at h
  have hhead := List.head?_dropWhile_not (· == '/') base.toList.reverse
  rw [h] at hhead
  cases hhead

/-- What is behind a base path is the rest of the path, if a segment may end there. -/
theorem behind?_eq_some_iff {base path rest : List Char} :
    behind? base path = some rest ↔ path = base ++ rest ∧ EndsSegment rest := by
  constructor
  · intro h
    rw [behind?] at h
    split at h
    next hprefix =>
      obtain ⟨tail, rfl⟩ := List.isPrefixOf_iff_prefix.mp hprefix
      rw [List.drop_left] at h
      split at h
      · obtain rfl := Option.some.inj h
        exact ⟨rfl, .inl rfl⟩
      · obtain rfl := Option.some.inj h
        exact ⟨rfl, .inr ⟨_, rfl⟩⟩
      · cases h
    next => cases h
  · rintro ⟨rfl, rfl | ⟨rest, rfl⟩⟩
    · simp [behind?]
    · exact behind?_append base rest

/-! ### Cutting at slashes -/

/-- A run of slashes has no segments. -/
theorem segments_slashes (k : Nat) : segments (slashes k) = [] := by
  have h := segments_replicate_append k []
  rwa [List.append_nil] at h

variable {word tail : List Char}

/-- A word is the first segment if a segment may end behind it. -/
theorem segments_word_append (hne : word ≠ []) (hslash : '/' ∉ word) (htail : EndsSegment tail) :
    segments (word ++ tail) = word :: segments tail := by
  rcases htail with rfl | ⟨rest, rfl⟩
  · rw [List.append_nil, segments_word hne hslash]
    rfl
  · rw [segments_append_slash hne hslash, segments_slash]

/-- A run of slashes ends a segment. -/
theorem endsSegment_slashes (k : Nat) : EndsSegment (slashes k) := by
  cases k with
  | zero => exact .inl rfl
  | succ k => exact .inr ⟨slashes k, rfl⟩

/-- Slashes end a segment whatever stands behind them. -/
theorem endsSegment_slashes_append (k : Nat) (cs : List Char) :
    EndsSegment (slashes (k + 1) ++ cs) :=
  .inr ⟨slashes k ++ cs, rfl⟩

/-- A text is a run of slashes, a word without slashes, and what may stand behind a segment. -/
theorem exists_eq_slashes_append_word (cs : List Char) :
    ∃ k word tail, cs = slashes k ++ (word ++ tail) ∧ '/' ∉ word ∧ EndsSegment tail ∧
      (word = [] → tail = []) := by
  induction cs with
  | nil => exact ⟨0, [], [], rfl, List.not_mem_nil, .inl rfl, fun _ => rfl⟩
  | cons c cs ih =>
    obtain ⟨k, word, tail, rfl, hslash, htail, hempty⟩ := ih
    by_cases hc : c = '/'
    · exact ⟨k + 1, word, tail, by rw [hc]; rfl, hslash, htail, hempty⟩
    · cases k with
      | zero =>
        refine ⟨0, c :: word, tail, rfl, ?_, htail, fun h => nomatch h⟩
        exact List.not_mem_cons_of_ne_of_not_mem (Ne.symm hc) hslash
      | succ k =>
        refine ⟨0, [c], slashes (k + 1) ++ (word ++ tail), rfl, ?_, ?_, fun h => nomatch h⟩
        · exact List.not_mem_cons_of_ne_of_not_mem (Ne.symm hc) List.not_mem_nil
        · exact endsSegment_slashes_append k _

/-- A text without segments is a run of slashes. -/
theorem exists_slashes_of_segments_eq_nil {cs : List Char} (h : segments cs = []) :
    ∃ k, cs = slashes k := by
  obtain ⟨k, word, tail, rfl, hslash, htail, hempty⟩ := exists_eq_slashes_append_word cs
  rw [slashes, segments_replicate_append] at h
  by_cases hne : word = []
  · exact ⟨k, by rw [hne, hempty hne, List.append_nil, List.append_nil]⟩
  · rw [segments_word_append hne hslash htail] at h
    cases h

/-- A text with a first segment is slashes, the segment, and what the others come from. -/
theorem exists_append_of_segments_eq_cons {cs first : List Char} {others : List (List Char)}
    (h : segments cs = first :: others) :
    ∃ k tail, cs = slashes k ++ (first ++ tail) ∧ first ≠ [] ∧ '/' ∉ first ∧ EndsSegment tail ∧
      segments tail = others := by
  obtain ⟨k, word, tail, rfl, hslash, htail, hempty⟩ := exists_eq_slashes_append_word cs
  rw [slashes, segments_replicate_append] at h
  by_cases hne : word = []
  · rw [hne, hempty hne] at h
    cases h
  · rw [segments_word_append hne hslash htail] at h
    obtain ⟨rfl, hothers⟩ := List.cons.inj h
    exact ⟨k, tail, rfl, hne, hslash, htail, hothers⟩

/-- Where a segment may end and more segments follow, slashes stand first. -/
theorem exists_succ_of_endsSegment {k : Nat} {first tail : List Char} (hne : first ≠ [])
    (hslash : '/' ∉ first) (h : EndsSegment (slashes k ++ (first ++ tail))) : ∃ l, k = l + 1 := by
  cases k with
  | succ l => exact ⟨l, rfl⟩
  | zero =>
    obtain ⟨c, cs, rfl⟩ := List.exists_cons_of_ne_nil hne
    rcases h with h | ⟨rest, h⟩
    · cases h
    · obtain ⟨rfl, -⟩ := List.cons.inj h
      exact absurd List.mem_cons_self hslash

/-- Pieces without slashes that are put together with slashes are cut into those that are not
empty. -/
theorem segments_intercalate {pieces : List (List Char)} (hslash : ∀ s ∈ pieces, '/' ∉ s) :
    segments (['/'].intercalate pieces) = pieces.filter (· ≠ []) := by
  by_cases hne : pieces = []
  · rw [hne]
    rfl
  · rw [segments, List.splitOn_intercalate '/' hslash hne]

/-! ### Routing -/

/-- The query that segments ask for. -/
def queryOf? : List (List Char) → Option Query
  | [word] => if word = "applications".toList then some .list else none
  | [word, name] =>
    if word = "applications".toList then (Percent.decode? (String.ofList name)).map .get else none
  | _ => none

/-- Segments ask for a query if they are the word alone, or the word and an encoding of a name. -/
theorem queryOf?_eq_some_iff {parts : List (List Char)} {q : Query} :
    queryOf? parts = some q ↔ (parts = ["applications".toList] ∧ q = .list) ∨
      ∃ segment name, parts = ["applications".toList, segment] ∧ q = .get name ∧
        Percent.StandsFor (Percent.bytes (String.ofList segment)) (Percent.bytes name) := by
  constructor
  · intro h
    unfold queryOf? at h
    split at h
    · obtain ⟨rfl, heq⟩ := Option.ite_none_right_eq_some.mp h
      exact .inl ⟨rfl, (Option.some.inj heq).symm⟩
    · obtain ⟨rfl, hname⟩ := Option.ite_none_right_eq_some.mp h
      obtain ⟨name, hdecode, rfl⟩ := Option.map_eq_some_iff.mp hname
      exact .inr ⟨_, name, rfl, rfl, Percent.decode?_eq_some_iff.mp hdecode⟩
    · cases h
  · rintro (⟨rfl, rfl⟩ | ⟨segment, name, rfl, rfl, hname⟩)
    · rfl
    · rw [queryOf?, if_pos rfl, Percent.decode?_eq_some_iff.mpr hname]
      rfl

/-- A path is routed by the segments behind the base path. -/
theorem route?_eq (base path : String) : route? base path =
    (behind? (trimSlashes base) path.toList).bind fun rest => queryOf? (segments rest) := by
  rw [route?, Option.bind_eq_bind]
  rfl

/-- A path that goes on behind its base as if a segment ended there is routed by what follows. -/
theorem route?_append (base : String) {rest : List Char} (hrest : EndsSegment rest) :
    route? base (String.ofList (trimSlashes base ++ rest)) = queryOf? (segments rest) := by
  rw [route?_eq, String.toList_ofList, behind?_eq_some_iff.mpr ⟨rfl, hrest⟩, Option.bind_some]

variable {base path : String} {q : Query}

/-- What is routed is in the language. -/
theorem routed_of_route? (h : route? base path = some q) :
    Routed (trimSlashes base) path.toList q := by
  rw [route?_eq] at h
  obtain ⟨rest, hrest, hquery⟩ := Option.bind_eq_some_iff.mp h
  obtain ⟨hpath, hends⟩ := behind?_eq_some_iff.mp hrest
  rcases queryOf?_eq_some_iff.mp hquery with ⟨hparts, rfl⟩ | ⟨segment, name, hparts, rfl, hname⟩
  all_goals
    obtain ⟨k, tail, rfl, hword, hwordSlash, htail, hothers⟩ :=
      exists_append_of_segments_eq_cons hparts
    obtain ⟨k, rfl⟩ := exists_succ_of_endsSegment hword hwordSlash hends
  · obtain ⟨j, rfl⟩ := exists_slashes_of_segments_eq_nil hothers
    have hmem : Routed (trimSlashes base) _ .list := .list k j
    rwa [List.append_assoc, List.append_assoc, ← hpath] at hmem
  · obtain ⟨l, last, rfl, hne, hslash, -, hnone⟩ := exists_append_of_segments_eq_cons hothers
    obtain ⟨l, rfl⟩ := exists_succ_of_endsSegment hne hslash htail
    obtain ⟨j, rfl⟩ := exists_slashes_of_segments_eq_nil hnone
    have hmem : Routed (trimSlashes base) _ (.get name) := .get k l j hne hslash hname
    simp only [List.append_assoc] at hmem
    rwa [← hpath] at hmem

/-- The segments of a path below a base, with slashes in front of the word. -/
theorem segments_below (k : Nat) (hne : word ≠ []) (hslash : '/' ∉ word)
    (htail : EndsSegment tail) :
    segments (slashes (k + 1) ++ (word ++ tail)) = word :: segments tail := by
  rw [slashes, segments_replicate_append, segments_word_append hne hslash htail]

/-- The word of the routes is no empty text and has no slash. -/
theorem applications_isSegment :
    "applications".toList ≠ [] ∧ '/' ∉ "applications".toList := by
  decide

/-- A path of the language is routed. -/
theorem route?_of_routed (h : Routed (trimSlashes base) path.toList q) :
    route? base path = some q := by
  obtain ⟨hword, hwordSlash⟩ := applications_isSegment
  have hpath := (String.ofList_toList (s := path)).symm
  generalize path.toList = cs at h hpath
  subst hpath
  cases h with
  | list k j =>
    rw [List.append_assoc, List.append_assoc, route?_append _ (endsSegment_slashes_append _ _),
      segments_below k hword hwordSlash (endsSegment_slashes j), segments_slashes]
    exact queryOf?_eq_some_iff.mpr (.inl ⟨rfl, rfl⟩)
  | @get k l j segment name hne hslash hname =>
    simp only [List.append_assoc]
    rw [route?_append _ (endsSegment_slashes_append _ _),
      segments_below k hword hwordSlash (endsSegment_slashes_append _ _),
      segments_below l hne hslash (endsSegment_slashes j), segments_slashes]
    exact queryOf?_eq_some_iff.mpr (.inr ⟨segment, name, rfl, rfl, hname⟩)

/-- A path is routed to a query just when it is in the language. -/
theorem route?_eq_some_iff : route? base path = some q ↔ Routed (trimSlashes base) path.toList q :=
  ⟨routed_of_route?, route?_of_routed⟩

/-! ### What never matches -/

/-- A path whose segments ask for nothing is not routed. -/
theorem route?_eq_none {rest : List Char} (hrest : EndsSegment rest)
    (h : queryOf? (segments rest) = none) :
    route? base (String.ofList (trimSlashes base ++ rest)) = none := by
  rw [route?_append base hrest, h]

/-- A path that goes on behind its base with anything but a slash is not routed. -/
theorem route?_of_longer_base (base : String) {c : Char} (hc : c ≠ '/') (rest : List Char) :
    route? base (String.ofList (trimSlashes base ++ c :: rest)) = none := by
  rw [route?_eq, Option.bind_eq_none_iff]
  intro found hfound
  rw [String.toList_ofList] at hfound
  obtain ⟨hpath, hends⟩ := behind?_eq_some_iff.mp hfound
  obtain rfl := List.append_cancel_left hpath
  rcases hends with h | ⟨cs, h⟩
  · cases h
  · exact absurd (List.cons.inj h).1 hc

/-- A path whose first segment is another word is not routed, also if the word is an encoding of
the right one. -/
theorem route?_of_other_word (base : String) (k : Nat) (hne : word ≠ []) (hslash : '/' ∉ word)
    (hother : word ≠ "applications".toList) (htail : EndsSegment tail) :
    route? base (String.ofList (trimSlashes base ++ slashes (k + 1) ++ word ++ tail)) = none := by
  rw [List.append_assoc, List.append_assoc]
  refine route?_eq_none (endsSegment_slashes_append k _) (Option.eq_none_iff_forall_ne_some.mpr ?_)
  intro q hq
  rw [segments_below k hne hslash htail] at hq
  rcases queryOf?_eq_some_iff.mp hq with ⟨hparts, -⟩ | ⟨segment, name, hparts, -, -⟩
  · exact hother (List.cons.inj hparts).1
  · exact hother (List.cons.inj hparts).1

/-- A path whose second segment stands for no text is not routed. -/
theorem route?_of_undecodable (base : String) (k l j : Nat) {segment : List Char}
    (hne : segment ≠ []) (hslash : '/' ∉ segment)
    (hnone : ∀ name, ¬ Percent.StandsFor (Percent.bytes (String.ofList segment))
      (Percent.bytes name)) :
    route? base (String.ofList (trimSlashes base ++ slashes (k + 1) ++ "applications".toList ++
      slashes (l + 1) ++ segment ++ slashes j)) = none := by
  obtain ⟨hword, hwordSlash⟩ := applications_isSegment
  simp only [List.append_assoc]
  refine route?_eq_none (endsSegment_slashes_append k _) (Option.eq_none_iff_forall_ne_some.mpr ?_)
  intro q hq
  rw [segments_below k hword hwordSlash (endsSegment_slashes_append l _),
    segments_below l hne hslash (endsSegment_slashes j), segments_slashes] at hq
  rcases queryOf?_eq_some_iff.mp hq with ⟨hparts, -⟩ | ⟨other, name, hparts, -, hname⟩
  · cases (List.cons.inj hparts).2
  · obtain rfl := (List.cons.inj (List.cons.inj hparts).2).1
    exact hnone name hname

/-- A path with three segments is not routed, whatever they are and however many slashes stand
between them. -/
theorem route?_of_three_segments (base : String) {pieces : List (List Char)}
    (hslash : ∀ s ∈ pieces, '/' ∉ s) (hthree : 3 ≤ (pieces.filter (· ≠ [])).length) :
    route? base (String.ofList (trimSlashes base ++ '/' :: ['/'].intercalate pieces)) = none := by
  refine route?_eq_none (.inr ⟨_, rfl⟩) (Option.eq_none_iff_forall_ne_some.mpr ?_)
  intro q hq
  rw [segments_slash, segments_intercalate hslash] at hq
  rcases queryOf?_eq_some_iff.mp hq with ⟨hparts, -⟩ | ⟨segment, name, hparts, -, -⟩
  · rw [hparts] at hthree
    exact absurd hthree (by decide)
  · rw [hparts] at hthree
    exact absurd hthree (by simp)

/-- An encoded slash in a segment is part of the name. -/
theorem route?_of_encoded_slash (base : String) {first second firstName secondName escape : String}
    (hfirst : '/' ∉ first.toList) (hsecond : '/' ∉ second.toList)
    (hescape : escape = "%2F" ∨ escape = "%2f")
    (hfirstName : Percent.StandsFor (Percent.bytes first) (Percent.bytes firstName))
    (hsecondName : Percent.StandsFor (Percent.bytes second) (Percent.bytes secondName)) :
    route? base (base ++ "/applications/" ++ first ++ escape ++ second) =
      some (.get (firstName ++ "/" ++ secondName)) := by
  obtain ⟨k, hbase⟩ := exists_eq_trimSlashes_append base
  have htwo : Number.HexDigit '2' 2 := .decimal (v := 2) (by decide)
  have hslash : Percent.StandsFor (Percent.bytes escape ++ Percent.bytes second)
      (Percent.bytes "/" ++ Percent.bytes secondName) := by
    rcases hescape with rfl | rfl
    · exact .escaped htwo (.capital (v := 15) (by decide) (by decide)) hsecondName
    · exact .escaped htwo (.small (v := 15) (by decide) (by decide)) hsecondName
  have hname : Percent.StandsFor (Percent.bytes (first ++ escape ++ second))
      (Percent.bytes (firstName ++ "/" ++ secondName)) := by
    simp only [Percent.bytes_append, List.append_assoc]
    rcases hescape with rfl | rfl <;> exact hfirstName.append_escape hslash
  have hchars : (first ++ escape ++ second).toList ≠ [] ∧
      '/' ∉ (first ++ escape ++ second).toList := by
    rcases hescape with rfl | rfl <;> simp [hfirst, hsecond]
  refine route?_eq_some_iff.mpr ?_
  have hmem : Routed (trimSlashes base) _ (.get (firstName ++ "/" ++ secondName)) :=
    .get k 0 0 hchars.1 hchars.2 (by rwa [String.ofList_toList])
  have hpath : (base ++ "/applications/" ++ first ++ escape ++ second).toList =
      trimSlashes base ++ slashes (k + 1) ++ "applications".toList ++ slashes (0 + 1) ++
        (first ++ escape ++ second).toList ++ slashes 0 := by
    simp [hbase, slashes, List.replicate_succ']
  rwa [hpath]

/-! ### The language -/

/-- **The language of the routes.** Let the base path be trimmed: the slashes at its end are gone,
and no other character is. A path is routed to a query just when it is in the language of the query
below the trimmed base, so that every other path has no route. More slashes at the end of the base
path change nothing. In particular a path that goes on behind the base without a slash has no route,
nor one whose first segment is any word but `applications` itself, be it an encoding of it, nor one
whose second segment stands for no text, nor one with a third segment; and an encoded slash is part
of the name that its segment stands for. -/
theorem route?_language (base : String) :
    (∃ k, base.toList = trimSlashes base ++ slashes k) ∧
    (trimSlashes base).getLast? ≠ some '/' ∧
    (∀ path q, route? base path = some q ↔ Routed (trimSlashes base) path.toList q) ∧
    (∀ k path, route? (base ++ String.ofList (slashes k)) path = route? base path) ∧
    (∀ c rest, c ≠ '/' → route? base (String.ofList (trimSlashes base ++ c :: rest)) = none) ∧
    (∀ k word tail, word ≠ [] → '/' ∉ word → word ≠ "applications".toList → EndsSegment tail →
      route? base (String.ofList (trimSlashes base ++ slashes (k + 1) ++ word ++ tail)) = none) ∧
    (∀ k l j segment, segment ≠ [] → '/' ∉ segment →
      (∀ name, ¬ Percent.StandsFor (Percent.bytes (String.ofList segment)) (Percent.bytes name)) →
      route? base (String.ofList (trimSlashes base ++ slashes (k + 1) ++ "applications".toList ++
        slashes (l + 1) ++ segment ++ slashes j)) = none) ∧
    (∀ pieces : List (List Char), (∀ s ∈ pieces, '/' ∉ s) →
      3 ≤ (pieces.filter (· ≠ [])).length →
      route? base (String.ofList (trimSlashes base ++ '/' :: ['/'].intercalate pieces)) = none) ∧
    (∀ first second firstName secondName escape : String, '/' ∉ first.toList →
      '/' ∉ second.toList → (escape = "%2F" ∨ escape = "%2f") →
      Percent.StandsFor (Percent.bytes first) (Percent.bytes firstName) →
      Percent.StandsFor (Percent.bytes second) (Percent.bytes secondName) →
      route? base (base ++ "/applications/" ++ first ++ escape ++ second) =
        some (.get (firstName ++ "/" ++ secondName))) := by
  refine ⟨exists_eq_trimSlashes_append base, getLast?_trimSlashes base,
    fun path q => route?_eq_some_iff, ?_, fun c rest hc => route?_of_longer_base base hc rest,
    fun k word tail => route?_of_other_word base k,
    fun k l j segment => route?_of_undecodable base k l j,
    fun pieces => route?_of_three_segments base,
    fun first second firstName secondName escape => route?_of_encoded_slash base⟩
  intro k path
  rw [route?_eq, route?_eq, trimSlashes_append]

/-- Below a base path with two slashes at its end: a name with an encoded slash, a percent sign
that begins no escape, and doubled slashes; a longer sibling of the base, an encoded word, a name
that is not UTF-8, and a third segment. -/
theorem route?_language_of_odd_paths :
    let base := "/api/health//"
    route? base "/api/health//applications///a%2Fb%zz/" = some (.get "a/b%zz") ∧
    'z' ≠ '/' ∧ route? base "/api/healthz/applications" = none ∧
    route? base "/api/health/%61pplications" = none ∧
    (∀ name, ¬ Percent.StandsFor (Percent.bytes "%ff") (Percent.bytes name)) ∧
    route? base "/api/health/applications/%ff" = none ∧
    route? base "/api/health/applications/a//b" = none ∧
    route? base "/api/health///applications/%4%2F" = some (.get "%4/") := by
  intro base
  obtain ⟨-, -, hlanguage, -, hsibling, hword, hundecodable, hthree, hslash⟩ := route?_language base
  have htrim : trimSlashes base = "/api/health".toList := by decide
  rw [htrim] at hlanguage hsibling hword hundecodable hthree
  have hname : Percent.StandsFor (Percent.bytes "a%2Fb%zz") (Percent.bytes "a/b%zz") :=
    Percent.decode?_eq_some_iff.mp (by decide +kernel)
  have hnone : ∀ name, ¬ Percent.StandsFor (Percent.bytes "%ff") (Percent.bytes name) := by
    intro name h
    have hdecode := Percent.decode?_eq_some_iff.mpr h
    have hinvalid : Percent.decode? "%ff" = none := by decide +kernel
    rw [hinvalid] at hdecode
    cases hdecode
  have hrouted : Routed "/api/health".toList "/api/health//applications///a%2Fb%zz/".toList
      (.get "a/b%zz") := .get 1 2 1 (by decide) (by decide) hname
  refine ⟨(hlanguage _ _).mpr hrouted, by decide,
    hsibling 'z' "/applications".toList (by decide), ?_, hnone, ?_, ?_, ?_⟩
  · exact hword 0 "%61pplications".toList [] (by decide) (by decide) (by decide) (.inl rfl)
  · exact hundecodable 0 0 0 "%ff".toList (by decide) (by decide) hnone
  · exact hthree ["applications".toList, "a".toList, [], "b".toList] (by decide) (by decide)
  · exact hslash "%4" "" "%4" "" "%2F" (by decide) (by decide) (.inl rfl)
      (Percent.decode?_eq_some_iff.mp (by decide +kernel))
      (Percent.decode?_eq_some_iff.mp (by decide +kernel))

end ServiceHealth.Server
