import Mathlib.Tactic.IntervalCases
import ServiceHealth.Net.Address
import ServiceHealth.Proofs.Number.HexDigit

/-!
# Reading socket addresses back

The canonical text of an address denotes that address. A number is read back from its digits when
no further digit follows them, and so the parts of an address are read one after another, each up to
the character behind it. Groups end where no group follows their colon, which is how the double
colon is found; what it stands for are the zeros that were left out (`Ipv6.split_longestZeros`).

## Main results

* `readNumber_toDigits` — numbers in any base up to sixteen.
* `readIpv4_toChars`, `readIpv6_toChars` — addresses without a port.
* `SocketAddress.parse?_render` — every address is read back from its canonical text.
-/

namespace ServiceHealth.Number

/-! ### Numbers -/

/-- What follows is no digit of a base. -/
def EndsDigits (base : Nat) (rest : List Char) : Prop := ∀ c ∈ rest.head?, digitIn? base c = none

/-- A digit has the same value in every base that has it. -/
theorem digitIn?_of_lt {base v : Nat} {c : Char} (h : digitIn? 16 c = some v) (hv : v < base) :
    digitIn? base c = some v := by
  simp only [digitIn?, Option.ite_none_right_eq_some, Option.some.injEq] at h ⊢
  split_ifs at h ⊢ <;> omega

/-- What is no digit in base sixteen is none in a smaller base. -/
theorem digitIn?_eq_none {base : Nat} {c : Char} (hbase : base ≤ 16)
    (h : digitIn? 16 c = none) : digitIn? base c = none := by
  simp only [digitIn?, ite_eq_right_iff, reduceCtorEq, imp_false] at h ⊢
  split_ifs at h ⊢ <;> omega

variable {base : Nat}

/-- The digits of a number are digits. -/
theorem isSome_digitIn?_of_mem_toDigits (hone : 1 < base) (hbase : base ≤ 16) (n : Nat) :
    ∀ c ∈ Nat.toDigits base n, (digitIn? base c).isSome = true := by
  have hdigit (v : Nat) (hv : v < base) : (digitIn? base v.digitChar).isSome = true := by
    rw [digitIn?_of_lt (hexDigit_digitChar (hv.trans_le hbase)).digitIn?_eq hv, Option.isSome_some]
  induction n using Nat.strongRecOn with
  | ind n ih =>
    rw [Nat.toDigits_eq_if hone]
    split
    next hlt => simpa using hdigit n hlt
    next hle =>
      intro c hc
      rcases List.mem_append.mp hc with hc | hc
      · exact ih (n / base) (Nat.div_lt_self (by omega) hone) c hc
      · rw [List.mem_singleton.mp hc]
        exact hdigit _ (Nat.mod_lt n (by omega))

/-- The digits of a number denote it. -/
theorem foldl_filterMap_toDigits (hone : 1 < base) (hbase : base ≤ 16) (n : Nat) :
    ((Nat.toDigits base n).filterMap (digitIn? base)).foldl (fun n d => n * base + d) 0 = n := by
  have hdigit (v : Nat) (hv : v < base) : digitIn? base v.digitChar = some v :=
    digitIn?_of_lt (hexDigit_digitChar (hv.trans_le hbase)).digitIn?_eq hv
  induction n using Nat.strongRecOn with
  | ind n ih =>
    rw [Nat.toDigits_eq_if hone]
    split
    next hlt => simp [hdigit n hlt]
    next hle =>
      have hlast := hdigit (n % base) (Nat.mod_lt n (by omega))
      rw [List.filterMap_append, List.foldl_append, ih _ (Nat.div_lt_self (by omega) hone),
        List.filterMap_cons_some hlast]
      exact Nat.div_add_mod' n base

/-- Only zero is written with a zero in front. -/
theorem length_toDigits_of_head?_zero (hone : 1 < base) (hbase : base ≤ 16) {n : Nat}
    (h : (Nat.toDigits base n).head? = some '0') : (Nat.toDigits base n).length = 1 := by
  have hfirst : ∀ n, 0 < n → (Nat.toDigits base n).head? ≠ some '0' := by
    intro n
    induction n using Nat.strongRecOn with
    | ind n ih =>
      intro hpos hzero
      rw [Nat.toDigits_eq_if hone] at hzero
      split at hzero
      next hlt =>
        have hvalue := (hexDigit_digitChar (hlt.trans_le hbase)).digitIn?_eq
        rw [show n.digitChar = '0' from Option.some.inj hzero] at hvalue
        have : n = 0 := (Option.some.inj hvalue).symm
        omega
      next hle =>
        refine ih _ (Nat.div_lt_self (by omega) hone) (Nat.div_pos (by omega) (by omega)) ?_
        obtain ⟨c, cs, hcons⟩ := List.exists_cons_of_ne_nil (Nat.toDigits_ne_nil (b := base)
          (n := n / base))
        rw [hcons] at hzero ⊢
        exact hzero
  rcases Nat.eq_zero_or_pos n with rfl | hpos
  · rw [Nat.toDigits_zero, List.length_singleton]
  · exact absurd h (hfirst n hpos)

end ServiceHealth.Number

namespace ServiceHealth.Net

open Number

/-- A number is read back from its digits. -/
theorem readNumber_toDigits {base : Nat} (hone : 1 < base) (hbase : base ≤ 16) {n bound : Nat}
    (hbound : n < bound) (width : Option Nat) (hwidth : ∀ w ∈ width, 0 < w ∧ n < base ^ w)
    (zeros : Bool) {rest : List Char} (hrest : EndsDigits base rest) :
    readNumber base width zeros bound (Nat.toDigits base n ++ rest) = some (n, rest) := by
  have hend : rest.takeWhile (fun c => (digitIn? base c).isSome) = [] := by
    cases rest with
    | nil => rfl
    | cons c rest => rw [List.takeWhile_cons_of_neg (by simp [hrest c rfl])]
  have htake : (Nat.toDigits base n ++ rest).takeWhile (fun c => (digitIn? base c).isSome) =
      Nat.toDigits base n := by
    rw [List.takeWhile_append_of_pos (isSome_digitIn?_of_mem_toDigits hone hbase n), hend,
      List.append_nil]
  have hlength : ∀ w ∈ width, (Nat.toDigits base n).length ≤ w := fun w hw =>
    (Nat.length_toDigits_le_iff hone (hwidth w hw).1).mpr (hwidth w hw).2
  have hfront : zeros = true ∨ (Nat.toDigits base n).head? ≠ some '0' ∨
      (Nat.toDigits base n).length = 1 :=
    .inr (Classical.or_iff_not_imp_left.mpr fun hzero =>
      length_toDigits_of_head?_zero hone hbase (not_not.mp hzero))
  simp only [readNumber, htake, guard, Nat.toDigits_ne_nil, ne_eq, not_false_eq_true, true_and,
    if_pos hlength, if_pos hfront, foldl_filterMap_toDigits hone hbase, if_pos hbound,
    List.drop_left]
  rfl

/-! ### Version 4 -/

/-- What follows an address or a group begins with a character that belongs to neither. -/
def Closed (rest : List Char) : Prop := ∃ c tail, rest = c :: tail ∧ c ∈ [':', '%', ']']

/-- No digit follows. -/
theorem Closed.endsDigits {rest : List Char} (h : Closed rest) {base : Nat} (hbase : base ≤ 16) :
    EndsDigits base rest := by
  obtain ⟨c, tail, rfl, hc⟩ := h
  intro d hd
  obtain rfl : c = d := Option.some.inj hd
  have hnone : digitIn? 16 c = none := by
    rw [List.mem_cons, List.mem_cons, List.mem_singleton] at hc
    rcases hc with rfl | rfl | rfl <;> decide
  exact digitIn?_eq_none hbase hnone

/-- No point follows. -/
theorem Closed.expect_point {rest : List Char} (h : Closed rest) : expect '.' rest = none := by
  obtain ⟨c, tail, rfl, hc⟩ := h
  rw [expect, if_neg]
  rintro rfl
  revert hc
  decide

/-- No digit is a point. -/
theorem endsDigits_point (rest : List Char) : EndsDigits 10 ('.' :: rest) := by
  intro c hc
  obtain rfl : '.' = c := Option.some.inj hc
  decide

/-- An octet is read back. -/
theorem readOctet_decimal (x : UInt8) {rest : List Char} (hrest : EndsDigits 10 rest) :
    readOctet (decimal x.toNat ++ rest) = some (x, rest) := by
  have hx : x.toNat < 256 := x.toNat_lt
  have hwidth : ∀ w ∈ some 3, 0 < w ∧ x.toNat < 10 ^ w := by
    rintro w ⟨⟩
    omega
  have hread := readNumber_toDigits (by decide) (by decide) hx (some 3) hwidth false hrest
  rw [readOctet, decimal, hread, Option.map_some]
  exact congrArg (fun y => some (y, rest)) x.ofNat_toNat

/-- An address of version 4 is read back. -/
theorem readIpv4_toChars (ip : Ipv4) {rest : List Char} (hrest : EndsDigits 10 rest) :
    readIpv4 (ip.toChars ++ rest) = some (ip, rest) := by
  have hpoint (x : UInt8) (rest : List Char) :
      readOctet (decimal x.toNat ++ '.' :: rest) = some (x, '.' :: rest) :=
    readOctet_decimal x (endsDigits_point rest)
  simp only [readIpv4, Ipv4.toChars, List.append_assoc, List.cons_append, hpoint, expect, if_true,
    Option.bind_eq_bind, Option.bind_some, readOctet_decimal ip.d hrest]
  rfl

/-! ### Groups -/

/-- The first group stands at the front, each other one behind a colon. -/
def lead (first : Bool) : List Char := if first then [] else [':']

/-- Behind an octet is what follows its digits. -/
theorem eq_dropWhile_of_readOctet {cs rest : List Char} {x : UInt8}
    (h : readOctet cs = some (x, rest)) :
    rest = cs.dropWhile fun c => (digitIn? 10 c).isSome := by
  have hdrop : cs.drop (cs.takeWhile fun c => (digitIn? 10 c).isSome).length =
      cs.dropWhile fun c => (digitIn? 10 c).isSome := by
    conv_lhs => rw [← List.takeWhile_append_dropWhile (p := fun c => (digitIn? 10 c).isSome)
      (l := cs), List.drop_append]
    simp
  obtain ⟨⟨n, rest'⟩, hread, hx⟩ := Option.map_eq_some_iff.mp h
  obtain rfl : rest' = rest := congrArg Prod.snd hx
  simp only [readNumber, Option.bind_eq_bind, Option.bind_eq_some_iff, Option.pure_def,
    Option.some.injEq, Prod.mk.injEq] at hread
  obtain ⟨_, -, _, -, _, -, -, rfl⟩ := hread
  exact hdrop

/-- The digits of a group are no address of version 4. -/
theorem readIpv4_hexadecimal (n : Nat) {rest : List Char} (hrest : Closed rest) :
    readIpv4 (hexadecimal n ++ rest) = none := by
  have hpoint : ∀ x rest', readOctet (hexadecimal n ++ rest) = some (x, rest') →
      expect '.' rest' = none := by
    intro x rest' hread
    rw [eq_dropWhile_of_readOctet hread, List.dropWhile_append]
    split
    next =>
      obtain ⟨c, tail, rfl, hc⟩ := id hrest
      have hnone : digitIn? 10 c = none := hrest.endsDigits (by decide) c rfl
      rw [List.dropWhile_cons_of_neg (by simp [hnone])]
      exact hrest.expect_point
    next hne =>
      obtain ⟨c, cs, hcons⟩ :=
        List.exists_cons_of_ne_nil fun hnil => hne (List.isEmpty_iff.mpr hnil)
      have hmem : c ∈ hexadecimal n :=
        (List.dropWhile_suffix _).subset (hcons ▸ List.mem_cons_self)
      have hdigit := isSome_digitIn?_of_mem_toDigits (by decide) (by decide) n c hmem
      rw [hcons, List.cons_append, expect, if_neg]
      rintro rfl
      revert hdigit
      decide
  rw [readIpv4]
  cases hread : readOctet (hexadecimal n ++ rest) with
  | none => rfl
  | some r =>
    simp only [Option.bind_eq_bind, Option.bind_some, hpoint r.1 r.2 hread, Option.bind_none]

/-- A group is read, and what follows it. -/
theorem readGroups_cons (limit : Nat) (first : Bool) (g : UInt16) {rest : List Char}
    (hrest : Closed rest) :
    readGroups (limit + 1) first (lead first ++ (hexadecimal g.toNat ++ rest)) =
      (g :: (readGroups limit false rest).1, (readGroups limit false rest).2) := by
  have hnext : (if first then some (lead first ++ (hexadecimal g.toNat ++ rest))
      else expect ':' (lead first ++ (hexadecimal g.toNat ++ rest))) =
      some (hexadecimal g.toNat ++ rest) := by
    cases first <;> simp [lead, expect]
  have hwidth : ∀ w ∈ some 4, 0 < w ∧ g.toNat < 16 ^ w := by
    rintro w ⟨⟩
    exact ⟨by omega, g.toNat_lt⟩
  have hread := readNumber_toDigits (by decide) (by decide) g.toNat_lt (some 4) hwidth true
    (hrest.endsDigits (by decide))
  have hno := readIpv4_hexadecimal g.toNat hrest
  rw [hexadecimal] at hnext hno
  simp only [readGroups, hexadecimal, hnext, Option.bind_some, hno, ite_self, hread]
  exact congrArg (fun x => (x :: _, _)) g.ofNat_toNat

/-- A colon and what follows it. -/
theorem closed_colon (tail : List Char) : Closed (':' :: tail) := ⟨':', tail, rfl, by decide⟩

/-- No group begins where none can. -/
theorem readGroups_closed (limit : Nat) {first : Bool} {cs : List Char}
    (h : ∀ next ∈ (if first then some cs else expect ':' cs), Closed next) :
    readGroups limit first cs = ([], false, cs) := by
  cases limit with
  | zero => rfl
  | succ limit =>
    rw [readGroups]
    cases hnext : if first then some cs else expect ':' cs with
    | none => simp
    | some next =>
      have hclosed : Closed next := h next hnext
      obtain ⟨c, tail, rfl, hc⟩ := id hclosed
      have hten : digitIn? 10 c = none := hclosed.endsDigits (by decide) c rfl
      have hsixteen : digitIn? 16 c = none := hclosed.endsDigits (by decide) c rfl
      simp [readIpv4, readOctet, readNumber, guard, hten, hsixteen]

/-- Several groups are written one behind the other. -/
theorem groupsToChars_cons (g h : UInt16) (gs : List UInt16) :
    groupsToChars (g :: h :: gs) = hexadecimal g.toNat ++ ':' :: groupsToChars (h :: gs) := by
  simp [groupsToChars, List.intercalate_cons_cons]

/-- Groups are read back where no further group follows. -/
theorem readGroups_groupsToChars {gs : List UInt16} {limit : Nat} (hlimit : gs.length ≤ limit)
    {rest : List Char} (hrest : Closed rest) (hlast : ∀ next ∈ expect ':' rest, Closed next) :
    readGroups limit true (groupsToChars gs ++ rest) = (gs, false, rest) := by
  have hmore : ∀ (gs : List UInt16) (limit : Nat) (first : Bool), gs ≠ [] → gs.length ≤ limit →
      readGroups limit first (lead first ++ (groupsToChars gs ++ rest)) = (gs, false, rest) := by
    intro gs
    induction gs with
    | nil => exact fun _ _ hne => absurd rfl hne
    | cons g gs ih =>
      intro limit first _ hlimit
      obtain ⟨limit, rfl⟩ := Nat.exists_eq_succ_of_ne_zero (Nat.ne_zero_of_lt hlimit)
      cases gs with
      | nil =>
        have hone : groupsToChars [g] = hexadecimal g.toNat := by simp [groupsToChars]
        have hend : readGroups limit false rest = ([], false, rest) :=
          readGroups_closed limit (by simpa using hlast)
        rw [hone, readGroups_cons limit first g hrest, hend]
      | cons h gs =>
        rw [groupsToChars_cons, List.append_assoc, List.cons_append,
          readGroups_cons limit first g (closed_colon _)]
        have hnext := ih limit false (by simp) (by simpa using hlimit)
        rw [lead, if_neg (by decide), List.singleton_append] at hnext
        rw [hnext]
  cases gs with
  | nil => exact readGroups_closed limit (by rintro next ⟨⟩; exact hrest)
  | cons g gs => exact hmore (g :: gs) limit true (by simp) hlimit

/-- An address of version 4 that stands for two groups is read as these. -/
theorem readGroups_ipv4 (limit : Nat) (ip : Ipv4) {rest : List Char} (hrest : Closed rest) :
    readGroups (limit + 2) false (':' :: (ip.toChars ++ rest)) =
      ([ip.a.toUInt16 <<< 8 ||| ip.b.toUInt16, ip.c.toUInt16 <<< 8 ||| ip.d.toUInt16], true,
        rest) := by
  have hread := readIpv4_toChars ip (hrest.endsDigits (by decide))
  simp [readGroups, expect, hread]

/-! ### The double colon -/

/-- There is a run of zeros among the groups. -/
def ZerosAt (gs : List UInt16) (start length : Nat) : Prop :=
  start + length ≤ gs.length ∧ ∀ k, start ≤ k → k < start + length → gs[k]? = some 0

namespace ZerosAt

variable {gs : List UInt16} {start length : Nat}

/-- More groups may follow. -/
theorem append (h : ZerosAt gs start length) (g : UInt16) : ZerosAt (gs ++ [g]) start length := by
  obtain ⟨hbound, hzeros⟩ := h
  refine ⟨by simp; omega, fun k hk hlt => ?_⟩
  rw [List.getElem?_append_left (by omega)]
  exact hzeros k hk hlt

/-- A run at the end goes on with one more zero. -/
theorem append_zero (h : ZerosAt gs start length) (hend : start + length = gs.length) :
    ZerosAt (gs ++ [0]) start (length + 1) := by
  refine ⟨by simp; omega, fun k hk hlt => ?_⟩
  by_cases hk' : k < gs.length
  · exact (h.append 0).2 k hk (by omega)
  · obtain rfl : k = gs.length := by omega
    simp

/-- Groups with a run of zeros are those before it, the zeros, and those behind it. -/
theorem split (h : ZerosAt gs start length) :
    gs.take start ++ List.replicate length 0 ++ gs.drop (start + length) = gs := by
  obtain ⟨hbound, hzeros⟩ := h
  have hrun : (gs.drop start).take length = List.replicate length 0 := by
    refine List.eq_replicate_iff.mpr ⟨by simp; omega, fun g hg => ?_⟩
    obtain ⟨k, hk, rfl⟩ := List.getElem_of_mem hg
    have hlt : k < length := by simp at hk; omega
    have hzero := hzeros (start + k) (by omega) (by omega)
    rw [List.getElem_take, List.getElem_drop]
    exact Option.some.inj ((List.getElem?_eq_getElem (by omega)).symm.trans hzero)
  rw [← hrun, ← List.drop_drop, List.append_assoc, List.take_append_drop, List.take_append_drop]

end ZerosAt

/-- The run that is found is a run of zeros, if the best one so far is, and the current one
reaches up to the groups that are left. -/
theorem zerosAt_longestZeros (front gs : List UInt16) (run : Nat) (best : Nat × Nat)
    (hle : run ≤ front.length)
    (hrun : ZerosAt front (front.length - run) run) (hbest : ZerosAt front best.1 best.2) :
    ZerosAt (front ++ gs) (longestZeros front.length run best gs).1
      (longestZeros front.length run best gs).2 := by
  induction gs generalizing front run best with
  | nil => simpa [longestZeros] using hbest
  | cons g gs ih =>
    have hlength : front.length + 1 = (front ++ [g]).length := by simp
    rw [List.append_cons, longestZeros, hlength]
    split
    next hzero =>
      subst hzero
      have hlonger : ZerosAt (front ++ [0]) ((front ++ [0]).length - (run + 1)) (run + 1) := by
        rw [← hlength, Nat.add_sub_add_right]
        exact hrun.append_zero (by omega)
      refine ih _ _ _ (by simp; omega) hlonger ?_
      split
      · exact hlonger
      · exact hbest.append 0
    next => exact ih _ 0 _ (Nat.zero_le _) ⟨by simp, fun k hk hlt => by omega⟩ (hbest.append g)

/-! ### Version 6 -/

/-- A double colon between groups is read as the zeros that are missing. -/
theorem readIpv6_doubleColon {front back : List UInt16} {embedded : Bool} {cs rest : List Char}
    (hback : readGroups (7 - front.length) true cs = (back, embedded, rest)) (ip : Ipv6)
    (hip : ip.groups = front ++ List.replicate (8 - front.length - back.length) 0 ++ back)
    (hfew : front.length < 8) :
    readIpv6 (groupsToChars front ++ ':' :: ':' :: cs) = some (ip, rest) := by
  have hfront : readGroups 8 true (groupsToChars front ++ ':' :: ':' :: cs) =
      (front, false, ':' :: ':' :: cs) :=
    readGroups_groupsToChars hfew.le (closed_colon _) (by rintro next ⟨⟩; exact closed_colon cs)
  have hlength := ip.length_eq
  rw [hip] at hlength
  simp only [readIpv6, hfront, hfew.ne, dif_neg, Bool.false_eq_true, if_false, expect, if_true,
    Option.bind_some, hback, not_false_eq_true, dif_pos hlength, Option.bind_eq_bind]
  obtain ⟨groups, _⟩ := ip
  simp only at hip
  subst hip
  rfl

/-- Groups around the longest run of zeros are read back. -/
theorem readIpv6_compressed (ip : Ipv6) {rest : List Char} (hrest : Closed rest)
    (hlast : expect ':' rest = none) :
    readIpv6 (compressed ip.groups ++ rest) = some (ip, rest) := by
  have hnone : ∀ next ∈ expect ':' rest, Closed next := by simp [hlast]
  have hempty : ZerosAt [] 0 0 := ⟨Nat.le_refl 0, fun k _ hlt => absurd hlt (Nat.not_lt_zero k)⟩
  have hzeros : ZerosAt ip.groups (longestZeros 0 0 (0, 0) ip.groups).1
      (longestZeros 0 0 (0, 0) ip.groups).2 :=
    zerosAt_longestZeros [] ip.groups 0 (0, 0) (Nat.le_refl 0) hempty hempty
  have height := ip.length_eq
  rw [compressed]
  generalize longestZeros 0 0 (0, 0) ip.groups = found at hzeros ⊢
  obtain ⟨start, length⟩ := found
  have hbound : start + length ≤ ip.groups.length := hzeros.1
  simp only
  by_cases hlong : 1 < length
  · have hfront : (ip.groups.take start).length = start := by simp; omega
    have hback : (ip.groups.drop (start + length)).length = 8 - (start + length) := by simp; omega
    rw [if_pos hlong, List.append_assoc, List.cons_append, List.cons_append]
    refine readIpv6_doubleColon (readGroups_groupsToChars (by omega) hrest hnone) ip ?_ (by omega)
    have hlength : 8 - start - (8 - (start + length)) = length := by omega
    rw [hfront, hback, hlength]
    exact hzeros.split.symm
  · have hread : readGroups 8 true (groupsToChars ip.groups ++ rest) = (ip.groups, false, rest) :=
      readGroups_groupsToChars height.le hrest hnone
    rw [if_neg hlong]
    simp only [readIpv6, hread, dif_pos height]

/-- An octet in front of another one makes a group of them. -/
theorem group_eq (g : UInt16) :
    (g >>> 8).toUInt8.toUInt16 <<< 8 ||| g.toUInt8.toUInt16 = g := by
  have hhigh : g.toNat / 256 < 256 := Nat.div_lt_of_lt_mul g.toNat_lt
  have hor : (g.toNat / 256) <<< 8 ||| g.toNat % 256 = g.toNat := by
    rw [← Nat.shiftLeft_add_eq_or_of_lt (Nat.mod_lt g.toNat (by decide : 0 < 2 ^ 8)),
      Nat.shiftLeft_eq]
    omega
  have hshift : (g.toNat / 256) <<< 8 < 65536 := by
    rw [Nat.shiftLeft_eq]
    omega
  simp [← UInt16.toNat_inj, Nat.shiftRight_eq_div_pow, Nat.mod_eq_of_lt hhigh,
    Nat.mod_eq_of_lt hshift, hor]

/-- An address of version 6 is read back. -/
theorem readIpv6_toChars (ip : Ipv6) {rest : List Char} (hrest : Closed rest)
    (hlast : expect ':' rest = none) : readIpv6 (ip.toChars ++ rest) = some (ip, rest) := by
  rw [Ipv6.toChars]
  split
  next g h hgroups =>
    have hmark : "::ffff:".toList = groupsToChars [] ++ ':' :: ':' ::
        (lead true ++ (hexadecimal (0xffff : UInt16).toNat ++ [':'])) := by decide
    rw [hmark, List.append_assoc, List.append_assoc, List.cons_append, List.cons_append,
      List.append_assoc, List.append_assoc, List.singleton_append]
    set octets : Ipv4 := ⟨(g >>> 8).toUInt8, g.toUInt8, (h >>> 8).toUInt8, h.toUInt8⟩
    have hback : readGroups 7 true
        (lead true ++ (hexadecimal (0xffff : UInt16).toNat ++ ':' :: (octets.toChars ++ rest))) =
        ([0xffff, g, h], true, rest) := by
      rw [readGroups_cons 6 true 0xffff (closed_colon _), readGroups_ipv4 4 octets hrest,
        group_eq, group_eq]
    exact readIpv6_doubleColon (show readGroups (7 - ([] : List UInt16).length) true _ = _ from
      hback) ip hgroups (by decide)
  next => exact readIpv6_compressed ip hrest hlast

/-! ### Addresses with a port -/

namespace SocketAddress

/-- A port is read back. -/
theorem readPort_decimal (port : UInt16) :
    readPort (':' :: decimal port.toNat) = some (port, []) := by
  have hend : EndsDigits 10 [] := fun c hc => nomatch hc
  have hread := readNumber_toDigits (by decide) (by decide) port.toNat_lt none (by simp) true hend
  rw [List.append_nil] at hread
  simp [readPort, expect, decimal, hread]

/-- A scope that is left out is zero. -/
theorem readScope_bracket (rest : List Char) : readScope (']' :: rest) = (0, ']' :: rest) := rfl

/-- A scope is read back. -/
theorem readScope_decimal (scope : UInt32) (rest : List Char) :
    readScope ('%' :: (decimal scope.toNat ++ ']' :: rest)) = (scope, ']' :: rest) := by
  have hclosed : Closed (']' :: rest) := ⟨']', rest, rfl, by decide⟩
  have hread := readNumber_toDigits (by decide) (by decide) scope.toNat_lt none (by simp) true
    (hclosed.endsDigits (show 10 ≤ 16 by omega))
  simp [readScope, expect, decimal, hread, UInt32.size]

/-- Every address is read back from its canonical text. -/
theorem parse?_render (a : SocketAddress) : parse? a.render = some a := by
  cases a with
  | v4 ip port =>
    have hread : readV4 (ip.toChars ++ ':' :: decimal port.toNat) = some (v4 ip port, []) := by
      rw [readV4, readIpv4_toChars ip ((closed_colon _).endsDigits (by decide))]
      simp [readPort_decimal]
    rw [parse?, render, String.toList_ofList, hread]
    rfl
  | v6 ip scope port =>
    have hno (cs : List Char) : readV4 ('[' :: cs) = none := by
      have hdigit : (digitIn? 10 '[').isSome = false := by decide
      simp [readV4, readIpv4, readOctet, readNumber, guard, hdigit]
    have hread (zone : List Char) (hzone : Closed (zone ++ ']' :: ':' :: decimal port.toNat))
        (hlast : expect ':' (zone ++ ']' :: ':' :: decimal port.toNat) = none)
        (hscope : readScope (zone ++ ']' :: ':' :: decimal port.toNat) =
          (scope, ']' :: ':' :: decimal port.toNat)) :
        readV6 ('[' :: (ip.toChars ++ (zone ++ ']' :: ':' :: decimal port.toNat))) =
          some (v6 ip scope port, []) := by
      simp [readV6, expect, readIpv6_toChars ip hzone hlast, hscope, readPort_decimal]
    rw [parse?, render, String.toList_ofList, List.append_assoc, List.cons_append, hno]
    by_cases hscope : scope = 0
    · subst hscope
      rw [if_pos rfl, hread [] ⟨']', _, rfl, by decide⟩ rfl (readScope_bracket _)]
      rfl
    · rw [if_neg hscope, hread ('%' :: decimal scope.toNat) ⟨'%', _, rfl, by decide⟩ rfl
        (readScope_decimal scope _)]
      rfl

end SocketAddress

end ServiceHealth.Net
