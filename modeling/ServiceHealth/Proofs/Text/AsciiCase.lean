import Mathlib.Data.List.Forall2
import Mathlib.Tactic.SplitIfs
import ServiceHealth.Text.AsciiCase

/-!
# Texts up to ASCII case

Folding two texts makes them equal just when they are as long as each other and hold, place by
place, the same character or the two forms of one letter among `A`–`Z`.

## Main definitions

* `SameLetter` — a character and itself, or the two forms of a letter.

## Main results

* `sameFolded_iff_forall₂` — texts that agree up to ASCII case.
-/

namespace ServiceHealth.Text

/-- Two characters that are the same, or the capital and the small form of one of `A`–`Z`, whose
code points are 0x41 to 0x5A. -/
inductive SameLetter : Char → Char → Prop
  | same {c} : SameLetter c c
  | capital {c d} : 0x41 ≤ c.toNat → c.toNat ≤ 0x5A → d.toNat = c.toNat + 0x20 → SameLetter c d
  | small {c d} : 0x41 ≤ d.toNat → d.toNat ≤ 0x5A → c.toNat = d.toNat + 0x20 → SameLetter c d

/-- Folding moves the capital letters to the small ones and nothing else. -/
theorem toNat_toLower (c : Char) :
    c.toLower.toNat =
      if 0x41 ≤ c.toNat ∧ c.toNat ≤ 0x5A then c.toNat + 0x20 else c.toNat := by
  have hbounds : (c.val ≥ 'A'.val ∧ c.val ≤ 'Z'.val) ↔ 0x41 ≤ c.toNat ∧ c.toNat ≤ 0x5A := by
    simp only [ge_iff_le, UInt32.le_iff_toNat_le]
    exact Iff.rfl
  unfold Char.toLower
  simp only [hbounds]
  split_ifs with h
  · have hsum : c.toNat + 0x20 < 2 ^ 32 := by omega
    exact (UInt32.toNat_add c.val 0x20).trans (Nat.mod_eq_of_lt hsum)
  · rfl

/-- Folding makes two characters equal just when they are the same letter. -/
theorem toLower_eq_toLower_iff {c d : Char} : c.toLower = d.toLower ↔ SameLetter c d := by
  rw [← Char.toNat_inj, toNat_toLower, toNat_toLower]
  constructor
  · intro h
    split_ifs at h with hc hd hd
    · obtain rfl : c = d := Char.toNat_inj.mp (by omega)
      exact .same
    · exact .capital hc.1 hc.2 h.symm
    · exact .small hd.1 hd.2 h
    · obtain rfl : c = d := Char.toNat_inj.mp h
      exact .same
  · intro h
    cases h with
    | same => rfl
    | capital hlow hhigh heq => rw [if_pos ⟨hlow, hhigh⟩, if_neg (by omega), heq]
    | small hlow hhigh heq =>
      have hcapital : ¬ (0x41 ≤ c.toNat ∧ c.toNat ≤ 0x5A) := by omega
      rw [if_neg hcapital, if_pos ⟨hlow, hhigh⟩, heq]

/-- Two texts agree up to ASCII case just when they hold the same letters, place by place. -/
theorem sameFolded_iff_forall₂ {s t : String} :
    sameFolded s t = true ↔ List.Forall₂ SameLetter s.toList t.toList := by
  rw [sameFolded_iff, foldCase, foldCase, ← List.forall₂_eq_eq_eq, List.forall₂_map_left_iff,
    List.forall₂_map_right_iff]
  simp only [toLower_eq_toLower_iff]

end ServiceHealth.Text
