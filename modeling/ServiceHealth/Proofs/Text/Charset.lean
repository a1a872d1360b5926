import Mathlib.Tactic.IntervalCases
import ServiceHealth.Proofs.Text.Percent
import ServiceHealth.Text.Charset

/-!
# Reading texts back from their bytes

The bytes of a character are a lead byte and continuation bytes of six bits each. The machine
that reads bytes goes through them without a replacement and gives the character back, so a
text that begins with an ASCII character, and hence with no byte order mark, is read back whole.

## Main results

* `Utf8.decodeFrom_utf8EncodeChar` — the bytes of a character are read as the character.
* `Utf8.decode_bytes` — the bytes of a text are read as the text.
* `Charset.decode_bytes` — so they are with a charset of UTF-8, if no mark stands in front.
-/

namespace ServiceHealth.Text

open Percent (bytes bytes_eq_flatMap)

namespace Utf8

variable {k : Nat} (bs : List UInt8)

/-! ### Lead bytes -/

/-- A byte below 128 is a character. -/
theorem decodeFrom_ascii (h : k < 0x80) :
    decodeFrom none (UInt8.ofNat k :: bs) = Char.ofNat k :: decodeFrom none bs := by
  have hk : (UInt8.ofNat k).toNat = k := UInt8.toNat_ofNat_of_lt' (by norm_num; omega)
  have hlt : UInt8.ofNat k < 0x80 := UInt8.lt_iff_toNat_lt.mpr (hk.symm ▸ h)
  rw [decodeFrom, step, first, if_pos hlt, hk]
  rfl

/-- The lead byte of two has a bit among its upper four. -/
theorem decodeFrom_two (hlow : 2 ≤ k) (hhigh : k < 0x20) :
    decodeFrom none (UInt8.ofNat (k + 0xC0) :: bs) =
      decodeFrom (some { bits := k, further := 0 }) bs := by
  interval_cases k <;> rfl

/-- The lead byte of three restricts the next one for the first and the thirteenth value. -/
theorem decodeFrom_three (h : k < 0x10) :
    decodeFrom none (UInt8.ofNat (k + 0xE0) :: bs) =
      decodeFrom (some {
        bits := k, further := 1
        low := if k = 0 then 0xA0 else 0x80
        high := if k = 0xD then 0x9F else 0xBF }) bs := by
  interval_cases k <;> rfl

/-- The lead byte of four restricts the next one for the first and the last value. -/
theorem decodeFrom_four (h : k < 5) :
    decodeFrom none (UInt8.ofNat (k + 0xF0) :: bs) =
      decodeFrom (some {
        bits := k, further := 2
        low := if k = 0 then 0x90 else 0x80
        high := if k = 4 then 0x8F else 0xBF }) bs := by
  interval_cases k <;> rfl

/-! ### Continuation bytes -/

variable {bits further : Nat} {low high : UInt8}

/-- A continuation byte is in the range that is expected. -/
theorem continuation_mem (h : k < 0x40) (hlow : low.toNat ≤ k + 0x80)
    (hhigh : k + 0x80 ≤ high.toNat) :
    (UInt8.ofNat (k + 0x80)).toNat = k + 0x80 ∧
      low ≤ UInt8.ofNat (k + 0x80) ∧ UInt8.ofNat (k + 0x80) ≤ high := by
  have hk : (UInt8.ofNat (k + 0x80)).toNat = k + 0x80 :=
    UInt8.toNat_ofNat_of_lt' (by norm_num; omega)
  rw [UInt8.le_iff_toNat_le, UInt8.le_iff_toNat_le, hk]
  exact ⟨rfl, hlow, hhigh⟩

/-- **Step.** A continuation byte adds its six bits. -/
theorem decodeFrom_further (h : k < 0x40) (hlow : low.toNat ≤ k + 0x80)
    (hhigh : k + 0x80 ≤ high.toNat) :
    decodeFrom (some ⟨bits, further + 1, low, high⟩) (UInt8.ofNat (k + 0x80) :: bs) =
      decodeFrom (some { bits := bits * 64 + k, further }) bs := by
  obtain ⟨hk, hrange⟩ := continuation_mem h hlow hhigh
  simp only [decodeFrom, step, if_pos hrange, hk, Nat.add_sub_cancel, List.nil_append]

/-- **Step.** The last continuation byte completes the character. -/
theorem decodeFrom_last (h : k < 0x40) (hlow : low.toNat ≤ k + 0x80)
    (hhigh : k + 0x80 ≤ high.toNat) :
    decodeFrom (some ⟨bits, 0, low, high⟩) (UInt8.ofNat (k + 0x80) :: bs) =
      Char.ofNat (bits * 64 + k) :: decodeFrom none bs := by
  obtain ⟨hk, hrange⟩ := continuation_mem h hlow hhigh
  simp only [decodeFrom, step, if_pos hrange, hk, Nat.add_sub_cancel, List.cons_append,
    List.nil_append]

/-- The second byte is in the range that two values of the lead byte restrict, if it is in the
restricted one for each of these. -/
theorem second_mem {lead last n : Nat} (hfirst : lead = 0 → low.toNat ≤ n)
    (hlast : lead = last → n ≤ high.toNat) (hlow : 0x80 ≤ n) (hhigh : n ≤ 0xBF) :
    (if lead = 0 then low else 0x80).toNat ≤ n ∧
      n ≤ (if lead = last then high else 0xBF).toNat := by
  constructor
  · split
    next h => exact hfirst h
    next => exact hlow
  · split
    next h => exact hlast h
    next => exact hhigh

/-! ### Characters and texts -/

/-- **Run.** The bytes of a character are read as the character. -/
theorem decodeFrom_utf8EncodeChar (c : Char) :
    decodeFrom none (String.utf8EncodeChar c ++ bs) = c :: decodeFrom none bs := by
  have hvalid : c.val.toNat < 0xD800 ∨ 0xDFFF < c.val.toNat ∧ c.val.toNat < 0x110000 := c.valid
  have hchar {n : Nat} (h : n = c.val.toNat) : Char.ofNat n = c := h ▸ Char.ofNat_toNat c
  generalize hv : c.val.toNat = v at hvalid hchar
  simp only [String.utf8EncodeChar, hv]
  have hsix (n : Nat) : n % 64 < 0x40 ∧ UInt8.toNat 0x80 ≤ n % 64 + 0x80 ∧
      n % 64 + 0x80 ≤ UInt8.toNat 0xBF :=
    ⟨Nat.mod_lt n (by norm_num), Nat.le_add_left 0x80 _, show n % 64 + 0x80 ≤ 0xBF by omega⟩
  split_ifs with hone htwo hthree <;> simp only [List.cons_append, List.nil_append]
  · rw [decodeFrom_ascii _ (by omega), hchar rfl]
  · obtain ⟨hlt, hlow, hhigh⟩ := hsix v
    rw [decodeFrom_two _ (by omega) (by omega), decodeFrom_last _ hlt hlow hhigh, hchar (by omega)]
  · -- No overlong form and no surrogate: the range of the second byte is kept.
    have hsecond :
        (if v / 4096 % 16 = 0 then 0xA0 else 0x80 : UInt8).toNat ≤ v / 64 % 64 + 0x80 ∧
          v / 64 % 64 + 0x80 ≤ (if v / 4096 % 16 = 0xD then 0x9F else 0xBF : UInt8).toNat :=
      second_mem (fun h => show 0xA0 ≤ _ by omega) (fun h => show _ ≤ 0x9F by omega)
        (by omega) (by omega)
    obtain ⟨hlt, hlow, hhigh⟩ := hsix v
    rw [decodeFrom_three _ (by omega), decodeFrom_further _ (hsix _).1 hsecond.1 hsecond.2,
      decodeFrom_last _ hlt hlow hhigh, hchar (by omega)]
  · -- Neither an overlong form nor a number past the last code point.
    have hsecond :
        (if v / 262144 % 8 = 0 then 0x90 else 0x80 : UInt8).toNat ≤ v / 4096 % 64 + 0x80 ∧
          v / 4096 % 64 + 0x80 ≤ (if v / 262144 % 8 = 4 then 0x8F else 0xBF : UInt8).toNat :=
      second_mem (fun h => show 0x90 ≤ _ by omega) (fun h => show _ ≤ 0x8F by omega)
        (by omega) (by omega)
    obtain ⟨hlt, hlow, hhigh⟩ := hsix (v / 64)
    obtain ⟨hlt', hlow', hhigh'⟩ := hsix v
    rw [decodeFrom_four _ (by omega), decodeFrom_further _ (hsix _).1 hsecond.1 hsecond.2,
      decodeFrom_further _ hlt hlow hhigh, decodeFrom_last _ hlt' hlow' hhigh', hchar (by omega)]

/-- The bytes of a text are read as the text. -/
theorem decode_bytes (s : String) : decode (bytes s) = s.toList := by
  rw [decode, bytes_eq_flatMap]
  induction s.toList with
  | nil => rfl
  | cons c cs ih => rw [List.flatMap_cons, decodeFrom_utf8EncodeChar, ih]

end Utf8

namespace Charset

/-- Bytes that begin below 128 have no byte order mark in front. -/
theorem ofMark?_cons {b : UInt8} (h : b < 0x80) (bs : List UInt8) : ofMark? (b :: bs) = none := by
  have hmark {m : UInt8} (hm : 0x80 ≤ m) : b ≠ m := fun heq => UInt8.not_lt.mpr hm (heq ▸ h)
  rw [ofMark?]
  simp [hmark (m := 0xEF) (by decide), hmark (m := 0xFF) (by decide), hmark (m := 0xFE) (by decide)]

/-- A text in UTF-8 that begins with an ASCII character is read back. -/
theorem decode_bytes {s : String} {c : Char} {cs : List Char} (hs : s.toList = c :: cs)
    (hc : c.val.toNat < 0x80) : utf8.decode (bytes s) = s := by
  have hfront : String.utf8EncodeChar c = [UInt8.ofNat c.val.toNat] := by
    rw [String.utf8EncodeChar]
    exact if_pos (by omega)
  have hmark : ofMark? (bytes s) = none := by
    rw [bytes_eq_flatMap, hs, List.flatMap_cons, hfront]
    refine ofMark?_cons ?_ _
    rw [UInt8.lt_iff_toNat_lt, UInt8.toNat_ofNat_of_lt' (hc.trans (by decide))]
    exact hc
  rw [decode, hmark, Option.getD_none]
  simp only [decodeBody, Utf8.decode_bytes, String.ofList_toList]

end Charset

end ServiceHealth.Text
