import ServiceHealth.Proofs.Number.HexDigit
import ServiceHealth.Text.Percent

/-!
# Reading percent-encoded names

A name may be percent-encoded in many ways: any of its bytes may be written with two digits of
either case, and only the delimiters of a path have to be. Reading any of these encodings gives
the name, and none of them holds a slash. What is no proper encoding is read as well: a percent sign
without two digits behind it stands for itself.

## Main definitions

* `Percent.Encodes` — the encodings of a sequence of bytes.
* `Percent.StandsFor` — what any sequence of bytes is read as.

## Main results

* `Percent.Encodes.decode?_eq` — every encoding of a name is read as the name.
* `Percent.Encodes.slash_not_mem` — an encoding is within one segment of a path.
* `Percent.encodes_flatMap_encodeByte` — every name has an encoding.
* `Percent.decode?_eq_some_iff` — a text is read as a name just when its bytes stand for those of
  the name.
-/

namespace ServiceHealth.Text.Percent

open Number

/-- The bytes that delimit the parts of a path, and the percent sign: `/`, `%`, `?` and `#`. -/
def delimiters : List UInt8 := [0x2F, 0x25, 0x3F, 0x23]

/-- The second sequence of bytes is a percent-encoding of the first one: each byte that is no
delimiter may stand for itself, and every byte may be written with two digits. -/
inductive Encodes : List UInt8 → List UInt8 → Prop
  | nil : Encodes [] []
  | plain {b bs es} : b ∉ delimiters → Encodes bs es → Encodes (b :: bs) (b :: es)
  | escaped {c d v w bs es} : HexDigit c v → HexDigit d w → Encodes bs es →
      Encodes ((v * 16 + w).toUInt8 :: bs) (sign :: c.toNat.toUInt8 :: d.toNat.toUInt8 :: es)

/-! ### Bytes -/

/-- The bytes of a text are those of its characters. -/
theorem bytes_eq_flatMap (s : String) : bytes s = s.toList.flatMap String.utf8EncodeChar := by
  rw [bytes, String.toUTF8_eq_toByteArray, ← String.utf8Encode_toList, List.utf8Encode,
    List.toList_data_toByteArray]

/-- The bytes of two texts in a row. -/
theorem bytes_append (s t : String) : bytes (s ++ t) = bytes s ++ bytes t := by
  simp only [bytes_eq_flatMap, String.toList_append, List.flatMap_append]

/-- A text without bytes is empty. -/
theorem bytes_eq_nil_iff {s : String} : bytes s = [] ↔ s = "" := by
  rw [bytes_eq_flatMap, List.flatMap_eq_nil_iff]
  constructor
  · intro h
    refine String.toList_inj.mp (List.eq_nil_iff_forall_not_mem.mpr fun c hc => ?_)
    exact String.utf8EncodeChar_ne_nil (h c hc)
  · rintro rfl
    simp

/-- The byte of a hexadecimal digit is its code point. -/
theorem toNat_byte {c : Char} {v : Nat} (h : HexDigit c v) : c.toNat.toUInt8.toNat = c.toNat := by
  have := h.toNat_lt
  rw [Nat.toUInt8, UInt8.toNat_ofNat', Nat.mod_eq_of_lt (by omega)]

/-- The byte of a hexadecimal digit is read as its value. -/
theorem digitOf?_byte {c : Char} {v : Nat} (h : HexDigit c v) :
    digitOf? c.toNat.toUInt8 = some v := by
  rw [digitOf?, toNat_byte h, Char.ofNat_toNat, h.digitIn?_eq]

/-! ### Reading -/

/-- A byte other than the percent sign stands for itself. -/
theorem decodeBytes_cons {b : UInt8} (hb : b ≠ sign) (bs : List UInt8) :
    decodeBytes (b :: bs) = b :: decodeBytes bs := by
  rcases bs with - | ⟨c, - | ⟨d, rest⟩⟩
  · rfl
  · rfl
  · rw [decodeBytes, if_neg hb]

/-- A percent sign and two digits stand for a byte. -/
theorem decodeBytes_escaped {c d : Char} {v w : Nat} (hc : HexDigit c v) (hd : HexDigit d w)
    (bs : List UInt8) :
    decodeBytes (sign :: c.toNat.toUInt8 :: d.toNat.toUInt8 :: bs) =
      (v * 16 + w).toUInt8 :: decodeBytes bs := by
  have hpair : pairOf? c.toNat.toUInt8 d.toNat.toUInt8 = some (v * 16 + w).toUInt8 := by
    rw [pairOf?, digitOf?_byte hc, digitOf?_byte hd]
    rfl
  rw [decodeBytes, if_pos rfl, hpair]

/-- Every encoding of bytes is read as the bytes. -/
theorem Encodes.decodeBytes_eq {bs es : List UInt8} (h : Encodes bs es) : decodeBytes es = bs := by
  induction h with
  | nil => rfl
  | @plain b bs es hb _ ih =>
    have hsign : b ≠ sign := by
      rintro rfl
      exact hb (by decide)
    rw [decodeBytes_cons hsign, ih]
  | escaped hc hd _ ih => rw [decodeBytes_escaped hc hd, ih]

/-- The bytes of a text are read as the text. -/
theorem fromUTF8?_bytes (s : String) : String.fromUTF8? ⟨(bytes s).toArray⟩ = some s := by
  rw [bytes, Array.toArray_toList, String.toUTF8_eq_toByteArray, String.fromUTF8?,
    dif_pos s.isValidUTF8]
  rfl

/-- Every encoding of a name is read as the name. -/
theorem Encodes.decode?_eq {name encoded : String} (h : Encodes (bytes name) (bytes encoded)) :
    decode? encoded = some name := by
  rw [decode?, h.decodeBytes_eq, fromUTF8?_bytes]

/-! ### Segments -/

/-- An encoding holds no byte of a slash. -/
theorem Encodes.slash_byte_not_mem {bs es : List UInt8} (h : Encodes bs es) : 0x2F ∉ es := by
  have hdigit {c : Char} {v : Nat} (hc : HexDigit c v) : (0x2F : UInt8) ≠ c.toNat.toUInt8 := by
    intro heq
    have hcode : '/'.toNat = c.toNat := by rw [← toNat_byte hc, ← heq]; rfl
    exact hc.ne_of_not_isAlphanum rfl (Char.toNat_inj.mp hcode).symm
  induction h with
  | nil => simp
  | @plain b bs es hb _ ih =>
    rw [List.mem_cons]
    rintro (rfl | hmem)
    · exact hb (by decide)
    · exact ih hmem
  | escaped hc hd _ ih =>
    simp only [List.mem_cons, not_or]
    exact ⟨by decide, hdigit hc, hdigit hd, ih⟩

/-- An encoding is within one segment of a path. -/
theorem Encodes.slash_not_mem {bs : List UInt8} {encoded : String}
    (h : Encodes bs (bytes encoded)) : '/' ∉ encoded.toList := by
  intro hmem
  have hbyte : 0x2F ∈ bytes encoded := by
    rw [bytes_eq_flatMap, List.mem_flatMap]
    exact ⟨'/', hmem, by decide⟩
  exact h.slash_byte_not_mem hbyte

/-- The encoding of a name is not empty, as the name is not. -/
theorem Encodes.ne_empty {name encoded : String} (h : Encodes (bytes name) (bytes encoded))
    (hname : name ≠ "") : encoded ≠ "" := by
  rintro rfl
  rw [bytes_eq_nil_iff.mpr rfl] at h
  generalize hbs : bytes name = bs at h
  cases h
  exact hname (bytes_eq_nil_iff.mp hbs)

/-! ### Encoding every byte -/

/-- A capital digit is a hexadecimal digit. -/
theorem hexDigit_capitalDigit {v : Nat} (hv : v < 16) : HexDigit (capitalDigit v) v := by
  by_cases hten : v < 10
  · have h : capitalDigit v = Char.ofNat (0x30 + v) := by interval_cases v <;> decide
    exact h ▸ .decimal hten
  · have hlow : 10 ≤ v := Nat.le_of_not_lt hten
    have h : capitalDigit v = Char.ofNat (0x41 + (v - 10)) := by interval_cases v <;> decide
    exact h ▸ .capital hlow hv

/-- A capital digit is a character of one byte. -/
theorem utf8EncodeChar_capitalDigit {v : Nat} (hv : v < 16) :
    String.utf8EncodeChar (capitalDigit v) = [(capitalDigit v).toNat.toUInt8] := by
  interval_cases v <;> decide

/-- A text with every byte encoded is an encoding of it, so every text has one. -/
theorem encodes_flatMap_encodeByte (bs : List UInt8) :
    Encodes bs (bytes (String.ofList (bs.flatMap encodeByte))) := by
  rw [bytes_eq_flatMap, String.toList_ofList]
  induction bs with
  | nil => exact .nil
  | cons b bs ih =>
    have hbyte : b.toNat < 256 := b.toNat_lt
    have hvalue : (b.toNat / 16 * 16 + b.toNat % 16).toUInt8 = b := by
      rw [Nat.div_add_mod']
      simp
    have hhigh : b.toNat / 16 < 16 := by omega
    have hlow : b.toNat % 16 < 16 := by omega
    have hbytes : (encodeByte b).flatMap String.utf8EncodeChar =
        [sign, (capitalDigit (b.toNat / 16)).toNat.toUInt8,
          (capitalDigit (b.toNat % 16)).toNat.toUInt8] := by
      simp only [encodeByte, List.flatMap_cons, List.flatMap_nil,
        utf8EncodeChar_capitalDigit hhigh, utf8EncodeChar_capitalDigit hlow]
      rfl
    have hstep := Encodes.escaped (hexDigit_capitalDigit hhigh) (hexDigit_capitalDigit hlow) ih
    rw [hvalue] at hstep
    rwa [List.flatMap_cons, List.flatMap_append, hbytes]

/-! ### Reading what is no proper encoding -/

/-- A percent sign with two hexadecimal digits behind it is at the front. -/
def BeginsEscape (es : List UInt8) : Prop :=
  ∃ c d v w rest, HexDigit c v ∧ HexDigit d w ∧
    es = sign :: c.toNat.toUInt8 :: d.toNat.toUInt8 :: rest

/-- What bytes stand for: a percent sign and the two hexadecimal digits behind it for one byte, and
each other byte for itself, also a percent sign without two digits. -/
inductive StandsFor : List UInt8 → List UInt8 → Prop
  | nil : StandsFor [] []
  | escaped {c d v w es bs} : HexDigit c v → HexDigit d w → StandsFor es bs →
      StandsFor (sign :: c.toNat.toUInt8 :: d.toNat.toUInt8 :: es) ((v * 16 + w).toUInt8 :: bs)
  | kept {e es bs} : ¬ BeginsEscape (e :: es) → StandsFor es bs → StandsFor (e :: es) (e :: bs)

/-- A byte that is read as a digit is the byte of this digit. -/
theorem exists_hexDigit_of_digitOf? {b : UInt8} {v : Nat} (h : digitOf? b = some v) :
    ∃ c, HexDigit c v ∧ c.toNat.toUInt8 = b := by
  refine ⟨Char.ofNat b.toNat, hexDigit_of_digitIn? h, ?_⟩
  have hvalid : b.toNat.isValidChar := .inl (by have := b.toNat_lt; omega)
  rw [Char.ofNat, dif_pos hvalid]
  exact UInt8.ofNat_toNat

/-- The byte of a hexadecimal digit is no percent sign. -/
theorem byte_ne_sign {c : Char} {v : Nat} (h : HexDigit c v) : c.toNat.toUInt8 ≠ sign := by
  intro heq
  have hcode : c.toNat = '%'.toNat := by rw [← toNat_byte h, heq]; rfl
  exact h.ne_of_not_isAlphanum rfl (Char.toNat_inj.mp hcode)

/-- A byte at which no escape begins is read as itself. -/
theorem decodeBytes_kept {e : UInt8} {es : List UInt8} (h : ¬ BeginsEscape (e :: es)) :
    decodeBytes (e :: es) = e :: decodeBytes es := by
  rcases es with - | ⟨a, - | ⟨b, rest⟩⟩
  · rfl
  · rfl
  · have hpair : (if e = sign then pairOf? a b else none) = none := by
      split
      next hsign =>
        cases hv : digitOf? a with
        | none => simp [pairOf?, hv]
        | some v =>
          cases hw : digitOf? b with
          | none => simp [pairOf?, hv, hw]
          | some w =>
            obtain ⟨c, hc, rfl⟩ := exists_hexDigit_of_digitOf? hv
            obtain ⟨d, hd, rfl⟩ := exists_hexDigit_of_digitOf? hw
            exact absurd ⟨c, d, v, w, rest, hc, hd, by rw [hsign]⟩ h
      next => rfl
    rw [decodeBytes, hpair]

/-- What bytes stand for is what they are read as. -/
theorem StandsFor.decodeBytes_eq {es bs : List UInt8} (h : StandsFor es bs) :
    decodeBytes es = bs := by
  induction h with
  | nil => rfl
  | escaped hc hd _ ih => rw [decodeBytes_escaped hc hd, ih]
  | kept hnone _ ih => rw [decodeBytes_kept hnone, ih]

/-- All bytes stand for what they are read as. -/
theorem standsFor_decodeBytes (es : List UInt8) : StandsFor es (decodeBytes es) := by
  induction hlength : es.length using Nat.strong_induction_on generalizing es with
  | h n ih =>
    cases es with
    | nil => exact .nil
    | cons e es =>
      subst hlength
      by_cases hescape : BeginsEscape (e :: es)
      · obtain ⟨c, d, v, w, rest, hc, hd, heq⟩ := hescape
        rw [heq, decodeBytes_escaped hc hd]
        refine .escaped hc hd (ih rest.length ?_ rest rfl)
        rw [heq, List.length_cons, List.length_cons, List.length_cons]
        omega
      · rw [decodeBytes_kept hescape]
        exact .kept hescape (ih es.length (Nat.lt_succ_self _) es rfl)

/-- An escape that begins behind bytes takes none of them, as its sign is no digit. -/
theorem not_beginsEscape_append {e : UInt8} {es : List UInt8} (h : ¬ BeginsEscape (e :: es))
    (rest : List UInt8) : ¬ BeginsEscape (e :: (es ++ sign :: rest)) := by
  rintro ⟨c, d, v, w, tail, hc, hd, heq⟩
  rcases es with - | ⟨a, - | ⟨b, es⟩⟩
  · simp only [List.nil_append, List.cons.injEq] at heq
    exact byte_ne_sign hc heq.2.1.symm
  · simp only [List.cons_append, List.nil_append, List.cons.injEq] at heq
    exact byte_ne_sign hd heq.2.2.1.symm
  · simp only [List.cons_append, List.cons.injEq] at heq
    obtain ⟨rfl, rfl, rfl, -⟩ := heq
    exact h ⟨c, d, v, w, es, hc, hd, rfl⟩

/-- An escape ends what stands before it and is read by itself. -/
theorem StandsFor.append_escape {es bs rest ts : List UInt8} (h : StandsFor es bs)
    (hrest : StandsFor (sign :: rest) ts) : StandsFor (es ++ sign :: rest) (bs ++ ts) := by
  induction h with
  | nil => exact hrest
  | escaped hc hd _ ih => exact .escaped hc hd ih
  | kept hnone _ ih => exact .kept (not_beginsEscape_append hnone rest) ih

/-- Bytes are the UTF-8 of a text just when they are the bytes of the text. -/
theorem fromUTF8?_eq_some_iff {bs : List UInt8} {s : String} :
    String.fromUTF8? ⟨bs.toArray⟩ = some s ↔ bs = bytes s := by
  constructor
  · intro h
    rw [String.fromUTF8?] at h
    split at h
    next hvalid =>
      obtain rfl := Option.some.inj h
      rfl
    next => cases h
  · rintro rfl
    exact fromUTF8?_bytes s

/-- A text is read as a name just when its bytes stand for those of the name. -/
theorem decode?_eq_some_iff {encoded name : String} :
    decode? encoded = some name ↔ StandsFor (bytes encoded) (bytes name) := by
  rw [decode?, fromUTF8?_eq_some_iff]
  constructor
  · intro h
    exact h ▸ standsFor_decodeBytes _
  · exact StandsFor.decodeBytes_eq

end ServiceHealth.Text.Percent
