import ServiceHealth.Text.Utf8

/-!
# Charsets

A body is announced in a charset by a label, and which labels there are, and how the bytes of a
charset are read, is up to the decoders of a client. Three charsets need no tables to speak of and
are decoded here. A byte order mark at the front decides over the charset that was announced, and
is not part of the text. Malformed bytes are read as U+FFFD.

## Main definitions

* `Charset`, `Charset.ofLabel?` — charsets and the labels that announce them.
* `Charset.decode` — the text of a sequence of bytes.
* `Decoders` — the decoders of a client.
-/

namespace ServiceHealth.Text

/-- The charsets that are decoded here. -/
inductive Charset
  | utf8
  | windows1252
  | utf16 (bigEndian : Bool)
  deriving DecidableEq, Repr

namespace Charset

/-- The labels of UTF-8. -/
def utf8Labels : List String :=
  ["utf-8", "utf8", "unicode-1-1-utf-8", "unicode11utf8", "unicode20utf8", "x-unicode20utf8"]

/-- The labels of Windows-1252, those of ASCII and of ISO 8859-1 among them. -/
def windows1252Labels : List String :=
  ["windows-1252", "ansi_x3.4-1968", "ascii", "cp1252", "cp819", "csisolatin1", "ibm819",
   "iso-8859-1", "iso-ir-100", "iso8859-1", "iso88591", "iso_8859-1", "iso_8859-1:1987", "l1",
   "latin1", "us-ascii", "x-cp1252"]

/-- The labels of UTF-16 with the low byte first. -/
def utf16Labels : List String :=
  ["utf-16", "utf-16le", "csunicode", "iso-10646-ucs-2", "ucs-2", "unicode", "unicodefeff"]

/-- The labels of UTF-16 with the high byte first. -/
def utf16BigLabels : List String := ["utf-16be", "unicodefffe"]

/-- The white space that may surround a label. -/
def isLabelSpace (c : Char) : Bool :=
  c == ' ' || c == '\t' || c == '\n' || c == '\x0c' || c == '\r'

/-- The charset that a label announces, in either case and with white space around it. -/
def ofLabel? (label : List Char) : Option Charset :=
  let trimmed := ((label.dropWhile isLabelSpace).reverse.dropWhile isLabelSpace).reverse
  let name := String.ofList (trimmed.map Char.toLower)
  if utf8Labels.contains name then some utf8
  else if windows1252Labels.contains name then some windows1252
  else if utf16Labels.contains name then some (utf16 false)
  else if utf16BigLabels.contains name then some (utf16 true)
  else none

/-- The code points of the bytes 0x80 to 0x9F in Windows-1252. -/
def windows1252High : List Nat :=
  [0x20AC, 0x81, 0x201A, 0x192, 0x201E, 0x2026, 0x2020, 0x2021, 0x2C6, 0x2030, 0x160, 0x2039,
   0x152, 0x8D, 0x17D, 0x8F, 0x90, 0x2018, 0x2019, 0x201C, 0x201D, 0x2022, 0x2013, 0x2014,
   0x2DC, 0x2122, 0x161, 0x203A, 0x153, 0x9D, 0x17E, 0x178]

/-- The character of a byte in Windows-1252; outside the table it is the code point itself. -/
def windows1252Char (b : UInt8) : Char :=
  let n := b.toNat
  Char.ofNat (if 0x80 ≤ n then (windows1252High[n - 0x80]?).getD n else n)

/-- The 16-bit units of a sequence of bytes, and whether a byte is left over. -/
def units (bigEndian : Bool) : List UInt8 → List Nat × Bool
  | [] => ([], false)
  | [_] => ([], true)
  | a :: b :: bs =>
    let unit := if bigEndian then a.toNat * 256 + b.toNat else b.toNat * 256 + a.toNat
    let (us, odd) := units bigEndian bs
    (unit :: us, odd)

/-- The characters of a sequence of units. A first half of a pair may be pending; a half that
stands alone is replaced, and so is a byte left over at the end. -/
def decodeUnits (odd : Bool) : Option Nat → List Nat → List Char
  | none, [] => if odd then [Utf8.replacement] else []
  | some _, [] => [Utf8.replacement]
  | none, u :: us =>
    if 0xD800 ≤ u ∧ u < 0xDC00 then decodeUnits odd (some u) us
    else if 0xDC00 ≤ u ∧ u < 0xE000 then Utf8.replacement :: decodeUnits odd none us
    else Char.ofNat u :: decodeUnits odd none us
  | some h, u :: us =>
    if 0xDC00 ≤ u ∧ u < 0xE000 then
      Char.ofNat (0x10000 + (h - 0xD800) * 0x400 + (u - 0xDC00)) :: decodeUnits odd none us
    else if 0xD800 ≤ u ∧ u < 0xDC00 then Utf8.replacement :: decodeUnits odd (some u) us
    else Utf8.replacement :: Char.ofNat u :: decodeUnits odd none us

/-- The characters of a sequence of bytes without a byte order mark. -/
def decodeBody : Charset → List UInt8 → List Char
  | utf8, bs => Utf8.decode bs
  | windows1252, bs => bs.map windows1252Char
  | utf16 bigEndian, bs => decodeUnits (units bigEndian bs).2 none (units bigEndian bs).1

/-- The charset that a byte order mark announces, and the bytes after it. -/
def ofMark? : List UInt8 → Option (Charset × List UInt8)
  | bs =>
    if bs.take 3 = [0xEF, 0xBB, 0xBF] then some (utf8, bs.drop 3)
    else if bs.take 2 = [0xFF, 0xFE] then some (utf16 false, bs.drop 2)
    else if bs.take 2 = [0xFE, 0xFF] then some (utf16 true, bs.drop 2)
    else none

/-- The text of a sequence of bytes. -/
def decode (c : Charset) (bs : List UInt8) : String :=
  let (c, bs) := (ofMark? bs).getD (c, bs)
  String.ofList (c.decodeBody bs)

example : ofLabel? " ISO-8859-1".toList = some windows1252 := by decide +kernel
example : decode windows1252 [0x80, 0xE9] = "€é" := by decide +kernel
example : decode utf8 [0xFF, 0xFE, 0x61, 0x00] = "a" := by decide +kernel
example : decode (utf16 true) [0xD8, 0x3D, 0xDE, 0x00, 0xD8] = "😀\ufffd" := by decide +kernel

/-- Whatever the charset is, no text is made of no bytes. -/
theorem decode_nil (c : Charset) : c.decode [] = "" := by
  cases c <;> rfl

end Charset

/-- The decoders that a client has for the labels of charsets: for all that are in use, or for some
of them. Nothing is known of how they read bytes, except that no text is made of no bytes. -/
structure Decoders where
  find? : (label : List Char) → Option (List UInt8 → String)
  decode_nil : ∀ {label decode}, find? label = some decode → decode [] = ""

namespace Decoders

/-- The decoders of the charsets that are decoded here. -/
def basic : Decoders where
  find? label := (Charset.ofLabel? label).map Charset.decode
  decode_nil h := by
    obtain ⟨c, -, rfl⟩ := Option.map_eq_some_iff.mp h
    exact c.decode_nil

/-- The text of a sequence of bytes whose charset a label announces. It is read as UTF-8 if there is
no label, or no decoder for it. -/
def text (d : Decoders) (label : Option (List Char)) (bs : List UInt8) : String :=
  (label.bind d.find?).getD Charset.utf8.decode bs

end Decoders

end ServiceHealth.Text
