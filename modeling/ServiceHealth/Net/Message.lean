import ServiceHealth.Net.MediaType
import ServiceHealth.Net.Network
import ServiceHealth.Text.Utf8

/-!
# Messages

A message of HTTP/1.1 has a head and a body. The head is a line with the status, or with the
request, then a line for each field, and ends with an empty line. The body of an answer has a
length, or comes in chunks whose lengths stand before them, or ends with the connection.

## Main definitions

* `line?`, `headLines?` — the lines of a head, with the bytes behind them.
* `Head.ofLines?`, `Framing` — the head of an answer, and what ends its body.
* `Reading`, `Reading.ofBytes` — what is known of an answer of which some bytes have come.
* `Reception` — an answer while it comes, with the time of what has come.
* `Url.requestText` — the message that asks for a URL.
-/

namespace ServiceHealth.Net

open Number Text

/-! ### Lines -/

/-- The first line without its end, and the bytes behind it, once its end has come. -/
def line? (bytes : List UInt8) : Option (List Char × List UInt8) :=
  match bytes.dropWhile (· ≠ 0x0A) with
  | [] => none
  | _ :: rest =>
    let line := bytes.takeWhile (· ≠ 0x0A)
    some (Utf8.decode (if line.getLast? = some 0x0D then line.dropLast else line), rest)

/-- A line takes at least one byte. -/
theorem length_lt_of_line? {bytes rest : List UInt8} {line : List Char}
    (h : line? bytes = some (line, rest)) : rest.length < bytes.length := by
  have hle : (bytes.dropWhile (· ≠ 0x0A)).length ≤ bytes.length :=
    (List.dropWhile_sublist _).length_le
  unfold line? at h
  split at h
  · simp at h
  · rename_i b tail htail
    obtain ⟨-, rfl⟩ := Prod.mk.inj (Option.some.inj h)
    rw [htail] at hle
    exact hle

/-- The lines before the first empty one, and the bytes behind that, once it has come. -/
def headLines? (bytes : List UInt8) : Option (List (List Char) × List UInt8) :=
  match _h : line? bytes with
  | none => none
  | some ([], rest) => some ([], rest)
  | some (line, rest) => (headLines? rest).map fun r => (line :: r.1, r.2)
termination_by bytes.length
decreasing_by exact length_lt_of_line? ‹_›

/-- A head takes at least one byte. -/
theorem length_lt_of_headLines? {bytes rest : List UInt8} {lines : List (List Char)}
    (h : headLines? bytes = some (lines, rest)) : rest.length < bytes.length := by
  fun_induction headLines? bytes generalizing lines with
  | case1 => simp at h
  | case2 bytes rest' hline =>
    obtain ⟨-, rfl⟩ := Prod.mk.inj (Option.some.inj h)
    exact length_lt_of_line? hline
  | case3 bytes line rest' _ hline ih =>
    obtain ⟨r, hr, heq⟩ := Option.map_eq_some_iff.1 h
    obtain ⟨-, rfl⟩ := Prod.mk.inj heq
    exact Nat.lt_trans (ih hr) (length_lt_of_line? hline)

/-! ### Heads -/

/-- A blank within a line. -/
def isLineBlank (c : Char) : Bool := c == ' ' || c == '\t'

/-- A text without the blanks at its ends. -/
def trimLine (cs : List Char) : List Char :=
  ((cs.dropWhile isLineBlank).reverse.dropWhile isLineBlank).reverse

/-- The name and the value of a field. -/
def fieldOf? (line : List Char) : Option (String × String) :=
  match line.dropWhile (· ≠ ':') with
  | [] => none
  | _ :: value =>
    let name := line.takeWhile (· ≠ ':')
    if name ≠ [] ∧ name.all isTokenChar then
      some (String.ofList name, String.ofList (trimLine value))
    else none

/-- The versions of messages that are read. -/
def isVersion (cs : List Char) : Bool := cs = "HTTP/1.1".toList || cs = "HTTP/1.0".toList

/-- The code of a line with the status. -/
def statusOf? (line : List Char) : Option StatusCode :=
  match line.splitOn ' ' with
  | version :: code :: _ =>
    if isVersion version ∧ code.length = 3 then (numberIn? 10 code).bind StatusCode.ofNat?
    else none
  | _ => none

/-- The head of an answer. -/
def Head.ofLines? : List (List Char) → Option Head
  | [] => none
  | status :: fields => do return ⟨← statusOf? status, ← fields.mapM fieldOf?⟩

/-- What ends the body of an answer. -/
inductive Framing
  | length (n : Nat)
  | chunks
  | close
  deriving DecidableEq, Repr

/-- An answer with this code has no body. -/
def isBodiless (c : StatusCode) : Bool := c.value < 200 || c.value == 204 || c.value == 304

/-- What ends the body behind a head. -/
def Head.framing? (h : Head) : Option Framing :=
  if isBodiless h.code then some (.length 0)
  else
    match h.field? "transfer-encoding", h.field? "content-length" with
    | some coding, _ => some (if sameFolded coding "chunked" then .chunks else .close)
    | none, some text =>
      if text = "" then none else (numberIn? 10 text.toList).map .length
    | none, none => some .close

/-! ### Bodies -/

/-- The length of a chunk, before any extension. -/
def chunkLength? (line : List Char) : Option Nat :=
  let digits := trimLine (line.takeWhile (· ≠ ';'))
  if digits = [] then none else numberIn? 16 digits

/-- The bytes of a body in chunks, once all of them have come. A chunk of length zero is the
last one. -/
def unchunk? (bytes : List UInt8) : Option (List UInt8) :=
  match _h : line? bytes with
  | none => none
  | some (line, rest) =>
    match chunkLength? line with
    | none => none
    | some 0 => if (headLines? rest).isSome then some [] else none
    | some n =>
      match _hdrop : rest.drop n with
      | 0x0D :: 0x0A :: next => (unchunk? next).map (rest.take n ++ ·)
      | _ => none
termination_by bytes.length
decreasing_by
  have hlt : rest.length < bytes.length := length_lt_of_line? ‹_›
  have hle : (rest.drop n).length ≤ rest.length := by simp
  rw [‹rest.drop n = _›] at hle
  simp only [List.length_cons] at hle
  omega

/-- The bytes of a body, once all of them have come. -/
def Framing.body? (f : Framing) (bytes : List UInt8) (closed : Bool) : Option (List UInt8) :=
  match f with
  | length n => if n ≤ bytes.length then some (bytes.take n) else none
  | chunks => unchunk? bytes
  | close => if closed then some bytes else none

/-! ### Answers -/

/-- What is known of an answer of which some bytes have come: not even its head, that it is no
answer, or its head and, if all of it has come, its body. -/
inductive Reading
  | unfinished
  | unreadable
  | headed (head : Head) (body : Option (List UInt8))
  deriving DecidableEq, Repr

/-- The code of a head that announces another one. -/
def isInterim (c : StatusCode) : Bool := c.value < 200 && c.value != 101

/-- What is known of an answer after some bytes, behind which the connection may be closed.
Heads that announce another one are skipped. -/
def Reading.ofBytes (closed : Bool) (bytes : List UInt8) : Reading :=
  match _h : headLines? bytes with
  | none => .unfinished
  | some (lines, rest) =>
    match Head.ofLines? lines with
    | none => .unreadable
    | some head =>
      if isInterim head.code then ofBytes closed rest
      else
        match head.framing? with
        | none => .unreadable
        | some framing => .headed head (framing.body? rest closed)
termination_by bytes.length
decreasing_by exact length_lt_of_headLines? ‹_›

/-- An answer while it comes: its bytes, and its head with the time at which it was there. -/
structure Reception where
  bytes : List UInt8 := []
  head : Option (Nat × Head) := none
  deriving DecidableEq, Repr

namespace Reception

/-- The cause when a connection ends without an answer. -/
def closedText : String := "connection closed before message completed"

/-- The cause when a connection ends within a body. -/
def brokenText : String :=
  "error reading a body from connection: end of file before message length reached"

/-- The exchange, or the answer with what is known of it after some bytes at `now`; no bytes
stand for the end of the connection. -/
def receive (r : Reception) (now : Nat) (piece : Option (List UInt8)) : Exchange ⊕ Reception :=
  let bytes := r.bytes ++ piece.getD []
  match Reading.ofBytes piece.isNone bytes with
  | .unreadable => .inl (.failure now true closedText)
  | .unfinished =>
    if piece.isNone then .inl (.failure now true closedText) else .inr { r with bytes }
  | .headed head body =>
    let came := (r.head.map Prod.fst).getD now
    match body with
    | some body => .inl (.answer came head (.complete (now - came) body))
    | none =>
      if piece.isNone then .inl (.answer came head (.broken (now - came) brokenText))
      else .inr ⟨bytes, some (came, head)⟩

/-- The exchange when nothing more is waited for. -/
def abort (r : Reception) : Exchange :=
  match r.head with
  | some (time, head) => .answer time head .endless
  | none => .silence

end Reception

/-! ### Requests -/

/-- The message that asks for a URL, on a connection of its own. -/
def Url.requestText (u : Url) : String :=
  let host := u.authority.elim "" fun a => { a with username := "", password := none }.render
  "GET " ++ pathText true u.path ++ u.query.elim "" ("?" ++ ·) ++ " HTTP/1.1\r\n" ++
    "accept: */*\r\nconnection: close\r\nhost: " ++ host ++ "\r\n\r\n"

/-! ### Examples -/

example : Reading.ofBytes false "HTTP/1.1 204 No Content\r\nA: b \r\n\r\n".toUTF8.data.toList =
    .headed ⟨⟨204, by decide, by decide⟩, [("A", "b")]⟩ (some []) := by decide +kernel
example : unchunk? "2;x\r\nab\r\n1\nc\r\n0\r\n\r\n".toUTF8.data.toList =
    some [0x61, 0x62, 0x63] := by decide +kernel

end ServiceHealth.Net
