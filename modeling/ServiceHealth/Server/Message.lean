import ServiceHealth.Net.Message
import ServiceHealth.Server.Handler

/-!
# Messages of the server

A request arrives as a head, of which the first line is read. Its parts are separated by single
spaces. An answer is sent with its length, unless it is empty, and the connection is closed
behind it.

## Main definitions

* `firstLine?` — the method and the target of a request.
* `Response.headText`, `Response.messageText` — the message that brings an answer.
-/

namespace ServiceHealth.Server

open Net

/-- How many bytes a head may have. -/
def maxHeadLength : Nat := 131072

/-- The method and the target in the first line of a head that is not empty. -/
def firstLine? (lines : List (List Char)) : Option (String × String) :=
  match lines.find? (· ≠ []) with
  | none => none
  | some line =>
    match line.splitOn ' ' with
    | [method, target, version] =>
      if isVersion version then some (String.ofList method, String.ofList target) else none
    | _ => none

namespace Response

/-- The words that go with a status. -/
def reason : Nat → String
  | 200 => "OK"
  | 400 => "Bad Request"
  | 404 => "Not Found"
  | 405 => "Method Not Allowed"
  | _ => ""

/-- The head of the message that brings an answer. -/
def headText (r : Response) : String :=
  "HTTP/1.1 " ++ toString r.status ++ " " ++ reason r.status ++ "\r\n" ++
    r.contentType.elim "" ("content-type: " ++ · ++ "\r\n") ++
    (if r.body = "" then ""
      else "content-length: " ++ toString r.body.utf8ByteSize ++ "\r\n") ++
    "connection: close\r\n\r\n"

/-- The message that brings an answer. -/
def messageText (r : Response) : String := r.headText ++ r.body

end Response

example : (firstLine? ["GET /a HTTP/1.1".toList]) = some ("GET", "/a") := by decide +kernel
example : (Response.text 404 "Not Found").messageText =
    "HTTP/1.1 404 Not Found\r\ncontent-length: 9\r\nconnection: close\r\n\r\nNot Found" := by
  decide +kernel

end ServiceHealth.Server
