import ServiceHealth.Program
import ServiceHealth.Server.Message
import Std.Async.DNS
import Std.Async.Signal
import Std.Async.TCP
import Std.Async.Timer
import Std.Sync.CancellationToken

/-!
# The command

Serves the health of applications from the settings file that is named on the command line.
A hangup reloads the file; an interrupt or a termination ends the program. The library decides
what is asked, answered and recorded; here are files, connections, timers and signals.

## Main definitions

* `exchange` — one request to a member, over a connection of its own.
* `probe`, `check` — probes of members that run at the same time, and the check they make up.
* `serveClients` — the answers to those who connect.
* `main` — the command.
-/

namespace ServiceHealth.Command

open Std.Async Net Server

/-- A connection. -/
abbrev Connection := TCP.Socket.Client

/-- The address of a socket. -/
def socketAddress : SocketAddress → Std.Net.SocketAddress
  | .v4 ip port => .v4 ⟨.ofParts ip.a ip.b ip.c ip.d, port⟩
  | .v6 ip _ port => .v6 ⟨⟨⟨ip.groups.toArray, ip.length_eq⟩⟩, port⟩

/-! ### Asking members -/

/-- The addresses of the server of a URL. -/
def addresses (url : Url) : Async (List Std.Net.SocketAddress) := do
  let port := url.port?.getD 80
  match url.authority.map Authority.host with
  | none => return []
  | some (.ipv4 ip) => return [socketAddress (.v4 ip port)]
  | some (.ipv6 ip) => return [socketAddress (.v6 ip 0 port)]
  | some (.name name) =>
    let found ← DNS.getAddrInfo name (toString port)
    return found.toList.map fun
      | .v4 ip => .v4 ⟨ip, port⟩
      | .v6 ip => .v6 ⟨ip, port⟩

/-- A connection to the first of several addresses that accepts one, or the last error. -/
def connect (cause : String) : List Std.Net.SocketAddress → Async (Except String Connection)
  | [] => return .error cause
  | address :: rest => do
    let connection ← TCP.Socket.Client.mk
    try
      connection.connect address
      return .ok connection
    catch e => connect ("tcp connect error: " ++ toString e) rest

/-- A connection to the server of a URL. -/
def connectTo (url : Url) : Async (Except String Connection) := do
  if url.scheme ≠ "http" then return .error "no secure connections"
  try connect "dns error: no address" (← addresses url)
  catch e => return .error ("dns error: " ++ toString e)

/-- The answer that comes over a connection before a timer fires or the asker goes away. -/
def receive (token : Std.CancellationToken) (connection : Connection) (started deadline : Nat) :
    Async Exchange := do
  let mut reception : Reception := {}
  repeat
    let now := (← IO.monoMsNow) - started
    if deadline ≤ now then return reception.abort
    let timer ← Selector.sleep (.ofNat (deadline - now))
    let event : Option (Option ByteArray) ← Selectable.one #[
      .case (connection.recvSelector 65536) fun piece => return some piece,
      .case timer fun _ => return none,
      .case token.selector fun _ => return none]
    match event with
    | none => return reception.abort
    | some piece =>
      let now := (← IO.monoMsNow) - started
      match reception.receive now (piece.map (·.data.toList)) with
      | .inl done => return done
      | .inr more => reception := more
  return reception.abort

/-- What comes of a request for a URL within a number of milliseconds. -/
def exchange (token : Std.CancellationToken) (limit : Nat) (url : Url) : Async Exchange := do
  let started ← IO.monoMsNow
  let attempt : Async (Option (Except String Connection)) := some <$> connectTo url
  let giveUp : Async (Option (Except String Connection)) := do
    sleep (.ofNat limit)
    return none
  match ← Async.race attempt giveUp with
  | none => return .silence
  | some (.error cause) =>
    return .failure ((← IO.monoMsNow) - started) false ("error trying to connect: " ++ cause)
  | some (.ok connection) =>
    try
      connection.send url.requestText.toUTF8
      receive token connection started limit
    catch _ => return .failure ((← IO.monoMsNow) - started) true Reception.closedText

/-- The probe of a member, begun at `now`: one exchange for each URL that is asked. -/
def probe (token : Std.CancellationToken) (timeoutMs : Nat) (name uri : String) (now : Nat) :
    Async Run := do
  let mut known : List Exchange := []
  for _ in [0 : Fetch.maxRedirects + 1] do
    match (Fetch.ofUri (.ofExchanges known) uri).requests[known.length]? with
    | none => break
    | some (sentAt, url) =>
      known := known ++ [← exchange token (max timeoutMs 1 - sentAt) url]
  return Prober.http (.ofExchanges known) timeoutMs name uri now none

/-- The check of an application, begun at `now`, whose tasks are numbered from `task` on. -/
def check (token : Std.CancellationToken) (timeoutMs : Nat) (snapshot : Settings)
    (task now : Nat) (app : Application) : Async Check := do
  let targets := snapshot.targets app
  let running : List (AsyncTask ProbeTask) ← (targets.zipIdx task).mapM fun (target, number) =>
    async do return ⟨number, ← probe token timeoutMs target.1 target.2 now⟩
  return ⟨app.name, now, targets, ← running.mapM fun dispatched => await dispatched⟩

/-! ### Answering requests -/

/-- What a clock shows a number of milliseconds from now. -/
def clock : IO (Nat → Timestamp) := do
  let now := (← Std.Time.Timestamp.now).toNanosecondsSinceUnixEpoch.val
  return fun ms => .ofNanoseconds (now + ms * 1000000)

/-- The checks that answer a query, unless the asker goes away. Each is recorded when it has
ended. -/
def checks (shared : IO.Ref Program) (token : Std.CancellationToken) (clock : Nat → Timestamp)
    (snapshot : Settings) (apps : List Application) : Async (Option (List Check)) := do
  let started ← IO.monoMsNow
  let mut done : List Check := []
  for app in apps do
    let p ← shared.get
    let now := (← IO.monoMsNow) - started
    let c ← check token p.initial.probe.timeoutMs.toNat snapshot p.service.nextTask now app
    if ← token.isCancelled then return none
    shared.modify fun p => { p with service := (p.service.record clock [c]).countTasks [c] }
    done := done ++ [c]
  return some done

/-- The answer to a first line, unless the asker goes away. -/
def answer (shared : IO.Ref Program) (token : Std.CancellationToken) (method target : String) :
    Async (Option Response) := do
  match Request.ofParts? method target with
  | none => return some .badRequest
  | some r =>
    let p ← shared.get
    match gate p.initial.server.basePath p.service.settings r with
    | .error response => return some (response.sentFor r.method)
    | .ok q =>
      let snapshot := (← shared.get).service.settings
      let clock ← clock
      match q.applications snapshot with
      | .error e => return some (respond clock q (.error e))
      | .ok apps => return (← checks shared token clock snapshot apps).map (respond clock q ∘ .ok)

/-- The lines of the head of a request, unless the asker goes away before its end. -/
def receiveHead (connection : Connection) : Async (Option (List (List Char))) := do
  let mut bytes := ByteArray.empty
  repeat
    match ← connection.recv? 65536 with
    | none => return none
    | some piece =>
      bytes := bytes ++ piece
      match headLines? bytes.data.toList with
      | some (lines, _) => return some lines
      | none => if maxHeadLength < bytes.size then return some []
  return none

/-- One request over a connection, and the answer to it. Whoever closes the connection goes
away. -/
def serveClient (connection : Connection)
    (answer : Std.CancellationToken → String → String → Async (Option Response)) :
    Async Unit := do
  let some lines ← receiveHead connection | return ()
  let token ← Std.CancellationToken.new
  background do
    try
      if (← connection.recv? 1).isNone then token.cancel
    catch _ => token.cancel
  let response ←
    match firstLine? lines with
    | none => pure (some .badRequest)
    | some (method, target) => answer token method target
  if let some response := response then
    connection.send response.messageText.toUTF8
    connection.shutdown

/-- A socket that listens at an address. -/
def listenAt (address : SocketAddress) : IO TCP.Socket.Server := do
  let socket ← TCP.Socket.Server.mk
  socket.bind (socketAddress address)
  socket.listen 1024
  return socket

/-- The answers to those who connect. -/
def serveClients (socket : TCP.Socket.Server)
    (answer : Std.CancellationToken → String → String → Async (Option Response)) :
    Async Unit := do
  repeat
    let connection ← socket.accept
    background do
      try serveClient connection answer
      catch _ => pure ()

/-! ### The run -/

/-- The bytes of a file, if it can be read. -/
def readFile? (path : String) : IO (Option ByteArray) := do
  try return some (← IO.FS.readBinFile path)
  catch _ => return none

/-- Tells what has happened, at once. -/
def tell (text : String) : IO Unit := do
  let out ← IO.getStdout
  out.putStrLn text
  out.flush

/-- Reloads the settings whenever the program is hung up on. -/
def reloadOnHangup (shared : IO.Ref Program) : Async Unit := do
  let hangup ← Signal.Waiter.mk .sighup true
  repeat
    let _ ← await (← hangup.wait)
    let bytes ← readFile? (← shared.get).path
    match ← shared.modifyGet (·.reload bytes) with
    | .ok s => tell (Program.reloadedText s)
    | .error e => IO.eprintln e.message

/-- Waits for the signal to end. -/
def untilStopped : Async Unit := do
  let interrupted ← (← Signal.Waiter.mk .sigint false).wait
  let terminated ← (← Signal.Waiter.mk .sigterm false).wait
  let _ ← Async.race (await interrupted) (await terminated)

/-- A run from its start to its end, with the exit code. -/
def run (p : Program) : Async UInt32 := do
  let shared ← IO.mkRef p
  if p.initial.metrics.enabled then
    try
      let socket ← listenAt (.v4 ⟨0, 0, 0, 0⟩ p.initial.metrics.port)
      background <| serveClients socket fun _ method target =>
        return (← shared.get).answerMetrics? method target
    catch e =>
      IO.eprintln ("Error: error creating server listener: " ++ toString e)
      return 1
  background (reloadOnHangup shared)
  try
    let socket ← listenAt p.initial.server.listenAddress
    background (serveClients socket (answer shared))
  catch _ =>
    IO.eprintln ("Error: " ++ (ServeError.bind p.initial.server.listenAddress.render).message)
    return 1
  untilStopped
  return 0

end ServiceHealth.Command

open ServiceHealth in
/-- Serves until a signal ends the program. -/
def main (arguments : List String) : IO UInt32 := do
  let path := settingsPath arguments
  match Program.start path (← Command.readFile? path) with
  | .error e =>
    IO.eprintln (Program.errorText e)
    return 1
  | .ok p =>
    Command.tell (Program.loadedText p.initial)
    (Command.run p).block
