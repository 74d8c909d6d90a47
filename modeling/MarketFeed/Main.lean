import Std.Async.Signal
import Std.Async.Timer
import Std.Async.UDP
import MarketFeed.Program

/-!
The program on real files and sockets. A feed that is to be joined for one sender is joined for the
whole group, and what others send is dropped. Receive buffers are left as the system sets them.
-/
namespace MarketFeed.Main

open Std.Async

def fileFault : IO.Error → FileFault
  | .noFileOrDirectory .. => .missing
  | .inappropriateType _ code details =>
    if code == 20 then .notDirectory else if code == 21 then .directory else .other details
  | e => .other (toString e)

def readFile (path : String) : IO (Except FileFault Bytes) := do
  try return .ok (← IO.FS.readBinFile path).toList
  catch e => return .error (fileFault e)

def environment : IO (List (String × String)) := do
  let names := Settings.pathVariable :: Setting.all.map Setting.variableName
  names.filterMapM fun name => do return (← IO.getEnv name).map (name, ·)

def print (c : Console) (events : List FeedEvent) : IO Unit := do
  let out ← IO.getStdout
  for event in events do
    try
      out.putStr (c.text event)
      out.flush
    catch _ => pure ()

def socketAddress (e : Net.Endpoint) : Std.Net.SocketAddress :=
  .v4 ⟨.ofParts e.address.a e.address.b e.address.c e.address.d, e.port⟩

def ipAddress (x : Net.Address) : Std.Net.IPAddr := .v4 (.ofParts x.a x.b x.c x.d)

def socketFault (e : IO.Error) : Net.SocketFault := .other (toString e)

def join (t : Net.MulticastTarget) : IO (Except Net.JoinError UDP.Socket) := do
  let socket ← UDP.Socket.mk
  try socket.bind (socketAddress ⟨⟨0, 0, 0, 0⟩, t.port⟩)
  catch e => return .error (.bind (socketFault e))
  try socket.setMembership (ipAddress t.group) (some (ipAddress t.interface)) .enterGroup
  catch e => return .error (.membership t.source.isSome (socketFault e))
  return .ok socket

inductive Arrival where
  | datagram (raw : Bytes)
  | elapsed
  | interrupted

structure Inlet where
  socket : UDP.Socket
  accepts : Std.Net.SocketAddress → Bool
  interrupt : Option Signal.Waiter

partial def Inlet.wait (i : Inlet) (deadline : Option Nat) : Async Arrival := do
  let mut sources : Array (Selectable (Arrival × Bool)) := #[
    .case (i.socket.recvSelector receiveBufferSize.toUInt64) fun (raw, sender) =>
      return (.datagram raw.toList, (sender.map i.accepts).getD false)]
  if let some limit := deadline then
    let left := limit - (← IO.monoMsNow)
    let elapsed ← Selector.sleep (.ofNat left)
    sources := sources.push (.case elapsed fun _ => return (.elapsed, true))
  if let some signal := i.interrupt then
    sources := sources.push (.case signal.selector fun _ => return (.interrupted, true))
  let (arrival, wanted) ← Selectable.one sources
  if wanted then return arrival else i.wait deadline

def after (milliseconds : Nat) : IO Nat := do return (← IO.monoMsNow) + milliseconds

partial def listen (c : Console) (inlet : Inlet) (feed : LiveFeed) : Async Unit := do
  match ← inlet.wait none with
  | .elapsed | .interrupted => return
  | .datagram raw =>
    let done := feed.accept raw
    print c done.events
    if done.stops then print c done.feed.stop.events else listen c inlet done.feed

partial def acquire (inlet : Inlet) (deadline : Option Nat) : Async (Option Header) := do
  match ← inlet.wait deadline with
  | .elapsed | .interrupted => return none
  | .datagram raw =>
    match Header.read raw with
    | .ok h => return some h
    | .error _ => acquire inlet deadline

partial def gather (c : Console) (inlet : Inlet) (replyWait : Nat) (request : ChunkRequest)
    (g : Gathering) : Async Chunk := do
  let reply ← try
      match ← inlet.wait (some (← after replyWait)) with
      | .datagram raw => pure (Reply.datagram raw)
      | .elapsed | .interrupted => pure .timeout
    catch _ => pure .failure
  let taken := g.take request reply
  print c taken.events
  if taken.ended then
    return ⟨taken.state.pipeline, taken.state.received, taken.capReached, [], []⟩
  gather c inlet replyWait request taken.state

partial def recoverFrom (c : Console) (inlet : Inlet) (server : Net.Endpoint) (replyWait : Nat)
    (session : Session) (size : UInt16) (s : RecoveryState) :
    Async (Except RecoveryError RecoveryReport) := do
  let request := s.request size
  print c [.chunkRequested session request.start request.count]
  let datagram := Rerequest.write ⟨session, request.start, request.count⟩
  try inlet.socket.send ⟨datagram.toArray⟩ (some (socketAddress server))
  catch e => return .error (.send (.socket (socketFault e)))
  let chunk ← gather c inlet replyWait request ⟨s.pipeline, 0, 0⟩
  print c [.chunkFinished request.start request.count chunk.received]
  let next := s.answered chunk
  match next.outcome? chunk with
  | none => recoverFrom c inlet server replyWait session size next
  | some outcome =>
    print c (next.closing outcome)
    return .ok (next.report session outcome)

def recover (task : Task) (feed : Inlet) (server : Net.Endpoint) (replyWait : Nat)
    (plan : RecoveryPlan) : Async (Except RecoveryError RecoveryReport) := do
  let socket ← UDP.Socket.mk
  socket.bind (socketAddress ⟨⟨0, 0, 0, 0⟩, 0⟩)
  match ← acquire feed (← plan.sessionTimeout.mapM fun limit => after limit) with
  | none => return .error (.sessionTimeout (plan.sessionTimeout.getD 0))
  | some h =>
    print task.console [.sessionAcquired h.session h.sequence]
    recoverFrom task.console ⟨socket, (· == socketAddress server), none⟩ server replyWait h.session
      (chunkOrDefault plan.chunkSize) ⟨task.pipeline, .start plan.start plan.total, 0⟩

def accepts (source : Option Net.Address) (sender : Std.Net.SocketAddress) : Bool :=
  match source with
  | none => true
  | some x => sender.ipAddr == ipAddress x

def perform (task : Task) : Async (Except Failure Bool) := do
  match ← join task.target with
  | .error e => return .error (.join e)
  | .ok socket =>
    let feed : Inlet := ⟨socket, accepts task.target.source, none⟩
    match task.job with
    | .listen =>
      let interrupt ← Signal.Waiter.mk .sigint false
      listen task.console { feed with interrupt := some interrupt } (.fresh task.pipeline)
      return .ok true
    | .recover server replyWait plan =>
      match ← recover task feed server replyWait plan with
      | .error e => return .error (.recovery e)
      | .ok report => return .ok report.outcome.isSuccess

def fail (f : Failure) : IO UInt32 := do
  IO.eprint f.complaint
  return 1

def run (arguments : List String) : IO UInt32 := do
  match Command.parse arguments with
  | .error e => fail (.options e)
  | .ok .help =>
    IO.print usage
    return 0
  | .ok (.run o) =>
    let found ← environment
    match ← Task.prepare readFile (found.lookup ·) o with
    | .error f => fail f
    | .ok task =>
      match ← (perform task).block with
      | .error f => fail f
      | .ok success => return if success then 0 else 1

end MarketFeed.Main

def main (arguments : List String) : IO UInt32 := MarketFeed.Main.run arguments
