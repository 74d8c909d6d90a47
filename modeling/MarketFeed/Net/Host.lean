import MarketFeed.Net.Address

/-!
What a machine answers when datagram sockets are opened on it. The only interface is the loopback,
which may be down; routes to other networks are left out. Faults are tested in the order in which a
system tests them. The queue of a socket is lossless and in order of sending, each datagram is cut to
the buffer it is received into, and a socket that talks to one remote drops what others send.
-/
namespace MarketFeed.Net

inductive SocketFault where
  | permissionDenied
  | noDevice
  | invalidArgument
  | messageTooLong
  | addressInUse
  | unreachable
  | other (text : String)
  deriving DecidableEq, Repr

def SocketFault.message : SocketFault → String
  | .permissionDenied => "Permission denied (os error 13)"
  | .noDevice => "No such device (os error 19)"
  | .invalidArgument => "Invalid argument (os error 22)"
  | .messageTooLong => "Message too long (os error 90)"
  | .addressInUse => "Address already in use (os error 98)"
  | .unreachable => "Network is unreachable (os error 101)"
  | .other text => text

structure Host where
  loopback : Bool
  taken : List UInt16
  deriving DecidableEq, Repr

namespace Host

def isolated : Host := ⟨false, []⟩

def has (h : Host) (x : Address) : Bool := h.loopback && x.isLoopback

def sendFault? (h : Host) (target : Endpoint) (size : Nat) : Option SocketFault :=
  if 65535 < size then some .messageTooLong
  else if target.port == 0 then some .invalidArgument
  else if !h.has target.address then some .unreachable
  else if target.address == .loopbackBroadcast then some .permissionDenied
  else if 65507 < size then some .messageTooLong
  else none

end Host

structure MulticastTarget where
  group : Address
  port : UInt16
  interface : Address
  source : Option Address
  deriving DecidableEq, Repr

inductive JoinError where
  | bind (fault : SocketFault)
  | membership (fromSource : Bool) (fault : SocketFault)
  deriving DecidableEq, Repr

def JoinError.message : JoinError → String
  | .bind fault => s!"failed to create multicast socket: bind(): {fault.message}"
  | .membership true fault =>
    s!"failed to create multicast socket: IP_ADD_SOURCE_MEMBERSHIP: {fault.message}"
  | .membership false fault =>
    s!"failed to create multicast socket: IP_ADD_MEMBERSHIP: {fault.message}"

def Host.join (h : Host) (target : MulticastTarget) : Except JoinError Unit :=
  if h.taken.contains target.port then .error (.bind .addressInUse)
  else if !target.group.isMulticast then
    .error (.membership target.source.isSome .invalidArgument)
  else if !h.has target.interface then .error (.membership target.source.isSome .noDevice)
  else .ok ()

inductive Sender where
  | remote
  | stranger
  deriving DecidableEq, Repr

structure Delivery where
  sender : Sender
  raw : Bytes
  deriving DecidableEq, Repr

abbrev Mailbox := List Delivery

namespace Mailbox

def receiveAny (buffer : Nat) : Mailbox → Option Bytes × Mailbox
  | [] => (none, [])
  | d :: rest => (some (d.raw.take buffer), rest)

def receive (buffer : Nat) : Mailbox → Option Bytes × Mailbox
  | [] => (none, [])
  | d :: rest =>
    match d.sender with
    | .remote => (some (d.raw.take buffer), rest)
    | .stranger => receive buffer rest

end Mailbox

end MarketFeed.Net
