-- Two sockets of one host: the sender, which the backlog writes to, and the
-- receiver. The sender never blocks. Whether datagrams get through depends
-- on the wire between the two.
import Outbox.Rehearsal.Scene

namespace Outbox.Rehearsal.Loopback

/-! ## The wire -/

inductive Wire where
  /-- A datagram for the receiver arrives once, whole and in order. -/
  | lossless
  /-- Whatever is sent is gone: nothing arrives. -/
  | silent
  deriving DecidableEq

def receiver : Address := ⟨"receiver"⟩

/-- The faults that the sender meets. Its socket knows only the older address
family, and no socket listens under the number 0. -/
def fault? (destination : Address) : Option SystemFault :=
  if destination.text.startsWith "[" then some .familyNotSupported
  else if destination.text.endsWith ":0" then some .invalidArgument
  else none

/-- A socket can be bound to the addresses of its own host. -/
def bindFault? (address : Address) : Option SystemFault :=
  if address.text.startsWith "127." ∨ address.text.startsWith "0.0.0.0:" then none
  else some .addressNotAvailable

structure Host where
  wire : Wire
  stage : Stage := {}
  /-- Datagrams at the receiver, the oldest first. -/
  arrived : List Bytes := []

namespace Host

/-- An empty datagram is sent like any other, and its length is answered. -/
def send (h : Host) (datagram : Bytes) (destination : Address) :
    Except ChannelFault Nat × Host :=
  match fault? destination with
  | some fault => (.error (.system fault), h)
  | none =>
    (.ok datagram.length,
      if h.wire = .lossless ∧ destination = receiver then
        { h with arrived := h.arrived ++ [datagram] }
      else h)

def receive (h : Host) (n : Nat) : Option (List Bytes × Host) :=
  if n ≤ h.arrived.length then some (h.arrived.take n, { h with arrived := h.arrived.drop n })
  else none

def onStage {α : Type} (f : Stage → α × Stage) (h : Host) : α × Host :=
  ((f h.stage).1, { h with stage := (f h.stage).2 })

def surroundings : Surroundings Host where
  acquire least direct := onStage (Stage.acquire least direct)
  release buffer h := { h with stage := h.stage.release buffer }
  produce connection buffer := onStage (Stage.produce connection buffer)
  peerAddress connection h := h.stage.peerAddress connection
  fireTimer connection := onStage (Stage.fireTimer connection)
  isClosing connection := onStage (Stage.isClosing connection)
  finaliseClose connection := onStage (Stage.finaliseClose connection)
  dispose _ h := h
  send _ datagram destination h := h.send datagram destination

end Host

/-! ## Steps -/

inductive Action where
  | raw (data : Bytes) (destination : Address)
  | write (data : Bytes) (destination : Address)
  | flush (script : List ProduceCue) (remote : Address)
  | bind (address : Address)

/-- An action, and how many datagrams are received after it. -/
structure Step where
  action : Action
  receive : Nat

inductive Answer where
  | count (n : Nat)
  | flag (value : Bool)
  | text (text : String)
  | failed (failure : Failure)

inductive Mishap where
  | nothingReceived
  | endless
  deriving DecidableEq

def Mishap.message : Mishap → String
  | .nothingReceived => "nothing received"
  | .endless => "the step does not come to an end"

structure Account where
  answer : Answer
  received : List Bytes
  pool : Pool

structure Scene where
  host : Host
  backlog : Backlog := {}
  connections : Nat := 0

namespace Scene

def play {α : Type} (s : Scene) (a : Act Host α) : Ran Host α := a Host.surroundings s.host

def sender : Channel := ⟨"sender"⟩

/-- Every flush has a connection of its own. -/
def nextConnection (s : Scene) : Connection := ⟨toString s.connections⟩

def answerOf : Progress → Except Mishap Answer
  | .completed => .ok (.flag false)
  | .refused => .ok (.flag true)
  | .failed failure => .ok (.failed failure)
  | .unfinished => .error .endless

def perform (s : Scene) (request : Backlog.Request) : Except Mishap (Answer × Scene) := do
  let ran := s.play (s.backlog.perform s.host.stage.rounds request)
  return (← answerOf ran.value.1, { s with host := ran.world, backlog := ran.value.2 })

def act (s : Scene) : Action → Except Mishap (Answer × Scene)
  | .raw data destination =>
    let (answer, host) := s.host.send data destination
    match answer with
    | .ok n => return (.count n, { s with host })
    | .error e => return (.failed (.channel e), { s with host })
  | .write data destination =>
    let ran := s.play ((·.append data) <$> Act.acquire data.length true)
    { s with host := ran.world }.perform (.write sender ran.value destination)
  | .flush script remote =>
    let connection := s.nextConnection
    let stage := s.host.stage.setConnection connection { remote, produce := script }
    { s with host := { s.host with stage }, connections := s.connections + 1 }.perform
      (.flush connection sender)
  | .bind address =>
    match bindFault? address with
    | some fault => return (.failed (.channel (.system fault)), s)
    | none => return (.text "bound", s)

/-- Acts, flushes what waits, and receives. -/
def take (s : Scene) (step : Step) : Except Mishap (Account × Scene) := do
  let (answer, s) ← s.act step.action
  let ran := s.play (s.backlog.flush s.host.stage.rounds s.host.stage.drains)
  match ran.world.receive step.receive with
  | some (received, host) =>
    return (⟨answer, received, host.stage.pool⟩, { s with host, backlog := ran.value.2 })
  | none => throw .nothingReceived

def takeAll (s : Scene) : List Step → Except Mishap (List Account)
  | [] => return []
  | step :: rest => do
    let (account, s) ← s.take step
    return account :: (← s.takeAll rest)

end Scene

/-- Takes all steps on a new host with the given wire. -/
def rehearse (wire : Wire) (steps : List Step) : Except Mishap (List Account) :=
  { host := { wire } : Scene }.takeAll steps

end Outbox.Rehearsal.Loopback
