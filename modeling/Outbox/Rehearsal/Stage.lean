-- The stage: a pool, channels and connections that answer from scripts.
-- It serves as surroundings, so commands can be rehearsed on it.
import Outbox.Pool
import Outbox.Surroundings
import Outbox.Rehearsal.Register
import Outbox.Rehearsal.Script

namespace Outbox.Rehearsal

structure Stage where
  pool : Pool := {}
  /-- Bytes that every buffer from the pool comes with. -/
  leftover : Bytes := []
  channels : Register Channel ScriptedChannel := {}
  connections : Register Connection ScriptedConnection := {}

namespace Stage

def acquire (least : Nat) (_direct : Bool) (s : Stage) : Buffer × Stage :=
  let (buffer, pool) := s.pool.acquire least
  (buffer.append s.leftover, { s with pool })

def release (buffer : Buffer) (s : Stage) : Stage := { s with pool := s.pool.release buffer }

def setConnection (s : Stage) (c : Connection) (conn : ScriptedConnection) : Stage :=
  { s with connections := s.connections.insert c conn }

/-- The next prepared poll. Without one there is nothing to send. -/
def produce (c : Connection) (_buffer : Buffer) (s : Stage) :
    (Bytes × Except EngineFault Nat) × Stage :=
  match s.connections.get? c with
  | some conn =>
    match conn.produce with
    | cue :: rest =>
      ((cue.data, cue.answer),
        s.setConnection c ({ conn with produce := rest }.afterCue cue.change))
    | [] => (([], .ok 0), s)
  | none => (([], .ok 0), s)

def peerAddress (c : Connection) (s : Stage) : Address :=
  match s.connections.get? c with
  | some conn => conn.remote
  | none => ⟨""⟩

/-- The next prepared firing. Without one nothing happens. -/
def fireTimer (c : Connection) (s : Stage) : Except EngineFault Unit × Stage :=
  match s.connections.get? c with
  | some conn =>
    match conn.timer with
    | cue :: rest =>
      (cue.answer, s.setConnection c ({ conn with timer := rest }.afterCue cue.change))
    | [] => (.ok (), s)
  | none => (.ok (), s)

def isClosing (c : Connection) (s : Stage) : Bool × Stage :=
  match s.connections.get? c with
  | some conn => (conn.closed, s)
  | none => (false, s)

/-- The next prepared close. Without one nothing is finalised. -/
def finaliseClose (c : Connection) (s : Stage) : Except EngineFault Bool × Stage :=
  match s.connections.get? c with
  | some conn =>
    match conn.close with
    | cue :: rest =>
      (cue.answer, s.setConnection c ({ conn with close := rest }.afterCue cue.change))
    | [] => (.ok false, s)
  | none => (.ok false, s)

/-- The next prepared answer, else the channel's mode decides. -/
def send (c : Channel) (datagram : Bytes) (_destination : Address) (s : Stage) :
    Except ChannelFault Nat × Stage :=
  match s.channels.get? c with
  | some chan =>
    match chan.script with
    | cue :: rest =>
      (cue.answer datagram, { s with channels := s.channels.insert c { chan with script := rest } })
    | [] => ((SendCue.inMode chan.mode).answer datagram, s)
  | none => (.ok 0, s)

def surroundings : Surroundings Stage where
  acquire
  release
  produce
  peerAddress
  fireTimer
  isClosing
  finaliseClose
  dispose := fun _ s => s
  send

/-! ## How long the scripts last -/

/-- Rounds enough for any attempt on this stage. A round either uses up a
prepared poll, or sends what was left in the buffer before the attempt or by
a poll that answered none, or finds that the engine has nothing left, before
and after a forced close. -/
def rounds (s : Stage) : Nat := s.connections.values.foldr (fun c n => c.polls + n) 5

/-- Drains enough to empty a backlog on this stage, if no channel is in the
mode that blocks. Every drain but the last stops at a prepared refusal, or
at an empty datagram, for which a poll was used up. -/
def drains (s : Stage) : Nat :=
  s.channels.values.foldr (fun c n => c.script.length + n) s.rounds

end Stage

end Outbox.Rehearsal
