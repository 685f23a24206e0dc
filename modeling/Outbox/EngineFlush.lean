-- The command that moves datagrams from a connection's engine to a channel,
-- until the engine has none left or the channel would block.
--
-- A datagram that the channel refused stays in the buffer. The next attempt
-- sends it before it asks the engine for another one, so the engine is never
-- polled while one of its datagrams is still unsent.
import Outbox.Policy
import Outbox.Surroundings
import Outbox.Progress

namespace Outbox

inductive Purpose where
  | send
  | timeout
  deriving DecidableEq

namespace Purpose

def word : Purpose → String
  | .send => "send"
  | .timeout => "timeout"

def name : Purpose → String
  | .send => "Send"
  | .timeout => "Timeout"

end Purpose

structure EngineFlush where
  purpose : Purpose
  connection : Connection
  channel : Channel
  policy : Policy
  /-- The buffer in use. It is empty, or holds a datagram still unsent. -/
  held : Option Buffer := none
  /-- Whether the engine was asked to finalise its close. -/
  closeRequested : Bool := false
  deriving DecidableEq

namespace EngineFlush

variable {σ : Type}

inductive Turn where
  | again (flush : EngineFlush)
  | stop (progress : Progress) (flush : EngineFlush)

def takeBuffer (f : EngineFlush) : Act σ Buffer :=
  match f.held with
  | some buffer => return buffer
  | none => return (← Act.acquire f.policy.minCapacity f.policy.direct).clear

def transmit (f : EngineFlush) (buffer : Buffer) : Act σ Turn := do
  let destination ← Act.peerAddress f.connection
  match ← Act.send f.channel buffer.contents destination with
  | .error e => return .stop (.failed (.channel e)) { f with held := some buffer }
  | .ok 0 => return .stop .refused { f with held := some buffer }
  | .ok (_ + 1) => return .again { f with held := some buffer.clear }

def finish (f : EngineFlush) (buffer : Buffer) : Act σ Turn := do
  Act.release buffer
  return .stop .completed { f with held := none }

/-- Asks the engine to finalise its close. If it does, there is a closing
packet to poll for. -/
def finaliseClose (f : EngineFlush) (buffer : Buffer) : Act σ Turn := do
  let forced := { f with held := some buffer, closeRequested := true }
  match ← Act.finaliseClose f.connection with
  | .error e => return .stop (.failed (.engine e)) forced
  | .ok true => return .again forced
  | .ok false => forced.finish buffer

/-- The engine has nothing left. A connection marked for closing is asked to
finalise its close, once in the life of the command and only if the policy
says so. -/
def windUp (f : EngineFlush) (buffer : Buffer) : Act σ Turn :=
  if f.policy.onClose = .forceOnce ∧ f.closeRequested = false then do
    if ← Act.isClosing f.connection then f.finaliseClose buffer else f.finish buffer
  else f.finish buffer

/-- Polls the engine. The buffer keeps what a failed poll put into it. -/
def poll (f : EngineFlush) (buffer : Buffer) : Act σ Turn := do
  match ← Act.produce f.connection buffer with
  | (filled, .error e) => return .stop (.failed (.engine e)) { f with held := some filled }
  | (filled, .ok 0) => f.windUp filled
  | (filled, .ok (_ + 1)) => f.transmit filled

/-- One round: sends what the buffer holds, or polls the engine if it holds
nothing. -/
def round (f : EngineFlush) : Act σ Turn := do
  let buffer ← f.takeBuffer
  if buffer.isEmpty then f.poll buffer else f.transmit buffer

/-- Goes round until the flush stops, at most as often as granted. An engine
that never runs dry would keep it going forever. -/
def attempt : Nat → EngineFlush → Act σ (Progress × EngineFlush)
  | 0, f => return (.unfinished, f)
  | rounds + 1, f => do
    match ← f.round with
    | .again f => attempt rounds f
    | .stop progress f => return (progress, f)

end EngineFlush

end Outbox
