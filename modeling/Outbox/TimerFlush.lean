-- The command that tells a connection that its timer fired, then flushes
-- what the engine made of it, and disposes the connection if that was asked
-- for. The timer fires once, however many attempts the flush takes, and the
-- disposal comes last.
import Outbox.EngineFlush

namespace Outbox

structure TimerFlush where
  flush : EngineFlush
  /-- Whether the connection is to be disposed after the flush. -/
  dispose : Bool
  fired : Bool := false
  disposed : Bool := false
  deriving DecidableEq

namespace TimerFlush

variable {σ : Type}

def new (connection : Connection) (channel : Channel) (dispose : Bool) (policy : Policy) :
    TimerFlush where
  flush := { purpose := .timeout, connection, channel, policy }
  dispose

def connection (t : TimerFlush) : Connection := t.flush.connection

/-- Fires the timer, unless an earlier attempt did. -/
def fire (t : TimerFlush) : Act σ (Except EngineFault TimerFlush) :=
  if t.fired then return .ok t
  else do
    match ← Act.fireTimer t.connection with
    | .error e => return .error e
    | .ok () => return .ok { t with fired := true }

/-- Disposes the connection, if that was asked for and not done yet. -/
def retire (t : TimerFlush) : Act σ TimerFlush :=
  if t.dispose ∧ t.disposed = false then do
    Act.noteRemote t.connection .disposing
    Act.dispose t.connection
    return { t with disposed := true }
  else return t

def attempt (rounds : Nat) (t : TimerFlush) : Act σ (Progress × TimerFlush) := do
  match ← t.fire with
  | .error e => return (.failed (.engine e), t)
  | .ok t =>
    match ← t.flush.attempt rounds with
    | (.completed, flush) => return (.completed, ← { t with flush }.retire)
    | (progress, flush) => return (progress, { t with flush })

end TimerFlush

end Outbox
