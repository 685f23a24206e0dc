-- A piece of send work that can be put off and taken up again. An attempt
-- makes as much progress as the channel allows. A command that is not done
-- keeps its state, and the next attempt goes on exactly where it stopped.
import Outbox.DatagramWrite
import Outbox.TimerFlush

namespace Outbox

inductive Command where
  | write (write : DatagramWrite)
  | flush (flush : EngineFlush)
  | timer (timer : TimerFlush)
  deriving DecidableEq

namespace Command

variable {σ : Type}

def kind : Command → Kind
  | .write _ => .channelWrite
  | .flush f =>
    match f.purpose with
    | .send => .quicSend
    | .timeout => .quicTimeoutSend
  | .timer _ => .quicTimeout

def held : Command → Option Buffer
  | .write d => d.held
  | .flush f => f.held
  | .timer t => t.flush.held

/-- Goes on with the work, without a note. -/
def resume (rounds : Nat) : Command → Act σ (Progress × Command)
  | .write d => return Prod.map id .write (← d.attempt)
  | .flush f => return Prod.map id .flush (← f.attempt rounds)
  | .timer t => return Prod.map id .timer (← t.attempt rounds)

/-- Notes how far the command came. A failure has no note here. -/
def noteProgress (c : Command) : Progress → Act σ Unit
  | .completed => Act.note (.attempted c.kind true)
  | .refused => Act.note (.attempted c.kind false)
  | .failed _ | .unfinished => return ()

def attempt (rounds : Nat) (c : Command) : Act σ (Progress × Command) := do
  Act.note (.attempting c.kind)
  let (progress, c) ← c.resume rounds
  c.noteProgress progress
  return (progress, c)

/-- Gives up a failed command. The buffer that it still holds goes back to
the pool. -/
def abandon (c : Command) : Act σ Unit := do
  Act.note (.abandoning c.kind)
  match c.held with
  | some buffer => Act.release buffer
  | none => return ()

end Command

end Outbox
