-- Prepared answers. A connection answers each kind of call from a list of
-- its own, first come first served, and a cue may change the connection on
-- the way: other answers behind those that are left, another address, the
-- mark that it is closed. A channel has one list of answers and a mode for
-- when that is used up.
import Outbox.Trace

namespace Outbox.Rehearsal

/-! ## Connections -/

mutual

/-- What changes about a connection: settings take a new value if one is
given, and cues join the end of their lists. -/
structure Change where
  remote : Option Address
  closed : Option Bool
  produce : List ProduceCue
  timer : List TimerCue
  close : List CloseCue

/-- The answer to one poll. -/
structure ProduceCue where
  /-- What goes into the buffer, even if the poll fails. -/
  data : Bytes
  /-- The count answered, if it is not to be the true one. -/
  claimed : Option Nat
  failure : Option EngineFault
  change : Option Change

/-- The answer to one firing of the timer. -/
structure TimerCue where
  failure : Option EngineFault
  change : Option Change

/-- The answer to one request to finalise the close. -/
structure CloseCue where
  finalised : Bool
  failure : Option EngineFault
  change : Option Change

end

def ProduceCue.answer (c : ProduceCue) : Except EngineFault Nat :=
  match c.failure with
  | some e => .error e
  | none => .ok (c.claimed.getD c.data.length)

def TimerCue.answer (c : TimerCue) : Except EngineFault Unit :=
  match c.failure with
  | some e => .error e
  | none => .ok ()

def CloseCue.answer (c : CloseCue) : Except EngineFault Bool :=
  match c.failure with
  | some e => .error e
  | none => .ok c.finalised

/-- A connection that answers from a script. -/
structure ScriptedConnection where
  remote : Address
  closed : Bool := false
  produce : List ProduceCue := []
  timer : List TimerCue := []
  close : List CloseCue := []

def ScriptedConnection.changed (s : ScriptedConnection) (c : Change) : ScriptedConnection where
  remote := c.remote.getD s.remote
  closed := c.closed.getD s.closed
  produce := s.produce ++ c.produce
  timer := s.timer ++ c.timer
  close := s.close ++ c.close

def ScriptedConnection.afterCue (s : ScriptedConnection) : Option Change → ScriptedConnection
  | some c => s.changed c
  | none => s

/-! ## How many polls a script can answer -/

mutual

/-- The polls that a change prepares answers for, those prepared by its own
cues included. -/
def Change.polls : Change → Nat
  | ⟨_, _, produce, timer, close⟩ => producePolls produce + timerPolls timer + closePolls close

def changePolls : Option Change → Nat
  | none => 0
  | some c => c.polls

def producePolls : List ProduceCue → Nat
  | [] => 0
  | ⟨_, _, _, change⟩ :: rest => 1 + changePolls change + producePolls rest

def timerPolls : List TimerCue → Nat
  | [] => 0
  | ⟨_, change⟩ :: rest => changePolls change + timerPolls rest

def closePolls : List CloseCue → Nat
  | [] => 0
  | ⟨_, _, change⟩ :: rest => changePolls change + closePolls rest

end

def ScriptedConnection.polls (s : ScriptedConnection) : Nat :=
  producePolls s.produce + timerPolls s.timer + closePolls s.close

/-! ## Channels -/

inductive Mode where
  | ok
  | block
  deriving DecidableEq

/-- The answer to one send. -/
inductive SendCue where
  | inMode (mode : Mode)
  | count (n : Nat)
  | fail (error : ChannelFault)
  deriving DecidableEq

/-- A datagram is accepted whole or refused whole, unless a cue says
otherwise. -/
def SendCue.answer (datagram : Bytes) : SendCue → Except ChannelFault Nat
  | .inMode .ok => .ok datagram.length
  | .inMode .block => .ok 0
  | .count n => .ok n
  | .fail error => .error error

/-- A channel that answers from a script, and by its mode once the script is
used up. -/
structure ScriptedChannel where
  mode : Mode := .ok
  script : List SendCue := []
  deriving DecidableEq

end Outbox.Rehearsal
