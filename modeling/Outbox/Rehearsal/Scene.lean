-- A scene: a backlog, single commands and buffers on a stage, and the steps
-- that drive them. Each step has an answer, and an account of what was seen
-- while it ran.
import Outbox.Description
import Outbox.Rehearsal.Stage

namespace Outbox.Rehearsal

/-! ## Steps -/

/-- Where the buffer of a write comes from. -/
inductive BufferSource where
  /-- A buffer put aside earlier. -/
  | slot (slot : String)
  | pool (capacity : Nat) (direct : Bool)
  /-- A new buffer that is not the pool's. -/
  | foreign (capacity : Nat)

/-- The buffer of a write: where it comes from, and what is added to it. -/
structure Load where
  source : BufferSource
  data : Bytes

inductive Step where
  /-- Sets the mode of a channel, if one is given, and adds to its script. -/
  | channel (channel : Channel) (mode : Option Mode) (script : List SendCue)
  | connection (connection : Connection) (change : Change)
  | acquire (slot : String) (capacity : Nat) (direct : Bool)
  | foreign (slot : String) (capacity : Nat) (data : Bytes)
  | fill (slot : String) (data : Bytes)
  | release (slot : String)
  | submitWrite (channel : Channel) (peer : Address) (load : Load)
  | submitFlush (connection : Connection) (channel : Channel)
  | submitTimer (connection : Connection) (channel : Channel) (dispose : Bool)
  | drain
  | flush
  | describe (pretty : Bool)
  | policy
  | newWrite (id : String) (channel : Channel) (peer : Address) (load : Load)
  | newFlush (id : String) (connection : Connection) (channel : Channel)
      (draft : Option Policy.Draft)
  | newTimer (id : String) (connection : Connection) (channel : Channel) (dispose : Bool)
      (draft : Option Policy.Draft)
  | attempt (id : String)
  | describeCommand (id : String) (pretty : Bool)
  | drop (id : String)

inductive Answer where
  | nothing
  | flag (value : Bool)
  | failed (failure : Failure)
  | extent (length capacity : Nat)
  | text (text : String)
  | words (words : List String)
  | policy (policy : Policy)

inductive Mishap where
  | rejected (rejection : Policy.Rejection)
  | unknownChannel (name : String)
  | unknownConnection (name : String)
  | unknownSlot (name : String)
  | unknownCommand (name : String)
  | needsShared
  | needsPlain
  /-- The rounds that the scripts allow for were not enough. -/
  | endless

def Mishap.message : Mishap → String
  | .rejected rejection => rejection.message
  | .unknownChannel name => "unknown channel: " ++ name
  | .unknownConnection name => "unknown connection: " ++ name
  | .unknownSlot name => "unknown slot: " ++ name
  | .unknownCommand name => "unknown command: " ++ name
  | .needsShared => "only a shared backlog can be flushed"
  | .needsPlain => "a shared backlog does not show its policy"
  | .endless => "the step does not come to an end"

/-! ## Scenes -/

structure Scene where
  stage : Stage
  backlog : Backlog
  /-- Whether the backlog is shared between owners. -/
  shared : Bool := false
  slots : Register String Buffer := {}
  commands : Register String Command := {}

/-- What one step led to. -/
structure Outcome where
  answer : Answer
  trace : Trace := []
  scene : Scene

namespace Scene

def knownChannel (s : Scene) (c : Channel) : Except Mishap ScriptedChannel :=
  match s.stage.channels.get? c with
  | some chan => .ok chan
  | none => .error (.unknownChannel c.name)

def knownConnection (s : Scene) (c : Connection) : Except Mishap ScriptedConnection :=
  match s.stage.connections.get? c with
  | some conn => .ok conn
  | none => .error (.unknownConnection c.name)

def knownSlot (s : Scene) (slot : String) : Except Mishap Buffer :=
  match s.slots.get? slot with
  | some buffer => .ok buffer
  | none => .error (.unknownSlot slot)

def knownCommand (s : Scene) (id : String) : Except Mishap Command :=
  match s.commands.get? id with
  | some command => .ok command
  | none => .error (.unknownCommand id)

/-- The policy of a draft, or the backlog's if there is no draft. -/
def chosenPolicy (s : Scene) : Option Policy.Draft → Except Mishap Policy
  | none => .ok s.backlog.policy
  | some draft => draft.build.mapError .rejected

def answer (s : Scene) (a : Answer) : Outcome := { answer := a, scene := s }

def play {α : Type} (s : Scene) (a : Act Stage α) : Ran Stage α := a Stage.surroundings s.stage

/-- The buffer of a write, and the scene without it. -/
def fetch (s : Scene) (load : Load) : Except Mishap (Ran Stage Buffer × Scene) := do
  match load.source with
  | .slot slot =>
    let buffer ← s.knownSlot slot
    return (⟨buffer.append load.data, [], s.stage⟩, { s with slots := s.slots.erase slot })
  | .pool capacity direct =>
    return (s.play ((·.append load.data) <$> Act.acquire capacity direct), s)
  | .foreign capacity =>
    return (⟨(Buffer.withCapacity capacity).append load.data, [], s.stage⟩, s)

/-- A backlog answers whether commands are left waiting. -/
def answerOfBacklog : Progress → Except Mishap Answer
  | .completed => .ok (.flag false)
  | .refused => .ok (.flag true)
  | .failed failure => .ok (.failed failure)
  | .unfinished => .error .endless

/-- A command answers whether it is done. -/
def answerOfCommand : Progress → Except Mishap Answer
  | .completed => .ok (.flag true)
  | .refused => .ok (.flag false)
  | .failed failure => .ok (.failed failure)
  | .unfinished => .error .endless

def answerOfFlush : Progress → Except Mishap Answer
  | .completed => .ok (.text "flushed")
  | .failed failure => .ok (.failed failure)
  | .refused | .unfinished => .error .endless

def perform (s : Scene) (request : Backlog.Request) : Except Mishap Outcome := do
  let ran := s.play (s.backlog.perform s.stage.rounds request)
  let answer ← answerOfBacklog ran.value.1
  return ⟨answer, ran.trace, { s with stage := ran.world, backlog := ran.value.2 }⟩

def keep (s : Scene) (id : String) (command : Command) : Scene :=
  { s with commands := s.commands.insert id command }

def take (s : Scene) : Step → Except Mishap Outcome
  | .channel c mode script => do
    let chan ← s.knownChannel c
    let chan := { mode := mode.getD chan.mode, script := chan.script ++ script }
    let stage := { s.stage with channels := s.stage.channels.insert c chan }
    return { s with stage }.answer .nothing
  | .connection c change => do
    let conn ← s.knownConnection c
    return { s with stage := s.stage.setConnection c (conn.changed change) }.answer .nothing
  | .acquire slot capacity direct =>
    let ran := s.play (Act.acquire capacity direct)
    let slots := s.slots.insert slot ran.value
    return ⟨.nothing, ran.trace, { s with stage := ran.world, slots }⟩
  | .foreign slot capacity data =>
    let buffer := (Buffer.withCapacity capacity).append data
    return { s with slots := s.slots.insert slot buffer }.answer .nothing
  | .fill slot data => do
    let buffer := (← s.knownSlot slot).append data
    return { s with slots := s.slots.insert slot buffer }.answer
      (.extent buffer.length buffer.capacity)
  | .release slot => do
    let ran := s.play (Act.release (← s.knownSlot slot))
    return ⟨.nothing, ran.trace, { s with stage := ran.world, slots := s.slots.erase slot }⟩
  | .submitWrite channel peer load => do
    let _ ← s.knownChannel channel
    let (fetched, s) ← s.fetch load
    let outcome ← { s with stage := fetched.world }.perform (.write channel fetched.value peer)
    return { outcome with trace := fetched.trace ++ outcome.trace }
  | .submitFlush connection channel => do
    let _ ← s.knownConnection connection
    let _ ← s.knownChannel channel
    s.perform (.flush connection channel)
  | .submitTimer connection channel dispose => do
    let _ ← s.knownConnection connection
    let _ ← s.knownChannel channel
    s.perform (.timer connection channel dispose)
  | .drain => s.perform .drain
  | .flush => do
    if !s.shared then throw .needsShared
    let ran := s.play (s.backlog.flush s.stage.rounds s.stage.drains)
    let answer ← answerOfFlush ran.value.1
    return ⟨answer, ran.trace, { s with stage := ran.world, backlog := ran.value.2 }⟩
  | .describe pretty =>
    let text := if s.shared then s.backlog.describeShared else s.backlog.describe
    return s.answer (.text (text.render pretty))
  | .policy => do
    if s.shared then throw .needsPlain
    return s.answer (.policy s.backlog.policy)
  | .newWrite id channel peer load => do
    let _ ← s.knownChannel channel
    let (fetched, s) ← s.fetch load
    let command := .write { channel, peer, held := some fetched.value }
    return ⟨.text command.kind.text, fetched.trace,
      { s with stage := fetched.world }.keep id command⟩
  | .newFlush id connection channel draft => do
    let _ ← s.knownConnection connection
    let _ ← s.knownChannel channel
    let flush := { purpose := .send, connection, channel, policy := ← s.chosenPolicy draft }
    let command := Command.flush flush
    return (s.keep id command).answer (.words [command.kind.text, flush.purpose.word])
  | .newTimer id connection channel dispose draft => do
    let _ ← s.knownConnection connection
    let _ ← s.knownChannel channel
    let command := .timer (.new connection channel dispose (← s.chosenPolicy draft))
    return (s.keep id command).answer (.text command.kind.text)
  | .attempt id => do
    let command ← s.knownCommand id
    let ran := s.play (command.attempt s.stage.rounds)
    let answer ← answerOfCommand ran.value.1
    return ⟨answer, ran.trace, { s with stage := ran.world }.keep id ran.value.2⟩
  | .describeCommand id pretty => do
    let command ← s.knownCommand id
    return s.answer (.text (command.describe.render pretty))
  | .drop id =>
    let existed := (s.commands.get? id).isSome
    return { s with commands := s.commands.erase id }.answer (.flag existed)

end Scene

/-! ## Rehearsals -/

structure Setup where
  stage : Stage
  draft : Policy.Draft := {}
  shared : Bool := false

def Setup.scene (s : Setup) : Except Mishap Scene := do
  let policy ← s.draft.build.mapError .rejected
  return { stage := s.stage, backlog := { policy }, shared := s.shared }

/-- What was seen of one step, and how things stood after it. -/
structure Account where
  answer : Answer
  calls : List Call
  notes : List Note
  size : Nat
  isEmpty : Bool
  pool : Pool

def Outcome.account (o : Outcome) : Account where
  answer := o.answer
  calls := o.trace.calls
  notes := o.trace.notes
  size := o.scene.backlog.size
  isEmpty := o.scene.backlog.isEmpty
  pool := o.scene.stage.pool

def Scene.takeAll (s : Scene) : List Step → Except Mishap (List Account)
  | [] => return []
  | step :: rest => do
    let outcome ← s.take step
    return outcome.account :: (← outcome.scene.takeAll rest)

def rehearse (setup : Setup) (steps : List Step) : Except Mishap (List Account) := do
  (← setup.scene).takeAll steps

end Outbox.Rehearsal
