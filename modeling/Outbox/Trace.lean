-- What an operation does, as others see it: the calls that it makes on its
-- surroundings with their answers, and the notes that it leaves in the log.
-- Both stand in one list, in the order in which they happened.
import Outbox.Buffer
import Outbox.Failure

namespace Outbox

/-! ## Names -/

/-- A datagram channel, known by its name. -/
structure Channel where
  name : String
  deriving DecidableEq

/-- A connection, known by its name. -/
structure Connection where
  name : String
  deriving DecidableEq

/-- Where a datagram is sent to. -/
structure Address where
  text : String
  deriving DecidableEq

/-- The kinds of command, as the log tells them apart. -/
inductive Kind where
  | channelWrite
  | quicSend
  | quicTimeoutSend
  | quicTimeout
  deriving DecidableEq

def Kind.text : Kind → String
  | .channelWrite => "channel write"
  | .quicSend => "quic send"
  | .quicTimeoutSend => "quic timeout send"
  | .quicTimeout => "quic timeout"

/-! ## Calls -/

instance decidableEqExcept {ε α : Type} [DecidableEq ε] [DecidableEq α] :
    DecidableEq (Except ε α)
  | .ok a, .ok b => decidable_of_iff (a = b) (by simp)
  | .error e, .error f => decidable_of_iff (e = f) (by simp)
  | .ok _, .error _ => isFalse (by simp)
  | .error _, .ok _ => isFalse (by simp)

/-- A call on the surroundings, with its arguments and its answer. -/
inductive Call where
  | acquire (least : Nat) (direct : Bool) (given : Buffer)
  | release (buffer : Buffer)
  /-- The engine was handed the buffer and put `appended` behind its contents. -/
  | produce (connection : Connection) (buffer : Buffer) (appended : Bytes)
      (answer : Except EngineFault Nat)
  | peerAddress (connection : Connection) (answer : Address)
  | fireTimer (connection : Connection) (answer : Except EngineFault Unit)
  | isClosing (connection : Connection) (answer : Bool)
  | finaliseClose (connection : Connection) (answer : Except EngineFault Bool)
  | dispose (connection : Connection)
  | send (channel : Channel) (datagram : Bytes) (destination : Address)
      (answer : Except ChannelFault Nat)
  deriving DecidableEq

/-! ## Notes -/

inductive Level where
  | trace
  | debug
  | warn
  deriving DecidableEq

def Level.name : Level → String
  | .trace => "TRACE"
  | .debug => "DEBUG"
  | .warn => "WARN"

inductive Note where
  | submitWrite (peer : Address) (length : Nat)
  | submitFlush (remote : Address)
  | submitTimer (remote : Address) (dispose : Bool)
  | attempting (command : Kind)
  | attempted (command : Kind) (completed : Bool)
  | draining (pending : Nat)
  | disposing (remote : Address)
  | abandoning (command : Kind)
  deriving DecidableEq

/-- The value of a field of a note. -/
inductive NoteValue where
  | text (value : String)
  | number (value : Nat)
  | flag (value : Bool)
  deriving DecidableEq

namespace Note

def level : Note → Level
  | .draining _ => .trace
  | .abandoning _ => .warn
  | _ => .debug

def message : Note → String
  | .submitWrite .. => "Submit channel write"
  | .submitFlush _ => "Submit quic send"
  | .submitTimer .. => "Submit quic timeout"
  | .attempting _ => "Attempting command"
  | .attempted .. => "Attempted command"
  | .draining _ => "Draining commands"
  | .disposing _ => "Disposing quic connection"
  | .abandoning _ => "Abandoning failed command"

def fields : Note → List (String × NoteValue)
  | .submitWrite peer length => [("peer", .text peer.text), ("len", .number length)]
  | .submitFlush remote => [("remote", .text remote.text)]
  | .submitTimer remote dispose => [("remote", .text remote.text), ("dispose", .flag dispose)]
  | .attempting command => [("command", .text command.text)]
  | .attempted command completed =>
    [("command", .text command.text), ("completed", .flag completed)]
  | .draining pending => [("pending", .number pending)]
  | .disposing remote => [("remote", .text remote.text)]
  | .abandoning command => [("command", .text command.text)]

end Note

/-! ## Traces -/

inductive Event where
  | call (call : Call)
  | note (note : Note)
  deriving DecidableEq

abbrev Trace := List Event

namespace Event

def call? : Event → Option Call
  | .call c => some c
  | .note _ => none

def note? : Event → Option Note
  | .call _ => none
  | .note n => some n

end Event

namespace Trace

/-- The calls of a trace, in order. -/
def calls (t : Trace) : List Call := t.filterMap Event.call?

/-- The notes of a trace, in order. -/
def notes (t : Trace) : List Note := t.filterMap Event.note?

@[simp] theorem calls_nil : calls [] = [] := rfl

@[simp] theorem calls_append (s t : Trace) : calls (s ++ t) = calls s ++ calls t :=
  List.filterMap_append

@[simp] theorem calls_call (c : Call) (t : Trace) : calls (.call c :: t) = c :: calls t := rfl

@[simp] theorem calls_note (n : Note) (t : Trace) : calls (.note n :: t) = calls t := rfl

@[simp] theorem notes_nil : notes [] = [] := rfl

@[simp] theorem notes_append (s t : Trace) : notes (s ++ t) = notes s ++ notes t :=
  List.filterMap_append

@[simp] theorem notes_call (c : Call) (t : Trace) : notes (.call c :: t) = notes t := rfl

@[simp] theorem notes_note (n : Note) (t : Trace) : notes (.note n :: t) = n :: notes t := rfl

end Trace

end Outbox
