-- The surroundings of the commands: a buffer pool, connections with their
-- engines, and datagram channels. They are given by what they answer in a
-- world of any type, so every law about the commands holds whatever the
-- surroundings do.
import Outbox.Trace

namespace Outbox

/-- How the surroundings answer each call, and what world the call leaves. -/
structure Surroundings (σ : Type) where
  /-- A buffer with room for at least so many bytes. It may hold bytes of an
  earlier use. The flag asks for one suited to direct socket output. -/
  acquire : Nat → Bool → σ → Buffer × σ
  release : Buffer → σ → σ
  /-- The engine is handed the buffer. It answers which bytes it puts behind
  the contents, and how many it says that they are. -/
  produce : Connection → Buffer → σ → (Bytes × Except EngineFault Nat) × σ
  peerAddress : Connection → σ → Address
  fireTimer : Connection → σ → Except EngineFault Unit × σ
  isClosing : Connection → σ → Bool × σ
  finaliseClose : Connection → σ → Except EngineFault Bool × σ
  dispose : Connection → σ → σ
  /-- Answers how many bytes were transferred. Zero says that the channel
  would block. -/
  send : Channel → Bytes → Address → σ → Except ChannelFault Nat × σ

/-- What a computation leaves behind: its value, its trace, and the world. -/
structure Ran (σ α : Type) where
  value : α
  trace : Trace
  world : σ

/-- A computation that calls on surroundings and leaves notes. -/
def Act (σ α : Type) : Type := Surroundings σ → σ → Ran σ α

namespace Act

variable {σ α β : Type}

protected def pure (a : α) : Act σ α := fun _ w => ⟨a, [], w⟩

protected def bind (m : Act σ α) (f : α → Act σ β) : Act σ β := fun s w =>
  let first := m s w
  let second := f first.value s first.world
  ⟨second.value, first.trace ++ second.trace, second.world⟩

instance : Monad (Act σ) where
  pure := Act.pure
  bind := Act.bind

@[simp] theorem pure_apply (a : α) (s : Surroundings σ) (w : σ) :
    (pure a : Act σ α) s w = ⟨a, [], w⟩ := rfl

@[simp] theorem bind_apply (m : Act σ α) (f : α → Act σ β) (s : Surroundings σ) (w : σ) :
    (m >>= f) s w =
      ⟨(f (m s w).value s (m s w).world).value,
        (m s w).trace ++ (f (m s w).value s (m s w).world).trace,
        (f (m s w).value s (m s w).world).world⟩ := rfl

@[simp] theorem map_apply (g : α → β) (m : Act σ α) (s : Surroundings σ) (w : σ) :
    (g <$> m) s w = ⟨g (m s w).value, (m s w).trace, (m s w).world⟩ := by
  change (⟨g (m s w).value, (m s w).trace ++ [], (m s w).world⟩ : Ran σ β) = _
  rw [List.append_nil]

instance : LawfulMonad (Act σ) := LawfulMonad.mk' (Act σ)
  (fun m => by funext s w; simp)
  (fun _ _ => rfl)
  (fun m f g => by funext s w; simp)

/-! ## The single steps -/

def note (n : Note) : Act σ Unit := fun _ w => ⟨(), [.note n], w⟩

/-- Leaves a note that tells the address of a connection. Reading it for a
note is no call. -/
def noteRemote (connection : Connection) (n : Address → Note) : Act σ Unit := fun s w =>
  ⟨(), [.note (n (s.peerAddress connection w))], w⟩

def acquire (least : Nat) (direct : Bool) : Act σ Buffer := fun s w =>
  let answer := s.acquire least direct w
  ⟨answer.1, [.call (.acquire least direct answer.1)], answer.2⟩

def release (buffer : Buffer) : Act σ Unit := fun s w =>
  ⟨(), [.call (.release buffer)], s.release buffer w⟩

/-- The buffer with what the engine put behind its contents, and the engine's
answer. -/
def produce (connection : Connection) (buffer : Buffer) :
    Act σ (Buffer × Except EngineFault Nat) := fun s w =>
  let answer := s.produce connection buffer w
  ⟨(buffer.append answer.1.1, answer.1.2),
    [.call (.produce connection buffer answer.1.1 answer.1.2)], answer.2⟩

def peerAddress (connection : Connection) : Act σ Address := fun s w =>
  let answer := s.peerAddress connection w
  ⟨answer, [.call (.peerAddress connection answer)], w⟩

def fireTimer (connection : Connection) : Act σ (Except EngineFault Unit) := fun s w =>
  let answer := s.fireTimer connection w
  ⟨answer.1, [.call (.fireTimer connection answer.1)], answer.2⟩

def isClosing (connection : Connection) : Act σ Bool := fun s w =>
  let answer := s.isClosing connection w
  ⟨answer.1, [.call (.isClosing connection answer.1)], answer.2⟩

def finaliseClose (connection : Connection) : Act σ (Except EngineFault Bool) := fun s w =>
  let answer := s.finaliseClose connection w
  ⟨answer.1, [.call (.finaliseClose connection answer.1)], answer.2⟩

def dispose (connection : Connection) : Act σ Unit := fun s w =>
  ⟨(), [.call (.dispose connection)], s.dispose connection w⟩

def send (channel : Channel) (datagram : Bytes) (destination : Address) :
    Act σ (Except ChannelFault Nat) := fun s w =>
  let answer := s.send channel datagram destination w
  ⟨answer.1, [.call (.send channel datagram destination answer.1)], answer.2⟩

end Act

end Outbox
