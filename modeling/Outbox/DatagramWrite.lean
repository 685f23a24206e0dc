-- The command that sends one datagram, encoded by someone else, to a peer.
import Outbox.Surroundings
import Outbox.Progress

namespace Outbox

structure DatagramWrite where
  channel : Channel
  peer : Address
  /-- The datagram. Once it is sent, its buffer is back with the pool. -/
  held : Option Buffer
  deriving DecidableEq

namespace DatagramWrite

variable {σ : Type}

def finish (d : DatagramWrite) (buffer : Buffer) : Act σ (Progress × DatagramWrite) := do
  Act.release buffer
  return (.completed, { d with held := none })

/-- Sends the datagram. A channel that refuses or fails leaves the command as
it was. An empty datagram has nothing to transfer, and is not sent. -/
def attempt (d : DatagramWrite) : Act σ (Progress × DatagramWrite) :=
  match d.held with
  | none => return (.completed, d)
  | some buffer =>
    if buffer.isEmpty then d.finish buffer
    else do
      match ← Act.send d.channel buffer.contents d.peer with
      | .error e => return (.failed (.channel e), d)
      | .ok 0 => return (.refused, d)
      | .ok (_ + 1) => d.finish buffer

end DatagramWrite

end Outbox
