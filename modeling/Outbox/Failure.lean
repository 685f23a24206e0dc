-- Why a command fails: its channel or its connection's engine had a fault. A
-- channel that would block is no failure.
import Outbox.ChannelFault

namespace Outbox

inductive Failure where
  | channel (fault : ChannelFault)
  | engine (fault : EngineFault)
  deriving DecidableEq

namespace Failure

/-- A channel's fault is announced as such, an engine's speaks for itself. -/
def message : Failure → String
  | .channel fault => "datagram channel failed: " ++ fault.message
  | .engine fault => fault.message

/-- What the fault behind an announcement says. -/
def cause? : Failure → Option String
  | .channel fault => some fault.message
  | .engine _ => none

def describe : Failure → StructuredText
  | .channel fault => .applied "Io" [fault.describe]
  | .engine fault => .applied "Engine" [fault.describe]

/-- The failure as a fault of a channel. A channel's own fault comes back as
it was. -/
def toChannelFault : Failure → ChannelFault
  | .channel fault => fault
  | .engine fault => .engine fault

end Failure

end Outbox
