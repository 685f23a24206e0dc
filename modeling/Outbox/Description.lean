-- What commands and backlogs look like as structured texts. Of a buffer only
-- the length shows, and of a connection or channel nothing.
import Outbox.Backlog

namespace Outbox

def DatagramWrite.describe (d : DatagramWrite) : StructuredText :=
  .record "ChannelWriteCommand"
    [("peer", .word d.peer.text), ("len", .count? (d.held.map Buffer.length))] true

def EngineFlush.describe (f : EngineFlush) : StructuredText :=
  .record "QuicSendCommand"
    [("role", .word f.purpose.name), ("pending", .count? (f.held.map Buffer.length)),
      ("close_forced", .flag f.closeRequested)] true

def TimerFlush.describe (t : TimerFlush) : StructuredText :=
  .record "QuicTimeoutCommand"
    [("send", t.flush.describe), ("dispose", .flag t.dispose),
      ("timeout_fired", .flag t.fired)] true

def Command.describe : Command → StructuredText
  | .write d => .applied "ChannelWrite" [d.describe]
  | .flush f => .applied "QuicSend" [f.describe]
  | .timer t => .applied "QuicTimeout" [t.describe]

namespace Backlog

def describe (b : Backlog) : StructuredText :=
  .record "CommandManager"
    [("commands", .list (b.waiting.map Command.describe)), ("config", b.policy.describe)] true

/-- A backlog that several owners share behind a lock. Nobody holds the lock
while the text is made. -/
def describeShared (b : Backlog) : StructuredText :=
  .applied "ArcCommandManager"
    [.record "Mutex" [("data", b.describe), ("poisoned", .flag false)] true]

end Backlog

end Outbox
