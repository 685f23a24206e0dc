-- The backlog runs commands right away, and keeps those that a channel
-- refused until it is drained. The commands that wait are resumed in the
-- order of their submission: one that is refused again holds back every
-- command behind it.
import Outbox.Command

namespace Outbox

structure Backlog where
  policy : Policy := .standard
  /-- The commands that wait, the oldest first. -/
  waiting : List Command := []
  deriving DecidableEq

namespace Backlog

variable {σ : Type}

def size (b : Backlog) : Nat := b.waiting.length

def isEmpty (b : Backlog) : Bool := b.waiting.isEmpty

/-! ## Submissions -/

/-- Attempts a new command. It joins the back of the backlog if it is
refused, and is given up if it fails. -/
def submit (rounds : Nat) (b : Backlog) (c : Command) : Act σ (Progress × Backlog) := do
  let (progress, c) ← c.attempt rounds
  match progress with
  | .completed => return (.completed, b)
  | .failed failure => do
    c.abandon
    return (.failed failure, b)
  | .refused => return (.refused, { b with waiting := b.waiting ++ [c] })
  | .unfinished => return (.unfinished, { b with waiting := b.waiting ++ [c] })

/-- Sends a datagram to a peer. Its buffer goes to the pool once it is sent. -/
def submitWrite (rounds : Nat) (b : Backlog) (channel : Channel) (buffer : Buffer)
    (peer : Address) : Act σ (Progress × Backlog) := do
  Act.note (.submitWrite peer buffer.length)
  b.submit rounds (.write { channel, peer, held := some buffer })

def submitFlush (rounds : Nat) (b : Backlog) (connection : Connection) (channel : Channel) :
    Act σ (Progress × Backlog) := do
  Act.noteRemote connection .submitFlush
  b.submit rounds (.flush { purpose := .send, connection, channel, policy := b.policy })

def submitTimer (rounds : Nat) (b : Backlog) (connection : Connection) (channel : Channel)
    (dispose : Bool) : Act σ (Progress × Backlog) := do
  Act.noteRemote connection (.submitTimer · dispose)
  b.submit rounds (.timer (.new connection channel dispose b.policy))

/-! ## Draining -/

/-- Attempts commands in order, up to the first that does not complete. One
that fails is given up, and those behind it still wait. -/
def resumeAll (rounds : Nat) : List Command → Act σ (Progress × List Command)
  | [] => return (.completed, [])
  | c :: behind => do
    let (progress, c) ← c.attempt rounds
    match progress with
    | .completed => resumeAll rounds behind
    | .failed failure => do
      c.abandon
      return (.failed failure, behind)
    | .refused => return (.refused, c :: behind)
    | .unfinished => return (.unfinished, c :: behind)

/-- Resumes the commands that wait. It completes once none is left, and does
nothing at all if there is none to begin with. -/
def drain (rounds : Nat) (b : Backlog) : Act σ (Progress × Backlog) :=
  if b.isEmpty then return (.completed, b)
  else do
    Act.note (.draining b.size)
    let (progress, waiting) ← resumeAll rounds b.waiting
    return (progress, { b with waiting })

/-- Drains again and again while a command waits, at most as often as
granted. A failure ends it at once. -/
def flush (rounds : Nat) : Nat → Backlog → Act σ (Progress × Backlog)
  | 0, b => return (if b.isEmpty then .completed else .unfinished, b)
  | drains + 1, b =>
    if b.isEmpty then return (.completed, b)
    else do
      let (progress, b) ← b.drain rounds
      match progress with
      | .completed | .refused => flush rounds drains b
      | .failed _ | .unfinished => return (progress, b)

/-! ## Requests -/

inductive Request where
  | write (channel : Channel) (buffer : Buffer) (peer : Address)
  | flush (connection : Connection) (channel : Channel)
  | timer (connection : Connection) (channel : Channel) (dispose : Bool)
  | drain
  deriving DecidableEq

def perform (rounds : Nat) (b : Backlog) : Request → Act σ (Progress × Backlog)
  | .write channel buffer peer => b.submitWrite rounds channel buffer peer
  | .flush connection channel => b.submitFlush rounds connection channel
  | .timer connection channel dispose => b.submitTimer rounds connection channel dispose
  | .drain => b.drain rounds

end Backlog

end Outbox
