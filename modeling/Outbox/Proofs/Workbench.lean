-- A workbench, with a pool, engines that have a few datagrams left, and
-- channels that take whatever they get. One like it has engines that look at the
-- capacity of their buffers. And what can be made of any surroundings: the same
-- without refusals, with nothing but refusals, and with some refusals put in.
import Mathlib.Logic.Function.Basic
import Outbox.Backlog
import Outbox.Pool

namespace Outbox

variable {σ : Type}

/-! ## Surroundings made from others -/

def Surroundings.unblocked (s : Surroundings σ) : Surroundings σ :=
  { s with send := fun _ datagram _ w => (.ok (max 1 datagram.length), w) }

def Surroundings.blocked (s : Surroundings σ) : Surroundings σ :=
  { s with send := fun _ _ _ w => (.ok 0, w) }

/-- The same surroundings with refusals put in among the answers of the
channels: the list says of each send whether it is refused instead. After the
list no more are put in. -/
def Surroundings.impatient (s : Surroundings σ) : Surroundings (σ × List Bool) where
  acquire least direct w := ((s.acquire least direct w.1).1, (s.acquire least direct w.1).2, w.2)
  release b w := (s.release b w.1, w.2)
  produce c b w := ((s.produce c b w.1).1, (s.produce c b w.1).2, w.2)
  peerAddress c w := s.peerAddress c w.1
  fireTimer c w := ((s.fireTimer c w.1).1, (s.fireTimer c w.1).2, w.2)
  isClosing c w := ((s.isClosing c w.1).1, (s.isClosing c w.1).2, w.2)
  finaliseClose c w := ((s.finaliseClose c w.1).1, (s.finaliseClose c w.1).2, w.2)
  dispose c w := (s.dispose c w.1, w.2)
  send channel datagram destination w :=
    if w.2.head? = some true then (.ok 0, w.1, w.2.tail)
    else
      let answer := s.send channel datagram destination w.1
      (answer.1, answer.2, w.2.tail)

/-! ## The workbench -/

structure Bench where
  pool : Pool := {}
  left : Connection → List Bytes := fun _ => []

def Bench.stock (w : Bench) (x : Connection) : Nat := (w.left x).flatten.length

/-- Engines hand out what they have left, one datagram after the other. -/
def workbench : Surroundings Bench where
  acquire least _ w := ((w.pool.acquire least).1, { w with pool := (w.pool.acquire least).2 })
  release b w := { w with pool := w.pool.release b }
  produce c _ w :=
    (((w.left c).headD [], .ok ((w.left c).headD []).length),
      { w with left := Function.update w.left c (w.left c).tail })
  peerAddress c _ := ⟨c.name⟩
  fireTimer _ w := (.ok (), w)
  isClosing _ w := (false, w)
  finaliseClose _ w := (.ok false, w)
  dispose _ w := w
  send _ datagram _ w := (.ok (max 1 datagram.length), w)

/-- The workbench with engines that fill up the buffer with what they have left. -/
def brimming : Surroundings Bench :=
  { workbench with
    produce := fun c b w =>
      let room := b.capacity - b.length
      let bytes := (w.left c).flatten
      ((bytes.take room, .ok (bytes.take room).length),
        { w with left := Function.update w.left c [bytes.drop room] }) }

namespace Bench

/-- Two datagrams are left in each engine, and the second send is refused. -/
def busy : Bench × List Bool := ({ left := fun _ => [[1], [2]] }, [false, true])

def chores : List Backlog.Request :=
  [.write ⟨"out"⟩ ((Buffer.withCapacity 8).append [9]) ⟨"peer"⟩, .flush ⟨"left"⟩ ⟨"out"⟩,
    .timer ⟨"right"⟩ ⟨"out"⟩ true, .drain]

/-- A poll that finds the buffer empty, and is told the truth. -/
def polled (name : String) (room : Nat) (bytes : Bytes) : Call :=
  .produce ⟨name⟩ (.withCapacity room) bytes (.ok bytes.length)

def sent (name : String) (bytes : Bytes) : Call := .send ⟨"out"⟩ bytes ⟨name⟩ (.ok bytes.length)

/-- What the first attempt leaves of a timer whose datagram is refused. -/
def putOff (name : String) : Command :=
  ((Command.timer (.new ⟨name⟩ ⟨"out"⟩ true .standard)).resume 1 workbench.blocked
    { left := fun _ => [[7]] }).value.2

def leftOver : Backlog := { waiting := [putOff "left"] }

def stocked : Bench := { left := fun _ => [[1, 2]] }

def tight : Policy := { minCapacity := 1 }

/-- A write, in a buffer with room for two bytes, and a flush. -/
def neighbours : List Backlog.Request :=
  [.write ⟨"out"⟩ ((Buffer.withCapacity 2).append [9]) ⟨"peer"⟩, .flush ⟨"left"⟩ ⟨"out"⟩]

end Bench

end Outbox
