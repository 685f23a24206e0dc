-- A pool that keeps released buffers on a bounded free list. A request is
-- served by the first kept buffer that is large enough, else by a new one.
-- A released buffer is emptied and kept, unless the list is full.
import Outbox.Buffer

namespace Outbox

structure Pool where
  limit : Nat := 64
  /-- The kept buffers, in the order in which requests look at them. -/
  free : List Buffer := []
  -- how many were handed out and given back so far, modulo 2^64
  acquired : UInt64 := 0
  released : UInt64 := 0
  deriving DecidableEq

namespace Pool

/-- Removes the element at `i`. The last element takes its place, all others
stay where they are. -/
def swapRemove (l : List Buffer) (i : Nat) : List Buffer :=
  match l.getLast? with
  | none => []
  | some last => (l.set i last).dropLast

def acquire (p : Pool) (least : Nat) : Buffer × Pool :=
  let counted := { p with acquired := p.acquired + 1 }
  match p.free.find? (fun b => least ≤ b.capacity) with
  | some b =>
    (b, { counted with free := swapRemove p.free (p.free.findIdx fun b => least ≤ b.capacity) })
  | none => (.withCapacity least, counted)

/-- Takes a buffer back. Beyond the limit it is counted and discarded. -/
def release (p : Pool) (b : Buffer) : Pool :=
  let counted := { p with released := p.released + 1 }
  if p.free.length < p.limit then { counted with free := p.free ++ [b.clear] } else counted

/-- Buffers that are with their owners. More releases than requests count as
none. -/
def outstanding (p : Pool) : Nat := p.acquired.toNat - p.released.toNat

def retained (p : Pool) : Nat := p.free.length

end Pool

end Outbox
