-- Byte buffers whose capacity can be seen. A buffer is filled by appending
-- and emptied by clearing. Neither ever lowers its capacity, so a buffer
-- that once fitted a datagram fits it again.

namespace Outbox

/-- The bytes of a datagram, first byte first. -/
abbrev Bytes := List UInt8

/-- A buffer never holds more bytes than its capacity. -/
structure Buffer where
  contents : Bytes
  capacity : Nat
  fits : contents.length ≤ capacity
  deriving DecidableEq

namespace Buffer

instance : Coe Buffer Bytes := ⟨contents⟩

/-- An empty buffer with room for exactly `capacity` bytes. A caller may rely on
no less, and is not told of more. That so much memory can be had at all is taken
for granted. -/
def withCapacity (capacity : Nat) : Buffer := ⟨[], capacity, Nat.zero_le _⟩

def length (b : Buffer) : Nat := b.contents.length

def isEmpty (b : Buffer) : Bool := b.contents.isEmpty

/-- Drops the contents and keeps the capacity. -/
def clear (b : Buffer) : Buffer := ⟨[], b.capacity, Nat.zero_le _⟩

/-- The capacity that a buffer of capacity `old` has once it holds `needed`
bytes: the old one if they fit, else the largest of twice the old one, the
bytes needed, and 8. -/
def grown (old needed : Nat) : Nat :=
  if needed ≤ old then old else max (2 * old) (max needed 8)

theorem le_grown_needed (old needed : Nat) : needed ≤ grown old needed := by
  unfold grown; split <;> omega

theorem le_grown_old (old needed : Nat) : old ≤ grown old needed := by
  unfold grown; split <;> omega

/-- Adds bytes behind the contents, and grows if they do not fit. -/
def append (b : Buffer) (bytes : Bytes) : Buffer where
  contents := b.contents ++ bytes
  capacity := grown b.capacity (b.contents ++ bytes).length
  fits := le_grown_needed _ _

/-! ## What each operation does to contents and capacity -/

@[simp] theorem contents_withCapacity (n : Nat) : (withCapacity n).contents = [] := rfl

@[simp] theorem capacity_withCapacity (n : Nat) : (withCapacity n).capacity = n := rfl

@[simp] theorem contents_clear (b : Buffer) : b.clear.contents = [] := rfl

@[simp] theorem capacity_clear (b : Buffer) : b.clear.capacity = b.capacity := rfl

@[simp] theorem contents_append (b : Buffer) (bytes : Bytes) :
    (b.append bytes).contents = b.contents ++ bytes := rfl

theorem capacity_le_append (b : Buffer) (bytes : Bytes) :
    b.capacity ≤ (b.append bytes).capacity := le_grown_old _ _

/-- Appending nothing changes nothing, the capacity included. -/
@[simp] theorem append_nil (b : Buffer) : b.append [] = b := by
  obtain ⟨contents, capacity, fits⟩ := b
  simp [append, grown, fits]

theorem isEmpty_iff {b : Buffer} : b.isEmpty = true ↔ b.contents = [] := by
  simp [isEmpty]

end Buffer

end Outbox
