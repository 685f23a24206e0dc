-- The settings that every command of a backlog shares, and the draft that
-- collects them one by one.
import Outbox.StructuredText

namespace Outbox

/-- What a flush does when the engine has nothing left to send but the
connection is marked for closing. -/
inductive ClosingFlush where
  /-- Gives up as soon as the engine produces nothing. -/
  | disabled
  /-- Asks the engine once to finalise the close, and then polls it again. -/
  | forceOnce
  deriving DecidableEq

namespace ClosingFlush

def all : List ClosingFlush := [.disabled, .forceOnce]

def name : ClosingFlush → String
  | .disabled => "Disabled"
  | .forceOnce => "ForceOnce"

def ofName? (s : String) : Option ClosingFlush := all.find? fun c => c.name = s

end ClosingFlush

/-- A client's first datagrams carry at least this many bytes, so a fresh
buffer has room for them unless the policy says otherwise. -/
def initialDatagramLength : Nat := 1200

structure Policy where
  /-- The capacity that a command asks of the pool. -/
  minCapacity : Nat := initialDatagramLength
  /-- Whether a command asks for a buffer suited to direct socket output. -/
  direct : Bool := true
  onClose : ClosingFlush := .disabled
  minCapacity_pos : 0 < minCapacity := by decide
  deriving DecidableEq

namespace Policy

def standard : Policy := {}

def describe (p : Policy) : StructuredText :=
  .record "CommandConfig"
    [("min_buffer_capacity", .word (toString p.minCapacity)), ("direct_buffers", .flag p.direct),
      ("flush_on_close", .word p.onClose.name)] false

/-! ## Drafts -/

structure Draft where
  minCapacity? : Option Nat := none
  direct? : Option Bool := none
  onClose? : Option ClosingFlush := none
  deriving DecidableEq

inductive Rejection where
  | zeroCapacity
  deriving DecidableEq

def Rejection.message : Rejection → String
  | .zeroCapacity => "min_buffer_capacity must be greater than 0"

/-- The policy with the settings of the draft, and the default wherever the
draft is silent. -/
def Draft.build (d : Draft) : Except Rejection Policy :=
  let minCapacity := d.minCapacity?.getD standard.minCapacity
  if h : 0 < minCapacity then
    .ok {
      minCapacity
      direct := d.direct?.getD standard.direct
      onClose := d.onClose?.getD standard.onClose
      minCapacity_pos := h }
  else .error .zeroCapacity

@[simp] theorem build_silent : ({} : Draft).build = .ok .standard := rfl

theorem build_eq_error_iff (d : Draft) :
    d.build = .error .zeroCapacity ↔ d.minCapacity? = some 0 := by
  obtain ⟨capacity, _, _⟩ := d
  cases capacity <;> simp [Draft.build, standard, initialDatagramLength]

end Policy

end Outbox
