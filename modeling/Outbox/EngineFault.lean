-- The fault of a connection's engine: which of its operations failed, and why.
import Outbox.StructuredText

namespace Outbox

inductive EngineOperation where
  | produce
  | timeout
  | close
  deriving DecidableEq

namespace EngineOperation

def all : List EngineOperation := [.produce, .timeout, .close]

/-- The operation as a message names it. -/
def word : EngineOperation → String
  | .produce => "produce"
  | .timeout => "timeout"
  | .close => "close"

/-- The operation as a structured text names it. -/
def name : EngineOperation → String
  | .produce => "Produce"
  | .timeout => "Timeout"
  | .close => "Close"

def ofWord? (s : String) : Option EngineOperation := all.find? fun op => op.word = s

@[simp] theorem ofWord?_word (op : EngineOperation) : ofWord? op.word = some op := by
  cases op <;> decide

end EngineOperation

structure EngineFault where
  operation : EngineOperation
  reason : String
  deriving DecidableEq

namespace EngineFault

/-- What the fault says of itself. -/
def message (f : EngineFault) : String :=
  "QUIC engine error occured in " ++ f.operation.word ++ ", reason: " ++ f.reason

def describe (f : EngineFault) : StructuredText :=
  .record "EngineError" [("op", .word f.operation.name), ("reason", .quoted f.reason)] false

end EngineFault

end Outbox
