-- The fault of a datagram channel: why a send failed, other than that the
-- channel would block. A fault has a kind and a message, and if it comes from
-- the operating system, a code.
import Outbox.EngineFault

namespace Outbox

/-! ## Kinds -/

inductive FaultKind where
  | notFound
  | permissionDenied
  | connectionRefused
  | connectionReset
  | hostUnreachable
  | networkUnreachable
  | connectionAborted
  | notConnected
  | addrInUse
  | addrNotAvailable
  | networkDown
  | brokenPipe
  | alreadyExists
  | wouldBlock
  | invalidInput
  | invalidData
  | timedOut
  | writeZero
  | interrupted
  | unsupported
  | unexpectedEof
  | outOfMemory
  | other
  /-- A fault of the operating system that has no kind of its own. -/
  | uncategorized
  deriving DecidableEq

namespace FaultKind

/-- The kinds that a fault can be given. -/
def givable : List FaultKind :=
  [.notFound, .permissionDenied, .connectionRefused, .connectionReset, .hostUnreachable,
    .networkUnreachable, .connectionAborted, .notConnected, .addrInUse, .addrNotAvailable,
    .networkDown, .brokenPipe, .alreadyExists, .wouldBlock, .invalidInput, .invalidData,
    .timedOut, .writeZero, .interrupted, .unsupported, .unexpectedEof, .outOfMemory, .other]

def name : FaultKind → String
  | .notFound => "NotFound"
  | .permissionDenied => "PermissionDenied"
  | .connectionRefused => "ConnectionRefused"
  | .connectionReset => "ConnectionReset"
  | .hostUnreachable => "HostUnreachable"
  | .networkUnreachable => "NetworkUnreachable"
  | .connectionAborted => "ConnectionAborted"
  | .notConnected => "NotConnected"
  | .addrInUse => "AddrInUse"
  | .addrNotAvailable => "AddrNotAvailable"
  | .networkDown => "NetworkDown"
  | .brokenPipe => "BrokenPipe"
  | .alreadyExists => "AlreadyExists"
  | .wouldBlock => "WouldBlock"
  | .invalidInput => "InvalidInput"
  | .invalidData => "InvalidData"
  | .timedOut => "TimedOut"
  | .writeZero => "WriteZero"
  | .interrupted => "Interrupted"
  | .unsupported => "Unsupported"
  | .unexpectedEof => "UnexpectedEof"
  | .outOfMemory => "OutOfMemory"
  | .other => "Other"
  | .uncategorized => "Uncategorized"

/-- What a fault says that is no more than its kind. -/
def text : FaultKind → String
  | .notFound => "entity not found"
  | .permissionDenied => "permission denied"
  | .connectionRefused => "connection refused"
  | .connectionReset => "connection reset"
  | .hostUnreachable => "host unreachable"
  | .networkUnreachable => "network unreachable"
  | .connectionAborted => "connection aborted"
  | .notConnected => "not connected"
  | .addrInUse => "address in use"
  | .addrNotAvailable => "address not available"
  | .networkDown => "network down"
  | .brokenPipe => "broken pipe"
  | .alreadyExists => "entity already exists"
  | .wouldBlock => "operation would block"
  | .invalidInput => "invalid input parameter"
  | .invalidData => "invalid data"
  | .timedOut => "timed out"
  | .writeZero => "write zero"
  | .interrupted => "operation interrupted"
  | .unsupported => "unsupported"
  | .unexpectedEof => "unexpected end of file"
  | .outOfMemory => "out of memory"
  | .other => "other error"
  | .uncategorized => "uncategorized error"

def ofName? (s : String) : Option FaultKind := givable.find? fun k => k.name = s

end FaultKind

/-! ## Faults of the operating system -/

inductive SystemFault where
  | notPermitted
  | wouldBlock
  | permissionDenied
  | invalidArgument
  | messageTooLong
  | familyNotSupported
  | addressInUse
  | addressNotAvailable
  | networkUnreachable
  | connectionReset
  | connectionRefused
  | noRouteToHost
  deriving DecidableEq

namespace SystemFault

def all : List SystemFault :=
  [.notPermitted, .wouldBlock, .permissionDenied, .invalidArgument, .messageTooLong,
    .familyNotSupported, .addressInUse, .addressNotAvailable, .networkUnreachable,
    .connectionReset, .connectionRefused, .noRouteToHost]

def code : SystemFault → Nat
  | .notPermitted => 1
  | .wouldBlock => 11
  | .permissionDenied => 13
  | .invalidArgument => 22
  | .messageTooLong => 90
  | .familyNotSupported => 97
  | .addressInUse => 98
  | .addressNotAvailable => 99
  | .networkUnreachable => 101
  | .connectionReset => 104
  | .connectionRefused => 111
  | .noRouteToHost => 113

def kind : SystemFault → FaultKind
  | .notPermitted => .permissionDenied
  | .wouldBlock => .wouldBlock
  | .permissionDenied => .permissionDenied
  | .invalidArgument => .invalidInput
  | .messageTooLong => .uncategorized
  | .familyNotSupported => .uncategorized
  | .addressInUse => .addrInUse
  | .addressNotAvailable => .addrNotAvailable
  | .networkUnreachable => .networkUnreachable
  | .connectionReset => .connectionReset
  | .connectionRefused => .connectionRefused
  | .noRouteToHost => .hostUnreachable

def text : SystemFault → String
  | .notPermitted => "Operation not permitted"
  | .wouldBlock => "Resource temporarily unavailable"
  | .permissionDenied => "Permission denied"
  | .invalidArgument => "Invalid argument"
  | .messageTooLong => "Message too long"
  | .familyNotSupported => "Address family not supported by protocol"
  | .addressInUse => "Address already in use"
  | .addressNotAvailable => "Cannot assign requested address"
  | .networkUnreachable => "Network is unreachable"
  | .connectionReset => "Connection reset by peer"
  | .connectionRefused => "Connection refused"
  | .noRouteToHost => "No route to host"

def ofCode? (n : Nat) : Option SystemFault := all.find? fun f => f.code = n

@[simp] theorem ofCode?_code (f : SystemFault) : ofCode? f.code = some f := by
  cases f <;> decide

end SystemFault

/-! ## Faults -/

inductive ChannelFault where
  /-- A fault that is no more than its kind. -/
  | bare (kind : FaultKind)
  | described (kind : FaultKind) (message : String)
  | system (fault : SystemFault)
  /-- An engine's fault, handed on as one of the channel. -/
  | engine (fault : EngineFault)
  deriving DecidableEq

namespace ChannelFault

def kind : ChannelFault → FaultKind
  | .bare kind => kind
  | .described kind _ => kind
  | .system fault => fault.kind
  | .engine _ => .other

def message : ChannelFault → String
  | .bare kind => kind.text
  | .described _ message => message
  | .system fault => fault.text ++ " (os error " ++ toString fault.code ++ ")"
  | .engine fault => fault.message

/-- The code, for a fault of the operating system. -/
def code? : ChannelFault → Option Nat
  | .system fault => some fault.code
  | _ => none

def describe : ChannelFault → StructuredText
  | .bare kind => .applied "Kind" [.word kind.name]
  | .described kind message =>
    .record "Custom" [("kind", .word kind.name), ("error", .quoted message)] false
  | .system fault =>
    .record "Os" [("code", .word (toString fault.code)), ("kind", .word fault.kind.name),
      ("message", .quoted fault.text)] false
  | .engine fault =>
    .record "Custom" [("kind", .word FaultKind.other.name),
      ("error", .applied "Engine" [fault.describe])] false

end ChannelFault

end Outbox
