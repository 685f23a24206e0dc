-- Steps that draft a policy.
import Outbox.Policy

namespace Outbox.Rehearsal

inductive DraftStep where
  | minCapacity (capacity : Nat)
  | direct (wanted : Bool)
  | onClose (flush : ClosingFlush)
  | reset
  /-- Builds the draft as it stands. The draft can be built again. -/
  | build
  | standard
  deriving DecidableEq

inductive DraftAnswer where
  | nothing
  | policy (policy : Policy)
  | rejected (rejection : Policy.Rejection)
  deriving DecidableEq

/-- A setting replaces an earlier one of the same name. -/
def DraftStep.apply (d : Policy.Draft) : DraftStep → Policy.Draft
  | .minCapacity capacity => { d with minCapacity? := some capacity }
  | .direct wanted => { d with direct? := some wanted }
  | .onClose flush => { d with onClose? := some flush }
  | .reset => {}
  | .build | .standard => d

def DraftStep.answer (d : Policy.Draft) : DraftStep → DraftAnswer
  | .build =>
    match d.build with
    | .ok policy => .policy policy
    | .error rejection => .rejected rejection
  | .standard => .policy .standard
  | _ => .nothing

def draft (d : Policy.Draft) : List DraftStep → List DraftAnswer
  | [] => []
  | step :: rest => step.answer d :: draft (step.apply d) rest

end Outbox.Rehearsal
