-- How an attempt, a submission or a drain ends. It is refused if the channel
-- would block, and then the rest waits for a later attempt.
import Outbox.Failure

namespace Outbox

inductive Progress where
  | completed
  | refused
  | failed (failure : Failure)
  /-- The rounds granted were used up before the work came to an end. -/
  | unfinished
  deriving DecidableEq

end Outbox
