-- How long an attempt at a flush can go on. A round that is not the last sends what the
-- buffer held before, or sends what a poll brought, or forces a close. The first comes
-- once, before any poll, and the last comes once too, with at most one more send after
-- it. So it is the engine alone that keeps an attempt going, and one that brings only so
-- much lets it end after about as many polls and sends. One that answers from a script
-- brings only so much, even if its answers add to the script.
import Outbox.Proofs.Closings
import Outbox.Proofs.Endings
import Outbox.Rehearsal.Stage

namespace Outbox

variable {σ : Type} {s : Surroundings σ} {rounds : Nat} {w w' : σ}

/-! ## What is counted -/

/-- Whether the call is a send. -/
def Call.isSend : Call → Bool
  | .send .. => true
  | _ => false

/-- How many sends are among the calls. -/
def sends (calls : List Call) : Nat := calls.countP Call.isSend

@[simp] theorem sends_nil : sends [] = 0 := rfl

@[simp] theorem sends_cons (c : Call) (l : List Call) :
    sends (c :: l) = sends l + if c.isSend then 1 else 0 := List.countP_cons

@[simp] theorem sends_append (l m : List Call) : sends (l ++ m) = sends l + sends m :=
  List.countP_append

/-- How many polls are among the calls. -/
def pollings (calls : List Call) : Nat := (polls calls).length

@[simp] theorem pollings_nil : pollings [] = 0 := rfl

@[simp] theorem pollings_append (l m : List Call) :
    pollings (l ++ m) = pollings l + pollings m := by
  simp [pollings, polls_append]

@[simp] theorem pollings_cons (c : Call) (l : List Call) :
    pollings (c :: l) = pollings l + if c.poll?.isSome then 1 else 0 := by
  cases h : c.poll? <;> simp [pollings, polls, h]

/-! ## What a flush may still do -/

/-- How many polls, sends and forced closes there can be without a poll that brings
something. -/
structure Allowance where
  polls : Nat := 0
  sends : Nat := 0
  forcings : Nat := 0

namespace EngineFlush

variable {f g : EngineFlush} {b : Buffer} {r : Ran σ Turn} {t : Trace} {l m : List Call}
  {a : Allowance}

/-- The sends that are due before the engine is polled: 1 if the buffer holds something. -/
def overdue (f : EngineFlush) : Nat := if f.held.any (fun b => !b.isEmpty) then 1 else 0

/-- How often a close may still be forced: once, or not at all. -/
def reprieve (f : EngineFlush) : Nat :=
  if f.policy.onClose = .forceOnce ∧ f.closeRequested = false then 1 else 0

/-- A forced close makes room for one more poll, and for one more send. -/
def allowance (f : EngineFlush) : Allowance where
  polls := 1 + f.reprieve
  sends := f.overdue + f.reprieve
  forcings := f.reprieve

/-- What is left of it after a round. -/
def Turn.allowance : Turn → Allowance
  | .again f => f.allowance
  | .stop _ _ => {}

theorem overdue_le (f : EngineFlush) : f.overdue ≤ 1 := by
  unfold overdue
  split <;> omega

theorem reprieve_le (f : EngineFlush) : f.reprieve ≤ 1 := by
  unfold reprieve
  split <;> omega

theorem reprieve_of_due (due : f.CloseDue) : f.reprieve = 1 := if_pos due

/-- The calls, and what is still allowed after them, are paid for by the polls among them
that brought something, and by what the flush was allowed before. -/
structure Pays (f : EngineFlush) (calls : List Call) (rest : Allowance) : Prop where
  polls : pollings calls + rest.polls ≤ fruitful f.connection calls + f.allowance.polls
  sends : Outbox.sends calls + rest.sends ≤ fruitful f.connection calls + f.allowance.sends
  forcings : Outbox.forcings calls + rest.forcings ≤ f.allowance.forcings

namespace Pays

theorem append (first : f.Pays l g.allowance) (rest : g.Pays m a)
    (same : g.connection = f.connection) : f.Pays (l ++ m) a := by
  obtain ⟨polls, sends, forcings⟩ := first
  obtain ⟨polls', sends', forcings'⟩ := rest
  rw [same] at polls' sends'
  refine ⟨?_, ?_, ?_⟩
  · rw [pollings_append, fruitful_append]
    omega
  · rw [sends_append, fruitful_append]
    omega
  · rw [forcings_append]
    omega

/-- Other calls come first without a change. -/
theorem lead (none : pollings l = 0 ∧ Outbox.sends l = 0 ∧ Outbox.forcings l = 0)
    (pays : f.Pays m a) : f.Pays (l ++ m) a := by
  obtain ⟨unpolled, unsent, unforced⟩ := none
  obtain ⟨polls, sends, forcings⟩ := pays
  refine ⟨?_, ?_, ?_⟩
  · rw [pollings_append, fruitful_append]
    omega
  · rw [sends_append, fruitful_append]
    omega
  · rw [forcings_append]
    omega

end Pays

/-! ## Each round pays -/

theorem taken_counts {buffer : Ran σ Buffer} (taken : Taken s f w buffer) :
    (pollings buffer.trace.calls = 0 ∧ sends buffer.trace.calls = 0 ∧
        forcings buffer.trace.calls = 0) ∧
      f.overdue = if buffer.value.isEmpty then 0 else 1 := by
  cases taken with
  | @held b held =>
    refine ⟨by simp, ?_⟩
    cases empty : b.isEmpty <;> simp [overdue, held, empty]
  | acquired none given =>
    refine ⟨by simp [Call.poll?, Call.isSend, Call.forces], ?_⟩
    simp [overdue, none, isEmpty_clear]

theorem transmitted_counts (sent : Transmitted s f b w r) :
    pollings r.trace.calls = 0 ∧ sends r.trace.calls = 1 ∧ forcings r.trace.calls = 0 := by
  cases sent <;> simp [transmission, Call.poll?, Call.isSend, Call.forces]

/-- An attempt goes on after a send only with an empty buffer. -/
theorem transmitted_allowance (sent : Transmitted s f b w r) :
    r.value.allowance.polls ≤ f.allowance.polls ∧
      r.value.allowance.sends + f.overdue ≤ f.allowance.sends ∧
      r.value.allowance.forcings ≤ f.allowance.forcings := by
  cases sent with
  | accepted sent =>
    have empty : ({ f with held := some b.clear } : EngineFlush).overdue = 0 := by
      simp [overdue, isEmpty_clear]
    have same : ({ f with held := some b.clear } : EngineFlush).reprieve = f.reprieve := rfl
    simp [Turn.allowance, allowance, empty, same, Nat.add_comm]
  | _ => simp [Turn.allowance, allowance]

/-- A send is paid for by the poll that brought what it sends, or it was due before. -/
theorem sent_pays (lead : List Call) (sent : Transmitted s f b w r)
    (polled : pollings lead = fruitful f.connection lead) (unsent : sends lead = 0)
    (unforced : forcings lead = 0) (paid : 1 ≤ fruitful f.connection lead + f.overdue) :
    f.Pays (lead ++ r.trace.calls) r.value.allowance := by
  obtain ⟨unpolled, one, none⟩ := transmitted_counts sent
  obtain ⟨polls, sends, forcings⟩ := transmitted_allowance sent
  refine ⟨?_, ?_, ?_⟩
  · rw [pollings_append, fruitful_append]
    omega
  · rw [sends_append, fruitful_append]
    omega
  · rw [forcings_append]
    omega

/-- The poll that found nothing left is the last, unless a close is forced after it. -/
theorem woundUp_pays {b' : Buffer} {appended : Bytes} (woundUp : WoundUp s f b w r) :
    f.Pays (.produce f.connection b' appended (.ok 0) :: r.trace.calls) r.value.allowance := by
  cases woundUp with
  | notDue due =>
    refine ⟨?_, ?_, ?_⟩ <;>
      simp [Turn.allowance, allowance, Call.poll?, Call.isSend, Call.forces, Call.isFruitful]
  | notClosing due asked =>
    refine ⟨?_, ?_, ?_⟩ <;>
      simp [Turn.allowance, allowance, Call.poll?, Call.isSend, Call.forces, Call.isFruitful]
  | closeFailed due asked forced =>
    have once := reprieve_of_due due
    refine ⟨?_, ?_, ?_⟩ <;>
      simp [Turn.allowance, allowance, Call.poll?, Call.isSend, Call.forces, Call.isFruitful, once]
  | closed due asked forced =>
    have once := reprieve_of_due due
    have never : ({ f with held := some b, closeRequested := true } : EngineFlush).reprieve = 0 := by
      simp [reprieve]
    -- the poll may have left bytes in the buffer: their send is what the close makes room for
    have rest := overdue_le { f with held := some b, closeRequested := true }
    refine ⟨?_, ?_, ?_⟩
    · simp [Turn.allowance, allowance, Call.poll?, Call.isFruitful, once, never]
    · simp [Turn.allowance, allowance, Call.isSend, Call.isFruitful, once, never]
      omega
    · simp [Turn.allowance, allowance, Call.forces, once, never]
  | notClosed due asked forced =>
    have once := reprieve_of_due due
    refine ⟨?_, ?_, ?_⟩ <;>
      simp [Turn.allowance, allowance, Call.poll?, Call.isSend, Call.forces, Call.isFruitful, once]

theorem worked_pays (worked : Worked s f b w r) (due : f.overdue = if b.isEmpty then 0 else 1) :
    f.Pays r.trace.calls r.value.allowance := by
  cases worked with
  | resent full sent =>
    rw [full] at due
    exact sent_pays [] sent rfl rfl rfl (by simp [due])
  | pollFailed empty polled =>
    refine ⟨?_, ?_, ?_⟩ <;>
      simp [Turn.allowance, allowance, Call.poll?, Call.isSend, Call.forces, Call.isFruitful]
  | @produced bytes n w₁ r empty polled sent =>
    let poll : Call := .produce f.connection b bytes (.ok (n + 1))
    have brought : fruitful f.connection [poll] = 1 := by simp [poll, Call.isFruitful]
    refine sent_pays [poll] sent ?_ rfl rfl ?_
    · rw [brought]
      rfl
    · rw [brought]
      omega
  | ranDry empty polled woundUp => exact woundUp_pays woundUp

theorem rounded_pays (round : Rounded s f w r) : f.Pays r.trace.calls r.value.allowance := by
  cases round with
  | intro taken worked =>
    obtain ⟨none, due⟩ := taken_counts taken
    rw [value_after, trace_after, Trace.calls_append]
    exact (worked_pays worked due).lead none

/-- So does an attempt, down to the last call. -/
theorem attempt_pays (rounds : Nat) (f : EngineFlush) (s : Surroundings σ) (w : σ) :
    f.Pays (f.attempt rounds s w).trace.calls {} := by
  refine attempt_induction (P := fun f _ x => f.Pays x.trace.calls {}) ?spent ?stop ?again rounds
    f w
  case spent => exact fun f w => ⟨by simp, by simp, by simp⟩
  case stop => exact fun f w p g t w' round => rounded_pays round
  case again =>
    intro f w g t w' x round later
    have first : f.Pays t.calls g.allowance := rounded_pays round
    rw [trace_after, Trace.calls_append]
    exact first.append later (rounded_course round).2.2.1

end EngineFlush

/-! ## Engines that bring only so much -/

/-- The engine brings something only as long as it has something left, and only a forced
close adds to that, so much at most. -/
def Surroundings.Stocked (s : Surroundings σ) (connection : Connection) (left : σ → Nat)
    (more : Nat) : Prop :=
  ∀ {c : Call} {w w' : σ}, c.About (some connection) → s.Takes w c w' →
    left w' + (if c.isFruitful connection then 1 else 0) ≤ left w + if c.forces then more else 0

theorem Surroundings.Stocked.course {connection : Connection} {left : σ → Nat} {more : Nat}
    {calls : List Call} (stocked : s.Stocked connection left more)
    (course : Course s (Call.About (some connection)) w calls w') :
    left w' + fruitful connection calls ≤ left w + forcings calls * more := by
  induction course with
  | nil => simp
  | @cons w w₁ w₂ c calls lawful takes rest ih =>
    have step := stocked lawful takes
    rw [fruitful_cons, forcings_cons, Nat.add_mul]
    cases forces : c.forces with
    | true =>
      rw [forces] at step
      simp only [if_true, Nat.one_mul] at step ⊢
      omega
    | false =>
      rw [forces] at step
      simp only [Bool.false_eq_true, if_false, Nat.zero_mul] at step ⊢
      omega

namespace EngineFlush

/-- An attempt brings no more than the engine has left, and what a forced close adds. -/
theorem fruitful_of_stocked {f : EngineFlush} {left : σ → Nat} {more : Nat}
    (stocked : s.Stocked f.connection left more) (rounds : Nat) (w : σ) :
    fruitful f.connection (f.attempt rounds s w).trace.calls ≤ left w + more := by
  have used := stocked.course (f.attempt_course rounds s w).1
  have once : forcings (f.attempt rounds s w).trace.calls ≤ 1 := by
    have forced := (f.attempt_pays rounds s w).forcings
    exact Nat.le_trans forced f.reprieve_le
  have added := Nat.mul_le_mul_right more once
  omega

/-! ## Where an attempt ends -/

/-- An attempt at the flush comes to its end within `n` rounds and a few, with about as
many polls and sends, and with at most one forced close. -/
structure EndsWithin (f : EngineFlush) (s : Surroundings σ) (w : σ) (n : Nat)
    (run : Ran σ (Progress × EngineFlush)) : Prop where
  ended : run.value.1 ≠ .unfinished
  always : ∀ rounds ≥ n + 4, f.attempt rounds s w = run
  polls : pollings run.trace.calls ≤ n + 2
  sends : Outbox.sends run.trace.calls ≤ n + 2
  forcings : Outbox.forcings run.trace.calls ≤ 1
  /-- Without a close still to be forced there is one poll less, and one send. -/
  spent : f.policy.onClose = .disabled ∨ f.closeRequested = true →
    pollings run.trace.calls ≤ n + 1 ∧ Outbox.sends run.trace.calls ≤ n + 1

theorem endsWithin {f : EngineFlush} {n : Nat}
    (atMost : ∀ rounds, fruitful f.connection (f.attempt rounds s w).trace.calls ≤ n) :
    ∃ run, f.EndsWithin s w n run := by
  have ended : (f.attempt (n + 4) s w).value.1 ≠ .unfinished := fun unfinished => by
    have rounds := f.attempt_unfinished (n + 4) s w unfinished
    have brought := atMost (n + 4)
    have slack := f.slack_le
    omega
  obtain ⟨polls, sends, forcings⟩ := f.attempt_pays (n + 4) s w
  have brought := atMost (n + 4)
  have full := f.overdue_le
  have once := f.reprieve_le
  simp only [allowance, Nat.add_zero] at polls sends forcings
  refine ⟨f.attempt (n + 4) s w, ended, fun rounds enough => attempt_of_le enough ended, ?_, ?_,
    ?_, fun spent => ?_⟩
  · omega
  · omega
  · omega
  · have never : f.reprieve = 0 := by
      unfold reprieve
      rcases spent with disabled | requested
      · simp [disabled]
      · simp [requested]
    omega

end EngineFlush

/-! ## Engines that answer from a script -/

namespace Rehearsal

theorem producePolls_append (l m : List ProduceCue) :
    producePolls (l ++ m) = producePolls l + producePolls m := by
  induction l with
  | nil => simp [producePolls]
  | cons cue l ih =>
    obtain ⟨data, claimed, failure, change⟩ := cue
    simp only [List.cons_append, producePolls, ih]
    omega

theorem timerPolls_append (l m : List TimerCue) :
    timerPolls (l ++ m) = timerPolls l + timerPolls m := by
  induction l with
  | nil => simp [timerPolls]
  | cons cue l ih =>
    obtain ⟨failure, change⟩ := cue
    simp only [List.cons_append, timerPolls, ih]
    omega

theorem closePolls_append (l m : List CloseCue) :
    closePolls (l ++ m) = closePolls l + closePolls m := by
  induction l with
  | nil => simp [closePolls]
  | cons cue l ih =>
    obtain ⟨finalised, failure, change⟩ := cue
    simp only [List.cons_append, closePolls, ih]
    omega

namespace ScriptedConnection

variable {conn : ScriptedConnection}

/-- A change adds the polls that it prepares. -/
theorem polls_afterCue (conn : ScriptedConnection) (change : Option Change) :
    (conn.afterCue change).polls = conn.polls + changePolls change := by
  cases change with
  | none => rfl
  | some change =>
    obtain ⟨remote, closed, produce, timer, close⟩ := change
    simp only [afterCue, changed, polls, producePolls_append, timerPolls_append,
      closePolls_append, changePolls, Change.polls]
    omega

/-- A poll uses up one of them, and what its answer brings was counted before. -/
theorem polls_of_produce {cue : ProduceCue} {rest : List ProduceCue}
    (script : conn.produce = cue :: rest) :
    ({ conn with produce := rest }.afterCue cue.change).polls + 1 = conn.polls := by
  obtain ⟨data, claimed, failure, change⟩ := cue
  rw [polls_afterCue]
  simp only [polls, script, producePolls]
  omega

theorem polls_of_timer {cue : TimerCue} {rest : List TimerCue}
    (script : conn.timer = cue :: rest) :
    ({ conn with timer := rest }.afterCue cue.change).polls = conn.polls := by
  obtain ⟨failure, change⟩ := cue
  rw [polls_afterCue]
  simp only [polls, script, timerPolls]
  omega

theorem polls_of_close {cue : CloseCue} {rest : List CloseCue}
    (script : conn.close = cue :: rest) :
    ({ conn with close := rest }.afterCue cue.change).polls = conn.polls := by
  obtain ⟨finalised, failure, change⟩ := cue
  rw [polls_afterCue]
  simp only [polls, script, closePolls]
  omega

end ScriptedConnection

namespace Stage

/-- The polls that are prepared for a connection, also those that other answers of its
script bring. -/
def prepared (connection : Connection) (stage : Stage) : Nat :=
  ((stage.connections.get? connection).map ScriptedConnection.polls).getD 0

theorem prepared_setConnection (stage : Stage) (connection : Connection)
    (conn : ScriptedConnection) :
    (stage.setConnection connection conn).prepared connection = conn.polls := by
  simp [prepared, setConnection]

theorem prepared_of_found {stage : Stage} {connection : Connection} {conn : ScriptedConnection}
    (found : stage.connections.get? connection = some conn) :
    stage.prepared connection = conn.polls := by
  simp [prepared, found]

/-- A poll without a prepared answer brings nothing, so every other is paid for. -/
theorem produce_prepared {stage stage' : Stage} {connection : Connection} {b : Buffer}
    {bytes : Bytes} {answer : Except EngineFault Nat}
    (polled : stage.produce connection b = ((bytes, answer), stage')) :
    stage'.prepared connection +
        (if (Call.produce connection b bytes answer).isFruitful connection then 1 else 0) ≤
      stage.prepared connection := by
  unfold produce at polled
  cases found : stage.connections.get? connection with
  | none =>
    simp only [found] at polled
    cases polled
    simp [Call.isFruitful]
  | some conn =>
    cases script : conn.produce with
    | nil =>
      simp only [found, script] at polled
      cases polled
      simp [Call.isFruitful]
    | cons cue rest =>
      simp only [found, script] at polled
      cases polled
      rw [prepared_setConnection, prepared_of_found found,
        ← ScriptedConnection.polls_of_produce script]
      split <;> omega

theorem fireTimer_prepared {stage stage' : Stage} {connection : Connection}
    {answer : Except EngineFault Unit} (fired : stage.fireTimer connection = (answer, stage')) :
    stage'.prepared connection = stage.prepared connection := by
  unfold fireTimer at fired
  cases found : stage.connections.get? connection with
  | none =>
    simp only [found] at fired
    cases fired
    rfl
  | some conn =>
    cases script : conn.timer with
    | nil =>
      simp only [found, script] at fired
      cases fired
      rfl
    | cons cue rest =>
      simp only [found, script] at fired
      cases fired
      rw [prepared_setConnection, prepared_of_found found,
        ScriptedConnection.polls_of_timer script]

theorem finaliseClose_prepared {stage stage' : Stage} {connection : Connection}
    {answer : Except EngineFault Bool}
    (forced : stage.finaliseClose connection = (answer, stage')) :
    stage'.prepared connection = stage.prepared connection := by
  unfold finaliseClose at forced
  cases found : stage.connections.get? connection with
  | none =>
    simp only [found] at forced
    cases forced
    rfl
  | some conn =>
    cases script : conn.close with
    | nil =>
      simp only [found, script] at forced
      cases forced
      rfl
    | cons cue rest =>
      simp only [found, script] at forced
      cases forced
      rw [prepared_setConnection, prepared_of_found found,
        ScriptedConnection.polls_of_close script]

theorem isClosing_connections (connection : Connection) (stage : Stage) :
    (stage.isClosing connection).2.connections = stage.connections := by
  unfold isClosing
  split <;> rfl

theorem send_connections (channel : Channel) (datagram : Bytes) (destination : Address)
    (stage : Stage) :
    (stage.send channel datagram destination).2.connections = stage.connections := by
  unfold send
  split
  · split <;> rfl
  · rfl

theorem prepared_congr {stage stage' : Stage} (same : stage'.connections = stage.connections)
    (connection : Connection) : stage'.prepared connection = stage.prepared connection := by
  unfold prepared
  rw [same]

/-- A script has only so much left, however many answers its own answers bring. -/
theorem stocked (connection : Connection) :
    surroundings.Stocked connection (prepared connection) 0 := by
  intro c stage stage' about takes
  rw [ite_self, Nat.add_zero]
  cases c with
  | produce x before bytes answer =>
    obtain rfl : connection = x := Option.some.inj (about x rfl)
    exact produce_prepared takes
  | fireTimer x answer =>
    obtain rfl : connection = x := Option.some.inj (about x rfl)
    exact Nat.le_of_eq (fireTimer_prepared takes)
  | finaliseClose x answer =>
    obtain rfl : connection = x := Option.some.inj (about x rfl)
    exact Nat.le_of_eq (finaliseClose_prepared takes)
  | isClosing x answer =>
    have same := isClosing_connections x stage
    rw [show stage.isClosing x = (answer, stage') from takes] at same
    exact Nat.le_of_eq (prepared_congr same connection)
  | send channel datagram destination answer =>
    have same := send_connections channel datagram destination stage
    rw [show stage.send channel datagram destination = (answer, stage') from takes] at same
    exact Nat.le_of_eq (prepared_congr same connection)
  | acquire least direct given =>
    cases takes
    exact Nat.le_refl _
  | release b =>
    cases takes
    exact Nat.le_refl _
  | peerAddress x answer =>
    obtain ⟨-, rfl⟩ := takes
    exact Nat.le_refl _
  | dispose x =>
    cases takes
    exact Nat.le_refl _

theorem rounds_eq_sum (stage : Stage) :
    stage.rounds = (stage.connections.values.map ScriptedConnection.polls).sum + 5 := by
  unfold rounds
  induction stage.connections.values with
  | nil => rfl
  | cons conn rest ih =>
    rw [List.foldr_cons, ih, List.map_cons, List.sum_cons, Nat.add_assoc]

/-- What is prepared for one connection is counted among the rounds of the stage. -/
theorem prepared_le_rounds (connection : Connection) (stage : Stage) :
    stage.prepared connection + 5 ≤ stage.rounds := by
  rw [rounds_eq_sum]
  cases found : stage.connections.get? connection with
  | none => simp [prepared, found]
  | some conn =>
    obtain ⟨before, after, entries, -⟩ := List.lookup_eq_some_iff.1 found
    simp only [prepared_of_found found, Register.values, entries, List.map_append, List.map_cons,
      List.sum_append, List.sum_cons]
    omega

/-- There are rounds enough for any attempt on a stage. -/
theorem rounds_suffice (f : EngineFlush) (stage : Stage) :
    (f.attempt stage.rounds surroundings stage).value.1 ≠ .unfinished := by
  have atMost := fun rounds => EngineFlush.fruitful_of_stocked (stocked f.connection) rounds stage
  obtain ⟨run, ends⟩ := EngineFlush.endsWithin atMost
  have enough := prepared_le_rounds f.connection stage
  rw [ends.always stage.rounds (by omega)]
  exact ends.ended

end Stage

end Rehearsal

namespace EngineFlush

/-! ## The law -/

/-- The send loop ends, within a bound. Take any state of a flush, with any buffer in use,
and any engine, also one whose counts do not tell what it put into the buffer. If it
answers a count above zero at most `n` more times, the attempt comes to its end, with at
most `n + 2` polls, `n + 2` sends and one forced close, and with one poll and one send less
if no close is still to be forced. So it does with an engine that has only so much left,
even if a forced close adds to that. -/
theorem an_attempt_at_a_flush_ends_within_a_bound (s : Surroundings σ) (f : EngineFlush) (w : σ) :
    (∀ n, (∀ rounds, fruitful f.connection (f.attempt rounds s w).trace.calls ≤ n) →
        ∃ run, f.EndsWithin s w n run) ∧
      ∀ left more, s.Stocked f.connection left more →
        ∃ run, f.EndsWithin s w (left w + more) run := by
  refine ⟨fun n atMost => endsWithin atMost, fun left more stocked => ?_⟩
  apply endsWithin
  intro rounds
  exact fruitful_of_stocked stocked rounds w

end EngineFlush

/-- An engine with one datagram left. Its next answer is 0, but leaves a byte in the
buffer, and a forced close brings one datagram more. -/
def Rehearsal.Stage.parting : Rehearsal.Stage where
  channels := .ofList [(⟨"out"⟩, {})]
  connections := .ofList [(⟨"left"⟩, {
    remote := ⟨"peer"⟩
    closed := true
    produce := [⟨[1], none, none, none⟩, ⟨[2], some 0, none, none⟩]
    close := [⟨true, none, some ⟨none, none, [⟨[3], none, none, none⟩], [], []⟩⟩] })]

/-- A flush that has a datagram in its buffer. -/
def Bench.laden : EngineFlush :=
  { Bench.flush Bench.thorough with held := some ((Buffer.withCapacity 8).append [7]) }

/-- There are two polls that bring something, and no bound is too high: 4 polls, 4 sends and
one forced close. -/
theorem EngineFlush.an_attempt_at_a_flush_ends_within_a_bound_on_the_stage :
    let s := Rehearsal.Stage.surroundings
    (∀ rounds, fruitful ⟨"left"⟩ (Bench.laden.attempt rounds s .parting).trace.calls ≤ 2) ∧
      s.Stocked ⟨"left"⟩ (Rehearsal.Stage.prepared ⟨"left"⟩) 0 ∧
      (∃ run, Bench.laden.EndsWithin s .parting 2 run ∧ pollings run.trace.calls = 4 ∧
        sends run.trace.calls = 4 ∧ forcings run.trace.calls = 1) ∧
      ∃ run, Bench.laden.EndsWithin s .parting 3 run := by
  intro s
  have ended : (Bench.laden.attempt 6 s .parting).value.1 = .completed := by decide +kernel
  have atMost : ∀ rounds,
      fruitful ⟨"left"⟩ (Bench.laden.attempt rounds s .parting).trace.calls ≤ 2 := by
    intro rounds
    -- it is done after six rounds, so more of them change nothing
    rcases Nat.lt_or_ge rounds 6 with few | enough
    · revert rounds few
      decide +kernel
    · rw [attempt_of_le enough (by simp [ended])]
      decide +kernel
  have stocked : s.Stocked ⟨"left"⟩ (Rehearsal.Stage.prepared ⟨"left"⟩) 0 :=
    Rehearsal.Stage.stocked ⟨"left"⟩
  obtain ⟨within, prepared⟩ := an_attempt_at_a_flush_ends_within_a_bound s Bench.laden .parting
  obtain ⟨run, ends⟩ := within 2 atMost
  obtain rfl : Bench.laden.attempt 6 s .parting = run := ends.always 6 (Nat.le_refl 6)
  refine ⟨atMost, stocked, ⟨_, ends, ?_⟩, prepared _ 0 stocked⟩
  decide +kernel

end Outbox
