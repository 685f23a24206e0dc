-- What a submission leaves behind. It attempts its own command and no other, so what
-- waits stays as it is, and only a command that is refused joins it, at the back. A
-- command that fails is given up, and then its buffer goes back with the last call. Only
-- a timer fails before there is a buffer.
import Outbox.Proofs.Disposals
import Outbox.Proofs.Retries
import Outbox.Proofs.Stoppages
import Outbox.Proofs.TimerPhases

namespace Outbox

variable {σ : Type} {s : Surroundings σ} {rounds : Nat} {w w' : σ}

/-! ## The buffer of a new command -/

/-- A timer that failed. -/
def Call.isMisfire : Call → Bool
  | .fireTimer _ (.error _) => true
  | _ => false

theorem misfire_of_flush {c : Call} (flushing : c.ofFlush = true) : c.isMisfire = false := by
  cases c with
  | fireTimer => cases flushing
  | _ => rfl

/-- A flush that comes to its end, or is refused or fails, has had exactly one buffer. -/
theorem EngineFlush.attempt_buffer (rounds : Nat) (f : EngineFlush) (s : Surroundings σ) (w : σ) :
    let r := f.attempt rounds s w
    r.value.1 ≠ .unfinished → acquires r.trace.calls + buffers f.held = 1 := by
  refine attempt_induction
    (P := fun f _ x => x.value.1 ≠ .unfinished → acquires x.trace.calls + buffers f.held = 1)
    ?spent ?stop ?again rounds f w
  case spent => exact fun f w done => absurd rfl done
  case stop => exact fun f w p g t w' round _ => rounded_acquires round
  case again =>
    intro f w g t w' x round later done
    have first : acquires t.calls + buffers f.held = 1 := rounded_acquires round
    have rest := later done
    rw [buffers_of_isSome (held_of_again round)] at rest
    rw [trace_after, Trace.calls_append, acquires_append]
    omega

theorem TimerFlush.flushed_buffer {t : TimerFlush} {fired : Ran σ TimerFlush} {p : Progress}
    {flush : EngineFlush} {u : Trace} (fire : Fired s t w fired)
    (ran : fired.value.flush.attempt rounds s fired.world = ⟨(p, flush), u, w'⟩)
    (done : p ≠ .unfinished) :
    (∀ c ∈ (fired.trace ++ u).calls, c.isMisfire = false) ∧
      acquires (fired.trace ++ u).calls + buffers t.flush.held = 1 := by
  have flushing := fired.value.flush.attempt_ofFlush rounds s fired.world
  have taken := fired.value.flush.attempt_buffer rounds s fired.world
  rw [ran, value_of_fired fire] at taken
  rw [ran] at flushing
  obtain ⟨rang, none⟩ : (∀ c ∈ fired.trace.calls, c.isMisfire = false) ∧
      acquires fired.trace.calls = 0 := by
    cases fire <;> simp [Call.isMisfire, Call.isAcquire]
  rw [Trace.calls_append, acquires_append, none, Nat.zero_add]
  exact ⟨List.forall_mem_append.2 ⟨rang, fun c mem => misfire_of_flush (flushing c mem)⟩, taken done⟩

section

variable {policy : Policy} {r : Backlog.Request} {c : Command}

/-- The timer of a new command fails before there is a buffer. If it does not fail, the
command takes a buffer unless it was given one. -/
theorem resume_of_made (made : r.command? policy = some c) (rounds : Nat) (s : Surroundings σ)
    (w : σ) :
    let x := c.resume rounds s w
    x.value.1 ≠ .unfinished →
      (∃ connection channel dispose fault, r = .timer connection channel dispose ∧
          x.value.1 = .failed (.engine fault) ∧
          x.trace.calls = [.fireTimer connection (.error fault)] ∧ x.value.2.held = none) ∨
        ((∀ d ∈ x.trace.calls, d.isMisfire = false) ∧
          acquires x.trace.calls = if r.isWrite then 0 else 1) := by
  cases r with
  | write channel buffer peer =>
    cases made
    rw [Command.resume_write]
    have attempted := DatagramWrite.attempted_iff.2
      (rfl : ({ channel, peer, held := some buffer } : DatagramWrite).attempt s w = _)
    generalize DatagramWrite.attempt _ s w = x at attempted
    refine fun _ => Or.inr ?_
    cases attempted <;> simp [Call.isMisfire, Call.isAcquire, Backlog.Request.isWrite]
  | flush connection channel =>
    cases made
    rw [Command.resume_flush]
    have flushing := EngineFlush.attempt_ofFlush rounds
      { purpose := .send, connection, channel, policy } s w
    refine fun done => Or.inr ⟨fun d mem => misfire_of_flush (flushing d mem), ?_⟩
    exact EngineFlush.attempt_buffer rounds _ s w done
  | timer connection channel dispose =>
    cases made
    rw [Command.resume_timer]
    have attempted := TimerFlush.attempted_iff.2
      (rfl : (TimerFlush.new connection channel dispose policy).attempt rounds s w = _)
    generalize TimerFlush.attempt _ _ s w = x at attempted
    intro y done
    cases attempted with
    | fireFailed unfired rang => exact Or.inl ⟨_, _, _, _, rfl, rfl, rfl, rfl⟩
    | stopped fire incomplete ran => exact Or.inr (TimerFlush.flushed_buffer fire ran done)
    | kept fire notDue ran => exact Or.inr (TimerFlush.flushed_buffer fire ran done)
    | @disposed fired flush u w₂ fire due ran =>
      obtain ⟨rang, taken⟩ := TimerFlush.flushed_buffer fire ran done
      have disposal : (Call.dispose flush.connection).isMisfire = false := rfl
      right
      simp only [y, Trace.calls_append, Trace.calls_note, Trace.calls_call, Trace.calls_nil] at *
      refine ⟨?_, ?_⟩
      · refine List.forall_mem_append.2 ⟨rang, fun d mem => ?_⟩
        rw [List.mem_singleton.1 mem]
        exact disposal
      · rw [acquires_append]
        exact taken
  | drain => cases made

theorem Command.resume_noDisposal (rounds : Nat) (c : Command) (s : Surroundings σ) (w : σ) :
    let x := c.resume rounds s w
    x.value.1 ≠ .completed → NoDisposal x.trace.calls := by
  cases c with
  | write d =>
    rw [resume_write]
    have attempted := DatagramWrite.attempted_iff.2 (rfl : d.attempt s w = _)
    generalize d.attempt s w = x at attempted
    refine fun _ => ?_
    cases attempted <;> simp [NoDisposal]
  | flush f =>
    rw [resume_flush]
    exact fun _ => noDisposal_of_flush (f.attempt_ofFlush rounds s w)
  | timer t =>
    rw [resume_timer]
    exact fun incomplete => (t.attempt_disposal rounds s w).resolve_right fun h => incomplete h.1

/-- An attempt at a new write leaves the buffer that it was given as it is, in use or given
back. -/
theorem resume_of_write (channel : Channel) (buffer : Buffer) (peer : Address) (rounds : Nat)
    (s : Surroundings σ) (w : σ) :
    let x := (Command.write { channel, peer, held := some buffer }).resume rounds s w
    x.value.2.held = some buffer ∨ .release buffer ∈ x.trace.calls := by
  rw [Command.resume_write]
  have attempted := DatagramWrite.attempted_iff.2
    (rfl : ({ channel, peer, held := some buffer } : DatagramWrite).attempt s w = _)
  generalize DatagramWrite.attempt _ s w = x at attempted
  intro y
  cases attempted with
  | done none => cases none
  | empty held empty => cases held; exact Or.inr (by simp [y])
  | failed held full sent => exact Or.inl rfl
  | refused held full sent => exact Or.inl rfl
  | accepted held full sent => cases held; exact Or.inr (by simp [y])

end

/-! ## The law -/

/-- The request had one buffer, given or taken, and it was given back once. It is the very
one that was given, if one was. -/
structure GivesBack (r : Backlog.Request) (calls : List Call) : Prop where
  taken : acquires calls = if r.isWrite then 0 else 1
  given : releases calls = 1
  own : ∀ channel buffer peer, r = .write channel buffer peer → .release buffer ∈ calls

namespace Command

variable {policy : Policy} {r : Backlog.Request} {c : Command} {e : Failure}

theorem serve_own {channel : Channel} {buffer : Buffer} {peer : Address}
    (made : (Backlog.Request.write channel buffer peer).command? policy = some c)
    (ended : (c.serve rounds s w).value.1 = .completed ∨
      ∃ e, (c.serve rounds s w).value.1 = .failed e) :
    .release buffer ∈ (c.serve rounds s w).trace.calls := by
  obtain ⟨value, calls, -⟩ := c.serve_eq rounds s w
  rw [value] at ended
  rw [calls]
  cases made
  rcases resume_of_write channel buffer peer rounds s w with held | back
  · rcases ended with completed | ⟨e, failed⟩
    · have none := (held_of_resume rounds _ s w).1 completed
      rw [held] at none
      cases none
    · rw [failed]
      simp [parting, held]
  · exact List.mem_append_left _ back

/-- The one buffer of a new command is in use, or it is given back. -/
theorem resume_buffer (made : r.command? policy = some c)
    (taken : acquires (c.resume rounds s w).trace.calls = if r.isWrite then 0 else 1) :
    releases (c.resume rounds s w).trace.calls +
      buffers (c.resume rounds s w).value.2.held = 1 := by
  have balance : buffers c.held + acquires (c.resume rounds s w).trace.calls =
      releases (c.resume rounds s w).trace.calls +
        buffers (c.resume rounds s w).value.2.held := (bufferAccount s).resume rounds c w
  rw [taken, (held_of_made made).2] at balance
  rw [← balance]
  split <;> rfl

theorem serve_completed (made : r.command? policy = some c)
    (completed : (c.serve rounds s w).value.1 = .completed) :
    GivesBack r (c.serve rounds s w).trace.calls := by
  have own : ∀ channel buffer peer, r = .write channel buffer peer →
      .release buffer ∈ (c.serve rounds s w).trace.calls := by
    rintro channel buffer peer rfl
    exact serve_own made (Or.inl completed)
  obtain ⟨value, calls, -⟩ := c.serve_eq rounds s w
  rw [value] at completed
  have same : (c.serve rounds s w).trace.calls = (c.resume rounds s w).trace.calls := by
    rw [calls, completed]
    exact List.append_nil _
  rw [same] at own ⊢
  rcases resume_of_made made rounds s w (by simp [completed]) with
    ⟨_, _, _, fault, -, failed, -⟩ | ⟨-, taken⟩
  · rw [completed] at failed
    cases failed
  · have given := resume_buffer made taken
    rw [(c.held_of_resume rounds s w).1 completed] at given
    exact ⟨taken, given, own⟩

/-- A new command that failed disposed nothing. Its timer failed before there was a buffer,
or its buffer went back with the last call. -/
theorem serve_failed (made : r.command? policy = some c)
    (failed : (c.serve rounds s w).value.1 = .failed e) :
    let calls := (c.serve rounds s w).trace.calls
    NoDisposal calls ∧
      ((∃ connection channel dispose fault, r = .timer connection channel dispose ∧
          calls = [.fireTimer connection (.error fault)]) ∨
        (∀ d ∈ calls, d.isMisfire = false) ∧ GivesBack r calls ∧
          ∃ earlier buffer, calls = earlier ++ [.release buffer]) := by
  intro calls
  have own : ∀ channel buffer peer, r = .write channel buffer peer → .release buffer ∈ calls := by
    rintro channel buffer peer rfl
    exact serve_own made (Or.inr ⟨e, failed⟩)
  obtain ⟨value, cut, -⟩ := c.serve_eq rounds s w
  rw [value] at failed
  simp only [calls, cut] at own ⊢
  have work := c.resume_noDisposal rounds s w (by simp [failed])
  refine ⟨work.append (parting_noDisposal _ _), ?_⟩
  -- a failed attempt gives nothing back itself, so its buffer, if any, is still in use
  have kept := c.resume_releases rounds s w (by simp [failed])
  rcases resume_of_made made rounds s w (by simp [failed]) with
    ⟨connection, channel, dispose, fault, timer, -, misfire, none⟩ | ⟨rang, taken⟩
  · left
    refine ⟨connection, channel, dispose, fault, timer, ?_⟩
    rw [misfire, failed]
    simp [parting, none]
  · right
    have given := resume_buffer made taken
    rw [kept, Nat.zero_add] at given
    obtain ⟨buffer, held⟩ : ∃ buffer, (c.resume rounds s w).value.2.held = some buffer := by
      cases held : (c.resume rounds s w).value.2.held with
      | none => simp [held] at given
      | some buffer => exact ⟨buffer, rfl⟩
    have back : (c.resume rounds s w).value.2.parting (c.resume rounds s w).value.1 =
        [.release buffer] := by
      rw [failed]
      simp [parting, held]
    rw [back] at own ⊢
    refine ⟨?_, ⟨?_, ?_, own⟩, _, buffer, rfl⟩
    · exact List.forall_mem_append.2 ⟨rang, by simp [Call.isMisfire]⟩
    · rw [acquires_append]
      exact taken
    · rw [releases_append, kept]
      rfl

end Command

namespace Backlog

variable {b : Backlog} {r : Request} {c : Command}

theorem submission_apply (made : r.command? b.policy = some c) (rounds : Nat)
    (s : Surroundings σ) (w : σ) :
    let own := c.serve rounds s w
    b.perform rounds r s w =
      ⟨(own.value.1,
          if own.value.1.waits then { b with waiting := b.waiting ++ [own.value.2] } else b),
        (r.announce s w).trace ++ own.trace, own.world⟩ := by
  rw [perform_submission rounds b made, submit_eq]
  simp [announce_calls]

/-- A failed submission leaves the backlog as it was. A submission announces its command
and serves it, and attempts no other. If it fails, the commands that wait are the same as
before and in the same states, and no connection is disposed. Either it was for a timer
that failed, and made no other call, or its one buffer, taken or given, went back with the
last call. If it is done, the commands that wait are the same too, and its one buffer went
back. If it is refused, exactly its own command joins them, at the back. -/
theorem a_failed_submission_leaves_the_backlog_as_it_was (s : Surroundings σ) (rounds : Nat)
    (b : Backlog) {r : Request} {c : Command} (made : r.command? b.policy = some c) (w : σ) :
    let run := b.perform rounds r s w
    let own := c.serve rounds s w
    let calls := run.trace.calls
    (run.trace = (r.announce s w).trace ++ own.trace ∧ run.world = own.world ∧
        run.value.1 = own.value.1) ∧
      (∀ e, run.value.1 = .failed e → run.value.2 = b ∧ NoDisposal calls ∧
        ((∃ connection channel dispose fault, r = .timer connection channel dispose ∧
            calls = [.fireTimer connection (.error fault)]) ∨
          (∀ d ∈ calls, d.isMisfire = false) ∧ GivesBack r calls ∧
            ∃ earlier buffer, calls = earlier ++ [.release buffer])) ∧
      (run.value.1 = .completed → run.value.2 = b ∧ GivesBack r calls) ∧
      (run.value.1 = .refused →
        run.value.2 = { b with waiting := b.waiting ++ [own.value.2] } ∧
          c.WaitsAs own.value.2) := by
  intro run own calls
  have apply : run = _ := submission_apply made rounds s w
  have same : calls = own.trace.calls := by
    simp [calls, apply, own, announce_calls]
  have progress : run.value.1 = own.value.1 := by rw [apply]
  have left : run.value.2 =
      if own.value.1.waits then { b with waiting := b.waiting ++ [own.value.2] } else b := by
    rw [apply]
  rw [same, left, progress]
  refine ⟨⟨by rw [apply], by rw [apply], rfl⟩, ?failed, ?completed, ?refused⟩
  case failed =>
    intro e failed
    refine ⟨?_, Command.serve_failed made failed⟩
    rw [failed]
    rfl
  case completed =>
    intro completed
    refine ⟨?_, Command.serve_completed made completed⟩
    rw [completed]
    rfl
  case refused =>
    intro refused
    refine ⟨?_, ?_⟩
    · rw [refused]
      rfl
    · have value := (c.serve_eq rounds s w).1
      simp only [own, value] at refused ⊢
      exact (c.resume_refused_waits rounds s w refused).1

/-- A timer command is submitted while another one waits. Its send fails, or its timer does,
or it is refused. -/
theorem a_failed_submission_leaves_the_backlog_as_it_was_on_the_workbench :
    let r : Request := .timer ⟨"left"⟩ ⟨"out"⟩ true
    let c : Command := .timer (.new ⟨"left"⟩ ⟨"out"⟩ true .standard)
    let b : Backlog := { waiting := [Bench.putOff "right"] }
    let failed := b.perform 4 r Bench.cutOff Bench.busy.1
    let misfired := b.perform 4 r Bench.alarmed Bench.busy.1
    let refused := b.perform 4 r workbench.impatient Bench.busy
    r.command? b.policy = some c ∧
      (failed.value.1 = .failed (.channel (.bare .networkDown)) ∧ failed.value.2 = b ∧
        NoDisposal failed.trace.calls ∧ GivesBack r failed.trace.calls) ∧
      (misfired.value.1 = .failed (.engine Bench.stuck) ∧ misfired.value.2 = b) ∧
      (refused.value.1 = .refused ∧
        refused.value.2 = { b with
          waiting := b.waiting ++ [(c.serve 4 workbench.impatient Bench.busy).value.2] }) := by
  intro r c b failed misfired refused
  have made : r.command? b.policy = some c := rfl
  obtain ⟨-, law, -⟩ := a_failed_submission_leaves_the_backlog_as_it_was Bench.cutOff 4 b made
    Bench.busy.1
  obtain ⟨-, law', -⟩ := a_failed_submission_leaves_the_backlog_as_it_was Bench.alarmed 4 b made
    Bench.busy.1
  obtain ⟨-, -, -, law''⟩ := a_failed_submission_leaves_the_backlog_as_it_was workbench.impatient 4
    b made Bench.busy
  have afterwards := law _ (rfl : failed.value.1 = .failed (.channel (.bare .networkDown)))
  obtain ⟨same, undisposed, ⟨_, _, _, _, -, alone⟩ | ⟨-, back, -⟩⟩ := afterwards
  · -- six calls are more than the one of a timer that failed
    cases (congrArg List.length alone : (6 : Nat) = 1)
  · refine ⟨made, ⟨rfl, same, undisposed, back⟩, ⟨rfl, ?_⟩, rfl, (law'' rfl).1⟩
    exact (law' _ (rfl : misfired.value.1 = .failed (.engine Bench.stuck))).1

end Backlog

end Outbox
