-- Everything that one attempt at a command can do, for the three kinds of
-- command. The rules are exactly the attempts, as in `Rounds`.
import Outbox.Proofs.Histories
import Outbox.Proofs.Rounds

namespace Outbox

variable {σ : Type} {s : Surroundings σ} {w : σ}

/-! ## A datagram written -/

namespace DatagramWrite

/-- What an attempt at a write does. -/
inductive Attempted (s : Surroundings σ) (d : DatagramWrite) (w : σ) :
    Ran σ (Progress × DatagramWrite) → Prop where
  | done (none : d.held = none) : Attempted s d w ⟨(.completed, d), [], w⟩
  | empty {b : Buffer} (held : d.held = some b) (empty : b.isEmpty = true) :
      Attempted s d w
        ⟨(.completed, { d with held := none }), [.call (.release b)], s.release b w⟩
  | failed {b : Buffer} {e : ChannelFault} {w₁ : σ} (held : d.held = some b)
      (full : b.isEmpty = false) (sent : s.send d.channel b.contents d.peer w = (.error e, w₁)) :
      Attempted s d w
        ⟨(.failed (.channel e), d), [.call (.send d.channel b.contents d.peer (.error e))], w₁⟩
  | refused {b : Buffer} {w₁ : σ} (held : d.held = some b) (full : b.isEmpty = false)
      (sent : s.send d.channel b.contents d.peer w = (.ok 0, w₁)) :
      Attempted s d w
        ⟨(.refused, d), [.call (.send d.channel b.contents d.peer (.ok 0))], w₁⟩
  | accepted {b : Buffer} {n : Nat} {w₁ : σ} (held : d.held = some b) (full : b.isEmpty = false)
      (sent : s.send d.channel b.contents d.peer w = (.ok (n + 1), w₁)) :
      Attempted s d w
        ⟨(.completed, { d with held := none }),
          [.call (.send d.channel b.contents d.peer (.ok (n + 1))), .call (.release b)],
          s.release b w₁⟩

variable {d : DatagramWrite} {r : Ran σ (Progress × DatagramWrite)}

theorem attempted_iff : Attempted s d w r ↔ d.attempt s w = r := by
  constructor
  · intro h
    cases h with
    | done none => simp [attempt, none]
    | empty held empty => simp [attempt, held, empty, finish, Act.release]
    | failed held full sent => simp [attempt, held, full, Act.send, sent]
    | refused held full sent => simp [attempt, held, full, Act.send, sent]
    | accepted held full sent =>
      simp [attempt, held, full, Act.send, sent, finish, Act.release]
  · rintro rfl
    rcases held : d.held with _ | b
    · simpa [attempt, held] using Attempted.done held
    · rcases empty : b.isEmpty with _ | _
      · rcases sent : s.send d.channel b.contents d.peer w with ⟨_ | _ | n, w₁⟩
        · simpa [attempt, held, empty, Act.send, sent] using Attempted.failed held empty sent
        · simpa [attempt, held, empty, Act.send, sent] using Attempted.refused held empty sent
        · simpa [attempt, held, empty, Act.send, sent, finish, Act.release]
            using Attempted.accepted held empty sent
      · simpa [attempt, held, empty, finish, Act.release]
          using Attempted.empty (s := s) (w := w) held empty

end DatagramWrite

/-! ## A timer fired -/

namespace TimerFlush

/-- The firing of the timer, if it succeeds or was done before. -/
inductive Fired (s : Surroundings σ) (t : TimerFlush) (w : σ) : Ran σ TimerFlush → Prop where
  | before (fired : t.fired = true) : Fired s t w ⟨t, [], w⟩
  | now {w₁ : σ} (unfired : t.fired = false)
      (rang : s.fireTimer t.connection w = (.ok (), w₁)) :
      Fired s t w
        ⟨{ t with fired := true }, [.call (.fireTimer t.connection (.ok ()))], w₁⟩

/-- Whether the connection is to be disposed once the flush is done. -/
def DisposalDue (t : TimerFlush) : Prop := t.dispose = true ∧ t.disposed = false

/-- What an attempt at a timer command does. -/
inductive Attempted (s : Surroundings σ) (rounds : Nat) (t : TimerFlush) (w : σ) :
    Ran σ (Progress × TimerFlush) → Prop where
  | fireFailed {e : EngineFault} {w₁ : σ} (unfired : t.fired = false)
      (rang : s.fireTimer t.connection w = (.error e, w₁)) :
      Attempted s rounds t w
        ⟨(.failed (.engine e), t), [.call (.fireTimer t.connection (.error e))], w₁⟩
  | stopped {fired : Ran σ TimerFlush} {p : Progress} {flush : EngineFlush} {u : Trace} {w₂ : σ}
      (fire : Fired s t w fired) (incomplete : p ≠ .completed)
      (attempt : fired.value.flush.attempt rounds s fired.world = ⟨(p, flush), u, w₂⟩) :
      Attempted s rounds t w ⟨(p, { fired.value with flush }), fired.trace ++ u, w₂⟩
  | kept {fired : Ran σ TimerFlush} {flush : EngineFlush} {u : Trace} {w₂ : σ}
      (fire : Fired s t w fired) (notDue : ¬ t.DisposalDue)
      (attempt : fired.value.flush.attempt rounds s fired.world = ⟨(.completed, flush), u, w₂⟩) :
      Attempted s rounds t w ⟨(.completed, { fired.value with flush }), fired.trace ++ u, w₂⟩
  | disposed {fired : Ran σ TimerFlush} {flush : EngineFlush} {u : Trace} {w₂ : σ}
      (fire : Fired s t w fired) (due : t.DisposalDue)
      (attempt : fired.value.flush.attempt rounds s fired.world = ⟨(.completed, flush), u, w₂⟩) :
      Attempted s rounds t w
        ⟨(.completed, { fired.value with flush, disposed := true }),
          fired.trace ++ u ++
            [.note (.disposing (s.peerAddress flush.connection w₂)),
              .call (.dispose flush.connection)],
          s.dispose flush.connection w₂⟩

variable {t : TimerFlush} {rounds : Nat} {r : Ran σ (Progress × TimerFlush)}

/-- A timer fires, or a command that has not fired it yet fails to. -/
theorem fired_or_failed (s : Surroundings σ) (t : TimerFlush) (w : σ) :
    (∃ x, Fired s t w x) ∨
      ∃ e w', t.fired = false ∧ s.fireTimer t.connection w = (.error e, w') := by
  by_cases fired : t.fired = true
  · exact Or.inl ⟨_, .before fired⟩
  · have unfired : t.fired = false := by simpa using fired
    rcases rang : s.fireTimer t.connection w with ⟨e | _, w'⟩
    · exact Or.inr ⟨e, w', unfired, rfl⟩
    · exact Or.inl ⟨_, .now unfired rang⟩

theorem fire_of_fired {fired : Ran σ TimerFlush} (h : Fired s t w fired) :
    t.fire s w = ⟨.ok fired.value, fired.trace, fired.world⟩ := by
  cases h with
  | before fired => simp [fire, fired]
  | now unfired rang => simp [fire, unfired, Act.fireTimer, rang]

theorem fired_dispose {fired : Ran σ TimerFlush} (h : Fired s t w fired) :
    fired.value.dispose = t.dispose ∧ fired.value.disposed = t.disposed := by
  cases h <;> exact ⟨rfl, rfl⟩

theorem attempt_of_attempted (h : Attempted s rounds t w r) : t.attempt rounds s w = r := by
  cases h with
  | fireFailed unfired rang => simp [attempt, fire, unfired, Act.fireTimer, rang]
  | @stopped _ p _ _ _ fire incomplete ran =>
    cases p with
    | completed => exact absurd rfl incomplete
    | _ => simp [attempt, fire_of_fired fire, ran]
  | kept fire notDue ran =>
    obtain ⟨hd, hd'⟩ := fired_dispose fire
    have : ¬ (t.dispose = true ∧ t.disposed = false) := notDue
    simp [attempt, fire_of_fired fire, ran, retire, hd, hd', this]
  | disposed fire due ran =>
    obtain ⟨hd, hd'⟩ := fired_dispose fire
    simp [attempt, fire_of_fired fire, ran, retire, hd, hd', due.1, due.2, Act.noteRemote,
      Act.dispose, connection]

theorem attempted_of_fired {fired : Ran σ TimerFlush} (fire : Fired s t w fired) :
    ∃ r, Attempted s rounds t w r := by
  rcases ran : fired.value.flush.attempt rounds s fired.world with ⟨⟨p, flush⟩, u, w₂⟩
  by_cases completed : p = .completed
  · subst completed
    by_cases due : t.DisposalDue
    · exact ⟨_, .disposed fire due ran⟩
    · exact ⟨_, .kept fire due ran⟩
  · exact ⟨_, .stopped fire completed ran⟩

theorem attempted_iff : Attempted s rounds t w r ↔ t.attempt rounds s w = r := by
  refine ⟨attempt_of_attempted, ?_⟩
  rintro rfl
  have some_rule : ∃ r, Attempted s rounds t w r := by
    rcases fired_or_failed s t w with ⟨fired, fire⟩ | ⟨e, w', unfired, rang⟩
    · exact attempted_of_fired fire
    · exact ⟨_, .fireFailed unfired rang⟩
  obtain ⟨r, hr⟩ := some_rule
  rwa [attempt_of_attempted hr]

end TimerFlush

/-! ## Commands -/

namespace Command

/-- The connection that a command is about. A write is about none. -/
def connection? : Command → Option Connection
  | .write _ => none
  | .flush f => some f.connection
  | .timer t => some t.connection

theorem resume_write (rounds : Nat) (d : DatagramWrite) (s : Surroundings σ) (w : σ) :
    (Command.write d).resume rounds s w =
      ⟨((d.attempt s w).value.1, .write (d.attempt s w).value.2), (d.attempt s w).trace,
        (d.attempt s w).world⟩ := by
  simp [resume, Prod.map]

theorem resume_flush (rounds : Nat) (f : EngineFlush) (s : Surroundings σ) (w : σ) :
    (Command.flush f).resume rounds s w =
      ⟨((f.attempt rounds s w).value.1, .flush (f.attempt rounds s w).value.2),
        (f.attempt rounds s w).trace, (f.attempt rounds s w).world⟩ := by
  simp [resume, Prod.map]

theorem resume_timer (rounds : Nat) (t : TimerFlush) (s : Surroundings σ) (w : σ) :
    (Command.timer t).resume rounds s w =
      ⟨((t.attempt rounds s w).value.1, .timer (t.attempt rounds s w).value.2),
        (t.attempt rounds s w).trace, (t.attempt rounds s w).world⟩ := by
  simp [resume, Prod.map]

/-- The calls that give a command up, if it failed. -/
def parting (c : Command) : Progress → List Call
  | .failed _ => c.held.toList.map .release
  | .completed | .refused | .unfinished => []

/-- The world once a command is given up, if it failed. -/
def leave (s : Surroundings σ) (c : Command) (w : σ) : Progress → σ
  | .failed _ => c.held.elim w fun b => s.release b w
  | .completed | .refused | .unfinished => w

/-- Noting how far a command came is no call. -/
theorem noteProgress_calls (c : Command) (p : Progress) (s : Surroundings σ) (w : σ) :
    (c.noteProgress p s w).trace.calls = [] ∧ (c.noteProgress p s w).world = w := by
  cases p <;> exact ⟨rfl, rfl⟩

theorem attempt_eq (rounds : Nat) (c : Command) (s : Surroundings σ) (w : σ) :
    ∃ t, c.attempt rounds s w =
        ⟨(c.resume rounds s w).value, t, (c.resume rounds s w).world⟩ ∧
      t.calls = (c.resume rounds s w).trace.calls := by
  refine ⟨(c.attempt rounds s w).trace, ?_, ?_⟩
  · simp [attempt, Act.note, noteProgress_calls]
  · simp [attempt, Act.note, noteProgress_calls]

theorem settle_eq (c : Command) (p : Progress) (s : Surroundings σ) (w : σ) :
    (c.settle p s w).trace.calls = c.parting p ∧ (c.settle p s w).world = c.leave s w p := by
  cases p with
  | failed e =>
    cases h : c.held <;> simp [settle, abandon, parting, leave, h, Act.note, Act.release]
  | _ => exact ⟨rfl, rfl⟩

/-- Apart from notes, to serve a command is its work and then its parting. -/
theorem serve_eq (rounds : Nat) (c : Command) (s : Surroundings σ) (w : σ) :
    let work := c.resume rounds s w
    (c.serve rounds s w).value = work.value ∧
      (c.serve rounds s w).trace.calls = work.trace.calls ++ work.value.2.parting work.value.1 ∧
      (c.serve rounds s w).world = work.value.2.leave s work.world work.value.1 := by
  obtain ⟨t, ha, ht⟩ := attempt_eq rounds c s w
  obtain ⟨hc, hw⟩ := settle_eq (c.resume rounds s w).value.2 (c.resume rounds s w).value.1 s
    (c.resume rounds s w).world
  simp [serve, ha, ht, hc, hw]

end Command

/-! ## The buffer after an attempt -/

/-- A round that stops a flush leaves it without a buffer exactly if the flush
is done. -/
theorem EngineFlush.held_of_stop {f g : EngineFlush} {p : Progress} {t : Trace} {w' : σ}
    (h : Rounded s f w ⟨.stop p g, t, w'⟩) :
    (g.held = none ↔ p = .completed) ∧ p ≠ .unfinished := by
  generalize hr : (⟨.stop p g, t, w'⟩ : Ran σ Turn) = r at h
  cases h with
  | intro taken worked =>
    cases worked with
    | resent full sent => cases sent <;> cases hr <;> simp
    | pollFailed empty polled => cases hr; simp
    | produced empty polled sent => cases sent <;> cases hr <;> simp
    | ranDry empty polled woundUp => cases woundUp <;> cases hr <;> simp

theorem EngineFlush.held_of_attempt (rounds : Nat) (f : EngineFlush) (s : Surroundings σ) (w : σ)
    (done : (f.attempt rounds s w).value.1 ≠ .unfinished) :
    (f.attempt rounds s w).value.2.held = none ↔
      (f.attempt rounds s w).value.1 = .completed := by
  induction rounds generalizing f w with
  | zero => simp [attempt_zero] at done
  | succ rounds ih =>
    have hr := rounded_round s f w
    rcases hv : f.round s w with ⟨g | ⟨p, g⟩, t, w'⟩ <;> rw [hv] at hr
    · rw [attempt_again rounds hr] at done ⊢
      exact ih g w' done
    · rw [attempt_stop rounds hr]
      exact (held_of_stop hr).1

/-- A command that is done has given its buffer back, and one that was refused
still holds its own. -/
theorem Command.held_of_resume (rounds : Nat) (c : Command) (s : Surroundings σ) (w : σ) :
    let r := c.resume rounds s w
    (r.value.1 = .completed → r.value.2.held = none) ∧
      (r.value.1 = .refused → r.value.2.held.isSome) := by
  cases c with
  | write d =>
    rw [resume_write]
    have h := DatagramWrite.attempted_iff.2 (rfl : d.attempt s w = _)
    generalize d.attempt s w = r at h
    cases h <;> simp_all [held]
  | flush f =>
    rw [resume_flush]
    simp only [held]
    have h := EngineFlush.held_of_attempt rounds f s w
    generalize f.attempt rounds s w = r at h
    obtain ⟨⟨_ | _ | _ | _, g⟩, t, w'⟩ := r <;> simp_all [Option.isSome_iff_ne_none]
  | timer t =>
    rw [resume_timer]
    simp only [held]
    have h := TimerFlush.attempted_iff.2 (rfl : t.attempt rounds s w = _)
    generalize t.attempt rounds s w = r at h
    cases h with
    | fireFailed => simp
    | @stopped fired p flush u w₂ fire incomplete ran =>
      have hf := EngineFlush.held_of_attempt rounds fired.value.flush s fired.world
      rw [ran] at hf
      cases p <;> simp_all [Option.isSome_iff_ne_none]
    | @kept fired flush u w₂ fire notDue ran =>
      have hf := EngineFlush.held_of_attempt rounds fired.value.flush s fired.world
      simp_all
    | @disposed fired flush u w₂ fire due ran =>
      have hf := EngineFlush.held_of_attempt rounds fired.value.flush s fired.world
      simp_all

end Outbox
