-- Everything that one round of a flush can do. A round takes a buffer, then
-- sends what it holds or polls the engine. Each way a round can go is one
-- rule here, and the rules are exactly the rounds, so a law of what the flush
-- does is a look at each rule.
import Outbox.EngineFlush

namespace Outbox

variable {σ α : Type}

/-- A computation that ran after others, which left the trace `t`. -/
def Ran.after (t : Trace) (r : Ran σ α) : Ran σ α := ⟨r.value, t ++ r.trace, r.world⟩

@[simp] theorem value_after (t : Trace) (r : Ran σ α) : (r.after t).value = r.value := rfl

@[simp] theorem trace_after (t : Trace) (r : Ran σ α) : (r.after t).trace = t ++ r.trace := rfl

@[simp] theorem world_after (t : Trace) (r : Ran σ α) : (r.after t).world = r.world := rfl

@[simp] theorem after_nil (r : Ran σ α) : r.after [] = r := rfl

theorem after_after (t u : Trace) (r : Ran σ α) : (r.after u).after t = r.after (t ++ u) := by
  simp [Ran.after]

namespace EngineFlush

/-- Where a round leaves its flush. -/
def Turn.flush : Turn → EngineFlush
  | .again f => f
  | .stop _ f => f

/-! ## The rules -/

/-- The trace of a send of the buffer: where to, and what came of it. -/
def transmission (s : Surroundings σ) (f : EngineFlush) (b : Buffer) (w : σ)
    (answer : Except ChannelFault Nat) : Trace :=
  let destination := s.peerAddress f.connection w
  [.call (.peerAddress f.connection destination),
    .call (.send f.channel b.contents destination answer)]

/-- Where the buffer of a round comes from. -/
inductive Taken (s : Surroundings σ) (f : EngineFlush) (w : σ) : Ran σ Buffer → Prop where
  | held {b : Buffer} (held : f.held = some b) : Taken s f w ⟨b, [], w⟩
  | acquired {b : Buffer} {w' : σ} (none : f.held = none)
      (given : s.acquire f.policy.minCapacity f.policy.direct w = (b, w')) :
      Taken s f w
        ⟨b.clear, [.call (.acquire f.policy.minCapacity f.policy.direct b)], w'⟩

/-- What comes of a send of the buffer. -/
inductive Transmitted (s : Surroundings σ) (f : EngineFlush) (b : Buffer) (w : σ) :
    Ran σ Turn → Prop where
  | failed {e : ChannelFault} {w' : σ}
      (sent : s.send f.channel b.contents (s.peerAddress f.connection w) w = (.error e, w')) :
      Transmitted s f b w
        ⟨.stop (.failed (.channel e)) { f with held := some b },
          f.transmission s b w (.error e), w'⟩
  | refused {w' : σ}
      (sent : s.send f.channel b.contents (s.peerAddress f.connection w) w = (.ok 0, w')) :
      Transmitted s f b w
        ⟨.stop .refused { f with held := some b }, f.transmission s b w (.ok 0), w'⟩
  | accepted {n : Nat} {w' : σ}
      (sent : s.send f.channel b.contents (s.peerAddress f.connection w) w = (.ok (n + 1), w')) :
      Transmitted s f b w
        ⟨.again { f with held := some b.clear }, f.transmission s b w (.ok (n + 1)), w'⟩

/-- Whether the engine is to be asked to finalise its close, now that it has
nothing left. -/
def CloseDue (f : EngineFlush) : Prop :=
  f.policy.onClose = .forceOnce ∧ f.closeRequested = false

/-- What comes of a poll that found the engine with nothing left. -/
inductive WoundUp (s : Surroundings σ) (f : EngineFlush) (b : Buffer) (w : σ) :
    Ran σ Turn → Prop where
  | notDue (due : ¬ f.CloseDue) :
      WoundUp s f b w
        ⟨.stop .completed { f with held := none }, [.call (.release b)], s.release b w⟩
  | notClosing {w₁ : σ} (due : f.CloseDue) (asked : s.isClosing f.connection w = (false, w₁)) :
      WoundUp s f b w
        ⟨.stop .completed { f with held := none },
          [.call (.isClosing f.connection false), .call (.release b)], s.release b w₁⟩
  | closeFailed {e : EngineFault} {w₁ w₂ : σ} (due : f.CloseDue)
      (asked : s.isClosing f.connection w = (true, w₁))
      (forced : s.finaliseClose f.connection w₁ = (.error e, w₂)) :
      WoundUp s f b w
        ⟨.stop (.failed (.engine e)) { f with held := some b, closeRequested := true },
          [.call (.isClosing f.connection true), .call (.finaliseClose f.connection (.error e))],
          w₂⟩
  | closed {w₁ w₂ : σ} (due : f.CloseDue) (asked : s.isClosing f.connection w = (true, w₁))
      (forced : s.finaliseClose f.connection w₁ = (.ok true, w₂)) :
      WoundUp s f b w
        ⟨.again { f with held := some b, closeRequested := true },
          [.call (.isClosing f.connection true), .call (.finaliseClose f.connection (.ok true))],
          w₂⟩
  | notClosed {w₁ w₂ : σ} (due : f.CloseDue) (asked : s.isClosing f.connection w = (true, w₁))
      (forced : s.finaliseClose f.connection w₁ = (.ok false, w₂)) :
      WoundUp s f b w
        ⟨.stop .completed { f with held := none, closeRequested := true },
          [.call (.isClosing f.connection true), .call (.finaliseClose f.connection (.ok false)),
            .call (.release b)],
          s.release b w₂⟩

/-- What a round does with its buffer. -/
inductive Worked (s : Surroundings σ) (f : EngineFlush) (b : Buffer) (w : σ) :
    Ran σ Turn → Prop where
  | resent {r : Ran σ Turn} (full : b.isEmpty = false) (sent : Transmitted s f b w r) :
      Worked s f b w r
  | pollFailed {bytes : Bytes} {e : EngineFault} {w₁ : σ} (empty : b.isEmpty = true)
      (polled : s.produce f.connection b w = ((bytes, .error e), w₁)) :
      Worked s f b w
        ⟨.stop (.failed (.engine e)) { f with held := some (b.append bytes) },
          [.call (.produce f.connection b bytes (.error e))], w₁⟩
  | produced {bytes : Bytes} {n : Nat} {w₁ : σ} {r : Ran σ Turn} (empty : b.isEmpty = true)
      (polled : s.produce f.connection b w = ((bytes, .ok (n + 1)), w₁))
      (sent : Transmitted s f (b.append bytes) w₁ r) :
      Worked s f b w (r.after [.call (.produce f.connection b bytes (.ok (n + 1)))])
  | ranDry {bytes : Bytes} {w₁ : σ} {r : Ran σ Turn} (empty : b.isEmpty = true)
      (polled : s.produce f.connection b w = ((bytes, .ok 0), w₁))
      (woundUp : WoundUp s f (b.append bytes) w₁ r) :
      Worked s f b w (r.after [.call (.produce f.connection b bytes (.ok 0))])

/-- What one round does. -/
inductive Rounded (s : Surroundings σ) (f : EngineFlush) (w : σ) : Ran σ Turn → Prop where
  | intro {buffer : Ran σ Buffer} {r : Ran σ Turn} (taken : Taken s f w buffer)
      (worked : Worked s f buffer.value buffer.world r) :
      Rounded s f w (r.after buffer.trace)

/-! ## The rules are the rounds -/

variable {s : Surroundings σ} {f : EngineFlush} {b : Buffer} {w : σ} {r : Ran σ Turn}

theorem taken_takeBuffer (s : Surroundings σ) (f : EngineFlush) (w : σ) :
    Taken s f w (f.takeBuffer s w) := by
  unfold takeBuffer
  cases h : f.held with
  | none => exact .acquired h rfl
  | some b => exact .held h

theorem transmitted_iff : Transmitted s f b w r ↔ f.transmit b s w = r := by
  constructor
  · intro h
    cases h with
    | failed sent => simp [transmit, Act.peerAddress, Act.send, sent, transmission]
    | refused sent => simp [transmit, Act.peerAddress, Act.send, sent, transmission]
    | accepted sent => simp [transmit, Act.peerAddress, Act.send, sent, transmission]
  · rintro rfl
    rcases h : s.send f.channel b.contents (s.peerAddress f.connection w) w with ⟨_ | _ | n, w'⟩
    · simpa [transmit, Act.peerAddress, Act.send, h, transmission] using Transmitted.failed h
    · simpa [transmit, Act.peerAddress, Act.send, h, transmission] using Transmitted.refused h
    · simpa [transmit, Act.peerAddress, Act.send, h, transmission] using Transmitted.accepted h

theorem woundUp_iff : WoundUp s f b w r ↔ f.windUp b s w = r := by
  constructor
  · intro h
    cases h with
    | notDue due =>
      have hd : ¬ (f.policy.onClose = .forceOnce ∧ f.closeRequested = false) := due
      simp [windUp, hd, finish, Act.release]
    | notClosing due asked =>
      simp [windUp, due.1, due.2, Act.isClosing, asked, finish, Act.release]
    | closeFailed due asked forced =>
      simp [windUp, due.1, due.2, Act.isClosing, asked, finaliseClose, Act.finaliseClose, forced]
    | closed due asked forced =>
      simp [windUp, due.1, due.2, Act.isClosing, asked, finaliseClose, Act.finaliseClose, forced]
    | notClosed due asked forced =>
      simp [windUp, due.1, due.2, Act.isClosing, asked, finaliseClose, Act.finaliseClose, forced,
        finish, Act.release]
  · rintro rfl
    by_cases due : f.policy.onClose = .forceOnce ∧ f.closeRequested = false
    · rcases asked : s.isClosing f.connection w with ⟨_ | _, w₁⟩
      · simpa [windUp, due.1, due.2, Act.isClosing, asked, finish, Act.release]
          using WoundUp.notClosing (b := b) due asked
      · rcases forced : s.finaliseClose f.connection w₁ with ⟨e | _ | _, w₂⟩
        · simpa [windUp, due.1, due.2, Act.isClosing, asked, finaliseClose, Act.finaliseClose,
            forced] using WoundUp.closeFailed (b := b) due asked forced
        · simpa [windUp, due.1, due.2, Act.isClosing, asked, finaliseClose, Act.finaliseClose,
            forced, finish, Act.release] using WoundUp.notClosed (b := b) due asked forced
        · simpa [windUp, due.1, due.2, Act.isClosing, asked, finaliseClose, Act.finaliseClose,
            forced] using WoundUp.closed (b := b) due asked forced
    · simpa [windUp, due, finish, Act.release]
        using WoundUp.notDue (s := s) (f := f) (b := b) (w := w) due

theorem worked_iff :
    Worked s f b w r ↔ (if b.isEmpty then f.poll b else f.transmit b) s w = r := by
  constructor
  · intro h
    cases h with
    | resent full sent => simpa [full] using transmitted_iff.1 sent
    | pollFailed empty polled => simp [empty, poll, Act.produce, polled]
    | produced empty polled sent =>
      simp [empty, poll, Act.produce, polled, transmitted_iff.1 sent, Ran.after]
    | ranDry empty polled woundUp =>
      simp [empty, poll, Act.produce, polled, woundUp_iff.1 woundUp, Ran.after]
  · rintro rfl
    by_cases empty : b.isEmpty = true
    · rcases polled : s.produce f.connection b w with ⟨⟨bytes, e | _ | n⟩, w₁⟩
      · simpa [empty, poll, Act.produce, polled] using Worked.pollFailed empty polled
      · simpa [empty, poll, Act.produce, polled, Ran.after]
          using Worked.ranDry empty polled (woundUp_iff.2 rfl)
      · simpa [empty, poll, Act.produce, polled, Ran.after]
          using Worked.produced empty polled (transmitted_iff.2 rfl)
    · simpa [empty] using Worked.resent (by simpa using empty) (transmitted_iff.2 rfl)

theorem round_apply (s : Surroundings σ) (f : EngineFlush) (w : σ) :
    f.round s w =
      ((if (f.takeBuffer s w).value.isEmpty then f.poll (f.takeBuffer s w).value
        else f.transmit (f.takeBuffer s w).value) s (f.takeBuffer s w).world).after
      (f.takeBuffer s w).trace := by
  rfl

/-- Each round goes by the rules. -/
theorem rounded_round (s : Surroundings σ) (f : EngineFlush) (w : σ) :
    Rounded s f w (f.round s w) := by
  rw [round_apply]
  exact .intro (taken_takeBuffer s f w) (worked_iff.2 rfl)

theorem taken_unique {x y : Ran σ Buffer} (hx : Taken s f w x) (hy : Taken s f w y) : x = y := by
  cases hx <;> cases hy <;> simp_all

/-- The rules leave no choice. -/
theorem rounded_iff : Rounded s f w r ↔ f.round s w = r := by
  constructor
  · rintro ⟨taken, worked⟩
    obtain rfl := taken_unique taken (taken_takeBuffer s f w)
    rw [round_apply, worked_iff.1 worked]
  · rintro rfl
    exact rounded_round s f w

/-! ## Attempts, round by round -/

theorem attempt_zero (s : Surroundings σ) (f : EngineFlush) (w : σ) :
    f.attempt 0 s w = ⟨(.unfinished, f), [], w⟩ := rfl

theorem attempt_again {g : EngineFlush} {t : Trace} {w' : σ} (n : Nat)
    (h : Rounded s f w ⟨.again g, t, w'⟩) :
    f.attempt (n + 1) s w = (g.attempt n s w').after t := by
  simp only [attempt, Act.bind_apply, rounded_iff.1 h, Ran.after]

theorem attempt_stop {p : Progress} {g : EngineFlush} {t : Trace} {w' : σ} (n : Nat)
    (h : Rounded s f w ⟨.stop p g, t, w'⟩) :
    f.attempt (n + 1) s w = ⟨(p, g), t, w'⟩ := by
  simp only [attempt, Act.bind_apply, rounded_iff.1 h, Act.pure_apply, List.append_nil]

/-- What holds of no round and of the last one, and goes through from the
rounds after one to all of them, holds of each attempt. -/
theorem attempt_induction {P : EngineFlush → σ → Ran σ (Progress × EngineFlush) → Prop}
    (spent : ∀ f w, P f w ⟨(.unfinished, f), [], w⟩)
    (stop : ∀ f w p g t w', Rounded s f w ⟨.stop p g, t, w'⟩ → P f w ⟨(p, g), t, w'⟩)
    (again : ∀ f w g t w' x, Rounded s f w ⟨.again g, t, w'⟩ → P g w' x → P f w (x.after t))
    (n : Nat) (f : EngineFlush) (w : σ) : P f w (f.attempt n s w) := by
  induction n generalizing f w with
  | zero => exact spent f w
  | succ n ih =>
    have hr := rounded_round s f w
    rcases hv : f.round s w with ⟨g | ⟨p, g⟩, t, w'⟩ <;> rw [hv] at hr
    · rw [attempt_again n hr]
      exact again f w g t w' _ hr (ih g w')
    · rw [attempt_stop n hr]
      exact stop f w p g t w' hr

/-- An attempt that came to its end goes the same way with more rounds. -/
theorem attempt_of_le {m n : Nat} (h : m ≤ n)
    (done : (f.attempt m s w).value.1 ≠ .unfinished) : f.attempt n s w = f.attempt m s w := by
  induction m generalizing n f w with
  | zero => simp [attempt_zero] at done
  | succ m ih =>
    obtain ⟨n, rfl⟩ : ∃ k, n = k + 1 := ⟨n - 1, by omega⟩
    have hr := rounded_round s f w
    rcases hv : f.round s w with ⟨_ | _, t, w'⟩
    · rw [hv] at hr
      rw [attempt_again m hr] at done ⊢
      rw [attempt_again n hr, ih (by omega) done]
    · rw [hv] at hr
      rw [attempt_stop m hr, attempt_stop n hr]

end EngineFlush

end Outbox
