-- Where a drain stops. It completes commands in order, up to the first that is
-- refused or fails, and does not touch those behind this one. So it splits the
-- commands that wait in two: those that are done and gone, and those that wait
-- on. A command that fails is given up and waits no more, so the next drain
-- begins right behind it.
import Outbox.Proofs.Refusals

namespace Outbox

variable {σ : Type} {s : Surroundings σ} {rounds : Nat} {w w' : σ}

/-! ## What ends a failed attempt -/

def Call.failure? : Call → Option Failure
  | .produce _ _ _ (.error e) => some (.engine e)
  | .fireTimer _ (.error e) => some (.engine e)
  | .finaliseClose _ (.error e) => some (.engine e)
  | .send _ _ _ (.error e) => some (.channel e)
  | _ => none

/-- The calls end with the one that failed. -/
def EndsFailed (calls : List Call) (e : Failure) : Prop :=
  ∃ earlier call, calls = earlier ++ [call] ∧ call.failure? = some e

theorem endsFailed_single {call : Call} {e : Failure} (failed : call.failure? = some e) :
    EndsFailed [call] e := ⟨[], call, rfl, failed⟩

theorem endsFailed_append {calls : List Call} {e : Failure} (before : List Call)
    (ends : EndsFailed calls e) : EndsFailed (before ++ calls) e := by
  obtain ⟨earlier, call, rfl, failed⟩ := ends
  exact ⟨before ++ earlier, call, by simp, failed⟩

namespace EngineFlush

variable {f g : EngineFlush} {b : Buffer} {r : Ran σ Turn} {t : Trace} {e : Failure}

theorem endsFailed_of_transmitted (h : Transmitted s f b w r)
    (failed : r.value = .stop (.failed e) g) : EndsFailed r.trace.calls e := by
  cases h with
  | @failed fault w' sent =>
    cases failed
    exact endsFailed_append [_] (endsFailed_single rfl)
  | refused sent => cases failed
  | accepted sent => cases failed

theorem endsFailed_of_woundUp (h : WoundUp s f b w r)
    (failed : r.value = .stop (.failed e) g) : EndsFailed r.trace.calls e := by
  cases h with
  | closeFailed due asked forced =>
    cases failed
    exact endsFailed_append [_] (endsFailed_single rfl)
  | _ => cases failed

theorem endsFailed_of_rounded (h : Rounded s f w r) (failed : r.value = .stop (.failed e) g) :
    EndsFailed r.trace.calls e := by
  cases h with
  | intro taken worked =>
    rw [trace_after, Trace.calls_append]
    apply endsFailed_append
    cases worked with
    | resent full sent => exact endsFailed_of_transmitted sent failed
    | pollFailed empty polled =>
      cases failed
      exact endsFailed_single rfl
    | produced empty polled sent =>
      exact endsFailed_append [_] (endsFailed_of_transmitted sent failed)
    | ranDry empty polled woundUp =>
      exact endsFailed_append [_] (endsFailed_of_woundUp woundUp failed)

/-- A flush fails with the call that failed. -/
theorem attempt_endsFailed (rounds : Nat) (f : EngineFlush) (s : Surroundings σ) (w : σ) :
    let r := f.attempt rounds s w
    r.value.1 = .failed e → EndsFailed r.trace.calls e := by
  refine attempt_induction
    (P := fun _ _ x => x.value.1 = .failed e → EndsFailed x.trace.calls e)
    ?spent ?stop ?again rounds f w
  case spent =>
    intro f w failed
    cases failed
  case stop =>
    intro f w p g t w' round failed
    obtain rfl : p = .failed e := failed
    exact endsFailed_of_rounded round rfl
  case again =>
    intro f w g t w' x round later failed
    rw [trace_after, Trace.calls_append]
    exact endsFailed_append _ (later failed)

theorem rounded_releases (h : Rounded s f w r) (kept : r.value.flush.held.isSome = true) :
    releases r.trace.calls = 0 := by
  cases h with
  | intro taken worked =>
    have first := (taken_buffers taken).2
    have rest := (worked_buffers worked).2
    simp only [value_after] at kept
    rw [buffers_of_isSome kept] at rest
    rw [trace_after, Trace.calls_append, releases_append]
    omega

/-- A flush keeps its buffer until it is done. -/
theorem attempt_releases (rounds : Nat) (f : EngineFlush) (s : Surroundings σ) (w : σ) :
    let r := f.attempt rounds s w
    r.value.1 ≠ .completed → releases r.trace.calls = 0 := by
  refine attempt_induction
    (P := fun _ _ x => x.value.1 ≠ .completed → releases x.trace.calls = 0)
    ?spent ?stop ?again rounds f w
  case spent => exact fun f w _ => rfl
  case stop =>
    intro f w p g t w' round incomplete
    apply rounded_releases round
    have held : g.held ≠ none := fun none => incomplete ((held_of_stop round).1.1 none)
    exact Option.isSome_iff_ne_none.2 held
  case again =>
    intro f w g t w' x round later incomplete
    have first : releases t.calls = 0 := rounded_releases round (held_of_again round)
    have rest := later incomplete
    rw [trace_after, Trace.calls_append, releases_append]
    omega

end EngineFlush

namespace Command

theorem resume_endsFailed (rounds : Nat) (c : Command) (s : Surroundings σ) (w : σ)
    {e : Failure} :
    let r := c.resume rounds s w
    r.value.1 = .failed e → EndsFailed r.trace.calls e := by
  cases c with
  | write d =>
    rw [resume_write]
    have h := DatagramWrite.attempted_iff.2 (rfl : d.attempt s w = _)
    generalize d.attempt s w = r at h
    intro _ failed
    cases h with
    | failed held full sent =>
      cases failed
      exact endsFailed_single rfl
    | _ => cases failed
  | flush f =>
    rw [resume_flush]
    exact f.attempt_endsFailed rounds s w
  | timer t =>
    rw [resume_timer]
    have h := TimerFlush.attempted_iff.2 (rfl : t.attempt rounds s w = _)
    generalize t.attempt rounds s w = r at h
    intro _ failed
    cases h with
    | fireFailed unfired rang =>
      cases failed
      exact endsFailed_single rfl
    | @stopped fired p flush u w₂ fire incomplete ran =>
      obtain rfl : p = .failed e := failed
      have ends := fired.value.flush.attempt_endsFailed (e := e) rounds s fired.world
      rw [ran] at ends
      rw [Trace.calls_append]
      exact endsFailed_append _ (ends rfl)
    | kept fire notDue ran => cases failed
    | disposed fire due ran => cases failed

theorem resume_releases (rounds : Nat) (c : Command) (s : Surroundings σ) (w : σ) :
    let r := c.resume rounds s w
    r.value.1 ≠ .completed → releases r.trace.calls = 0 := by
  cases c with
  | write d =>
    rw [resume_write]
    have h := DatagramWrite.attempted_iff.2 (rfl : d.attempt s w = _)
    generalize d.attempt s w = r at h
    refine fun incomplete => ?_
    cases h with
    | failed held full sent => simp [Call.isRelease]
    | refused held full sent => simp [Call.isRelease]
    | _ => exact absurd rfl incomplete
  | flush f =>
    rw [resume_flush]
    exact f.attempt_releases rounds s w
  | timer t =>
    rw [resume_timer]
    have h := TimerFlush.attempted_iff.2 (rfl : t.attempt rounds s w = _)
    generalize t.attempt rounds s w = r at h
    refine fun incomplete => ?_
    cases h with
    | fireFailed unfired rang => simp [Call.isRelease]
    | @stopped fired p flush u w₂ fire _ ran =>
      have rest := fired.value.flush.attempt_releases rounds s fired.world
      rw [ran] at rest
      have first : releases fired.trace.calls = 0 := by
        cases fire <;> simp [Call.isRelease]
      rw [Trace.calls_append, releases_append, first, rest incomplete]
    | kept fire notDue ran => exact absurd rfl incomplete
    | disposed fire due ran => exact absurd rfl incomplete

/-- Apart from its notes, an attempt is the work that it goes on with. -/
theorem resume_of_attempt {c c' : Command} {p : Progress} {t : Trace}
    (attempt : c.attempt rounds s w = ⟨(p, c'), t, w'⟩) :
    (c.resume rounds s w).value = (p, c') ∧ (c.resume rounds s w).trace.calls = t.calls := by
  obtain ⟨u, same, calls⟩ := c.attempt_eq rounds s w
  rw [attempt] at same
  obtain ⟨value, rfl, -⟩ := Ran.mk.inj same
  exact ⟨value.symm, calls.symm⟩

/-- A failed attempt ends with the call that failed, and gives no buffer back. -/
theorem attempt_failed {c c' : Command} {t : Trace} {e : Failure}
    (attempt : c.attempt rounds s w = ⟨(.failed e, c'), t, w'⟩) :
    EndsFailed t.calls e ∧ releases t.calls = 0 := by
  obtain ⟨value, calls⟩ := resume_of_attempt attempt
  rw [← calls]
  constructor
  · apply c.resume_endsFailed
    rw [value]
  · apply c.resume_releases
    simp [value]

theorem abandon_apply (c : Command) (s : Surroundings σ) (w : σ) :
    c.abandon s w =
      ⟨(), .note (.abandoning c.kind) :: c.held.toList.map (.call ∘ .release),
        c.held.elim w fun b => s.release b w⟩ := by
  cases h : c.held <;> simp [abandon, h, Act.note, Act.release]

end Command

/-! ## Where a drain stops -/

/-- The commands complete in order, with one attempt each. These attempts leave
the trace and the second world. -/
inductive Completes (s : Surroundings σ) (rounds : Nat) : List Command → σ → Trace → σ → Prop where
  | nil (w : σ) : Completes s rounds [] w [] w
  | cons {c c' : Command} {behind : List Command} {t u : Trace} {w w₁ w₂ : σ}
      (attempt : c.attempt rounds s w = ⟨(.completed, c'), t, w₁⟩)
      (rest : Completes s rounds behind w₁ u w₂) :
      Completes s rounds (c :: behind) w (t ++ u) w₂

/-- How a drain stops at the first of the commands that wait on. The command is
attempted, and waits again, or is given up if it failed. -/
inductive Stops (s : Surroundings σ) (rounds : Nat) (w : σ) :
    List Command → Ran σ (Progress × List Command) → Prop where
  | emptied : Stops s rounds w [] ⟨(.completed, []), [], w⟩
  | refused {c c' : Command} {behind : List Command} {t : Trace} {w' : σ}
      (attempt : c.attempt rounds s w = ⟨(.refused, c'), t, w'⟩) :
      Stops s rounds w (c :: behind) ⟨(.refused, c' :: behind), t, w'⟩
  | failed {c c' : Command} {behind : List Command} {t : Trace} {w' : σ} {e : Failure}
      (attempt : c.attempt rounds s w = ⟨(.failed e, c'), t, w'⟩) :
      Stops s rounds w (c :: behind)
        ⟨(.failed e, behind), t ++ (c'.abandon s w').trace, (c'.abandon s w').world⟩
  | unfinished {c c' : Command} {behind : List Command} {t : Trace} {w' : σ}
      (attempt : c.attempt rounds s w = ⟨(.unfinished, c'), t, w'⟩) :
      Stops s rounds w (c :: behind) ⟨(.unfinished, c' :: behind), t, w'⟩

namespace Backlog

/-- Commands complete up to one where the drain stops. -/
theorem resumeAll_stops (rounds : Nat) (waiting : List Command) (s : Surroundings σ) (w : σ) :
    ∃ done rest t w₁ r, waiting = done ++ rest ∧ Completes s rounds done w t w₁ ∧
      Stops s rounds w₁ rest r ∧ resumeAll rounds waiting s w = r.after t := by
  induction waiting generalizing w with
  | nil => exact ⟨[], [], [], w, _, rfl, .nil w, .emptied, rfl⟩
  | cons c behind ih =>
    rcases attempt : c.attempt rounds s w with ⟨⟨p, c'⟩, t, w₁⟩
    cases p with
    | completed =>
      obtain ⟨done, rest, u, w₂, r, split, completes, stops, same⟩ := ih w₁
      refine ⟨c :: done, rest, t ++ u, w₂, r, by simp [split], .cons attempt completes, stops, ?_⟩
      rw [← after_after, ← same]
      simp [resumeAll, attempt, Ran.after]
    | refused =>
      refine ⟨[], c :: behind, [], w, _, rfl, .nil w, .refused attempt, ?_⟩
      simp [resumeAll, attempt]
    | failed e =>
      refine ⟨[], c :: behind, [], w, _, rfl, .nil w, .failed attempt, ?_⟩
      simp [resumeAll, attempt]
    | unfinished =>
      refine ⟨[], c :: behind, [], w, _, rfl, .nil w, .unfinished attempt, ?_⟩
      simp [resumeAll, attempt]

/-- The commands that wait are resumed from the first one on. -/
theorem resumeAll_begins (rounds : Nat) (c : Command) (behind : List Command)
    (s : Surroundings σ) (w : σ) :
    (c.attempt rounds s w).trace <+: (resumeAll rounds (c :: behind) s w).trace := by
  rcases attempt : c.attempt rounds s w with ⟨⟨p, c'⟩, t, w₁⟩
  cases p with
  | completed => simp [resumeAll, attempt]
  | failed e => simp [resumeAll, attempt]
  | refused => simp [resumeAll, attempt]
  | unfinished => simp [resumeAll, attempt]

end Backlog

namespace Stops

variable {rest behind : List Command} {c c' : Command} {r : Ran σ (Progress × List Command)}
  {t : Trace} {p : Progress} {e : Failure}

theorem completed_iff (h : Stops s rounds w rest r) : r.value.1 = .completed ↔ rest = [] := by
  cases h <;> simp

/-- A drain that does not complete ends as the attempt does where it stops. -/
theorem progress_iff (h : Stops s rounds w rest r) (incomplete : p ≠ .completed) :
    r.value.1 = p ↔
      ∃ c behind, rest = c :: behind ∧ (c.attempt rounds s w).value.1 = p := by
  cases h with
  | emptied => simp [incomplete.symm]
  | refused attempt => simp [attempt]
  | failed attempt => simp [attempt]
  | unfinished attempt => simp [attempt]

theorem eq_of_emptied (h : Stops s rounds w [] r) : r = ⟨(.completed, []), [], w⟩ := by
  cases h
  rfl

theorem eq_of_refused (h : Stops s rounds w (c :: behind) r)
    (attempt : c.attempt rounds s w = ⟨(.refused, c'), t, w'⟩) :
    r = ⟨(.refused, c' :: behind), t, w'⟩ := by
  cases h with
  | refused same =>
    rw [attempt] at same
    cases same
    rfl
  | failed same | unfinished same =>
    rw [attempt] at same
    cases same

theorem eq_of_failed (h : Stops s rounds w (c :: behind) r)
    (attempt : c.attempt rounds s w = ⟨(.failed e, c'), t, w'⟩) :
    r = ⟨(.failed e, behind),
      t ++ .note (.abandoning c'.kind) :: c'.held.toList.map (.call ∘ .release),
      c'.held.elim w' fun b => s.release b w'⟩ := by
  cases h with
  | failed same =>
    rw [attempt] at same
    cases same
    rw [Command.abandon_apply]
  | refused same | unfinished same =>
    rw [attempt] at same
    cases same

/-- Among the drains that come to an end without a failure, those that are
refused are those that leave a command waiting. -/
theorem refused_iff (h : Stops s rounds w rest r)
    (ended : r.value.1 = .completed ∨ r.value.1 = .refused) :
    r.value.1 = .refused ↔ r.value.2 ≠ [] := by
  cases h with
  | emptied => simp
  | refused attempt => simp
  | failed attempt | unfinished attempt => simp at ended

end Stops

/-! ## The law -/

namespace Backlog

/-- The note with which a drain begins, if a command waits. -/
def heading (b : Backlog) : Trace := if b.isEmpty then [] else [.note (.draining b.size)]

theorem drain_apply (rounds : Nat) (b : Backlog) (s : Surroundings σ) (w : σ) :
    let work := resumeAll rounds b.waiting s w
    b.drain rounds s w =
      ⟨(work.value.1, { b with waiting := work.value.2 }), b.heading ++ work.trace,
        work.world⟩ := by
  obtain ⟨policy, waiting⟩ := b
  cases waiting with
  | nil => rfl
  | cons c behind => simp [drain, heading, isEmpty, Act.note]

theorem drain_begins (rounds : Nat) {b : Backlog} {c : Command} {behind : List Command}
    (front : b.waiting = c :: behind) (s : Surroundings σ) (w : σ) :
    .note (.draining b.size) :: (c.attempt rounds s w).trace <+: (b.drain rounds s w).trace := by
  have headed : b.heading = [.note (.draining b.size)] := by
    simp [heading, isEmpty, front]
  rw [drain_apply, headed, front]
  apply List.cons_prefix_cons.2
  exact ⟨rfl, resumeAll_begins rounds c behind s w⟩

/-- A drain splits the commands that wait. Those of `done` complete, with one
attempt each, and leave the trace `t` and the world `w₁`. Of those of `rest` at
most the first is attempted. -/
structure SplitBy (s : Surroundings σ) (rounds : Nat) (b : Backlog) (w : σ)
    (done rest : List Command) (t : Trace) (w₁ : σ) : Prop where
  split : b.waiting = done ++ rest
  completes : Completes s rounds done w t w₁
  completed : (b.drain rounds s w).value.1 = .completed ↔ rest = []
  emptied : rest = [] →
    b.drain rounds s w = ⟨(.completed, { b with waiting := [] }), b.heading ++ t, w₁⟩
  /-- If commands are left, it ends as the attempt at the first of them. -/
  stopped : ∀ p ≠ .completed, (b.drain rounds s w).value.1 = p ↔
    ∃ c behind, rest = c :: behind ∧ (c.attempt rounds s w₁).value.1 = p
  /-- A refused command waits on, in the state in which the attempt left it. -/
  refused : ∀ {c c' behind u w₂}, rest = c :: behind →
    c.attempt rounds s w₁ = ⟨(.refused, c'), u, w₂⟩ →
    b.drain rounds s w =
      ⟨(.refused, { b with waiting := c' :: behind }), b.heading ++ t ++ u, w₂⟩
  /-- A failed command is given up after the call that failed. If it holds a
  buffer then, this goes back, and it is the first that goes back since the
  command was taken up. -/
  failed : ∀ {c c' behind u w₂ e}, rest = c :: behind →
    c.attempt rounds s w₁ = ⟨(.failed e, c'), u, w₂⟩ →
    b.drain rounds s w =
        ⟨(.failed e, { b with waiting := behind }),
          b.heading ++ t ++ u ++
            .note (.abandoning c'.kind) :: c'.held.toList.map (.call ∘ .release),
          c'.held.elim w₂ fun buffer => s.release buffer w₂⟩ ∧
      EndsFailed u.calls e ∧ releases u.calls = 0

theorem splitBy_of_stops {b : Backlog} {done rest : List Command} {t : Trace} {w₁ : σ}
    {r : Ran σ (Progress × List Command)} (split : b.waiting = done ++ rest)
    (completes : Completes s rounds done w t w₁) (stops : Stops s rounds w₁ rest r)
    (resumed : resumeAll rounds b.waiting s w = r.after t) :
    b.SplitBy s rounds w done rest t w₁ := by
  have run : b.drain rounds s w =
      ⟨(r.value.1, { b with waiting := r.value.2 }), b.heading ++ (t ++ r.trace), r.world⟩ := by
    rw [drain_apply, resumed]
    rfl
  refine ⟨split, completes, ?completed, ?emptied, ?stopped, ?refused, ?failed⟩
  case completed =>
    rw [run]
    exact stops.completed_iff
  case emptied =>
    rintro rfl
    obtain rfl := stops.eq_of_emptied
    rw [run, List.append_nil]
  case stopped =>
    intro p incomplete
    rw [run]
    exact stops.progress_iff incomplete
  case refused =>
    rintro c c' behind u w₂ rfl attempt
    obtain rfl := stops.eq_of_refused attempt
    rw [run, List.append_assoc]
  case failed =>
    rintro c c' behind u w₂ e rfl attempt
    obtain rfl := stops.eq_of_failed attempt
    refine ⟨?_, Command.attempt_failed attempt⟩
    rw [run]
    simp only [List.append_assoc]

/-- One drain splits the commands that wait in those that complete and those
that wait on. Where it ends without a failure, it is refused if and only if a
command waits afterwards. A command that fails keeps none of those behind it
from being attempted: the next drain is a drain of these. -/
theorem a_drain_splits_the_backlog (s : Surroundings σ) (rounds : Nat) (b : Backlog) (w : σ) :
    let run := b.drain rounds s w
    ∃ done rest t w₁, b.SplitBy s rounds w done rest t w₁ ∧
      (run.value.1 = .completed ∨ run.value.1 = .refused →
        (run.value.1 = .refused ↔ run.value.2.isEmpty = false)) ∧
      ∀ e c behind, rest = c :: behind → run.value.1 = .failed e → ∀ w',
        run.value.2.drain rounds s w' = ({ b with waiting := behind } : Backlog).drain rounds s w' ∧
        ∀ c' behind', behind = c' :: behind' →
          .note (.draining behind.length) :: (c'.attempt rounds s w').trace <+:
            (run.value.2.drain rounds s w').trace := by
  intro run
  obtain ⟨done, rest, t, w₁, r, split, completes, stops, resumed⟩ :=
    resumeAll_stops rounds b.waiting s w
  have splits := splitBy_of_stops split completes stops resumed
  have value : run.value = (r.value.1, { b with waiting := r.value.2 }) := by
    simp only [run, drain_apply, resumed, value_after]
  refine ⟨done, rest, t, w₁, splits, ?ended, ?next⟩
  case ended =>
    intro ended
    rw [value] at ended ⊢
    have waits := stops.refused_iff ended
    simpa [isEmpty] using waits
  case next =>
    rintro e c behind rfl failed w'
    obtain ⟨c₁, behind₁, front, attempted⟩ := (splits.stopped _ (by simp)).1 failed
    cases front
    rcases attempt : c.attempt rounds s w₁ with ⟨⟨p, c'⟩, u, w₂⟩
    rw [attempt] at attempted
    obtain rfl : p = .failed e := attempted
    have left : run.value.2 = { b with waiting := behind } :=
      congrArg (fun x => x.value.2) (splits.failed rfl attempt).1
    rw [left]
    refine ⟨rfl, ?_⟩
    rintro c' behind' rfl
    exact drain_begins rounds (b := { b with waiting := c' :: behind' }) rfl s w'

end Backlog

end Outbox
