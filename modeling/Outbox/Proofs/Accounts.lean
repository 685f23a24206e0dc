-- Accounts of what goes in and out of a command. An account says which calls
-- lead from one content of the buffer to another. If it holds of each round
-- of a flush and of each write, it holds of every attempt. And if something
-- is kept in balance by each attempt, the sum over all commands is kept in
-- balance by a whole run.
import Mathlib.Algebra.BigOperators.Group.List.Basic
import Mathlib.Tactic.Abel
import Outbox.Proofs.Attempts

namespace Outbox

variable {σ : Type} {s : Surroundings σ} {w : σ}

/-! ## The account of an attempt -/

/-- An account of the buffer of a command: `Balances held calls held'` says
that the calls explain how the one content became the other. -/
structure Account (s : Surroundings σ) where
  Balances : Option Buffer → List Call → Option Buffer → Prop
  nil (held : Option Buffer) : Balances held [] held
  append {held held₁ held₂ : Option Buffer} {l m : List Call}
    (first : Balances held l held₁) (second : Balances held₁ m held₂) :
    Balances held (l ++ m) held₂
  round {f : EngineFlush} {w : σ} {r : Ran σ EngineFlush.Turn} (h : EngineFlush.Rounded s f w r) :
    Balances f.held r.trace.calls r.value.flush.held
  write {d : DatagramWrite} {w : σ} {r : Ran σ (Progress × DatagramWrite)}
    (h : DatagramWrite.Attempted s d w r) : Balances d.held r.trace.calls r.value.2.held
  fireTimer (held : Option Buffer) (c : Connection) (answer : Except EngineFault Unit) :
    Balances held [.fireTimer c answer] held
  dispose (held : Option Buffer) (c : Connection) : Balances held [.dispose c] held

namespace Account

variable (a : Account s)

theorem flush_attempt (rounds : Nat) (f : EngineFlush) (w : σ) :
    let r := f.attempt rounds s w
    a.Balances f.held r.trace.calls r.value.2.held := by
  induction rounds generalizing f w with
  | zero => exact a.nil _
  | succ rounds ih =>
    have hr := EngineFlush.rounded_round s f w
    have hb := a.round hr
    rcases hv : f.round s w with ⟨g | ⟨p, g⟩, t, w'⟩ <;> rw [hv] at hr hb
    · rw [EngineFlush.attempt_again rounds hr]
      simpa using a.append hb (ih g w')
    · rw [EngineFlush.attempt_stop rounds hr]
      exact hb

theorem timer_flushed {rounds : Nat} {t : TimerFlush} {fired : Ran σ TimerFlush} {p : Progress}
    {flush : EngineFlush} {u : Trace} {w₂ : σ} (fire : TimerFlush.Fired s t w fired)
    (ran : fired.value.flush.attempt rounds s fired.world = ⟨(p, flush), u, w₂⟩) :
    a.Balances t.flush.held (fired.trace ++ u).calls flush.held := by
  have hb := a.flush_attempt rounds fired.value.flush fired.world
  rw [ran] at hb
  cases fire with
  | before => exact hb
  | now unfired rang => exact a.append (a.fireTimer _ _ _) hb

theorem timer_attempt (rounds : Nat) (t : TimerFlush) (w : σ) :
    let r := t.attempt rounds s w
    a.Balances t.flush.held r.trace.calls r.value.2.flush.held := by
  have h := TimerFlush.attempted_iff.2 (rfl : t.attempt rounds s w = _)
  generalize t.attempt rounds s w = r at h
  cases h with
  | fireFailed unfired rang => exact a.fireTimer _ _ _
  | stopped fire incomplete ran => exact a.timer_flushed fire ran
  | kept fire notDue ran => exact a.timer_flushed fire ran
  | disposed fire due ran =>
    intro r
    show a.Balances _ (Trace.calls (_ ++ _)) _
    rw [Trace.calls_append]
    exact a.append (a.timer_flushed fire ran) (a.dispose _ _)

/-- The account of one attempt at any command. -/
theorem resume (rounds : Nat) (c : Command) (w : σ) :
    let r := c.resume rounds s w
    a.Balances c.held r.trace.calls r.value.2.held := by
  cases c with
  | write d =>
    rw [Command.resume_write]
    exact a.write (DatagramWrite.attempted_iff.2 rfl)
  | flush f =>
    rw [Command.resume_flush]
    exact a.flush_attempt rounds f w
  | timer t =>
    rw [Command.resume_timer]
    exact a.timer_attempt rounds t w

end Account

/-! ## The sum over a run -/

section Sum

variable {M : Type} [AddCommMonoid M] (value : Command → M)

/-- What waits on after an attempt. -/
def Stint.kept (st : Stint) : M := if st.progress.waits then value st.after else 0

theorem sum_enlist (d : Docket) (st : Stint) :
    ((d.enlist st).waiting.map fun t => value t.command).sum =
      (d.waiting.map fun t => value t.command).sum + st.kept value := by
  unfold Docket.enlist Stint.kept
  split <;> simp [Stint.ticket]

theorem sum_requeue (st : Stint) (behind : List Ticket) :
    ((Docket.requeue st behind).map fun t => value t.command).sum =
      st.kept value + (behind.map fun t => value t.command).sum := by
  unfold Docket.requeue Stint.kept
  split <;> simp [Stint.ticket]

/-- If each attempt keeps the balance of its command, then a run keeps the
balance of all commands: what waited before, what came in with the submissions
and what the attempts took in is what they gave out and what waits now. -/
theorem History.sum_balances (inflow outflow : Stint → M)
    (balance : ∀ rounds fresh (t : Ticket) w,
      let st := (t.serve rounds fresh s w).value
      value st.before + inflow st = outflow st + st.kept value)
    {rounds : Nat} {d₀ d : Docket} {w₀ : σ} {h : List Stint}
    (hist : History s rounds d₀ w₀ h d w) :
    (d₀.waiting.map fun t => value t.command).sum +
        ((h.filter Stint.fresh).map fun st => value st.before).sum + (h.map inflow).sum =
      (h.map outflow).sum + (d.waiting.map fun t => value t.command).sum := by
  induction hist with
  | start => simp
  | @submit h d w r c ran earlier made served ih =>
    have hs := balance rounds true ⟨d.submitted + 1, c⟩ w
    have hf : ran.value.fresh = true := by subst served; rfl
    rw [served] at hs
    simp only [List.filter_append, List.map_append, List.sum_append, sum_enlist,
      List.filter_cons_of_pos hf, List.filter_nil, List.map_cons, List.map_nil,
      List.sum_singleton]
    calc _ = (d₀.waiting.map fun t => value t.command).sum +
            ((h.filter Stint.fresh).map fun st => value st.before).sum + (h.map inflow).sum +
            (value ran.value.before + inflow ran.value) := by abel
      _ = _ := by rw [ih, hs]; abel
  | @resume h d w t behind ran earlier front served ih =>
    have hs := balance rounds false t w
    have hf : ¬ ran.value.fresh = true := by subst served; simp [Ticket.serve]
    have hb : ran.value.before = t.command := by subst served; rfl
    simp only [served, hb] at hs
    rw [front, List.map_cons, List.sum_cons] at ih
    simp only [List.filter_append, List.map_append, List.sum_append, sum_requeue,
      List.filter_cons_of_neg hf, List.filter_nil, List.append_nil, List.map_cons, List.map_nil,
      List.sum_singleton]
    calc _ = (h.map outflow).sum + (behind.map fun t => value t.command).sum +
            (value t.command + inflow ran.value) := by rw [← add_assoc, ih]; abel
      _ = _ := by rw [hs]; abel

end Sum

end Outbox
