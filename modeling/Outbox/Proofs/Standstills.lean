-- What a refused send brings to a standstill. A refusal is the last call of the attempt
-- that meets it, and nothing else puts a command off. A submission and a drain end as their
-- last attempt does, and those before it completed. So an operation meets one refusal at
-- most, it makes no call after it, and it is refused exactly if it ends with one.
import Outbox.Proofs.Endings
import Outbox.Proofs.Suspensions

namespace Outbox

variable {σ : Type} {s : Surroundings σ} {rounds : Nat} {w w' : σ}

/-! ## Refusals of an attempt -/

/-- How an attempt ends with this round, if it does. -/
def EngineFlush.Turn.ends : EngineFlush.Turn → List Progress
  | .again _ => []
  | .stop p _ => [p]

namespace EngineFlush

variable {f : EngineFlush} {b : Buffer} {r : Ran σ Turn}

theorem transmitted_refusals (sent : Transmitted s f b w r) :
    refusals r.trace.calls = r.value.ends.count .refused := by
  cases sent with
  | failed sent => rfl
  | refused sent => rfl
  | accepted sent => rfl

theorem woundUp_refusals (woundUp : WoundUp s f b w r) :
    refusals r.trace.calls = r.value.ends.count .refused := by
  cases woundUp with
  | notDue due => rfl
  | notClosing due asked => rfl
  | closeFailed due asked forced => rfl
  | closed due asked forced => rfl
  | notClosed due asked forced => rfl

/-- A round meets a refusal exactly if it stops the flush with it. -/
theorem rounded_refusals (round : Rounded s f w r) :
    refusals r.trace.calls = r.value.ends.count .refused := by
  cases round with
  | @intro buffer r taken worked =>
    have first : refusals buffer.trace.calls = 0 := by
      cases taken <;> rfl
    rw [value_after, trace_after, Trace.calls_append, refusals_append, first, Nat.zero_add]
    cases worked with
    | resent full sent => exact transmitted_refusals sent
    | pollFailed empty polled => rfl
    | produced empty polled sent => simpa [Call.isRefusal] using transmitted_refusals sent
    | ranDry empty polled woundUp => simpa [Call.isRefusal] using woundUp_refusals woundUp

theorem attempt_refusals (rounds : Nat) (f : EngineFlush) (s : Surroundings σ) (w : σ) :
    let r := f.attempt rounds s w
    refusals r.trace.calls = [r.value.1].count .refused := by
  refine attempt_induction
    (P := fun _ _ x => refusals x.trace.calls = [x.value.1].count .refused)
    ?spent ?stop ?again rounds f w
  case spent => exact fun f w => rfl
  case stop => exact fun f w p g t w' round => rounded_refusals round
  case again =>
    intro f w g t w' x round later
    have first : refusals t.calls = 0 := rounded_refusals round
    rw [trace_after, value_after, Trace.calls_append, refusals_append, first, Nat.zero_add]
    exact later

end EngineFlush

theorem TimerFlush.flushed_refusals {t : TimerFlush} {fired : Ran σ TimerFlush} {p : Progress}
    {flush : EngineFlush} {u : Trace} (fire : Fired s t w fired)
    (ran : fired.value.flush.attempt rounds s fired.world = ⟨(p, flush), u, w'⟩) :
    refusals (fired.trace ++ u).calls = [p].count .refused := by
  have flushed := fired.value.flush.attempt_refusals rounds s fired.world
  rw [ran] at flushed
  have first : refusals fired.trace.calls = 0 := by
    cases fire <;> rfl
  rw [Trace.calls_append, refusals_append, first, Nat.zero_add]
  exact flushed

namespace Command

/-- An attempt meets one refusal if it is refused, and none if it is not. -/
theorem resume_refusals (rounds : Nat) (c : Command) (s : Surroundings σ) (w : σ) :
    let r := c.resume rounds s w
    refusals r.trace.calls = [r.value.1].count .refused := by
  cases c with
  | write d =>
    rw [resume_write]
    have attempted := DatagramWrite.attempted_iff.2 (rfl : d.attempt s w = _)
    generalize d.attempt s w = r at attempted
    cases attempted with
    | done none => rfl
    | empty held empty => rfl
    | failed held full sent => rfl
    | refused held full sent => rfl
    | accepted held full sent => rfl
  | flush f =>
    rw [resume_flush]
    exact f.attempt_refusals rounds s w
  | timer t =>
    rw [resume_timer]
    have attempted := TimerFlush.attempted_iff.2 (rfl : t.attempt rounds s w = _)
    generalize t.attempt rounds s w = r at attempted
    cases attempted with
    | fireFailed unfired rang => rfl
    | stopped fire incomplete ran => exact TimerFlush.flushed_refusals fire ran
    | kept fire notDue ran => exact TimerFlush.flushed_refusals fire ran
    | disposed fire due ran =>
      intro r
      show refusals (Trace.calls (_ ++ _)) = _
      rw [Trace.calls_append, refusals_append]
      exact TimerFlush.flushed_refusals fire ran

theorem parting_refusals (c : Command) (p : Progress) : refusals (c.parting p) = 0 := by
  cases p with
  | failed e => cases h : c.held <;> simp [parting, h, Call.isRefusal]
  | _ => rfl

end Command

/-! ## Standstills -/

/-- What ends so met one refusal as its last call if it is refused, and none if it is not. -/
structure Halts (calls : List Call) (p : Progress) : Prop where
  met : refusals calls = [p].count .refused
  last : p = .refused → ∃ earlier c, calls = earlier ++ [c] ∧ c.isRefusal = true

namespace Halts

variable {calls earlier : List Call} {p : Progress}

/-- Calls without a refusal may come before. -/
theorem lead (none : refusals earlier = 0) (halts : Halts calls p) :
    Halts (earlier ++ calls) p := by
  obtain ⟨met, last⟩ := halts
  constructor
  · rw [refusals_append, none, Nat.zero_add]
    exact met
  · intro refused
    obtain ⟨before, c, rfl, refusal⟩ := last refused
    exact ⟨earlier ++ before, c, (List.append_assoc ..).symm, refusal⟩

end Halts

namespace Command

theorem resume_halts (rounds : Nat) (c : Command) (s : Surroundings σ) (w : σ) :
    let r := c.resume rounds s w
    Halts r.trace.calls r.value.1 := by
  refine ⟨c.resume_refusals rounds s w, fun refused => ?_⟩
  obtain ⟨-, earlier, channel, destination, b, -, calls, -⟩ :=
    c.resume_refused_waits rounds s w refused
  exact ⟨earlier, _, calls, rfl⟩

theorem attempt_halts (rounds : Nat) (c : Command) (s : Surroundings σ) (w : σ) :
    let r := c.attempt rounds s w
    Halts r.trace.calls r.value.1 := by
  obtain ⟨t, same, calls⟩ := c.attempt_eq rounds s w
  simp only [same, calls]
  exact c.resume_halts rounds s w

/-- Only a failed command is given up, so nothing comes after a refusal here either. -/
theorem serve_halts (rounds : Nat) (c : Command) (s : Surroundings σ) (w : σ) :
    let r := c.serve rounds s w
    Halts r.trace.calls r.value.1 := by
  obtain ⟨value, calls, -⟩ := c.serve_eq rounds s w
  obtain ⟨met, last⟩ := c.resume_halts rounds s w
  simp only [value, calls]
  constructor
  · rw [refusals_append, parting_refusals, Nat.add_zero]
    exact met
  · intro refused
    have none : (c.resume rounds s w).value.2.parting .refused = [] := rfl
    rw [refused, none, List.append_nil]
    exact last refused

end Command

theorem History.halts {d₀ d : Docket} {w₀ : σ} {h : List Stint}
    (hist : History s rounds d₀ w₀ h d w) : ∀ st ∈ h, Halts st.trace.calls st.progress := by
  intro st mem
  obtain ⟨w', served⟩ := hist.served st mem
  have halts := st.before.serve_halts rounds s w'
  rw [← served]
  exact halts

/-- Attempts that complete meet no refusal, so those of an operation meet at most that of
the last one. -/
theorem halts_of_upToLast {stints : List Stint} (upToLast : Docket.UpToLast stints)
    (each : ∀ st ∈ stints, Halts st.trace.calls st.progress) :
    Halts (traceOf stints).calls (concluded stints) := by
  rcases List.eq_nil_or_concat stints with rfl | ⟨before, st, rfl⟩
  · exact ⟨rfl, fun refused => nomatch refused⟩
  · rw [List.concat_eq_append] at upToLast each ⊢
    have none : refusals (traceOf before).calls = 0 := by
      refine List.countP_eq_zero.2 fun c mem => ?_
      obtain ⟨a, ha, mem⟩ := mem_calls_traceOf.1 mem
      have met := (each a (List.mem_append_left _ ha)).met
      rw [upToLast a (by simpa using ha)] at met
      exact List.countP_eq_zero.1 met c mem
    have last : concluded (before ++ [st]) = st.progress := by
      simp [concluded]
    rw [last, traceOf_append, traceOf_singleton, Trace.calls_append]
    exact (each st (by simp)).lead none

namespace Backlog

theorem perform_halts (rounds : Nat) (b : Backlog) (r : Request) (s : Surroundings σ) (w : σ) :
    let run := b.perform rounds r s w
    Halts run.trace.calls run.value.1 := by
  obtain ⟨erase, hist⟩ := b.perform_history rounds r s w
  simp only [erase, Docket.perform_calls]
  exact halts_of_upToLast (Docket.perform_upToLast rounds b.docket r s w) hist.halts

/-- A run meets as many refusals as requests of it are refused. -/
theorem performAll_refusals (rounds : Nat) (b : Backlog) (requests : List Request)
    (s : Surroundings σ) (w : σ) :
    let run := b.performAll rounds requests s w
    refusals run.trace.calls = run.value.1.count .refused := by
  induction requests generalizing b w with
  | nil => rfl
  | cons r rest ih =>
    have first := (b.perform_halts rounds r s w).met
    have later := ih (b.perform rounds r s w).value.2 (b.perform rounds r s w).world
    simp only [performAll, Act.bind_apply, Act.pure_apply, List.append_nil, Trace.calls_append,
      refusals_append] at later ⊢
    rw [first, later, ← List.count_append]
    rfl

end Backlog

/-! ## The law -/

/-- To ask for an address is no deed. -/
def Call.isDeed : Call → Bool
  | .peerAddress .. => false
  | _ => true

/-- The calls but for those that only ask for an address. -/
def deeds (calls : List Call) : List Call := calls.filter Call.isDeed

theorem isDeed_of_refusal {c : Call} (refusal : c.isRefusal = true) : c.isDeed = true := by
  cases c with
  | send => rfl
  | _ => cases refusal

theorem refusals_deeds (calls : List Call) : refusals (deeds calls) = refusals calls := by
  unfold refusals deeds
  rw [List.countP_filter]
  refine List.countP_congr fun c _ => ?_
  simpa using isDeed_of_refusal

theorem Halts.deeds {calls : List Call} {p : Progress} (halts : Halts calls p) :
    Halts (deeds calls) p := by
  obtain ⟨met, last⟩ := halts
  refine ⟨(refusals_deeds calls).trans met, fun refused => ?_⟩
  obtain ⟨earlier, c, rfl, refusal⟩ := last refused
  refine ⟨Outbox.deeds earlier, c, ?_, refusal⟩
  simp [Outbox.deeds, isDeed_of_refusal refusal]

/-- At most one send is refused, no call comes after it, and to end with it is to be
refused. -/
structure StopsAtRefusal (calls : List Call) (p : Progress) : Prop where
  once : refusals calls ≤ 1
  last : ∀ before c after, calls = before ++ c :: after → c.isRefusal = true → after = []
  refused_iff : p = .refused ↔ ∃ c, calls.getLast? = some c ∧ c.isRefusal = true

theorem Halts.stopsAtRefusal {calls : List Call} {p : Progress} (halts : Halts calls p) :
    StopsAtRefusal calls p := by
  obtain ⟨met, last⟩ := halts
  by_cases refused : p = .refused
  · obtain ⟨earlier, c, rfl, refusal⟩ := last refused
    have none : refusals earlier = 0 := by
      simpa [refused, refusal] using met
    refine ⟨by simp [none, refusal], fun before c' after cut refusal' => ?_, ?_⟩
    · rcases List.eq_nil_or_concat after with rfl | ⟨between, x, rfl⟩
      · rfl
      · -- another refusal would be among the calls before the last
        rw [List.concat_eq_append, ← List.cons_append, ← List.append_assoc] at cut
        obtain ⟨rfl, -⟩ := List.append_inj' cut rfl
        have accepted := List.countP_eq_zero.1 none c' (by simp)
        exact absurd refusal' accepted
    · simp [refused, refusal]
  · have none : refusals calls = 0 := by
      simpa [refused] using met
    have accepted := List.countP_eq_zero.1 none
    refine ⟨by omega, fun before c after cut refusal => ?_, ?_⟩
    · exact absurd refusal (accepted c (by simp [cut]))
    · refine ⟨fun h => absurd h refused, ?_⟩
      rintro ⟨c, ends, refusal⟩
      exact absurd refusal (accepted c (List.mem_of_getLast? ends))

/-- One refusal stops everything at once. Of the calls of an attempt, a submission or a
drain, at most one is a refused send, and it is the last. What ends with a refused send is
refused, and nothing else is. So the refusals of a run are as many as its refused requests,
and those of `k` drains that are all refused are `k`. -/
theorem one_refusal_stops_everything (s : Surroundings σ) (rounds : Nat) :
    (∀ (c : Command) (w : σ),
        let run := c.attempt rounds s w
        StopsAtRefusal (deeds run.trace.calls) run.value.1) ∧
      (∀ (b : Backlog) (r : Backlog.Request) (w : σ),
        let run := b.perform rounds r s w
        StopsAtRefusal (deeds run.trace.calls) run.value.1) ∧
      (∀ (b : Backlog) (requests : List Backlog.Request) (w : σ),
        let run := b.performAll rounds requests s w
        refusals run.trace.calls = run.value.1.count .refused) ∧
      ∀ (b : Backlog) (k : Nat) (w : σ),
        let run := b.performAll rounds (List.replicate k .drain) s w
        run.value.1 = List.replicate k .refused → refusals run.trace.calls = k := by
  refine ⟨?attempt, ?operation, ?run, ?drains⟩
  case attempt => exact fun c w => (c.attempt_halts rounds s w).deeds.stopsAtRefusal
  case operation => exact fun b r w => (b.perform_halts rounds r s w).deeds.stopsAtRefusal
  case run => exact fun b requests w => b.performAll_refusals rounds requests s w
  case drains =>
    intro b k w run refused
    have met : refusals run.trace.calls = run.value.1.count .refused :=
      b.performAll_refusals rounds _ s w
    rw [met, refused, List.count_replicate_self]

/-- Two drains are refused, one after the other. -/
theorem one_refusal_stops_everything_on_the_workbench :
    let shut : Bench × List Bool := ({ left := fun _ => [[1]] }, [true, true])
    let run := Bench.leftOver.performAll 4 (List.replicate 2 .drain) workbench.impatient shut
    run.value.1 = List.replicate 2 .refused ∧ refusals run.trace.calls = 2 := by
  intro shut run
  obtain ⟨-, -, -, drains⟩ := one_refusal_stops_everything workbench.impatient 4
  have refused : run.value.1 = List.replicate 2 .refused := rfl
  exact ⟨refused, drains Bench.leftOver 2 shut refused⟩

end Outbox
