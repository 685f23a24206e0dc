-- What happens to a connection after it was disposed. The disposal is the last
-- call of its attempt. Each command still makes its calls on its own
-- connection whenever it is attempted, so a command that waits when its
-- connection is disposed calls on it again once a drain takes it up.
import Outbox.Proofs.Overtaking
import Outbox.Proofs.Suspensions

namespace Outbox

variable {σ : Type} {s : Surroundings σ} {rounds : Nat} {w w' : σ}

/-- Some call is made on the connection. -/
def CallsOn (calls : List Call) (connection : Connection) : Prop :=
  ∃ c ∈ calls, c.connection? = some connection

theorem CallsOn.left {l : List Call} {connection : Connection} (h : CallsOn l connection)
    (m : List Call) : CallsOn (l ++ m) connection :=
  h.imp fun _ ⟨mem, on⟩ => ⟨List.mem_append_left m mem, on⟩

theorem CallsOn.right {m : List Call} {connection : Connection} (h : CallsOn m connection)
    (l : List Call) : CallsOn (l ++ m) connection :=
  h.imp fun _ ⟨mem, on⟩ => ⟨List.mem_append_right l mem, on⟩

/-! ## An attempt calls on its connection -/

theorem EngineFlush.worked_callsOn {f : EngineFlush} {b : Buffer} {r : Ran σ Turn}
    (h : Worked s f b w r) : CallsOn r.trace.calls f.connection := by
  cases h with
  | resent full sent =>
    cases sent <;> exact ⟨_, List.mem_cons_self .., rfl⟩
  | pollFailed empty polled => exact ⟨_, List.mem_cons_self .., rfl⟩
  | produced empty polled sent => exact ⟨_, List.mem_cons_self .., rfl⟩
  | ranDry empty polled woundUp => exact ⟨_, List.mem_cons_self .., rfl⟩

/-- A flush that is granted a round asks for the address of its peer, or polls
its engine. -/
theorem EngineFlush.attempt_callsOn (rounds : Nat) (f : EngineFlush) (s : Surroundings σ) (w : σ) :
    CallsOn (f.attempt (rounds + 1) s w).trace.calls f.connection := by
  have first : CallsOn (f.round s w).trace.calls f.connection := by
    have round := rounded_round s f w
    generalize f.round s w = r at round
    cases round with
    | intro taken worked =>
      rw [trace_after, Trace.calls_append]
      exact (worked_callsOn worked).right _
  have round := rounded_round s f w
  rcases hv : f.round s w with ⟨g | ⟨p, g⟩, t, w'⟩ <;> rw [hv] at round first
  · rw [attempt_again rounds round, trace_after, Trace.calls_append]
    exact first.left _
  · rw [attempt_stop rounds round]
    exact first

theorem TimerFlush.flushed_callsOn {t : TimerFlush} {fired : Ran σ TimerFlush} {p : Progress}
    {flush : EngineFlush} {u : Trace} (fire : Fired s t w fired)
    (ran : fired.value.flush.attempt (rounds + 1) s fired.world = ⟨(p, flush), u, w'⟩) :
    CallsOn (fired.trace ++ u).calls t.connection := by
  have flushes := fired.value.flush.attempt_callsOn rounds s fired.world
  rw [ran] at flushes
  rw [Trace.calls_append]
  cases fire with
  | before fired => exact flushes.right _
  | now unfired rang => exact flushes.right _

theorem TimerFlush.attempt_callsOn (rounds : Nat) (t : TimerFlush) (s : Surroundings σ) (w : σ) :
    CallsOn (t.attempt (rounds + 1) s w).trace.calls t.connection := by
  have h := attempted_iff.2 (rfl : t.attempt (rounds + 1) s w = _)
  generalize t.attempt (rounds + 1) s w = r at h
  cases h with
  | fireFailed unfired rang => exact ⟨_, List.mem_cons_self .., rfl⟩
  | stopped fire incomplete ran => exact flushed_callsOn fire ran
  | kept fire notDue ran => exact flushed_callsOn fire ran
  | disposed fire due ran =>
    rw [Trace.calls_append]
    exact (flushed_callsOn fire ran).left _

/-- An attempt calls on a connection exactly if its command is about it. -/
theorem Command.serve_callsOn (rounds : Nat) (c : Command) (s : Surroundings σ) (w : σ)
    (connection : Connection) :
    CallsOn (c.serve (rounds + 1) s w).trace.calls connection ↔
      c.connection? = some connection := by
  constructor
  · rintro ⟨call, mem, on⟩
    exact (serve_course (rounds + 1) c s w).1.lawful call mem connection on
  · intro about
    rw [(serve_eq (rounds + 1) c s w).2.1]
    apply CallsOn.left
    cases c with
    | write d => cases about
    | flush f =>
      rw [resume_flush]
      obtain rfl := Option.some.inj about
      exact f.attempt_callsOn rounds s w
    | timer t =>
      rw [resume_timer]
      obtain rfl := Option.some.inj about
      exact t.attempt_callsOn rounds s w

/-! ## A disposal ends its attempt -/

/-- No call disposes a connection. -/
def NoDisposal (calls : List Call) : Prop := ∀ connection, .dispose connection ∉ calls

theorem NoDisposal.append {l m : List Call} (hl : NoDisposal l) (hm : NoDisposal m) :
    NoDisposal (l ++ m) := fun x mem => (List.mem_append.1 mem).elim (hl x) (hm x)

theorem noDisposal_of_flush {calls : List Call} (flushing : ∀ c ∈ calls, c.ofFlush = true) :
    NoDisposal calls := fun _ mem => nomatch flushing _ mem

theorem TimerFlush.flushed_noDisposal {t : TimerFlush} {fired : Ran σ TimerFlush} {p : Progress}
    {flush : EngineFlush} {u : Trace} (fire : Fired s t w fired)
    (ran : fired.value.flush.attempt rounds s fired.world = ⟨(p, flush), u, w'⟩) :
    NoDisposal (fired.trace ++ u).calls := by
  have flushing := fired.value.flush.attempt_ofFlush rounds s fired.world
  rw [ran] at flushing
  rw [Trace.calls_append]
  refine NoDisposal.append ?_ (noDisposal_of_flush flushing)
  cases fire with
  | before fired => simp [NoDisposal]
  | now unfired rang => simp [NoDisposal]

theorem TimerFlush.attempt_disposal (rounds : Nat) (t : TimerFlush) (s : Surroundings σ) (w : σ) :
    let r := t.attempt rounds s w
    NoDisposal r.trace.calls ∨
      (r.value.1 = .completed ∧
        ∃ before, r.trace.calls = before ++ [.dispose t.connection] ∧ NoDisposal before) := by
  have same := (t.attempt_course rounds s w).2
  have h := attempted_iff.2 (rfl : t.attempt rounds s w = _)
  generalize t.attempt rounds s w = r at h same
  cases h with
  | fireFailed unfired rang => exact Or.inl (by simp [NoDisposal])
  | stopped fire incomplete ran => exact Or.inl (flushed_noDisposal fire ran)
  | kept fire notDue ran => exact Or.inl (flushed_noDisposal fire ran)
  | @disposed fired flush u w₂ fire due ran =>
    have same : flush.connection = t.connection := same
    refine Or.inr ⟨rfl, _, ?_, flushed_noDisposal fire ran⟩
    rw [Trace.calls_append]
    simp [same]

theorem Command.parting_noDisposal (c : Command) (p : Progress) : NoDisposal (c.parting p) := by
  cases p <;> simp [parting, NoDisposal]

/-- A disposal is the last call of its attempt, and the only one. -/
theorem Command.serve_disposal (rounds : Nat) (c : Command) (s : Surroundings σ) (w : σ)
    {connection : Connection} (disposes : .dispose connection ∈ (c.serve rounds s w).trace.calls) :
    ∃ before, (c.serve rounds s w).trace.calls = before ++ [.dispose connection] ∧
      NoDisposal before := by
  have about : c.connection? = some connection :=
    (serve_course rounds c s w).1.lawful _ disposes connection rfl
  have calls := (serve_eq rounds c s w).2.1
  have parting := (c.resume rounds s w).value.2.parting_noDisposal (c.resume rounds s w).value.1
  have none : ¬ NoDisposal (c.resume rounds s w).trace.calls := fun none =>
    none.append parting connection (calls ▸ disposes)
  rw [calls]
  cases c with
  | write d => cases about
  | flush f =>
    rw [resume_flush] at none
    exact absurd (noDisposal_of_flush (f.attempt_ofFlush rounds s w)) none
  | timer t =>
    obtain rfl := Option.some.inj about
    simp only [resume_timer] at none ⊢
    obtain ⟨completed, before, cut, none⟩ := (t.attempt_disposal rounds s w).resolve_left none
    refine ⟨before, ?_, none⟩
    rw [completed, cut]
    exact List.append_nil _

/-! ## The law -/

/-- Every attempt of a run is at its command as it was before. -/
theorem History.exists_serve {d₀ d : Docket} {h : List Stint} {w₀ : σ}
    (hist : History s rounds d₀ w₀ h d w) {st : Stint} (mem : st ∈ h) :
    ∃ w', st.trace.calls = (st.before.serve rounds s w').trace.calls := by
  obtain ⟨w', served⟩ := hist.served st mem
  exact ⟨w', congrArg (fun st : Stint => st.trace.calls) served.symm⟩

/-- Some attempt calls on a connection exactly if one of them is at a command
about it. -/
theorem History.callsOn {d₀ d : Docket} {h : List Stint} {w₀ : σ}
    (hist : History s (rounds + 1) d₀ w₀ h d w) (connection : Connection) :
    CallsOn (traceOf h).calls connection ↔
      ∃ st ∈ h, st.before.connection? = some connection := by
  have each : ∀ st ∈ h, CallsOn st.trace.calls connection ↔
      st.before.connection? = some connection := by
    intro st mem
    obtain ⟨w', served⟩ := hist.exists_serve mem
    rw [served]
    exact Command.serve_callsOn rounds st.before s w' connection
  constructor
  · rintro ⟨call, mem, on⟩
    obtain ⟨st, hst, mem⟩ := mem_calls_traceOf.1 mem
    exact ⟨st, hst, (each st hst).1 ⟨call, mem, on⟩⟩
  · rintro ⟨st, hst, about⟩
    obtain ⟨call, mem, on⟩ := (each st hst).2 about
    exact ⟨call, mem_calls_traceOf.2 ⟨st, hst, mem⟩, on⟩

/-- A disposal is the last call of its attempt. What calls on the connection
after it are the attempts at commands about it, and each of them does. If no
later submission is about it, these are commands that waited when it was
disposed, and drains take them up. So nothing targets a disposed connection
only if no command about it is left behind. -/
theorem disposed_connections_are_called_for_commands_left_behind (s : Surroundings σ)
    (rounds : Nat) (policy : Policy) (requests : List Backlog.Request) (w : σ) :
    let run := ({ policy } : Backlog).performAll (rounds + 1) requests s w
    let attempts :=
      (({ policy } : Docket).performAll (rounds + 1) requests s w).value.1.flatten
    Chronicle policy requests attempts run ∧
      ∀ earlier st later x, attempts = earlier ++ st :: later → .dispose x ∈ st.trace.calls →
        (∃ before, st.trace.calls = before ++ [.dispose x] ∧ NoDisposal before) ∧
          (CallsOn (traceOf later).calls x ↔ ∃ st' ∈ later, st'.before.connection? = some x) ∧
          ((∀ st' ∈ later, st'.fresh = true → st'.before.connection? ≠ some x) →
            ∀ st' ∈ later, st'.before.connection? = some x → st'.fresh = false ∧
              ∃ t ∈ (Docket.after { policy } (earlier ++ [st])).waiting,
                t.number = st'.number ∧ t.command.connection? = some x) := by
  intro run attempts
  refine ⟨performAll_chronicle s (rounds + 1) policy requests w, ?_⟩
  intro earlier st later x cut disposes
  have hist := (Docket.performAll_history (rounds + 1) { policy } requests s w).2
  have cut : attempts = (earlier ++ [st]) ++ later := by simp [cut]
  rw [show (({ policy } : Docket).performAll _ requests s w).value.1.flatten = _ from cut] at hist
  obtain ⟨w', moment, rest⟩ := hist.split
  refine ⟨?_, rest.callsOn x, fun unnamed st' mem about => ?_⟩
  · obtain ⟨w₁, served⟩ := moment.exists_serve (List.mem_append_right earlier List.mem_cons_self)
    rw [served] at disposes ⊢
    exact st.before.serve_disposal (rounds + 1) s w₁ disposes
  · have again : st'.fresh = false := by
      by_contra fresh
      exact unnamed st' mem (by simpa using fresh) about
    refine ⟨again, ?_⟩
    rcases rest.since.stints st' mem with waits | ⟨first, hfirst, fresh, -, same⟩
    · rwa [about] at waits
    · exact absurd (same.trans about) (unnamed first hfirst fresh)

namespace Bench

/-- A timer that disposes, a flush of the same connection, and a drain. -/
def partings : List Backlog.Request :=
  [.timer ⟨"right"⟩ ⟨"out"⟩ true, .flush ⟨"right"⟩ ⟨"out"⟩, .drain]

/-- Each engine has two datagrams left, and both submissions are refused. -/
def shut : Bench × List Bool := ({ left := fun _ => [[1], [2]] }, [true, true])

end Bench

/-- The timer disposes its connection in the drain, and no submission comes
after it. The flush that waits behind still asks for the address of the
connection, and polls it. -/
theorem a_flush_left_behind_calls_on_a_disposed_connection :
    let attempts := (({} : Docket).performAll 4 Bench.partings workbench.impatient
      Bench.shut).value.1.flatten
    ∃ earlier st later, attempts = earlier ++ st :: later ∧
      .dispose ⟨"right"⟩ ∈ st.trace.calls ∧ (∀ st' ∈ later, st'.fresh = false) ∧
        .peerAddress ⟨"right"⟩ ⟨"right"⟩ ∈ (traceOf later).calls ∧
        .produce ⟨"right"⟩ (.withCapacity 1200) [] (.ok 0) ∈ (traceOf later).calls := by
  intro attempts
  refine ⟨attempts.take 2, attempts.get ⟨2, by decide⟩, attempts.drop 3, rfl, ?_, ?_, ?_, ?_⟩
  · decide
  · decide
  · decide
  · decide

end Outbox
