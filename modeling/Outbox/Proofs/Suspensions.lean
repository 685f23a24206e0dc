-- What a command is like while it waits. It waits only because a send was
-- refused, so it is in the middle of this send. Nothing of this changes until
-- the command is taken up again, so a run has it of all commands that wait, by
-- induction on the attempts at each. No drain needs a new buffer, or fires a
-- timer.
import Outbox.Proofs.Lives
import Outbox.Proofs.Refusals
import Outbox.Proofs.Workbench

namespace Outbox

variable {σ : Type} {s : Surroundings σ} {rounds : Nat} {w w' : σ}

/-! ## Attempts in a run -/

theorem firings_traceOf (h : List Stint) :
    firings (traceOf h).calls = h.flatMap fun st => firings st.trace.calls := by
  simp [firings, Trace.calls, traceOf, List.filterMap_flatMap]

theorem mem_calls_traceOf {h : List Stint} {c : Call} :
    c ∈ (traceOf h).calls ↔ ∃ st ∈ h, c ∈ st.trace.calls := by
  simp only [Trace.calls, traceOf, List.filterMap_flatMap, List.mem_flatMap]

theorem Progress.refused_of_waits {p : Progress} (waits : p.waits = true)
    (finished : p ≠ .unfinished) : p = .refused := by
  cases p with
  | refused => rfl
  | unfinished => exact absurd rfl finished
  | completed => cases waits
  | failed => cases waits

/-- What each attempt of a run keeps to. -/
structure Stint.Regular (st : Stint) : Prop where
  refused : st.progress = .refused →
    st.before.WaitsAs st.after ∧ EndsRefused st.trace.calls st.after.held
  firings : firings st.trace.calls = st.before.due?.toList
  acquires : acquires st.trace.calls + buffers st.before.held ≤ 1
  underway : st.before.Underway → st.progress.waits = true → st.after.Underway

theorem parting_firings (c : Command) (p : Progress) : firings (c.parting p) = [] := by
  cases p with
  | failed e => cases h : c.held <;> simp [Command.parting, h, firings, Call.firing?]
  | _ => rfl

theorem serve_regular (rounds : Nat) (fresh : Bool) (t : Ticket) (s : Surroundings σ) (w : σ) :
    (t.serve rounds fresh s w).value.Regular := by
  obtain ⟨hv, hc, -⟩ := Command.serve_eq rounds t.command s w
  constructor
  case refused =>
    simp only [Ticket.serve, hv, hc]
    intro refused
    have none : (t.command.resume rounds s w).value.2.parting .refused = [] := rfl
    rw [refused, none, List.append_nil]
    exact Command.resume_refused_waits rounds t.command s w refused
  case firings =>
    simp only [Ticket.serve, hc, firings_append, parting_firings, List.append_nil]
    exact Command.resume_firings rounds t.command s w
  case acquires =>
    simp only [Ticket.serve, hc, acquires_append, (parting_buffers _ _).1, Nat.add_zero]
    exact Command.resume_acquires rounds t.command s w
  case underway =>
    simp only [Ticket.serve, hv]
    exact Command.resume_underway rounds s w

/-- An attempt at a command under way fires no timer and takes no buffer from
the pool. -/
theorem Stint.Regular.quiet {st : Stint} (regular : st.Regular)
    (underway : st.before.Underway) :
    Outbox.firings st.trace.calls = [] ∧ Outbox.acquires st.trace.calls = 0 := by
  have takes := regular.acquires
  rw [buffers_of_isSome underway.held] at takes
  refine ⟨?_, by omega⟩
  rw [regular.firings, underway.due]
  rfl

theorem History.regular {d₀ d : Docket} {w₀ : σ} {h : List Stint}
    (hist : History s rounds d₀ w₀ h d w) : ∀ st ∈ h, st.Regular := by
  intro st hst
  obtain ⟨v, hv⟩ := hist.served st hst
  have regular := serve_regular rounds st.fresh ⟨st.number, st.before⟩ s v
  rwa [hv] at regular

namespace Life

variable {first last : Stint} {l : List Stint}

theorem waitsAs (life : Life first l last) (regular : ∀ st ∈ l, st.Regular)
    (finished : ∀ st ∈ l, st.progress ≠ .unfinished) (waits : last.progress.waits = true) :
    first.before.WaitsAs last.after := by
  induction life with
  | submitted fresh =>
    have mem : first ∈ [first] := List.mem_singleton_self first
    exact ((regular first mem).refused (Progress.refused_of_waits waits (finished first mem))).1
  | @resumed last st l earlier hwaits same again ih =>
    have mem : st ∈ l ++ [st] := by simp
    have before := ih (fun a ha => regular a (List.mem_append_left _ ha))
      (fun a ha => finished a (List.mem_append_left _ ha)) hwaits
    rw [← same] at before
    have refused := Progress.refused_of_waits waits (finished st mem)
    exact before.trans ((regular st mem).refused refused).1

/-- Of all attempts at a command, only the first fires a timer or takes a
buffer from the pool. -/
theorem firings_acquires (life : Life first l last) (regular : ∀ st ∈ l, st.Regular)
    (finished : ∀ st ∈ l, st.progress ≠ .unfinished) :
    firings (traceOf l).calls = first.before.due?.toList ∧
      acquires (traceOf l).calls + buffers first.before.held ≤ 1 := by
  induction life with
  | submitted fresh =>
    have now := regular first (List.mem_singleton_self first)
    simpa [traceOf] using ⟨now.firings, now.acquires⟩
  | @resumed last st l earlier waits same again ih =>
    have regular' : ∀ a ∈ l, a.Regular := fun a ha => regular a (List.mem_append_left _ ha)
    have finished' : ∀ a ∈ l, a.progress ≠ .unfinished :=
      fun a ha => finished a (List.mem_append_left _ ha)
    obtain ⟨hf, ha⟩ := ih regular' finished'
    have underway := (earlier.waitsAs regular' finished' waits).underway
    rw [← same] at underway
    obtain ⟨none, zero⟩ := (regular st (by simp)).quiet underway
    rw [traceOf_append, traceOf_singleton, Trace.calls_append, firings_append, acquires_append,
      none, zero, List.append_nil, Nat.add_zero]
    exact ⟨hf, ha⟩

end Life

namespace History

variable {policy : Policy} {h : List Stint} {d : Docket} {w₀ w : σ}

/-- A command that waits is the one of a submission, as it waits. -/
theorem waitsAs (hist : History s rounds { policy } w₀ h d w)
    (finished : ∀ st ∈ h, st.progress ≠ .unfinished) {t : Ticket} (mem : t ∈ d.waiting) :
    ∃ first ∈ h, first.fresh = true ∧ first.number = t.number ∧
      first.before.WaitsAs t.command := by
  obtain ⟨first, last, life, waits, rfl⟩ := hist.lived.waiting t mem
  have within : ∀ st ∈ ofNumber last.ticket.number h, st ∈ h := fun st hst =>
    (mem_ofNumber.1 hst).1
  have begun := mem_ofNumber.1 life.first_mem
  exact ⟨first, begun.1, life.first_fresh, begun.2,
    life.waitsAs (fun st hst => hist.regular st (within st hst))
      (fun st hst => finished st (within st hst)) waits⟩

/-- Only the attempt of a submission fires a timer or takes a buffer from the
pool. -/
theorem quiet_of_again (hist : History s rounds { policy } w₀ h d w)
    (finished : ∀ st ∈ h, st.progress ≠ .unfinished) {st : Stint} (mem : st ∈ h)
    (again : st.fresh = false) :
    firings st.trace.calls = [] ∧ acquires st.trace.calls = 0 := by
  -- when this attempt began, its command was the first that waited
  obtain ⟨earlier, later, cut⟩ := List.append_of_mem mem
  obtain ⟨behind, front⟩ := hist.front_of_again cut again
  obtain ⟨w', moment⟩ := hist.upTo ⟨st :: later, cut.symm⟩
  obtain ⟨first, -, -, -, waits⟩ := moment.waitsAs
    (fun a ha => finished a (cut ▸ List.mem_append_left _ ha)) (front ▸ List.mem_cons_self ..)
  exact (hist.regular st mem).quiet waits.underway

end History

/-! ## Drains -/

/-- While no command is new, all that wait are under way. -/
theorem History.underway {d₀ d : Docket} {w₀ : σ} {h : List Stint}
    (hist : History s rounds d₀ w₀ h d w) (drained : ∀ st ∈ h, st.fresh = false)
    (before : ∀ t ∈ d₀.waiting, t.command.Underway) :
    (∀ st ∈ h, st.before.Underway) ∧ ∀ t ∈ d.waiting, t.command.Underway := by
  induction hist with
  | start => exact ⟨by simp, before⟩
  | @submit h d w r c ran earlier made served ih =>
    subst served
    cases drained _ (List.mem_append_right h (List.mem_singleton_self _))
  | @resume h d w t behind ran earlier front served ih =>
    subst served
    obtain ⟨stints, waiting⟩ := ih fun st hst => drained st (List.mem_append_left _ hst)
    have hfront := waiting t (front ▸ List.mem_cons_self ..)
    constructor
    · intro st hst
      rcases List.mem_append.1 hst with hst | hst
      · exact stints st hst
      · rw [List.mem_singleton.1 hst]
        exact hfront
    · intro u hu
      rcases mem_requeue.1 hu with ⟨rfl, waits⟩ | hu
      · exact (serve_regular rounds false t s w).underway hfront waits
      · exact waiting u (front ▸ List.mem_cons_of_mem _ hu)

/-- A drain of commands under way takes no buffer from the pool and fires no
timer. -/
theorem Backlog.drain_quiet (rounds : Nat) (b : Backlog) (s : Surroundings σ) (w : σ)
    (underway : ∀ c ∈ b.waiting, c.Underway) :
    acquires (b.drain rounds s w).trace.calls = 0 ∧
      firings (b.drain rounds s w).trace.calls = [] := by
  obtain ⟨erase, hist⟩ := b.perform_history rounds .drain s w
  have calls := Docket.perform_calls rounds b.docket .drain s w
  have fresh := Docket.perform_fresh rounds b.docket .drain s w
  have drained := List.filter_eq_nil_iff.1 (List.map_eq_nil_iff.1 fresh)
  have erase : b.drain rounds s w = _ := erase
  obtain ⟨stints, -⟩ := hist.underway (fun st hst => by simpa using drained st hst)
    (by simpa [docket] using underway)
  have regular := hist.regular
  have quiet := fun st hst => (regular st hst).quiet (stints st hst)
  rw [erase, calls, acquires_traceOf, firings_traceOf]
  constructor
  · refine List.sum_eq_zero fun n hn => ?_
    obtain ⟨st, hst, rfl⟩ := List.mem_map.1 hn
    exact (quiet st hst).2
  · exact List.flatMap_eq_nil_iff.2 fun st hst => (quiet st hst).1

/-! ## The law -/

/-- How the command of a submission waits, in the middle of a refused send. -/
inductive Backlog.Request.WaitsAs : Backlog.Request → Command → Prop where
  | write {channel : Channel} {buffer : Buffer} {peer : Address}
      (full : buffer.isEmpty = false) :
      WaitsAs (.write channel buffer peer) (.write { channel, peer, held := some buffer })
  | flush {f : EngineFlush} (purpose : f.purpose = .send) (held : f.held.isSome = true) :
      WaitsAs (.flush f.connection f.channel) (.flush f)
  | timer {t : TimerFlush} (purpose : t.flush.purpose = .timeout)
      (held : t.flush.held.isSome = true) (fired : t.fired = true)
      (disposed : t.disposed = false) :
      WaitsAs (.timer t.connection t.flush.channel t.dispose) (.timer t)

def Backlog.Request.timed? : Backlog.Request → Option Connection
  | .timer connection _ _ => some connection
  | .write .. | .flush .. | .drain => none

theorem waitsAs_of_command {policy : Policy} {r : Backlog.Request} {c c₀ : Command}
    (made : r.command? policy = some c₀) (waits : c₀.WaitsAs c) : r.WaitsAs c := by
  cases r <;> simp only [Backlog.Request.command?, Option.some.injEq, reduceCtorEq] at made
  all_goals subst made
  case write =>
    cases waits with
    | write held full =>
      cases held
      exact .write full
  case flush =>
    cases waits with
    | flush same held =>
      obtain ⟨purpose, connection, channel, -⟩ := same
      have h := Backlog.Request.WaitsAs.flush purpose held
      rwa [connection, channel] at h
  case timer =>
    cases waits with
    | timer same held dispose fired disposed =>
      obtain ⟨purpose, connection, channel, -⟩ := same
      have h := Backlog.Request.WaitsAs.timer purpose held fired disposed
      rwa [TimerFlush.connection, connection, channel, dispose] at h

theorem due_of_request (policy : Policy) (r : Backlog.Request) :
    (r.command? policy).bind Command.due? = r.timed? := by
  cases r <;> rfl

theorem finished_attempts {policy : Policy} {requests : List Backlog.Request}
    (finished : ∀ p ∈ (({ policy } : Backlog).performAll rounds requests s w).value.1,
      p ≠ .unfinished) :
    ∀ st ∈ (({ policy } : Docket).performAll rounds requests s w).value.1.flatten,
      st.progress ≠ .unfinished := by
  have hrun : ({ policy } : Backlog).performAll rounds requests s w = _ :=
    (Docket.performAll_history rounds { policy } requests s w).1
  rw [hrun] at finished
  intro st hst
  obtain ⟨operation, hop, hst⟩ := List.mem_flatten.1 hst
  exact finished_of_concluded (Docket.performAll_upToLast rounds _ requests s w operation hop)
    (finished _ (List.mem_map_of_mem hop)) st hst

/-- A ticket waits in the middle of a refused send: its command is the one of
the submission with its number, the last attempt at it was refused, and ended
with a send of what it holds. -/
structure Ticket.Suspended (t : Ticket) (requests : List Backlog.Request)
    (attempts : List Stint) : Prop where
  submission : ∃ n r, t.number = n + 1 ∧ (submissions requests)[n]? = some r ∧
    r.WaitsAs t.command
  refusal : ∃ last, (ofNumber t.number attempts).getLast? = some last ∧
    last.after = t.command ∧ last.progress = .refused ∧
    EndsRefused last.trace.calls t.command.held

section

variable {policy : Policy} {requests : List Backlog.Request} {attempts : List Stint}
  {run : Ran σ (List Progress × Backlog)} {d : Docket}

theorem Docket.suspended_of_waiting (chronicle : Chronicle policy requests attempts run)
    (hist : History s rounds { policy } w attempts d w')
    (finished : ∀ st ∈ attempts, st.progress ≠ .unfinished) {t : Ticket}
    (mem : t ∈ d.waiting) : t.Suspended requests attempts := by
  constructor
  case submission =>
    obtain ⟨first, begun, fresh, hn, waits⟩ := hist.waitsAs finished mem
    obtain ⟨n, r, number, found, made⟩ := chronicle.submission_of_fresh begun fresh
    exact ⟨n, r, hn ▸ number, found, waitsAs_of_command made waits⟩
  case refusal =>
    obtain ⟨first, last, life, waits, rfl⟩ := hist.lived.waiting t mem
    have hlast := (mem_ofNumber.1 life.last_mem).1
    have refused := Progress.refused_of_waits waits (finished last hlast)
    exact ⟨last, life.getLast?, rfl, refused, ((hist.regular last hlast).refused refused).2⟩

/-- What a suspended command holds is full, if no poll was hollow. -/
theorem Ticket.Suspended.full {t : Ticket} (suspended : t.Suspended requests attempts)
    (chronicle : Chronicle policy requests attempts run)
    (calm : ∀ c ∈ run.trace.calls, c.isHollow = false) :
    ∃ b, t.command.held = some b ∧ b.isEmpty = false := by
  obtain ⟨last, hlast, -, -, earlier, channel, destination, b, held, calls, hollow⟩ :=
    suspended.refusal
  refine ⟨b, held, Bool.eq_false_iff.2 fun empty => ?_⟩
  obtain ⟨c, hc, hh⟩ := hollow empty
  have mem := (mem_ofNumber.1 (List.mem_of_getLast? hlast)).1
  have hc : c ∈ run.trace.calls := by
    rw [chronicle.calls, mem_calls_traceOf]
    exact ⟨last, mem, calls ▸ List.mem_append_left _ hc⟩
  rw [calm c hc] at hh
  cases hh

/-- The timers of a run are those of its submissions, each fired once. -/
theorem firings_of_submissions (chronicle : Chronicle policy requests attempts run)
    (hist : History s rounds { policy } w attempts d w')
    (finished : ∀ st ∈ attempts, st.progress ≠ .unfinished) :
    firings run.trace.calls = (submissions requests).filterMap Backlog.Request.timed? := by
  have each : ∀ st ∈ attempts, firings st.trace.calls =
      (if st.fresh = true then st.before.due? else none).toList := by
    intro st hst
    cases fresh : st.fresh with
    | true => exact (hist.regular st hst).firings
    | false => exact (hist.quiet_of_again finished hst fresh).1
  calc firings run.trace.calls
    _ = attempts.flatMap fun st => firings st.trace.calls := by
      rw [chronicle.calls, firings_traceOf]
    _ = attempts.filterMap fun st => if st.fresh = true then st.before.due? else none := by
      rw [List.filterMap_eq_flatMap_toList]
      exact List.flatMap_congr each
    _ = (attempts.filter Stint.fresh).filterMap fun st => st.before.due? := by
      rw [List.filterMap_filter]
    _ = ((attempts.filter Stint.fresh).map (some ∘ Stint.before)).filterMap
        fun c => c.bind Command.due? := by
      rw [List.filterMap_map]
      rfl
    _ = (submissions requests).filterMap Backlog.Request.timed? := by
      rw [chronicle.commands, List.filterMap_map]
      exact List.filterMap_congr fun r _ => due_of_request policy r

/-- A command fires the timer that its request asks for, if any, and takes at
most one buffer from the pool in its life. -/
theorem firings_acquires_of_submission (chronicle : Chronicle policy requests attempts run)
    (hist : History s rounds { policy } w attempts d w')
    (finished : ∀ st ∈ attempts, st.progress ≠ .unfinished) {n : Nat} {r : Backlog.Request}
    (found : (submissions requests)[n]? = some r) :
    let life := (traceOf (ofNumber (n + 1) attempts)).calls
    firings life = r.timed?.toList ∧ acquires life ≤ 1 := by
  obtain ⟨first, mem, fresh, number, made⟩ := chronicle.fresh_of_submission found
  obtain ⟨last, life⟩ := hist.life_of_fresh mem fresh
  have within : ∀ st ∈ ofNumber first.number attempts, st ∈ attempts := fun st hst =>
    (mem_ofNumber.1 hst).1
  obtain ⟨fires, takes⟩ := life.firings_acquires (fun st hst => hist.regular st (within st hst))
    fun st hst => finished st (within st hst)
  have due := due_of_request policy r
  rw [made] at due
  rw [number] at fires takes
  exact ⟨fires.trans (congrArg Option.toList due), Nat.le_of_add_right_le takes⟩

end

/-- A command waits only in the middle of a refused send. In every state that
a run reaches, whatever the surroundings answer, each command that waits holds
the buffer that its last attempt failed to send, and its timer, if it has one,
has fired. If no poll was hollow, all that is held is full. So no drain needs a
new buffer or fires a timer: the timers of a run are those of its submissions,
and a command takes at most one buffer from the pool in its life. -/
theorem waiting_commands_are_suspended_in_a_refused_send (s : Surroundings σ) (rounds : Nat)
    (policy : Policy) (requests : List Backlog.Request) (w : σ)
    (finished : ∀ p ∈ (({ policy } : Backlog).performAll rounds requests s w).value.1,
      p ≠ .unfinished) :
    let run := ({ policy } : Backlog).performAll rounds requests s w
    let attempts := (({ policy } : Docket).performAll rounds requests s w).value.1.flatten
    Chronicle policy requests attempts run ∧
      (∀ t ∈ (Docket.after { policy } attempts).waiting, t.Suspended requests attempts) ∧
      ((∀ c ∈ run.trace.calls, c.isHollow = false) →
        ∀ c ∈ run.value.2.waiting, ∃ b, c.held = some b ∧ b.isEmpty = false) ∧
      (∀ n (s' : Surroundings σ) w', let drain := run.value.2.drain n s' w'
        acquires drain.trace.calls = 0 ∧ firings drain.trace.calls = []) ∧
      firings run.trace.calls = (submissions requests).filterMap Backlog.Request.timed? ∧
      ∀ n r, (submissions requests)[n]? = some r →
        let life := (traceOf (ofNumber (n + 1) attempts)).calls
        firings life = r.timed?.toList ∧ acquires life ≤ 1 := by
  intro run attempts
  have chronicle := performAll_chronicle s rounds policy requests w
  have hist := (Docket.performAll_history rounds { policy } requests s w).2
  have finished := finished_attempts finished
  have suspends : ∀ t ∈ (Docket.after { policy } attempts).waiting,
      t.Suspended requests attempts := by
    rw [← hist.eq_after]
    exact fun t ht => Docket.suspended_of_waiting chronicle hist finished ht
  have waiting : run.value.2.waiting =
      (Docket.after { policy } attempts).waiting.map Ticket.command := by
    rw [chronicle.backlog]
    rfl
  refine ⟨chronicle, suspends, ?_, ?_, firings_of_submissions chronicle hist finished,
    fun n r found => firings_acquires_of_submission chronicle hist finished found⟩
  · intro full c hc
    rw [waiting] at hc
    obtain ⟨t, ht, rfl⟩ := List.mem_map.1 hc
    exact (suspends t ht).full chronicle full
  · intro n s' w'
    refine Backlog.drain_quiet n _ s' w' fun c hc => ?_
    rw [waiting] at hc
    obtain ⟨t, ht, rfl⟩ := List.mem_map.1 hc
    rw [← hist.eq_after] at ht
    obtain ⟨first, -, -, -, waits⟩ := hist.waitsAs finished ht
    exact waits.underway

namespace Bench

/-- All submissions are refused, and then the first datagram of the flush. -/
def cramped : Bench × List Bool :=
  ({ left := fun _ => [[1], [2]] }, [true, true, true, false, true])

end Bench

/-- The flush and the timer wait for the next drain. The timer has fired, and
its buffer is the second one from the pool. -/
theorem waiting_commands_are_suspended_in_a_refused_send_on_the_workbench :
    let run := ({} : Backlog).performAll 4 Bench.chores workbench.impatient Bench.cramped
    let attempts :=
      (({} : Docket).performAll 4 Bench.chores workbench.impatient Bench.cramped).value.1.flatten
    (∀ p ∈ run.value.1, p ≠ .unfinished) ∧
      ((Docket.after {} attempts).waiting.map Ticket.number = [2, 3] ∧
        ∀ t ∈ (Docket.after {} attempts).waiting, t.Suspended Bench.chores attempts) ∧
      ((∀ c ∈ run.trace.calls, c.isHollow = false) ∧
        ∀ c ∈ run.value.2.waiting, ∃ b, c.held = some b ∧ b.isEmpty = false) ∧
      (let drain := run.value.2.drain 4 workbench.impatient run.world
       acquires drain.trace.calls = 0 ∧ firings drain.trace.calls = []) ∧
      firings run.trace.calls = [⟨"right"⟩] ∧
      let life := (traceOf (ofNumber 3 attempts)).calls
      firings life = [⟨"right"⟩] ∧ acquires life ≤ 1 := by
  intro run attempts
  have finished : ∀ p ∈ run.value.1, p ≠ .unfinished := by decide
  have calm : ∀ c ∈ run.trace.calls, c.isHollow = false := by decide
  obtain ⟨-, suspends, full, drains, fires, lives⟩ :=
    waiting_commands_are_suspended_in_a_refused_send workbench.impatient 4 .standard
      Bench.chores Bench.cramped finished
  exact ⟨finished, ⟨rfl, suspends⟩, ⟨calm, full calm⟩, drains 4 _ run.world, fires,
    lives 2 _ rfl⟩

end Outbox
