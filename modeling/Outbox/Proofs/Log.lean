-- What an operation leaves in the log. Its first note says what was asked. Then each
-- command that is attempted leaves a block: the note that opens it, one for a disposal if
-- there was one, and the note that tells how it ended. A flush leaves no note however many
-- datagrams it moves, so the blocks and the disposals are all that counts.
import Outbox.Proofs.Lives
import Outbox.Proofs.Stoppages
import Outbox.Proofs.Workbench

namespace Outbox

variable {σ : Type} {s : Surroundings σ} {rounds : Nat} {w w' : σ}

/-! ## Disposals -/

def Call.isDispose : Call → Bool
  | .dispose _ => true
  | _ => false

/-- How many connections were disposed. -/
def disposals (calls : List Call) : Nat := calls.countP Call.isDispose

theorem disposals_append (l m : List Call) :
    disposals (l ++ m) = disposals l + disposals m := List.countP_append

/-- A trace with neither a note nor a disposal. -/
def Silent (t : Trace) : Prop := t.notes = [] ∧ disposals t.calls = 0

theorem Silent.append {t u : Trace} (ht : Silent t) (hu : Silent u) : Silent (t ++ u) := by
  constructor
  · rw [Trace.notes_append, ht.1, hu.1, List.append_nil]
  · rw [Trace.calls_append, disposals_append, ht.2, hu.2]

/-! ## A flush leaves no note -/

namespace EngineFlush

variable {f : EngineFlush} {b : Buffer} {r : Ran σ Turn}

theorem transmitted_silent (sent : Transmitted s f b w r) : Silent r.trace := by
  cases sent with
  | failed sent => exact ⟨rfl, rfl⟩
  | refused sent => exact ⟨rfl, rfl⟩
  | accepted sent => exact ⟨rfl, rfl⟩

theorem woundUp_silent (woundUp : WoundUp s f b w r) : Silent r.trace := by
  cases woundUp with
  | notDue due => exact ⟨rfl, rfl⟩
  | notClosing due asked => exact ⟨rfl, rfl⟩
  | closeFailed due asked forced => exact ⟨rfl, rfl⟩
  | closed due asked forced => exact ⟨rfl, rfl⟩
  | notClosed due asked forced => exact ⟨rfl, rfl⟩

theorem rounded_silent (round : Rounded s f w r) : Silent r.trace := by
  cases round with
  | @intro buffer r taken worked =>
    have first : Silent buffer.trace := by
      cases taken <;> exact ⟨rfl, rfl⟩
    refine first.append ?_
    cases worked with
    | resent full sent => exact transmitted_silent sent
    | pollFailed empty polled => exact ⟨rfl, rfl⟩
    | @produced bytes n w₁ r empty polled sent =>
      exact Silent.append (t := [_]) ⟨rfl, rfl⟩ (transmitted_silent sent)
    | @ranDry bytes w₁ r empty polled woundUp =>
      exact Silent.append (t := [_]) ⟨rfl, rfl⟩ (woundUp_silent woundUp)

theorem attempt_silent (rounds : Nat) (f : EngineFlush) (s : Surroundings σ) (w : σ) :
    Silent (f.attempt rounds s w).trace := by
  refine attempt_induction (P := fun _ _ x => Silent x.trace) ?spent ?stop ?again rounds f w
  case spent => exact fun f w => ⟨rfl, rfl⟩
  case stop => exact fun f w p g t w' round => rounded_silent round
  case again =>
    intro f w g t w' x round later
    have first : Silent t := rounded_silent round
    exact first.append later

end EngineFlush

theorem TimerFlush.flushed_silent {t : TimerFlush} {fired : Ran σ TimerFlush} {p : Progress}
    {flush : EngineFlush} {u : Trace} (fire : Fired s t w fired)
    (ran : fired.value.flush.attempt rounds s fired.world = ⟨(p, flush), u, w'⟩) :
    Silent (fired.trace ++ u) := by
  have flushed := fired.value.flush.attempt_silent rounds s fired.world
  rw [ran] at flushed
  have first : Silent fired.trace := by
    cases fire <;> exact ⟨rfl, rfl⟩
  exact first.append flushed

/-! ## Blocks -/

/-- The note that tells how an attempt ended. One that is still at work has none. -/
def Kind.closing (kind : Kind) : Progress → List Note
  | .completed => [.attempted kind true]
  | .refused => [.attempted kind false]
  | .failed _ => [.abandoning kind]
  | .unfinished => []

/-- What an attempt at a command of this kind leaves in the log, if it ended so and
disposed so many connections. -/
inductive Bracketed (kind : Kind) (p : Progress) : Nat → List Note → Prop where
  | plain : Bracketed kind p 0 (.attempting kind :: kind.closing p)
  | disposing (remote : Address) (done : p = .completed) :
      Bracketed kind p 1 (.attempting kind :: .disposing remote :: kind.closing p)

namespace Bracketed

variable {kind : Kind} {p : Progress} {n : Nat} {notes : List Note}

/-- A block has two notes, and one more for a disposal. -/
theorem length (block : Bracketed kind p n notes) :
    notes.length + [p].count .unfinished = 2 + n := by
  cases block with
  | plain => cases p <;> rfl
  | disposing remote done =>
    subst done
    rfl

end Bracketed

namespace Command

/-- The work of an attempt is silent but for a disposal that completes it. -/
theorem resume_notes (rounds : Nat) (c : Command) (s : Surroundings σ) (w : σ) :
    let r := c.resume rounds s w
    Silent r.trace ∨ (r.value.1 = .completed ∧ disposals r.trace.calls = 1 ∧
      ∃ remote, r.trace.notes = [.disposing remote]) := by
  cases c with
  | write d =>
    rw [resume_write]
    have attempted := DatagramWrite.attempted_iff.2 (rfl : d.attempt s w = _)
    generalize d.attempt s w = r at attempted
    left
    cases attempted with
    | done none => exact ⟨rfl, rfl⟩
    | empty held empty => exact ⟨rfl, rfl⟩
    | failed held full sent => exact ⟨rfl, rfl⟩
    | refused held full sent => exact ⟨rfl, rfl⟩
    | accepted held full sent => exact ⟨rfl, rfl⟩
  | flush f =>
    rw [resume_flush]
    exact Or.inl (f.attempt_silent rounds s w)
  | timer t =>
    rw [resume_timer]
    have attempted := TimerFlush.attempted_iff.2 (rfl : t.attempt rounds s w = _)
    generalize t.attempt rounds s w = r at attempted
    cases attempted with
    | fireFailed unfired rang => exact Or.inl ⟨rfl, rfl⟩
    | stopped fire incomplete ran => exact Or.inl (TimerFlush.flushed_silent fire ran)
    | kept fire notDue ran => exact Or.inl (TimerFlush.flushed_silent fire ran)
    | @disposed fired flush u w₂ fire due ran =>
      obtain ⟨notes, calls⟩ := TimerFlush.flushed_silent fire ran
      refine Or.inr ⟨rfl, ?_, s.peerAddress flush.connection w₂, ?_⟩
      · rw [Trace.calls_append, disposals_append, calls]
        rfl
      · rw [Trace.notes_append, notes]
        rfl

/-- An attempt leaves a command of its kind. -/
theorem resume_kind (rounds : Nat) (c : Command) (s : Surroundings σ) (w : σ) :
    (c.resume rounds s w).value.2.kind = c.kind := by
  cases c with
  | write d => rw [resume_write]; rfl
  | flush f =>
    have purpose := (f.attempt_course rounds s w).2.1
    rw [resume_flush]
    simp only [kind, purpose]
  | timer t => rw [resume_timer]; rfl

/-- The notes of an attempt stand around its work. Both name the kind of the command, which
the work does not change. -/
theorem serve_notes (rounds : Nat) (c : Command) (s : Surroundings σ) (w : σ) :
    let work := c.resume rounds s w
    (c.serve rounds s w).trace.notes =
      .attempting c.kind :: (work.trace.notes ++ c.kind.closing work.value.1) := by
  have same := c.resume_kind rounds s w
  simp only [serve, attempt, Act.bind_apply, Act.pure_apply, Act.note]
  generalize c.resume rounds s w = work at same
  obtain ⟨⟨p, c'⟩, t, w'⟩ := work
  have same : c'.kind = c.kind := same
  -- a failure leaves before the last note of the attempt, and is noted when it is given up
  cases p with
  | completed => simp [noteProgress, settle, Act.note, Kind.closing, same]
  | refused => simp [noteProgress, settle, Act.note, Kind.closing, same]
  | failed e =>
    cases held : c'.held <;>
      simp [noteProgress, settle, abandon_apply, Kind.closing, same, held]
  | unfinished => simp [noteProgress, settle, Kind.closing]

theorem parting_disposals (c : Command) (p : Progress) : disposals (c.parting p) = 0 := by
  cases p with
  | failed e => cases held : c.held <;> simp [parting, held, disposals, Call.isDispose]
  | _ => rfl

theorem serve_bracketed (rounds : Nat) (c : Command) (s : Surroundings σ) (w : σ) :
    let r := c.serve rounds s w
    Bracketed c.kind r.value.1 (disposals r.trace.calls) r.trace.notes := by
  obtain ⟨value, calls, -⟩ := c.serve_eq rounds s w
  simp only [c.serve_notes rounds s w, value, calls, disposals_append, parting_disposals,
    Nat.add_zero]
  rcases c.resume_notes rounds s w with ⟨notes, none⟩ | ⟨completed, one, remote, notes⟩
  · rw [notes, none]
    exact .plain
  · rw [notes, one]
    exact .disposing remote completed

end Command

theorem History.bracketed {d₀ d : Docket} {w₀ : σ} {h : List Stint}
    (hist : History s rounds d₀ w₀ h d w) :
    ∀ st ∈ h, Bracketed st.before.kind st.progress (disposals st.trace.calls) st.trace.notes := by
  intro st mem
  obtain ⟨w', served⟩ := hist.served st mem
  have block := st.before.serve_bracketed rounds s w'
  rw [← served]
  exact block

/-! ## The log of an operation -/

theorem notes_traceOf (stints : List Stint) :
    (traceOf stints).notes = stints.flatMap fun st => st.trace.notes := by
  induction stints with
  | nil => rfl
  | cons st later ih =>
    rw [List.flatMap_cons, ← ih]
    exact Trace.notes_append _ _

/-- Blocks add up, and each that is still at work lacks its last note. -/
theorem length_blocks {stints : List Stint}
    (each : ∀ st ∈ stints,
      Bracketed st.before.kind st.progress (disposals st.trace.calls) st.trace.notes) :
    (traceOf stints).notes.length + (stints.map Stint.progress).count .unfinished =
      2 * stints.length + disposals (traceOf stints).calls := by
  induction stints with
  | nil => rfl
  | cons st later ih =>
    have now := (each st List.mem_cons_self).length
    have rest := ih fun a mem => each a (List.mem_cons_of_mem _ mem)
    rw [show st :: later = [st] ++ later from rfl, traceOf_append, traceOf_singleton,
      Trace.notes_append, Trace.calls_append, disposals_append, List.map_append,
      List.count_append, List.length_append, List.length_append]
    simp only [List.map_cons, List.map_nil, List.length_cons, List.length_nil]
    omega

/-- Only the last attempt of an operation can still be at work. -/
theorem count_unfinished {stints : List Stint} (upToLast : Docket.UpToLast stints) :
    (stints.map Stint.progress).count .unfinished = [concluded stints].count .unfinished := by
  rcases List.eq_nil_or_concat stints with rfl | ⟨before, last, rfl⟩
  · rfl
  · rw [List.concat_eq_append] at upToLast ⊢
    have ended : (before.map Stint.progress).count .unfinished = 0 := by
      refine List.count_eq_zero.2 fun mem => ?_
      obtain ⟨st, mem, unfinished⟩ := List.mem_map.1 mem
      rw [upToLast st (by simpa using mem)] at unfinished
      cases unfinished
    rw [List.map_append, List.count_append, ended, Nat.zero_add]
    simp [concluded]

namespace Docket

/-- The commands are attempted from the first one on. -/
theorem resumeAll_before (rounds : Nat) (tickets : List Ticket) (s : Surroundings σ) (w : σ) :
    let attempts := (resumeAll rounds tickets s w).value.1
    attempts.map Stint.before <+: tickets.map Ticket.command ∧
      (attempts = [] ↔ tickets = []) := by
  induction tickets generalizing w with
  | nil => simp [resumeAll]
  | cons t behind ih =>
    by_cases completed : (t.serve rounds false s w).value.progress = .completed
    · have later := (ih (t.serve rounds false s w).world).1
      simp only [resumeAll, Act.bind_apply, completed, if_true, Act.pure_apply]
      exact ⟨by simpa [Ticket.serve] using later, by simp⟩
    · simp only [resumeAll, Act.bind_apply, completed, if_false, Act.pure_apply]
      simp [Ticket.serve]

end Docket

namespace Backlog

/-- The note that says what was asked. A drain is not noted if no command waits. -/
def opening (b : Backlog) (s : Surroundings σ) (w : σ) : Request → List Note
  | .write _ buffer peer => [.submitWrite peer buffer.length]
  | .flush connection _ => [.submitFlush (s.peerAddress connection w)]
  | .timer connection _ dispose => [.submitTimer (s.peerAddress connection w) dispose]
  | .drain => if b.isEmpty then [] else [.draining b.size]

/-- The commands that a request comes to, in their order: its own, or those that wait. -/
def inLine (b : Backlog) (r : Request) : List Command :=
  match r.command? b.policy with
  | some c => [c]
  | none => b.waiting

theorem length_opening (b : Backlog) (s : Surroundings σ) (w : σ) (r : Request) :
    (b.opening s w r).length = min 1 (b.inLine r).length := by
  cases r with
  | drain => cases waiting : b.waiting <;> simp [opening, inLine, Request.command?, isEmpty, waiting]
  | _ => rfl

theorem announce_notes (b : Backlog) {r : Request} {c : Command}
    (made : r.command? b.policy = some c) (s : Surroundings σ) (w : σ) :
    (r.announce s w).trace.notes = b.opening s w r := by
  cases r with
  | drain => cases made
  | _ => rfl

theorem docket_notes (rounds : Nat) (b : Backlog) (r : Request) (s : Surroundings σ) (w : σ) :
    let ran := b.docket.perform rounds r s w
    ran.trace.notes = b.opening s w r ++ (traceOf ran.value.1).notes := by
  have policy : b.docket.policy = b.policy := rfl
  unfold Docket.perform
  rw [policy]
  rcases made : r.command? b.policy with _ | c
  · obtain rfl := command?_eq_none made
    cases waiting : b.waiting with
    | nil => simp [docket, opening, isEmpty, waiting, traceOf]
    | cons c behind =>
      simp [docket, opening, isEmpty, size, waiting, Act.note, Docket.resumeAll_trace]
  · rw [← b.announce_notes made]
    simp [Docket.submit, Ticket.serve, traceOf]

theorem docket_before (rounds : Nat) (b : Backlog) (r : Request) (s : Surroundings σ) (w : σ) :
    let attempts := (b.docket.perform rounds r s w).value.1
    attempts.map Stint.before <+: b.inLine r ∧ (attempts = [] ↔ b.inLine r = []) := by
  have policy : b.docket.policy = b.policy := rfl
  unfold Docket.perform inLine
  rw [policy]
  rcases made : r.command? b.policy with _ | c
  · by_cases none : b.waiting = []
    · simp [docket, none]
    · obtain ⟨inOrder, some⟩ := Docket.resumeAll_before rounds b.docket.waiting s w
      have commands : b.docket.waiting.map Ticket.command = b.waiting :=
        congrArg Backlog.waiting (backlog_docket b)
      rw [commands] at inOrder
      have pending : b.docket.waiting.isEmpty = false := by
        simpa [docket] using none
      have some : (Docket.resumeAll rounds b.docket.waiting s w).value.1 = [] ↔
          b.waiting = [] := by
        rw [some, ← commands, List.map_eq_nil_iff]
      simp only [pending, Bool.false_eq_true, if_false]
      exact ⟨inOrder, some⟩
  · simp [Docket.submit, Ticket.serve]

end Backlog

/-! ## The law -/

/-- The log of an operation is well bracketed. It opens with one note of what was asked,
but for a drain of nothing. Then there is one block for each command that is attempted, in
the order in which they wait, and all but the last tell of a command that completed. The
length of the log depends on the attempts and the disposals alone, whatever the engines and
channels answer and however many datagrams they move. -/
theorem the_log_of_an_operation_is_bracketed (s : Surroundings σ) (rounds : Nat) (b : Backlog)
    (r : Backlog.Request) (w : σ) :
    let run := b.perform rounds r s w
    let attempts := (b.docket.perform rounds r s w).value.1
    (run.value.1 = concluded attempts ∧ run.trace.calls = (traceOf attempts).calls) ∧
      run.trace.notes = b.opening s w r ++ attempts.flatMap (fun st => st.trace.notes) ∧
      (∀ st ∈ attempts,
        (∃ w', (Ticket.serve rounds st.fresh ⟨st.number, st.before⟩ s w').value = st) ∧
          Bracketed st.before.kind st.progress (disposals st.trace.calls) st.trace.notes) ∧
      (attempts.map Stint.before <+: b.inLine r ∧ (attempts = [] ↔ b.inLine r = [])) ∧
      (∀ st ∈ attempts.dropLast, st.progress = .completed) ∧
      run.trace.notes.length + [run.value.1].count .unfinished =
        min 1 attempts.length + 2 * attempts.length + disposals run.trace.calls := by
  intro run attempts
  obtain ⟨erase, hist⟩ := b.perform_history rounds r s w
  have upToLast : Docket.UpToLast attempts := Docket.perform_upToLast rounds b.docket r s w
  have value : run.value.1 = concluded attempts := congrArg (fun ran => ran.value.1) erase
  have calls : run.trace.calls = (traceOf attempts).calls := by
    rw [← Docket.perform_calls]
    exact congrArg (fun ran => ran.trace.calls) erase
  have notes : run.trace.notes = b.opening s w r ++ (traceOf attempts).notes := by
    rw [← b.docket_notes]
    exact congrArg (fun ran => ran.trace.notes) erase
  obtain ⟨inOrder, none⟩ : attempts.map Stint.before <+: b.inLine r ∧
    (attempts = [] ↔ b.inLine r = []) := b.docket_before rounds r s w
  refine ⟨⟨value, calls⟩, ?_, ?_, ⟨inOrder, none⟩, upToLast, ?_⟩
  · rw [notes, notes_traceOf]
  · exact fun st mem => ⟨hist.served st mem, hist.bracketed st mem⟩
  · have blocks : (traceOf attempts).notes.length + (attempts.map Stint.progress).count .unfinished =
        2 * attempts.length + disposals (traceOf attempts).calls := length_blocks hist.bracketed
    rw [count_unfinished upToLast] at blocks
    -- the opening note is there exactly if something is attempted
    have first : (b.opening s w r).length = min 1 attempts.length := by
      have length := b.length_opening s w r
      rw [← List.length_eq_zero_iff, ← List.length_eq_zero_iff] at none
      omega
    rw [notes, List.length_append, calls, value, first]
    omega

/-- The engines have nothing left, and the second send is refused. -/
def Bench.once : Bench × List Bool := ({}, [false, true])

/-- A timer and a write wait. -/
def Bench.pair : Backlog where
  waiting := [putOff "left",
    .write ⟨⟨"out"⟩, ⟨"peer"⟩, some ((Buffer.withCapacity 8).append [9])⟩]

/-- A drain completes the timer, and the write is refused. -/
theorem the_log_of_an_operation_is_bracketed_on_the_workbench :
    let run := Bench.pair.perform 4 .drain workbench.impatient Bench.once
    run.trace.notes = [.draining 2, .attempting .quicTimeout, .disposing ⟨"left"⟩,
        .attempted .quicTimeout true, .attempting .channelWrite, .attempted .channelWrite false] ∧
      run.trace.notes.length = 1 + 2 * 2 + 1 := by
  have length := (the_log_of_an_operation_is_bracketed workbench.impatient 4 Bench.pair .drain
    Bench.once).2.2.2.2.2
  exact ⟨rfl, length⟩

end Outbox
