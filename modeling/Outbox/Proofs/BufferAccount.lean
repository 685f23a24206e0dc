-- The account of the buffers. A command takes a buffer when it needs one,
-- keeps it over all attempts, and gives it back once: when it is done, or when
-- it is given up. So the buffers that came in, less those that went back, are
-- those of the commands that wait.
import Outbox.Pool
import Outbox.Proofs.Accounts
import Outbox.Proofs.Courses

namespace Outbox

variable {σ : Type} {s : Surroundings σ} {w : σ}

/-! ## Entries of the account -/

def Call.isAcquire : Call → Bool
  | .acquire .. => true
  | _ => false

def Call.isRelease : Call → Bool
  | .release _ => true
  | _ => false

/-- How many buffers the calls took from the pool. -/
def acquires (calls : List Call) : Nat := calls.countP Call.isAcquire

/-- How many buffers the calls gave back. -/
def releases (calls : List Call) : Nat := calls.countP Call.isRelease

/-- How many buffers are in use: none or one. -/
def buffers (held : Option Buffer) : Nat := held.toList.length

@[simp] theorem acquires_nil : acquires [] = 0 := rfl

@[simp] theorem acquires_cons (c : Call) (l : List Call) :
    acquires (c :: l) = acquires l + if c.isAcquire then 1 else 0 := List.countP_cons

@[simp] theorem acquires_append (l m : List Call) : acquires (l ++ m) = acquires l + acquires m :=
  List.countP_append

@[simp] theorem releases_nil : releases [] = 0 := rfl

@[simp] theorem releases_cons (c : Call) (l : List Call) :
    releases (c :: l) = releases l + if c.isRelease then 1 else 0 := List.countP_cons

@[simp] theorem releases_append (l m : List Call) : releases (l ++ m) = releases l + releases m :=
  List.countP_append

@[simp] theorem buffers_none : buffers none = 0 := rfl

@[simp] theorem buffers_some (b : Buffer) : buffers (some b) = 1 := rfl

theorem buffers_of_isSome {held : Option Buffer} (h : held.isSome = true) : buffers held = 1 := by
  obtain ⟨b, rfl⟩ := Option.isSome_iff_exists.1 h
  rfl

/-! ## The account of an attempt -/

namespace EngineFlush

variable {f : EngineFlush} {b : Buffer} {r : Ran σ Turn}

theorem taken_buffers {buffer : Ran σ Buffer} (h : Taken s f w buffer) :
    buffers f.held + acquires buffer.trace.calls = 1 ∧ releases buffer.trace.calls = 0 := by
  cases h with
  | held held => simp [held]
  | acquired none given => simp [none, Call.isAcquire, Call.isRelease]

theorem transmitted_buffers (h : Transmitted s f b w r) :
    acquires r.trace.calls = 0 ∧ releases r.trace.calls + buffers r.value.flush.held = 1 := by
  cases h <;> simp [transmission, Turn.flush, Call.isAcquire, Call.isRelease]

theorem woundUp_buffers (h : WoundUp s f b w r) :
    acquires r.trace.calls = 0 ∧ releases r.trace.calls + buffers r.value.flush.held = 1 := by
  cases h <;> simp [Turn.flush, Call.isAcquire, Call.isRelease]

/-- A round that has its buffer keeps it, or gives it back. -/
theorem worked_buffers (h : Worked s f b w r) :
    acquires r.trace.calls = 0 ∧ releases r.trace.calls + buffers r.value.flush.held = 1 := by
  cases h with
  | resent full sent => exact transmitted_buffers sent
  | pollFailed empty polled => simp [Turn.flush, Call.isAcquire, Call.isRelease]
  | produced empty polled sent =>
    simpa [Call.isAcquire, Call.isRelease] using transmitted_buffers sent
  | ranDry empty polled woundUp =>
    simpa [Call.isAcquire, Call.isRelease] using woundUp_buffers woundUp

theorem rounded_buffers (h : Rounded s f w r) :
    buffers f.held + acquires r.trace.calls =
      releases r.trace.calls + buffers r.value.flush.held := by
  cases h with
  | intro taken worked =>
    obtain ⟨h1, h2⟩ := taken_buffers taken
    obtain ⟨h3, h4⟩ := worked_buffers worked
    simp only [trace_after, value_after, Trace.calls_append, acquires_append, releases_append]
    omega

end EngineFlush

theorem DatagramWrite.attempted_buffers {d : DatagramWrite}
    {r : Ran σ (Progress × DatagramWrite)} (h : Attempted s d w r) :
    buffers d.held + acquires r.trace.calls = releases r.trace.calls + buffers r.value.2.held := by
  cases h with
  | done none => simp [none]
  | empty held empty => simp [held, Call.isAcquire, Call.isRelease]
  | failed held full sent => simp [held, Call.isAcquire, Call.isRelease]
  | refused held full sent => simp [held, Call.isAcquire, Call.isRelease]
  | accepted held full sent => simp [held, Call.isAcquire, Call.isRelease]

/-- The account of buffers: the buffer in use and those acquired are those
released and the buffer in use now. -/
def bufferAccount (s : Surroundings σ) : Account s where
  Balances held calls held' := buffers held + acquires calls = releases calls + buffers held'
  nil _ := by simp
  append first second := by
    rw [acquires_append, releases_append]
    omega
  round h := EngineFlush.rounded_buffers h
  write h := DatagramWrite.attempted_buffers h
  fireTimer _ _ _ := by simp [Call.isAcquire, Call.isRelease]
  dispose _ _ := by simp [Call.isAcquire, Call.isRelease]

/-- To give a command up releases the buffer that it holds. -/
theorem parting_buffers (c : Command) (p : Progress) :
    acquires (c.parting p) = 0 ∧
      releases (c.parting p) =
        match p with
        | .failed _ => buffers c.held
        | .completed | .refused | .unfinished => 0 := by
  cases p with
  | failed e =>
    cases h : c.held <;> simp [Command.parting, h, Call.isAcquire, Call.isRelease]
  | _ => exact ⟨rfl, rfl⟩

/-- The account of one attempt. Whether it completes or fails, the command
leaves with no buffer. -/
theorem serve_buffers (rounds : Nat) (fresh : Bool) (t : Ticket) (w : σ) :
    let st := (t.serve rounds fresh s w).value
    buffers st.before.held + acquires st.trace.calls =
      releases st.trace.calls + st.kept fun c => buffers c.held := by
  intro st
  obtain ⟨hv, hc, -⟩ := Command.serve_eq rounds t.command s w
  have hb := (bufferAccount s).resume rounds t.command w
  have hd := (Command.held_of_resume rounds t.command s w).1
  obtain ⟨hp, hr⟩ := parting_buffers (t.command.resume rounds s w).value.2
    (t.command.resume rounds s w).value.1
  have hst : st = (t.serve rounds fresh s w).value := rfl
  simp only [hst, Stint.kept, Ticket.serve, hv, hc, acquires_append, releases_append, hp, hr]
  simp only [bufferAccount] at hb
  rcases h : (t.command.resume rounds s w).value.1 with _ | _ | e | _
  · simp only [hd h, buffers_none] at hb
    simpa [Progress.waits] using hb
  all_goals simpa [Progress.waits] using hb

/-! ## The account of a request -/

/-- Whether a request hands a buffer in. -/
def Backlog.Request.isWrite : Backlog.Request → Bool
  | .write .. => true
  | .flush .. | .timer .. | .drain => false

/-- The buffers of the commands that wait. -/
def Backlog.buffers (b : Backlog) : Nat := (b.waiting.map fun c => Outbox.buffers c.held).sum

theorem acquires_traceOf (h : List Stint) :
    acquires (traceOf h).calls = (h.map fun st => acquires st.trace.calls).sum := by
  induction h with
  | nil => rfl
  | cons st h ih => simpa [traceOf] using ih

theorem releases_traceOf (h : List Stint) :
    releases (traceOf h).calls = (h.map fun st => releases st.trace.calls).sum := by
  induction h with
  | nil => rfl
  | cons st h ih => simpa [traceOf] using ih

/-- The sum over all commands, at every moment of a run. -/
theorem History.buffers {rounds : Nat} {d₀ d : Docket} {w₀ : σ} {h : List Stint}
    (hist : History s rounds d₀ w₀ h d w) :
    d₀.backlog.buffers + ((h.filter Stint.fresh).map fun st => Outbox.buffers st.before.held).sum +
        acquires (traceOf h).calls =
      releases (traceOf h).calls + d.backlog.buffers := by
  have hb := hist.sum_balances (fun c => Outbox.buffers c.held)
    (fun st => acquires st.trace.calls) (fun st => releases st.trace.calls) serve_buffers
  simpa only [acquires_traceOf, releases_traceOf, Backlog.buffers, Docket.backlog, List.map_map,
    Function.comp_def] using hb

/-- A request keeps the account of the buffers in balance. -/
theorem Backlog.perform_buffers (rounds : Nat) (b : Backlog) (r : Request) (s : Surroundings σ)
    (w : σ) :
    let ran := b.perform rounds r s w
    b.buffers + (if r.isWrite then 1 else 0) + acquires ran.trace.calls =
      releases ran.trace.calls + ran.value.2.buffers := by
  obtain ⟨erase, hist⟩ := b.perform_history rounds r s w
  have hb := hist.buffers
  have hf := congrArg (fun l => (l.map fun c => Outbox.buffers (Command.held c)).sum)
    (Docket.perform_fresh rounds b.docket r s w)
  simp only [List.map_map, Function.comp_def] at hf
  have hw : ((r.command? b.docket.policy).toList.map fun c => Outbox.buffers c.held).sum =
      if r.isWrite then 1 else 0 := by
    cases r <;> simp [Request.command?, Request.isWrite, Command.held, TimerFlush.new]
  rw [hf, hw, backlog_docket, ← Docket.perform_calls] at hb
  rw [erase]
  exact hb

/-! ## Commands that wait hold a buffer -/

theorem serve_held (rounds : Nat) (fresh : Bool) (t : Ticket) (s : Surroundings σ) (w : σ) :
    let st := (t.serve rounds fresh s w).value
    st.progress.waits = true → st.progress ≠ .unfinished → st.after.held.isSome := by
  obtain ⟨hv, -, -⟩ := Command.serve_eq rounds t.command s w
  have hr := (Command.held_of_resume rounds t.command s w).2
  simp only [Ticket.serve, hv]
  intro waits done
  apply hr
  cases h : (t.command.resume rounds s w).value.1 <;> simp_all [Progress.waits]

/-- If every attempt came to its end, a command that waits was refused, and it
holds the buffer that was refused. -/
theorem History.held {rounds : Nat} {d₀ d : Docket} {w₀ : σ} {h : List Stint}
    (hist : History s rounds d₀ w₀ h d w) (before : ∀ t ∈ d₀.waiting, t.command.held.isSome)
    (finished : ∀ st ∈ h, st.progress ≠ .unfinished) :
    ∀ t ∈ d.waiting, t.command.held.isSome := by
  induction hist with
  | start => exact before
  | @submit h d w r c ran earlier made served ih =>
    have ih := ih fun st hst => finished st (List.mem_append_left _ hst)
    have hlast := finished ran.value (by simp)
    intro t ht
    rcases mem_enlist.1 ht with ht | ⟨rfl, waits⟩
    · exact ih t ht
    · subst served
      exact serve_held rounds true _ s w waits hlast
  | @resume h d w t behind ran earlier front served ih =>
    have ih := ih fun st hst => finished st (List.mem_append_left _ hst)
    have hlast := finished ran.value (by simp)
    intro u hu
    rcases mem_requeue.1 hu with ⟨rfl, waits⟩ | hu
    · subst served
      exact serve_held rounds false t s w waits hlast
    · exact ih u (front ▸ List.mem_cons_of_mem _ hu)

/-- An operation that came to its end consists of attempts that did. -/
theorem finished_of_concluded {stints : List Stint} (upToLast : Docket.UpToLast stints)
    (finished : concluded stints ≠ .unfinished) : ∀ st ∈ stints, st.progress ≠ .unfinished := by
  rcases List.eq_nil_or_concat stints with rfl | ⟨before, last, rfl⟩
  · simp
  · intro st hst
    rw [List.concat_eq_append] at *
    rcases List.mem_append.1 hst with hst | hst
    · rw [upToLast st (by simpa using hst)]
      simp
    · rw [List.mem_singleton.1 hst]
      simpa [concluded] using finished

theorem Backlog.perform_held (rounds : Nat) (b : Backlog) (r : Request) (s : Surroundings σ)
    (w : σ) (before : ∀ c ∈ b.waiting, c.held.isSome)
    (finished : (b.perform rounds r s w).value.1 ≠ .unfinished) :
    ∀ c ∈ (b.perform rounds r s w).value.2.waiting, c.held.isSome := by
  obtain ⟨erase, hist⟩ := b.perform_history rounds r s w
  rw [erase] at finished ⊢
  have hu := Docket.perform_upToLast rounds b.docket r s w
  have hh := hist.held (by simpa [docket] using before) (by
    simpa using finished_of_concluded hu finished)
  simpa [Docket.backlog] using hh

end Outbox
