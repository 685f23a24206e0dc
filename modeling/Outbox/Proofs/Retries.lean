-- Attempts at one command, one after the other, whatever comes of each. What an
-- attempt leaves in the command is what the next one goes on from, also when it
-- failed: a datagram that was not accepted is still in the buffer, and the buffer
-- is still in use. So over any attempts each datagram goes out once, and a failed
-- send leaves its command as a refused one does.
import Outbox.Proofs.Bouts

namespace Outbox

variable {σ : Type} {s : Surroundings σ} {rounds : Nat} {w w' : σ}

/-! ## The channel of a command -/

def Call.channel? : Call → Option Channel
  | .send channel .. => some channel
  | _ => none

/-- The call sends on this channel, or on none. -/
def Call.On (channel : Channel) (c : Call) : Prop := ∀ x, c.channel? = some x → x = channel

def Command.channel : Command → Channel
  | .write d => d.channel
  | .flush f => f.channel
  | .timer t => t.flush.channel

namespace EngineFlush

variable {f g : EngineFlush} {b : Buffer} {r : Ran σ Turn}

theorem transmitted_on (h : Transmitted s f b w r) : ∀ c ∈ r.trace.calls, c.On f.channel := by
  cases h <;> simp [transmission, Call.On, Call.channel?]

theorem woundUp_on (h : WoundUp s f b w r) : ∀ c ∈ r.trace.calls, c.On f.channel := by
  cases h <;> simp [Call.On, Call.channel?]

theorem rounded_on (h : Rounded s f w r) : ∀ c ∈ r.trace.calls, c.On f.channel := by
  cases h with
  | @intro buffer r taken worked =>
    have first : ∀ c ∈ buffer.trace.calls, c.On f.channel := by
      cases taken <;> simp [Call.On, Call.channel?]
    have polled : ∀ {c} {calls : List Call}, c.channel? = none → (∀ d ∈ calls, d.On f.channel) →
        ∀ d ∈ c :: calls, d.On f.channel := by
      intro c calls none rest
      exact List.forall_mem_cons.2 ⟨fun x hx => by simp [none] at hx, rest⟩
    have rest : ∀ c ∈ r.trace.calls, c.On f.channel := by
      cases worked with
      | resent full sent => exact transmitted_on sent
      | pollFailed empty poll => exact polled rfl (by simp)
      | produced empty poll sent => exact polled rfl (transmitted_on sent)
      | ranDry empty poll woundUp => exact polled rfl (woundUp_on woundUp)
    intro c hc
    rw [trace_after, Trace.calls_append] at hc
    exact (List.mem_append.1 hc).elim (first c) (rest c)

theorem attempt_on (rounds : Nat) (f : EngineFlush) (s : Surroundings σ) (w : σ) :
    ∀ c ∈ (f.attempt rounds s w).trace.calls, c.On f.channel := by
  refine attempt_induction (P := fun f _ x => ∀ c ∈ x.trace.calls, c.On f.channel)
    ?spent ?stop ?again rounds f w
  case spent => simp
  case stop => exact fun f w p g t w' round => rounded_on round
  case again =>
    intro f w g t w' x round later c hc
    have same : g.channel = f.channel := (rounded_course round).2.2.2.1
    rw [trace_after, Trace.calls_append] at hc
    rw [same] at later
    exact (List.mem_append.1 hc).elim (rounded_on round c) (later c)

end EngineFlush

namespace TimerFlush

variable {t : TimerFlush} {fired : Ran σ TimerFlush} {p : Progress} {flush : EngineFlush}
  {u : Trace}

theorem flushed_on (fire : Fired s t w fired)
    (ran : fired.value.flush.attempt rounds s fired.world = ⟨(p, flush), u, w'⟩) :
    (∀ c ∈ (fired.trace ++ u).calls, c.On t.flush.channel) ∧
      flush.channel = t.flush.channel := by
  have rest := fired.value.flush.attempt_on rounds s fired.world
  have same := (fired.value.flush.attempt_course rounds s fired.world).2.2.2.1
  rw [ran, value_of_fired fire] at rest same
  refine ⟨fun c hc => ?_, same⟩
  rw [Trace.calls_append] at hc
  rcases List.mem_append.1 hc with hc | hc
  · cases fire with
    | before => simp at hc
    | now =>
      obtain rfl := List.mem_singleton.1 hc
      simp [Call.On, Call.channel?]
  · exact rest c hc

theorem flushed_balances (fire : Fired s t w fired)
    (ran : fired.value.flush.attempt rounds s fired.world = ⟨(p, flush), u, w'⟩)
    (truthful : s.TellsTruth t.connection) :
    unsent t.flush.held ++ produced (fired.trace ++ u).calls =
      accepted (fired.trace ++ u).calls ++ unsent flush.held := by
  have balance := fired.value.flush.attempt_balances rounds s fired.world
  rw [ran, value_of_fired fire] at balance
  have quiet : produced fired.trace.calls = [] ∧ accepted fired.trace.calls = [] := by
    cases fire <;> simp [Call.produced?, Call.accepted?]
  rw [Trace.calls_append, produced_append, accepted_append, quiet.1, quiet.2]
  exact balance truthful

end TimerFlush

namespace Command

/-- An attempt sends on no channel but that of its command. -/
theorem resume_on (rounds : Nat) (c : Command) (s : Surroundings σ) (w : σ) :
    (∀ d ∈ (c.resume rounds s w).trace.calls, d.On c.channel) ∧
      (c.resume rounds s w).value.2.channel = c.channel := by
  cases c with
  | write d =>
    rw [resume_write]
    have h := DatagramWrite.attempted_iff.2 (rfl : d.attempt s w = _)
    generalize d.attempt s w = r at h
    cases h <;> simp [channel, Call.On, Call.channel?]
  | flush f =>
    rw [resume_flush]
    exact ⟨f.attempt_on rounds s w, (f.attempt_course rounds s w).2.2.2.1⟩
  | timer t =>
    rw [resume_timer]
    have h := TimerFlush.attempted_iff.2 (rfl : t.attempt rounds s w = _)
    generalize t.attempt rounds s w = r at h
    cases h with
    | fireFailed unfired rang => simp [channel, Call.On, Call.channel?]
    | stopped fire incomplete ran => exact TimerFlush.flushed_on fire ran
    | kept fire notDue ran => exact TimerFlush.flushed_on fire ran
    | disposed fire due ran =>
      obtain ⟨on, same⟩ := TimerFlush.flushed_on fire ran
      refine ⟨fun d hd => ?_, same⟩
      rw [Trace.calls_append] at hd
      rcases List.mem_append.1 hd with hd | hd
      · exact on d hd
      · obtain rfl := List.mem_singleton.1 hd
        simp [Call.On, Call.channel?]

/-- The account of the datagrams of one attempt, if the engine of its connection
tells the truth. -/
theorem resume_balances (rounds : Nat) (c : Command) (s : Surroundings σ) (w : σ)
    (truthful : ∀ x, c.connection? = some x → s.TellsTruth x) :
    let r := c.resume rounds s w
    unsent c.held ++ produced r.trace.calls = accepted r.trace.calls ++ unsent r.value.2.held := by
  cases c with
  | write d =>
    rw [resume_write]
    exact DatagramWrite.attempted_balances (DatagramWrite.attempted_iff.2 rfl)
  | flush f =>
    rw [resume_flush]
    exact f.attempt_balances rounds s w (truthful f.connection rfl)
  | timer t =>
    rw [resume_timer]
    have truthful := truthful t.connection rfl
    have h := TimerFlush.attempted_iff.2 (rfl : t.attempt rounds s w = _)
    generalize t.attempt rounds s w = r at h
    cases h with
    | fireFailed unfired rang => simp [held, Call.produced?, Call.accepted?]
    | stopped fire incomplete ran => exact TimerFlush.flushed_balances fire ran truthful
    | kept fire notDue ran => exact TimerFlush.flushed_balances fire ran truthful
    | disposed fire due ran =>
      have balance := TimerFlush.flushed_balances fire ran truthful
      simpa [held, produced_append, accepted_append, Call.produced?, Call.accepted?] using balance

/-! ## Attempts, whatever comes of them -/

/-- Attempts at a command, each of them in the state in which the last one left
it, whatever came of that. The list says in which world each begins. -/
def retry (rounds : Nat) (s : Surroundings σ) : Command → List σ → List Call × Command
  | c, [] => ([], c)
  | c, w :: later =>
    let first := c.attempt rounds s w
    let rest := retry rounds s first.value.2 later
    (first.trace.calls ++ rest.1, rest.2)

theorem retry_cons (rounds : Nat) (s : Surroundings σ) (c : Command) (w : σ) (later : List σ) :
    let first := c.resume rounds s w
    let rest := first.value.2.retry rounds s later
    c.retry rounds s (w :: later) = (first.trace.calls ++ rest.1, rest.2) := by
  obtain ⟨t, attempt, calls⟩ := c.attempt_eq rounds s w
  simp [retry, attempt, calls]

/-- What goes into a command over any attempts has gone out again, or is still
there: the datagrams in their order, and the buffers. The calls are those of its
own connection and its own channel. -/
theorem retry_balances (rounds : Nat) (s : Surroundings σ) (c : Command) (worlds : List σ)
    (truthful : ∀ x, c.connection? = some x → s.TellsTruth x) :
    let run := c.retry rounds s worlds
    unsent c.held ++ produced run.1 = accepted run.1 ++ unsent run.2.held ∧
      buffers c.held + acquires run.1 = releases run.1 + buffers run.2.held ∧
      ∀ d ∈ run.1, d.About c.connection? ∧ d.On c.channel := by
  induction worlds generalizing c with
  | nil => simp [retry]
  | cons w later ih =>
    obtain ⟨course, connection⟩ := c.resume_course rounds s w
    obtain ⟨on, channel⟩ := c.resume_on rounds s w
    have sent := c.resume_balances rounds s w truthful
    have used : buffers c.held + acquires _ = releases _ + buffers _ :=
      (bufferAccount s).resume rounds c w
    obtain ⟨sent', used', own⟩ := ih (c.resume rounds s w).value.2 (by rwa [connection])
    rw [connection, channel] at own
    rw [retry_cons]
    refine ⟨?_, ?_, fun d hd => ?_⟩
    · rw [produced_append, accepted_append, ← List.append_assoc, sent, List.append_assoc, sent',
        List.append_assoc]
    · simp only [acquires_append, releases_append]
      omega
    · rcases List.mem_append.1 hd with hd | hd
      · exact ⟨course.lawful d hd, on d hd⟩
      · exact own d hd

end Command

/-! ## Failed sends, refused instead -/

/-- The same surroundings, where a send that fails is refused instead. The world
that it leaves then can be any. -/
def Surroundings.lenient (s : Surroundings σ) (after : Channel → Bytes → Address → σ → σ) :
    Surroundings σ :=
  { s with
    send := fun channel datagram destination w =>
      match s.send channel datagram destination w with
      | (.error _, _) => (.ok 0, after channel datagram destination w)
      | (.ok n, w') => (.ok n, w') }

/-- The calls are the same but for the last. The send that failed there is
refused here. -/
def RefusedInstead (e : ChannelFault) (calls calls' : List Call) : Prop :=
  ∃ earlier channel datagram destination,
    calls = earlier ++ [.send channel datagram destination (.error e)] ∧
      calls' = earlier ++ [.send channel datagram destination (.ok 0)]

variable {e : ChannelFault} {after : Channel → Bytes → Address → σ → σ}

theorem RefusedInstead.append {calls calls' : List Call} (before : List Call)
    (h : RefusedInstead e calls calls') :
    RefusedInstead e (before ++ calls) (before ++ calls') := by
  obtain ⟨earlier, channel, datagram, destination, rfl, rfl⟩ := h
  exact ⟨before ++ earlier, channel, datagram, destination, by simp, by simp⟩

namespace EngineFlush

variable {f g : EngineFlush} {b : Buffer} {r : Ran σ Turn} {t : Trace}

theorem taken_lenient {buffer : Ran σ Buffer} (h : Taken s f w buffer) :
    Taken (s.lenient after) f w buffer := by
  cases h with
  | held held => exact .held held
  | acquired none given => exact .acquired none given

theorem woundUp_lenient (h : WoundUp s f b w r) : WoundUp (s.lenient after) f b w r := by
  cases h with
  | notDue due => exact .notDue due
  | notClosing due asked => exact .notClosing due asked
  | closeFailed due asked forced => exact .closeFailed due asked forced
  | closed due asked forced => exact .closed due asked forced
  | notClosed due asked forced => exact .notClosed due asked forced

theorem transmitted_lenient (h : Transmitted s f b w r) (again : r.value = .again g) :
    Transmitted (s.lenient after) f b w r := by
  cases h with
  | accepted sent => exact .accepted (by simp [Surroundings.lenient, sent])
  | failed sent => cases again
  | refused sent => cases again

theorem transmitted_refused (after : Channel → Bytes → Address → σ → σ)
    (h : Transmitted s f b w r) (failed : r.value = .stop (.failed (.channel e)) g) :
    ∃ u w', Transmitted (s.lenient after) f b w ⟨.stop .refused g, u, w'⟩ ∧
      RefusedInstead e r.trace.calls u.calls := by
  cases h with
  | failed sent =>
    cases failed
    refine ⟨_, _, .refused (by simp [Surroundings.lenient, sent]; rfl), ?_⟩
    exact ⟨[_], f.channel, b.contents, _, rfl, rfl⟩
  | refused sent => cases failed
  | accepted sent => cases failed

/-- A round that is not the last goes the same way. -/
theorem rounded_lenient (h : Rounded s f w r) (again : r.value = .again g) :
    Rounded (s.lenient after) f w r := by
  cases h with
  | intro taken worked =>
    refine .intro (taken_lenient taken) ?_
    cases worked with
    | resent full sent => exact .resent full (transmitted_lenient sent again)
    | pollFailed empty polled => cases again
    | produced empty polled sent => exact .produced empty polled (transmitted_lenient sent again)
    | ranDry empty polled woundUp => exact .ranDry empty polled (woundUp_lenient woundUp)

/-- A round where a send failed leaves the same flush if the send is refused. -/
theorem rounded_refused_instead (after : Channel → Bytes → Address → σ → σ) (h : Rounded s f w r)
    (failed : r.value = .stop (.failed (.channel e)) g) :
    ∃ u w', Rounded (s.lenient after) f w ⟨.stop .refused g, u, w'⟩ ∧
      RefusedInstead e r.trace.calls u.calls := by
  cases h with
  | @intro buffer r taken worked =>
    have taken' : Taken (s.lenient after) f w buffer := taken_lenient taken
    cases worked with
    | resent full sent =>
      obtain ⟨u, w', sent', calls⟩ := transmitted_refused after sent failed
      refine ⟨_, _, .intro taken' (.resent full sent'), ?_⟩
      simpa using calls.append buffer.trace.calls
    | pollFailed empty polled => cases failed
    | @produced bytes n w₁ r empty polled sent =>
      obtain ⟨u, w', sent', calls⟩ := transmitted_refused after sent failed
      refine ⟨_, _, .intro taken' (.produced empty polled sent'), ?_⟩
      simpa using (calls.append [_]).append buffer.trace.calls
    | ranDry empty polled woundUp => cases woundUp <;> cases failed

theorem attempt_lenient (after : Channel → Bytes → Address → σ → σ) (rounds : Nat)
    (f : EngineFlush) (s : Surroundings σ) (w : σ) :
    let r := f.attempt rounds s w
    let r' := f.attempt rounds (s.lenient after) w
    r.value.1 = .failed (.channel e) →
      r'.value = (.refused, r.value.2) ∧ RefusedInstead e r.trace.calls r'.trace.calls := by
  induction rounds generalizing f w with
  | zero =>
    intro r r' failed
    cases failed
  | succ rounds ih =>
    have round := rounded_round s f w
    rcases turn : f.round s w with ⟨g | ⟨p, g⟩, t, w'⟩ <;> rw [turn] at round
    · have round' : Rounded (s.lenient after) f w ⟨.again g, t, w'⟩ := rounded_lenient round rfl
      rw [attempt_again rounds round, attempt_again rounds round']
      intro r r' failed
      obtain ⟨value, calls⟩ := ih g w' failed
      refine ⟨value, ?_⟩
      simpa [r, r'] using calls.append t.calls
    · rw [attempt_stop rounds round]
      intro r r' failed
      obtain rfl : p = .failed (.channel e) := failed
      obtain ⟨u, w'', round', calls⟩ := rounded_refused_instead after round rfl
      simp only [r', attempt_stop rounds round']
      exact ⟨rfl, calls⟩

end EngineFlush

namespace Command

/-- A command whose send failed is left as if that send had been refused. -/
theorem resume_lenient (after : Channel → Bytes → Address → σ → σ) (rounds : Nat) (c : Command)
    (s : Surroundings σ) (w : σ) (failed : (c.resume rounds s w).value.1 = .failed (.channel e)) :
    (c.resume rounds (s.lenient after) w).value = (.refused, (c.resume rounds s w).value.2) ∧
      RefusedInstead e (c.resume rounds s w).trace.calls
        (c.resume rounds (s.lenient after) w).trace.calls := by
  cases c with
  | write d =>
    simp only [resume_write] at failed ⊢
    have h := DatagramWrite.attempted_iff.2 (rfl : d.attempt s w = _)
    generalize d.attempt s w = r at h failed
    cases h with
    | @failed b _ _ held full sent =>
      cases failed
      have refused : DatagramWrite.Attempted (s.lenient after) d w _ :=
        .refused held full (by simp [Surroundings.lenient, sent]; rfl)
      rw [DatagramWrite.attempted_iff.1 refused]
      exact ⟨rfl, [], d.channel, b.contents, d.peer, rfl, rfl⟩
    | _ => cases failed
  | flush f =>
    simp only [resume_flush] at failed ⊢
    obtain ⟨value, calls⟩ := f.attempt_lenient after rounds s w failed
    exact ⟨by rw [value], calls⟩
  | timer t =>
    simp only [resume_timer] at failed ⊢
    have h := TimerFlush.attempted_iff.2 (rfl : t.attempt rounds s w = _)
    generalize t.attempt rounds s w = r at h failed
    cases h with
    | @stopped fired p flush u w₂ fire incomplete ran =>
      obtain rfl : p = .failed (.channel e) := failed
      have fire' : TimerFlush.Fired (s.lenient after) t w fired := by
        cases fire with
        | before fired => exact .before fired
        | now unfired rang => exact .now unfired rang
      have lenient := fired.value.flush.attempt_lenient (e := e) after rounds s fired.world
      rw [ran] at lenient
      obtain ⟨value, calls⟩ := lenient rfl
      rcases ran' : fired.value.flush.attempt rounds (s.lenient after) fired.world with
        ⟨⟨p', flush'⟩, u', w₂'⟩
      rw [ran'] at value calls
      cases value
      have refused : TimerFlush.Attempted (s.lenient after) rounds t w _ :=
        .stopped fire' (by simp) ran'
      rw [TimerFlush.attempted_iff.1 refused]
      refine ⟨rfl, ?_⟩
      simpa using calls.append fired.trace.calls
    | _ => cases failed

/-- The same of an attempt with its notes. -/
theorem attempt_lenient (after : Channel → Bytes → Address → σ → σ) (rounds : Nat) (c : Command)
    (s : Surroundings σ) (w : σ)
    (failed : (c.attempt rounds s w).value.1 = .failed (.channel e)) :
    (c.attempt rounds (s.lenient after) w).value = (.refused, (c.attempt rounds s w).value.2) ∧
      RefusedInstead e (c.attempt rounds s w).trace.calls
        (c.attempt rounds (s.lenient after) w).trace.calls := by
  obtain ⟨t, attempt, calls⟩ := c.attempt_eq rounds s w
  obtain ⟨t', attempt', calls'⟩ := c.attempt_eq rounds (s.lenient after) w
  rw [attempt] at failed
  simp only [attempt, attempt', calls, calls']
  exact c.resume_lenient after rounds s w failed

end Command

/-! ## The law -/

/-- A new command has a buffer if it is a write, and holds what was handed in. -/
theorem held_of_made {policy : Policy} {r : Backlog.Request} {c : Command}
    (made : r.command? policy = some c) :
    unsent c.held = handedIn [r] ∧ buffers c.held = if r.isWrite then 1 else 0 := by
  cases r <;> cases made <;>
    simp [handedIn, Backlog.Request.isWrite, Command.held, TimerFlush.new]

/-- A command stays exactly-once under any retries, even after errors. Whatever
comes of the attempts, and whatever happens between them: the datagrams handed
in, or produced by the engine of the command, are those that its channel
accepted, in the same order, and the one that it still holds. It has a buffer
exactly as long as it took one more than it gave back, where a write comes with
its own. And an attempt whose send failed leaves it as if that send had been
refused. -/
theorem a_command_sends_exactly_once (s : Surroundings σ) (policy : Policy)
    {r : Backlog.Request} {c : Command} (made : r.command? policy = some c)
    (truthful : ∀ x, c.connection? = some x → s.TellsTruth x) (rounds : Nat) (worlds : List σ) :
    let run := c.retry rounds s worlds
    handedIn [r] ++ produced run.1 = accepted run.1 ++ unsent run.2.held ∧
      (if r.isWrite then 1 else 0) + acquires run.1 = releases run.1 + buffers run.2.held ∧
      (∀ call ∈ run.1, call.About c.connection? ∧ call.On c.channel) ∧
      ∀ w e after,
        let attempt := run.2.attempt rounds s w
        let refused := run.2.attempt rounds (s.lenient after) w
        attempt.value.1 = .failed (.channel e) →
          refused.value = (.refused, attempt.value.2) ∧
            RefusedInstead e attempt.trace.calls refused.trace.calls := by
  intro run
  obtain ⟨handed, given⟩ := held_of_made made
  obtain ⟨sent, used, own⟩ := c.retry_balances rounds s worlds truthful
  rw [handed] at sent
  rw [given] at used
  exact ⟨sent, used, own, fun w e after => run.2.attempt_lenient after rounds s w⟩

/-- The workbench where every send fails. -/
def Bench.cutOff : Surroundings Bench :=
  { workbench with send := fun _ _ _ w => (.error (.bare .networkDown), w) }

/-- A flush tries three times to send the first of two datagrams, and fails. It
still has this one, and no other, in its buffer. A refused send would leave it
the same. -/
theorem a_command_sends_exactly_once_when_cut_off :
    let r : Backlog.Request := .flush ⟨"left"⟩ ⟨"out"⟩
    let c : Command :=
      .flush { purpose := .send, connection := ⟨"left"⟩, channel := ⟨"out"⟩, policy := .standard }
    let run := c.retry 4 Bench.cutOff [Bench.busy.1, Bench.busy.1]
    let third := run.2.attempt 4 Bench.cutOff Bench.busy.1
    let refused := run.2.attempt 4 (Bench.cutOff.lenient fun _ _ _ w => w) Bench.busy.1
    r.command? .standard = some c ∧ (∀ x, c.connection? = some x → Bench.cutOff.TellsTruth x) ∧
      produced run.1 = [[1]] ∧ third.value.1 = .failed (.channel (.bare .networkDown)) ∧
      [[1]] = accepted run.1 ++ unsent run.2.held ∧ 0 + acquires run.1 = releases run.1 + 1 ∧
      refused.value = (.refused, third.value.2) := by
  intro r c run third refused
  have made : r.command? .standard = some c := rfl
  have truthful : ∀ x, c.connection? = some x → Bench.cutOff.TellsTruth x := fun _ _ _ _ => rfl
  obtain ⟨sent, used, -, failed⟩ := a_command_sends_exactly_once Bench.cutOff .standard made
    truthful 4 [Bench.busy.1, Bench.busy.1]
  exact ⟨made, truthful, rfl, rfl, sent, used, (failed Bench.busy.1 _ (fun _ _ _ w => w) rfl).1⟩

end Outbox
