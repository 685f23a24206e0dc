-- The world changes only by calls. A course is a list of calls that leads
-- from one world to another, each call with the answer that it gets. Every
-- attempt runs such a course, and calls on no connection but its own.
import Outbox.Proofs.Attempts

namespace Outbox

variable {σ : Type} {s : Surroundings σ} {w w₁ w₂ : σ}

/-! ## Courses -/

/-- The connection that a call is made on. -/
def Call.connection? : Call → Option Connection
  | .produce c .. | .peerAddress c _ | .fireTimer c _ | .isClosing c _ | .finaliseClose c _
  | .dispose c => some c
  | .acquire .. | .release _ | .send .. => none

/-- In the world `w` the call gets its answer, and leads to the other world. -/
def Surroundings.Takes (s : Surroundings σ) (w : σ) : Call → σ → Prop
  | .acquire least direct given, w₁ => s.acquire least direct w = (given, w₁)
  | .release b, w₁ => s.release b w = w₁
  | .produce c b appended answer, w₁ => s.produce c b w = ((appended, answer), w₁)
  | .peerAddress c answer, w₁ => s.peerAddress c w = answer ∧ w = w₁
  | .fireTimer c answer, w₁ => s.fireTimer c w = (answer, w₁)
  | .isClosing c answer, w₁ => s.isClosing c w = (answer, w₁)
  | .finaliseClose c answer, w₁ => s.finaliseClose c w = (answer, w₁)
  | .dispose c, w₁ => s.dispose c w = w₁
  | .send ch datagram destination answer, w₁ => s.send ch datagram destination w = (answer, w₁)

/-- The calls, all of them allowed, lead from one world to the other. -/
inductive Course (s : Surroundings σ) (allowed : Call → Prop) : σ → List Call → σ → Prop where
  | nil (w : σ) : Course s allowed w [] w
  | cons {w w₁ w₂ : σ} {c : Call} {calls : List Call} (lawful : allowed c)
      (takes : s.Takes w c w₁) (rest : Course s allowed w₁ calls w₂) :
      Course s allowed w (c :: calls) w₂

namespace Course

variable {allowed : Call → Prop} {l m : List Call}

theorem single {c : Call} (ha : allowed c) (takes : s.Takes w c w₁) :
    Course s allowed w [c] w₁ := .cons ha takes (.nil _)

theorem append (hl : Course s allowed w l w₁) (hm : Course s allowed w₁ m w₂) :
    Course s allowed w (l ++ m) w₂ := by
  induction hl with
  | nil => exact hm
  | cons ha takes _ ih => exact .cons ha takes (ih hm)

theorem mono {allowed' : Call → Prop} (h : ∀ c, allowed c → allowed' c)
    (hl : Course s allowed w l w₁) : Course s allowed' w l w₁ := by
  induction hl with
  | nil => exact .nil _
  | cons ha takes _ ih => exact .cons (h _ ha) takes ih

theorem lawful (hl : Course s allowed w l w₁) : ∀ c ∈ l, allowed c := by
  induction hl with
  | nil => simp
  | cons ha takes _ ih =>
    intro c hc
    rcases List.mem_cons.1 hc with rfl | hc
    · exact ha
    · exact ih c hc

/-- Where each call that counts uses up a part of what the world has left, no
more of them are made than it has. -/
theorem spends {left : σ → Nat} {counts : Call → Bool}
    (step : ∀ {c w w'}, s.Takes w c w' → left w' + (if counts c then 1 else 0) ≤ left w)
    (hl : Course s allowed w l w₁) : left w₁ + l.countP counts ≤ left w := by
  induction hl with
  | nil => exact Nat.le_refl _
  | cons ha takes _ ih =>
    have first := step takes
    rw [List.countP_cons]
    omega

end Course

/-- The call is on this connection, or on none. -/
def Call.About (connection : Option Connection) (c : Call) : Prop :=
  ∀ x, c.connection? = some x → connection = some x

theorem Call.about_self {c : Call} {x : Connection} (h : c.connection? = some x) :
    c.About (some x) := fun _ hy => h ▸ hy

theorem Call.about_none {c : Call} {x : Option Connection} (h : c.connection? = none) :
    c.About x := fun _ hy => by simp [h] at hy

/-! ## The courses of a flush -/

namespace EngineFlush

variable {f : EngineFlush} {b : Buffer} {r : Ran σ Turn}

/-- What no attempt changes about a flush. -/
def Same (f g : EngineFlush) : Prop :=
  g.purpose = f.purpose ∧ g.connection = f.connection ∧ g.channel = f.channel ∧
    g.policy = f.policy

theorem taken_course {buffer : Ran σ Buffer} (h : Taken s f w buffer) :
    Course s (Call.About (some f.connection)) w buffer.trace.calls buffer.world := by
  cases h with
  | held => exact .nil _
  | acquired none given => exact .single (Call.about_none rfl) given

theorem transmission_course {answer : Except ChannelFault Nat}
    (sent : s.send f.channel b.contents (s.peerAddress f.connection w) w = (answer, w₁)) :
    Course s (Call.About (some f.connection)) w (f.transmission s b w answer).calls w₁ :=
  .cons (Call.about_self rfl) ⟨rfl, rfl⟩ (.single (Call.about_none rfl) sent)

theorem transmitted_course (h : Transmitted s f b w r) :
    Course s (Call.About (some f.connection)) w r.trace.calls r.world ∧
      f.Same r.value.flush := by
  cases h with
  | failed sent => exact ⟨transmission_course sent, rfl, rfl, rfl, rfl⟩
  | refused sent => exact ⟨transmission_course sent, rfl, rfl, rfl, rfl⟩
  | accepted sent => exact ⟨transmission_course sent, rfl, rfl, rfl, rfl⟩

theorem woundUp_course (h : WoundUp s f b w r) :
    Course s (Call.About (some f.connection)) w r.trace.calls r.world ∧
      f.Same r.value.flush := by
  have about : ∀ {c : Call}, c.connection? = some f.connection →
      c.About (some f.connection) := Call.about_self
  have release : ∀ w, Course s (Call.About (some f.connection)) w [.release b] (s.release b w) :=
    fun w => .single (Call.about_none rfl) rfl
  cases h with
  | notDue due => exact ⟨release w, rfl, rfl, rfl, rfl⟩
  | notClosing due asked => exact ⟨.cons (about rfl) asked (release _), rfl, rfl, rfl, rfl⟩
  | closeFailed due asked forced =>
    exact ⟨.cons (about rfl) asked (.single (about rfl) forced), rfl, rfl, rfl, rfl⟩
  | closed due asked forced =>
    exact ⟨.cons (about rfl) asked (.single (about rfl) forced), rfl, rfl, rfl, rfl⟩
  | notClosed due asked forced =>
    exact ⟨.cons (about rfl) asked (.cons (about rfl) forced (release _)), rfl, rfl, rfl, rfl⟩

theorem worked_course (h : Worked s f b w r) :
    Course s (Call.About (some f.connection)) w r.trace.calls r.world ∧
      f.Same r.value.flush := by
  cases h with
  | resent full sent => exact transmitted_course sent
  | pollFailed empty polled => exact ⟨.single (Call.about_self rfl) polled, rfl, rfl, rfl, rfl⟩
  | produced empty polled sent =>
    obtain ⟨hc, hs⟩ := transmitted_course sent
    exact ⟨.cons (Call.about_self rfl) polled hc, hs⟩
  | ranDry empty polled woundUp =>
    obtain ⟨hc, hs⟩ := woundUp_course woundUp
    exact ⟨.cons (Call.about_self rfl) polled hc, hs⟩

theorem rounded_course (h : Rounded s f w r) :
    Course s (Call.About (some f.connection)) w r.trace.calls r.world ∧
      f.Same r.value.flush := by
  cases h with
  | intro taken worked =>
    obtain ⟨hc, hs⟩ := worked_course worked
    rw [trace_after, Trace.calls_append]
    exact ⟨(taken_course taken).append hc, hs⟩

theorem attempt_course (rounds : Nat) (f : EngineFlush) (s : Surroundings σ) (w : σ) :
    let r := f.attempt rounds s w
    Course s (Call.About (some f.connection)) w r.trace.calls r.world ∧ f.Same r.value.2 := by
  induction rounds generalizing f w with
  | zero => exact ⟨.nil _, rfl, rfl, rfl, rfl⟩
  | succ rounds ih =>
    have hr := rounded_round s f w
    obtain ⟨hc, hs⟩ := rounded_course hr
    rcases hv : f.round s w with ⟨g | ⟨p, g⟩, t, w'⟩ <;> rw [hv] at hr hc hs
    · obtain ⟨hc', hs'⟩ := ih g w'
      obtain ⟨h1, h2, h3, h4⟩ : f.Same g := hs
      obtain ⟨h1', h2', h3', h4'⟩ := hs'
      rw [h2] at hc'
      simp only [attempt_again rounds hr, trace_after, value_after, world_after,
        Trace.calls_append]
      exact ⟨hc.append hc', h1'.trans h1, h2'.trans h2, h3'.trans h3, h4'.trans h4⟩
    · rw [attempt_stop rounds hr]
      exact ⟨hc, hs⟩

end EngineFlush

/-! ## The courses of a command -/

theorem DatagramWrite.attempt_course (d : DatagramWrite) (s : Surroundings σ) (w : σ) :
    let r := d.attempt s w
    Course s (Call.About none) w r.trace.calls r.world := by
  have h := attempted_iff.2 (rfl : d.attempt s w = _)
  generalize d.attempt s w = r at h
  cases h with
  | done => exact .nil _
  | empty held empty => exact .single (Call.about_none rfl) rfl
  | failed held full sent => exact .single (Call.about_none rfl) sent
  | refused held full sent => exact .single (Call.about_none rfl) sent
  | accepted held full sent =>
    exact .cons (Call.about_none rfl) sent (.single (Call.about_none rfl) rfl)

theorem TimerFlush.flushed_course {rounds : Nat} {t : TimerFlush} {fired : Ran σ TimerFlush}
    {p : Progress} {flush : EngineFlush} {u : Trace} (fire : Fired s t w fired)
    (ran : fired.value.flush.attempt rounds s fired.world = ⟨(p, flush), u, w₂⟩) :
    Course s (Call.About (some t.connection)) w (fired.trace ++ u).calls w₂ ∧
      flush.connection = t.connection := by
  obtain ⟨hc, hs⟩ := EngineFlush.attempt_course rounds fired.value.flush s fired.world
  rw [ran] at hc hs
  cases fire with
  | before => exact ⟨hc, hs.2.1⟩
  | now unfired rang => exact ⟨.cons (Call.about_self rfl) rang hc, hs.2.1⟩

theorem TimerFlush.attempt_course (rounds : Nat) (t : TimerFlush) (s : Surroundings σ) (w : σ) :
    let r := t.attempt rounds s w
    Course s (Call.About (some t.connection)) w r.trace.calls r.world ∧
      r.value.2.connection = t.connection := by
  have h := attempted_iff.2 (rfl : t.attempt rounds s w = _)
  generalize t.attempt rounds s w = r at h
  cases h with
  | fireFailed unfired rang => exact ⟨.single (Call.about_self rfl) rang, rfl⟩
  | stopped fire incomplete ran => exact flushed_course fire ran
  | kept fire notDue ran => exact flushed_course fire ran
  | disposed fire due ran =>
    obtain ⟨hc, hs⟩ := flushed_course fire ran
    refine ⟨?_, hs⟩
    have last : Call.About (some t.connection) (.dispose _) := Call.about_self (congrArg some hs)
    rw [Trace.calls_append]
    exact hc.append (.single last rfl)

/-- An attempt runs a course, and calls on no connection but its own. -/
theorem Command.resume_course (rounds : Nat) (c : Command) (s : Surroundings σ) (w : σ) :
    let r := c.resume rounds s w
    Course s (Call.About c.connection?) w r.trace.calls r.world ∧
      r.value.2.connection? = c.connection? := by
  cases c with
  | write d =>
    rw [resume_write]
    exact ⟨d.attempt_course s w, rfl⟩
  | flush f =>
    rw [resume_flush]
    obtain ⟨hc, hs⟩ := EngineFlush.attempt_course rounds f s w
    exact ⟨hc, congrArg some hs.2.1⟩
  | timer t =>
    rw [resume_timer]
    obtain ⟨hc, hs⟩ := TimerFlush.attempt_course rounds t s w
    exact ⟨hc, congrArg some hs⟩

/-- To give a command up is at most a release. -/
theorem Command.leave_course (c : Command) (p : Progress) (s : Surroundings σ) (w : σ) :
    Course s (Call.About c.connection?) w (c.parting p) (c.leave s w p) := by
  cases p with
  | failed e =>
    unfold parting leave
    cases c.held with
    | none => exact .nil w
    | some b => exact .single (Call.about_none rfl) rfl
  | _ => exact .nil w

theorem Command.serve_course (rounds : Nat) (c : Command) (s : Surroundings σ) (w : σ) :
    Course s (Call.About c.connection?) w (c.serve rounds s w).trace.calls
        (c.serve rounds s w).world ∧
      (c.serve rounds s w).value.2.connection? = c.connection? := by
  obtain ⟨hv, hc, hw⟩ := serve_eq rounds c s w
  obtain ⟨work, same⟩ := resume_course rounds c s w
  rw [hv, hc, hw]
  refine ⟨work.append ?_, same⟩
  rw [← same]
  exact leave_course _ _ s _

/-! ## The courses of a run -/

theorem History.course {rounds : Nat} {d₀ d : Docket} {w₀ : σ} {h : List Stint}
    (hist : History s rounds d₀ w₀ h d w) :
    Course s (fun _ => True) w₀ (traceOf h).calls w := by
  induction hist with
  | start => exact .nil _
  | @submit h d w r c ran earlier made served ih =>
    subst served
    have hc := (Command.serve_course rounds c s w).1
    rw [traceOf_append, Trace.calls_append]
    apply ih.append
    simpa [traceOf, Ticket.serve] using hc.mono fun _ _ => trivial
  | @resume h d w t behind ran earlier front served ih =>
    subst served
    have hc := (Command.serve_course rounds t.command s w).1
    rw [traceOf_append, Trace.calls_append]
    apply ih.append
    simpa [traceOf, Ticket.serve] using hc.mono fun _ _ => trivial

theorem Backlog.perform_course (rounds : Nat) (b : Backlog) (r : Request) (s : Surroundings σ)
    (w : σ) :
    Course s (fun _ => True) w (b.perform rounds r s w).trace.calls
      (b.perform rounds r s w).world := by
  obtain ⟨erase, hist⟩ := b.perform_history rounds r s w
  have course := hist.course
  rw [← Docket.perform_calls] at course
  rw [erase]
  exact course

theorem Backlog.performAll_course (rounds : Nat) (b : Backlog) (requests : List Request)
    (s : Surroundings σ) (w : σ) :
    Course s (fun _ => True) w (b.performAll rounds requests s w).trace.calls
      (b.performAll rounds requests s w).world := by
  induction requests generalizing b w with
  | nil => exact .nil w
  | cons r rest ih =>
    have first := b.perform_course rounds r s w
    have later := ih (b.perform rounds r s w).value.2 (b.perform rounds r s w).world
    simpa [performAll] using first.append later

end Outbox
