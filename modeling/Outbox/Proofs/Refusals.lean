-- What an attempt leaves of a command that it does not bring to its end. It
-- puts the command off only by a refused send, so the command keeps the buffer
-- of this send, and its timer, if it has one, has fired. An attempt fires no
-- timer that has fired before, and takes no buffer while it holds one.
import Outbox.Proofs.BufferAccount

namespace Outbox

variable {σ : Type} {s : Surroundings σ} {rounds : Nat} {w w' : σ}

/-! ## Calls told apart -/

/-- The connection whose timer a call fires. -/
def Call.firing? : Call → Option Connection
  | .fireTimer connection _ => some connection
  | _ => none

/-- The connections whose timers some calls fire. -/
def firings (calls : List Call) : List Connection := calls.filterMap Call.firing?

@[simp] theorem firings_nil : firings [] = [] := rfl

@[simp] theorem firings_append (l m : List Call) : firings (l ++ m) = firings l ++ firings m :=
  List.filterMap_append

/-- A call that a flush may make. It fires no timer and disposes no connection. -/
def Call.ofFlush : Call → Bool
  | .fireTimer .. | .dispose _ => false
  | _ => true

theorem firings_of_flush {calls : List Call} (flushing : ∀ c ∈ calls, c.ofFlush = true) :
    firings calls = [] := by
  apply List.filterMap_eq_nil_iff.2
  intro c hc
  have := flushing c hc
  cases c <;> simp_all [Call.ofFlush, Call.firing?]

/-- A poll that answers a count above zero and yet leaves the buffer empty. -/
def Call.isHollow : Call → Bool
  | .produce _ b appended (.ok (_ + 1)) => (b ++ appended).isEmpty
  | _ => false

/-- The calls end with a refused send of what is held. This is no empty
datagram, unless it comes of a hollow poll. -/
def EndsRefused (calls : List Call) (held : Option Buffer) : Prop :=
  ∃ earlier channel destination b, held = some b ∧
    calls = earlier ++ [.send channel b.contents destination (.ok 0)] ∧
    (b.isEmpty = true → ∃ c ∈ earlier, c.isHollow = true)

theorem endsRefused_append {calls : List Call} {held : Option Buffer} (before : List Call)
    (ends : EndsRefused calls held) : EndsRefused (before ++ calls) held := by
  obtain ⟨earlier, channel, destination, b, rfl, rfl, hollow⟩ := ends
  refine ⟨before ++ earlier, channel, destination, b, rfl, by simp, fun empty => ?_⟩
  obtain ⟨c, hc, hh⟩ := hollow empty
  exact ⟨c, List.mem_append_right _ hc, hh⟩

theorem isSome_of_endsRefused {calls : List Call} {held : Option Buffer}
    (ends : EndsRefused calls held) : held.isSome = true := by
  obtain ⟨_, _, _, b, rfl, _⟩ := ends
  rfl

/-! ## Attempts at a flush -/

namespace EngineFlush

variable {f g : EngineFlush} {b : Buffer} {r : Ran σ Turn} {t : Trace}

theorem transmitted_ofFlush (h : Transmitted s f b w r) :
    ∀ c ∈ r.trace.calls, c.ofFlush = true := by
  cases h <;> simp [transmission, Call.ofFlush]

theorem woundUp_ofFlush (h : WoundUp s f b w r) : ∀ c ∈ r.trace.calls, c.ofFlush = true := by
  cases h <;> simp [Call.ofFlush]

theorem rounded_ofFlush (h : Rounded s f w r) : ∀ c ∈ r.trace.calls, c.ofFlush = true := by
  cases h with
  | @intro buffer r taken worked =>
    have htaken : ∀ c ∈ buffer.trace.calls, c.ofFlush = true := by
      cases taken <;> simp [Call.ofFlush]
    have hworked : ∀ c ∈ r.trace.calls, c.ofFlush = true := by
      cases worked with
      | resent full sent => exact transmitted_ofFlush sent
      | pollFailed empty polled => simp [Call.ofFlush]
      | produced empty polled sent => simpa [Call.ofFlush] using transmitted_ofFlush sent
      | ranDry empty polled woundUp => simpa [Call.ofFlush] using woundUp_ofFlush woundUp
    intro c hc
    rw [trace_after, Trace.calls_append] at hc
    exact (List.mem_append.1 hc).elim (htaken c) (hworked c)

/-- A flush fires no timer, and disposes no connection. -/
theorem attempt_ofFlush (rounds : Nat) (f : EngineFlush) (s : Surroundings σ) (w : σ) :
    ∀ c ∈ (f.attempt rounds s w).trace.calls, c.ofFlush = true := by
  refine attempt_induction (P := fun _ _ x => ∀ c ∈ x.trace.calls, c.ofFlush = true)
    ?spent ?stop ?again rounds f w
  case spent => simp
  case stop => exact fun f w p g t w' round => rounded_ofFlush round
  case again =>
    intro f w g t w' x round later c hc
    rw [trace_after, Trace.calls_append] at hc
    exact (List.mem_append.1 hc).elim (rounded_ofFlush round c) (later c)

/-- A round takes a buffer from the pool exactly if it holds none. -/
theorem rounded_acquires (h : Rounded s f w r) :
    acquires r.trace.calls + buffers f.held = 1 := by
  cases h with
  | @intro buffer r taken worked =>
    have htaken : acquires buffer.trace.calls + buffers f.held = 1 := by
      cases taken with
      | held held => simp [held]
      | acquired none given => simp [none, Call.isAcquire]
    have hsent : ∀ {b v x}, Transmitted s f b v x → acquires x.trace.calls = 0 := fun sent => by
      cases sent <;> simp [transmission, Call.isAcquire]
    have hworked : acquires r.trace.calls = 0 := by
      cases worked with
      | resent full sent => exact hsent sent
      | pollFailed empty polled => simp [Call.isAcquire]
      | produced empty polled sent => simp [Call.isAcquire, hsent sent]
      | ranDry empty polled woundUp => cases woundUp <;> simp [Call.isAcquire]
    rw [trace_after, Trace.calls_append, acquires_append]
    omega

/-- A round that is not the last leaves a buffer in use. -/
theorem held_of_again (h : Rounded s f w ⟨.again g, t, w'⟩) : g.held.isSome = true := by
  generalize hr : (⟨.again g, t, w'⟩ : Ran σ Turn) = r at h
  cases h with
  | intro taken worked =>
    cases worked with
    | resent full sent => cases sent <;> cases hr; rfl
    | pollFailed empty polled => cases hr
    | produced empty polled sent => cases sent <;> cases hr; rfl
    | ranDry empty polled woundUp => cases woundUp <;> cases hr; rfl

/-- An attempt takes a buffer from the pool at most once, and only if it holds
none. -/
theorem attempt_acquires (rounds : Nat) (f : EngineFlush) (s : Surroundings σ) (w : σ) :
    acquires (f.attempt rounds s w).trace.calls + buffers f.held ≤ 1 := by
  refine attempt_induction (P := fun f _ x => acquires x.trace.calls + buffers f.held ≤ 1)
    ?spent ?stop ?again rounds f w
  case spent =>
    intro f w
    cases f.held <;> simp
  case stop => exact fun f w p g t w' round => Nat.le_of_eq (rounded_acquires round)
  case again =>
    intro f w g t w' x round later
    have first : acquires t.calls + buffers f.held = 1 := rounded_acquires round
    rw [buffers_of_isSome (held_of_again round)] at later
    rw [trace_after, Trace.calls_append, acquires_append]
    omega

theorem endsRefused_of_transmitted {x : Ran σ Turn} (h : Transmitted s f b w x)
    (refused : x.value = .stop .refused g) (before : List Call)
    (full : b.isEmpty = true → ∃ c ∈ before, c.isHollow = true) :
    EndsRefused (before ++ x.trace.calls) g.held := by
  cases h with
  | refused sent =>
    cases refused
    refine ⟨before ++ [.peerAddress f.connection (s.peerAddress f.connection w)], f.channel,
      s.peerAddress f.connection w, b, rfl, by simp [transmission], fun empty => ?_⟩
    obtain ⟨c, hc, hh⟩ := full empty
    exact ⟨c, List.mem_append_left _ hc, hh⟩
  | _ => cases refused

theorem endsRefused_of_rounded (h : Rounded s f w ⟨.stop .refused g, t, w'⟩) :
    EndsRefused t.calls g.held := by
  generalize hr : (⟨.stop .refused g, t, w'⟩ : Ran σ Turn) = r at h
  obtain ⟨hvalue, htrace⟩ : r.value = .stop .refused g ∧ r.trace = t := by simp [← hr]
  rw [← htrace]
  clear hr htrace
  cases h with
  | intro taken worked =>
    rw [trace_after, Trace.calls_append]
    apply endsRefused_append
    cases worked with
    | resent full sent =>
      exact endsRefused_of_transmitted sent hvalue [] fun empty => by simp [full] at empty
    | pollFailed empty polled => cases hvalue
    | produced empty polled sent =>
      refine endsRefused_of_transmitted sent hvalue [_] fun none => ?_
      exact ⟨_, List.mem_singleton_self _, none⟩
    | ranDry empty polled woundUp => cases woundUp <;> cases hvalue

/-- A flush is put off only by a refused send of what it holds. -/
theorem attempt_endsRefused (rounds : Nat) (f : EngineFlush) (s : Surroundings σ) (w : σ) :
    let r := f.attempt rounds s w
    r.value.1 = .refused → EndsRefused r.trace.calls r.value.2.held := by
  refine attempt_induction
    (P := fun _ _ x => x.value.1 = .refused → EndsRefused x.trace.calls x.value.2.held)
    ?spent ?stop ?again rounds f w
  case spent =>
    intro f w refused
    cases refused
  case stop =>
    intro f w p g t w' round refused
    obtain rfl : p = .refused := refused
    exact endsRefused_of_rounded round
  case again =>
    intro f w g t w' x round later refused
    rw [trace_after, Trace.calls_append]
    exact endsRefused_append _ (later refused)

/-- A flush that holds a buffer still does so when its rounds are used up. -/
theorem attempt_keeps (rounds : Nat) (f : EngineFlush) (s : Surroundings σ) (w : σ) :
    let r := f.attempt rounds s w
    f.held.isSome = true → r.value.1 = .unfinished → r.value.2.held.isSome = true := by
  refine attempt_induction
    (P := fun f _ x => f.held.isSome = true → x.value.1 = .unfinished →
      x.value.2.held.isSome = true)
    ?spent ?stop ?again rounds f w
  case spent => exact fun f w held _ => held
  case stop => exact fun f w p g t w' round _ unfinished => absurd unfinished (held_of_stop round).2
  case again => exact fun f w g t w' x round later _ => later (held_of_again round)

end EngineFlush

/-! ## Attempts at a command -/

namespace Command

/-- The second command is the first one as it waits, in the middle of a
refused send. -/
inductive WaitsAs : Command → Command → Prop where
  | write {d : DatagramWrite} {b : Buffer} (held : d.held = some b) (full : b.isEmpty = false) :
      WaitsAs (.write d) (.write d)
  | flush {f g : EngineFlush} (same : f.Same g) (held : g.held.isSome = true) :
      WaitsAs (.flush f) (.flush g)
  | timer {t u : TimerFlush} (same : t.flush.Same u.flush) (held : u.flush.held.isSome = true)
      (dispose : u.dispose = t.dispose) (fired : u.fired = true)
      (disposed : u.disposed = t.disposed) : WaitsAs (.timer t) (.timer u)

/-- The connection whose timer a command has still to fire. -/
def due? : Command → Option Connection
  | .timer t => if t.fired then none else some t.connection
  | .write _ | .flush _ => none

/-- The command has its buffer, and has no timer to fire any more. -/
structure Underway (c : Command) : Prop where
  held : c.held.isSome = true
  due : c.due? = none

variable {c c₀ c₁ c₂ : Command}

theorem WaitsAs.trans (first : c₀.WaitsAs c₁) (second : c₁.WaitsAs c₂) : c₀.WaitsAs c₂ := by
  cases first with
  | write held full =>
    cases second with
    | write => exact .write held full
  | flush same held =>
    cases second with
    | flush same' held' =>
      obtain ⟨h1, h2, h3, h4⟩ := same
      obtain ⟨k1, k2, k3, k4⟩ := same'
      exact .flush ⟨k1.trans h1, k2.trans h2, k3.trans h3, k4.trans h4⟩ held'
  | timer same held dispose fired disposed =>
    cases second with
    | timer same' held' dispose' fired' disposed' =>
      obtain ⟨h1, h2, h3, h4⟩ := same
      obtain ⟨k1, k2, k3, k4⟩ := same'
      exact .timer ⟨k1.trans h1, k2.trans h2, k3.trans h3, k4.trans h4⟩ held'
        (dispose'.trans dispose) fired' (disposed'.trans disposed)

theorem WaitsAs.underway (waits : c₀.WaitsAs c) : c.Underway := by
  cases waits with
  | write held full => exact ⟨by simp [Command.held, held], rfl⟩
  | flush same held => exact ⟨held, rfl⟩
  | timer same held dispose fired disposed => exact ⟨held, by simp [due?, fired]⟩

end Command

namespace TimerFlush

variable {t : TimerFlush} {fired : Ran σ TimerFlush} {p : Progress} {flush : EngineFlush}
  {u : Trace}

/-- Firing the timer changes nothing but that it has fired. -/
theorem value_of_fired (fire : Fired s t w fired) :
    fired.value = { t with fired := true } := by
  cases fire with
  | before fired => rw [← fired]
  | now => rfl

theorem flushed_firings (fire : Fired s t w fired)
    (ran : fired.value.flush.attempt rounds s fired.world = ⟨(p, flush), u, w'⟩) :
    firings (fired.trace ++ u).calls = (Command.timer t).due?.toList := by
  have hu := firings_of_flush (fired.value.flush.attempt_ofFlush rounds s fired.world)
  rw [ran] at hu
  rw [Trace.calls_append, firings_append, hu, List.append_nil]
  cases fire with
  | before fired => simp [Command.due?, fired]
  | now unfired rang => simp [Command.due?, unfired, firings, Call.firing?]

theorem flushed_acquires (fire : Fired s t w fired)
    (ran : fired.value.flush.attempt rounds s fired.world = ⟨(p, flush), u, w'⟩) :
    acquires (fired.trace ++ u).calls + buffers t.flush.held ≤ 1 := by
  have hu := fired.value.flush.attempt_acquires rounds s fired.world
  have none : acquires fired.trace.calls = 0 := by
    cases fire <;> simp [Call.isAcquire]
  rw [ran, value_of_fired fire] at hu
  rw [Trace.calls_append, acquires_append, none, Nat.zero_add]
  exact hu

end TimerFlush

namespace Command

/-- An attempt fires the timer of its command, if it has one that is still to
be fired, and no other timer. -/
theorem resume_firings (rounds : Nat) (c : Command) (s : Surroundings σ) (w : σ) :
    firings (c.resume rounds s w).trace.calls = c.due?.toList := by
  cases c with
  | write d =>
    rw [resume_write]
    have h := DatagramWrite.attempted_iff.2 (rfl : d.attempt s w = _)
    generalize d.attempt s w = r at h
    cases h <;> rfl
  | flush f =>
    rw [resume_flush]
    exact firings_of_flush (f.attempt_ofFlush rounds s w)
  | timer t =>
    rw [resume_timer]
    have h := TimerFlush.attempted_iff.2 (rfl : t.attempt rounds s w = _)
    generalize t.attempt rounds s w = r at h
    cases h with
    | fireFailed unfired rang => simp [due?, unfired, firings, Call.firing?]
    | stopped fire incomplete ran => exact TimerFlush.flushed_firings fire ran
    | kept fire notDue ran => exact TimerFlush.flushed_firings fire ran
    | disposed fire due ran =>
      rw [Trace.calls_append, firings_append, TimerFlush.flushed_firings fire ran]
      exact List.append_nil _

/-- An attempt takes a buffer from the pool at most once, and only if the
command holds none. -/
theorem resume_acquires (rounds : Nat) (c : Command) (s : Surroundings σ) (w : σ) :
    acquires (c.resume rounds s w).trace.calls + buffers c.held ≤ 1 := by
  cases c with
  | write d =>
    rw [resume_write]
    have h := DatagramWrite.attempted_iff.2 (rfl : d.attempt s w = _)
    generalize d.attempt s w = r at h
    cases h <;> simp_all [held, Call.isAcquire]
  | flush f =>
    rw [resume_flush]
    exact f.attempt_acquires rounds s w
  | timer t =>
    rw [resume_timer]
    have h := TimerFlush.attempted_iff.2 (rfl : t.attempt rounds s w = _)
    generalize t.attempt rounds s w = r at h
    cases h with
    | fireFailed unfired rang =>
      simp only [held]
      cases t.flush.held <;> simp [Call.isAcquire]
    | stopped fire incomplete ran => exact TimerFlush.flushed_acquires fire ran
    | kept fire notDue ran => exact TimerFlush.flushed_acquires fire ran
    | disposed fire due ran =>
      rw [Trace.calls_append, acquires_append]
      exact TimerFlush.flushed_acquires fire ran

/-- A refused attempt leaves its command in the middle of the refused send. -/
theorem resume_refused_waits (rounds : Nat) (c : Command) (s : Surroundings σ) (w : σ) :
    let r := c.resume rounds s w
    r.value.1 = .refused → c.WaitsAs r.value.2 ∧ EndsRefused r.trace.calls r.value.2.held := by
  cases c with
  | write d =>
    rw [resume_write]
    have h := DatagramWrite.attempted_iff.2 (rfl : d.attempt s w = _)
    generalize d.attempt s w = r at h
    intro _ refused
    cases h with
    | refused held full sent =>
      refine ⟨.write held full, [], d.channel, d.peer, _, held, rfl, fun empty => ?_⟩
      simp [full] at empty
    | _ => cases refused
  | flush f =>
    rw [resume_flush]
    intro _ refused
    have ends := f.attempt_endsRefused rounds s w refused
    exact ⟨.flush (f.attempt_course rounds s w).2 (isSome_of_endsRefused ends), ends⟩
  | timer t =>
    rw [resume_timer]
    have h := TimerFlush.attempted_iff.2 (rfl : t.attempt rounds s w = _)
    generalize t.attempt rounds s w = r at h
    intro _ refused
    cases h with
    | @stopped fired p flush u w₂ fire incomplete ran =>
      obtain rfl : p = .refused := refused
      have ends := EngineFlush.attempt_endsRefused rounds fired.value.flush s fired.world
      have same := (EngineFlush.attempt_course rounds fired.value.flush s fired.world).2
      have value := TimerFlush.value_of_fired fire
      rw [ran] at ends same
      obtain ⟨dispose, disposed⟩ := TimerFlush.fired_dispose fire
      rw [value] at same
      have ends := ends rfl
      refine ⟨.timer same (isSome_of_endsRefused ends) dispose ?_ disposed, ?_⟩
      · exact congrArg TimerFlush.fired value
      · rw [Trace.calls_append]
        exact endsRefused_append _ ends
    | _ => cases refused

/-- A command that is under way stays so as long as it waits. -/
theorem resume_underway (rounds : Nat) {c : Command} (s : Surroundings σ) (w : σ)
    (underway : c.Underway) :
    let r := c.resume rounds s w
    r.value.1.waits = true → r.value.2.Underway := by
  intro r waits
  cases refused : r.value.1 with
  | refused => exact (resume_refused_waits rounds c s w refused).1.underway
  | unfinished =>
    cases c with
    | write d =>
      simp only [r, resume_write] at refused
      have h := DatagramWrite.attempted_iff.2 (rfl : d.attempt s w = _)
      generalize d.attempt s w = x at h refused
      cases h <;> cases refused
    | flush f =>
      simp only [r, resume_flush] at refused ⊢
      exact ⟨f.attempt_keeps rounds s w underway.held refused, rfl⟩
    | timer t =>
      simp only [r, resume_timer] at refused ⊢
      have h := TimerFlush.attempted_iff.2 (rfl : t.attempt rounds s w = _)
      generalize t.attempt rounds s w = x at h refused
      cases h with
      | @stopped fired p flush u w₂ fire incomplete ran =>
        obtain rfl : p = .unfinished := refused
        have keeps := fired.value.flush.attempt_keeps rounds s fired.world
        rw [ran] at keeps
        rw [TimerFlush.value_of_fired fire] at keeps ⊢
        exact ⟨keeps underway.held rfl, rfl⟩
      | _ => cases refused
  | completed => simp [refused, Progress.waits] at waits
  | failed => simp [refused, Progress.waits] at waits

end Command

end Outbox
