-- When attempts end. An attempt is put off only by a refused send, so there
-- are no more put-off attempts than there are refusals. And it goes on only as
-- long as its engine produces something: each round costs a poll that brought
-- something, but for a few rounds at most.
import Outbox.Proofs.Courses

namespace Outbox

variable {σ : Type} {s : Surroundings σ} {w w' : σ}

/-! ## Refusals -/

/-- A send that the channel refused. -/
def Call.isRefusal : Call → Bool
  | .send _ _ _ (.ok 0) => true
  | _ => false

/-- How many sends were refused. -/
def refusals (calls : List Call) : Nat := calls.countP Call.isRefusal

@[simp] theorem refusals_nil : refusals [] = 0 := rfl

@[simp] theorem refusals_cons (c : Call) (l : List Call) :
    refusals (c :: l) = refusals l + if c.isRefusal then 1 else 0 := List.countP_cons

@[simp] theorem refusals_append (l m : List Call) : refusals (l ++ m) = refusals l + refusals m :=
  List.countP_append

/-- Each refusal uses up a part of what the world has left of them. -/
def Surroundings.Rations (s : Surroundings σ) (left : σ → Nat) : Prop :=
  ∀ {c : Call} {w w' : σ}, s.Takes w c w' → left w' + (if c.isRefusal then 1 else 0) ≤ left w

theorem rations_course {left : σ → Nat} {allowed : Call → Prop} {calls : List Call}
    (rations : s.Rations left) (course : Course s allowed w calls w') :
    left w' + refusals calls ≤ left w := course.spends rations

theorem EngineFlush.rounded_refused {f g : EngineFlush} {t : Trace}
    (h : Rounded s f w ⟨.stop .refused g, t, w'⟩) : 0 < refusals t.calls := by
  generalize hr : (⟨.stop .refused g, t, w'⟩ : Ran σ Turn) = r at h
  cases h with
  | intro taken worked =>
    cases worked with
    | resent full sent =>
      cases sent <;> cases hr
      simp [transmission, Call.isRefusal]
    | pollFailed empty polled => cases hr
    | produced empty polled sent =>
      cases sent <;> cases hr
      simp [transmission, Call.isRefusal]
    | ranDry empty polled woundUp => cases woundUp <;> cases hr

theorem EngineFlush.attempt_refused (rounds : Nat) (f : EngineFlush) (s : Surroundings σ) (w : σ)
    (h : (f.attempt rounds s w).value.1 = .refused) :
    0 < refusals (f.attempt rounds s w).trace.calls := by
  induction rounds generalizing f w with
  | zero => simp [attempt_zero] at h
  | succ rounds ih =>
    have hr := rounded_round s f w
    rcases hv : f.round s w with ⟨g | ⟨p, g⟩, t, w'⟩ <;> rw [hv] at hr
    · rw [attempt_again rounds hr] at h ⊢
      have := ih g w' h
      simp only [trace_after, Trace.calls_append, refusals_append]
      omega
    · rw [attempt_stop rounds hr] at h ⊢
      obtain rfl : p = .refused := h
      exact rounded_refused hr

/-- A command is put off only by a refused send. -/
theorem Command.resume_refused (rounds : Nat) (c : Command) (s : Surroundings σ) (w : σ)
    (h : (c.resume rounds s w).value.1 = .refused) :
    0 < refusals (c.resume rounds s w).trace.calls := by
  cases c with
  | write d =>
    rw [resume_write] at h ⊢
    have hd := DatagramWrite.attempted_iff.2 (rfl : d.attempt s w = _)
    generalize d.attempt s w = r at h hd
    cases hd with
    | refused => simp [Call.isRefusal]
    | _ => simp at h
  | flush f =>
    rw [resume_flush] at h ⊢
    exact f.attempt_refused rounds s w h
  | timer t =>
    rw [resume_timer] at h ⊢
    have ht := TimerFlush.attempted_iff.2 (rfl : t.attempt rounds s w = _)
    generalize t.attempt rounds s w = r at h ht
    cases ht with
    | @stopped fired p flush u w₂ fire incomplete ran =>
      obtain rfl : p = .refused := h
      have hf := fired.value.flush.attempt_refused rounds s fired.world
      rw [ran] at hf
      have hu : 0 < refusals u.calls := hf rfl
      simp only [Trace.calls_append, refusals_append]
      omega
    | _ => simp at h

/-! ## Polls that bring something -/

/-- A poll of this connection's engine that answered a count above zero. -/
def Call.isFruitful (connection : Connection) : Call → Bool
  | .produce c _ _ (.ok (_ + 1)) => c = connection
  | _ => false

/-- How often the engine of this connection produced something. -/
def fruitful (connection : Connection) (calls : List Call) : Nat :=
  calls.countP (Call.isFruitful connection)

variable {x : Connection}

@[simp] theorem fruitful_nil : fruitful x [] = 0 := rfl

@[simp] theorem fruitful_cons (c : Call) (l : List Call) :
    fruitful x (c :: l) = fruitful x l + if c.isFruitful x then 1 else 0 := List.countP_cons

@[simp] theorem fruitful_append (l m : List Call) :
    fruitful x (l ++ m) = fruitful x l + fruitful x m := List.countP_append

theorem isEmpty_clear (b : Buffer) : b.clear.isEmpty = true := rfl

namespace EngineFlush

/-- How many more rounds a flush can take without a fruitful poll. -/
def slack (f : EngineFlush) : Nat :=
  (if f.held.any (fun b => !b.isEmpty) then 1 else 0) + if f.closeRequested then 0 else 2

theorem slack_le (f : EngineFlush) : f.slack ≤ 3 := by
  unfold slack
  split <;> split <;> omega

/-- A round that is not the last is paid for by a fruitful poll or by the slack. -/
theorem rounded_again {f g : EngineFlush} {t : Trace} (h : Rounded s f w ⟨.again g, t, w'⟩) :
    1 + g.slack ≤ fruitful f.connection t.calls + f.slack := by
  generalize hr : (⟨.again g, t, w'⟩ : Ran σ Turn) = r at h
  cases h with
  | @intro buffer r taken worked =>
    have hheld : f.held = some buffer.value ∨ buffer.value.isEmpty = true := by
      cases taken with
      | held held => exact Or.inl held
      | acquired => exact Or.inr rfl
    cases worked with
    | resent full sent =>
      have hf : f.held = some buffer.value := hheld.resolve_right (by simp [full])
      cases sent <;> cases hr
      simp only [slack, hf, Option.any_some, full, isEmpty_clear, Bool.not_true, Bool.not_false,
        if_true, Bool.false_eq_true, if_false]
      omega
    | pollFailed empty polled => cases hr
    | produced empty polled sent =>
      cases sent <;> cases hr
      simp only [slack, Option.any_some, isEmpty_clear, Bool.not_true, Bool.false_eq_true, if_false,
        trace_after, Trace.calls_append, Trace.calls_call, fruitful_append, fruitful_cons,
        Call.isFruitful, decide_true, if_true]
      omega
    | ranDry empty polled woundUp =>
      cases woundUp with
      | closed due asked forced =>
        cases hr
        simp only [slack, due.2]
        simp
        split <;> omega
      | _ => cases hr

/-- An attempt that used up its rounds had as many fruitful polls, but for the
slack. -/
theorem attempt_unfinished (rounds : Nat) (f : EngineFlush) (s : Surroundings σ) (w : σ)
    (h : (f.attempt rounds s w).value.1 = .unfinished) :
    rounds ≤ fruitful f.connection (f.attempt rounds s w).trace.calls + f.slack := by
  induction rounds generalizing f w with
  | zero => exact Nat.zero_le _
  | succ rounds ih =>
    have hr := rounded_round s f w
    have hkeep := (rounded_course hr).2.2.1
    rcases hv : f.round s w with ⟨g | ⟨p, g⟩, t, w'⟩ <;> rw [hv] at hr hkeep
    · have hcost := rounded_again hr
      rw [attempt_again rounds hr] at h ⊢
      have := ih g w' h
      rw [show g.connection = f.connection from hkeep] at this
      simp only [trace_after, Trace.calls_append, fruitful_append]
      omega
    · rw [attempt_stop rounds hr] at h
      exact absurd h (held_of_stop hr).2

end EngineFlush

/-- An attempt that used up its rounds is about a connection whose engine had
something nearly as often. -/
theorem Command.resume_unfinished (rounds : Nat) (c : Command) (s : Surroundings σ) (w : σ)
    (h : (c.resume rounds s w).value.1 = .unfinished) :
    ∃ x, c.connection? = some x ∧ rounds ≤ fruitful x (c.resume rounds s w).trace.calls + 3 := by
  cases c with
  | write d =>
    rw [resume_write] at h
    have hd := DatagramWrite.attempted_iff.2 (rfl : d.attempt s w = _)
    generalize d.attempt s w = r at h hd
    cases hd <;> simp at h
  | flush f =>
    rw [resume_flush] at h ⊢
    have hf := f.attempt_unfinished rounds s w h
    exact ⟨f.connection, rfl, Nat.le_trans hf (Nat.add_le_add_left f.slack_le _)⟩
  | timer t =>
    rw [resume_timer] at h ⊢
    have ht := TimerFlush.attempted_iff.2 (rfl : t.attempt rounds s w = _)
    generalize t.attempt rounds s w = r at h ht
    cases ht with
    | @stopped fired p flush u w₂ fire incomplete ran =>
      obtain rfl : p = .unfinished := h
      have hf := fired.value.flush.attempt_unfinished rounds s fired.world
      rw [ran] at hf
      have hu : rounds ≤ fruitful fired.value.flush.connection u.calls + _ := hf rfl
      have hc : fired.value.flush.connection = t.connection := by cases fire <;> rfl
      have := fired.value.flush.slack_le
      rw [hc] at hu
      refine ⟨t.connection, rfl, ?_⟩
      simp only [Trace.calls_append, fruitful_append]
      omega
    | _ => simp at h

/-! ## More rounds -/

/-- An attempt that came to its end goes the same way with more rounds. -/
theorem Command.resume_of_le {m n : Nat} {c : Command} (h : m ≤ n)
    (done : (c.resume m s w).value.1 ≠ .unfinished) : c.resume n s w = c.resume m s w := by
  cases c with
  | write d => rw [resume_write, resume_write]
  | flush f =>
    rw [resume_flush] at done
    rw [resume_flush, resume_flush, EngineFlush.attempt_of_le h done]
  | timer t =>
    rw [resume_timer] at done
    have ht := TimerFlush.attempted_iff.2 (rfl : t.attempt m s w = _)
    rw [resume_timer, resume_timer]
    generalize t.attempt m s w = r at done ht
    have more : TimerFlush.Attempted s n t w r := by
      cases ht with
      | fireFailed unfired rang => exact .fireFailed unfired rang
      | stopped fire incomplete ran =>
        have hf := EngineFlush.attempt_of_le h (by rw [ran]; exact done)
        exact .stopped fire incomplete (hf.trans ran)
      | kept fire notDue ran =>
        exact .kept fire notDue ((EngineFlush.attempt_of_le h (by simp [ran])).trans ran)
      | disposed fire due ran =>
        exact .disposed fire due ((EngineFlush.attempt_of_le h (by simp [ran])).trans ran)
    rw [TimerFlush.attempted_iff.1 more]

theorem Command.serve_of_le {m n : Nat} {c : Command} (h : m ≤ n)
    (done : (c.serve m s w).value.1 ≠ .unfinished) : c.serve n s w = c.serve m s w := by
  have same : c.resume n s w = c.resume m s w := Command.resume_of_le h done
  simp only [Command.serve, Command.attempt, Act.bind_apply, Act.note, same]

end Outbox
