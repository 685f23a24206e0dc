-- Backpressure cannot be told from the calls, apart from the refused sends.
-- Surroundings are compared with the same surroundings that refuse a send now
-- and then. Drains that go on until no command waits make the same calls in
-- both, fail in the same way, and leave the same world.
import Outbox.Proofs.Drains

namespace Outbox

variable {σ : Type} {s : Surroundings σ}

/-! ## Refusals put in -/

theorem impatient_rations (patient : s.Patient) :
    s.impatient.Rations fun w => w.2.length := by
  intro c w w' takes
  cases c with
  | send channel datagram destination answer =>
    have takes : s.impatient.send channel datagram destination w = (answer, w') := takes
    obtain ⟨v, l⟩ := w
    simp only [Surroundings.impatient] at takes
    split at takes
    · rename_i h
      obtain ⟨l, rfl⟩ : ∃ l', l = true :: l' := by
        cases l <;> simp_all
      cases takes
      simp [Call.isRefusal]
    · have hp := patient channel datagram destination v
      obtain rfl : answer = _ := (congrArg Prod.fst takes).symm
      obtain rfl : w' = _ := (congrArg Prod.snd takes).symm
      have hno : Call.isRefusal (.send channel datagram destination
          (s.send channel datagram destination v).1) = false := by
        rcases h : (s.send channel datagram destination v).1 with _ | _ | _ <;>
          simp_all [Call.isRefusal]
      simp [hno]
  | peerAddress c answer =>
    obtain ⟨-, rfl⟩ := takes
    simp [Call.isRefusal]
  | acquire | produce | fireTimer | isClosing | finaliseClose =>
    obtain rfl : _ = w' := congrArg Prod.snd takes
    simp [Surroundings.impatient, Call.isRefusal]
  | release | dispose =>
    obtain rfl : _ = w' := takes
    simp [Surroundings.impatient, Call.isRefusal]

/-! ## What is heard -/

/-- A call that others hear of: any but a refused send, and but for the mere
question where a peer is. -/
def Call.heard? : Call → Option Call
  | .peerAddress .. => none
  | .send _ _ _ (.ok 0) => none
  | c => some c

def heard (calls : List Call) : List Call := calls.filterMap Call.heard?

theorem sameVerdict_self (patient : s.Patient) (channel : Channel) (datagram : Bytes)
    (destination : Address) (w : σ) :
    SameVerdict Call.heard? channel datagram destination (s.send channel datagram destination w).1
      (s.send channel datagram destination w).1 := by
  have hp := patient channel datagram destination w
  rcases h : (s.send channel datagram destination w).1 with e | _ | n
  · exact Or.inr ⟨e, rfl, rfl⟩
  · exact absurd h hp
  · exact Or.inl ⟨n, n, rfl, rfl, rfl⟩

/-- Surroundings without refusals, as a mirror of themselves. -/
def Surroundings.Patient.mirror (patient : s.Patient) (substantial : s.Substantial) :
    Mirror σ σ Call where
  near := s
  far := s
  about _ := True
  tell := Call.heard?
  alike := (· = ·)
  related := (· = ·)
  contents h := congrArg Buffer.contents h
  append h bytes := congrArg (Buffer.append · bytes) h
  clear h := congrArg Buffer.clear h
  acquire h _ _ := by subst h; exact ⟨rfl, rfl, rfl⟩
  release h ab := by subst h; subst ab; exact ⟨rfl, rfl⟩
  produce h ab _ _ := by subst h ab; exact ⟨rfl, rfl⟩
  peerAddress h _ _ := by subst h; rfl
  fireTimer h _ _ := by subst h; exact ⟨rfl, rfl⟩
  isClosing h _ _ := by subst h; exact ⟨rfl, rfl⟩
  finaliseClose h _ _ := by subst h; exact ⟨rfl, rfl⟩
  dispose h _ _ := by subst h; rfl
  send {w v} h channel datagram destination := by
    subst h
    exact Or.inr ⟨sameVerdict_self patient channel datagram destination w, rfl⟩
  toldPoll ab _ _ _ := by subst ab; rfl
  untoldPeer _ _ := rfl
  untoldRefusal _ _ _ := rfl
  substantial := substantial

/-- Surroundings with refusals put in, as a mirror of those without. -/
def Surroundings.Patient.impatientMirror (patient : s.Patient) (substantial : s.Substantial) :
    Mirror (σ × List Bool) σ Call where
  near := s.impatient
  far := s
  about _ := True
  tell := Call.heard?
  alike := (· = ·)
  related w v := w.1 = v
  contents h := congrArg Buffer.contents h
  append h bytes := congrArg (Buffer.append · bytes) h
  clear h := congrArg Buffer.clear h
  acquire h _ _ := by subst h; exact ⟨rfl, rfl, rfl⟩
  release h ab := by subst h; subst ab; exact ⟨rfl, rfl⟩
  produce h ab _ _ := by subst h ab; exact ⟨rfl, rfl⟩
  peerAddress h _ _ := by subst h; rfl
  fireTimer h _ _ := by subst h; exact ⟨rfl, rfl⟩
  isClosing h _ _ := by subst h; exact ⟨rfl, rfl⟩
  finaliseClose h _ _ := by subst h; exact ⟨rfl, rfl⟩
  dispose h _ _ := by subst h; rfl
  send {w v} h channel datagram destination := by
    subst h
    simp only [impatient]
    split
    · exact Or.inl ⟨rfl, rfl⟩
    · exact Or.inr ⟨sameVerdict_self patient channel datagram destination w.1, rfl⟩
  toldPoll ab _ _ _ := by subst ab; rfl
  untoldPeer _ _ := rfl
  untoldRefusal _ _ _ := rfl
  substantial := substantial

/-! ## The law -/

/-- Backpressure is invisible apart from the refused sends. Take any backlog,
surroundings where no channel refuses, and the same with any refusals put in.
If each engine produces something only finitely often, then drains without and
with them, enough of them, end with no command waiting. The calls heard are the
same, at any earlier moment they are the first of these, the failures are the
same in the same order, and so is the world. -/
theorem backpressure_is_invisible (s : Surroundings σ) (substantial : s.Substantial)
    (patient : s.Patient) (b : Backlog) (w : σ)
    (exhausted : ∀ x, ∃ most, ∀ rounds drains,
      fruitful x (b.drainOut rounds drains s w).trace.calls ≤ most)
    (refused : List Bool) :
    ∃ least enough, ∀ rounds ≥ least, ∀ drains ≥ enough,
      let first := b.drainOut rounds drains s w
      let second := b.drainOut rounds drains s.impatient (w, refused)
      (first.value.1.getLast? = some .completed ∧ first.value.2.waiting = []) ∧
        (second.value.1.getLast? = some .completed ∧ second.value.2.waiting = []) ∧
        refusals first.trace.calls = 0 ∧
        heard second.trace.calls = heard first.trace.calls ∧
        second.value.1.filterMap Progress.failure? = first.value.1.filterMap Progress.failure? ∧
        second.world.1 = first.world ∧
        ∀ earlier, earlier <+: second.trace.calls → heard earlier <+: heard first.trace.calls := by
  obtain ⟨policy, waiting⟩ := b
  obtain ⟨least, calls, failures, final, pos, spent⟩ := exists_spent patient policy waiting w
    fun x => by
      obtain ⟨most, hmost⟩ := exhausted x
      exact ⟨most, 0, fun rounds _ drains => hmost rounds drains⟩
  refine ⟨least, waiting.length + refused.length + 1, fun rounds hr drains hd => ?_⟩
  have hnear : waiting.length + 0 < drains := by omega
  obtain ⟨h1, h2, h3, h4, h5⟩ := drainOut_drained (m := patient.mirror substantial)
    ⟨Iff.rfl, fun _ => trivial⟩ (patient_rations patient) pos hr (b := { policy, waiting }) spent
    rfl hnear
  have hfar : waiting.length + refused.length < drains := by omega
  obtain ⟨k1, k2, k3, k4, k5⟩ := drainOut_drained (m := patient.impatientMirror substantial)
    ⟨Iff.rfl, fun _ => trivial⟩ (impatient_rations patient) pos hr (b := { policy, waiting })
    (w := (w, refused)) spent rfl hfar
  have hleft := rations_course (patient_rations patient)
    (Backlog.drainOut_course rounds drains { policy, waiting } s w)
  have hheard : heard (Backlog.drainOut rounds drains { policy, waiting } s.impatient
      (w, refused)).trace.calls =
      heard (Backlog.drainOut rounds drains { policy, waiting } s w).trace.calls := k1.trans h1.symm
  refine ⟨⟨h5, h4⟩, ⟨k5, k4⟩, by omega, hheard, k2.trans h2.symm, ?_, ?_⟩
  · have hfirst : (Backlog.drainOut rounds drains { policy, waiting } s w).world = final := h3
    exact k3.trans hfirst.symm
  · intro earlier hprefix
    rw [← hheard]
    exact hprefix.filterMap Call.heard?

theorem workbench_patient : workbench.Patient := by
  intro channel datagram destination w h
  have : max 1 datagram.length = 0 := Except.ok.inj h
  omega

/-- What a fruitful poll brings is no longer in stock. -/
theorem Bench.stock_of_drawn {w : Bench} {c : Connection} {drawn : Bytes} {rest : List Bytes}
    (b : Buffer) (draws : drawn ++ rest.flatten = (w.left c).flatten) (x : Connection) :
    ({ w with left := Function.update w.left c rest } : Bench).stock x +
        (if Call.isFruitful x (.produce c b drawn (.ok drawn.length)) then 1 else 0) ≤
      w.stock x := by
  have measured := congrArg List.length draws
  rw [List.length_append] at measured
  by_cases hc : c = x
  · subst hc
    simp only [stock, Function.update_self]
    cases drawn with
    | nil => simp only [draws.symm, List.nil_append, Call.isFruitful, List.length_nil,
        Bool.false_eq_true, if_false, Nat.add_zero, Nat.le_refl]
    | cons byte bytes =>
      simp only [Call.isFruitful, List.length_cons, decide_true, if_true] at measured ⊢
      omega
  · have unfruitful : Call.isFruitful x (.produce c b drawn (.ok drawn.length)) = false := by
      cases drawn <;> simp [Call.isFruitful, hc]
    simp only [stock, unfruitful, Function.update_of_ne (Ne.symm hc), Bool.false_eq_true, if_false,
      Nat.add_zero, Nat.le_refl]

theorem workbench_spends {c : Call} {w w' : Bench} (takes : workbench.Takes w c w')
    (x : Connection) : w'.stock x + (if c.isFruitful x then 1 else 0) ≤ w.stock x := by
  cases c with
  | produce c b appended answer =>
    have h : workbench.produce c b w = ((appended, answer), w') := takes
    cases h
    exact Bench.stock_of_drawn b (by cases w.left c <;> rfl) x
  | peerAddress => simp [takes.2, Call.isFruitful]
  | release | dispose =>
    rw [← show _ = w' from takes]
    exact Nat.le_refl _
  | _ =>
    obtain rfl : _ = w' := congrArg Prod.snd takes
    exact Nat.le_refl _

theorem workbench_course {allowed : Call → Prop} {w w' : Bench} {calls : List Call}
    (course : Course workbench allowed w calls w') (x : Connection) :
    w'.stock x + fruitful x calls ≤ w.stock x := course.spends fun takes => workbench_spends takes x

/-- A timer waits with a datagram. Of the drains' sends the first and the third
are refused. -/
theorem backpressure_is_invisible_on_the_workbench :
    let polled := Bench.polled "left" 1200
    let sent := Bench.sent "left"
    workbench.Substantial ∧ workbench.Patient ∧
      (∀ x, ∃ most, ∀ rounds drains, fruitful x
        (Bench.leftOver.drainOut rounds drains workbench Bench.busy.1).trace.calls ≤ most) ∧
      ∃ least enough, ∀ rounds ≥ least, ∀ drains ≥ enough,
        let first := Bench.leftOver.drainOut rounds drains workbench Bench.busy.1
        let second := Bench.leftOver.drainOut rounds drains workbench.impatient
          (Bench.busy.1, [true, false, true])
        first.value.1 = [.completed] ∧ second.value.1 = [.refused, .refused, .completed] ∧
          heard first.trace.calls =
            [sent [7], polled [1], sent [1], polled [2], sent [2], polled [],
              .release (.withCapacity 1200), .dispose ⟨"left"⟩] ∧
          heard second.trace.calls = heard first.trace.calls := by
  intro polled sent
  have exhausted : ∀ x, ∃ most, ∀ rounds drains, fruitful x
      (Bench.leftOver.drainOut rounds drains workbench Bench.busy.1).trace.calls ≤ most := fun x =>
    ⟨2, fun rounds drains => Nat.le_trans (Nat.le_add_left _ _)
      (workbench_course (Bench.leftOver.drainOut_course rounds drains workbench Bench.busy.1) x)⟩
  obtain ⟨least, enough, invisible⟩ := backpressure_is_invisible workbench workbench_substantial
    workbench_patient Bench.leftOver Bench.busy.1 exhausted [true, false, true]
  refine ⟨workbench_substantial, workbench_patient, exhausted, max least 4, max enough 3,
    fun rounds hr drains hd => ?_⟩
  obtain ⟨-, -, -, same, -⟩ := invisible rounds (by omega) drains (by omega)
  have first : Bench.leftOver.drainOut rounds drains workbench Bench.busy.1 =
      Bench.leftOver.drainOut 4 1 workbench Bench.busy.1 :=
    Backlog.drainOut_of_le (by omega) (by omega) (by decide) (by decide)
  have second : Bench.leftOver.drainOut rounds drains workbench.impatient
      (Bench.busy.1, [true, false, true]) =
      Bench.leftOver.drainOut 4 3 workbench.impatient (Bench.busy.1, [true, false, true]) :=
    Backlog.drainOut_of_le (by omega) (by omega) (by decide) (by decide)
  refine ⟨?_, ?_, ?_, same⟩
  · rw [first]
    rfl
  · rw [second]
    rfl
  · rw [first]
    rfl

end Outbox
