-- A flush of the backlog drains it again and again while a command waits. A
-- drain that leaves commands waiting has used up a refusal, or has given one up
-- and so ended the flush. And a drain takes forever only at an engine that never
-- runs dry. So a flush comes to its end, after at most one drain more than there
-- are refusals, and it does what these drains would do by hand.
import Mathlib.Data.Finset.Dedup
import Mathlib.Data.Finset.Order
import Outbox.Proofs.Backpressure
import Outbox.Proofs.Stoppages

namespace Outbox

variable {σ : Type} {s : Surroundings σ} {rounds : Nat} {w w' : σ}

/-! ## What stops a drain -/

namespace Stops

variable {rest : List Command} {r : Ran σ (Progress × List Command)}

theorem connections (h : Stops s rounds w rest r) :
    ∀ c ∈ r.value.2, ∃ c₀ ∈ rest, c₀.connection? = c.connection? := by
  have waitsOn : ∀ {p c c' behind t w'},
      Command.attempt rounds c s w = ⟨(p, c'), t, w'⟩ →
      ∀ d ∈ c' :: behind, ∃ c₀ ∈ c :: behind, c₀.connection? = d.connection? := by
    intro p c c' behind t w' attempt d mem
    rcases List.mem_cons.1 mem with rfl | mem
    · have same := (c.resume_course rounds s w).2
      rw [(Command.resume_of_attempt attempt).1] at same
      exact ⟨c, List.mem_cons_self .., same.symm⟩
    · exact ⟨d, List.mem_cons_of_mem _ mem, rfl⟩
  cases h with
  | emptied => simp
  | refused attempt => exact waitsOn attempt
  | failed attempt => exact fun d mem => ⟨d, List.mem_cons_of_mem _ mem, rfl⟩
  | unfinished attempt => exact waitsOn attempt

theorem refusals_pos (h : Stops s rounds w rest r) (refused : r.value.1 = .refused) :
    0 < refusals r.trace.calls := by
  cases h with
  | @refused c c' behind t w' attempt =>
    obtain ⟨value, calls⟩ := Command.resume_of_attempt attempt
    rw [← calls]
    apply c.resume_refused
    rw [value]
  | _ => cases refused

/-- A drain uses up its rounds only at a command whose engine had something
nearly as often. -/
theorem rounds_le (h : Stops s rounds w rest r) (unfinished : r.value.1 = .unfinished) :
    ∃ c ∈ rest, ∃ x, c.connection? = some x ∧ rounds ≤ fruitful x r.trace.calls + 3 := by
  cases h with
  | @unfinished c c' behind t w' attempt =>
    obtain ⟨value, calls⟩ := Command.resume_of_attempt attempt
    obtain ⟨x, about, most⟩ := c.resume_unfinished rounds s w (by rw [value])
    rw [calls] at most
    exact ⟨c, List.mem_cons_self .., x, about, most⟩
  | _ => cases unfinished

end Stops

namespace Backlog

variable {b : Backlog} {drains n : Nat} {e : Failure}

/-- The run gave up a command. Up to this one commands completed, it failed, and
its buffer went back. Nothing came after that, and those behind it wait on as
they were. -/
inductive GivesUp (s : Surroundings σ) (rounds : Nat) (b : Backlog) (w : σ) (e : Failure)
    (run : Ran σ (Progress × Backlog)) : Prop where
  | intro {done behind : List Command} {c c' : Command} {t u : Trace} {w₁ w₂ : σ}
      {earlier : List Call} (split : b.waiting = done ++ c :: behind)
      (completes : Completes s rounds done w t w₁)
      (attempt : c.attempt rounds s w₁ = ⟨(.failed e, c'), u, w₂⟩)
      (value : run.value = (.failed e, { b with waiting := behind }))
      (calls : run.trace.calls = earlier ++ c'.held.toList.map .release)
      (ends : EndsFailed earlier e) : GivesUp s rounds b w e run

theorem GivesUp.after {run : Ran σ (Progress × Backlog)} (h : b.GivesUp s rounds w e run)
    (t : Trace) : b.GivesUp s rounds w e (run.after t) := by
  cases h with
  | intro split completes attempt value calls ends =>
    refine .intro split completes attempt value ?_ (endsFailed_append t.calls ends)
    rw [trace_after, Trace.calls_append, calls, List.append_assoc]

/-- What a drain leaves behind, for each way in which it can end. -/
structure Ended (s : Surroundings σ) (rounds : Nat) (b : Backlog) (w : σ)
    (run : Ran σ (Progress × Backlog)) : Prop where
  connections : ∀ c ∈ run.value.2.waiting, ∃ c₀ ∈ b.waiting, c₀.connection? = c.connection?
  completed : run.value.1 = .completed → run.value.2.isEmpty = true
  refused : run.value.1 = .refused → run.value.2.isEmpty = false ∧ 0 < refusals run.trace.calls
  failed : ∀ e, run.value.1 = .failed e → b.GivesUp s rounds w e run
  unfinished : run.value.1 = .unfinished →
    ∃ c ∈ b.waiting, ∃ x, c.connection? = some x ∧ rounds ≤ fruitful x run.trace.calls + 3

theorem calls_heading (b : Backlog) : b.heading.calls = [] := by
  unfold heading
  split <;> rfl

theorem drain_ended (rounds : Nat) (b : Backlog) (s : Surroundings σ) (w : σ) :
    b.Ended s rounds w (b.drain rounds s w) := by
  obtain ⟨done, rest, t, w₁, r, split, completes, stops, resumed⟩ :=
    resumeAll_stops rounds b.waiting s w
  have splits := splitBy_of_stops split completes stops resumed
  have value : (b.drain rounds s w).value = (r.value.1, { b with waiting := r.value.2 }) := by
    rw [drain_apply, resumed]
    rfl
  have calls : (b.drain rounds s w).trace.calls = t.calls ++ r.trace.calls := by
    rw [(b.drain_eq rounds s w).2.1, resumed, trace_after, Trace.calls_append]
  have within : ∀ c ∈ rest, c ∈ b.waiting := fun c hc => by
    rw [split]
    exact List.mem_append_right done hc
  refine ⟨?connections, ?completed, ?refused, ?failed, ?unfinished⟩
  case connections =>
    intro c hc
    rw [value] at hc
    obtain ⟨c₀, mem, about⟩ := stops.connections c hc
    exact ⟨c₀, within c₀ mem, about⟩
  case completed =>
    intro completed
    rw [splits.emptied (splits.completed.1 completed)]
    rfl
  case refused =>
    intro refused
    rw [value] at refused
    rw [value, calls, refusals_append]
    have waits := (stops.refused_iff (Or.inr refused)).1 refused
    have used := stops.refusals_pos refused
    exact ⟨by simpa [isEmpty] using waits, by omega⟩
  case failed =>
    intro e failed
    obtain ⟨c, behind, rfl, attempted⟩ := (splits.stopped _ (by simp)).1 failed
    rcases attempt : c.attempt rounds s w₁ with ⟨⟨p, c'⟩, u, w₂⟩
    rw [attempt] at attempted
    obtain rfl : p = .failed e := attempted
    obtain ⟨run, ends, -⟩ := splits.failed rfl attempt
    refine .intro split completes attempt ?_ ?_ (endsFailed_append t.calls ends)
    · rw [run]
    · have released : Trace.calls (c'.held.toList.map (.call ∘ .release)) =
          c'.held.toList.map .release := by
        cases c'.held <;> rfl
      simp [run, calls_heading, released]
  case unfinished =>
    intro unfinished
    rw [value] at unfinished
    obtain ⟨c, mem, x, about, most⟩ := stops.rounds_le unfinished
    refine ⟨c, within c mem, x, about, ?_⟩
    rw [calls, fruitful_append]
    omega

/-! ## Drains by hand -/

/-- As many drains as said, one after the other, whatever comes of them. -/
def byHand (rounds n : Nat) (b : Backlog) : Act σ (List Progress × Backlog) :=
  b.performAll rounds (List.replicate n .drain)

theorem byHand_zero (rounds : Nat) (b : Backlog) (s : Surroundings σ) (w : σ) :
    b.byHand rounds 0 s w = ⟨([], b), [], w⟩ := rfl

theorem byHand_succ (rounds n : Nat) (b : Backlog) (s : Surroundings σ) (w : σ) :
    let first := b.drain rounds s w
    let later := first.value.2.byHand rounds n s first.world
    b.byHand rounds (n + 1) s w =
      ⟨(first.value.1 :: later.value.1, later.value.2), first.trace ++ later.trace,
        later.world⟩ := by
  simp [byHand, List.replicate_succ, performAll, perform]

/-- A run does what `n` drains by hand do. Each of them finds a command waiting,
all but the last are refused, and the last ends as the run does. -/
structure ByHand (s : Surroundings σ) (rounds : Nat) (b : Backlog) (w : σ) (n : Nat)
    (run : Ran σ (Progress × Backlog)) : Prop where
  pending : ∀ j < n, (b.byHand rounds j s w).value.2.isEmpty = false
  progress : n ≠ 0 →
    (b.byHand rounds n s w).value.1 = List.replicate (n - 1) .refused ++ [run.value.1]
  backlog : (b.byHand rounds n s w).value.2 = run.value.2
  trace : (b.byHand rounds n s w).trace = run.trace
  world : (b.byHand rounds n s w).world = run.world

theorem byHand_none (w : σ) : b.ByHand s rounds w 0 ⟨(.completed, b), [], w⟩ :=
  ⟨by simp, by simp, rfl, rfl, rfl⟩

theorem byHand_once (pending : b.isEmpty = false) :
    b.ByHand s rounds w 1 (b.drain rounds s w) := by
  have once := b.byHand_succ rounds 0 s w
  simp only [byHand_zero, List.append_nil] at once
  refine ⟨fun j hj => ?_, fun _ => ?_, ?_, ?_, ?_⟩
  · obtain rfl : j = 0 := by omega
    exact pending
  · rw [once]
    rfl
  · rw [once]
  · rw [once]
  · rw [once]

theorem ByHand.again {run : Ran σ (Progress × Backlog)} (pending : b.isEmpty = false)
    (refused : (b.drain rounds s w).value.1 = .refused)
    (later : (b.drain rounds s w).value.2.ByHand s rounds (b.drain rounds s w).world (n + 1) run) :
    b.ByHand s rounds w (n + 2) (run.after (b.drain rounds s w).trace) := by
  have succ := fun n => b.byHand_succ rounds n s w
  refine ⟨fun j hj => ?_, fun _ => ?_, ?_, ?_, ?_⟩
  · cases j with
    | zero => exact pending
    | succ j =>
      rw [succ]
      exact later.pending j (by omega)
  · rw [succ, value_after]
    simp only [refused, later.progress (by omega), Nat.add_sub_cancel,
      show n + 2 - 1 = n + 1 from rfl, List.replicate_succ, List.cons_append]
  · rw [succ]
    exact later.backlog
  · rw [succ, trace_after, ← later.trace]
  · rw [succ]
    exact later.world

/-! ## One round of a flush -/

theorem flush_empty (drains : Nat) (empty : b.isEmpty = true) :
    b.flush rounds drains s w = ⟨(.completed, b), [], w⟩ := by
  cases drains <;> simp [flush, empty]

theorem flush_refused (drains : Nat) (pending : b.isEmpty = false)
    (refused : (b.drain rounds s w).value.1 = .refused) :
    let first := b.drain rounds s w
    b.flush rounds (drains + 1) s w =
      (first.value.2.flush rounds drains s first.world).after first.trace := by
  simp [flush, pending, refused, Ran.after]

/-- A drain that is not refused is the last of a flush. -/
theorem flush_stopped (drains : Nat) (pending : b.isEmpty = false)
    (stopped : (b.drain rounds s w).value.1 ≠ .refused) :
    b.flush rounds (drains + 1) s w = b.drain rounds s w := by
  have ended := b.drain_ended rounds s w
  rcases run : b.drain rounds s w with ⟨⟨p, b'⟩, t, w'⟩
  rw [run] at ended stopped
  cases p with
  | completed => simp [flush, pending, run, flush_empty drains (ended.completed rfl)]
  | refused => exact absurd rfl stopped
  | failed e => simp [flush, pending, run]
  | unfinished => simp [flush, pending, run]

/-- A flush that came to its end goes the same way with more rounds and drains. -/
theorem flush_of_le {m n : Nat} (h : m ≤ n) {drains more : Nat} (le : drains ≤ more)
    (done : (b.flush m drains s w).value.1 ≠ .unfinished) :
    b.flush n more s w = b.flush m drains s w := by
  induction drains generalizing b w more with
  | zero =>
    by_cases empty : b.isEmpty = true
    · rw [flush_empty _ empty, flush_empty _ empty]
    · simp [flush, empty] at done
  | succ drains ih =>
    obtain ⟨more, rfl⟩ : ∃ k, more = k + 1 := ⟨more - 1, by omega⟩
    by_cases empty : b.isEmpty = true
    · rw [flush_empty _ empty, flush_empty _ empty]
    have pending : b.isEmpty = false := by simpa using empty
    by_cases refused : (b.drain m s w).value.1 = .refused
    · have same : b.drain n s w = b.drain m s w := drain_of_le h (by simp [refused])
      rw [flush_refused drains pending refused] at done ⊢
      rw [flush_refused more pending (same ▸ refused), same, ih (Nat.le_of_succ_le_succ le) done]
    · rw [flush_stopped drains pending refused] at done ⊢
      have same : b.drain n s w = b.drain m s w := drain_of_le h done
      rw [flush_stopped more pending (same ▸ refused), same]

/-! ## All rounds of a flush -/

/-- A flush that has not come to its end used up its drains by refusals, or its
rounds by an engine that had something nearly as often. -/
theorem flush_unfinished (drains : Nat) (b : Backlog) (w : σ)
    (unfinished : (b.flush rounds drains s w).value.1 = .unfinished) :
    let calls := (b.flush rounds drains s w).trace.calls
    drains ≤ refusals calls ∨ ∃ c ∈ b.waiting, ∃ x, c.connection? = some x ∧
      rounds ≤ fruitful x calls + 3 := by
  induction drains generalizing b w with
  | zero => exact Or.inl (Nat.zero_le _)
  | succ drains ih =>
    by_cases empty : b.isEmpty = true
    · rw [flush_empty _ empty] at unfinished
      cases unfinished
    have pending : b.isEmpty = false := by simpa using empty
    have first := b.drain_ended rounds s w
    by_cases refused : (b.drain rounds s w).value.1 = .refused
    · rw [flush_refused drains pending refused] at unfinished ⊢
      have used := (first.refused refused).2
      simp only [trace_after, Trace.calls_append, refusals_append, fruitful_append]
      rcases ih _ _ unfinished with few | ⟨c, mem, x, about, most⟩
      · exact Or.inl (by omega)
      · obtain ⟨c₀, mem, same⟩ := first.connections c mem
        exact Or.inr ⟨c₀, mem, x, same.trans about, by omega⟩
    · rw [flush_stopped drains pending refused] at unfinished ⊢
      exact Or.inr (first.unfinished unfinished)

/-- A flush that comes to its end does what drains by hand do, at most one more
than are refused. It empties the backlog, or gives up a command at the last of
them. -/
theorem flush_by_hand (drains : Nat) (b : Backlog) (w : σ)
    (ended : (b.flush rounds drains s w).value.1 ≠ .unfinished) :
    let run := b.flush rounds drains s w
    ∃ n ≤ refusals run.trace.calls + 1, (n = 0 ↔ b.isEmpty = true) ∧ b.ByHand s rounds w n run ∧
      (run.value.1 = .completed ∧ run.value.2.isEmpty = true ∨
        ∃ e, run.value.1 = .failed e ∧
          let last := b.byHand rounds (n - 1) s w
          last.value.2.GivesUp s rounds last.world e run) := by
  by_cases empty : b.isEmpty = true
  · rw [flush_empty _ empty]
    exact ⟨0, Nat.zero_le _, by simp [empty], byHand_none w, Or.inl ⟨rfl, empty⟩⟩
  have pending : b.isEmpty = false := by simpa using empty
  induction drains generalizing b w with
  | zero => simp [flush, pending] at ended
  | succ drains ih =>
    have first := b.drain_ended rounds s w
    by_cases refused : (b.drain rounds s w).value.1 = .refused
    · rw [flush_refused drains pending refused] at ended ⊢
      obtain ⟨waits, used⟩ := first.refused refused
      obtain ⟨n, few, some, hand, finish⟩ := ih _ _ ended (by simp [waits]) waits
      obtain ⟨m, rfl⟩ : ∃ m, n = m + 1 := ⟨n - 1, by
        have : n ≠ 0 := fun h => by simp [waits] at some; exact some h
        omega⟩
      refine ⟨m + 2, ?_, by simp [pending], hand.again pending refused, ?_⟩
      · simp only [trace_after, Trace.calls_append, refusals_append]
        omega
      · rcases finish with emptied | ⟨e, failed, gaveUp⟩
        · exact Or.inl emptied
        · refine Or.inr ⟨e, failed, ?_⟩
          have succ := b.byHand_succ rounds m s w
          show (b.byHand rounds (m + 1) s w).value.2.GivesUp s rounds _ e _
          rw [succ]
          exact gaveUp.after _
    · rw [flush_stopped drains pending refused] at ended ⊢
      refine ⟨1, by omega, by simp [pending], byHand_once pending, ?_⟩
      cases progress : (b.drain rounds s w).value.1 with
      | completed => exact Or.inl ⟨rfl, first.completed progress⟩
      | refused => exact absurd progress refused
      | failed e => exact Or.inr ⟨e, rfl, first.failed e progress⟩
      | unfinished => exact absurd progress ended

/-! ## The law -/

/-- One number bounds what is bounded for each connection of some commands. -/
theorem exists_bound (waiting : List Command) (most : Connection → Nat) :
    ∃ bound, ∀ c ∈ waiting, ∀ x, c.connection? = some x → most x ≤ bound := by
  obtain ⟨bound, within⟩ := ((waiting.filterMap Command.connection?).map most).toFinset.exists_le
  refine ⟨bound, fun c mem x about => within _ ?_⟩
  rw [List.mem_toFinset]
  exact List.mem_map_of_mem (List.mem_filterMap.2 ⟨c, mem, about⟩)

/-- A flush of the backlog comes to its end, if each engine produces something
only finitely often and no more than `refused` sends are refused. It drains not
at all if no command waits, and else at most once more than that. It does what
these drains do by hand, each of them while a command waits. In the end it has
completed, and no command waits. Or a command failed at the last of the drains,
and nothing came after the release of its buffer. -/
theorem a_flush_empties_the_backlog (s : Surroundings σ) (b : Backlog) (w : σ) (refused : Nat)
    (exhausted : ∀ x, ∃ most, ∀ rounds drains,
      fruitful x (b.flush rounds drains s w).trace.calls ≤ most)
    (rationed : ∀ rounds drains, refusals (b.flush rounds drains s w).trace.calls ≤ refused) :
    ∃ least, ∀ rounds ≥ least, ∀ drains > refused,
      let run := b.flush rounds drains s w
      ∃ n ≤ refused + 1, (n = 0 ↔ b.isEmpty = true) ∧ b.ByHand s rounds w n run ∧
        (run.value.1 = .completed ∧ run.value.2.isEmpty = true ∨
          ∃ e, run.value.1 = .failed e ∧
            let last := b.byHand rounds (n - 1) s w
            last.value.2.GivesUp s rounds last.world e run) := by
  choose most within using exhausted
  obtain ⟨bound, bounded⟩ := exists_bound b.waiting most
  refine ⟨bound + 4, fun rounds enough drains more => ?_⟩
  have few := rationed rounds drains
  have ended : (b.flush rounds drains s w).value.1 ≠ .unfinished := by
    intro unfinished
    rcases flush_unfinished drains b w unfinished with many | ⟨c, mem, x, about, often⟩
    · omega
    · have := within x rounds drains
      have := bounded c mem x about
      omega
  obtain ⟨n, le, none, hand, finish⟩ := flush_by_hand drains b w ended
  exact ⟨n, by omega, none, hand, finish⟩

theorem flush_course (drains : Nat) (b : Backlog) (w : σ) :
    Course s (fun _ => True) w (b.flush rounds drains s w).trace.calls
      (b.flush rounds drains s w).world := by
  induction drains generalizing b w with
  | zero => exact .nil w
  | succ drains ih =>
    by_cases empty : b.isEmpty = true
    · rw [flush_empty _ empty]
      exact .nil w
    have pending : b.isEmpty = false := by simpa using empty
    have first := b.perform_course rounds .drain s w
    by_cases refused : (b.drain rounds s w).value.1 = .refused
    · rw [flush_refused drains pending refused, trace_after, Trace.calls_append]
      exact first.append (ih _ _)
    · rw [flush_stopped drains pending refused]
      exact first

/-- A call that is not a refusal put in goes as without refusals. -/
theorem takes_of_impatient {c : Call} {w w' : σ × List Bool} (takes : s.impatient.Takes w c w') :
    s.Takes w.1 c w'.1 ∨ c.isRefusal = true ∧ w'.1 = w.1 := by
  cases c with
  | send channel datagram destination answer =>
    have takes : s.impatient.send channel datagram destination w = (answer, w') := takes
    simp only [Surroundings.impatient] at takes
    split at takes
    · cases takes
      exact Or.inr ⟨rfl, rfl⟩
    · cases takes
      exact Or.inl rfl
  | peerAddress => exact Or.inl ⟨takes.1, congrArg Prod.fst takes.2⟩
  | release | dispose => exact Or.inl (congrArg Prod.fst takes)
  | _ =>
    have answer := congrArg Prod.fst takes
    have world := congrArg (fun y => y.2.1) takes
    exact Or.inl (Prod.ext answer world)

/-- The engines of the workbench run dry, whatever sends are refused. -/
theorem impatient_course {allowed : Call → Prop} {w w' : Bench × List Bool} {calls : List Call}
    (course : Course workbench.impatient allowed w calls w') (x : Connection) :
    w'.1.stock x + fruitful x calls ≤ w.1.stock x := by
  have step : ∀ {c : Call} {w w' : Bench × List Bool}, workbench.impatient.Takes w c w' →
      w'.1.stock x + (if c.isFruitful x then 1 else 0) ≤ w.1.stock x := by
    intro c w w' takes
    rcases takes_of_impatient takes with same | ⟨refusal, same⟩
    · exact workbench_spends same x
    · cases c with
      | send => rw [same]; exact Nat.le_refl _
      | _ => cases refusal
  exact course.spends step

/-- A timer waits with a datagram, and the second send is refused. -/
theorem a_flush_empties_the_workbench :
    let polled := Bench.polled "left" 1200
    let sent := Bench.sent "left"
    (∀ x, ∃ most, ∀ rounds drains, fruitful x
        (Bench.leftOver.flush rounds drains workbench.impatient Bench.busy).trace.calls ≤ most) ∧
      (∀ rounds drains, refusals
        (Bench.leftOver.flush rounds drains workbench.impatient Bench.busy).trace.calls ≤ 2) ∧
      ∃ least, ∀ rounds ≥ least, ∀ drains > 2,
        let run := Bench.leftOver.flush rounds drains workbench.impatient Bench.busy
        (run.value.1 = .completed ∧ run.value.2.isEmpty = true ∧
          heard run.trace.calls =
            [sent [7], polled [1], sent [1], polled [2], sent [2], polled [],
              .release (.withCapacity 1200), .dispose ⟨"left"⟩]) ∧
          ∃ n ≤ 3, Bench.leftOver.ByHand workbench.impatient rounds Bench.busy n run := by
  intro polled sent
  have course : ∀ rounds drains, Course workbench.impatient (fun _ => True) Bench.busy
      (Bench.leftOver.flush rounds drains workbench.impatient Bench.busy).trace.calls
      (Bench.leftOver.flush rounds drains workbench.impatient Bench.busy).world :=
    fun rounds drains => flush_course drains Bench.leftOver Bench.busy
  have rations : workbench.impatient.Rations fun w => w.2.length :=
    impatient_rations workbench_patient
  have exhausted : ∀ x, ∃ most, ∀ rounds drains, fruitful x
      (Bench.leftOver.flush rounds drains workbench.impatient Bench.busy).trace.calls ≤ most :=
    fun x => ⟨2, fun rounds drains =>
      Nat.le_trans (Nat.le_add_left _ _) (impatient_course (course rounds drains) x)⟩
  have rationed : ∀ rounds drains, refusals
      (Bench.leftOver.flush rounds drains workbench.impatient Bench.busy).trace.calls ≤ 2 :=
    fun rounds drains => by
      have used := rations_course rations (course rounds drains)
      exact Nat.le_trans (Nat.le_add_left _ _) used
  obtain ⟨least, ends⟩ := a_flush_empties_the_backlog workbench.impatient Bench.leftOver
    Bench.busy 2 exhausted rationed
  refine ⟨exhausted, rationed, max least 4, fun rounds enough drains more => ?_⟩
  obtain ⟨n, le, -, hand, -⟩ := ends rounds (by omega) drains more
  have run : Bench.leftOver.flush rounds drains workbench.impatient Bench.busy =
      Bench.leftOver.flush 4 2 workbench.impatient Bench.busy :=
    flush_of_le (by omega) (by omega) (by decide)
  refine ⟨?_, n, le, hand⟩
  rw [run]
  exact ⟨rfl, rfl, rfl⟩

end Backlog

end Outbox
