-- Drains, one after the other, until no command waits. Where nothing is
-- refused, each command that waits is attempted once, in order. Where a
-- channel refuses, drains put commands off and take them up again, and in the
-- end they have done the same. They end, because each of them either finishes,
-- or gives a command up, or uses up a refusal.
import Outbox.Proofs.Endings
import Outbox.Proofs.Resumptions

namespace Outbox

/-- The failure with which an operation ends. -/
def Progress.failure? : Progress → Option Failure
  | .failed failure => some failure
  | .completed | .refused | .unfinished => none

namespace Backlog

variable {σ : Type} {s : Surroundings σ} {w : σ} {rounds : Nat}

/-- Drains again and again, whatever comes of it, until no command waits, at
most as often as granted. -/
def drainOut (rounds : Nat) : Nat → Backlog → Act σ (List Progress × Backlog)
  | 0, b => return ([], b)
  | drains + 1, b => do
    let (progress, b) ← b.drain rounds
    if progress = .completed then return ([progress], b)
    else do
      let (later, b) ← drainOut rounds drains b
      return (progress :: later, b)

/-! ## One drain -/

theorem resumeAll_completed {c : Command} (behind : List Command)
    (h : (c.serve rounds s w).value.1 = .completed) :
    resumeAll rounds (c :: behind) s w =
      (resumeAll rounds behind s (c.serve rounds s w).world).after (c.serve rounds s w).trace := by
  rw [resumeAll_cons]
  simp only [Act.bind_apply]
  rcases hx : c.serve rounds s w with ⟨⟨p, c'⟩, t, w'⟩
  rw [hx] at h
  obtain rfl : p = .completed := h
  rfl

theorem resumeAll_stopped {c : Command} (behind : List Command)
    (h : (c.serve rounds s w).value.1 ≠ .completed) :
    resumeAll rounds (c :: behind) s w =
      ⟨((c.serve rounds s w).value.1,
          if (c.serve rounds s w).value.1.waits then (c.serve rounds s w).value.2 :: behind
          else behind),
        (c.serve rounds s w).trace, (c.serve rounds s w).world⟩ := by
  rw [resumeAll_cons]
  simp only [Act.bind_apply]
  rcases hx : c.serve rounds s w with ⟨⟨p, c'⟩, t, w'⟩
  rw [hx] at h
  cases p with
  | completed => exact absurd rfl h
  | _ => simp [resumeBehind, Progress.waits]

theorem resumeAll_course (rounds : Nat) (waiting : List Command) (s : Surroundings σ) (w : σ) :
    Course s (fun _ => True) w (resumeAll rounds waiting s w).trace.calls
      (resumeAll rounds waiting s w).world := by
  induction waiting generalizing w with
  | nil => exact .nil w
  | cons c behind ih =>
    have hc := (Command.serve_course rounds c s w).1.mono fun _ _ => trivial
    by_cases h : (c.serve rounds s w).value.1 = .completed
    · rw [resumeAll_completed behind h, trace_after, Trace.calls_append, world_after]
      exact hc.append (ih _)
    · rw [resumeAll_stopped behind h]
      exact hc

/-- Apart from a note, a drain resumes the commands that wait. -/
theorem drain_eq (rounds : Nat) (b : Backlog) (s : Surroundings σ) (w : σ) :
    let work := resumeAll rounds b.waiting s w
    (b.drain rounds s w).value = (work.value.1, { b with waiting := work.value.2 }) ∧
      (b.drain rounds s w).trace.calls = work.trace.calls ∧
      (b.drain rounds s w).world = work.world := by
  obtain ⟨policy, waiting⟩ := b
  cases waiting with
  | nil => exact ⟨rfl, rfl, rfl⟩
  | cons c behind => simp [drain, isEmpty, Act.note]

/-! ## Many drains -/

theorem drainOut_last (drains : Nat) (b : Backlog)
    (h : (resumeAll rounds b.waiting s w).value.1 = .completed) :
    let work := resumeAll rounds b.waiting s w
    (b.drainOut rounds (drains + 1) s w).value =
        ([.completed], { b with waiting := work.value.2 }) ∧
      (b.drainOut rounds (drains + 1) s w).trace.calls = work.trace.calls ∧
      (b.drainOut rounds (drains + 1) s w).world = work.world := by
  obtain ⟨hv, ht, hw⟩ := b.drain_eq rounds s w
  rw [h] at hv
  simp [drainOut, hv, ht, hw]

theorem drainOut_again (drains : Nat) (b : Backlog)
    (h : (resumeAll rounds b.waiting s w).value.1 ≠ .completed) :
    let work := resumeAll rounds b.waiting s w
    let later := ({ b with waiting := work.value.2 } : Backlog).drainOut rounds drains s work.world
    (b.drainOut rounds (drains + 1) s w).value =
        (work.value.1 :: later.value.1, later.value.2) ∧
      (b.drainOut rounds (drains + 1) s w).trace.calls =
        work.trace.calls ++ later.trace.calls ∧
      (b.drainOut rounds (drains + 1) s w).world = later.world := by
  obtain ⟨hv, ht, hw⟩ := b.drain_eq rounds s w
  simp [drainOut, hv, ht, hw, h]

/-- After a command that completes, drains go on as those of the commands
behind it. -/
theorem drainOut_completed {c : Command} (policy : Policy) (behind : List Command) (drains : Nat)
    (h : (c.serve rounds s w).value.1 = .completed) :
    (({ policy, waiting := c :: behind } : Backlog).drainOut rounds (drains + 1) s w).trace.calls =
      (c.serve rounds s w).trace.calls ++
        (({ policy, waiting := behind } : Backlog).drainOut rounds (drains + 1) s
          (c.serve rounds s w).world).trace.calls := by
  have hall := resumeAll_completed behind h
  by_cases hdone : (resumeAll rounds behind s (c.serve rounds s w).world).value.1 = .completed
  · obtain ⟨-, hbehind, -⟩ := drainOut_last drains { policy, waiting := behind } hdone
    obtain ⟨-, hfirst, -⟩ := drainOut_last drains { policy, waiting := c :: behind }
      (by rw [hall]; exact hdone)
    rw [hbehind, hfirst, hall, trace_after, Trace.calls_append]
  · obtain ⟨-, hbehind, -⟩ := drainOut_again drains { policy, waiting := behind } hdone
    obtain ⟨-, hfirst, -⟩ := drainOut_again drains { policy, waiting := c :: behind }
      (by rw [hall]; exact hdone)
    rw [hbehind, hfirst, hall, trace_after, value_after, world_after, Trace.calls_append,
      List.append_assoc]

/-- A command that does not complete ends the first of the drains. -/
theorem drainOut_stopped {c : Command} (policy : Policy) (behind : List Command) (drains : Nat)
    (h : (c.serve rounds s w).value.1 ≠ .completed) :
    let waiting := if (c.serve rounds s w).value.1.waits then (c.serve rounds s w).value.2 :: behind
      else behind
    (({ policy, waiting := c :: behind } : Backlog).drainOut rounds (drains + 1) s w).trace.calls =
      (c.serve rounds s w).trace.calls ++
        (({ policy, waiting } : Backlog).drainOut rounds drains s
          (c.serve rounds s w).world).trace.calls := by
  have hall := resumeAll_stopped behind h
  obtain ⟨-, hfirst, -⟩ := drainOut_again drains { policy, waiting := c :: behind }
    (by rw [hall]; exact h)
  rw [hfirst, hall]

theorem drainOut_course (rounds drains : Nat) (b : Backlog) (s : Surroundings σ) (w : σ) :
    Course s (fun _ => True) w (b.drainOut rounds drains s w).trace.calls
      (b.drainOut rounds drains s w).world := by
  induction drains generalizing b w with
  | zero => exact .nil w
  | succ drains ih =>
    have hc := resumeAll_course rounds b.waiting s w
    by_cases h : (resumeAll rounds b.waiting s w).value.1 = .completed
    · obtain ⟨-, ht, hw⟩ := b.drainOut_last drains h
      rw [ht, hw]
      exact hc
    · obtain ⟨-, ht, hw⟩ := b.drainOut_again drains h
      rw [ht, hw]
      exact hc.append (ih _ _)

/-! ## More rounds, and more drains -/

section MoreRounds

variable {m n : Nat} {b : Backlog}

theorem resumeAll_of_le (h : m ≤ n) {waiting : List Command}
    (done : (resumeAll m waiting s w).value.1 ≠ .unfinished) :
    resumeAll n waiting s w = resumeAll m waiting s w := by
  induction waiting generalizing w with
  | nil => rfl
  | cons c behind ih =>
    by_cases completed : (c.serve m s w).value.1 = .completed
    · have same : c.serve n s w = c.serve m s w :=
        Command.serve_of_le h (by simp [completed])
      rw [resumeAll_completed behind completed] at done ⊢
      rw [resumeAll_completed behind (same ▸ completed), same, ih done]
    · rw [resumeAll_stopped behind completed] at done ⊢
      have same : c.serve n s w = c.serve m s w := Command.serve_of_le h done
      rw [resumeAll_stopped behind (same ▸ completed), same]

theorem drain_of_le (h : m ≤ n) (done : (b.drain m s w).value.1 ≠ .unfinished) :
    b.drain n s w = b.drain m s w := by
  have ended : (resumeAll m b.waiting s w).value.1 ≠ .unfinished := by
    rwa [(b.drain_eq m s w).1] at done
  unfold drain
  split
  · rfl
  · simp only [Act.bind_apply, Act.note, resumeAll_of_le h ended]

theorem perform_of_le (h : m ≤ n) {r : Request}
    (done : (b.perform m r s w).value.1 ≠ .unfinished) :
    b.perform n r s w = b.perform m r s w := by
  rcases made : r.command? b.policy with _ | c
  · obtain rfl := command?_eq_none made
    exact drain_of_le h done
  · rw [perform_submission m b made] at done ⊢
    rw [perform_submission n b made]
    simp only [submit_eq, Act.bind_apply, Act.pure_apply] at done ⊢
    rw [Command.serve_of_le h done]

/-- Requests that came to their ends come to the same ends with more rounds. -/
theorem performAll_of_le (h : m ≤ n) {requests : List Request}
    (done : ∀ p ∈ (b.performAll m requests s w).value.1, p ≠ .unfinished) :
    b.performAll n requests s w = b.performAll m requests s w := by
  induction requests generalizing b w with
  | nil => rfl
  | cons r rest ih =>
    simp only [performAll, Act.bind_apply, Act.pure_apply, List.forall_mem_cons] at done ⊢
    rw [perform_of_le h done.1, ih done.2]

theorem drainOut_of_le (h : m ≤ n) {drains more : Nat} (le : drains ≤ more)
    (done : ∀ p ∈ (b.drainOut m drains s w).value.1, p ≠ .unfinished)
    (last : (b.drainOut m drains s w).value.1.getLast? = some .completed) :
    b.drainOut n more s w = b.drainOut m drains s w := by
  induction drains generalizing b w more with
  | zero => cases last
  | succ drains ih =>
    obtain ⟨more, rfl⟩ : ∃ k, more = k + 1 := ⟨more - 1, by omega⟩
    simp only [drainOut, Act.bind_apply] at done last ⊢
    by_cases completed : (b.drain m s w).value.1 = .completed
    · have same : b.drain n s w = b.drain m s w := drain_of_le h (by simp [completed])
      simp [same, completed]
    · simp only [completed, if_false, Act.bind_apply, Act.pure_apply, List.forall_mem_cons]
        at done last ⊢
      have same : b.drain n s w = b.drain m s w := drain_of_le h done.1
      have some : (drainOut m drains (b.drain m s w).value.2 s
          (b.drain m s w).world).value.1 ≠ [] := by
        intro none
        rw [none] at last
        exact completed (Option.some.inj last)
      rw [List.getLast?_cons_of_ne_nil some] at last
      simp only [same, completed, if_false, Act.bind_apply, Act.pure_apply,
        ih (Nat.le_of_succ_le_succ le) done.2 last]

end MoreRounds

end Backlog

/-! ## What it takes to be done -/

section Spent

variable {σ : Type} {s : Surroundings σ} {w w' : σ} {least : Nat}

/-- What it takes to be done with some commands, each of them attempted to its
end, one after the other: the calls, the failures, and the world at the end. -/
inductive Spent (s : Surroundings σ) (least : Nat) :
    List Command → σ → List Call → List Failure → σ → Prop where
  | nil (w : σ) : Spent s least [] w [] [] w
  | cons {c : Command} {behind : List Command} {w w' : σ} {y : Ran σ (Progress × Command)}
      {calls : List Call} {failures : List Failure} (ends : c.Ends s least w y)
      (rest : Spent s least behind (y.left s) calls failures w') :
      Spent s least (c :: behind) w (y.allCalls ++ calls)
        (y.value.1.failure?.toList ++ failures) w'

theorem spent_mono {least' : Nat} (h : least ≤ least') {waiting : List Command}
    {calls : List Call} {failures : List Failure}
    (spent : Spent s least waiting w calls failures w') :
    Spent s least' waiting w calls failures w' := by
  induction spent with
  | nil => exact .nil _
  | cons ends _ ih => exact .cons ⟨fun n hn => ends.ends n (Nat.le_trans h hn), ends.settled⟩ ih

theorem spent_cons {least' : Nat} {c : Command} {behind : List Command}
    {y : Ran σ (Progress × Command)} {calls : List Call} {failures : List Failure}
    (pos : 0 < least) (ends : c.Ends s least w y)
    (rest : Spent s least' behind (y.left s) calls failures w') :
    ∃ n, 0 < n ∧ Spent s n (c :: behind) w (y.allCalls ++ calls)
      (y.value.1.failure?.toList ++ failures) w' := by
  have ends' : c.Ends s (max least least') w y :=
    ⟨fun n hn => ends.ends n (Nat.le_trans (Nat.le_max_left ..) hn), ends.settled⟩
  have rest' := spent_mono (Nat.le_max_right least least') rest
  exact ⟨max least least', Nat.lt_of_lt_of_le pos (Nat.le_max_left ..), .cons ends' rest'⟩

theorem Command.ends_unique {least' : Nat} {c : Command} {y y' : Ran σ (Progress × Command)}
    (h : c.Ends s least w y) (h' : c.Ends s least' w y') : y = y' :=
  (h.ends (max least least') (Nat.le_max_left ..)).symm.trans
    (h'.ends (max least least') (Nat.le_max_right ..))

end Spent

/-! ## Debts -/

section Debts

variable {σ τ φ : Type} {s : Surroundings σ} {rounds : Nat} {tell : Call → Option τ}
  {fails : Progress → Option φ} {owes : List Command → σ → List τ → List φ → Prop}

/-- What the commands that wait owe at a moment: what is yet to be told of the
calls, and how commands are yet to fail. An attempt pays what it tells. If it is
refused, its command owes the rest, and if not, those behind it do. -/
structure Ledger (s : Surroundings σ) (rounds : Nat) (tell : Call → Option τ)
    (fails : Progress → Option φ) (owes : List Command → σ → List τ → List φ → Prop) : Prop where
  nothing {w : σ} {due : List τ} {failures : List φ} (h : owes [] w due failures) :
    due = [] ∧ failures = []
  attempt {c : Command} {behind : List Command} {w : σ} {due : List τ} {failures : List φ}
    (h : owes (c :: behind) w due failures) :
    let x := c.serve rounds s w
    let paid := x.trace.calls.filterMap tell
    (x.value.1 = .refused ∧
      ∃ due', owes (x.value.2 :: behind) x.world due' failures ∧ due = paid ++ due') ∨
    (x.value.1.waits = false ∧ ∃ due' failures', owes behind x.world due' failures' ∧
      due = paid ++ due' ∧ failures = (fails x.value.1).toList ++ failures')
  completed : fails .completed = none
  refused : fails .refused = none

/-- What a drain pays. It finishes, or gives a command up, or uses up a
refusal. -/
structure Paid (tell : Call → Option τ) (fails : Progress → Option φ)
    (owes : List Command → σ → List τ → List φ → Prop) (waiting : List Command) (due : List τ)
    (failures : List φ) (x : Ran σ (Progress × List Command)) : Prop where
  rest : ∃ due' failures', owes x.value.2 x.world due' failures' ∧
    due = x.trace.calls.filterMap tell ++ due' ∧
    failures = (fails x.value.1).toList ++ failures'
  emptied : x.value.1 = .completed → x.value.2 = []
  shorter : x.value.1 ≠ .completed →
    x.value.2.length < waiting.length + refusals x.trace.calls

/-- A command that is refused has used up a refusal. -/
theorem Command.serve_refused {w : σ} {c : Command}
    (refused : (c.serve rounds s w).value.1 = .refused) :
    0 < refusals (c.serve rounds s w).trace.calls := by
  obtain ⟨hv, hc, -⟩ := Command.serve_eq rounds c s w
  have hpos := c.resume_refused rounds s w (by rw [← hv]; exact refused)
  rw [hc, refusals_append]
  omega

theorem Ledger.resumeAll (ledger : Ledger s rounds tell fails owes) {waiting : List Command}
    {w : σ} {due : List τ} {failures : List φ} (h : owes waiting w due failures) :
    Paid tell fails owes waiting due failures (Backlog.resumeAll rounds waiting s w) := by
  induction waiting generalizing w due failures with
  | nil =>
    refine ⟨⟨due, failures, h, rfl, ?_⟩, fun _ => rfl, fun h => absurd rfl h⟩
    simp [Backlog.resumeAll, ledger.completed]
  | cons c behind ih =>
    rcases ledger.attempt h with
      ⟨refused, due', rest, hdue⟩ | ⟨settled, due', failures', rest, hdue, hfail⟩
    · have waits : (c.serve rounds s w).value.1.waits = true := by rw [refused]; rfl
      have used := Command.serve_refused refused
      rw [Backlog.resumeAll_stopped behind (by simp [refused]), if_pos waits]
      refine ⟨⟨due', failures, rest, hdue, ?_⟩, fun h => ?_, fun _ => ?_⟩
      · simp [refused, ledger.refused]
      · simp [refused] at h
      · simp only [List.length_cons]
        omega
    · by_cases done : (c.serve rounds s w).value.1 = .completed
      · obtain ⟨⟨due'', failures'', rest, hdue', hfail'⟩, emptied, shorter⟩ := ih rest
        rw [Backlog.resumeAll_completed behind done]
        refine ⟨⟨due'', failures'', rest, ?_, ?_⟩, emptied, fun h => ?_⟩
        · simp [hdue, hdue']
        · simp [hfail, done, ledger.completed, hfail']
        · have := shorter h
          simp only [value_after, trace_after, Trace.calls_append, refusals_append,
            List.length_cons] at this ⊢
          omega
      · rw [Backlog.resumeAll_stopped behind done, settled, if_neg Bool.false_ne_true]
        refine ⟨⟨due', failures', rest, hdue, hfail⟩, fun h => absurd h done, fun _ => ?_⟩
        simp only [List.length_cons]
        omega

/-- Drains pay all debts, if there are more of them than commands and refusals. -/
theorem Ledger.drainOut (ledger : Ledger s rounds tell fails owes) {left : σ → Nat}
    (rations : s.Rations left) {b : Backlog} {w : σ} {due : List τ} {failures : List φ}
    (h : owes b.waiting w due failures) {drains : Nat}
    (enough : b.waiting.length + left w < drains) :
    let x := b.drainOut rounds drains s w
    x.trace.calls.filterMap tell = due ∧ x.value.1.filterMap fails = failures ∧
      owes [] x.world [] [] ∧ x.value.2.waiting = [] ∧
      x.value.1.getLast? = some .completed := by
  induction drains generalizing b w due failures with
  | zero => omega
  | succ drains ih =>
    obtain ⟨⟨due', failures', rest, hdue, hfail⟩, emptied, shorter⟩ := ledger.resumeAll h
    have hleft := rations_course rations (Backlog.resumeAll_course rounds b.waiting s w)
    by_cases done : (Backlog.resumeAll rounds b.waiting s w).value.1 = .completed
    · obtain ⟨hv, htrace, hworld⟩ := b.drainOut_last drains done
      rw [emptied done] at rest
      obtain ⟨rfl, rfl⟩ := ledger.nothing rest
      simp only [hv, htrace, hworld]
      refine ⟨?_, ?_, rest, emptied done, rfl⟩
      · simpa using hdue.symm
      · simp [hfail, done, ledger.completed]
    · obtain ⟨hv, htrace, hworld⟩ := b.drainOut_again drains done
      have shorter := shorter done
      obtain ⟨h1, h2, h3, h4, h5⟩ := ih (b := { b with
        waiting := (Backlog.resumeAll rounds b.waiting s w).value.2 }) rest
        (by simp only; omega)
      simp only [hv, htrace, hworld]
      refine ⟨?_, ?_, h3, h4, ?_⟩
      · rw [List.filterMap_append, h1, hdue]
      · rw [hfail, ← h2]
        cases hf : fails (Backlog.resumeAll rounds b.waiting s w).value.1 <;> simp [hf]
      · rw [List.getLast?_cons, h5]
        rfl

end Debts

/-! ## Drains near and far -/

/-- A mirror in which a command is the very same near and far. -/
structure Mirror.Faithful {σ₁ σ₂ τ : Type} (m : Mirror σ₁ σ₂ τ) : Prop where
  same {a b : Buffer} : m.alike a b ↔ a = b
  everywhere (c : Connection) : m.about c

section Near

variable {σ₁ σ₂ τ : Type} {m : Mirror σ₁ σ₂ τ} {rounds least : Nat}

theorem Mirror.Faithful.eq_of_rel (faithful : m.Faithful) {held held' : Option Buffer}
    (h : Option.Rel m.alike held held') : held = held' := by
  cases h with
  | some ab => rw [faithful.same.1 ab]
  | none => rfl

theorem Mirror.Faithful.eq_of_alike (faithful : m.Faithful) {c c' : Command}
    (h : m.AlikeCommand c c') : c = c' := by
  cases h with
  | write alike =>
    obtain ⟨held, hheld, rfl⟩ := alike
    rw [← faithful.eq_of_rel hheld]
  | flush alike =>
    obtain ⟨held, hheld, rfl⟩ := alike
    rw [← faithful.eq_of_rel hheld]
  | timer alike =>
    obtain ⟨flush, ⟨held, hheld, rfl⟩, rfl⟩ := alike
    rw [← faithful.eq_of_rel hheld]

/-- A command that ends far is refused near, and is left with the rest of its
way, or it ends near in the same way. -/
theorem Command.serve_toward (m : Mirror σ₁ σ₂ τ) (pos : 0 < least) (le : least ≤ rounds)
    {c q : Command} {w : σ₁} {v : σ₂} {y : Ran σ₂ (Progress × Command)}
    (same : m.AlikeCommand c q) (wv : m.related w v) (hc : ∀ x, c.connection? = some x → m.about x)
    (ends : q.Ends m.far least v y) :
    let x := c.serve rounds m.near w
    (x.value.1 = .refused ∧ ∃ u q' v' y', y = y'.after u ∧ m.AlikeCommand x.value.2 q' ∧
      q'.Ends m.far least v' y' ∧ m.related x.world v' ∧ m.told x.trace.calls = m.told u.calls) ∨
    (x.value.1.waits = false ∧ x.value.1 = y.value.1 ∧ m.related x.world (y.left m.far) ∧
      m.told x.trace.calls = m.told y.allCalls) := by
  obtain ⟨putOff, unfinished, ended⟩ := Command.serve_follows m rounds same wv hc
  intro x
  have finished : x.value.1 ≠ .unfinished := fun h => by
    have h := unfinished h
    have settled := ends.settled
    rw [ends.ends rounds le] at h
    simp [h, Progress.waits] at settled
  cases waits : x.value.1.waits with
  | true =>
    have refused : x.value.1 = .refused := by
      cases h : x.value.1 <;> simp_all [Progress.waits]
    obtain ⟨u, q', v', passes, alike, hw, ht⟩ := putOff waits
    obtain ⟨y', rfl, ends'⟩ := ends_of_passes pos passes ends.ends
    exact Or.inl ⟨refused, u, q', v', y', rfl, alike, ⟨ends', ends.settled⟩, hw, ht⟩
  | false =>
    obtain ⟨y₂, ends₂, hp, hw, ht⟩ := ended waits
    obtain rfl := Command.ends_unique ends ends₂
    exact Or.inr ⟨rfl, hp, hw, ht⟩

/-- What it takes to be done far is what the commands owe near. -/
theorem Mirror.Faithful.ledger (faithful : m.Faithful) (pos : 0 < least) (le : least ≤ rounds)
    (final : σ₂) :
    Ledger m.near rounds m.tell Progress.failure? fun waiting w due failures =>
      ∃ v calls, Spent m.far least waiting v calls failures final ∧ m.related w v ∧
        m.told calls = due where
  nothing := by
    rintro w due failures ⟨v, calls, spent, -, rfl⟩
    cases spent
    exact ⟨rfl, rfl⟩
  attempt := by
    rintro c behind w due failures ⟨v, calls, spent, wv, rfl⟩
    cases spent with
    | @cons _ _ _ _ y calls failures ends rest =>
      have same := Mirror.alikeCommand_refl m (fun b => faithful.same.2 rfl) c
      rcases Command.serve_toward m pos le same wv (fun x _ => faithful.everywhere x) ends with
        ⟨refused, u, q, v', y', rfl, alike, ends', hw, ht⟩ | ⟨settled, hp, hw, ht⟩
      · obtain rfl := faithful.eq_of_alike alike
        have spent : Spent m.far least ((c.serve rounds m.near w).value.2 :: behind) v'
            (y'.allCalls ++ calls) (y'.value.1.failure?.toList ++ failures) final :=
          .cons ends' rest
        refine Or.inl ⟨refused, m.told (y'.allCalls ++ calls),
          ⟨v', _, spent, hw, rfl⟩, ?_⟩
        rw [show List.filterMap m.tell _ = m.told u.calls from ht]
        simp [Ran.allCalls, Ran.after]
      · refine Or.inr ⟨settled, m.told calls, failures, ⟨_, _, rest, hw, rfl⟩, ?_, ?_⟩
        · rw [show List.filterMap m.tell _ = m.told y.allCalls from ht, m.told_append]
        · rw [hp]
  completed := rfl
  refused := rfl

/-- Drains near do what it takes to be done far, if there are more of them than
commands and refusals. -/
theorem drainOut_drained {left : σ₁ → Nat} (faithful : m.Faithful) (rations : m.near.Rations left)
    (pos : 0 < least) (le : least ≤ rounds) {b : Backlog} {w : σ₁} {v final : σ₂}
    {calls : List Call} {failures : List Failure}
    (spent : Spent m.far least b.waiting v calls failures final) (wv : m.related w v)
    {drains : Nat} (enough : b.waiting.length + left w < drains) :
    let x := b.drainOut rounds drains m.near w
    m.told x.trace.calls = m.told calls ∧ x.value.1.filterMap Progress.failure? = failures ∧
      m.related x.world final ∧ x.value.2.waiting = [] ∧
      x.value.1.getLast? = some .completed := by
  obtain ⟨told, failed, ⟨v', calls', spent', related, -⟩, emptied, last⟩ :=
    (faithful.ledger pos le final).drainOut rations ⟨v, calls, spent, wv, rfl⟩ enough
  cases spent'
  exact ⟨told, failed, related, emptied, last⟩

end Near

/-! ## An end to it -/

section Patient

variable {σ : Type} {s : Surroundings σ} {w w' : σ}

/-- No channel refuses. -/
def Surroundings.Patient (s : Surroundings σ) : Prop :=
  ∀ channel datagram destination w, (s.send channel datagram destination w).1 ≠ .ok 0

theorem patient_rations (patient : s.Patient) : s.Rations fun _ => 0 := by
  intro c w w' takes
  rcases c with _ | _ | _ | _ | _ | _ | _ | _ | ⟨channel, datagram, destination, _ | _ | n⟩ <;>
    simp only [Call.isRefusal, Bool.false_eq_true, if_false, Nat.le_refl]
  have h := patient channel datagram destination w
  rw [show s.send channel datagram destination w = (.ok 0, w') from takes] at h
  exact absurd rfl h

/-- Where no channel refuses, a command is done with in one attempt. -/
theorem serve_patient (patient : s.Patient) (rounds : Nat) (c : Command) (w : σ) :
    (c.resume rounds s w).value.1 ≠ .refused := fun h => by
  have hpos := c.resume_refused rounds s w h
  have hleft := rations_course (patient_rations patient) (c.resume_course rounds s w).1
  omega

/-- A command comes to its end, if the engine of its connection produces
something only so often in its attempts. -/
theorem exists_ends (patient : s.Patient) (c : Command) (w : σ)
    (exhausted : ∀ x, ∃ most least, ∀ rounds ≥ least,
      fruitful x (c.resume rounds s w).trace.calls ≤ most) :
    ∃ least y, 0 < least ∧ c.Ends s least w y := by
  have hdone : ∃ n, 0 < n ∧ (c.resume n s w).value.1 ≠ .unfinished := by
    rcases hc : c.connection? with _ | x
    · refine ⟨1, Nat.one_pos, fun h => ?_⟩
      obtain ⟨x, hx, -⟩ := c.resume_unfinished 1 s w h
      simp [hc] at hx
    · obtain ⟨most, least, hmost⟩ := exhausted x
      refine ⟨least + most + 4, by omega, fun h => ?_⟩
      obtain ⟨x', hx', hcost⟩ := c.resume_unfinished _ s w h
      obtain rfl : x = x' := Option.some.inj (hc.symm.trans hx')
      have := hmost (least + most + 4) (by omega)
      omega
  obtain ⟨n, pos, hn⟩ := hdone
  refine ⟨n, c.resume n s w, pos, fun k hk => Command.resume_of_le hk hn, ?_⟩
  have hrefused := serve_patient patient n c w
  cases h : (c.resume n s w).value.1 <;> simp_all [Progress.waits]

theorem serve_ends {least rounds : Nat} {c : Command} {y : Ran σ (Progress × Command)}
    (ends : c.Ends s least w y) (le : least ≤ rounds) :
    (c.serve rounds s w).value = y.value ∧ (c.serve rounds s w).trace.calls = y.allCalls ∧
      (c.serve rounds s w).world = y.left s := by
  obtain ⟨hv, ht, hw⟩ := Command.serve_eq rounds c s w
  rw [ends.ends rounds le] at hv ht hw
  exact ⟨hv, ht, hw⟩

theorem fruitful_mono {l m : List Call} (h : l <+: m) (x : Connection) :
    fruitful x l ≤ fruitful x m := h.sublist.countP_le

/-- A command comes to its end, if runs that begin with an attempt at it produce
something only so often. -/
theorem exists_ends_of_begins (patient : s.Patient) {c : Command} {run : Nat → List Call}
    (begins : ∀ rounds, (c.serve rounds s w).trace.calls <+: run rounds)
    (exhausted : ∀ x, ∃ most least, ∀ rounds ≥ least, fruitful x (run rounds) ≤ most) :
    ∃ least y, 0 < least ∧ c.Ends s least w y := by
  refine exists_ends patient c w fun x => ?_
  obtain ⟨most, least, hmost⟩ := exhausted x
  refine ⟨most, least, fun rounds hr => ?_⟩
  obtain ⟨-, ht, -⟩ := Command.serve_eq rounds c s w
  have within := begins rounds
  rw [ht] at within
  exact Nat.le_trans (fruitful_mono ((List.prefix_append _ _).trans within) x) (hmost rounds hr)

/-- Drains begin with an attempt at the first command that waits. -/
theorem drainOut_begins (rounds drains : Nat) (policy : Policy) (c : Command)
    (behind : List Command) (s : Surroundings σ) (w : σ) :
    (c.serve rounds s w).trace.calls <+: (({ policy, waiting := c :: behind } : Backlog).drainOut
      rounds (drains + 1) s w).trace.calls := by
  by_cases h : (c.serve rounds s w).value.1 = .completed
  · rw [Backlog.drainOut_completed policy behind drains h]
    exact List.prefix_append _ _
  · rw [Backlog.drainOut_stopped policy behind drains h]
    exact List.prefix_append _ _

/-- The calls of drains that come after a command that ends are among those of
drains that begin with it. -/
theorem fruitful_behind {least rounds : Nat} {c : Command} {y : Ran σ (Progress × Command)}
    (ends : c.Ends s least w y) (le : least ≤ rounds) (policy : Policy) (behind : List Command)
    (drains : Nat) (x : Connection) :
    ∃ drains', fruitful x y.allCalls +
        fruitful x (({ policy, waiting := behind } : Backlog).drainOut rounds drains s
          (y.left s)).trace.calls ≤
      fruitful x (({ policy, waiting := c :: behind } : Backlog).drainOut
        rounds drains' s w).trace.calls := by
  obtain ⟨hv, ht, hw⟩ := serve_ends ends le
  by_cases hdone : (c.serve rounds s w).value.1 = .completed
  · rcases drains with _ | drains
    · refine ⟨1, ?_⟩
      have hpre := fruitful_mono (drainOut_begins rounds 0 policy c behind s w) x
      rw [ht] at hpre
      exact hpre
    · refine ⟨drains + 1, Nat.le_of_eq ?_⟩
      rw [Backlog.drainOut_completed policy behind drains hdone, fruitful_append, ht, hw]
  · refine ⟨drains + 1, Nat.le_of_eq ?_⟩
    have hwaits : (c.serve rounds s w).value.1.waits = false := by
      rw [hv]
      exact ends.settled
    have hstopped := Backlog.drainOut_stopped policy behind drains hdone
    rw [hwaits, if_neg Bool.false_ne_true] at hstopped
    rw [hstopped, fruitful_append, ht, hw]

/-- What waits is in the end done with, if no channel refuses and each engine
produces something only finitely often. -/
theorem exists_spent (patient : s.Patient) (policy : Policy) (waiting : List Command) (w : σ)
    (exhausted : ∀ x, ∃ most least, ∀ rounds ≥ least, ∀ drains,
      fruitful x (({ policy, waiting } : Backlog).drainOut rounds drains s w).trace.calls ≤ most) :
    ∃ least calls failures final, 0 < least ∧ Spent s least waiting w calls failures final := by
  induction waiting generalizing w with
  | nil => exact ⟨1, [], [], w, Nat.one_pos, .nil w⟩
  | cons c behind ih =>
    obtain ⟨least, y, pos, ends⟩ := exists_ends_of_begins patient
      (fun rounds => drainOut_begins rounds 0 policy c behind s w) fun x => by
        obtain ⟨most, least, hmost⟩ := exhausted x
        exact ⟨most, least, fun rounds hr => hmost rounds hr 1⟩
    obtain ⟨least', calls, failures, final, -, spent⟩ := ih (y.left s) fun x => by
      obtain ⟨most, least₂, hmost⟩ := exhausted x
      refine ⟨most, max least least₂, fun rounds hr drains => ?_⟩
      obtain ⟨drains', hle⟩ := fruitful_behind ends
        (Nat.le_trans (Nat.le_max_left ..) hr) policy behind drains x
      have := hmost rounds (by omega) drains'
      omega
    obtain ⟨n, posn, spent'⟩ := spent_cons pos ends spent
    exact ⟨n, _, _, final, posn, spent'⟩

end Patient

end Outbox
