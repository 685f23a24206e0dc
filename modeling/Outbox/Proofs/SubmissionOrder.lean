-- Commands that wait are taken up in the order of their submission. A refused
-- command goes back to the front, a new one joins at the back with a number
-- above all others, and a drain begins at the front. So no drain passes a
-- command by, and none comes back to a number below one that it attempted.
import Outbox.Proofs.DatagramAccount
import Outbox.Proofs.Lives

namespace Outbox

variable {σ : Type} {s : Surroundings σ} {rounds : Nat}

/-! ## What drains attempt -/

/-- The attempts that the drains among some requests make, out of what each
request does. -/
def attemptsOfDrains : List Backlog.Request → List (List Stint) → List Stint
  | .drain :: requests, stints :: operations => stints ++ attemptsOfDrains requests operations
  | _ :: requests, _ :: operations => attemptsOfDrains requests operations
  | [], _ | _, [] => []

/-- The datagrams that channels accepted, each with the number of its command. -/
def departures (attempts : List Stint) : List (Nat × Bytes) :=
  attempts.flatMap fun st => (accepted st.trace.calls).map fun datagram => (st.number, datagram)

theorem departures_datagrams (attempts : List Stint) :
    (departures attempts).map Prod.snd = accepted (traceOf attempts).calls := by
  rw [accepted_traceOf, departures, List.map_flatMap]
  simp

theorem departures_pairwise {attempts : List Stint}
    (ordered : (attempts.map Stint.number).Pairwise (· ≤ ·)) :
    (departures attempts).Pairwise fun a b => a.1 ≤ b.1 := by
  refine List.pairwise_flatMap.2 ⟨fun st _ => ?_, ?_⟩
  · exact List.pairwise_map.2 (List.pairwise_of_forall fun _ _ => Nat.le_refl _)
  · refine (List.pairwise_map.1 ordered).imp fun {st st'} hle a ha b hb => ?_
    obtain ⟨_, -, rfl⟩ := List.mem_map.1 ha
    obtain ⟨_, -, rfl⟩ := List.mem_map.1 hb
    exact hle

theorem Docket.perform_again (rounds : Nat) (d : Docket) (r : Backlog.Request)
    (s : Surroundings σ) (w : σ) :
    let stints := (d.perform rounds r s w).value.1
    stints.filter (fun st => !st.fresh) = if r = .drain then stints else [] := by
  cases r with
  | drain =>
    intro stints
    have none : stints.filter Stint.fresh = [] :=
      List.map_eq_nil_iff.1 (perform_fresh rounds d .drain s w)
    rw [if_pos rfl]
    refine List.filter_eq_self.2 fun st hst => ?_
    simpa using List.filter_eq_nil_iff.1 none st hst
  | _ => simp [perform, Backlog.Request.command?, submit, Ticket.serve]

/-- What drains attempt are all attempts but those of the submissions. -/
theorem attemptsOfDrains_eq (rounds : Nat) (d : Docket) (requests : List Backlog.Request)
    (s : Surroundings σ) (w : σ) :
    let operations := (d.performAll rounds requests s w).value.1
    attemptsOfDrains requests operations = operations.flatten.filter fun st => !st.fresh := by
  induction requests generalizing d w with
  | nil => rfl
  | cons r rest ih =>
    have first := Docket.perform_again rounds d r s w
    have later := ih (d.perform rounds r s w).value.2 (d.perform rounds r s w).world
    simp only [Docket.performAll, Act.bind_apply, Act.pure_apply, List.flatten_cons,
      List.filter_append, first, ← later]
    cases r <;> rfl

/-! ## The order in which commands are taken up -/

/-- Commands were taken up in the order of their numbers, and none that waits
has a number below theirs. -/
structure InTurn (h : List Stint) (d : Docket) : Prop where
  ordered : ((h.filter fun st => !st.fresh).map Stint.number).Pairwise (· ≤ ·)
  reached : ∀ st ∈ h, st.fresh = false → ∀ t ∈ d.waiting, st.number ≤ t.number

namespace InTurn

variable {h : List Stint} {d : Docket} {st : Stint} {t : Ticket} {behind : List Ticket}

theorem submit (before : InTurn h d) (numbered : Numbered h d) (fresh : st.fresh = true)
    (hn : st.number = d.submitted + 1) : InTurn (h ++ [st]) (d.enlist st) := by
  constructor
  · rw [List.filter_append, List.filter_cons_of_neg (by simp [fresh]), List.filter_nil,
      List.append_nil]
    exact before.ordered
  · intro a ha again t ht
    have ha : a ∈ h := by
      rcases List.mem_append.1 ha with ha | ha
      · exact ha
      · rw [List.mem_singleton.1 ha, fresh] at again
        cases again
    rcases mem_enlist.1 ht with ht | ⟨rfl, -⟩
    · exact before.reached a ha again t ht
    · have := numbered.stints a ha
      simp only [Stint.ticket]
      omega

/-- The first that waits has a number above those taken up so far, and below
those behind it. -/
theorem resume (before : InTurn h d) (numbered : Numbered h d) (front : d.waiting = t :: behind)
    (again : st.fresh = false) (hn : st.number = t.number) :
    InTurn (h ++ [st]) { d with waiting := Docket.requeue st behind } := by
  have first : t ∈ d.waiting := front ▸ List.mem_cons_self ..
  have sorted := numbered.sorted
  rw [front] at sorted
  constructor
  · rw [List.filter_append, List.filter_cons_of_pos (by simp [again]), List.filter_nil,
      List.map_append, List.pairwise_append]
    refine ⟨before.ordered, List.pairwise_singleton _ _, ?_⟩
    intro n hmem m hm
    obtain ⟨a, ha, rfl⟩ := List.mem_map.1 hmem
    obtain ⟨ha, hagain⟩ := List.mem_filter.1 ha
    rw [List.mem_singleton.1 hm, hn]
    exact before.reached a ha (by simpa using hagain) t first
  · intro a ha hagain u hu
    rcases List.mem_append.1 ha with ha | ha
    · rcases mem_requeue.1 hu with ⟨rfl, -⟩ | hu
      · rw [Stint.ticket, hn]
        exact before.reached a ha hagain t first
      · exact before.reached a ha hagain u (front ▸ List.mem_cons_of_mem _ hu)
    · rw [List.mem_singleton.1 ha]
      rcases mem_requeue.1 hu with ⟨rfl, -⟩ | hu
      · exact Nat.le_refl _
      · rw [hn]
        exact Nat.le_of_lt ((List.pairwise_cons.1 sorted).1 u hu)

end InTurn

theorem History.inTurn {policy : Policy} {h : List Stint} {d : Docket} {w₀ w : σ}
    (hist : History s rounds { policy } w₀ h d w) : InTurn h d := by
  induction hist with
  | start => exact ⟨.nil, by simp⟩
  | submit earlier made served ih =>
    subst served
    exact ih.submit earlier.numbered rfl rfl
  | resume earlier front served ih =>
    subst served
    exact ih.resume earlier.numbered front rfl rfl

/-! ## The law -/

/-- Commands that wait are taken up in the order of their submission. Whatever
the surroundings answer, at every moment of a run the numbers of those that
wait increase from front to back. The drains of the whole run attempt commands
in the order of their numbers, so the datagrams accepted in drains leave in
this order. And a drain attempts the first command that waits, while all
others were submitted after it. -/
theorem waiting_commands_resume_in_submission_order (s : Surroundings σ) (rounds : Nat)
    (policy : Policy) (requests : List Backlog.Request) (w : σ) :
    let run := ({ policy } : Backlog).performAll rounds requests s w
    let operations := (({ policy } : Docket).performAll rounds requests s w).value.1
    let attempts := operations.flatten
    let resumed := attemptsOfDrains requests operations
    Chronicle policy requests attempts run ∧
      (∀ earlier, earlier <+: attempts →
        ((Docket.after { policy } earlier).waiting.map Ticket.number).Pairwise (· < ·)) ∧
      (resumed.map Stint.number).Pairwise (· ≤ ·) ∧
      ((departures resumed).map Prod.snd = accepted (traceOf resumed).calls ∧
        (departures resumed).Pairwise fun a b => a.1 ≤ b.1) ∧
      (resumed = attempts.filter fun st => !st.fresh) ∧
      ∀ earlier st later, attempts = earlier ++ st :: later → st.fresh = false →
        ∃ behind, (Docket.after { policy } earlier).waiting = ⟨st.number, st.before⟩ :: behind ∧
          ∀ t ∈ behind, st.number < t.number := by
  intro run operations attempts resumed
  have hist := (Docket.performAll_history rounds { policy } requests s w).2
  have drains : resumed = attempts.filter fun st => !st.fresh :=
    attemptsOfDrains_eq rounds { policy } requests s w
  have ordered : (resumed.map Stint.number).Pairwise (· ≤ ·) := by
    rw [drains]
    exact hist.inTurn.ordered
  refine ⟨performAll_chronicle s rounds policy requests w, ?_, ordered,
    ⟨departures_datagrams resumed, departures_pairwise ordered⟩, drains, ?_⟩
  · intro earlier begins
    obtain ⟨w', moment⟩ := hist.upTo begins
    exact List.pairwise_map.2 moment.numbered.sorted
  · intro earlier st later cut again
    obtain ⟨behind, front⟩ := hist.front_of_again cut again
    obtain ⟨w', moment⟩ := hist.upTo ⟨st :: later, cut.symm⟩
    have sorted := moment.numbered.sorted
    rw [front] at sorted
    exact ⟨behind, front, (List.pairwise_cons.1 sorted).1⟩

namespace Bench

def errands : List Backlog.Request :=
  [.flush ⟨"left"⟩ ⟨"out"⟩, .write ⟨"out"⟩ ((Buffer.withCapacity 8).append [9]) ⟨"peer"⟩,
    .timer ⟨"right"⟩ ⟨"out"⟩ true, .drain,
    .write ⟨"out"⟩ ((Buffer.withCapacity 8).append [7]) ⟨"peer"⟩, .drain, .drain]

/-- All four submissions are refused, and so is the second datagram of the
flush, and once more the first of the timer. -/
def crowded : Bench × List Bool :=
  ({ left := fun _ => [[1], [2]] }, [true, true, true, false, true, true, false, false, true])

end Bench

/-- The first drain stops at the flush, the second at the timer. Between the
two a write joins at the back. -/
theorem waiting_commands_resume_in_submission_order_on_the_workbench :
    let operations :=
      (({} : Docket).performAll 4 Bench.errands workbench.impatient Bench.crowded).value.1
    let attempts := operations.flatten
    let resumed := attemptsOfDrains Bench.errands operations
    resumed.map Stint.number = [1, 1, 2, 3, 3, 4] ∧
      departures resumed = [(1, [1]), (1, [2]), (2, [9]), (3, [1]), (3, [2]), (4, [7])] ∧
      ((Docket.after {} (attempts.take 5)).waiting.map Ticket.number = [1, 2, 3, 4] ∧
        ((Docket.after {} (attempts.take 5)).waiting.map Ticket.number).Pairwise (· < ·)) ∧
      ∃ st later, attempts = attempts.take 5 ++ st :: later ∧ st.fresh = false ∧
        ∃ behind, (Docket.after {} (attempts.take 5)).waiting = ⟨st.number, st.before⟩ :: behind ∧
          ∀ t ∈ behind, st.number < t.number := by
  intro operations attempts resumed
  obtain ⟨-, sorted, -, -, -, first⟩ := waiting_commands_resume_in_submission_order
    workbench.impatient 4 .standard Bench.errands Bench.crowded
  refine ⟨rfl, rfl, ⟨rfl, sorted _ (List.take_prefix 5 attempts)⟩, ?_⟩
  exact ⟨attempts.get ⟨5, by decide⟩, attempts.drop 6, rfl, rfl, first _ _ _ rfl rfl⟩

end Outbox
