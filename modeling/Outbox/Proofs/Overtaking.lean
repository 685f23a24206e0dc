-- Whether datagrams leave in the order of the submissions. A submission attempts
-- its command right away, whatever waits. So its datagrams can leave before
-- those of a command that was submitted earlier and waits. Nothing else brings
-- datagrams out of order: whatever is attempted after a moment waited at that
-- moment or is submitted after it, and drains begin at the front.
import Outbox.Proofs.Courses
import Outbox.Proofs.SubmissionOrder

namespace Outbox

variable {σ : Type} {s : Surroundings σ} {rounds : Nat}

/-! ## What comes after a moment -/

/-- A command with this number, about this connection, waits, or it is
submitted in one of the later attempts. -/
def Docket.Awaits (d : Docket) (later : List Stint) (n : Nat) (c : Option Connection) : Prop :=
  (∃ t ∈ d.waiting, t.number = n ∧ t.command.connection? = c) ∨
    ∃ first ∈ later, first.fresh = true ∧ first.number = n ∧ first.before.connection? = c

/-- What holds of the attempts after a moment, and of the docket that they
leave. -/
structure Since (d : Docket) (later : List Stint) (d' : Docket) : Prop where
  submitted : d.submitted ≤ d'.submitted
  fresh : ∀ st ∈ later, st.fresh = true → d.submitted < st.number
  stints : ∀ st ∈ later, d.Awaits later st.number st.before.connection?
  tickets : ∀ t ∈ d'.waiting, d.Awaits later t.number t.command.connection?

theorem Docket.Awaits.more {d : Docket} {later : List Stint} {n : Nat} {c : Option Connection}
    (awaits : d.Awaits later n c) (st : Stint) : d.Awaits (later ++ [st]) n c :=
  awaits.imp_right fun ⟨first, mem, rest⟩ => ⟨first, List.mem_append_left _ mem, rest⟩

/-- An attempt to which the command came from before the moment, or which is
that of its submission. -/
theorem Since.attempted {d d' d'' : Docket} {later : List Stint} {st : Stint}
    (since : Since d later d') (grows : d'.submitted ≤ d''.submitted)
    (new : st.fresh = true → st.number = d'.submitted + 1)
    (known : st.fresh = false → d.Awaits later st.number st.before.connection?)
    (same : st.after.connection? = st.before.connection?)
    (tickets : ∀ t ∈ d''.waiting, t ∈ d'.waiting ∨ t = st.ticket) :
    Since d (later ++ [st]) d'' := by
  have own : d.Awaits (later ++ [st]) st.number st.before.connection? := by
    rcases fresh : st.fresh with _ | _
    · exact (known fresh).more st
    · exact Or.inr ⟨st, by simp, fresh, rfl, rfl⟩
  refine ⟨Nat.le_trans since.submitted grows, ?_, ?_, ?_⟩
  · intro a ha fresh
    rcases List.mem_append.1 ha with ha | ha
    · exact since.fresh a ha fresh
    · obtain rfl := List.mem_singleton.1 ha
      have := new fresh
      have := since.submitted
      omega
  · intro a ha
    rcases List.mem_append.1 ha with ha | ha
    · exact (since.stints a ha).more st
    · rwa [List.mem_singleton.1 ha]
  · intro t ht
    rcases tickets t ht with ht | rfl
    · exact (since.tickets t ht).more st
    · rw [Stint.ticket, same]
      exact own

theorem History.since {d₀ d : Docket} {h : List Stint} {w₀ w : σ}
    (hist : History s rounds d₀ w₀ h d w) : Since d₀ h d := by
  induction hist with
  | start => exact ⟨Nat.le_refl _, by simp, by simp, fun t ht => Or.inl ⟨t, ht, rfl, rfl⟩⟩
  | @submit h d w r c ran earlier made served ih =>
    subst served
    refine ih.attempted (Nat.le_succ _) (fun _ => rfl) (fun again => by cases again)
      (Command.serve_course rounds c s w).2 fun t ht => ?_
    exact (mem_enlist.1 ht).imp_right And.left
  | @resume h d w t behind ran earlier front served ih =>
    subst served
    have first : t ∈ d.waiting := front ▸ List.mem_cons_self ..
    refine ih.attempted (Nat.le_refl _) (fun fresh => by cases fresh) (fun _ => ih.tickets t first)
      (Command.serve_course rounds t.command s w).2 fun u hu => ?_
    rcases mem_requeue.1 hu with ⟨rfl, -⟩ | hu
    · exact Or.inr rfl
    · exact Or.inl (front ▸ List.mem_cons_of_mem _ hu)

namespace History

variable {policy : Policy} {h earlier later : List Stint} {st st' : Stint} {d : Docket} {w₀ w : σ}

theorem number_of_waiting (hist : History s rounds { policy } w₀ h d w)
    (cut : h = earlier ++ st :: later) (fresh : st.fresh = true) :
    ∀ t ∈ (Docket.after { policy } earlier).waiting, t.number < st.number := by
  intro t ht
  subst cut
  obtain ⟨w', moment, rest⟩ := hist.split
  have old := moment.numbered.tickets t ht
  have new := rest.since.fresh st (List.mem_cons_self ..) fresh
  omega

/-- An attempt comes before one with a lower number only if it is that of a
submission, while the other command waits. -/
theorem waits_of_overtaken (hist : History s rounds { policy } w₀ h d w)
    (cut : h = earlier ++ st :: later) (mem : st' ∈ later) (lower : st'.number < st.number) :
    st.fresh = true ∧
      ∃ t ∈ (Docket.after { policy } earlier).waiting, t.number = st'.number := by
  have cut : h = (earlier ++ [st]) ++ later := by simp [cut]
  subst cut
  obtain ⟨w', moment, rest⟩ := hist.split
  have attempted : st ∈ earlier ++ [st] := by simp
  have bound := moment.numbered.stints st attempted
  obtain ⟨t, ht, hn, -⟩ : ∃ t ∈ (Docket.after { policy } (earlier ++ [st])).waiting,
      t.number = st'.number ∧ t.command.connection? = st'.before.connection? := by
    refine (rest.since.stints st' mem).resolve_right ?_
    rintro ⟨first, hfirst, fresh, hn, -⟩
    have := rest.since.fresh first hfirst fresh
    omega
  have fresh : st.fresh = true := by
    by_contra again
    have := moment.inTurn.reached st attempted (by simpa using again) t ht
    omega
  rw [Docket.after_append_singleton, Docket.follow_fresh _ fresh] at ht
  rcases mem_enlist.1 ht with ht | ⟨rfl, -⟩
  · exact ⟨fresh, t, ht, hn⟩
  · exact absurd hn.symm (Nat.ne_of_lt lower)

end History

/-! ## The order of the datagrams -/

theorem pairwise_iff_cut {α : Type} {R : α → α → Prop} {l : List α} :
    l.Pairwise R ↔ ∀ earlier a later, l = earlier ++ a :: later → ∀ b ∈ later, R a b := by
  constructor
  · rintro pairwise earlier a later rfl
    exact (List.pairwise_cons.1 (List.pairwise_append.1 pairwise).2.1).1
  · intro cuts
    induction l with
    | nil => exact .nil
    | cons a l ih =>
      refine List.pairwise_cons.2 ⟨cuts [] a l rfl, ih fun earlier b later cut => ?_⟩
      exact cuts (a :: earlier) b later (by rw [cut]; rfl)

/-- Only attempts with an accepted datagram count for the order. -/
theorem departures_pairwise_iff {attempts : List Stint} :
    ((departures attempts).Pairwise fun a b => a.1 ≤ b.1) ↔
      attempts.Pairwise fun st st' => accepted st.trace.calls ≠ [] →
        accepted st'.trace.calls ≠ [] → st.number ≤ st'.number := by
  have within : ∀ st : Stint, ((accepted st.trace.calls).map fun datagram =>
      (st.number, datagram)).Pairwise fun a b => a.1 ≤ b.1 := fun st =>
    List.pairwise_map.2 (List.pairwise_of_forall fun _ _ => Nat.le_refl _)
  rw [departures, List.pairwise_flatMap]
  constructor
  · rintro ⟨-, across⟩
    refine across.imp fun {st st'} ordered some some' => ?_
    obtain ⟨a, ha⟩ := List.exists_mem_of_ne_nil _ some
    obtain ⟨b, hb⟩ := List.exists_mem_of_ne_nil _ some'
    exact ordered _ (List.mem_map.2 ⟨a, ha, rfl⟩) _ (List.mem_map.2 ⟨b, hb, rfl⟩)
  · intro across
    refine ⟨fun st _ => within st, across.imp fun {st st'} ordered x hx y hy => ?_⟩
    obtain ⟨a, ha, rfl⟩ := List.mem_map.1 hx
    obtain ⟨b, hb, rfl⟩ := List.mem_map.1 hy
    exact ordered (List.ne_nil_of_mem ha) (List.ne_nil_of_mem hb)

theorem Backlog.submission_regardless (rounds : Nat) (b : Backlog) {r : Request}
    (submits : r ≠ .drain) (s : Surroundings σ) (w : σ) :
    let alone := ({ policy := b.policy } : Backlog).perform rounds r s w
    let ran := b.perform rounds r s w
    ran.value.1 = alone.value.1 ∧ ran.trace = alone.trace ∧ ran.world = alone.world := by
  rcases made : r.command? b.policy with _ | c
  · exact absurd (command?_eq_none made) submits
  · rw [perform_submission rounds b made,
      perform_submission rounds { policy := b.policy } made, submit_eq, submit_eq]
    exact ⟨rfl, rfl, rfl⟩

/-- Datagrams leave in the order of the submissions, unless a submission
overtakes. A submission is attempted right away, and does the same whatever
waits. So if one has a datagram accepted while an earlier command waits that
has one accepted later, the datagrams are out of order, and this is the only
way in which they come out of order. -/
theorem datagrams_leave_in_order_unless_a_submission_overtakes (s : Surroundings σ)
    (rounds : Nat) (policy : Policy) (requests : List Backlog.Request) (w : σ) :
    let run := ({ policy } : Backlog).performAll rounds requests s w
    let attempts := (({ policy } : Docket).performAll rounds requests s w).value.1.flatten
    Chronicle policy requests attempts run ∧
      (departures attempts).map Prod.snd = accepted run.trace.calls ∧
      (((departures attempts).Pairwise fun a b => a.1 ≤ b.1) ↔
        ∀ earlier st later, attempts = earlier ++ st :: later → st.fresh = true →
          accepted st.trace.calls ≠ [] →
            ∀ t ∈ (Docket.after { policy } earlier).waiting, ∀ st' ∈ later,
              st'.number = t.number → accepted st'.trace.calls = []) ∧
      ∀ (b : Backlog) (r : Backlog.Request) (w : σ), r ≠ .drain →
        let alone := ({ policy := b.policy } : Backlog).perform rounds r s w
        let ran := b.perform rounds r s w
        ran.value.1 = alone.value.1 ∧ ran.trace = alone.trace ∧ ran.world = alone.world := by
  intro run attempts
  have chronicle := performAll_chronicle s rounds policy requests w
  have hist := (Docket.performAll_history rounds { policy } requests s w).2
  refine ⟨chronicle, ?_, ?_, fun b r w submits => b.submission_regardless rounds submits s w⟩
  · rw [departures_datagrams, chronicle.calls]
  · rw [departures_pairwise_iff, pairwise_iff_cut]
    constructor
    · intro ordered earlier st later cut fresh some t ht st' mem hn
      have lower := hist.number_of_waiting cut fresh t ht
      by_contra some'
      have := ordered earlier st later cut st' mem some some'
      omega
    · intro none earlier st later cut st' mem some some'
      by_contra lower
      obtain ⟨fresh, t, ht, hn⟩ := hist.waits_of_overtaken cut mem (Nat.lt_of_not_le lower)
      exact some' (none earlier st later cut fresh some t ht st' mem hn.symm)

namespace Bench

def writes : List Backlog.Request :=
  [.write ⟨"out"⟩ ((Buffer.withCapacity 8).append [1]) ⟨"peer"⟩,
    .write ⟨"out"⟩ ((Buffer.withCapacity 8).append [2]) ⟨"peer"⟩, .drain]

end Bench

/-- The first write is refused and waits. The second one finds the channel
ready and is accepted before it, so the datagrams are out of order. -/
theorem a_write_overtakes_one_that_waits :
    let attempts := (({} : Docket).performAll 4 Bench.writes workbench.impatient
      ({}, [true])).value.1.flatten
    departures attempts = [(2, [2]), (1, [1])] ∧
      ¬ (departures attempts).Pairwise fun a b => a.1 ≤ b.1 := by
  intro attempts
  have out : departures attempts = [(2, [2]), (1, [1])] := rfl
  refine ⟨out, ?_⟩
  rw [out]
  decide

end Outbox
