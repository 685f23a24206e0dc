-- Whole runs of a backlog, and the history of a run: which command was
-- attempted when, and what came of it. A docket is a backlog that numbers its
-- submissions. It does what the backlog does, call for call, and tells its
-- history besides. A law about runs is shown once for each attempt, by
-- induction on `History`.
import Mathlib.Data.List.Basic
import Outbox.Backlog

namespace Outbox

variable {σ α β : Type}

/-! ## Commands served -/

/-- Gives the command up if it failed. -/
def Command.settle (c : Command) : Progress → Act σ Unit
  | .failed _ => c.abandon
  | .completed | .refused | .unfinished => return ()

/-- Attempts a command, and gives it up if it fails. -/
def Command.serve (rounds : Nat) (c : Command) : Act σ (Progress × Command) := do
  let (progress, c) ← c.attempt rounds
  c.settle progress
  return (progress, c)

/-- Whether a command with this progress waits for another attempt. -/
def Progress.waits : Progress → Bool
  | .refused | .unfinished => true
  | .completed | .failed _ => false

namespace Backlog

theorem submit_eq (rounds : Nat) (b : Backlog) (c : Command) :
    (b.submit rounds c : Act σ (Progress × Backlog)) = do
      let (progress, c) ← c.serve rounds
      return (progress, if progress.waits then { b with waiting := b.waiting ++ [c] } else b) := by
  simp only [submit, Command.serve, bind_assoc, pure_bind]
  refine bind_congr fun ⟨p, c⟩ => ?_
  cases p <;> simp [Command.settle, Progress.waits]

/-- What comes after the attempt at the first command that waits. -/
def resumeBehind (rounds : Nat) (behind : List Command) :
    Progress × Command → Act σ (Progress × List Command)
  | (.completed, _) => resumeAll rounds behind
  | (.failed failure, _) => return (.failed failure, behind)
  | (.refused, c) => return (.refused, c :: behind)
  | (.unfinished, c) => return (.unfinished, c :: behind)

theorem resumeAll_cons (rounds : Nat) (c : Command) (behind : List Command) :
    (resumeAll rounds (c :: behind) : Act σ (Progress × List Command)) =
      c.serve rounds >>= resumeBehind rounds behind := by
  simp only [resumeAll, Command.serve, bind_assoc, pure_bind]
  refine bind_congr fun ⟨p, c⟩ => ?_
  cases p <;> simp [Command.settle, resumeBehind]

/-! ## Requests, told apart -/

/-- The note that a submission leaves. -/
def Request.announce : Request → Act σ Unit
  | .write _ buffer peer => Act.note (.submitWrite peer buffer.length)
  | .flush connection _ => Act.noteRemote connection .submitFlush
  | .timer connection _ dispose => Act.noteRemote connection (.submitTimer · dispose)
  | .drain => return ()

/-- The command that a submission makes. -/
def Request.command? (policy : Policy) : Request → Option Command
  | .write channel buffer peer => some (.write { channel, peer, held := some buffer })
  | .flush connection channel => some (.flush { purpose := .send, connection, channel, policy })
  | .timer connection channel dispose => some (.timer (.new connection channel dispose policy))
  | .drain => none

theorem perform_submission (rounds : Nat) (b : Backlog) {r : Request} {c : Command}
    (h : r.command? b.policy = some c) :
    (b.perform rounds r : Act σ (Progress × Backlog)) =
      r.announce >>= fun _ => b.submit rounds c := by
  cases r <;> simp only [Request.command?, Option.some.injEq, reduceCtorEq] at h
  all_goals subst h; rfl

theorem command?_eq_none {policy : Policy} {r : Request} (h : r.command? policy = none) :
    r = .drain := by
  cases r <;> simp_all [Request.command?]

/-- Does what is asked, one request after the other. -/
def performAll (rounds : Nat) : Backlog → List Request → Act σ (List Progress × Backlog)
  | b, [] => return ([], b)
  | b, r :: rest => do
    let (progress, b) ← b.perform rounds r
    let (progresses, b) ← performAll rounds b rest
    return (progress :: progresses, b)

end Backlog

/-! ## Dockets -/

/-- A command with the number of its submission. -/
structure Ticket where
  number : Nat
  command : Command

/-- One attempt at a command in the course of a run, and what came of it. -/
structure Stint where
  number : Nat
  /-- Whether this is the attempt that the submission itself makes. -/
  fresh : Bool
  before : Command
  progress : Progress
  after : Command
  trace : Trace

/-- The ticket that waits on after an attempt. -/
def Stint.ticket (st : Stint) : Ticket := ⟨st.number, st.after⟩

def Ticket.serve (rounds : Nat) (fresh : Bool) (t : Ticket) : Act σ Stint := fun s w =>
  let ran := t.command.serve rounds s w
  ⟨⟨t.number, fresh, t.command, ran.value.1, ran.value.2, ran.trace⟩, ran.trace, ran.world⟩

/-- How an operation ends: as its last attempt does. -/
def concluded (stints : List Stint) : Progress :=
  (stints.getLast?.map Stint.progress).getD .completed

/-- A backlog that numbers its submissions: 1, 2, 3, and so on. -/
structure Docket where
  policy : Policy := .standard
  submitted : Nat := 0
  waiting : List Ticket := []

namespace Docket

/-- The docket without its numbers. -/
def backlog (d : Docket) : Backlog := ⟨d.policy, d.waiting.map Ticket.command⟩

/-- The docket after the attempt at a submission. -/
def enlist (d : Docket) (st : Stint) : Docket :=
  { d with
    submitted := d.submitted + 1
    waiting := if st.progress.waits then d.waiting ++ [st.ticket] else d.waiting }

def submit (rounds : Nat) (d : Docket) (c : Command) : Act σ (List Stint × Docket) := do
  let st ← Ticket.serve rounds true ⟨d.submitted + 1, c⟩
  return ([st], d.enlist st)

/-- The tickets that wait once the first one was attempted. -/
def requeue (st : Stint) (behind : List Ticket) : List Ticket :=
  if st.progress.waits then st.ticket :: behind else behind

def resumeAll (rounds : Nat) : List Ticket → Act σ (List Stint × List Ticket)
  | [] => return ([], [])
  | t :: behind => do
    let st ← t.serve rounds false
    if st.progress = .completed then do
      let (stints, left) ← resumeAll rounds behind
      return (st :: stints, left)
    else return ([st], requeue st behind)

def perform (rounds : Nat) (d : Docket) (r : Backlog.Request) : Act σ (List Stint × Docket) :=
  match r.command? d.policy with
  | some c => do
    r.announce
    d.submit rounds c
  | none =>
    if d.waiting.isEmpty then return ([], d)
    else do
      Act.note (.draining d.waiting.length)
      let (stints, waiting) ← resumeAll rounds d.waiting
      return (stints, { d with waiting })

/-- The stints of each request, and the docket that is left. -/
def performAll (rounds : Nat) : Docket → List Backlog.Request → Act σ (List (List Stint) × Docket)
  | d, [] => return ([], d)
  | d, r :: rest => do
    let (stints, d) ← d.perform rounds r
    let (later, d) ← performAll rounds d rest
    return (stints :: later, d)

/-! ## A docket does what its backlog does -/

theorem concluded_cons_completed (st : Stint) (stints : List Stint)
    (h : st.progress = .completed) : concluded (st :: stints) = concluded stints := by
  cases stints with
  | nil => simp [concluded, h]
  | cons => simp [concluded, List.getLast?_cons_cons]

/-- A ticket is served as its command is. -/
theorem serve_bind (rounds : Nat) (fresh : Bool) (t : Ticket)
    (next : Progress × Command → Act σ β) :
    (t.command.serve rounds >>= next) =
      t.serve rounds fresh >>= fun st => next (st.progress, st.after) := rfl

theorem resumeAll_erase (rounds : Nat) (tickets : List Ticket) :
    (Backlog.resumeAll rounds (tickets.map Ticket.command) : Act σ (Progress × List Command)) =
      (fun ran => (concluded ran.1, ran.2.map Ticket.command)) <$> resumeAll rounds tickets := by
  induction tickets with
  | nil => simp [resumeAll, Backlog.resumeAll, concluded]
  | cons t behind ih =>
    rw [List.map_cons, Backlog.resumeAll_cons, serve_bind rounds false, resumeAll, map_bind]
    apply bind_congr
    intro st
    rcases h : st.progress with _ | _ | _ | _
    · simp [Backlog.resumeBehind, ih, concluded_cons_completed st _ h]
    all_goals simp [Backlog.resumeBehind, concluded, requeue, Progress.waits, Stint.ticket, h]

theorem perform_erase (rounds : Nat) (d : Docket) (r : Backlog.Request) :
    (d.backlog.perform rounds r : Act σ (Progress × Backlog)) =
      (fun ran => (concluded ran.1, ran.2.backlog)) <$> d.perform rounds r := by
  rcases hc : r.command? d.policy with _ | c
  · obtain rfl := Backlog.command?_eq_none hc
    by_cases he : d.waiting = []
    · simp [Backlog.perform, Backlog.drain, Backlog.isEmpty, perform, hc, he, backlog, concluded]
    · simp [Backlog.perform, Backlog.drain, Backlog.isEmpty, perform, hc, he, backlog,
        Backlog.size, resumeAll_erase]
  · rw [Backlog.perform_submission rounds d.backlog hc, perform, hc]
    simp only [submit, Backlog.submit_eq, map_bind, map_pure]
    apply bind_congr
    intro _
    rw [serve_bind rounds true ⟨d.submitted + 1, c⟩]
    apply bind_congr
    intro st
    cases h : st.progress.waits <;> simp [h, concluded, enlist, backlog, Stint.ticket]

/-- A docket makes the calls and notes of its backlog, comes to the same ends,
and is left with the same commands. -/
theorem performAll_erase (rounds : Nat) (d : Docket) (requests : List Backlog.Request) :
    (d.backlog.performAll rounds requests : Act σ (List Progress × Backlog)) =
      (fun ran => (ran.1.map concluded, ran.2.backlog)) <$> d.performAll rounds requests := by
  induction requests generalizing d with
  | nil => simp [performAll, Backlog.performAll]
  | cons r rest ih =>
    simp [Backlog.performAll, performAll, perform_erase, ih]

end Docket

/-! ## What an operation consists of -/

/-- The trace of a list of stints. -/
def traceOf (stints : List Stint) : Trace := stints.flatMap Stint.trace

theorem traceOf_append (l m : List Stint) : traceOf (l ++ m) = traceOf l ++ traceOf m :=
  List.flatMap_append

theorem traceOf_singleton (st : Stint) : traceOf [st] = st.trace := by simp [traceOf]

/-- Announcing a submission is no call. -/
theorem announce_calls (r : Backlog.Request) (s : Surroundings σ) (w : σ) :
    (r.announce s w).trace.calls = [] ∧ (r.announce s w).world = w := by
  cases r <;> exact ⟨rfl, rfl⟩

namespace Docket

theorem resumeAll_trace (rounds : Nat) (tickets : List Ticket) (s : Surroundings σ) (w : σ) :
    (resumeAll rounds tickets s w).trace = traceOf (resumeAll rounds tickets s w).value.1 := by
  induction tickets generalizing w with
  | nil => rfl
  | cons t behind ih =>
    by_cases h : (t.serve rounds false s w).value.progress = .completed
    · simp only [resumeAll, Act.bind_apply, h, if_true, ih]
      simp [traceOf, Ticket.serve]
    · simp only [resumeAll, Act.bind_apply, h, if_false]
      simp [traceOf, Ticket.serve]

/-- Apart from notes, an operation does what its attempts do. -/
theorem perform_calls (rounds : Nat) (d : Docket) (r : Backlog.Request) (s : Surroundings σ)
    (w : σ) :
    (d.perform rounds r s w).trace.calls = (traceOf (d.perform rounds r s w).value.1).calls := by
  unfold perform
  rcases r.command? d.policy with _ | c
  · by_cases he : d.waiting.isEmpty = true
    · simp [he, traceOf]
    · simp [he, Act.note, resumeAll_trace]
  · simp [submit, Ticket.serve, traceOf, announce_calls]

theorem performAll_calls (rounds : Nat) (d : Docket) (requests : List Backlog.Request)
    (s : Surroundings σ) (w : σ) :
    (d.performAll rounds requests s w).trace.calls =
      (traceOf (d.performAll rounds requests s w).value.1.flatten).calls := by
  induction requests generalizing d w with
  | nil => rfl
  | cons r rest ih => simp [performAll, perform_calls, ih, traceOf_append]

theorem resumeAll_fresh (rounds : Nat) (tickets : List Ticket) (s : Surroundings σ) (w : σ) :
    (resumeAll rounds tickets s w).value.1.filter Stint.fresh = [] := by
  induction tickets generalizing w with
  | nil => rfl
  | cons t behind ih =>
    by_cases h : (t.serve rounds false s w).value.progress = .completed
    · simp only [resumeAll, Act.bind_apply, h, if_true, Act.pure_apply]
      rw [List.filter_cons_of_neg (by simp [Ticket.serve]), ih]
    · simp only [resumeAll, Act.bind_apply, h, if_false, Act.pure_apply]
      rw [List.filter_cons_of_neg (by simp [Ticket.serve]), List.filter_nil]

theorem perform_policy (rounds : Nat) (d : Docket) (r : Backlog.Request) (s : Surroundings σ)
    (w : σ) : (d.perform rounds r s w).value.2.policy = d.policy := by
  unfold perform
  rcases r.command? d.policy with _ | c
  · by_cases he : d.waiting.isEmpty = true <;> simp [he]
  · rfl

theorem perform_fresh (rounds : Nat) (d : Docket) (r : Backlog.Request) (s : Surroundings σ)
    (w : σ) :
    ((d.perform rounds r s w).value.1.filter Stint.fresh).map Stint.before =
      (r.command? d.policy).toList := by
  unfold perform
  rcases r.command? d.policy with _ | c
  · by_cases he : d.waiting.isEmpty = true <;> simp [he, resumeAll_fresh]
  · simp [submit, Ticket.serve]

/-- The attempts at submission are those of the commands that were submitted. -/
theorem performAll_fresh (rounds : Nat) (d : Docket) (requests : List Backlog.Request)
    (s : Surroundings σ) (w : σ) :
    ((d.performAll rounds requests s w).value.1.flatten.filter Stint.fresh).map Stint.before =
      requests.filterMap (Backlog.Request.command? d.policy) := by
  induction requests generalizing d w with
  | nil => rfl
  | cons r rest ih =>
    have hf := perform_fresh rounds d r s w
    have hr := ih (d.perform rounds r s w).value.2 (d.perform rounds r s w).world
    rw [perform_policy] at hr
    simp only [performAll, Act.bind_apply, Act.pure_apply, List.flatten_cons, List.filter_append,
      List.map_append, hf, hr]
    cases h : r.command? d.policy <;> simp [h]

/-- Every attempt of an operation completes, but for the last one. -/
def UpToLast (stints : List Stint) : Prop :=
  ∀ st ∈ stints.dropLast, st.progress = .completed

theorem resumeAll_upToLast (rounds : Nat) (tickets : List Ticket) (s : Surroundings σ) (w : σ) :
    UpToLast (resumeAll rounds tickets s w).value.1 := by
  induction tickets generalizing w with
  | nil => simp [resumeAll, UpToLast]
  | cons t behind ih =>
    by_cases h : (t.serve rounds false s w).value.progress = .completed
    · simp only [resumeAll, Act.bind_apply, h, if_true, Act.pure_apply]
      have hlater := ih (t.serve rounds false s w).world
      generalize (resumeAll rounds behind s (t.serve rounds false s w).world).value.1 = later
        at hlater ⊢
      intro st hst
      rcases later with _ | ⟨a, l⟩
      · simp at hst
      · rw [List.dropLast_cons_cons, List.mem_cons] at hst
        rcases hst with rfl | hst
        · exact h
        · exact hlater st hst
    · simp [resumeAll, h, UpToLast]

theorem perform_upToLast (rounds : Nat) (d : Docket) (r : Backlog.Request) (s : Surroundings σ)
    (w : σ) : UpToLast (d.perform rounds r s w).value.1 := by
  unfold perform
  rcases r.command? d.policy with _ | c
  · by_cases he : d.waiting.isEmpty = true
    · simp [he, UpToLast]
    · simpa [he, UpToLast] using resumeAll_upToLast rounds d.waiting s _
  · simp [submit, UpToLast]

theorem performAll_upToLast (rounds : Nat) (d : Docket) (requests : List Backlog.Request)
    (s : Surroundings σ) (w : σ) :
    ∀ operation ∈ (d.performAll rounds requests s w).value.1, UpToLast operation := by
  induction requests generalizing d w with
  | nil => simp [performAll]
  | cons r rest ih =>
    intro operation hop
    simp only [performAll, Act.bind_apply, Act.pure_apply, List.mem_cons] at hop
    rcases hop with rfl | hop
    · exact perform_upToLast rounds d r s w
    · exact ih _ _ operation hop

end Docket

/-! ## The attempts at one command -/

/-- The attempts at the command of submission `n`. -/
def ofNumber (n : Nat) (h : List Stint) : List Stint := h.filter fun st => st.number = n

theorem ofNumber_append_self {n : Nat} {st : Stint} (h : List Stint) (hn : st.number = n) :
    ofNumber n (h ++ [st]) = ofNumber n h ++ [st] := by
  simp [ofNumber, hn]

theorem ofNumber_append_ne {n : Nat} {st : Stint} (h : List Stint) (hn : st.number ≠ n) :
    ofNumber n (h ++ [st]) = ofNumber n h := by
  simp [ofNumber, hn]

theorem mem_ofNumber {n : Nat} {st : Stint} {h : List Stint} :
    st ∈ ofNumber n h ↔ st ∈ h ∧ st.number = n := by
  simp [ofNumber]

/-! ## Histories -/

/-- The stints of a run so far, the docket and the world that they left. A new
command is attempted at its submission, and the first of those that wait
whenever a drain comes to it. -/
inductive History (s : Surroundings σ) (rounds : Nat) (d₀ : Docket) (w₀ : σ) :
    List Stint → Docket → σ → Prop where
  | start : History s rounds d₀ w₀ [] d₀ w₀
  | submit {h : List Stint} {d : Docket} {w : σ} {r : Backlog.Request} {c : Command}
      {ran : Ran σ Stint} (earlier : History s rounds d₀ w₀ h d w)
      (made : r.command? d.policy = some c)
      (served : Ticket.serve rounds true ⟨d.submitted + 1, c⟩ s w = ran) :
      History s rounds d₀ w₀ (h ++ [ran.value]) (d.enlist ran.value) ran.world
  | resume {h : List Stint} {d : Docket} {w : σ} {t : Ticket} {behind : List Ticket}
      {ran : Ran σ Stint} (earlier : History s rounds d₀ w₀ h d w)
      (front : d.waiting = t :: behind) (served : t.serve rounds false s w = ran) :
      History s rounds d₀ w₀ (h ++ [ran.value])
        { d with waiting := Docket.requeue ran.value behind } ran.world

theorem mem_enlist {d : Docket} {st : Stint} {t : Ticket} :
    t ∈ (d.enlist st).waiting ↔ t ∈ d.waiting ∨ t = st.ticket ∧ st.progress.waits = true := by
  unfold Docket.enlist
  by_cases waits : st.progress.waits = true
  · simp [waits]
  · simp [waits]

theorem mem_requeue {st : Stint} {behind : List Ticket} {t : Ticket} :
    t ∈ Docket.requeue st behind ↔ t = st.ticket ∧ st.progress.waits = true ∨ t ∈ behind := by
  unfold Docket.requeue
  by_cases waits : st.progress.waits = true
  · simp [waits]
  · simp [waits]

/-- The number of an attempt or of a ticket is that of a submission already
made, and the tickets wait in the order of their numbers. -/
structure Numbered (h : List Stint) (d : Docket) : Prop where
  stints : ∀ st ∈ h, st.number ≤ d.submitted
  tickets : ∀ t ∈ d.waiting, t.number ≤ d.submitted
  sorted : d.waiting.Pairwise fun t u => t.number < u.number

namespace Numbered

variable {h : List Stint} {d : Docket} {st : Stint} {t u : Ticket} {behind : List Ticket}

/-- The numbers of those that waited before are not the new one. -/
theorem of_enlist (before : Numbered h d) (hn : st.number = d.submitted + 1)
    (ht : t ∈ (d.enlist st).waiting) :
    (t ∈ d.waiting ∧ t.number ≠ st.number) ∨ t = st.ticket ∧ st.progress.waits = true := by
  rcases mem_enlist.1 ht with ht | ht
  · have hle := before.tickets t ht
    exact Or.inl ⟨ht, by omega⟩
  · exact Or.inr ht

/-- Those behind the first ticket have other numbers. -/
theorem of_requeue (before : Numbered h d) (front : d.waiting = t :: behind)
    (hn : st.number = t.number) (hu : u ∈ Docket.requeue st behind) :
    (u ∈ d.waiting ∧ u.number ≠ st.number) ∨ u = st.ticket ∧ st.progress.waits = true := by
  rcases mem_requeue.1 hu with hu | hu
  · exact Or.inr hu
  · have sorted := before.sorted
    rw [front] at sorted
    have hlt := (List.pairwise_cons.1 sorted).1 u hu
    exact Or.inl ⟨front ▸ List.mem_cons_of_mem _ hu, by omega⟩

theorem submit (before : Numbered h d) (hn : st.number = d.submitted + 1) :
    Numbered (h ++ [st]) (d.enlist st) := by
  refine ⟨?_, ?_, ?_⟩
  · intro a ha
    rcases List.mem_append.1 ha with ha | ha
    · exact Nat.le_succ_of_le (before.stints a ha)
    · rw [List.mem_singleton.1 ha]
      exact Nat.le_of_eq hn
  · intro t ht
    rcases mem_enlist.1 ht with ht | ⟨rfl, -⟩
    · exact Nat.le_succ_of_le (before.tickets t ht)
    · exact Nat.le_of_eq hn
  · unfold Docket.enlist
    split
    · refine List.pairwise_append.2 ⟨before.sorted, List.pairwise_singleton _ _, ?_⟩
      intro t ht u hu
      rw [List.mem_singleton.1 hu, Stint.ticket, hn]
      exact Nat.lt_succ_of_le (before.tickets t ht)
    · exact before.sorted

theorem resume (before : Numbered h d) (front : d.waiting = t :: behind)
    (hn : st.number = t.number) :
    Numbered (h ++ [st]) { d with waiting := Docket.requeue st behind } := by
  have hle : st.number ≤ d.submitted := by
    rw [hn]
    exact before.tickets t (front ▸ List.mem_cons_self ..)
  have sorted := before.sorted
  rw [front] at sorted
  obtain ⟨less, sorted⟩ := List.pairwise_cons.1 sorted
  refine ⟨?_, ?_, ?_⟩
  · intro a ha
    rcases List.mem_append.1 ha with ha | ha
    · exact before.stints a ha
    · rwa [List.mem_singleton.1 ha]
  · intro u hu
    rcases before.of_requeue front hn hu with ⟨hu, -⟩ | ⟨rfl, -⟩
    · exact before.tickets u hu
    · exact hle
  · unfold Docket.requeue
    split
    · refine List.pairwise_cons.2 ⟨fun u hu => ?_, sorted⟩
      rw [Stint.ticket, hn]
      exact less u hu
    · exact sorted

/-- A ticket that waits is known by its number. -/
theorem eq_of_number (numbered : Numbered h d) :
    ∀ t ∈ d.waiting, ∀ t' ∈ d.waiting, t.number = t'.number → t = t' := by
  have sorted := numbered.sorted
  generalize d.waiting = tickets at sorted
  induction sorted with
  | nil => simp
  | @cons a tickets less _ ih =>
    intro t ht t' ht' heq
    rcases List.mem_cons.1 ht with rfl | h₁ <;> rcases List.mem_cons.1 ht' with rfl | h₂
    · rfl
    · have := less t' h₂
      omega
    · have := less t h₁
      omega
    · exact ih t h₁ t' h₂ heq

/-- No attempt has the number of the next submission. -/
theorem ofNumber_next (numbered : Numbered h d) : ofNumber (d.submitted + 1) h = [] := by
  apply List.filter_eq_nil_iff.2
  intro st hst
  have := numbered.stints st hst
  simp only [decide_eq_true_eq]
  omega

end Numbered

namespace History

variable {s : Surroundings σ} {rounds : Nat} {d₀ d : Docket} {w₀ w : σ} {h : List Stint}

theorem resumeAll {tickets : List Ticket} (earlier : History s rounds d₀ w₀ h d w)
    (front : d.waiting = tickets) :
    let ran := Docket.resumeAll rounds tickets s w
    History s rounds d₀ w₀ (h ++ ran.value.1) { d with waiting := ran.value.2 } ran.world := by
  induction tickets generalizing h d w with
  | nil => simpa [Docket.resumeAll, ← front] using earlier
  | cons t behind ih =>
    have next := earlier.resume front rfl
    by_cases hc : (t.serve rounds false s w).value.progress = .completed
    · have later := ih next (by simp [Docket.requeue, hc, Progress.waits])
      simpa [Docket.resumeAll, hc] using later
    · simpa [Docket.resumeAll, hc] using next

theorem perform (earlier : History s rounds d₀ w₀ h d w) (r : Backlog.Request) :
    let ran := d.perform rounds r s w
    History s rounds d₀ w₀ (h ++ ran.value.1) ran.value.2 ran.world := by
  rcases hc : r.command? d.policy with _ | c
  · by_cases he : d.waiting = []
    · simpa [Docket.perform, hc, he] using earlier
    · simpa [Docket.perform, hc, he, Act.note] using earlier.resumeAll rfl
  · have next := earlier.submit hc rfl
    simpa [Docket.perform, hc, Docket.submit, announce_calls] using next

theorem performAll (earlier : History s rounds d₀ w₀ h d w) (requests : List Backlog.Request) :
    let ran := d.performAll rounds requests s w
    History s rounds d₀ w₀ (h ++ ran.value.1.flatten) ran.value.2 ran.world := by
  induction requests generalizing h d w with
  | nil => simpa [Docket.performAll] using earlier
  | cons r rest ih => simpa [Docket.performAll] using ih (earlier.perform r)

theorem numbered {policy : Policy} (hist : History s rounds { policy } w₀ h d w) :
    Numbered h d := by
  induction hist with
  | start => exact ⟨by simp, by simp, .nil⟩
  | submit earlier made served ih =>
    subst served
    exact ih.submit rfl
  | resume earlier front served ih =>
    subst served
    exact ih.resume front rfl

end History

/-! ## The history of a backlog -/

/-- A backlog as a docket. The commands that wait already have no number. -/
def Backlog.docket (b : Backlog) : Docket := ⟨b.policy, 0, b.waiting.map (Ticket.mk 0)⟩

@[simp] theorem backlog_docket (b : Backlog) : b.docket.backlog = b := by
  simp [Backlog.docket, Docket.backlog, Function.comp_def]

/-- A request of a backlog is one of its docket, and has a history. -/
theorem Backlog.perform_history (rounds : Nat) (b : Backlog) (r : Request) (s : Surroundings σ)
    (w : σ) :
    let ran := b.docket.perform rounds r s w
    b.perform rounds r s w =
        ⟨(concluded ran.value.1, ran.value.2.backlog), ran.trace, ran.world⟩ ∧
      History s rounds b.docket w ran.value.1 ran.value.2 ran.world := by
  intro ran
  have erase := congrFun (congrFun (Docket.perform_erase rounds b.docket r) s) w
  rw [backlog_docket, Act.map_apply] at erase
  have hist := (History.start : History s rounds b.docket w [] b.docket w).perform r
  exact ⟨erase, hist⟩

theorem Docket.performAll_history (rounds : Nat) (d : Docket) (requests : List Backlog.Request)
    (s : Surroundings σ) (w : σ) :
    let ran := d.performAll rounds requests s w
    d.backlog.performAll rounds requests s w =
        ⟨(ran.value.1.map concluded, ran.value.2.backlog), ran.trace, ran.world⟩ ∧
      History s rounds d w ran.value.1.flatten ran.value.2 ran.world := by
  intro ran
  have erase := congrFun (congrFun (performAll_erase rounds d requests) s) w
  rw [Act.map_apply] at erase
  have hist := (History.start : History s rounds d w [] d w).performAll requests
  exact ⟨erase, hist⟩

end Outbox
