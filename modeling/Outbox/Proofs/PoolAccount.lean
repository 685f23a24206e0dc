-- The account of a pool. Callers take buffers from the pool, hand some of them
-- to the backlog and give others back. The pool counts what it hands out and
-- what comes back, so it knows how many buffers are with the backlog and with
-- the callers.
import Outbox.Proofs.BufferAccount
import Outbox.Proofs.Workbench

namespace Outbox

variable {σ : Type} {s : Surroundings σ} {w w' : σ}

/-! ## The counters of a pool -/

/-- The surroundings keep their buffers in a pool: requests and releases go to
it, and no other call changes it. -/
structure Surroundings.Pools (s : Surroundings σ) (view : σ → Pool) : Prop where
  acquire (least : Nat) (direct : Bool) (w : σ) :
    ((s.acquire least direct w).1, view (s.acquire least direct w).2) = (view w).acquire least
  release (b : Buffer) (w : σ) : view (s.release b w) = (view w).release b
  other {c : Call} {w w' : σ} (takes : s.Takes w c w') (notAcquire : c.isAcquire = false)
    (notRelease : c.isRelease = false) : view w' = view w

/-- How the counters move when so many buffers go out and come back. -/
def Pool.Counts (p q : Pool) (out back : Nat) : Prop :=
  q.acquired = p.acquired + .ofNat out ∧ q.released = p.released + .ofNat back

namespace Pool

theorem counts_refl (p : Pool) : p.Counts p 0 0 := by simp [Counts]

theorem counts_trans {p q r : Pool} {m n m' n' : Nat} (h : p.Counts q m n) (h' : q.Counts r m' n') :
    p.Counts r (m + m') (n + n') := by
  obtain ⟨h1, h2⟩ := h
  obtain ⟨h3, h4⟩ := h'
  constructor
  · rw [h3, h1, UInt64.ofNat_add, UInt64.add_assoc]
  · rw [h4, h2, UInt64.ofNat_add, UInt64.add_assoc]

theorem counts_acquire (p : Pool) (least : Nat) : p.Counts (p.acquire least).2 1 0 := by
  unfold acquire
  split <;> simp [Counts]

theorem counts_release (p : Pool) (b : Buffer) : p.Counts (p.release b) 0 1 := by
  unfold release
  split <;> simp [Counts]

/-- Without a wrap of the counters, the pool knows how many of its buffers are
out. -/
theorem outstanding_of_counts {p q : Pool} {out back : Nat} (fresh : p.acquired = 0)
    (fresh' : p.released = 0) (h : p.Counts q out back) (le : back ≤ out) (lt : out < 2 ^ 64) :
    q.outstanding = out - back := by
  obtain ⟨h1, h2⟩ := h
  rw [fresh, UInt64.zero_add] at h1
  rw [fresh', UInt64.zero_add] at h2
  unfold outstanding
  rw [h1, h2, UInt64.toNat_ofNat_of_lt' lt,
    UInt64.toNat_ofNat_of_lt' (Nat.lt_of_le_of_lt le lt)]

end Pool

namespace Surroundings.Pools

variable {view : σ → Pool} (pools : s.Pools view)
include pools

theorem counts_acquire (least : Nat) (direct : Bool) (w : σ) :
    (view w).Counts (view (s.acquire least direct w).2) 1 0 := by
  have h := congrArg Prod.snd (pools.acquire least direct w)
  rw [show view (s.acquire least direct w).2 = _ from h]
  exact Pool.counts_acquire _ _

theorem counts_release (b : Buffer) (w : σ) : (view w).Counts (view (s.release b w)) 0 1 := by
  rw [pools.release]
  exact Pool.counts_release _ _

theorem counts_takes {c : Call} (takes : s.Takes w c w') :
    (view w).Counts (view w') (acquires [c]) (releases [c]) := by
  cases c with
  | acquire least direct given =>
    have h := pools.counts_acquire least direct w
    rw [show s.acquire least direct w = (given, w') from takes] at h
    simpa [Call.isAcquire, Call.isRelease] using h
  | release b =>
    have h := pools.counts_release b w
    rw [show s.release b w = w' from takes] at h
    simpa [Call.isAcquire, Call.isRelease] using h
  | _ =>
    rw [pools.other takes rfl rfl]
    exact Pool.counts_refl _

theorem counts_course {allowed : Call → Prop} {calls : List Call}
    (course : Course s allowed w calls w') :
    (view w).Counts (view w') (acquires calls) (releases calls) := by
  induction course with
  | nil w => exact Pool.counts_refl _
  | @cons w w₁ w₂ c calls lawful takes rest ih =>
    have h := Pool.counts_trans (pools.counts_takes takes) ih
    simpa [Nat.add_comm] using h

end Surroundings.Pools

/-! ## Dealings of the callers -/

/-- What callers do with the pool and the backlog. -/
inductive Dealing where
  /-- Takes a buffer from the pool. -/
  | take (least : Nat) (direct : Bool)
  /-- Gives a buffer back to the pool. -/
  | giveBack (buffer : Buffer)
  /-- Asks something of the backlog. A write hands a buffer over. -/
  | ask (request : Backlog.Request)

namespace Dealing

/-- How many buffers the callers have in hand after they had so many, if they
had the buffer that they let go. -/
def hands (n : Nat) : Dealing → Option Nat
  | take .. => some (n + 1)
  | giveBack _ | ask (.write ..) =>
    match n with
    | 0 => none
    | n + 1 => some n
  | ask (.flush ..) | ask (.timer ..) | ask .drain => some n

def isTake : Dealing → Bool
  | take .. => true
  | giveBack _ | ask _ => false

def isGiveBack : Dealing → Bool
  | giveBack _ => true
  | take .. | ask _ => false

def isWrite : Dealing → Bool
  | ask r => r.isWrite
  | take .. | giveBack _ => false

theorem hands_balance {n m : Nat} {x : Dealing} (h : x.hands n = some m) :
    n + (if x.isTake then 1 else 0) =
      m + (if x.isGiveBack then 1 else 0) + if x.isWrite then 1 else 0 := by
  rcases x with _ | _ | r
  · simp [hands] at h
    simp [isTake, isGiveBack, isWrite, h]
  · rcases n with _ | n <;> simp [hands] at h
    simp [isTake, isGiveBack, isWrite, h]
  · cases r with
    | write =>
      rcases n with _ | n <;> simp [hands] at h
      simp [isTake, isGiveBack, isWrite, Backlog.Request.isWrite, h]
    | _ =>
      simp [hands] at h
      simp [isTake, isGiveBack, isWrite, Backlog.Request.isWrite, h]

/-- What callers have in hand and what they let go is what they took. -/
theorem handsAll_balance {n m : Nat} {dealings : List Dealing}
    (h : dealings.foldlM hands n = some m) :
    n + dealings.countP isTake = m + dealings.countP isGiveBack + dealings.countP isWrite := by
  induction dealings generalizing n with
  | nil =>
    obtain rfl : n = m := by simpa using h
    rfl
  | cons x rest ih =>
    rw [List.foldlM_cons] at h
    obtain ⟨k, hk, hrest⟩ := Option.bind_eq_some_iff.1 h
    have h1 := hands_balance hk
    have h2 := ih hrest
    simp only [List.countP_cons]
    omega

end Dealing

namespace Backlog

/-- Does what callers do. The trace has only what the backlog does. -/
def deal (rounds : Nat) (b : Backlog) : Dealing → Act σ (List Progress × Backlog)
  | .take least direct => fun s w => ⟨([], b), [], (s.acquire least direct w).2⟩
  | .giveBack buffer => fun s w => ⟨([], b), [], s.release buffer w⟩
  | .ask r => do
    let (progress, b) ← b.perform rounds r
    return ([progress], b)

/-- Does what callers do, one dealing after the other. -/
def dealAll (rounds : Nat) : Backlog → List Dealing → Act σ (List Progress × Backlog)
  | b, [] => return ([], b)
  | b, x :: rest => do
    let (progresses, b) ← b.deal rounds x
    let (later, b) ← dealAll rounds b rest
    return (progresses ++ later, b)

/-! ## The account of the dealings -/

theorem deal_buffers (rounds : Nat) (b : Backlog) (x : Dealing) (s : Surroundings σ) (w : σ) :
    let ran := b.deal rounds x s w
    b.buffers + (if x.isWrite then 1 else 0) + acquires ran.trace.calls =
      releases ran.trace.calls + ran.value.2.buffers := by
  cases x with
  | take => simp [deal, Dealing.isWrite]
  | giveBack => simp [deal, Dealing.isWrite]
  | ask r =>
    simp only [deal, Act.bind_apply, Act.pure_apply, List.append_nil]
    exact b.perform_buffers rounds r s w

theorem deal_held (rounds : Nat) (b : Backlog) (x : Dealing) (s : Surroundings σ) (w : σ)
    (before : ∀ c ∈ b.waiting, c.held.isSome)
    (finished : ∀ p ∈ (b.deal rounds x s w).value.1, p ≠ .unfinished) :
    ∀ c ∈ (b.deal rounds x s w).value.2.waiting, c.held.isSome := by
  cases x with
  | take => exact before
  | giveBack => exact before
  | ask r => exact b.perform_held rounds r s w before (finished _ (List.mem_singleton_self _))

theorem deal_counts {view : σ → Pool} (pools : s.Pools view) (rounds : Nat) (b : Backlog)
    (x : Dealing) (w : σ) :
    let ran := b.deal rounds x s w
    (view w).Counts (view ran.world) ((if x.isTake then 1 else 0) + acquires ran.trace.calls)
      ((if x.isGiveBack then 1 else 0) + releases ran.trace.calls) := by
  cases x with
  | take least direct =>
    simpa [deal, Dealing.isTake, Dealing.isGiveBack] using pools.counts_acquire least direct w
  | giveBack b =>
    simpa [deal, Dealing.isTake, Dealing.isGiveBack] using pools.counts_release b w
  | ask r =>
    simpa [deal, Dealing.isTake, Dealing.isGiveBack]
      using pools.counts_course (b.perform_course rounds r s w)

theorem dealAll_buffers (rounds : Nat) (b : Backlog) (dealings : List Dealing)
    (s : Surroundings σ) (w : σ) :
    let ran := b.dealAll rounds dealings s w
    b.buffers + dealings.countP Dealing.isWrite + acquires ran.trace.calls =
      releases ran.trace.calls + ran.value.2.buffers := by
  induction dealings generalizing b w with
  | nil => simp [dealAll]
  | cons x rest ih =>
    have h1 := b.deal_buffers rounds x s w
    have h2 := ih (b.deal rounds x s w).value.2 (b.deal rounds x s w).world
    simp only [dealAll, Act.bind_apply, Act.pure_apply, List.append_nil, Trace.calls_append,
      acquires_append, releases_append, List.countP_cons] at h1 h2 ⊢
    omega

theorem dealAll_held (rounds : Nat) (b : Backlog) (dealings : List Dealing) (s : Surroundings σ)
    (w : σ) (before : ∀ c ∈ b.waiting, c.held.isSome)
    (finished : ∀ p ∈ (b.dealAll rounds dealings s w).value.1, p ≠ .unfinished) :
    ∀ c ∈ (b.dealAll rounds dealings s w).value.2.waiting, c.held.isSome := by
  induction dealings generalizing b w with
  | nil => exact before
  | cons x rest ih =>
    simp only [dealAll, Act.bind_apply, Act.pure_apply, List.mem_append] at finished ⊢
    refine ih _ _ (b.deal_held rounds x s w before ?_) ?_
    · exact fun p hp => finished p (Or.inl hp)
    · exact fun p hp => finished p (Or.inr hp)

theorem dealAll_counts {view : σ → Pool} (pools : s.Pools view) (rounds : Nat) (b : Backlog)
    (dealings : List Dealing) (w : σ) :
    let ran := b.dealAll rounds dealings s w
    (view w).Counts (view ran.world) (dealings.countP Dealing.isTake + acquires ran.trace.calls)
      (dealings.countP Dealing.isGiveBack + releases ran.trace.calls) := by
  induction dealings generalizing b w with
  | nil => exact Pool.counts_refl _
  | cons x rest ih =>
    have h1 := b.deal_counts pools rounds x w
    have h2 := ih (b.deal rounds x s w).value.2 (b.deal rounds x s w).world
    have h := Pool.counts_trans h1 h2
    simp only [dealAll, Act.bind_apply, Act.pure_apply, List.append_nil, Trace.calls_append,
      acquires_append, releases_append, List.countP_cons]
    convert h using 1 <;> omega

/-- If each command that waits holds a buffer, there are as many buffers as
commands. -/
theorem buffers_eq_size {b : Backlog} (held : ∀ c ∈ b.waiting, c.held.isSome) :
    b.buffers = b.size := by
  have h : b.waiting.map (fun c => Outbox.buffers c.held) = b.waiting.map fun _ => 1 :=
    List.map_congr_left fun c hc => buffers_of_isSome (held c hc)
  unfold buffers
  rw [h]
  simp [size]

end Backlog

/-- No buffer leaks, and none is released twice. Whatever the surroundings
answer, the buffers that writes handed in and commands acquired, less those
released, are as many as the commands that wait, and each of these holds one.
So a new pool that served all buffers knows, until its counters wrap, how many
of them wait with a command or are in a caller's hands. -/
theorem no_buffer_leaks (s : Surroundings σ) (rounds : Nat) (policy : Policy)
    (dealings : List Dealing) (w : σ)
    (finished : ∀ p ∈ (({ policy } : Backlog).dealAll rounds dealings s w).value.1,
      p ≠ .unfinished) :
    let run := ({ policy } : Backlog).dealAll rounds dealings s w
    dealings.countP Dealing.isWrite + acquires run.trace.calls =
        releases run.trace.calls + run.value.2.size ∧
      (∀ c ∈ run.value.2.waiting, c.held.isSome) ∧
      ∀ view : σ → Pool, s.Pools view → (view w).acquired = 0 → (view w).released = 0 →
        ∀ hands, dealings.foldlM Dealing.hands 0 = some hands →
          dealings.countP Dealing.isTake + acquires run.trace.calls < 2 ^ 64 →
          (view run.world).outstanding = run.value.2.size + hands := by
  have hheld := Backlog.dealAll_held rounds { policy } dealings s w (by simp) finished
  have hsize := Backlog.buffers_eq_size hheld
  have hb := Backlog.dealAll_buffers rounds { policy } dealings s w
  have h0 : ({ policy } : Backlog).buffers = 0 := rfl
  simp only [h0, hsize, Nat.zero_add] at hb
  refine ⟨hb, hheld, ?_⟩
  intro view pools acquired released hands inHand noWrap
  have hc := Backlog.dealAll_counts pools rounds { policy } dealings w
  have hh := Dealing.handsAll_balance inHand
  rw [Pool.outstanding_of_counts acquired released hc (by omega) noWrap]
  omega

theorem workbench_pools : workbench.impatient.Pools fun w => w.1.pool where
  acquire _ _ _ := rfl
  release _ _ := rfl
  other {c w w'} takes notAcquire notRelease := by
    cases c with
    | acquire => cases notAcquire
    | release => cases notRelease
    | peerAddress => rw [takes.2]
    | dispose => rw [← show _ = w' from takes]; rfl
    | send channel datagram destination answer =>
      have h : workbench.impatient.send channel datagram destination w = (answer, w') := takes
      simp only [Surroundings.impatient] at h
      split at h <;> cases h <;> rfl
    | _ =>
      obtain rfl : _ = w' := congrArg Prod.snd takes
      rfl

/-- Two buffers are taken, and one is written, before a flush is refused and a
timer fires. -/
def Bench.dealings : List Dealing :=
  [.take 8 true, .take 16 false] ++ (Bench.chores.take 3).map .ask

theorem no_buffer_leaks_on_the_workbench :
    let run := ({} : Backlog).dealAll 4 Bench.dealings workbench.impatient Bench.busy
    (∀ p ∈ run.value.1, p ≠ .unfinished) ∧ workbench.impatient.Pools (fun w => w.1.pool) ∧
      Bench.dealings.foldlM Dealing.hands 0 = some 1 ∧ run.value.2.size = 1 ∧
      run.world.1.pool.outstanding = run.value.2.size + 1 := by
  have progresses : (({} : Backlog).dealAll 4 Bench.dealings workbench.impatient
      Bench.busy).value.1 = [.completed, .refused, .completed] := rfl
  have finished : ∀ p ∈ (({} : Backlog).dealAll 4 Bench.dealings workbench.impatient
      Bench.busy).value.1, p ≠ .unfinished := by
    simp [progresses]
  refine ⟨finished, workbench_pools, rfl, rfl, ?_⟩
  exact (no_buffer_leaks workbench.impatient 4 .standard Bench.dealings Bench.busy finished).2.2 _
    workbench_pools rfl rfl 1 rfl (by decide)

end Outbox
