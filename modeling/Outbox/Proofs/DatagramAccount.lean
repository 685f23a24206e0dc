-- The account of the datagrams. With engines that tell the truth, what goes
-- into a command comes out of it in the same order: it is accepted by the
-- channel, or the command still holds it. The account of one attempt holds
-- round by round, and the account of a whole run adds up those of its attempts.
import Mathlib.Algebra.Order.Group.Multiset
import Outbox.Proofs.Accounts
import Outbox.Proofs.Workbench

namespace Outbox

variable {σ : Type} {s : Surroundings σ} {w : σ}

/-! ## Entries of the account -/

/-- An engine that answers a count put that many bytes into the buffer, and
one that fails put none. -/
def Surroundings.Truthful (s : Surroundings σ) : Prop :=
  ∀ c b w,
    match (s.produce c b w).1 with
    | (appended, .ok n) => n = appended.length
    | (appended, .error _) => appended = []

/-- The engine of this connection does so. -/
def Surroundings.TellsTruth (s : Surroundings σ) (c : Connection) : Prop :=
  ∀ b w,
    match (s.produce c b w).1 with
    | (appended, .ok n) => n = appended.length
    | (appended, .error _) => appended = []

theorem Surroundings.Truthful.tellsTruth (truthful : s.Truthful) (c : Connection) :
    s.TellsTruth c := truthful c

/-- The datagram that a send transferred. -/
def Call.accepted? : Call → Option Bytes
  | .send _ datagram _ (.ok (_ + 1)) => some datagram
  | _ => none

/-- The datagram that an engine produced. -/
def Call.produced? : Call → Option Bytes
  | .produce _ _ appended _ => if appended = [] then none else some appended
  | _ => none

def accepted (calls : List Call) : List Bytes := calls.filterMap Call.accepted?

def produced (calls : List Call) : List Bytes := calls.filterMap Call.produced?

/-- The datagram that waits in a buffer, if there is a buffer and it is not
empty. -/
def unsent : Option Buffer → List Bytes
  | some b => if b.contents = [] then [] else [b.contents]
  | none => []

@[simp] theorem accepted_nil : accepted [] = [] := rfl

@[simp] theorem accepted_cons (c : Call) (l : List Call) :
    accepted (c :: l) = c.accepted?.toList ++ accepted l := by
  cases h : c.accepted? <;> simp [accepted, h]

@[simp] theorem produced_nil : produced [] = [] := rfl

@[simp] theorem produced_cons (c : Call) (l : List Call) :
    produced (c :: l) = c.produced?.toList ++ produced l := by
  cases h : c.produced? <;> simp [produced, h]

theorem accepted_append (l m : List Call) : accepted (l ++ m) = accepted l ++ accepted m :=
  List.filterMap_append

theorem produced_append (l m : List Call) : produced (l ++ m) = produced l ++ produced m :=
  List.filterMap_append

@[simp] theorem unsent_none : unsent none = [] := rfl

@[simp] theorem unsent_clear (b : Buffer) : unsent (some b.clear) = [] := rfl

theorem unsent_of_isEmpty {b : Buffer} (h : b.isEmpty = true) : unsent (some b) = [] := by
  simp [unsent, Buffer.isEmpty_iff.1 h]

theorem unsent_of_not_isEmpty {b : Buffer} (h : b.isEmpty = false) :
    unsent (some b) = [b.contents] := by
  have : b.contents ≠ [] := fun hc => by simp [Buffer.isEmpty, hc] at h
  simp [unsent, this]

theorem length_unsent_le (held : Option Buffer) : (unsent held).length ≤ 1 := by
  unfold unsent
  split
  · split <;> simp
  · simp

/-! ## The account of a flush -/

namespace EngineFlush

variable {f : EngineFlush} {b : Buffer} {r : Ran σ Turn}

/-- A datagram in the buffer is accepted, or it is still there. -/
theorem transmitted_balances (h : Transmitted s f b w r) (full : b.contents ≠ []) :
    [b.contents] = accepted r.trace.calls ++ unsent r.value.flush.held ∧
      produced r.trace.calls = [] := by
  cases h <;>
    simp [transmission, Call.accepted?, Call.produced?, Turn.flush, unsent, full]

/-- An engine with nothing left leaves the buffer empty, so the buffer goes
back empty. -/
theorem woundUp_balances (h : WoundUp s f b w r) (empty : b.contents = []) :
    accepted r.trace.calls = [] ∧ unsent r.value.flush.held = [] ∧ produced r.trace.calls = [] := by
  cases h <;>
    simp [Call.accepted?, Call.produced?, Turn.flush, unsent, empty]

theorem worked_balances (truthful : s.TellsTruth f.connection) (h : Worked s f b w r) :
    unsent (some b) ++ produced r.trace.calls =
      accepted r.trace.calls ++ unsent r.value.flush.held := by
  cases h with
  | resent full sent =>
    have hb : b.contents ≠ [] := fun hc => by simp [Buffer.isEmpty, hc] at full
    obtain ⟨h1, h2⟩ := transmitted_balances sent hb
    rw [unsent_of_not_isEmpty full, h2, List.append_nil, h1]
  | @pollFailed bytes e _ empty polled =>
    have ht := truthful b w
    simp only [polled] at ht
    subst ht
    simp [Call.accepted?, Call.produced?, Turn.flush]
  | @produced bytes n _ r empty polled sent =>
    have ht := truthful b w
    simp only [polled] at ht
    have hb : b.contents = [] := Buffer.isEmpty_iff.1 empty
    have hbytes : bytes ≠ [] := fun hc => by simp [hc] at ht
    obtain ⟨h1, h2⟩ := transmitted_balances sent (by simpa [hb] using hbytes)
    rw [unsent_of_isEmpty empty]
    simp only [Buffer.contents_append, hb, List.nil_append] at h1
    simpa [Call.accepted?, Call.produced?, hbytes, h2] using h1
  | @ranDry bytes _ r empty polled woundUp =>
    have ht := truthful b w
    simp only [polled] at ht
    have hb : b.contents = [] := Buffer.isEmpty_iff.1 empty
    have hbytes : bytes = [] := List.eq_nil_of_length_eq_zero ht.symm
    subst hbytes
    obtain ⟨h1, h2, h3⟩ := woundUp_balances woundUp (by simpa using hb)
    rw [unsent_of_isEmpty empty]
    simp [Call.accepted?, Call.produced?, h1, h2, h3]

theorem taken_balances {buffer : Ran σ Buffer} (h : Taken s f w buffer) :
    unsent f.held = unsent (some buffer.value) ∧ accepted buffer.trace.calls = [] ∧
      produced buffer.trace.calls = [] := by
  cases h with
  | held held => simp [held]
  | acquired none given =>
    simp [none, unsent, Call.accepted?, Call.produced?]

theorem rounded_balances (truthful : s.TellsTruth f.connection) (h : Rounded s f w r) :
    unsent f.held ++ produced r.trace.calls =
      accepted r.trace.calls ++ unsent r.value.flush.held := by
  cases h with
  | intro taken worked =>
    obtain ⟨h1, h2, h3⟩ := taken_balances taken
    have h4 := worked_balances truthful worked
    simpa [accepted_append, produced_append, h1, h2, h3] using h4

end EngineFlush

/-! ## The account of a command -/

theorem DatagramWrite.attempted_balances {d : DatagramWrite}
    {r : Ran σ (Progress × DatagramWrite)} (h : Attempted s d w r) :
    unsent d.held ++ produced r.trace.calls = accepted r.trace.calls ++ unsent r.value.2.held := by
  cases h with
  | done none => simp [none]
  | empty held empty =>
    simp [held, unsent_of_isEmpty empty, Call.accepted?, Call.produced?]
  | failed held full sent => simp [held, Call.accepted?, Call.produced?]
  | refused held full sent => simp [held, Call.accepted?, Call.produced?]
  | accepted held full sent =>
    simp [held, unsent_of_not_isEmpty full, Call.accepted?, Call.produced?]

/-- The account of datagrams: what the buffer held and what the engine
produced, in this order, is what the channel accepted and what the buffer
holds now. -/
def datagramAccount (truthful : s.Truthful) : Account s where
  Balances held calls held' := unsent held ++ produced calls = accepted calls ++ unsent held'
  nil _ := by simp
  append first second := by
    rw [produced_append, ← List.append_assoc, first, List.append_assoc, second, accepted_append,
      List.append_assoc]
  round h := EngineFlush.rounded_balances (truthful.tellsTruth _) h
  write h := DatagramWrite.attempted_balances h
  fireTimer _ _ _ := by simp [Call.accepted?, Call.produced?]
  dispose _ _ := by simp [Call.accepted?, Call.produced?]

/-- To give a command up moves no datagram. -/
theorem parting_moves_none (c : Command) (p : Progress) :
    accepted (c.parting p) = [] ∧ produced (c.parting p) = [] := by
  cases p with
  | failed e => cases h : c.held <;> simp [Command.parting, h, Call.accepted?, Call.produced?]
  | _ => exact ⟨rfl, rfl⟩

/-- The account of one attempt. A command that is done holds no datagram. -/
theorem serve_balances (truthful : s.Truthful) (rounds : Nat) (fresh : Bool) (t : Ticket) (w : σ) :
    let st := (t.serve rounds fresh s w).value
    unsent st.before.held ++ produced st.trace.calls =
        accepted st.trace.calls ++ unsent st.after.held ∧
      (st.progress = .completed → unsent st.after.held = []) := by
  obtain ⟨hv, hc, -⟩ := Command.serve_eq rounds t.command s w
  obtain ⟨h1, h2⟩ := parting_moves_none (t.command.resume rounds s w).value.2
    (t.command.resume rounds s w).value.1
  have hb := (datagramAccount truthful).resume rounds t.command w
  have hd := (Command.held_of_resume rounds t.command s w).1
  simp only [Ticket.serve, hv, hc, accepted_append, produced_append, h1, h2, List.append_nil]
  exact ⟨hb, fun h => by rw [hd h, unsent_none]⟩

/-! ## The account of a run -/

def Progress.isFailed : Progress → Bool
  | .failed _ => true
  | .completed | .refused | .unfinished => false

/-- The datagrams that came in with the submissions of some attempts. -/
def entered (stints : List Stint) : List Bytes :=
  (stints.filter Stint.fresh).flatMap fun st => unsent st.before.held

/-- The datagrams that failed commands held. -/
def lost (stints : List Stint) : List Bytes :=
  stints.flatMap fun st =>
    match st.progress with
    | .failed _ => unsent st.after.held
    | .completed | .refused | .unfinished => []

/-- The datagrams that waiting commands hold. -/
def unsentAll (waiting : List Command) : List Bytes := waiting.flatMap fun c => unsent c.held

theorem entered_append (l m : List Stint) : entered (l ++ m) = entered l ++ entered m := by
  simp [entered]

theorem lost_append (l m : List Stint) : lost (l ++ m) = lost l ++ lost m := List.flatMap_append

/-- In and out of one command, over all attempts at it. -/
def Settled (stints : List Stint) (held : Option Buffer) : Prop :=
  entered stints ++ produced (traceOf stints).calls =
    accepted (traceOf stints).calls ++ unsent held

theorem settled_append {stints : List Stint} {held : Option Buffer} {st : Stint}
    (before : Settled stints held) (same : st.before.held = held) (resumed : st.fresh = false)
    (balance : unsent st.before.held ++ produced st.trace.calls =
      accepted st.trace.calls ++ unsent st.after.held) :
    Settled (stints ++ [st]) st.after.held := by
  unfold Settled at before ⊢
  have he : entered [st] = [] := by simp [entered, resumed]
  simp only [entered_append, traceOf_append, Trace.calls_append, accepted_append, produced_append,
    traceOf_singleton, he, List.append_nil]
  rw [← List.append_assoc, before, List.append_assoc, ← same, balance, List.append_assoc]

theorem settled_fresh {st : Stint} (fresh : st.fresh = true)
    (balance : unsent st.before.held ++ produced st.trace.calls =
      accepted st.trace.calls ++ unsent st.after.held) :
    Settled [st] st.after.held := by
  simpa [Settled, entered, fresh, traceOf_singleton] using balance

/-- The account of each command that waits is settled, and so is that of each
command at its last attempt. -/
structure AllSettled (h : List Stint) (d : Docket) : Prop where
  waiting : ∀ t ∈ d.waiting, Settled (ofNumber t.number h) t.command.held
  each : ∀ n, ∃ held, Settled (ofNumber n h) held

/-- An attempt concerns only the account of its own command. -/
theorem AllSettled.attempted {h : List Stint} {d d' : Docket} {st : Stint} (before : AllSettled h d)
    (settled : Settled (ofNumber st.number (h ++ [st])) st.after.held)
    (others : ∀ t ∈ d'.waiting, (t ∈ d.waiting ∧ t.number ≠ st.number) ∨
      t = st.ticket ∧ st.progress.waits = true) :
    AllSettled (h ++ [st]) d' := by
  constructor
  · intro t ht
    rcases others t ht with ⟨ht, hne⟩ | ⟨rfl, -⟩
    · rw [ofNumber_append_ne h hne.symm]
      exact before.waiting t ht
    · exact settled
  · intro n
    by_cases hn : st.number = n
    · exact ⟨_, hn ▸ settled⟩
    · rw [ofNumber_append_ne h hn]
      exact before.each n

namespace History

variable {rounds : Nat} {policy : Policy} {d : Docket} {w₀ : σ} {h : List Stint}

theorem settled (truthful : s.Truthful) (hist : History s rounds { policy } w₀ h d w) :
    AllSettled h d := by
  induction hist with
  | start => exact ⟨by simp, fun n => ⟨none, by simp [Settled, ofNumber, entered, traceOf]⟩⟩
  | @submit h d w r c ran earlier made served ih =>
    subst served
    refine ih.attempted ?_ fun t ht => earlier.numbered.of_enlist rfl ht
    have new : ofNumber (Ticket.serve rounds true ⟨d.submitted + 1, c⟩ s w).value.number h = [] :=
      earlier.numbered.ofNumber_next
    have balance := (serve_balances truthful rounds true ⟨d.submitted + 1, c⟩ w).1
    rw [ofNumber_append_self h rfl, new, List.nil_append]
    exact settled_fresh rfl balance
  | @resume h d w t behind ran earlier front served ih =>
    subst served
    refine ih.attempted ?_ fun u hu => earlier.numbered.of_requeue front rfl hu
    have before := ih.waiting t (front ▸ List.mem_cons_self ..)
    rw [ofNumber_append_self h rfl]
    exact settled_append before rfl rfl (serve_balances truthful rounds false t w).1

end History

/-! ## The sum of the account -/

/-- The datagram with which a command goes on waiting after an attempt. -/
def keptBy (st : Stint) : List Bytes := if st.progress.waits then unsent st.after.held else []

/-- What a command holds after an attempt waits on with it, or is lost if it
failed. -/
theorem unsent_after (st : Stint) (done : st.progress = .completed → unsent st.after.held = []) :
    unsent st.after.held = keptBy st ++ lost [st] := by
  rcases h : st.progress with _ | _ | _ | _
  · simp [done h, keptBy, lost, h]
  all_goals simp [keptBy, lost, h, Progress.waits]

/-- The datagram in a buffer, as a collection. -/
def datagrams (held : Option Buffer) : Multiset Bytes := unsent held

theorem serve_balances_sum (truthful : s.Truthful) (rounds : Nat) (fresh : Bool) (t : Ticket)
    (w : σ) :
    let st := (t.serve rounds fresh s w).value
    datagrams st.before.held + produced st.trace.calls =
      (accepted st.trace.calls + lost [st] : Multiset Bytes) +
        st.kept fun c => datagrams c.held := by
  intro st
  obtain ⟨balance, done⟩ := serve_balances truthful rounds fresh t w
  have h := congrArg (fun l : List Bytes => (l : Multiset Bytes)) balance
  rw [unsent_after _ done] at h
  have hk : (st.kept fun c => datagrams c.held) = (keptBy st : Multiset Bytes) := by
    unfold Stint.kept keptBy
    split <;> rfl
  rw [hk]
  simp only [← Multiset.coe_add] at h
  unfold datagrams
  rw [h]
  abel

theorem sum_flatMap {α : Type} (g : α → List Bytes) (l : List α) :
    (l.map fun a => (g a : Multiset Bytes)).sum = l.flatMap g := by
  induction l with
  | nil => rfl
  | cons a l ih => rw [List.map_cons, List.sum_cons, ih, List.flatMap_cons, Multiset.coe_add]

theorem accepted_traceOf (h : List Stint) :
    accepted (traceOf h).calls = h.flatMap fun st => accepted st.trace.calls := by
  simp [accepted, Trace.calls, traceOf, List.filterMap_flatMap]

theorem produced_traceOf (h : List Stint) :
    produced (traceOf h).calls = h.flatMap fun st => produced st.trace.calls := by
  simp [produced, Trace.calls, traceOf, List.filterMap_flatMap]

/-- The sum over all commands, at every moment of a run. -/
theorem History.balances {rounds : Nat} {policy : Policy} {d : Docket} {w₀ : σ} {h : List Stint}
    (truthful : s.Truthful) (hist : History s rounds { policy } w₀ h d w) :
    (entered h + produced (traceOf h).calls : Multiset Bytes) =
      accepted (traceOf h).calls + unsentAll d.backlog.waiting + lost h := by
  have hb := hist.sum_balances (fun c => datagrams c.held)
    (fun st => (produced st.trace.calls : Multiset Bytes))
    (fun st => (accepted st.trace.calls + lost [st] : Multiset Bytes))
    (serve_balances_sum truthful)
  have hw : unsentAll d.backlog.waiting = d.waiting.flatMap fun t => unsent t.command.held := by
    simp [unsentAll, Docket.backlog, List.flatMap_map]
  have hl : (h.flatMap fun st => lost [st]) = lost h := by simp [lost]
  simp only [datagrams, List.map_nil, List.sum_nil, zero_add, List.sum_map_add, sum_flatMap, ← hw,
    hl, ← accepted_traceOf, ← produced_traceOf] at hb
  unfold entered
  rw [hb]
  abel

/-! ## The law -/

/-- The datagrams handed in with the writes among some requests. -/
def handedIn (requests : List Backlog.Request) : List Bytes :=
  requests.flatMap fun r =>
    match r with
    | .write _ buffer _ => unsent (some buffer)
    | .flush .. | .timer .. | .drain => []

theorem entered_eq_handedIn (rounds : Nat) (d : Docket) (requests : List Backlog.Request)
    (s : Surroundings σ) (w : σ) :
    entered (d.performAll rounds requests s w).value.1.flatten = handedIn requests := by
  have h := congrArg (fun l => l.flatMap fun c => unsent (Command.held c))
    (Docket.performAll_fresh rounds d requests s w)
  simp only [List.flatMap_map] at h
  unfold entered
  rw [h]
  clear h
  induction requests with
  | nil => rfl
  | cons r rest ih =>
    cases r <;>
      simp_all [handedIn, List.filterMap_cons, Backlog.Request.command?, Command.held,
        TimerFlush.new]

/-- A command about a connection comes in with no datagram. -/
theorem entered_of_connection (rounds : Nat) (d : Docket) (requests : List Backlog.Request)
    (s : Surroundings σ) (w : σ) (n : Nat) :
    let attempts := ofNumber n (d.performAll rounds requests s w).value.1.flatten
    (∀ st ∈ attempts, st.before.connection?.isSome) → entered attempts = [] := by
  intro attempts about
  apply List.flatMap_eq_nil_iff.2
  intro st hst
  obtain ⟨hmem, hfresh⟩ := List.mem_filter.1 hst
  have hbefore : st.before ∈ requests.filterMap (Backlog.Request.command? d.policy) := by
    rw [← Docket.performAll_fresh rounds d requests s w]
    exact List.mem_map_of_mem (List.mem_filter.2 ⟨(mem_ofNumber.1 hmem).1, hfresh⟩)
  obtain ⟨r, -, made⟩ := List.mem_filterMap.1 hbefore
  have hc := about st hmem
  cases r <;> simp only [Backlog.Request.command?, Option.some.injEq, reduceCtorEq] at made
  all_goals rw [← made] at hc ⊢
  · simp [Command.connection?] at hc
  · rfl
  · rfl

theorem lost_of_upToLast {stints : List Stint} (h : Docket.UpToLast stints) :
    (lost stints).length ≤ if (concluded stints).isFailed then 1 else 0 := by
  rcases List.eq_nil_or_concat stints with rfl | ⟨before, last, rfl⟩
  · exact Nat.zero_le _
  · have hb : lost before = [] := by
      apply List.flatMap_eq_nil_iff.2
      intro st hst
      rw [h st (by simpa using hst)]
    rw [List.concat_eq_append, lost_append, hb]
    cases hp : last.progress <;>
      simp [concluded, lost, hp, Progress.isFailed, length_unsent_le]

/-- No datagram is lost, duplicated or sent again. After any requests, the
datagrams handed in, by writes and by engines, are those that channels
accepted, those that waiting commands hold, and those that failed commands
held. A request that fails adds at most one datagram to the last, and any
other adds none. And what a command sends of a connection leaves in the order
in which the engine produced it. -/
theorem no_datagram_is_lost_or_sent_twice (s : Surroundings σ) (truthful : s.Truthful)
    (rounds : Nat) (policy : Policy) (requests : List Backlog.Request) (w : σ) :
    let run := ({ policy } : Backlog).performAll rounds requests s w
    let operations := (({ policy } : Docket).performAll rounds requests s w).value.1
    let attempts := operations.flatten
    run.trace.calls = (traceOf attempts).calls ∧
      (handedIn requests + produced run.trace.calls : Multiset Bytes) =
        accepted run.trace.calls + unsentAll run.value.2.waiting + lost attempts ∧
      List.Forall₂
        (fun progress operation =>
          (lost operation).length ≤ if progress.isFailed then 1 else 0)
        run.value.1 operations ∧
      ∀ n, (∀ st ∈ ofNumber n attempts, st.before.connection?.isSome) →
        accepted (traceOf (ofNumber n attempts)).calls <+:
          produced (traceOf (ofNumber n attempts)).calls := by
  intro run operations attempts
  obtain ⟨erase, hist⟩ := Docket.performAll_history rounds { policy } requests s w
  have hrun : run = _ := erase
  have hcalls : run.trace.calls = (traceOf attempts).calls := by
    rw [hrun]
    exact Docket.performAll_calls rounds { policy } requests s w
  refine ⟨hcalls, ?_, ?_, ?_⟩
  · have hb := hist.balances truthful
    rw [entered_eq_handedIn] at hb
    rw [hcalls, hrun]
    exact hb
  · rw [hrun]
    refine List.forall₂_map_left_iff.2 (List.forall₂_same.2 fun operation hop => ?_)
    exact lost_of_upToLast (Docket.performAll_upToLast _ _ _ _ _ operation hop)
  · intro n about
    obtain ⟨held, hs⟩ := (hist.settled truthful).each n
    have he := entered_of_connection rounds { policy } requests s w n about
    unfold Settled at hs
    rw [he, List.nil_append] at hs
    exact ⟨unsent held, hs.symm⟩

theorem workbench_truthful : workbench.impatient.Truthful := fun _ _ _ => rfl

/-- The chores on the workbench: the refused datagram goes out with the drain. -/
theorem no_datagram_is_lost_on_the_workbench :
    let run := ({} : Backlog).performAll 4 Bench.chores workbench.impatient Bench.busy
    let operations :=
      (({} : Docket).performAll 4 Bench.chores workbench.impatient Bench.busy).value.1
    workbench.impatient.Truthful ∧
      accepted run.trace.calls = [[9], [1], [2], [1], [2]] ∧
      (handedIn Bench.chores + produced run.trace.calls : Multiset Bytes) =
        accepted run.trace.calls + unsentAll run.value.2.waiting + lost operations.flatten :=
  ⟨workbench_truthful, rfl,
    (no_datagram_is_lost_or_sent_twice workbench.impatient workbench_truthful 4 .standard
      Bench.chores Bench.busy).2.1⟩

end Outbox
