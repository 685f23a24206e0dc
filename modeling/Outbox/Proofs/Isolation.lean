-- Commands do not disturb each other. If an engine answers by the calls made
-- on its own connection, and no other command names that connection, then a
-- command does over all its attempts what a single attempt would do alone,
-- with channels that never refuse. What the others do, and where they fail,
-- makes no difference. One thing passes from command to command nonetheless: a
-- pooled buffer comes with the capacity that its last owner left it, so the
-- engines must not look at that.
import Outbox.Proofs.Lenders
import Outbox.Proofs.Resumptions

namespace Outbox

variable {σ ε : Type} {s : Surroundings σ} {view : Connection → σ → ε}

/-! ## Engines of their own -/

/-- Each connection has an engine whose state can be seen. Calls on the
connection are answered by this state, and no other call changes it. The buffer
that a poll hands over, its capacity included, is part of the call. -/
structure Surroundings.Local (s : Surroundings σ) (view : Connection → σ → ε) : Prop where
  produce {c : Connection} {w v : σ} (h : view c w = view c v) (b : Buffer) :
    (s.produce c b w).1 = (s.produce c b v).1 ∧
      view c (s.produce c b w).2 = view c (s.produce c b v).2
  peerAddress {c : Connection} {w v : σ} (h : view c w = view c v) :
    s.peerAddress c w = s.peerAddress c v
  fireTimer {c : Connection} {w v : σ} (h : view c w = view c v) :
    (s.fireTimer c w).1 = (s.fireTimer c v).1 ∧
      view c (s.fireTimer c w).2 = view c (s.fireTimer c v).2
  isClosing {c : Connection} {w v : σ} (h : view c w = view c v) :
    (s.isClosing c w).1 = (s.isClosing c v).1 ∧
      view c (s.isClosing c w).2 = view c (s.isClosing c v).2
  finaliseClose {c : Connection} {w v : σ} (h : view c w = view c v) :
    (s.finaliseClose c w).1 = (s.finaliseClose c v).1 ∧
      view c (s.finaliseClose c w).2 = view c (s.finaliseClose c v).2
  dispose {c : Connection} {w v : σ} (h : view c w = view c v) :
    view c (s.dispose c w) = view c (s.dispose c v)
  other {c : Connection} {call : Call} {w w' : σ} (takes : s.Takes w call w')
    (elsewhere : call.connection? ≠ some c) : view c w' = view c w

/-- No send fails, though it may be refused. -/
def Surroundings.Reliable (s : Surroundings σ) : Prop :=
  ∀ channel datagram destination w, ∃ n, (s.send channel datagram destination w).1 = .ok n

/-- A call of a command on its engine, or a send that was not refused. A send
is told with the whole datagram, however much the channel says it took, and a
poll with the contents of the buffer, whatever its capacity. -/
def Call.own? : Call → Option Call
  | .acquire .. | .release _ | .peerAddress .. => none
  | .send _ _ _ (.ok 0) => none
  | .send channel datagram destination (.ok (_ + 1)) =>
    some (.send channel datagram destination (.ok datagram.length))
  | c => some c.bare

def ownCalls (calls : List Call) : List Call := calls.filterMap Call.own?

@[simp] theorem ownCalls_append (l m : List Call) : ownCalls (l ++ m) = ownCalls l ++ ownCalls m :=
  List.filterMap_append

theorem unblocked_send (s : Surroundings σ) (channel : Channel) (datagram : Bytes)
    (destination : Address) (w : σ) :
    ∃ n, s.unblocked.send channel datagram destination w = (.ok (n + 1), w) := by
  refine ⟨max 1 datagram.length - 1, ?_⟩
  have : max 1 datagram.length - 1 + 1 = max 1 datagram.length := by omega
  rw [this]
  rfl

namespace Surroundings.Local

variable (engines : s.Local view)
include engines

theorem view_acquire (c : Connection) (least : Nat) (direct : Bool) (w : σ) :
    view c (s.acquire least direct w).2 = view c w := by
  have takes : s.Takes w (.acquire least direct (s.acquire least direct w).1)
      (s.acquire least direct w).2 := rfl
  exact engines.other takes (by simp [Call.connection?])

theorem view_release (c : Connection) (b : Buffer) (w : σ) :
    view c (s.release b w) = view c w := by
  have takes : s.Takes w (.release b) (s.release b w) := rfl
  exact engines.other takes (by simp [Call.connection?])

theorem view_send (c : Connection) (channel : Channel) (datagram : Bytes) (destination : Address)
    (w : σ) : view c (s.send channel datagram destination w).2 = view c w := by
  have takes : s.Takes w
      (.send channel datagram destination (s.send channel datagram destination w).1)
      (s.send channel datagram destination w).2 := rfl
  exact engines.other takes (by simp [Call.connection?])

/-- A command alone with its engine, far from all that goes on near. -/
def mirror (blind : s.CapacityBlind) (substantial : s.Substantial) (reliable : s.Reliable)
    (c : Connection) : Mirror σ σ Call where
  near := s
  far := s.unblocked
  about x := x = c
  tell := Call.own?
  alike := Buffer.Alike
  related w v := view c w = view c v
  contents h := h
  append h bytes := h.append bytes
  clear {a b} _ := Buffer.alike_clear a b
  acquire {w v} h least direct := by
    refine ⟨rfl, ?_, rfl⟩
    rw [engines.view_acquire]
    exact h.trans (engines.view_acquire c least direct v).symm
  release {w v a b} h _ := by
    refine ⟨?_, rfl⟩
    rw [engines.view_release]
    exact h.trans (engines.view_release c b v).symm
  produce {w v a b} h ab x hx := by
    subst hx
    have far : s.unblocked.produce x b v = s.produce x a v := (blind x v ab).symm
    rw [far]
    exact engines.produce h a
  peerAddress h _ hc := by subst hc; exact engines.peerAddress h
  fireTimer h _ hc := by subst hc; exact engines.fireTimer h
  isClosing h _ hc := by subst hc; exact engines.isClosing h
  finaliseClose h _ hc := by subst hc; exact engines.finaliseClose h
  dispose h _ hc := by subst hc; exact engines.dispose h
  send {w v} h channel datagram destination := by
    have hw := engines.view_send c channel datagram destination w
    obtain ⟨k, hfar⟩ := unblocked_send s channel datagram destination v
    rw [hfar]
    obtain ⟨_ | n, hn⟩ := reliable channel datagram destination w
    · exact Or.inl ⟨hn, hw.trans h⟩
    · exact Or.inr ⟨Or.inl ⟨n, k, hn, rfl, by rw [hn]; rfl⟩, hw.trans h⟩
  toldPoll ab x appended answer := by simp only [Call.own?, Call.bare, ab.bare]
  untoldPeer _ _ := rfl
  untoldRefusal _ _ _ := rfl
  substantial := substantial

/-- What is done about another connection does not reach the engine. -/
theorem frame {c : Connection} {x : Option Connection} {calls : List Call} {w w' : σ}
    (course : Course s (Call.About x) w calls w') (hx : x ≠ some c) : view c w' = view c w := by
  induction course with
  | nil => rfl
  | cons lawful takes rest ih =>
    rw [ih]
    exact engines.other takes fun h => hx (lawful c h)

end Surroundings.Local

/-! ## Surroundings with more refusals -/

section Reluctant

variable {σ₁ : Type} {near : Surroundings σ₁} {base : σ₁ → σ}

/-- The near surroundings do what the others do in the world beneath, but that
their channels may refuse instead. -/
structure Surroundings.Reluctant (near : Surroundings σ₁) (s : Surroundings σ) (base : σ₁ → σ) :
    Prop where
  acquire (least : Nat) (direct : Bool) (w : σ₁) :
    Prod.map id base (near.acquire least direct w) = s.acquire least direct (base w)
  release (b : Buffer) (w : σ₁) : base (near.release b w) = s.release b (base w)
  produce (c : Connection) (b : Buffer) (w : σ₁) :
    Prod.map id base (near.produce c b w) = s.produce c b (base w)
  peerAddress (c : Connection) (w : σ₁) : near.peerAddress c w = s.peerAddress c (base w)
  fireTimer (c : Connection) (w : σ₁) :
    Prod.map id base (near.fireTimer c w) = s.fireTimer c (base w)
  isClosing (c : Connection) (w : σ₁) :
    Prod.map id base (near.isClosing c w) = s.isClosing c (base w)
  finaliseClose (c : Connection) (w : σ₁) :
    Prod.map id base (near.finaliseClose c w) = s.finaliseClose c (base w)
  dispose (c : Connection) (w : σ₁) : base (near.dispose c w) = s.dispose c (base w)
  send (channel : Channel) (datagram : Bytes) (destination : Address) (w : σ₁) :
    Prod.map id base (near.send channel datagram destination w) = (.ok 0, base w) ∨
      Prod.map id base (near.send channel datagram destination w) =
        s.send channel datagram destination (base w)

theorem blocked_reluctant (s : Surroundings σ) : s.blocked.Reluctant s id where
  acquire _ _ _ := rfl
  release _ _ := rfl
  produce _ _ _ := rfl
  peerAddress _ _ := rfl
  fireTimer _ _ := rfl
  isClosing _ _ := rfl
  finaliseClose _ _ := rfl
  dispose _ _ := rfl
  send _ _ _ _ := Or.inl rfl

theorem impatient_reluctant (s : Surroundings σ) : s.impatient.Reluctant s Prod.fst where
  acquire _ _ _ := rfl
  release _ _ := rfl
  produce _ _ _ := rfl
  peerAddress _ _ := rfl
  fireTimer _ _ := rfl
  isClosing _ _ := rfl
  finaliseClose _ _ := rfl
  dispose _ _ := rfl
  send channel datagram destination w := by
    simp only [Surroundings.impatient]
    split
    · exact Or.inl rfl
    · exact Or.inr rfl

namespace Surroundings.Reluctant

variable (reluctant : near.Reluctant s base)
include reluctant

/-- A call near is taken beneath, or it is a refused send and leaves the world
beneath as it is. -/
theorem takes {c : Call} {w w' : σ₁} (takes : near.Takes w c w') :
    s.Takes (base w) c (base w') ∨ base w' = base w := by
  cases c with
  | acquire least direct given =>
    refine Or.inl (.trans (reluctant.acquire least direct w).symm ?_)
    rw [show near.acquire least direct w = (given, w') from takes]
    rfl
  | release b =>
    exact Or.inl (.trans (reluctant.release b w).symm (congrArg base takes))
  | produce x b appended answer =>
    refine Or.inl (.trans (reluctant.produce x b w).symm ?_)
    rw [show near.produce x b w = ((appended, answer), w') from takes]
    rfl
  | peerAddress x answer =>
    exact Or.inl ⟨(reluctant.peerAddress x w).symm.trans takes.1, congrArg base takes.2⟩
  | fireTimer x answer =>
    refine Or.inl (.trans (reluctant.fireTimer x w).symm ?_)
    rw [show near.fireTimer x w = (answer, w') from takes]
    rfl
  | isClosing x answer =>
    refine Or.inl (.trans (reluctant.isClosing x w).symm ?_)
    rw [show near.isClosing x w = (answer, w') from takes]
    rfl
  | finaliseClose x answer =>
    refine Or.inl (.trans (reluctant.finaliseClose x w).symm ?_)
    rw [show near.finaliseClose x w = (answer, w') from takes]
    rfl
  | dispose x =>
    exact Or.inl (.trans (reluctant.dispose x w).symm (congrArg base takes))
  | send channel datagram destination answer =>
    have sent := reluctant.send channel datagram destination w
    rw [show near.send channel datagram destination w = (answer, w') from takes] at sent
    rcases sent with refused | same
    · exact Or.inr (congrArg Prod.snd refused)
    · exact Or.inl same.symm

/-- Refusals leave each engine its own. -/
theorem engines (engines : s.Local view) : near.Local fun c w => view c (base w) where
  produce {c w v} h b := by
    have alike := engines.produce h b
    rwa [← reluctant.produce, ← reluctant.produce] at alike
  peerAddress {c w v} h := by
    rw [reluctant.peerAddress, reluctant.peerAddress, engines.peerAddress h]
  fireTimer {c w v} h := by
    have alike := engines.fireTimer h
    rwa [← reluctant.fireTimer, ← reluctant.fireTimer] at alike
  isClosing {c w v} h := by
    have alike := engines.isClosing h
    rwa [← reluctant.isClosing, ← reluctant.isClosing] at alike
  finaliseClose {c w v} h := by
    have alike := engines.finaliseClose h
    rwa [← reluctant.finaliseClose, ← reluctant.finaliseClose] at alike
  dispose {c w v} h := by
    have alike := engines.dispose h
    rwa [← reluctant.dispose, ← reluctant.dispose] at alike
  other {c call w w'} takes elsewhere := by
    rcases reluctant.takes takes with beneath | same
    · exact engines.other beneath elsewhere
    · exact congrArg (view c) same

end Surroundings.Reluctant

end Reluctant

/-! ## How far a command came -/

/-- The submission of a command about this connection. -/
def Stint.Names (c : Connection) (st : Stint) : Prop :=
  st.fresh = true ∧ st.before.connection? = some c

instance (c : Connection) (st : Stint) : Decidable (st.Names c) :=
  inferInstanceAs (Decidable (_ ∧ _))

/-- The own calls of the command of submission `n`, over all attempts. -/
def ownCallsOf (n : Nat) (h : List Stint) : List Call := ownCalls (traceOf (ofNumber n h)).calls

section Standing

variable (engines : s.Local view) (blind : s.CapacityBlind) (substantial : s.Substantial)
  (reliable : s.Reliable)

/-- Where the command about a connection stands in a run: it is still to come,
it waits where it passes by when it is alone, or it came to the end that it
comes to when it is alone. -/
inductive Standing (c : Connection) (w₀ : σ) (h : List Stint) (d : Docket) (w : σ) : Prop where
  | ahead (unnamed : ∀ st ∈ h, ¬ st.Names c)
      (absent : ∀ t ∈ d.waiting, t.command.connection? ≠ some c)
      (untouched : view c w = view c w₀)
  | waiting {st : Stint} {t : Ticket} {u : Trace} {q : Command} {v : σ} (submitted : st ∈ h)
      (names : st.Names c) (waits : ∀ a ∈ ofNumber st.number h, a.progress.waits = true)
      (mem : t ∈ d.waiting) (number : t.number = st.number)
      (only : ∀ t' ∈ d.waiting, t'.command.connection? = some c → t'.number = st.number)
      (about : t.command.connection? = some c)
      (passes : Passes (fun n c v => c.resume n s.unblocked v) st.before w₀ u q v)
      (alike : (engines.mirror blind substantial reliable c).AlikeCommand t.command q)
      (seen : view c w = view c v) (own : ownCallsOf st.number h = ownCalls u.calls)
  | ended {st : Stint} {rounds : Nat} {y : Ran σ (Progress × Command)} (submitted : st ∈ h)
      (names : st.Names c)
      (absent : ∀ t ∈ d.waiting, t.command.connection? ≠ some c ∧ t.number ≠ st.number)
      (ends : st.before.Ends s.unblocked rounds w₀ y)
      (own : ownCallsOf st.number h = ownCalls y.allCalls)

end Standing

theorem ownCallsOf_append_self {n : Nat} {st : Stint} (h : List Stint) (hn : st.number = n) :
    ownCallsOf n (h ++ [st]) = ownCallsOf n h ++ ownCalls st.trace.calls := by
  unfold ownCallsOf
  rw [ofNumber_append_self h hn, traceOf_append, Trace.calls_append, ownCalls_append]
  simp [traceOf]

theorem ownCallsOf_append_ne {n : Nat} {st : Stint} (h : List Stint) (hn : st.number ≠ n) :
    ownCallsOf n (h ++ [st]) = ownCallsOf n h := by
  unfold ownCallsOf
  rw [ofNumber_append_ne h hn]

/-- An attempt that passes by one that comes to its end comes to that end. -/
theorem ends_after_passes {c q : Command} {w₀ v : σ} {u : Trace} {rounds : Nat}
    {y : Ran σ (Progress × Command)}
    (passes : Passes (fun n c v => c.resume n s v) c w₀ u q v) (ends : q.Ends s rounds v y) :
    ∃ n, c.Ends s n w₀ (y.after u) := by
  obtain ⟨k, hk⟩ := passes
  refine ⟨k + rounds + 1, fun n hn => ?_, ends.settled⟩
  obtain ⟨i, rfl⟩ : ∃ i, n = k + i + 1 := ⟨n - k - 1, by omega⟩
  have h : c.resume (k + i + 1) s w₀ = (q.resume (i + 1) s v).after u := hk i
  rw [h, ends.ends (i + 1) (by omega)]

section Standing

variable {engines : s.Local view} {blind : s.CapacityBlind} {substantial : s.Substantial}
  {reliable : s.Reliable} {c : Connection} {h : List Stint} {d d' : Docket} {w₀ w w' : σ}
  {a : Stint}

/-- An attempt at another command leaves a command where it stands. -/
theorem Standing.elsewhere (standing : Standing engines blind substantial reliable c w₀ h d w)
    (unnamed : ¬ a.Names c) (frame : view c w' = view c w)
    (arrived : ∀ t ∈ d'.waiting,
      t ∈ d.waiting ∨ t.command.connection? ≠ some c ∧ t.number = a.number)
    (stays : ∀ t ∈ d.waiting, t.command.connection? = some c → t ∈ d'.waiting)
    (distinct : ∀ t ∈ d.waiting, ∀ t' ∈ d.waiting, t.number = t'.number → t = t')
    (other : (∀ st ∈ h, a.number ≠ st.number) ∨
      ∃ t ∈ d.waiting, t.number = a.number ∧ t.command.connection? ≠ some c) :
    Standing engines blind substantial reliable c w₀ (h ++ [a]) d' w' := by
  cases standing with
  | ahead unnamed' absent untouched =>
    refine .ahead ?_ ?_ (frame.trans untouched)
    · intro st hst
      rcases List.mem_append.1 hst with hst | hst
      · exact unnamed' st hst
      · rwa [List.mem_singleton.1 hst]
    · intro t ht
      rcases arrived t ht with ht | ⟨ht, -⟩
      · exact absent t ht
      · exact ht
  | @waiting st t u q v submitted names waits mem number only about passes alike seen own =>
    have hne : a.number ≠ st.number := by
      rcases other with other | ⟨t', ht', hn, hc⟩
      · exact other st submitted
      · intro h
        obtain rfl := distinct t' ht' t mem (by rw [hn, h, number])
        exact hc about
    refine .waiting (List.mem_append_left _ submitted) names ?_ (stays t mem about) number ?_ about
      passes alike (frame.trans seen) ?_
    · rwa [ofNumber_append_ne h hne]
    · intro t' ht' hc
      rcases arrived t' ht' with ht' | ⟨ht', -⟩
      · exact only t' ht' hc
      · exact absurd hc ht'
    · rwa [ownCallsOf_append_ne h hne]
  | @ended st rounds y submitted names absent ends own =>
    have hne : a.number ≠ st.number := by
      rcases other with other | ⟨t', ht', hn, hc⟩
      · exact other st submitted
      · rw [← hn]
        exact (absent t' ht').2
    refine .ended (List.mem_append_left _ submitted) names ?_ ends ?_
    · intro t ht
      rcases arrived t ht with ht | ⟨ht, hn⟩
      · exact absent t ht
      · exact ⟨ht, hn ▸ hne⟩
    · rwa [ownCallsOf_append_ne h hne]

/-- An attempt at the command itself, near and alone. -/
theorem serve_alone (engines : s.Local view) (blind : s.CapacityBlind)
    (substantial : s.Substantial) (reliable : s.Reliable) (rounds : Nat) (fresh : Bool)
    {t : Ticket} {q : Command} {v : σ}
    (about : t.command.connection? = some c)
    (alike : (engines.mirror blind substantial reliable c).AlikeCommand t.command q)
    (seen : view c w = view c v) :
    let ran := t.serve rounds fresh s w
    (ran.value.progress.waits = true → ∃ u q' v',
      Passes (fun n c v => c.resume n s.unblocked v) q v u q' v' ∧
        (engines.mirror blind substantial reliable c).AlikeCommand ran.value.after q' ∧
        view c ran.world = view c v' ∧ ownCalls ran.value.trace.calls = ownCalls u.calls) ∧
    (ran.value.progress.waits = false → ∃ y, q.Ends s.unblocked rounds v y ∧
      ownCalls ran.value.trace.calls = ownCalls y.allCalls) := by
  have hf := Command.serve_follows (engines.mirror blind substantial reliable c) rounds alike seen
    fun x hx => by
      rw [about] at hx
      exact (Option.some.inj hx).symm
  refine ⟨hf.1, fun ended => ?_⟩
  obtain ⟨y, hy, -, -, ht⟩ := hf.2.2 ended
  exact ⟨y, hy, ht⟩

/-- An attempt at a command that passes by `q` when it is alone brings it to
where it waits, or to its end. -/
theorem Standing.attempted {rounds : Nat} {fresh : Bool} {t : Ticket} {st : Stint} {u : Trace}
    {q : Command} {v : σ} (about : t.command.connection? = some c) (number : t.number = st.number)
    (submitted : st ∈ h ++ [(t.serve rounds fresh s w).value]) (names : st.Names c)
    (waits : ∀ a ∈ ofNumber st.number h, a.progress.waits = true)
    (passes : Passes (fun n c v => c.resume n s.unblocked v) st.before w₀ u q v)
    (alike : (engines.mirror blind substantial reliable c).AlikeCommand t.command q)
    (seen : view c w = view c v) (own : ownCallsOf st.number h = ownCalls u.calls)
    (stays : (t.serve rounds fresh s w).value.progress.waits = true →
      (t.serve rounds fresh s w).value.ticket ∈ d'.waiting)
    (others : ∀ t' ∈ d'.waiting,
      (t'.command.connection? ≠ some c ∧ t'.number ≠ st.number) ∨
      t' = (t.serve rounds fresh s w).value.ticket ∧
        (t.serve rounds fresh s w).value.progress.waits = true) :
    Standing engines blind substantial reliable c w₀ (h ++ [(t.serve rounds fresh s w).value]) d'
      (t.serve rounds fresh s w).world := by
  obtain ⟨putOff, ended⟩ :=
    serve_alone engines blind substantial reliable rounds fresh about alike seen
  have hn : (t.serve rounds fresh s w).value.number = st.number := number
  have hafter : (t.serve rounds fresh s w).value.after.connection? = some c :=
    (Command.serve_course rounds t.command s w).2.trans about
  generalize t.serve rounds fresh s w = ran at *
  cases hw : ran.value.progress.waits with
  | true =>
    obtain ⟨u', q', v', passes', alike', seen', own'⟩ := putOff hw
    refine .waiting submitted names ?_ (stays hw) hn ?_ hafter (passes_trans passes passes') alike'
      seen' ?_
    · intro a ha
      rw [ofNumber_append_self h hn] at ha
      rcases List.mem_append.1 ha with ha | ha
      · exact waits a ha
      · rwa [List.mem_singleton.1 ha]
    · intro t' ht' hc
      rcases others t' ht' with ⟨ht', -⟩ | ⟨rfl, -⟩
      · exact absurd hc ht'
      · exact hn
    · rw [ownCallsOf_append_self h hn, own, own', Trace.calls_append, ownCalls_append]
  | false =>
    obtain ⟨y, ends, own'⟩ := ended hw
    obtain ⟨n, hends⟩ := ends_after_passes passes ends
    refine .ended submitted names ?_ hends ?_
    · intro t' ht'
      rcases others t' ht' with ht' | ⟨-, ht'⟩
      · exact ht'
      · simp [hw] at ht'
    · rw [ownCallsOf_append_self h hn, own, own', ← ownCalls_append]
      simp [Ran.allCalls, Ran.after]

theorem Standing.submitted {rounds : Nat} {cmd : Command}
    (absent : ∀ t ∈ d.waiting, t.command.connection? ≠ some c) (untouched : view c w = view c w₀)
    (about : cmd.connection? = some c) (numbered : Numbered h d) :
    let ran := Ticket.serve rounds true ⟨d.submitted + 1, cmd⟩ s w
    Standing engines blind substantial reliable c w₀ (h ++ [ran.value]) (d.enlist ran.value)
      ran.world := by
  intro ran
  have new : ofNumber ran.value.number h = [] := numbered.ofNumber_next
  have hnone : ownCallsOf ran.value.number h = ownCalls (Trace.calls []) := by
    unfold ownCallsOf
    rw [new]
    rfl
  have hmem : ran.value ∈ h ++ [ran.value] := by simp
  refine .attempted (t := ⟨d.submitted + 1, cmd⟩) about rfl hmem ⟨rfl, about⟩ ?_
    (passes_refl cmd w₀) (Mirror.alikeCommand_refl _ (fun _ => rfl) _) untouched hnone ?_ ?_
  · intro a ha
    simp [new] at ha
  · exact fun waits => mem_enlist.2 (Or.inr ⟨rfl, waits⟩)
  · intro t ht
    rcases numbered.of_enlist rfl ht with ⟨ht, hne⟩ | ht
    · exact Or.inl ⟨absent t ht, hne⟩
    · exact Or.inr ht

theorem Standing.resumed {rounds : Nat} {t : Ticket} {behind : List Ticket}
    (standing : Standing engines blind substantial reliable c w₀ h d w)
    (front : d.waiting = t :: behind) (about : t.command.connection? = some c)
    (numbered : Numbered h d) :
    let ran := t.serve rounds false s w
    Standing engines blind substantial reliable c w₀ (h ++ [ran.value])
      { d with waiting := Docket.requeue ran.value behind } ran.world := by
  intro ran
  have htmem : t ∈ d.waiting := front ▸ List.mem_cons_self ..
  cases standing with
  | ahead _ absent => exact absurd about (absent t htmem)
  | ended _ _ absent => exact absurd about (absent t htmem).1
  | @waiting st t₀ u q v submitted names waits mem number only _ passes alike seen own =>
    obtain rfl : t₀ = t :=
      numbered.eq_of_number t₀ mem t htmem (number.trans (only t htmem about).symm)
    refine .attempted about number (List.mem_append_left _ submitted) names waits passes alike seen
      own ?_ ?_
    · exact fun waits => mem_requeue.2 (Or.inl ⟨rfl, waits⟩)
    · intro t' ht'
      have hn : ran.value.number = t₀.number := rfl
      rcases numbered.of_requeue front hn ht' with ⟨ht', hne⟩ | ht'
      · have hne : t'.number ≠ st.number := number ▸ hne
        exact Or.inl ⟨fun hc => hne (only t' ht' hc), hne⟩
      · exact Or.inr ht'

end Standing

section Run

variable {engines : s.Local view} {blind : s.CapacityBlind} {substantial : s.Substantial}
  {reliable : s.Reliable} {c : Connection} {rounds : Nat} {policy : Policy} {h : List Stint}
  {d : Docket} {w₀ w : σ}

/-- An attempt at a command about another connection does not reach the engine. -/
theorem Surroundings.Local.frame_serve (engines : s.Local view) (rounds : Nat) (fresh : Bool)
    {t : Ticket} (elsewhere : t.command.connection? ≠ some c) :
    view c (t.serve rounds fresh s w).world = view c w :=
  engines.frame (Command.serve_course rounds t.command s w).1 elsewhere

theorem serve_elsewhere (s : Surroundings σ) (w : σ) (rounds : Nat) (fresh : Bool) {t : Ticket}
    (elsewhere : t.command.connection? ≠ some c) :
    (t.serve rounds fresh s w).value.ticket.command.connection? ≠ some c := fun hc =>
  elsewhere ((Command.serve_course rounds t.command s w).2.symm.trans hc)

theorem Standing.submit (standing : Standing engines blind substantial reliable c w₀ h d w)
    (earlier : History s rounds { policy } w₀ h d w) {cmd : Command}
    (once : cmd.connection? = some c → ∀ st ∈ h, ¬ st.Names c) :
    let ran := Ticket.serve rounds true ⟨d.submitted + 1, cmd⟩ s w
    Standing engines blind substantial reliable c w₀ (h ++ [ran.value]) (d.enlist ran.value)
      ran.world := by
  intro ran
  have numbered := earlier.numbered
  by_cases about : cmd.connection? = some c
  · cases standing with
    | ahead _ absent untouched =>
      exact .submitted absent untouched about numbered
    | waiting submitted names => exact absurd names (once about _ submitted)
    | ended submitted names => exact absurd names (once about _ submitted)
  · have hframe : view c ran.world = view c w := engines.frame_serve rounds true about
    refine standing.elsewhere (fun names => about names.2) hframe ?_ ?_ numbered.eq_of_number
      (Or.inl ?_)
    · intro t ht
      rcases mem_enlist.1 ht with ht | ⟨rfl, -⟩
      · exact Or.inl ht
      · exact Or.inr ⟨serve_elsewhere s w rounds true about, rfl⟩
    · exact fun t ht _ => mem_enlist.2 (Or.inl ht)
    · intro st hst heq
      have hnew : st.number = d.submitted + 1 := heq.symm
      have := numbered.stints st hst
      omega

theorem Standing.resume (standing : Standing engines blind substantial reliable c w₀ h d w)
    (earlier : History s rounds { policy } w₀ h d w) {t : Ticket} {behind : List Ticket}
    (front : d.waiting = t :: behind) :
    let ran := t.serve rounds false s w
    Standing engines blind substantial reliable c w₀ (h ++ [ran.value])
      { d with waiting := Docket.requeue ran.value behind } ran.world := by
  intro ran
  have numbered := earlier.numbered
  by_cases about : t.command.connection? = some c
  · exact standing.resumed front about numbered
  · have hframe : view c ran.world = view c w := engines.frame_serve rounds false about
    refine standing.elsewhere (fun names => about names.2) hframe ?_ ?_ numbered.eq_of_number
      (Or.inr ⟨t, front ▸ List.mem_cons_self .., rfl, about⟩)
    · intro t' ht'
      rcases mem_requeue.1 ht' with ⟨rfl, -⟩ | ht'
      · exact Or.inr ⟨serve_elsewhere s w rounds false about, rfl⟩
      · exact Or.inl (front ▸ List.mem_cons_of_mem _ ht')
    · intro t' ht' hc
      rw [front] at ht'
      rcases List.mem_cons.1 ht' with rfl | ht'
      · exact absurd hc about
      · exact mem_requeue.2 (Or.inr ht')

/-- In a run where a connection is named once, its command stands where it
stands alone. -/
theorem History.standing (engines : s.Local view) (blind : s.CapacityBlind)
    (substantial : s.Substantial) (reliable : s.Reliable)
    (hist : History s rounds { policy } w₀ h d w) (c : Connection)
    (once : (h.countP fun st => st.Names c) ≤ 1) :
    Standing engines blind substantial reliable c w₀ h d w := by
  induction hist with
  | start => exact .ahead (by simp) (by simp) rfl
  | @submit h d w r cmd ran earlier made served ih =>
    subst served
    rw [List.countP_append] at once
    apply (ih (by omega)).submit earlier
    intro about
    -- the new submission is the one that names the connection
    have hnames : (Ticket.serve rounds true ⟨d.submitted + 1, cmd⟩ s w).value.Names c :=
      ⟨rfl, about⟩
    rw [List.countP_singleton, if_pos (by simpa using hnames)] at once
    have hzero : (h.countP fun st => st.Names c) = 0 := by omega
    simpa [List.countP_eq_zero] using hzero
  | @resume h d w t behind ran earlier front served ih =>
    subst served
    rw [List.countP_append] at once
    exact (ih (by omega)).resume earlier front

end Run

/-! ## The law -/

/-- The connection that a request names. -/
def Backlog.Request.connection? : Backlog.Request → Option Connection
  | .flush connection _ | .timer connection _ _ => some connection
  | .write .. | .drain => none

/-- The command of a request is about the connection that the request names. -/
theorem Backlog.connection_of_command {policy : Policy} {r : Request} {c : Command}
    (made : r.command? policy = some c) : c.connection? = r.connection? := by
  cases r <;> cases made <;> rfl

theorem count_names (c : Connection) (policy : Policy) (requests : List Backlog.Request) :
    ((requests.filterMap (Backlog.Request.command? policy)).countP fun cmd =>
        cmd.connection? = some c) =
      (requests.filterMap Backlog.Request.connection?).count c := by
  rw [List.count, List.countP_filterMap, List.countP_filterMap]
  apply List.countP_congr
  intro r _
  cases r <;>
    simp [Backlog.Request.command?, Backlog.Request.connection?, Command.connection?,
      TimerFlush.connection, TimerFlush.new]

/-- If no two requests name the same connection, no two submissions do. -/
theorem names_once (rounds : Nat) (d : Docket) (requests : List Backlog.Request)
    (s : Surroundings σ) (w : σ)
    (distinct : (requests.filterMap Backlog.Request.connection?).Nodup) (c : Connection) :
    ((d.performAll rounds requests s w).value.1.flatten.countP fun st => st.Names c) ≤ 1 := by
  have h := congrArg (List.countP fun cmd : Command => cmd.connection? = some c)
    (Docket.performAll_fresh rounds d requests s w)
  rw [count_names, List.countP_map, List.countP_filter] at h
  have hnodup := List.nodup_iff_count.1 distinct c
  rw [← h] at hnodup
  refine Nat.le_trans (Nat.le_of_eq (List.countP_congr fun st _ => ?_)) hnodup
  rw [decide_eq_true_iff]
  simp [Stint.Names, and_comm]

/-- Only one submission names the connection. -/
theorem eq_number_of_names {c : Connection} {h : List Stint} {st st' : Stint}
    (once : (h.countP fun st => st.Names c) ≤ 1) (hst : st ∈ h) (hst' : st' ∈ h)
    (names : st.Names c) (names' : st'.Names c) : st = st' := by
  have hlen : (h.filter fun st => st.Names c).length ≤ 1 := by rwa [← List.countP_eq_length_filter]
  have hm : st ∈ h.filter fun st => st.Names c := List.mem_filter.2 ⟨hst, by simpa using names⟩
  have hm' : st' ∈ h.filter fun st => st.Names c := List.mem_filter.2 ⟨hst', by simpa using names'⟩
  obtain ⟨i, hi, rfl⟩ := List.getElem_of_mem hm
  obtain ⟨j, hj, rfl⟩ := List.getElem_of_mem hm'
  congr 1
  omega

/-- Where a command stands tells how its own calls compare with those of one
attempt alone. -/
theorem Standing.own_calls {engines : s.Local view} {blind : s.CapacityBlind}
    {substantial : s.Substantial} {reliable : s.Reliable} {c : Connection} {h : List Stint}
    {d : Docket} {w₀ w : σ}
    (standing : Standing engines blind substantial reliable c w₀ h d w)
    (once : (h.countP fun st => st.Names c) ≤ 1) {st : Stint} (hst : st ∈ h)
    (names : st.Names c) :
    let alone := fun n => ownCalls (st.before.attempt n s.unblocked w₀).trace.calls
    (∃ least, ∀ n ≥ least, ownCallsOf st.number h <+: alone n) ∧
      ((∃ last ∈ ofNumber st.number h, last.progress.waits = false) →
        ∃ least, ∀ n ≥ least, ownCallsOf st.number h = alone n) := by
  have halone : ∀ n, (st.before.attempt n s.unblocked w₀).trace.calls =
      (st.before.resume n s.unblocked w₀).trace.calls := fun n => by
    obtain ⟨t, ht, hcalls⟩ := Command.attempt_eq n st.before s.unblocked w₀
    rw [ht, hcalls]
  simp only [halone]
  cases standing with
  | ahead unnamed => exact absurd names (unnamed st hst)
  | @waiting st' t u q v submitted names' waits mem number only about passes alike seen own =>
    obtain rfl := eq_number_of_names once hst submitted names names'
    obtain ⟨k, hk⟩ := passes
    refine ⟨⟨k + 1, fun n hn => ?_⟩, ?_⟩
    · obtain ⟨i, rfl⟩ : ∃ i, n = k + i + 1 := ⟨n - k - 1, by omega⟩
      have hrun : st.before.resume (k + i + 1) s.unblocked w₀ = _ := hk i
      rw [hrun, own, trace_after, Trace.calls_append, ownCalls_append]
      exact List.prefix_append _ _
    · rintro ⟨last, hlast, ended⟩
      simp [waits last hlast] at ended
  | @ended st' rounds y submitted names' absent ends own =>
    obtain rfl := eq_number_of_names once hst submitted names names'
    have hparting : ownCalls (y.value.2.parting y.value.1) = [] := by
      rcases y.value.1 with _ | _ | _ | _ <;> simp [Command.parting, ownCalls]
      cases y.value.2.held <;> simp [Call.own?]
    have heq : ∀ n ≥ rounds, ownCallsOf st.number h =
        ownCalls (st.before.resume n s.unblocked w₀).trace.calls := fun n hn => by
      rw [own, ends.ends n hn, Ran.allCalls, ownCalls_append, hparting, List.append_nil]
    exact ⟨⟨rounds, fun n hn => heq n hn ▸ List.prefix_refl _⟩, fun _ => ⟨rounds, heq⟩⟩

/-- Commands do not disturb each other, whatever the order of requests, the
refusals, and the failures of other commands, if engines answer by the calls
made on them and do not look at the capacity of a buffer. The own calls of a
command about a connection that no other request names are a prefix of those
that it makes when it is attempted once, alone, with channels that never
refuse. Once it completed or failed, they are the same. -/
theorem commands_do_not_disturb_each_other (s : Surroundings σ) (view : Connection → σ → ε)
    (engines : s.Local view) (blind : s.CapacityBlind) (substantial : s.Substantial)
    (reliable : s.Reliable) (rounds : Nat) (policy : Policy) (requests : List Backlog.Request)
    (distinct : (requests.filterMap Backlog.Request.connection?).Nodup) (w : σ) :
    let attempts := (({ policy } : Docket).performAll rounds requests s w).value.1.flatten
    (({ policy } : Backlog).performAll rounds requests s w).trace.calls =
        (traceOf attempts).calls ∧
      (attempts.filter Stint.fresh).map Stint.before =
        requests.filterMap (Backlog.Request.command? policy) ∧
      ∀ st ∈ attempts, st.fresh = true → st.before.connection?.isSome = true →
        let alone := fun n => ownCalls (st.before.attempt n s.unblocked w).trace.calls
        (∃ least, ∀ n ≥ least, ownCallsOf st.number attempts <+: alone n) ∧
          ((∃ last ∈ ofNumber st.number attempts, last.progress.waits = false) →
            ∃ least, ∀ n ≥ least, ownCallsOf st.number attempts = alone n) := by
  obtain ⟨erase, hist⟩ := Docket.performAll_history rounds { policy } requests s w
  refine ⟨?_, Docket.performAll_fresh rounds { policy } requests s w, ?_⟩
  · have hrun : ({ policy } : Backlog).performAll rounds requests s w = _ := erase
    rw [hrun]
    exact Docket.performAll_calls rounds { policy } requests s w
  · intro st hst fresh about
    obtain ⟨c, hc⟩ := Option.isSome_iff_exists.1 about
    have once := names_once rounds { policy } requests s w distinct c
    have standing := hist.standing engines blind substantial reliable c (by simpa using once)
    exact standing.own_calls (by simpa using once) (by simpa using hst) ⟨fresh, hc⟩

theorem workbench_reliable : workbench.impatient.Reliable := by
  intro channel datagram destination w
  simp only [Surroundings.impatient]
  split
  · exact ⟨0, rfl⟩
  · exact ⟨_, rfl⟩

/-- Each engine on the workbench has its own datagrams left. -/
theorem workbench_engines : workbench.Local fun c w => w.left c where
  produce h _ := by
    simp only [workbench, Function.update_self, h, and_self]
  peerAddress _ := rfl
  fireTimer h := ⟨rfl, h⟩
  isClosing h := ⟨rfl, h⟩
  finaliseClose h := ⟨rfl, h⟩
  dispose h := h
  other {c call w w'} takes elsewhere := by
    cases call with
    | produce x b appended answer =>
      have hx : c ≠ x := fun h => elsewhere (by rw [h]; rfl)
      have h : workbench.produce x b w = ((appended, answer), w') := takes
      cases h
      exact Function.update_of_ne hx ..
    | peerAddress => rw [takes.2]
    | release | dispose => rw [← show _ = w' from takes]; rfl
    | _ =>
      obtain rfl : _ = w' := congrArg Prod.snd takes
      rfl

theorem workbench_local : workbench.impatient.Local fun c w => w.1.left c :=
  (impatient_reluctant workbench).engines workbench_engines

/-- The attempts at the chores on the workbench. -/
def Bench.choreAttempts : List Stint :=
  (({} : Docket).performAll 4 chores workbench.impatient busy).value.1.flatten

/-- Of the chores on the workbench, the flush is refused and taken up again, and
the timer is attempted in between. Each does what it would do alone. -/
theorem commands_do_not_disturb_each_other_on_the_workbench :
    let own := fun n => ownCallsOf n Bench.choreAttempts
    workbench.impatient.Local (fun c w => w.1.left c) ∧ workbench.impatient.CapacityBlind ∧
      workbench.impatient.Substantial ∧ workbench.impatient.Reliable ∧
      (Bench.chores.filterMap Backlog.Request.connection?).Nodup ∧
      own 2 = [Bench.polled "left" 0 [1], Bench.sent "left" [1], Bench.polled "left" 0 [2],
        Bench.sent "left" [2], Bench.polled "left" 0 []] ∧
      own 3 = [.fireTimer ⟨"right"⟩ (.ok ()), Bench.polled "right" 0 [1], Bench.sent "right" [1],
        Bench.polled "right" 0 [2], Bench.sent "right" [2], Bench.polled "right" 0 [],
        .dispose ⟨"right"⟩] ∧
      ∀ st ∈ Bench.choreAttempts, st.fresh = true → st.before.connection?.isSome = true →
        let alone := fun n =>
          ownCalls (st.before.attempt n workbench.impatient.unblocked Bench.busy).trace.calls
        (∃ least, ∀ n ≥ least, own st.number <+: alone n) ∧
          ∃ least, ∀ n ≥ least, own st.number = alone n := by
  intro own
  have blind := impatient_blind workbench_blind
  have substantial := impatient_substantial workbench_substantial
  have distinct : (Bench.chores.filterMap Backlog.Request.connection?).Nodup := by decide
  have ended : ∀ st ∈ Bench.choreAttempts,
      ∃ last ∈ ofNumber st.number Bench.choreAttempts, last.progress.waits = false := by
    decide
  refine ⟨workbench_local, blind, substantial, workbench_reliable, distinct, rfl, rfl, ?_⟩
  intro st hst fresh about
  obtain ⟨begins, same⟩ := (commands_do_not_disturb_each_other workbench.impatient _
    workbench_local blind substantial workbench_reliable 4 .standard Bench.chores distinct
    Bench.busy).2.2 st hst fresh about
  exact ⟨begins, same (ended st hst)⟩

/-! ## Engines that look at the capacity -/

/-- Only the polls are others than on the workbench. -/
theorem takes_of_brimming {c : Call} {w w' : Bench} (takes : brimming.Takes w c w') :
    workbench.Takes w c w' ∨ ∃ x b appended answer, c = .produce x b appended answer := by
  cases c with
  | produce => exact Or.inr ⟨_, _, _, _, rfl⟩
  | _ => exact Or.inl takes

theorem brimming_engines : brimming.Local fun c w => w.left c where
  produce h _ := by
    simp only [brimming, Function.update_self, h, and_self]
  peerAddress := workbench_engines.peerAddress
  fireTimer := workbench_engines.fireTimer
  isClosing := workbench_engines.isClosing
  finaliseClose := workbench_engines.finaliseClose
  dispose := workbench_engines.dispose
  other {c call w w'} takes elsewhere := by
    rcases takes_of_brimming takes with same | ⟨x, b, appended, answer, rfl⟩
    · exact workbench_engines.other same elsewhere
    · have hx : c ≠ x := fun h => elsewhere (by rw [h]; rfl)
      have h : brimming.produce x b w = ((appended, answer), w') := takes
      cases h
      exact Function.update_of_ne hx ..

theorem brimming_reliable : brimming.Reliable := fun _ datagram _ _ =>
  ⟨max 1 datagram.length, rfl⟩

namespace Bench

def neighbour : Command :=
  .flush { purpose := .send, connection := ⟨"left"⟩, channel := ⟨"out"⟩, policy := tight }

/-- The attempts at the neighbours, where no channel refuses. -/
def neighbourAttempts : List Stint :=
  (({ policy := tight } : Docket).performAll 4 neighbours brimming stocked).value.1.flatten

end Bench

/-- Commands do disturb each other where engines look at the capacity of a buffer,
and all else is as above. The flush is handed the buffer that the write gave
back, so its engine puts two bytes into one datagram. Alone it makes two. -/
theorem commands_disturb_each_other_where_engines_fill_buffers :
    let polled := Bench.polled "left" 0
    let sent := Bench.sent "left"
    let alone := fun n =>
      ownCalls (Bench.neighbour.attempt n brimming.unblocked Bench.stocked).trace.calls
    brimming.Local (fun c w => w.left c) ∧ brimming.Substantial ∧ brimming.Reliable ∧
      (Bench.neighbours.filterMap Backlog.Request.connection?).Nodup ∧
      ∃ st ∈ Bench.neighbourAttempts, st.fresh = true ∧ st.before = Bench.neighbour ∧
        st.progress = .completed ∧
        ownCallsOf st.number Bench.neighbourAttempts =
          [polled [1, 2], sent [1, 2], polled []] ∧
        (∀ n, alone (n + 3) = [polled [1], sent [1], polled [2], sent [2], polled []]) ∧
        ¬ ∃ least, ∀ n ≥ least, ownCallsOf st.number Bench.neighbourAttempts <+: alone n := by
  intro polled sent alone
  have own : ownCallsOf 2 Bench.neighbourAttempts = [polled [1, 2], sent [1, 2], polled []] := rfl
  have settled : ∀ n, alone (n + 3) =
      [polled [1], sent [1], polled [2], sent [2], polled []] := fun _ => rfl
  refine ⟨brimming_engines, brimming_substantial, brimming_reliable, by decide, ?_⟩
  refine ⟨Bench.neighbourAttempts[1], List.getElem_mem _, rfl, rfl, rfl, own, settled, ?_⟩
  rintro ⟨least, starts⟩
  have starts : ownCallsOf 2 Bench.neighbourAttempts <+: alone (least + 3) :=
    starts (least + 3) (Nat.le_add_right _ _)
  rw [own, settled] at starts
  revert starts
  decide

end Outbox
