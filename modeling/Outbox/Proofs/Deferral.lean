-- Deferring changes nothing on the wire. Submissions are made once to channels
-- that take everything, and once to channels that refuse everything and are
-- then drained. If each command has an engine to itself, then a command that
-- is put off owes what it would have delivered right away, and drains pay the
-- debts one after the other, in the order of the submissions. Only a pooled
-- buffer may come with another capacity then, so engines must not look at that.
import Outbox.Proofs.Backpressure
import Outbox.Proofs.Isolation
import Outbox.Proofs.PoolBlindness

namespace Outbox

variable {σ σ₁ ε : Type}

/-! ## Deliveries -/

structure Delivery where
  channel : Channel
  destination : Address
  datagram : Bytes
  deriving DecidableEq

def Call.delivery? : Call → Option Delivery
  | .send channel datagram destination (.ok (_ + 1)) => some ⟨channel, destination, datagram⟩
  | _ => none

/-- What reaches the wire, over all channels. -/
def deliveries (calls : List Call) : List Delivery := calls.filterMap Call.delivery?

@[simp] theorem deliveries_nil : deliveries [] = [] := rfl

@[simp] theorem deliveries_append (l m : List Call) :
    deliveries (l ++ m) = deliveries l ++ deliveries m := List.filterMap_append

theorem deliveries_of_blocked {s : Surroundings σ} {allowed : Call → Prop} {w w' : σ}
    {calls : List Call} (course : Course s.blocked allowed w calls w') : deliveries calls = [] := by
  induction course with
  | nil => rfl
  | @cons w w₁ w₂ c calls lawful takes rest ih =>
    have none : c.delivery? = none := by
      cases c with
      | send channel datagram destination answer =>
        have refused : answer = .ok 0 := (congrArg Prod.fst takes).symm
        rw [refused]
        rfl
      | _ => rfl
    rw [deliveries, List.filterMap_cons, none]
    exact ih

/-! ## A command and its engine -/

theorem Surroundings.accepts {s : Surroundings σ} (patient : s.Patient) (reliable : s.Reliable)
    (channel : Channel) (datagram : Bytes) (destination : Address) (w : σ) :
    ∃ n, (s.send channel datagram destination w).1 = .ok (n + 1) := by
  obtain ⟨n, hn⟩ := reliable channel datagram destination w
  have some : n ≠ 0 := fun none => patient channel datagram destination w (none ▸ hn)
  exact ⟨n - 1, by rw [hn, Nat.sub_add_cancel (Nat.pos_of_ne_zero some)]⟩

/-- What holds of the connection in question holds of each such connection. -/
theorem forall_about {connection : Option Connection} {c : Connection} {P : Connection → Prop}
    (hc : connection = some c) (h : P c) : ∀ x, connection = some x → P x := by
  intro x hx
  obtain rfl := Option.some.inj (hc.symm.trans hx)
  exact h

section Debts

variable {s : Surroundings σ} {view : Connection → σ → ε} {near : Surroundings σ₁} {base : σ₁ → σ}
  {least rounds : Nat}

/-- A command near, with the engine of its connection, as it is far. The far
channels accept everything. -/
def Surroundings.Reluctant.mirror (reluctant : near.Reluctant s base) (engines : s.Local view)
    (blind : s.CapacityBlind) (substantial : s.Substantial) (patient : s.Patient)
    (reliable : s.Reliable) (connection : Option Connection) : Mirror σ₁ σ Delivery where
  near := near
  far := s
  about x := connection = some x
  tell := Call.delivery?
  alike := Buffer.Alike
  related w v := ∀ x, connection = some x → view x (base w) = view x v
  contents h := h
  append h bytes := h.append bytes
  clear {a b} _ := Buffer.alike_clear a b
  acquire {w v} h least direct := by
    refine ⟨rfl, fun x hx => ?_, rfl⟩
    have kept := (reluctant.engines engines).view_acquire x least direct w
    exact (kept.trans (h x hx)).trans (engines.view_acquire x least direct v).symm
  release {w v a b} h _ := by
    refine ⟨fun x hx => ?_, rfl⟩
    have kept := (reluctant.engines engines).view_release x a w
    exact (kept.trans (h x hx)).trans (engines.view_release x b v).symm
  produce {w v a b} h ab c hc := by
    have alike := engines.produce (h c hc) a
    rw [← reluctant.produce, blind c v ab] at alike
    exact ⟨alike.1, forall_about hc alike.2⟩
  peerAddress {w v} h c hc := (reluctant.peerAddress c w).trans (engines.peerAddress (h c hc))
  fireTimer {w v} h c hc := by
    have alike := engines.fireTimer (h c hc)
    rw [← reluctant.fireTimer] at alike
    exact ⟨alike.1, forall_about hc alike.2⟩
  isClosing {w v} h c hc := by
    have alike := engines.isClosing (h c hc)
    rw [← reluctant.isClosing] at alike
    exact ⟨alike.1, forall_about hc alike.2⟩
  finaliseClose {w v} h c hc := by
    have alike := engines.finaliseClose (h c hc)
    rw [← reluctant.finaliseClose] at alike
    exact ⟨alike.1, forall_about hc alike.2⟩
  dispose {w v} h c hc := by
    have alike := engines.dispose (h c hc)
    rw [← reluctant.dispose] at alike
    exact forall_about hc alike
  send {w v} h channel datagram destination := by
    have kept := fun x hx =>
      ((reluctant.engines engines).view_send x channel datagram destination w).trans (h x hx)
    rcases reluctant.send channel datagram destination w with refused | same
    · exact Or.inl ⟨congrArg Prod.fst refused, kept⟩
    · obtain ⟨n, near⟩ := s.accepts patient reliable channel datagram destination (base w)
      obtain ⟨m, far⟩ := s.accepts patient reliable channel datagram destination v
      rw [← same] at near
      refine Or.inr ⟨Or.inl ⟨n, m, near, far, ?_⟩, fun x hx => ?_⟩
      · rw [far, show (Surroundings.send _ channel datagram destination w).1 = _ from near]
        rfl
      · exact (kept x hx).trans (engines.view_send x channel datagram destination v).symm
  toldPoll _ _ _ _ := rfl
  untoldPeer _ _ := rfl
  untoldRefusal _ _ _ := rfl
  substantial := substantial

/-- What a command that waits still owes: attempted where channels accept
everything, with its engine as it is now, it would deliver this. -/
def Owed (s : Surroundings σ) (view : Connection → σ → ε) (least : Nat) (now : Connection → ε)
    (c : Command) (due : List Delivery) : Prop :=
  ∃ q v y, c.Alike q ∧ (∀ x, c.connection? = some x → now x = view x v) ∧ q.Ends s least v y ∧
    due = deliveries y.allCalls

/-- What is done to other engines does not change what is owed. -/
theorem Owed.elsewhere {now now' : Connection → ε} {c : Command} {due : List Delivery}
    (same : ∀ x, c.connection? = some x → now' x = now x) (owed : Owed s view least now c due) :
    Owed s view least now' c due := by
  obtain ⟨q, v, y, alike, seen, ends, rfl⟩ := owed
  exact ⟨q, v, y, alike, fun x hx => (same x hx).trans (seen x hx), ends, rfl⟩

theorem Command.Alike.refl (c : Command) : c.Alike c := by
  have rel : ∀ held : Option Buffer, Option.Rel Buffer.Alike held held := fun held => by
    cases held with
    | none => exact .none
    | some b => exact .some rfl
  cases c with
  | write d => exact .write ⟨d.held, rel _, rfl⟩
  | flush f => exact .flush ⟨f.held, rel _, rfl⟩
  | timer t => exact .timer ⟨t.flush, ⟨t.flush.held, rel _, rfl⟩, rfl⟩

/-- Commands that wait, each about a connection of its own, and what they owe
together. -/
inductive Owing (s : Surroundings σ) (view : Connection → σ → ε) (least : Nat)
    (now : Connection → ε) : List Command → List Delivery → Prop where
  | nil : Owing s view least now [] []
  | cons {c : Command} {behind : List Command} {due due' : List Delivery}
      (first : Owed s view least now c due)
      (alone : ∀ x, c.connection? = some x → ∀ c' ∈ behind, c'.connection? ≠ some x)
      (later : Owing s view least now behind due') :
      Owing s view least now (c :: behind) (due ++ due')

namespace Owing

variable {now now' : Connection → ε} {waiting : List Command} {c : Command}
  {due due' : List Delivery}

/-- What is done to other engines does not change what is owed. -/
theorem elsewhere (same : ∀ c ∈ waiting, ∀ x, c.connection? = some x → now' x = now x)
    (owing : Owing s view least now waiting due) : Owing s view least now' waiting due := by
  induction owing with
  | nil => exact .nil
  | cons first alone later ih =>
    have later' := ih fun c hc => same c (List.mem_cons_of_mem _ hc)
    exact .cons (first.elsewhere (same _ List.mem_cons_self)) alone later'

/-- A command that joins at the back pays last. -/
theorem concat (owing : Owing s view least now waiting due) (last : Owed s view least now c due')
    (alone : ∀ x, c.connection? = some x → ∀ c' ∈ waiting, c'.connection? ≠ some x) :
    Owing s view least now (waiting ++ [c]) (due ++ due') := by
  induction owing with
  | nil =>
    have single := Owing.cons last (by simp) .nil
    rwa [List.append_nil] at single
  | @cons c₁ behind due₁ due₂ first alone₁ later ih =>
    rw [List.cons_append, List.append_assoc]
    refine .cons first ?_ (ih fun x hx c' mem => alone x hx c' (List.mem_cons_of_mem _ mem))
    intro x hx c' mem
    rcases List.mem_append.1 mem with mem | mem
    · exact alone₁ x hx c' mem
    · rw [List.mem_singleton.1 mem]
      exact fun hc => alone x hc c₁ List.mem_cons_self hx

end Owing

variable (reluctant : near.Reluctant s base) (engines : s.Local view) (blind : s.CapacityBlind)
  (substantial : s.Substantial) (patient : s.Patient) (reliable : s.Reliable)

theorem mirror_alike_iff {connection : Option Connection} {c q : Command} :
    (reluctant.mirror engines blind substantial patient reliable connection).AlikeCommand c q ↔
      c.Alike q := by
  constructor
  · intro h
    cases h with
    | write alike => exact .write alike
    | flush alike => exact .flush alike
    | timer alike => exact .timer alike
  · intro h
    cases h with
    | write alike => exact .write alike
    | flush alike => exact .flush alike
    | timer alike => exact .timer alike

/-- An attempt does not reach the engine of another connection. -/
theorem serve_frame (reluctant : near.Reluctant s base) (engines : s.Local view) (rounds : Nat)
    {c : Command} (w : σ₁) {x : Connection} (other : c.connection? ≠ some x) :
    view x (base (c.serve rounds near w).world) = view x (base w) :=
  (reluctant.engines engines).frame (Command.serve_course rounds c near w).1 other

include reluctant engines blind substantial patient reliable

/-- An attempt at a command is refused, and then the command owes what the
attempt did not deliver, or it ends with nothing owed. -/
theorem Owed.serve (pos : 0 < least) (le : least ≤ rounds) {c : Command} {w : σ₁}
    {due : List Delivery} (owed : Owed s view least (fun x => view x (base w)) c due) :
    let x := c.serve rounds near w
    (x.value.1 = .refused ∧ ∃ due',
      Owed s view least (fun z => view z (base x.world)) x.value.2 due' ∧
        due = deliveries x.trace.calls ++ due') ∨
      (x.value.1.waits = false ∧ due = deliveries x.trace.calls) := by
  obtain ⟨q, v, y, alike, seen, ends, rfl⟩ := owed
  have same : (c.serve rounds near w).value.2.connection? = c.connection? :=
    (Command.serve_course rounds c near w).2
  rcases Command.serve_toward
      (reluctant.mirror engines blind substantial patient reliable c.connection?) pos le
      ((mirror_alike_iff ..).2 alike) seen (fun x hx => hx) ends with
    ⟨refused, u, q', v', y', rfl, alike', ends', seen', told⟩ | ⟨settled, -, -, told⟩
  · refine Or.inl ⟨refused, deliveries y'.allCalls, ?_, ?_⟩
    · exact ⟨q', v', y', (mirror_alike_iff ..).1 alike', same ▸ seen', ends', rfl⟩
    · rw [show deliveries (c.serve rounds near w).trace.calls = deliveries u.calls from told]
      simp [Ran.allCalls, Ran.after]
  · exact Or.inr ⟨settled, told.symm⟩

/-- Attempts pay what the commands that wait owe. -/
theorem Owing.ledger (pos : 0 < least) (le : least ≤ rounds) :
    Ledger near rounds Call.delivery? (fun _ => (none : Option Failure))
      fun waiting w due failures =>
        Owing s view least (fun x => view x (base w)) waiting due ∧ failures = [] where
  nothing := by
    rintro w due failures ⟨owing, rfl⟩
    cases owing
    exact ⟨rfl, rfl⟩
  attempt := by
    rintro c behind w due failures ⟨owing, rfl⟩
    cases owing with
    | @cons _ _ due due₂ first alone later =>
      have later : Owing s view least (fun x => view x (base (c.serve rounds near w).world))
          behind due₂ := later.elsewhere fun c' mem x hx =>
        serve_frame reluctant engines rounds w fun hc => alone x hc c' mem hx
      rcases first.serve reluctant engines blind substantial patient reliable pos le with
        ⟨refused, due', still, rfl⟩ | ⟨settled, rfl⟩
      · have same : (c.serve rounds near w).value.2.connection? = c.connection? :=
          (Command.serve_course rounds c near w).2
        refine Or.inl ⟨refused, due' ++ due₂, ⟨.cons still (same ▸ alone) later, rfl⟩, ?_⟩
        rw [List.append_assoc]
        rfl
      · exact Or.inr ⟨settled, due₂, [], ⟨later, rfl⟩, rfl, rfl⟩
  completed := rfl
  refused := rfl

end Debts

/-! ## Submissions -/

section Submissions

variable {s : Surroundings σ} {view : Connection → σ → ε} {least rounds : Nat}
  {r : Backlog.Request} {rest : List Backlog.Request} {b : Backlog} {c : Command} {w final : σ}
  {calls : List Call} {failures : List Failure}

def Backlog.joined (b : Backlog) (x : Ran σ (Progress × Command)) : Backlog :=
  if x.value.1.waits then { b with waiting := b.waiting ++ [x.value.2] } else b

@[simp] theorem joined_policy (b : Backlog) (x : Ran σ (Progress × Command)) :
    (b.joined x).policy = b.policy := by
  unfold Backlog.joined
  split <;> rfl

theorem joined_settled {x : Ran σ (Progress × Command)} (settled : x.value.1.waits = false) :
    b.joined x = b := if_neg (settled ▸ Bool.false_ne_true)

theorem mem_joined {x : Ran σ (Progress × Command)} {c' : Command}
    (mem : c' ∈ (b.joined x).waiting) : c' ∈ b.waiting ∨ c' = x.value.2 := by
  unfold Backlog.joined at mem
  split at mem
  · simpa using mem
  · exact Or.inl mem

theorem length_joined (b : Backlog) (x : Ran σ (Progress × Command)) :
    (b.joined x).waiting.length ≤ b.waiting.length + 1 := by
  unfold Backlog.joined
  split <;> simp

/-- A submission attempts its command, and the others are made after it. -/
theorem performAll_submission (rounds : Nat) (made : r.command? b.policy = some c)
    (rest : List Backlog.Request) (s : Surroundings σ) (w : σ) :
    let x := c.serve rounds s w
    let later := (b.joined x).performAll rounds rest s x.world
    let ran := b.performAll rounds (r :: rest) s w
    ran.value.2 = later.value.2 ∧ ran.trace.calls = x.trace.calls ++ later.trace.calls ∧
      ran.world = later.world := by
  simp [Backlog.performAll, Backlog.perform_submission rounds b made, Backlog.submit_eq,
    Backlog.joined, announce_calls]

/-- A submission whose command comes to its end leaves the backlog as it is. -/
theorem performAll_ended (made : r.command? b.policy = some c)
    {y : Ran σ (Progress × Command)} (ends : c.Ends s least w y) (le : least ≤ rounds)
    (rest : List Backlog.Request) :
    let later := b.performAll rounds rest s (y.left s)
    let ran := b.performAll rounds (r :: rest) s w
    ran.value.2 = later.value.2 ∧ ran.trace.calls = y.allCalls ++ later.trace.calls := by
  obtain ⟨hvalue, hcalls, hworld⟩ := serve_ends ends le
  have settled : (c.serve rounds s w).value.1.waits = false := by
    rw [hvalue]
    exact ends.settled
  obtain ⟨same, calls, -⟩ := performAll_submission rounds made rest s w
  rw [joined_settled settled, hworld] at same calls
  rw [hcalls] at calls
  exact ⟨same, calls⟩

theorem exists_command (policy : Policy) (submits : r ≠ .drain) :
    ∃ c, r.command? policy = some c :=
  Option.ne_none_iff_exists'.1 fun none => submits (Backlog.command?_eq_none none)

/-- Where no channel refuses, submissions do what it takes to be done with
their commands, and none waits afterwards that did not wait before. -/
theorem performAll_spent (le : least ≤ rounds) {requests : List Backlog.Request}
    (submits : .drain ∉ requests)
    (spent : Spent s least (requests.filterMap (Backlog.Request.command? b.policy)) w calls failures
      final) :
    let ran := b.performAll rounds requests s w
    ran.trace.calls = calls ∧ ran.value.2 = b := by
  induction requests generalizing w calls failures with
  | nil =>
    cases spent
    exact ⟨rfl, rfl⟩
  | cons r rest ih =>
    rw [List.mem_cons, not_or] at submits
    obtain ⟨c, made⟩ := exists_command b.policy (Ne.symm submits.1)
    rw [List.filterMap_cons_some made] at spent
    cases spent with
    | @cons _ _ _ _ y calls failures ends spent =>
      obtain ⟨first, begins⟩ := performAll_ended made ends le rest
      obtain ⟨later, same⟩ := ih submits.2 spent
      exact ⟨by rw [begins, later], first.trans same⟩

/-- If each engine produces something only finitely often, submissions are
done with in the end. -/
theorem exists_performAll_spent (patient : s.Patient) {requests : List Backlog.Request}
    (submits : .drain ∉ requests) (w : σ)
    (exhausted : ∀ x, ∃ most least, ∀ rounds ≥ least,
      fruitful x (b.performAll rounds requests s w).trace.calls ≤ most) :
    ∃ least calls failures final, 0 < least ∧
      Spent s least (requests.filterMap (Backlog.Request.command? b.policy)) w calls failures
        final := by
  induction requests generalizing w with
  | nil => exact ⟨1, [], [], w, Nat.one_pos, .nil w⟩
  | cons r rest ih =>
    rw [List.mem_cons, not_or] at submits
    obtain ⟨c, made⟩ := exists_command b.policy (Ne.symm submits.1)
    rw [List.filterMap_cons_some made]
    have begins : ∀ rounds, (c.serve rounds s w).trace.calls <+:
        (b.performAll rounds (r :: rest) s w).trace.calls := fun rounds => by
      rw [(performAll_submission rounds made rest s w).2.1]
      exact List.prefix_append _ _
    obtain ⟨least, y, pos, ends⟩ := exists_ends_of_begins patient begins exhausted
    obtain ⟨least', calls, failures, final, -, spent⟩ := ih submits.2 (y.left s) fun x => by
      obtain ⟨most, least₂, hmost⟩ := exhausted x
      refine ⟨most, max least least₂, fun rounds hr => ?_⟩
      have hmost := hmost rounds (by omega)
      rw [(performAll_ended made ends (show least ≤ rounds by omega) rest).2,
        fruitful_append] at hmost
      omega
    obtain ⟨n, posn, spent⟩ := spent_cons pos ends spent
    exact ⟨n, _, _, final, posn, spent⟩

section Deferred

variable (engines : s.Local view) (blind : s.CapacityBlind) (substantial : s.Substantial)
  (patient : s.Patient) (reliable : s.Reliable)
include engines blind substantial patient reliable

/-- Where channels refuse everything, a submission delivers nothing. If its
command waits afterwards, it owes behind the others what it owes. -/
theorem Owing.submit (pos : 0 < least) (le : least ≤ rounds) {due due' : List Delivery}
    (owing : Owing s view least (fun x => view x w) b.waiting due)
    (owed : Owed s view least (fun x => view x w) c due')
    (alone : ∀ x, c.connection? = some x → ∀ c' ∈ b.waiting, c'.connection? ≠ some x) :
    let x := c.serve rounds s.blocked w
    Owing s view least (fun z => view z x.world) (b.joined x).waiting (due ++ due') ∧
      deliveries x.trace.calls = [] := by
  intro x
  have blocked := blocked_reluctant s
  obtain ⟨course, same⟩ := Command.serve_course rounds c s.blocked w
  have silent : deliveries x.trace.calls = [] := deliveries_of_blocked course
  have still : Owing s view least (fun z => view z x.world) b.waiting due :=
    owing.elsewhere fun c' mem z hz =>
      serve_frame blocked engines rounds w fun hc => alone z hc c' mem hz
  refine ⟨?_, silent⟩
  rcases owed.serve blocked engines blind substantial patient reliable pos le with
    ⟨refused, due'', last, paid⟩ | ⟨settled, paid⟩
  · have waits : x.value.1.waits = true := by rw [refused]; rfl
    rw [silent, List.nil_append] at paid
    rw [Backlog.joined, if_pos waits, paid]
    exact still.concat last fun z hz => alone z (same ▸ hz)
  · rw [silent] at paid
    rw [joined_settled settled, paid, List.append_nil]
    exact still

/-- Where channels refuse everything, submissions deliver nothing. Afterwards
their commands wait, and owe what it takes to be done with them. -/
theorem performAll_deferred (pos : 0 < least) (le : least ≤ rounds)
    {requests : List Backlog.Request} (submits : .drain ∉ requests)
    (distinct : (requests.filterMap Backlog.Request.connection?).Nodup) {w v : σ}
    {due : List Delivery} (owing : Owing s view least (fun x => view x w) b.waiting due)
    (ahead : ∀ r ∈ requests, ∀ x, r.connection? = some x →
      view x w = view x v ∧ ∀ c ∈ b.waiting, c.connection? ≠ some x)
    (spent : Spent s least (requests.filterMap (Backlog.Request.command? b.policy)) v calls failures
      final) :
    let ran := b.performAll rounds requests s.blocked w
    Owing s view least (fun x => view x ran.world) ran.value.2.waiting (due ++ deliveries calls) ∧
      deliveries ran.trace.calls = [] := by
  induction requests generalizing b w v calls failures due with
  | nil =>
    cases spent
    rw [deliveries_nil, List.append_nil]
    exact ⟨owing, rfl⟩
  | cons r rest ih =>
    rw [List.mem_cons, not_or] at submits
    obtain ⟨c, made⟩ := exists_command b.policy (Ne.symm submits.1)
    rw [List.filterMap_cons_some made] at spent
    have about := Backlog.connection_of_command made
    have first := ahead r List.mem_cons_self
    -- the connection is named only once, so no later command is about it
    have elsewhere : ∀ r' ∈ rest, ∀ x, r'.connection? = some x → c.connection? ≠ some x := by
      intro r' mem x names hc
      rw [about] at hc
      rw [List.filterMap_cons_some hc] at distinct
      exact (List.nodup_cons.1 distinct).1 (List.mem_filterMap.2 ⟨r', mem, names⟩)
    cases spent with
    | @cons _ _ _ _ y calls failures ends spent =>
      have owed : Owed s view least (fun x => view x w) c (deliveries y.allCalls) :=
        ⟨c, v, y, Command.Alike.refl c, fun x hx => (first x (about ▸ hx)).1, ends, rfl⟩
      obtain ⟨joined, silent⟩ := owing.submit engines blind substantial patient reliable pos le owed
        fun x hx => (first x (about ▸ hx)).2
      obtain ⟨hvalue, hcalls, hworld⟩ := performAll_submission (b := b) rounds made rest s.blocked w
      have same := (Command.serve_course rounds c s.blocked w).2
      -- neither attempt, refused or not, has reached the engines of the later commands
      have ahead' : ∀ r' ∈ rest, ∀ x, r'.connection? = some x →
          view x (c.serve rounds s.blocked w).world = view x (y.left s) ∧
            ∀ c' ∈ (b.joined (c.serve rounds s.blocked w)).waiting, c'.connection? ≠ some x := by
        intro r' mem x names
        have other := elsewhere r' mem x names
        obtain ⟨seen, absent⟩ := ahead r' (List.mem_cons_of_mem _ mem) x names
        have near := serve_frame (blocked_reluctant s) engines rounds w other
        have far := engines.frame (Command.serve_course rounds c s v).1 other
        rw [(serve_ends ends le).2.2] at far
        refine ⟨(near.trans seen).trans far.symm, fun c' mem' => ?_⟩
        rcases mem_joined mem' with mem' | rfl
        · exact absent c' mem'
        · exact same ▸ other
      rw [← joined_policy b (c.serve rounds s.blocked w)] at spent
      have distinct' := distinct.sublist ((List.sublist_cons_self r rest).filterMap _)
      obtain ⟨later, quiet⟩ := ih submits.2 distinct' joined ahead' spent
      rw [List.append_assoc] at later
      intro ran
      simp only [ran, hvalue, hcalls, hworld, deliveries_append, silent, quiet, List.append_nil]
      exact ⟨later, trivial⟩

end Deferred

theorem performAll_length (rounds : Nat) (b : Backlog) {requests : List Backlog.Request}
    (submits : .drain ∉ requests) (s : Surroundings σ) (w : σ) :
    (b.performAll rounds requests s w).value.2.waiting.length ≤
      b.waiting.length + requests.length := by
  induction requests generalizing b w with
  | nil => exact Nat.le_refl _
  | cons r rest ih =>
    rw [List.mem_cons, not_or] at submits
    obtain ⟨c, made⟩ := exists_command b.policy (Ne.symm submits.1)
    rw [(performAll_submission rounds made rest s w).1, List.length_cons]
    have later := ih (b.joined (c.serve rounds s w)) submits.2 (c.serve rounds s w).world
    have joined := length_joined b (c.serve rounds s w)
    omega

end Submissions

/-! ## The law -/

/-- Deferring changes nothing on the wire. Take any submissions of which no two
name the same connection, engines that answer by the calls made on them, do not
look at the capacity of a buffer and each produce something only finitely
often, and channels that neither refuse nor fail. The submissions are made on
an empty backlog, once to these channels, and once to channels that refuse
every send. The second time, drains follow, with any refusals put in. If rounds
and drains suffice, both times no command waits in the end, and what the
channels accepted is the same, in the same order. -/
theorem deferring_does_not_change_the_wire (s : Surroundings σ) (view : Connection → σ → ε)
    (engines : s.Local view) (blind : s.CapacityBlind) (substantial : s.Substantial)
    (patient : s.Patient) (reliable : s.Reliable) (policy : Policy)
    (submissions : List Backlog.Request) (submits : .drain ∉ submissions)
    (distinct : (submissions.filterMap Backlog.Request.connection?).Nodup) (w : σ)
    (exhausted : ∀ x, ∃ most, ∀ rounds,
      fruitful x (({ policy } : Backlog).performAll rounds submissions s w).trace.calls ≤ most)
    (refused : List Bool) :
    ∃ least enough, ∀ rounds ≥ least, ∀ drains ≥ enough,
      let first := ({ policy } : Backlog).performAll rounds submissions s w
      let deferred := ({ policy } : Backlog).performAll rounds submissions s.blocked w
      let second := deferred.value.2.drainOut rounds drains s.impatient (deferred.world, refused)
      first.value.2.waiting = [] ∧
        (second.value.1.getLast? = some .completed ∧ second.value.2.waiting = []) ∧
        deliveries first.trace.calls =
          deliveries (deferred.trace.calls ++ second.trace.calls) := by
  obtain ⟨least, calls, failures, final, pos, spent⟩ :=
    exists_performAll_spent (b := { policy }) patient submits w fun x => by
      obtain ⟨most, hmost⟩ := exhausted x
      exact ⟨most, 0, fun rounds _ => hmost rounds⟩
  refine ⟨least, submissions.length + refused.length + 1, fun rounds le drains hd => ?_⟩
  intro first deferred second
  obtain ⟨hfirst, unchanged⟩ := performAll_spent le submits spent
  obtain ⟨owing, quiet⟩ := performAll_deferred engines blind substantial patient reliable pos le
    submits distinct .nil (fun _ _ _ _ => ⟨rfl, by simp⟩) spent
  have few : deferred.value.2.waiting.length ≤ 0 + submissions.length :=
    performAll_length rounds { policy } submits s.blocked w
  have enough : deferred.value.2.waiting.length + refused.length < drains := by omega
  have ledger := Owing.ledger (impatient_reluctant s) engines blind substantial patient reliable
    pos le
  obtain ⟨paid, -, -, emptied, last⟩ := ledger.drainOut (impatient_rations patient)
    (w := (deferred.world, refused)) ⟨owing, rfl⟩ enough
  refine ⟨congrArg Backlog.waiting unchanged, ⟨last, emptied⟩, ?_⟩
  have quiet : deliveries deferred.trace.calls = [] := quiet
  have hfirst : first.trace.calls = calls := hfirst
  rw [deliveries_append, quiet, List.nil_append, hfirst]
  exact paid.symm

def Bench.orders : List Backlog.Request := chores.take 3

/-- A write, a flush and a timer on the workbench are put off. Of the drains'
sends the first and the third are refused. -/
theorem deferring_does_not_change_the_wire_on_the_workbench :
    workbench.Local (fun c w => w.left c) ∧ workbench.CapacityBlind ∧ workbench.Substantial ∧
      workbench.Patient ∧ workbench.Reliable ∧ .drain ∉ Bench.orders ∧
      (Bench.orders.filterMap Backlog.Request.connection?).Nodup ∧
      (∀ x, ∃ most, ∀ rounds, fruitful x
        (({} : Backlog).performAll rounds Bench.orders workbench Bench.busy.1).trace.calls ≤ most) ∧
      ∃ least enough, ∀ rounds ≥ least, ∀ drains ≥ enough,
        let first := ({} : Backlog).performAll rounds Bench.orders workbench Bench.busy.1
        let deferred := ({} : Backlog).performAll rounds Bench.orders workbench.blocked Bench.busy.1
        let second := deferred.value.2.drainOut rounds drains workbench.impatient
          (deferred.world, [true, false, true])
        (first.value.2.waiting = [] ∧ deferred.value.1 = [.refused, .refused, .refused] ∧
            second.value.1.getLast? = some .completed ∧ second.value.2.waiting = []) ∧
          deliveries first.trace.calls =
            [⟨⟨"out"⟩, ⟨"peer"⟩, [9]⟩, ⟨⟨"out"⟩, ⟨"left"⟩, [1]⟩, ⟨⟨"out"⟩, ⟨"left"⟩, [2]⟩,
              ⟨⟨"out"⟩, ⟨"right"⟩, [1]⟩, ⟨⟨"out"⟩, ⟨"right"⟩, [2]⟩] ∧
          deliveries first.trace.calls =
            deliveries (deferred.trace.calls ++ second.trace.calls) := by
  have reliable : workbench.Reliable := fun _ datagram _ _ => ⟨max 1 datagram.length, rfl⟩
  have submits : Backlog.Request.drain ∉ Bench.orders := by decide
  have distinct : (Bench.orders.filterMap Backlog.Request.connection?).Nodup := by decide
  have exhausted : ∀ x, ∃ most, ∀ rounds, fruitful x
      (({} : Backlog).performAll rounds Bench.orders workbench Bench.busy.1).trace.calls ≤ most :=
    fun x => ⟨2, fun rounds => Nat.le_trans (Nat.le_add_left _ _)
      (workbench_course (Backlog.performAll_course rounds {} _ workbench Bench.busy.1) x)⟩
  obtain ⟨least, enough, same⟩ := deferring_does_not_change_the_wire workbench _ workbench_engines
    workbench_blind workbench_substantial workbench_patient reliable .standard Bench.orders submits
    distinct Bench.busy.1 exhausted [true, false, true]
  refine ⟨workbench_engines, workbench_blind, workbench_substantial, workbench_patient, reliable,
    submits, distinct, exhausted, max least 4, enough, fun rounds hr drains hd => ?_⟩
  obtain ⟨done, ⟨last, emptied⟩, wire⟩ := same rounds (by omega) drains hd
  have first : ({} : Backlog).performAll rounds Bench.orders workbench Bench.busy.1 =
      ({} : Backlog).performAll 4 Bench.orders workbench Bench.busy.1 :=
    Backlog.performAll_of_le (by omega) (by decide)
  have deferred : ({} : Backlog).performAll rounds Bench.orders workbench.blocked Bench.busy.1 =
      ({} : Backlog).performAll 4 Bench.orders workbench.blocked Bench.busy.1 :=
    Backlog.performAll_of_le (by omega) (by decide)
  refine ⟨⟨done, ?_, last, emptied⟩, ?_, wire⟩
  · rw [deferred]
    rfl
  · rw [first]
    rfl

/-! ## Engines that look at the capacity -/

theorem brimming_spends {c : Call} {w w' : Bench} (takes : brimming.Takes w c w')
    (x : Connection) : w'.stock x + (if c.isFruitful x then 1 else 0) ≤ w.stock x := by
  rcases takes_of_brimming takes with same | ⟨y, b, appended, answer, rfl⟩
  · exact workbench_spends same x
  · have h : brimming.produce y b w = ((appended, answer), w') := takes
    cases h
    exact Bench.stock_of_drawn b (by simp) x

theorem brimming_course {allowed : Call → Prop} {w w' : Bench} {calls : List Call}
    (course : Course brimming allowed w calls w') (x : Connection) :
    w'.stock x + fruitful x calls ≤ w.stock x := course.spends fun takes => brimming_spends takes x

namespace Bench

def prompt (rounds : Nat) : Ran Bench (List Progress × Backlog) :=
  ({ policy := tight } : Backlog).performAll rounds neighbours brimming stocked

/-- The neighbours, submitted while channels refuse everything. -/
def deferred (rounds : Nat) : Ran Bench (List Progress × Backlog) :=
  ({ policy := tight } : Backlog).performAll rounds neighbours brimming.blocked stocked

/-- The drains after that, with no refusals put in. -/
def drained (rounds drains : Nat) : Ran (Bench × List Bool) (List Progress × Backlog) :=
  (deferred rounds).value.2.drainOut rounds drains brimming.impatient ((deferred rounds).world, [])

end Bench

theorem prompt_of_le {rounds : Nat} (enough : 4 ≤ rounds) : Bench.prompt rounds = Bench.prompt 4 :=
  Backlog.performAll_of_le enough (by decide)

theorem deferred_of_le {rounds : Nat} (enough : 4 ≤ rounds) :
    Bench.deferred rounds = Bench.deferred 4 :=
  Backlog.performAll_of_le enough (by decide)

theorem drained_of_le {rounds drains : Nat} (enough : 4 ≤ rounds) (once : 1 ≤ drains) :
    Bench.drained rounds drains = Bench.drained 4 1 := by
  unfold Bench.drained
  rw [deferred_of_le enough]
  exact Backlog.drainOut_of_le enough once (by decide) (by decide)

/-- Deferring does change the wire where engines look at the capacity of a buffer,
and all else is as above. -/
theorem deferring_changes_the_wire_where_engines_fill_buffers :
    brimming.Local (fun c w => w.left c) ∧ brimming.Substantial ∧ brimming.Patient ∧
      brimming.Reliable ∧ .drain ∉ Bench.neighbours ∧
      (Bench.neighbours.filterMap Backlog.Request.connection?).Nodup ∧
      (∀ x, ∃ most, ∀ rounds, fruitful x (Bench.prompt rounds).trace.calls ≤ most) ∧
      ((Bench.prompt 4).value.1 = [.completed, .completed] ∧
        deliveries (Bench.prompt 4).trace.calls =
          [⟨⟨"out"⟩, ⟨"peer"⟩, [9]⟩, ⟨⟨"out"⟩, ⟨"left"⟩, [1, 2]⟩]) ∧
      ((Bench.drained 4 1).value.1 = [.completed] ∧
        deliveries ((Bench.deferred 4).trace.calls ++ (Bench.drained 4 1).trace.calls) =
          [⟨⟨"out"⟩, ⟨"peer"⟩, [9]⟩, ⟨⟨"out"⟩, ⟨"left"⟩, [1]⟩, ⟨⟨"out"⟩, ⟨"left"⟩, [2]⟩]) ∧
      ¬ ∃ least enough, ∀ rounds ≥ least, ∀ drains ≥ enough,
        deliveries (Bench.prompt rounds).trace.calls =
          deliveries ((Bench.deferred rounds).trace.calls ++
            (Bench.drained rounds drains).trace.calls) := by
  have submits : Backlog.Request.drain ∉ Bench.neighbours := by decide
  have distinct : (Bench.neighbours.filterMap Backlog.Request.connection?).Nodup := by decide
  have exhausted : ∀ x, ∃ most, ∀ rounds,
      fruitful x (Bench.prompt rounds).trace.calls ≤ most := fun x =>
    ⟨2, fun rounds => Nat.le_trans (Nat.le_add_left _ _)
      (brimming_course (Backlog.performAll_course rounds _ _ brimming Bench.stocked) x)⟩
  refine ⟨brimming_engines, brimming_substantial, workbench_patient, brimming_reliable, submits,
    distinct, exhausted, ⟨rfl, rfl⟩, ⟨rfl, rfl⟩, ?_⟩
  rintro ⟨least, enough, same⟩
  have same := same (max least 4) (Nat.le_max_left _ _) (max enough 1) (Nat.le_max_left _ _)
  rw [prompt_of_le (Nat.le_max_right _ _), deferred_of_le (Nat.le_max_right _ _),
    drained_of_le (Nat.le_max_right _ _) (Nat.le_max_right _ _)] at same
  revert same
  decide

end Outbox
