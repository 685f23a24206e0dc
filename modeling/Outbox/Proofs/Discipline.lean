-- The order that a flush keeps between its engine and its channel, whatever the
-- engine answers. It polls only with an empty buffer, and sends only what the
-- last poll left in it, to where the peer is at that moment. What carries this
-- from one call to the next is what the buffer tells of the calls so far: if it
-- is not empty, it holds what the last poll left, and it holds whatever a poll
-- brought that no channel has accepted yet.
import Outbox.Proofs.Retries

namespace Outbox

variable {σ : Type} {s : Surroundings σ} {rounds : Nat} {w w' w₁ w₂ : σ}

/-! ## What the calls so far have left to do -/

/-- What a poll left in the buffer. -/
def Call.left? : Call → Option Bytes
  | .produce _ b appended _ => some (b ++ appended)
  | _ => none

/-- What the last poll left in the buffer. -/
def lastLeft (calls : List Call) : Option Bytes := (calls.filterMap Call.left?).getLast?

/-- What a poll left in the buffer, if it answered a count above zero. -/
def Call.brought? : Call → Option Bytes
  | .produce _ b appended (.ok (_ + 1)) => some (b ++ appended)
  | _ => none

/-- Whether the call is a send of these bytes that the channel accepted. -/
def Call.delivers (bytes : Bytes) : Call → Bool
  | .send _ datagram _ (.ok (_ + 1)) => datagram = bytes
  | _ => false

/-- A poll brought these bytes, and no send of them was accepted since. -/
def Undelivered (bytes : Bytes) (calls : List Call) : Prop :=
  bytes ≠ [] ∧ ∃ earlier poll between, calls = earlier ++ poll :: between ∧
    poll.brought? = some bytes ∧ ∀ c ∈ between, c.delivers bytes = false

/-- Nothing is undelivered. -/
def AllDelivered (calls : List Call) : Prop := ∀ bytes, ¬ Undelivered bytes calls

/-- A call that neither fills the buffer nor empties it. -/
def Call.isQuiet : Call → Bool
  | .produce .. | .send _ _ _ (.ok (_ + 1)) => false
  | _ => true

variable {h : List Call} {c : Call} {bytes held : Bytes}

theorem lastLeft_concat (h : List Call) (c : Call) :
    lastLeft (h ++ [c]) = c.left?.or (lastLeft h) := by
  unfold lastLeft
  cases left : c.left? <;> simp [left]

theorem left_of_brought (brought : c.brought? = some bytes) : c.left? = some bytes := by
  unfold Call.brought? at brought
  split at brought
  · exact brought
  · cases brought

theorem left_of_quiet (quiet : c.isQuiet = true) : c.left? = none := by
  cases c with
  | produce => cases quiet
  | _ => rfl

theorem brought_of_quiet (quiet : c.isQuiet = true) : c.brought? = none := by
  cases c with
  | produce => cases quiet
  | _ => rfl

theorem lastLeft_of_quiet (quiet : c.isQuiet = true) : lastLeft (h ++ [c]) = lastLeft h := by
  rw [lastLeft_concat, left_of_quiet quiet, Option.none_or]

/-- Bytes are undelivered because the last call brought them, or because they
were so before it and it did not deliver them. -/
theorem undelivered_concat (undelivered : Undelivered bytes (h ++ [c])) :
    c.brought? = some bytes ∨ Undelivered bytes h ∧ c.delivers bytes = false := by
  obtain ⟨some, earlier, poll, between, cut, brought, waits⟩ := undelivered
  rcases List.eq_nil_or_concat between with rfl | ⟨between, last, rfl⟩
  · obtain ⟨-, same⟩ := List.append_inj' cut rfl
    cases same
    exact Or.inl brought
  · rw [List.concat_eq_append, ← List.cons_append, ← List.append_assoc] at cut
    obtain ⟨rfl, same⟩ := List.append_inj' cut rfl
    cases same
    refine Or.inr ⟨⟨some, earlier, poll, between, rfl, brought, fun d hd => ?_⟩, ?_⟩
    · exact waits d (by simp [hd])
    · exact waits c (by simp)

theorem AllDelivered.concat (delivered : AllDelivered h) (none : c.brought? = none) :
    AllDelivered (h ++ [c]) := by
  intro bytes undelivered
  rcases undelivered_concat undelivered with brought | ⟨earlier, -⟩
  · simp [none] at brought
  · exact delivered bytes earlier

/-! ## What the buffer tells of the calls so far -/

/-- The bytes in the buffer in use. -/
def content (held : Option Buffer) : Bytes := held.elim [] Buffer.contents

/-- The buffer in use holds what the last poll left, if it holds anything, and
what is undelivered is in it. -/
structure Keeps (h : List Call) (held : Bytes) : Prop where
  unsent : held ≠ [] → lastLeft h = some held
  undelivered : ∀ bytes, Undelivered bytes h → held = bytes

namespace Keeps

/-- While the buffer is empty, nothing is undelivered. -/
theorem allDelivered (keeps : Keeps h []) : AllDelivered h := fun bytes undelivered =>
  undelivered.1 (keeps.undelivered bytes undelivered).symm

theorem of_allDelivered (delivered : AllDelivered h) : Keeps h [] :=
  ⟨fun some => absurd rfl some, fun bytes undelivered => absurd undelivered (delivered bytes)⟩

theorem start : Keeps [] [] := by
  apply of_allDelivered
  rintro bytes ⟨-, earlier, poll, between, cut, -⟩
  simp at cut

theorem quiet (keeps : Keeps h held) (quiet : c.isQuiet = true) : Keeps (h ++ [c]) held := by
  refine ⟨fun some => ?_, fun bytes undelivered => ?_⟩
  · rw [lastLeft_of_quiet quiet]
    exact keeps.unsent some
  · rcases undelivered_concat undelivered with brought | ⟨earlier, -⟩
    · simp [brought_of_quiet quiet] at brought
    · exact keeps.undelivered bytes earlier

/-- A poll leaves what it puts into an empty buffer. -/
theorem polled (keeps : Keeps h []) (left : c.left? = some held) : Keeps (h ++ [c]) held := by
  refine ⟨fun _ => ?_, fun bytes undelivered => ?_⟩
  · rw [lastLeft_concat, left, Option.some_or]
  · rcases undelivered_concat undelivered with brought | ⟨earlier, -⟩
    · rw [left_of_brought brought] at left
      exact (Option.some.inj left).symm
    · exact absurd earlier (keeps.allDelivered bytes)

/-- An accepted send leaves nothing undelivered. -/
theorem sent (keeps : Keeps h held) (none : c.brought? = none) (delivers : c.delivers held = true) :
    Keeps (h ++ [c]) [] := by
  apply of_allDelivered
  intro bytes undelivered
  rcases undelivered_concat undelivered with brought | ⟨earlier, waits⟩
  · simp [none] at brought
  · rw [← keeps.undelivered bytes earlier, delivers] at waits
    cases waits

end Keeps

/-! ## Courses in good order -/

/-- The call is in order after the calls `h`, in the world `w`. -/
def Proper (s : Surroundings σ) (connection : Connection) (h : List Call) (w : σ) : Call → Prop
  | .produce x b _ _ => x = connection ∧ b.contents = [] ∧ AllDelivered h
  | .send _ datagram destination _ =>
    lastLeft h = some datagram ∧ s.peerAddress connection w = destination
  | _ => True

/-- The calls lead from one world to the other. Each of them is in order after
those before it. -/
inductive Orderly (s : Surroundings σ) (connection : Connection) :
    List Call → σ → List Call → σ → Prop where
  | nil (h : List Call) (w : σ) : Orderly s connection h w [] w
  | cons {h calls : List Call} {c : Call} {w w₁ w₂ : σ} (proper : Proper s connection h w c)
      (takes : s.Takes w c w₁) (rest : Orderly s connection (h ++ [c]) w₁ calls w₂) :
      Orderly s connection h w (c :: calls) w₂

variable {connection : Connection} {l m : List Call} {held' : Bytes}

theorem Orderly.append (first : Orderly s connection h w l w₁)
    (second : Orderly s connection (h ++ l) w₁ m w₂) : Orderly s connection h w (l ++ m) w₂ := by
  induction first with
  | nil => simpa using second
  | cons proper takes _ ih =>
    apply Orderly.cons proper takes
    apply ih
    simpa using second

/-- The moment of one of the calls. -/
theorem Orderly.cut {earlier later : List Call}
    (orderly : Orderly s connection h w (earlier ++ c :: later) w') :
    ∃ w₁ w₂, Course s (fun _ => True) w earlier w₁ ∧ Proper s connection (h ++ earlier) w₁ c ∧
      s.Takes w₁ c w₂ := by
  induction earlier generalizing h w with
  | nil =>
    cases orderly with
    | cons proper takes rest => exact ⟨w, _, .nil w, by simpa using proper, takes⟩
  | cons d earlier ih =>
    cases orderly with
    | cons proper takes rest =>
      obtain ⟨w₁, w₂, course, proper', takes'⟩ := ih rest
      exact ⟨w₁, w₂, .cons trivial takes course, by simpa using proper', takes'⟩

/-- The calls are in good order, and at their end the buffer in use tells of them
what it should. -/
structure Kept (s : Surroundings σ) (connection : Connection) (h : List Call) (w : σ)
    (calls : List Call) (w' : σ) (held : Bytes) : Prop where
  orderly : Orderly s connection h w calls w'
  keeps : Keeps (h ++ calls) held

namespace Kept

theorem nil (keeps : Keeps h held) (w : σ) : Kept s connection h w [] w held :=
  ⟨.nil h w, by simpa using keeps⟩

theorem cons (proper : Proper s connection h w c) (takes : s.Takes w c w₁)
    (rest : Kept s connection (h ++ [c]) w₁ l w₂ held) :
    Kept s connection h w (c :: l) w₂ held :=
  ⟨.cons proper takes rest.orderly, by simpa using rest.keeps⟩

theorem append (first : Kept s connection h w l w₁ held)
    (second : Kept s connection (h ++ l) w₁ m w₂ held') :
    Kept s connection h w (l ++ m) w₂ held' :=
  ⟨first.orderly.append second.orderly, by simpa using second.keeps⟩

end Kept

/-! ## A flush keeps good order -/

namespace EngineFlush

variable {f g : EngineFlush} {b : Buffer} {r : Ran σ Turn}

theorem taken_kept {buffer : Ran σ Buffer} (keeps : Keeps h (content f.held))
    (taken : Taken s f w buffer) :
    Kept s f.connection h w buffer.trace.calls buffer.world buffer.value.contents := by
  cases taken with
  | held held =>
    rw [held] at keeps
    exact .nil keeps w
  | acquired none given =>
    rw [none] at keeps
    exact .cons trivial given (.nil (keeps.quiet rfl) _)

theorem transmitted_kept (keeps : Keeps h b.contents) (left : lastLeft h = some b.contents)
    (sent : Transmitted s f b w r) :
    Kept s f.connection h w r.trace.calls r.world (content r.value.flush.held) := by
  have asked : Keeps (h ++ [.peerAddress f.connection (s.peerAddress f.connection w)])
      b.contents := keeps.quiet rfl
  have last : lastLeft (h ++ [.peerAddress f.connection (s.peerAddress f.connection w)]) =
      some b.contents := (lastLeft_of_quiet rfl).trans left
  have aimed : ∀ {channel answer}, Proper s f.connection
      (h ++ [.peerAddress f.connection (s.peerAddress f.connection w)]) w
      (.send channel b.contents (s.peerAddress f.connection w) answer) := ⟨last, rfl⟩
  cases sent with
  | failed sent =>
    refine .cons trivial ⟨rfl, rfl⟩ ?_
    refine .cons aimed sent ?_
    exact .nil (asked.quiet rfl) _
  | refused sent =>
    refine .cons trivial ⟨rfl, rfl⟩ ?_
    refine .cons aimed sent ?_
    exact .nil (asked.quiet rfl) _
  | @accepted n w' sent =>
    have delivers : (Call.send f.channel b.contents (s.peerAddress f.connection w)
        (.ok (n + 1))).delivers b.contents = true := by simp [Call.delivers]
    refine .cons trivial ⟨rfl, rfl⟩ ?_
    refine .cons aimed sent ?_
    exact .nil (asked.sent rfl delivers) _

theorem woundUp_kept (keeps : Keeps h b.contents) (delivered : AllDelivered h)
    (woundUp : WoundUp s f b w r) :
    Kept s f.connection h w r.trace.calls r.world (content r.value.flush.held) := by
  have released : ∀ {h} w, AllDelivered h →
      Kept s f.connection h w [.release b] (s.release b w) [] := by
    intro h w delivered
    refine .cons trivial rfl ?_
    refine .nil ?_ _
    apply Keeps.of_allDelivered
    exact delivered.concat rfl
  cases woundUp with
  | notDue due => exact released w delivered
  | notClosing due asked =>
    refine .cons trivial asked ?_
    apply released
    exact delivered.concat rfl
  | closeFailed due asked forced =>
    refine .cons trivial asked ?_
    refine .cons trivial forced ?_
    exact .nil ((keeps.quiet rfl).quiet rfl) _
  | closed due asked forced =>
    refine .cons trivial asked ?_
    refine .cons trivial forced ?_
    exact .nil ((keeps.quiet rfl).quiet rfl) _
  | notClosed due asked forced =>
    refine .cons trivial asked ?_
    refine .cons trivial forced ?_
    apply released
    exact (delivered.concat rfl).concat rfl

theorem worked_kept (keeps : Keeps h b.contents) (worked : Worked s f b w r) :
    Kept s f.connection h w r.trace.calls r.world (content r.value.flush.held) := by
  -- the buffer is empty at a poll, so the poll is in order and leaves what it puts there
  have empties : b.isEmpty = true → Keeps h [] := fun empty => by
    rwa [Buffer.isEmpty_iff.1 empty] at keeps
  have proper : b.isEmpty = true → ∀ {appended answer},
      Proper s f.connection h w (.produce f.connection b appended answer) :=
    fun empty => ⟨rfl, Buffer.isEmpty_iff.1 empty, (empties empty).allDelivered⟩
  cases worked with
  | resent full sent =>
    have some : b.contents ≠ [] := fun none => by simp [Buffer.isEmpty_iff.2 none] at full
    exact transmitted_kept keeps (keeps.unsent some) sent
  | pollFailed empty polled =>
    refine .cons (proper empty) polled ?_
    exact .nil ((empties empty).polled rfl) _
  | produced empty polled sent =>
    refine .cons (proper empty) polled ?_
    refine transmitted_kept ((empties empty).polled rfl) ?_ sent
    rw [lastLeft_concat]
    rfl
  | ranDry empty polled woundUp =>
    -- a poll that answers zero may leave bytes too, but nothing waits for their delivery
    have delivered := (empties empty).allDelivered
    refine .cons (proper empty) polled ?_
    exact woundUp_kept ((empties empty).polled rfl) (delivered.concat rfl) woundUp

theorem rounded_kept (keeps : Keeps h (content f.held)) (round : Rounded s f w r) :
    Kept s f.connection h w r.trace.calls r.world (content r.value.flush.held) := by
  cases round with
  | intro taken worked =>
    have first := taken_kept keeps taken
    rw [trace_after, Trace.calls_append]
    exact first.append (worked_kept first.keeps worked)

/-- An attempt at a flush keeps good order. -/
theorem attempt_kept (rounds : Nat) (f : EngineFlush) (s : Surroundings σ) (w : σ) :
    let r := f.attempt rounds s w
    ∀ h, Keeps h (content f.held) →
      Kept s f.connection h w r.trace.calls r.world (content r.value.2.held) := by
  refine attempt_induction
    (P := fun f w x => ∀ h, Keeps h (content f.held) →
      Kept s f.connection h w x.trace.calls x.world (content x.value.2.held))
    ?spent ?stop ?again rounds f w
  case spent => exact fun f w _ keeps => .nil keeps w
  case stop => exact fun f w p g t w' round _ keeps => rounded_kept keeps round
  case again =>
    intro f w g t w' x round later h keeps
    have same : g.connection = f.connection := (rounded_course round).2.2.1
    have first := rounded_kept keeps round
    have rest := later _ first.keeps
    rw [same] at rest
    rw [trace_after, Trace.calls_append]
    exact first.append rest

end EngineFlush

/-! ## So do all attempts at a command -/

theorem TimerFlush.flushed_kept {t : TimerFlush} {fired : Ran σ TimerFlush} {p : Progress}
    {flush : EngineFlush} {u : Trace} (keeps : Keeps h (content t.flush.held))
    (fire : Fired s t w fired)
    (ran : fired.value.flush.attempt rounds s fired.world = ⟨(p, flush), u, w'⟩) :
    Kept s t.connection h w (fired.trace ++ u).calls w' (content flush.held) := by
  have flushed := fired.value.flush.attempt_kept rounds s fired.world
  rw [ran] at flushed
  rw [Trace.calls_append]
  cases fire with
  | before => exact flushed h keeps
  | now unfired rang =>
    refine .cons trivial rang ?_
    exact flushed _ (keeps.quiet rfl)

namespace Command

variable {c : Command}

/-- An attempt keeps good order, and its command stays with its connection. -/
theorem resume_kept (rounds : Nat) (about : c.connection? = some connection)
    (s : Surroundings σ) (w : σ) (keeps : Keeps h (content c.held)) :
    let r := c.resume rounds s w
    Kept s connection h w r.trace.calls r.world (content r.value.2.held) := by
  cases c with
  | write d => cases about
  | flush f =>
    obtain rfl : f.connection = connection := Option.some.inj about
    rw [resume_flush]
    exact f.attempt_kept rounds s w h keeps
  | timer t =>
    obtain rfl : t.connection = connection := Option.some.inj about
    rw [resume_timer]
    have h := TimerFlush.attempted_iff.2 (rfl : t.attempt rounds s w = _)
    generalize t.attempt rounds s w = r at h
    cases h with
    | fireFailed unfired rang => exact .cons trivial rang (.nil (keeps.quiet rfl) _)
    | stopped fire incomplete ran => exact TimerFlush.flushed_kept keeps fire ran
    | kept fire notDue ran => exact TimerFlush.flushed_kept keeps fire ran
    | disposed fire due ran =>
      have first := TimerFlush.flushed_kept keeps fire ran
      intro r
      show Kept _ _ _ _ (Trace.calls (_ ++ _)) _ _
      rw [Trace.calls_append]
      exact first.append (.cons trivial rfl (.nil (first.keeps.quiet rfl) _))

/-- After any attempts the buffer tells of all their calls what it should. -/
theorem retry_keeps (rounds : Nat) (about : c.connection? = some connection)
    (s : Surroundings σ) (worlds : List σ) (keeps : Keeps h (content c.held)) :
    let run := c.retry rounds s worlds
    run.2.connection? = some connection ∧ Keeps (h ++ run.1) (content run.2.held) := by
  induction worlds generalizing c h with
  | nil => simpa [retry] using ⟨about, keeps⟩
  | cons w later ih =>
    have first := (resume_kept rounds about s w keeps).keeps
    have same := (c.resume_course rounds s w).2
    rw [retry_cons]
    simpa using ih (same.trans about) first

end Command

/-! ## The law -/

theorem send_of_delivers (delivers : c.delivers bytes = true) :
    ∃ channel destination n, c = .send channel bytes destination (.ok (n + 1)) := by
  unfold Call.delivers at delivers
  split at delivers
  · exact ⟨_, _, _, by rw [of_decide_eq_true delivers]⟩
  · cases delivers

/-- Once all is delivered, an accepted send of what a poll brought came after this
poll. -/
theorem AllDelivered.sent_since {poll : Call} {earlier between : List Call}
    (delivered : AllDelivered (earlier ++ poll :: between)) (brought : poll.brought? = some bytes)
    (some : bytes ≠ []) :
    ∃ channel destination n, .send channel bytes destination (.ok (n + 1)) ∈ between := by
  by_contra none
  apply delivered bytes
  refine ⟨some, earlier, poll, between, rfl, brought, fun c mem => ?_⟩
  by_contra delivers
  obtain ⟨channel, destination, n, rfl⟩ := send_of_delivers (by simpa using delivers)
  exact none ⟨channel, destination, n, mem⟩

/-- A new command about a connection has no buffer yet. -/
theorem content_of_made {policy : Policy} {r : Backlog.Request} {c : Command}
    (made : r.command? policy = some c) (about : c.connection? = some connection) :
    content c.held = [] := by
  cases r with
  | write => cases made; cases about
  | flush => cases made; rfl
  | timer => cases made; rfl
  | drain => cases made

/-- Engine and wire stay in step, whatever the engine answers and whatever buffers
the pool gives out. Take any attempts at a flush or at a timer command, and a call
of one more attempt. If it polls the engine, then with an empty buffer, and
whatever an earlier poll brought was sent since and accepted. If it is a send, it
carries exactly what the last poll left in the buffer, to where the peer is at the
moment of the send. -/
theorem engine_and_wire_stay_in_step (s : Surroundings σ) (policy : Policy)
    {r : Backlog.Request} {c : Command} (made : r.command? policy = some c)
    (about : c.connection? = some connection) (rounds : Nat) (worlds : List σ) (w : σ) :
    let past := c.retry rounds s worlds
    let now := past.2.attempt rounds s w
    ∀ earlier call later, now.trace.calls = earlier ++ call :: later →
      (∀ x b appended answer, call = .produce x b appended answer →
        x = connection ∧ b.contents = [] ∧
          ∀ ancient x' b' appended' n between,
            past.1 ++ earlier = ancient ++ .produce x' b' appended' (.ok (n + 1)) :: between →
            b'.contents ++ appended' ≠ [] →
            ∃ channel destination k,
              .send channel (b'.contents ++ appended') destination (.ok (k + 1)) ∈ between) ∧
      ∀ channel datagram destination answer, call = .send channel datagram destination answer →
        lastLeft (past.1 ++ earlier) = some datagram ∧
          ∃ w', Course s (fun _ => True) w earlier w' ∧
            s.peerAddress connection w' = destination ∧
            (s.send channel datagram destination w').1 = answer := by
  intro past now earlier call later cut
  have fresh : Keeps [] (content c.held) := by
    rw [content_of_made made about]
    exact .start
  obtain ⟨still, keeps⟩ := c.retry_keeps rounds about s worlds fresh
  have kept := past.2.resume_kept rounds still s w keeps
  obtain ⟨t, attempt, calls⟩ := past.2.attempt_eq rounds s w
  simp only [now, attempt, calls] at cut
  have orderly := kept.orderly
  rw [cut] at orderly
  obtain ⟨w₁, w₂, course, proper, takes⟩ := orderly.cut
  refine ⟨?produce, ?send⟩
  case produce =>
    rintro x b appended answer rfl
    obtain ⟨own, empty, delivered⟩ := proper
    refine ⟨own, empty, fun ancient x' b' appended' n between since some => ?_⟩
    rw [List.nil_append, since] at delivered
    exact delivered.sent_since rfl some
  case send =>
    rintro channel datagram destination answer rfl
    obtain ⟨left, peer⟩ := proper
    exact ⟨left, w₁, course, peer, congrArg Prod.fst takes⟩

/-- The workbench with bytes left over in its buffers, and with engines that say 5
whatever they put into them. -/
def Bench.shady : Surroundings Bench :=
  { workbench with
    acquire := fun _ _ w => ((Buffer.withCapacity 8).append [0], w)
    produce := fun c b w => (((workbench.produce c b w).1.1, .ok 5),
      (workbench.produce c b w).2) }

/-- A flush whose first send is refused. The next attempt sends that datagram
again, then polls with an empty buffer. -/
theorem engine_and_wire_stay_in_step_on_the_workbench :
    let r : Backlog.Request := .flush ⟨"left"⟩ ⟨"out"⟩
    let c : Command :=
      .flush { purpose := .send, connection := ⟨"left"⟩, channel := ⟨"out"⟩, policy := .standard }
    let past := c.retry 2 Bench.shady.impatient [({ left := fun _ => [[1]] }, [true])]
    let now := past.2.attempt 2 Bench.shady.impatient ({ left := fun _ => [[2]] }, [])
    let again : List Call :=
      [.peerAddress ⟨"left"⟩ ⟨"left"⟩, .send ⟨"out"⟩ [1] ⟨"left"⟩ (.ok 1)]
    (r.command? .standard = some c ∧ c.connection? = some ⟨"left"⟩) ∧
      now.trace.calls = again ++ [.produce ⟨"left"⟩ (.withCapacity 8) [2] (.ok 5),
        .peerAddress ⟨"left"⟩ ⟨"left"⟩, .send ⟨"out"⟩ [2] ⟨"left"⟩ (.ok 1)] ∧
      lastLeft (past.1 ++ [.peerAddress ⟨"left"⟩ ⟨"left"⟩]) = some [1] ∧
      ∃ channel destination k, .send channel [1] destination (.ok (k + 1)) ∈
        [.peerAddress ⟨"left"⟩ ⟨"left"⟩, .send ⟨"out"⟩ [1] ⟨"left"⟩ (.ok 0)] ++ again := by
  intro r c past now again
  have law := engine_and_wire_stay_in_step Bench.shady.impatient .standard
    (show r.command? .standard = some c from rfl)
    (show c.connection? = some ⟨"left"⟩ from rfl) 2 [({ left := fun _ => [[1]] }, [true])]
    ({ left := fun _ => [[2]] }, [])
  obtain ⟨polled, -⟩ := law again _ _ rfl
  obtain ⟨-, sent⟩ := law [.peerAddress ⟨"left"⟩ ⟨"left"⟩] _ _ rfl
  obtain ⟨-, -, since⟩ := polled _ _ _ _ rfl
  exact ⟨⟨rfl, rfl⟩, rfl, (sent _ _ _ _ rfl).1, since [_] _ _ [1] 4 _ rfl (by decide)⟩

end Outbox
