-- When a close is forced, and what comes of it. A flush has the engine finalise
-- its close only when that is due: the policy asks for it, a poll has just found
-- nothing left, and the connection has just said that it is closing. Whether it was
-- done is a flag of the flush, which is set before the answer is known and which no
-- refusal and no failure clears. So the flag counts how often it was done, and it
-- is never done twice.
import Outbox.Proofs.Retries

namespace Outbox

variable {σ : Type} {s : Surroundings σ} {rounds : Nat} {w w' : σ}

/-! ## The calls of a close -/

/-- Whether the call has an engine finalise its close. -/
def Call.forces : Call → Bool
  | .finaliseClose .. => true
  | _ => false

/-- How often an engine was to finalise its close. -/
def forcings (calls : List Call) : Nat := calls.countP Call.forces

@[simp] theorem forcings_nil : forcings [] = 0 := rfl

@[simp] theorem forcings_cons (c : Call) (l : List Call) :
    forcings (c :: l) = forcings l + if c.forces then 1 else 0 := List.countP_cons

@[simp] theorem forcings_append (l m : List Call) : forcings (l ++ m) = forcings l + forcings m :=
  List.countP_append

/-- Whether the call is a part of a close. -/
def Call.ofClose : Call → Bool
  | .isClosing .. | .finaliseClose .. => true
  | _ => false

/-- Whether the call polls an engine or sends. -/
def Call.moves : Call → Bool
  | .produce .. | .send .. => true
  | _ => false

/-- The last of the calls is a poll of this engine that found nothing left. -/
def EndsDry (connection : Connection) (calls : List Call) : Prop :=
  ∃ earlier before appended, calls = earlier ++ [.produce connection before appended (.ok 0)]

/-- When it is time for a call that is a part of a close, after the calls `h`. -/
def Timely (policy : Policy) (connection : Connection) (h : List Call) : Call → Prop
  | .isClosing x _ =>
    x = connection ∧ policy.onClose = .forceOnce ∧ forcings h = 0 ∧ EndsDry connection h
  | .finaliseClose x _ =>
    x = connection ∧ policy.onClose = .forceOnce ∧ forcings h = 0 ∧
      ∃ earlier, h = earlier ++ [.isClosing connection true] ∧ EndsDry connection earlier
  | _ => True

variable {policy : Policy} {connection : Connection} {h l m earlier later : List Call} {c : Call}

theorem timely_of_quiet (quiet : c.ofClose = false) : Timely policy connection h c := by
  cases c with
  | isClosing => cases quiet
  | finaliseClose => cases quiet
  | _ => trivial

theorem Timely.due (timely : Timely policy connection h c) (close : c.ofClose = true) :
    policy.onClose = .forceOnce ∧ forcings h = 0 := by
  cases c with
  | isClosing => exact ⟨timely.2.1, timely.2.2.1⟩
  | finaliseClose => exact ⟨timely.2.1, timely.2.2.1⟩
  | _ => cases close

theorem forcings_of_quiet (quiet : ∀ c ∈ l, c.ofClose = false) : forcings l = 0 := by
  unfold forcings
  rw [List.countP_eq_zero]
  intro c hc forces
  have := quiet c hc
  cases c with
  | finaliseClose => cases this
  | _ => cases forces

/-- Each of the calls comes in its time, after those before it. -/
inductive Placed (policy : Policy) (connection : Connection) : List Call → List Call → Prop where
  | nil (h : List Call) : Placed policy connection h []
  | cons {h calls : List Call} {c : Call} (timely : Timely policy connection h c)
      (rest : Placed policy connection (h ++ [c]) calls) : Placed policy connection h (c :: calls)

namespace Placed

theorem append (first : Placed policy connection h l)
    (second : Placed policy connection (h ++ l) m) : Placed policy connection h (l ++ m) := by
  induction first with
  | nil => simpa using second
  | cons timely rest ih =>
    apply Placed.cons timely
    apply ih
    simpa using second

theorem of_quiet (quiet : ∀ c ∈ l, c.ofClose = false) : Placed policy connection h l := by
  induction l generalizing h with
  | nil => exact .nil h
  | cons c l ih =>
    obtain ⟨first, rest⟩ := List.forall_mem_cons.1 quiet
    exact .cons (timely_of_quiet first) (ih rest)

theorem cut (placed : Placed policy connection h (earlier ++ c :: later)) :
    Timely policy connection (h ++ earlier) c := by
  induction earlier generalizing h with
  | nil =>
    cases placed with
    | cons timely rest => simpa using timely
  | cons d earlier ih =>
    cases placed with
    | cons timely rest => simpa using ih rest

/-- Nothing asks about a close any more once one was forced. -/
theorem quiet_after (placed : Placed policy connection h (earlier ++ c :: later))
    (forces : c.forces = true) : ∀ d ∈ later, d.ofClose = false := by
  intro d mem
  by_contra close
  obtain ⟨between, rest, rfl⟩ := List.append_of_mem mem
  have moment : Placed policy connection h ((earlier ++ c :: between) ++ d :: rest) := by
    simpa using placed
  have none := (moment.cut.due (by simpa using close)).2
  simp [forces] at none

/-- Without the policy there is no part of a close at all. -/
theorem quiet_of_disabled (placed : Placed policy connection h l)
    (disabled : policy.onClose = .disabled) : ∀ d ∈ l, d.ofClose = false := by
  intro d mem
  by_contra close
  obtain ⟨earlier, later, rfl⟩ := List.append_of_mem mem
  have forced := (placed.cut.due (by simpa using close)).1
  rw [disabled] at forced
  cases forced

end Placed

/-! ## A flush forces a close in its time -/

/-- The calls come in their time, and the flag tells of them, and of those before
them, whether a close was forced. -/
structure Closes (policy : Policy) (connection : Connection) (h calls : List Call)
    (requested : Bool) : Prop where
  placed : Placed policy connection h calls
  told : forcings (h ++ calls) = requested.toNat

namespace Closes

variable {requested requested' : Bool}

theorem append (first : Closes policy connection h l requested)
    (second : Closes policy connection (h ++ l) m requested') :
    Closes policy connection h (l ++ m) requested' := by
  refine ⟨first.placed.append second.placed, ?_⟩
  rw [← List.append_assoc]
  exact second.told

theorem of_quiet (told : forcings h = requested.toNat) (quiet : ∀ c ∈ l, c.ofClose = false) :
    Closes policy connection h l requested := by
  refine ⟨.of_quiet quiet, ?_⟩
  rw [forcings_append, forcings_of_quiet quiet, told, Nat.add_zero]

theorem cons (timely : Timely policy connection h c)
    (rest : Closes policy connection (h ++ [c]) l requested) :
    Closes policy connection h (c :: l) requested := by
  refine ⟨.cons timely rest.placed, ?_⟩
  simpa using rest.told

end Closes

namespace EngineFlush

variable {f g : EngineFlush} {b : Buffer} {r : Ran σ Turn} {t : Trace}

theorem taken_quiet {buffer : Ran σ Buffer} (taken : Taken s f w buffer) :
    ∀ c ∈ buffer.trace.calls, c.ofClose = false := by
  cases taken <;> simp [Call.ofClose]

theorem transmitted_quiet (sent : Transmitted s f b w r) :
    (∀ c ∈ r.trace.calls, c.ofClose = false) ∧
      r.value.flush.closeRequested = f.closeRequested := by
  cases sent with
  | failed sent => exact ⟨by simp [transmission, Call.ofClose], rfl⟩
  | refused sent => exact ⟨by simp [transmission, Call.ofClose], rfl⟩
  | accepted sent => exact ⟨by simp [transmission, Call.ofClose], rfl⟩

/-- The questions about a close come directly after the poll that ran dry. -/
theorem woundUp_closes (told : forcings h = f.closeRequested.toNat)
    (dry : EndsDry f.connection h) (woundUp : WoundUp s f b w r) :
    Closes f.policy f.connection h r.trace.calls r.value.flush.closeRequested := by
  have unasked : f.CloseDue → forcings h = 0 := fun due => by
    rw [told, due.2]
    rfl
  have asks : f.CloseDue → ∀ {answer},
      Timely f.policy f.connection h (.isClosing f.connection answer) := fun due =>
    ⟨rfl, due.1, unasked due, dry⟩
  have forces : f.CloseDue → ∀ {answer},
      Timely f.policy f.connection (h ++ [.isClosing f.connection true])
        (.finaliseClose f.connection answer) := fun due =>
    ⟨rfl, due.1, by simp [unasked due, Call.forces], h, rfl, dry⟩
  have counted : f.CloseDue → ∀ {answer},
      forcings (h ++ [.isClosing f.connection true] ++ [.finaliseClose f.connection answer]) =
        true.toNat := fun due => by
    simp [unasked due, Call.forces]
  have released : ∀ c ∈ [Call.release b], c.ofClose = false := by simp [Call.ofClose]
  cases woundUp with
  | notDue due => exact .of_quiet told released
  | notClosing due asked =>
    refine .cons (asks due) (.of_quiet ?_ released)
    rw [forcings_append, told]
    rfl
  | closeFailed due asked forced =>
    refine .cons (asks due) (.cons (forces due) ?_)
    exact .of_quiet (counted due) (by simp)
  | closed due asked forced =>
    refine .cons (asks due) (.cons (forces due) ?_)
    exact .of_quiet (counted due) (by simp)
  | notClosed due asked forced =>
    refine .cons (asks due) (.cons (forces due) ?_)
    exact .of_quiet (counted due) released

theorem worked_closes (told : forcings h = f.closeRequested.toNat) (worked : Worked s f b w r) :
    Closes f.policy f.connection h r.trace.calls r.value.flush.closeRequested := by
  have polled : ∀ {appended answer},
      forcings (h ++ [.produce f.connection b appended answer]) =
        f.closeRequested.toNat := by
    simpa [Call.forces] using told
  cases worked with
  | resent full sent =>
    obtain ⟨quiet, same⟩ := transmitted_quiet sent
    rw [same]
    exact .of_quiet told quiet
  | pollFailed empty poll => exact .cons trivial (.of_quiet polled (by simp))
  | produced empty poll sent =>
    obtain ⟨quiet, same⟩ := transmitted_quiet sent
    refine .cons trivial ?_
    rw [value_after, same]
    exact .of_quiet polled quiet
  | ranDry empty poll woundUp =>
    refine .cons trivial ?_
    exact woundUp_closes polled ⟨h, _, _, rfl⟩ woundUp

theorem rounded_closes (told : forcings h = f.closeRequested.toNat) (round : Rounded s f w r) :
    Closes f.policy f.connection h r.trace.calls r.value.flush.closeRequested := by
  cases round with
  | intro taken worked =>
    have first : Closes f.policy f.connection h _ f.closeRequested :=
      .of_quiet told (taken_quiet taken)
    rw [trace_after, Trace.calls_append]
    exact first.append (worked_closes first.told worked)

/-- An attempt at a flush forces a close only in its time, and the flag tells so. -/
theorem attempt_closes (rounds : Nat) (f : EngineFlush) (s : Surroundings σ) (w : σ) :
    let r := f.attempt rounds s w
    ∀ h, forcings h = f.closeRequested.toNat →
      Closes f.policy f.connection h r.trace.calls r.value.2.closeRequested := by
  refine attempt_induction
    (P := fun f _ x => ∀ h, forcings h = f.closeRequested.toNat →
      Closes f.policy f.connection h x.trace.calls x.value.2.closeRequested)
    ?spent ?stop ?again rounds f w
  case spent => exact fun f w h told => .of_quiet told (by simp)
  case stop => exact fun f w p g t w' round h told => rounded_closes told round
  case again =>
    intro f w g t w' x round later h told
    -- a round changes neither the connection nor the policy
    obtain ⟨-, connection, -, policy⟩ := (rounded_course round).2
    have first := rounded_closes told round
    have rest := later _ first.told
    simp only [Turn.flush] at connection policy
    rw [connection, policy] at rest
    rw [trace_after, Trace.calls_append]
    exact first.append rest

end EngineFlush

/-! ## What comes of it -/

/-- What the answer to a forced close leads to. A flush that was told yes is not done
before a poll found nothing left again. One that was told no is done, and moves
nothing any more. -/
def Heeds (p : Progress) (later : List Call) : Call → Prop
  | .finaliseClose _ (.ok true) => p = .completed → RanDry later
  | .finaliseClose _ (.ok false) => p = .completed ∧ ∀ c ∈ later, c.moves = false
  | _ => True

/-- Each of the answers is heeded by the calls after it, and by how these end. -/
inductive Heeded (p : Progress) : List Call → Prop where
  | nil : Heeded p []
  | cons {c : Call} {later : List Call} (heeds : Heeds p later c) (rest : Heeded p later) :
      Heeded p (c :: later)

variable {p : Progress}

theorem RanDry.followed (dry : RanDry l) (unpolled : polls m = []) : RanDry (l ++ m) := by
  unfold RanDry at *
  rw [polls_append, unpolled, List.append_nil, dry]

theorem heeds_of_quiet (quiet : c.ofClose = false) : Heeds p later c := by
  cases c with
  | finaliseClose => cases quiet
  | _ => trivial

namespace Heeded

theorem cut (heeded : Heeded p (earlier ++ c :: later)) : Heeds p later c := by
  induction earlier with
  | nil =>
    cases heeded with
    | cons heeds rest => exact heeds
  | cons d earlier ih =>
    cases heeded with
    | cons heeds rest => exact ih rest

theorem lead (quiet : ∀ c ∈ l, c.ofClose = false) (heeded : Heeded p m) : Heeded p (l ++ m) := by
  induction l with
  | nil => exact heeded
  | cons c l ih =>
    obtain ⟨first, rest⟩ := List.forall_mem_cons.1 quiet
    exact .cons (heeds_of_quiet first) (ih rest)

/-- A disposal at the end changes nothing of it. -/
theorem disposed (heeded : Heeded p l) : Heeded p (l ++ [.dispose connection]) := by
  induction heeded with
  | nil => exact .cons trivial .nil
  | @cons c later heeds rest ih =>
    refine .cons ?_ ih
    unfold Heeds at heeds ⊢
    split
    · exact fun completed => (heeds completed).followed rfl
    · refine ⟨heeds.1, fun d mem => ?_⟩
      rcases List.mem_append.1 mem with mem | mem
      · exact heeds.2 d mem
      · cases List.mem_singleton.1 mem
        rfl
    · trivial

end Heeded

namespace EngineFlush

variable {f g : EngineFlush} {b : Buffer} {r : Ran σ Turn} {t : Trace}

theorem woundUp_heeded (woundUp : WoundUp s f b w r) :
    (∀ p g, r.value = .stop p g → Heeded p r.trace.calls) ∧
      ∀ p g l, r.value = .again g → (p = .completed → RanDry l) → Heeded p l →
        Heeded p (r.trace.calls ++ l) := by
  cases woundUp with
  | notDue due =>
    refine ⟨fun p g stops => ?_, fun p g l goesOn => by cases goesOn⟩
    exact .cons trivial .nil
  | notClosing due asked =>
    refine ⟨fun p g stops => ?_, fun p g l goesOn => by cases goesOn⟩
    exact .cons trivial (.cons trivial .nil)
  | closeFailed due asked forced =>
    refine ⟨fun p g stops => ?_, fun p g l goesOn => by cases goesOn⟩
    exact .cons trivial (.cons trivial .nil)
  | closed due asked forced =>
    refine ⟨fun p g stops => (by cases stops), fun p g l goesOn dry heeded => ?_⟩
    exact .cons trivial (.cons dry heeded)
  | notClosed due asked forced =>
    refine ⟨fun p g stops => ?_, fun p g l goesOn => by cases goesOn⟩
    cases stops
    have still : ∀ c ∈ [Call.release b], c.moves = false := by simp [Call.moves]
    exact .cons trivial (.cons ⟨rfl, still⟩ (.cons trivial .nil))

/-- In a round an answer to a forced close is heeded, if it is so in the calls that
come after the round. -/
theorem rounded_heeded (round : Rounded s f w r) :
    (∀ p g, r.value = .stop p g → Heeded p r.trace.calls) ∧
      ∀ p g l, r.value = .again g → (p = .completed → RanDry l) → Heeded p l →
        Heeded p (r.trace.calls ++ l) := by
  have quietly : ∀ {calls : List Call}, (∀ c ∈ calls, c.ofClose = false) →
      (∀ p, Heeded p calls) ∧ ∀ p l, Heeded p l → Heeded p (calls ++ l) := fun quiet =>
    ⟨fun p => by simpa using Heeded.nil.lead quiet, fun p l heeded => heeded.lead quiet⟩
  cases round with
  | @intro buffer r taken worked =>
    have first := taken_quiet taken
    have alone : (∀ c ∈ r.trace.calls, c.ofClose = false) →
        ∀ c ∈ (r.after buffer.trace).trace.calls, c.ofClose = false := fun quiet c mem => by
      rw [trace_after, Trace.calls_append] at mem
      exact (List.mem_append.1 mem).elim (first c) (quiet c)
    cases worked with
    | resent full sent =>
      obtain ⟨stops, goesOn⟩ := quietly (alone (transmitted_quiet sent).1)
      exact ⟨fun p _ _ => stops p, fun p _ l _ _ => goesOn p l⟩
    | pollFailed empty polled =>
      obtain ⟨stops, goesOn⟩ := quietly (alone (by simp [Call.ofClose]))
      exact ⟨fun p _ _ => stops p, fun p _ l _ _ => goesOn p l⟩
    | produced empty polled sent =>
      obtain ⟨stops, goesOn⟩ := quietly (alone (List.forall_mem_cons.2
        ⟨rfl, (transmitted_quiet sent).1⟩))
      exact ⟨fun p _ _ => stops p, fun p _ l _ _ => goesOn p l⟩
    | ranDry empty polled woundUp =>
      obtain ⟨stops, goesOn⟩ := woundUp_heeded woundUp
      simp only [trace_after, value_after, Trace.calls_append, List.append_assoc]
      refine ⟨fun p g stop => ?_, fun p g l again dry heeded => ?_⟩
      · exact .lead first (.cons trivial (stops p g stop))
      · exact .lead first (.cons trivial (goesOn p g l again dry heeded))

/-- An attempt at a flush heeds what it is told. -/
theorem attempt_heeded (rounds : Nat) (f : EngineFlush) (s : Surroundings σ) (w : σ) :
    Heeded (f.attempt rounds s w).value.1 (f.attempt rounds s w).trace.calls := by
  induction rounds generalizing f w with
  | zero => exact .nil
  | succ rounds ih =>
    have round := rounded_round s f w
    rcases turn : f.round s w with ⟨g | ⟨p, g⟩, t, w'⟩ <;> rw [turn] at round
    · rw [attempt_again rounds round, trace_after, Trace.calls_append]
      exact (rounded_heeded round).2 _ g _ rfl (g.attempt_ranDry rounds s w') (ih g w')
    · rw [attempt_stop rounds round]
      exact (rounded_heeded round).1 p g rfl

end EngineFlush

/-! ## Attempts at a command -/

namespace TimerFlush

variable {t : TimerFlush} {fired : Ran σ TimerFlush} {flush : EngineFlush} {u : Trace}

theorem fired_quiet (fire : Fired s t w fired) : ∀ c ∈ fired.trace.calls, c.ofClose = false := by
  cases fire <;> simp [Call.ofClose]

theorem flushed_closes (told : forcings h = t.flush.closeRequested.toNat) (fire : Fired s t w fired)
    (ran : fired.value.flush.attempt rounds s fired.world = ⟨(p, flush), u, w'⟩) :
    Closes t.flush.policy t.flush.connection h (fired.trace ++ u).calls flush.closeRequested ∧
      t.flush.Same flush := by
  have flushed := fired.value.flush.attempt_closes rounds s fired.world
  have same := (fired.value.flush.attempt_course rounds s fired.world).2
  have first : Closes t.flush.policy t.flush.connection h fired.trace.calls _ :=
    .of_quiet told (fired_quiet fire)
  rw [ran, value_of_fired fire] at flushed same
  rw [Trace.calls_append]
  exact ⟨first.append (flushed _ first.told), same⟩

theorem flushed_heeded (fire : Fired s t w fired)
    (ran : fired.value.flush.attempt rounds s fired.world = ⟨(p, flush), u, w'⟩) :
    Heeded p (fired.trace ++ u).calls ∧ (p = .completed → RanDry (fired.trace ++ u).calls) := by
  have heeded := fired.value.flush.attempt_heeded rounds s fired.world
  have dry := fired.value.flush.attempt_ranDry rounds s fired.world
  rw [ran] at heeded dry
  rw [Trace.calls_append]
  exact ⟨heeded.lead (fired_quiet fire), fun completed => (dry completed).append _⟩

end TimerFlush

namespace Command

/-- The flush that a command is, or that comes after its timer. -/
def flushing? : Command → Option EngineFlush
  | .write _ => none
  | .flush f => some f
  | .timer t => some t.flush

/-- The command flushes this connection by this policy, and its flag tells whether
the calls `h` forced a close. -/
def Tells (policy : Policy) (connection : Connection) (h : List Call) (c : Command) : Prop :=
  ∃ f, c.flushing? = some f ∧ f.policy = policy ∧ f.connection = connection ∧
    forcings h = f.closeRequested.toNat

theorem tells_of_made {r : Backlog.Request} {c : Command} (made : r.command? policy = some c)
    (about : c.connection? = some connection) : c.Tells policy connection [] := by
  cases r with
  | write => cases made; cases about
  | flush => cases made; cases about; exact ⟨_, rfl, rfl, rfl, rfl⟩
  | timer => cases made; cases about; exact ⟨_, rfl, rfl, rfl, rfl⟩
  | drain => cases made

/-- An attempt asks about a close, and forces one, only in its time. -/
theorem resume_placed (rounds : Nat) {c : Command} (s : Surroundings σ) (w : σ)
    (tells : c.Tells policy connection h) :
    let r := c.resume rounds s w
    Placed policy connection h r.trace.calls ∧
      r.value.2.Tells policy connection (h ++ r.trace.calls) := by
  obtain ⟨f, flushing, rfl, rfl, told⟩ := tells
  cases c with
  | write d => cases flushing
  | flush g =>
    cases flushing
    rw [resume_flush]
    have closes := f.attempt_closes rounds s w h told
    obtain ⟨-, connection, -, policy⟩ := (f.attempt_course rounds s w).2
    exact ⟨closes.placed, _, rfl, policy, connection, closes.told⟩
  | timer t =>
    cases flushing
    rw [resume_timer]
    have attempted := TimerFlush.attempted_iff.2 (rfl : t.attempt rounds s w = _)
    generalize t.attempt rounds s w = r at attempted
    cases attempted with
    | fireFailed unfired rang =>
      refine ⟨.cons trivial (.nil _), _, rfl, rfl, rfl, ?_⟩
      simpa [Call.forces] using told
    | stopped fire incomplete ran =>
      obtain ⟨closes, -, connection, -, policy⟩ := TimerFlush.flushed_closes told fire ran
      exact ⟨closes.placed, _, rfl, policy, connection, closes.told⟩
    | kept fire notDue ran =>
      obtain ⟨closes, -, connection, -, policy⟩ := TimerFlush.flushed_closes told fire ran
      exact ⟨closes.placed, _, rfl, policy, connection, closes.told⟩
    | @disposed fired flush u w₂ fire due ran =>
      obtain ⟨closes, -, connection, -, policy⟩ := TimerFlush.flushed_closes told fire ran
      have disposal : ∀ d ∈ [Call.dispose flush.connection], d.ofClose = false := by
        simp [Call.ofClose]
      have closes := closes.append (.of_quiet closes.told disposal)
      exact ⟨by simpa using closes.placed, _, rfl, policy, connection, by simpa using closes.told⟩

/-- An attempt heeds what it is told of a close, and is done only when the engine has
nothing left. -/
theorem resume_heeded (rounds : Nat) {c : Command} {f : EngineFlush}
    (flushing : c.flushing? = some f) (s : Surroundings σ) (w : σ) :
    let r := c.resume rounds s w
    Heeded r.value.1 r.trace.calls ∧ (r.value.1 = .completed → RanDry r.trace.calls) := by
  cases c with
  | write d => cases flushing
  | flush f =>
    rw [resume_flush]
    exact ⟨f.attempt_heeded rounds s w, f.attempt_ranDry rounds s w⟩
  | timer t =>
    rw [resume_timer]
    have attempted := TimerFlush.attempted_iff.2 (rfl : t.attempt rounds s w = _)
    generalize t.attempt rounds s w = r at attempted
    cases attempted with
    | fireFailed unfired rang => exact ⟨.cons trivial .nil, fun completed => by cases completed⟩
    | stopped fire incomplete ran => exact TimerFlush.flushed_heeded fire ran
    | kept fire notDue ran => exact TimerFlush.flushed_heeded fire ran
    | disposed fire due ran =>
      obtain ⟨heeded, dry⟩ := TimerFlush.flushed_heeded fire ran
      refine ⟨?_, fun completed => ?_⟩
      · simpa using heeded.disposed
      · simpa using (dry completed).followed rfl

/-- Over any attempts, a command asks about a close, and forces one, only in its time. -/
theorem retry_placed (rounds : Nat) {c : Command} (s : Surroundings σ) (worlds : List σ)
    (tells : c.Tells policy connection h) :
    let run := c.retry rounds s worlds
    Placed policy connection h run.1 ∧ run.2.Tells policy connection (h ++ run.1) := by
  induction worlds generalizing c h with
  | nil => exact ⟨.nil h, by simpa [retry] using tells⟩
  | cons w later ih =>
    obtain ⟨first, told⟩ := c.resume_placed rounds s w tells
    obtain ⟨rest, told'⟩ := ih told
    rw [retry_cons]
    exact ⟨first.append rest, by simpa using told'⟩

end Command

/-! ## The law -/

/-- A call of one of two runs, with the calls that come after it. -/
theorem cut_in_append (cut : l ++ m = earlier ++ c :: later) :
    (∃ rest, later = rest ++ m) ∨ ∃ start, m = start ++ c :: later := by
  rcases List.append_eq_append_iff.1 cut with ⟨start, -, rest⟩ | ⟨rest, -, split⟩
  · exact Or.inr ⟨start, rest⟩
  · cases rest with
    | nil => exact Or.inr ⟨[], split.symm⟩
    | cons d rest =>
      rw [List.cons_append, List.cons.injEq] at split
      exact Or.inl ⟨rest, split.2⟩

/-- A forced close happens at most once, and only when it is due. Take any attempts at
a flush or at a timer command, whatever comes of each, and one more. Over all of them
an engine is to finalise its close at most once, under a policy that asks for it,
directly after the connection said that it is closing, which comes directly after a
poll that found nothing left. Once that is done, nothing asks about a close again. If
the engine agreed, the command is not done before a poll found nothing left again. If
it did not, the command is done in that attempt, without a further poll or send. And
under a policy that does not ask for it, no call is a part of a close. -/
theorem a_close_is_forced_at_most_once_and_only_when_due (s : Surroundings σ) (policy : Policy)
    {r : Backlog.Request} {c : Command} (made : r.command? policy = some c)
    (about : c.connection? = some connection) (rounds : Nat) (worlds : List σ) (w : σ) :
    let past := c.retry rounds s worlds
    let now := past.2.attempt rounds s w
    let life := past.1 ++ now.trace.calls
    forcings life ≤ 1 ∧
      (∀ earlier x answer later, life = earlier ++ .finaliseClose x answer :: later →
        policy.onClose = .forceOnce ∧ x = connection ∧
          (∃ ancient before appended, earlier = ancient ++
            [.produce connection before appended (.ok 0), .isClosing connection true]) ∧
          (∀ d ∈ later, d.ofClose = false) ∧
          (answer = .ok true → now.value.1 = .completed → RanDry later)) ∧
      (∀ earlier x later, now.trace.calls = earlier ++ .finaliseClose x (.ok false) :: later →
        now.value.1 = .completed ∧ ∀ d ∈ later, d.moves = false) ∧
      (policy.onClose = .disabled → ∀ d ∈ life, d.ofClose = false) := by
  intro past now life
  have fresh := Command.tells_of_made made about
  obtain ⟨before, told⟩ := c.retry_placed rounds s worlds fresh
  obtain ⟨last, f, -, -, -, counted⟩ := past.2.resume_placed rounds s w told
  obtain ⟨g, flushing, -⟩ := told
  obtain ⟨heeded, dry⟩ := past.2.resume_heeded rounds flushing s w
  obtain ⟨t, attempt, calls⟩ := past.2.attempt_eq rounds s w
  have placed : Placed policy connection [] life := by
    simp only [life, now, attempt, calls]
    exact before.append last
  rw [← calls] at heeded dry counted
  simp only [life, now, attempt] at placed ⊢
  refine ⟨?once, ?due, ?declined, placed.quiet_of_disabled⟩
  case once =>
    rw [List.nil_append] at counted
    rw [counted]
    exact Bool.toNat_le _
  case due =>
    intro earlier x answer later cut
    rw [cut] at placed
    obtain ⟨own, policy, -, asked, rfl, ancient, before, appended, rfl⟩ := placed.cut
    refine ⟨policy, own, ⟨ancient, before, appended, by simp⟩, placed.quiet_after rfl, ?_⟩
    rintro rfl completed
    rcases cut_in_append cut with ⟨rest, rfl⟩ | ⟨start, now⟩
    · exact (dry completed).append rest
    · rw [now] at heeded
      exact heeded.cut completed
  case declined =>
    intro earlier x later cut
    rw [cut] at heeded
    exact heeded.cut

namespace Bench

/-- The workbench with connections that are closing. If its engine agrees to a forced
close, there is a closing datagram. -/
def parting (agrees : Bool) : Surroundings Bench :=
  { workbench with
    isClosing := fun _ w => (true, w)
    finaliseClose := fun c w =>
      (.ok agrees, { w with left := Function.update w.left c (if agrees then [[7]] else []) }) }

/-- The policy that asks for a forced close. -/
def thorough : Policy := { Policy.standard with onClose := .forceOnce }

/-- A flush of the left connection, as it is made. -/
def flush (policy : Policy) : EngineFlush :=
  { purpose := .send, connection := ⟨"left"⟩, channel := ⟨"out"⟩, policy }

end Bench

/-- The closing datagram is refused at first. It goes out with the next attempt, which
polls again and asks no more. An engine that does not agree is not polled again. -/
theorem a_close_is_forced_at_most_once_and_only_when_due_on_the_workbench :
    let r : Backlog.Request := .flush ⟨"left"⟩ ⟨"out"⟩
    let c : Command := .flush (Bench.flush Bench.thorough)
    let past := c.retry 4 (Bench.parting true).impatient [({}, [true])]
    let now := past.2.attempt 4 (Bench.parting true).impatient ({}, [])
    let declined := c.attempt 4 (Bench.parting false) {}
    (r.command? Bench.thorough = some c ∧ c.connection? = some ⟨"left"⟩) ∧
      (forcings past.1 = 1 ∧ forcings (past.1 ++ now.trace.calls) ≤ 1) ∧
      (now.value.1 = .completed ∧ RanDry (past.1.drop 4 ++ now.trace.calls)) ∧
      (.finaliseClose ⟨"left"⟩ (.ok false) ∈ declined.trace.calls ∧
        declined.value.1 = .completed) := by
  intro r c past now declined
  have made : r.command? Bench.thorough = some c := rfl
  have about : c.connection? = some ⟨"left"⟩ := rfl
  obtain ⟨once, agreed, -, -⟩ := a_close_is_forced_at_most_once_and_only_when_due
    (Bench.parting true).impatient Bench.thorough made about 4 [({}, [true])] ({}, [])
  obtain ⟨-, -, refused, -⟩ := a_close_is_forced_at_most_once_and_only_when_due
    (Bench.parting false) Bench.thorough made about 4 [] {}
  have cut : past.1 ++ now.trace.calls = past.1.take 3 ++
      .finaliseClose ⟨"left"⟩ (.ok true) :: (past.1.drop 4 ++ now.trace.calls) := rfl
  have cut' : declined.trace.calls = declined.trace.calls.take 3 ++
      .finaliseClose ⟨"left"⟩ (.ok false) :: declined.trace.calls.drop 4 := rfl
  obtain ⟨-, -, -, -, again⟩ := agreed _ _ _ _ cut
  refine ⟨⟨made, about⟩, ⟨rfl, once⟩, ⟨rfl, again rfl rfl⟩, ?_, (refused _ _ _ cut').1⟩
  rw [cut']
  exact List.mem_append_right _ (List.mem_cons_self ..)

end Outbox
