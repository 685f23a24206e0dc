-- A timer command is a timer, a flush and a disposal, one after the other. Once
-- the timer has fired, each attempt makes the calls of a plain flush that is
-- attempted as often, and the disposal comes at the very end. So what is known
-- of a flush that is done holds when its connection is disposed.
import Outbox.Proofs.Bouts
import Outbox.Proofs.Resumptions

namespace Outbox

variable {σ κ : Type} {s : Surroundings σ} {rounds : Nat} {w w' : σ}

/-! ## What comes before and after a flush -/

namespace Bout

/-- The same attempts, with some calls before those of the first. -/
def led (calls : List Call) : List Bout → List Bout
  | [] => []
  | b :: later => { b with calls := calls ++ b.calls } :: later

/-- The attempt, with the connection disposed at its end if it is the last. -/
def retire (dispose : Bool) (connection : Connection) (b : Bout) : Bout :=
  if dispose = true ∧ b.progress = .completed then
    { b with calls := b.calls ++ [.dispose connection] }
  else b

def disposal (dispose : Bool) (connection : Connection) (l : List Bout) : List Call :=
  if dispose = true ∧ .completed ∈ l.map progress then [.dispose connection] else []

theorem disposal_cases (dispose : Bool) (connection : Connection) (l : List Bout) :
    disposal dispose connection l = [.dispose connection] ∧ .completed ∈ l.map progress ∨
      disposal dispose connection l = [] := by
  unfold disposal
  split
  · rename_i due
    exact Or.inl ⟨rfl, due.2⟩
  · exact Or.inr rfl

theorem retire_of_incomplete (dispose : Bool) (connection : Connection) {b : Bout}
    (incomplete : b.progress ≠ .completed) : b.retire dispose connection = b :=
  if_neg fun due => incomplete due.2

theorem retire_progress (dispose : Bool) (connection : Connection) (b : Bout) :
    (b.retire dispose connection).progress = b.progress := by
  unfold retire
  split <;> rfl

/-- Each attempt with the first one led makes its calls, and those that lead. -/
theorem mem_led {calls : List Call} {l : List Bout} {b : Bout} (mem : b ∈ led calls l) :
    ∃ b' ∈ l, b'.progress = b.progress ∧ ∀ c ∈ b.calls, c ∈ calls ∨ c ∈ b'.calls := by
  cases l with
  | nil => cases mem
  | cons first later =>
    rcases List.mem_cons.1 mem with rfl | mem
    · exact ⟨first, List.mem_cons_self .., rfl, fun c hc => List.mem_append.1 hc⟩
    · exact ⟨b, List.mem_cons_of_mem _ mem, rfl, fun c hc => Or.inr hc⟩

theorem calls_led (calls : List Call) {l : List Bout} (some : l ≠ []) :
    (led calls l).flatMap Bout.calls = calls ++ l.flatMap Bout.calls := by
  cases l with
  | nil => exact absurd rfl some
  | cons first later => simp [led]

end Bout

section

variable {attempt : κ → Act σ (Progress × κ)} {c c' : κ} {meanwhiles : List (σ → σ)}

theorem bouts_of_after {t : Trace} (h : attempt c s w = (attempt c' s w').after t) :
    bouts attempt s c w meanwhiles = Bout.led t.calls (bouts attempt s c' w' meanwhiles) := by
  cases meanwhiles <;> simp [bouts, h, Bout.led, Ran.bout, Trace.calls_append]

theorem calls_retire (dispose : Bool) (connection : Connection) :
    let l := bouts attempt s c w meanwhiles
    (l.map (Bout.retire dispose connection)).flatMap Bout.calls =
      l.flatMap Bout.calls ++ Bout.disposal dispose connection l := by
  have single : ∀ b : Bout, [b.retire dispose connection].flatMap Bout.calls =
      [b].flatMap Bout.calls ++ Bout.disposal dispose connection [b] := by
    intro b
    simp only [Bout.retire, Bout.disposal, List.map_cons, List.map_nil, List.mem_singleton,
      List.flatMap_singleton, eq_comm (a := Progress.completed)]
    split <;> simp
  induction meanwhiles generalizing c w with
  | nil => exact single _
  | cons meanwhile later ih =>
    by_cases refused : (attempt c s w).value.1 = .refused
    · -- a refused attempt is followed by another, and has no disposal
      have kept : (attempt c s w).bout.retire dispose connection = (attempt c s w).bout :=
        Bout.retire_of_incomplete _ _ (by simp [Ran.bout, refused])
      have more : ∀ l, Bout.disposal dispose connection ((attempt c s w).bout :: l) =
          Bout.disposal dispose connection l := fun l => by
        simp [Bout.disposal, Ran.bout, refused]
      rw [bouts_cons refused]
      simp only [List.map_cons, List.flatMap_cons, kept, more, List.append_assoc]
      rw [ih]
    · rw [bouts_last refused]
      exact single _

end

/-! ## Attempts at a timer command -/

namespace TimerFlush

def following (f : EngineFlush) (dispose : Bool) : TimerFlush :=
  { flush := f.withPurpose .timeout, dispose, fired := true }

/-- A timer command goes its way once its timer has fired. -/
theorem attempt_of_rang (rounds : Nat) {t : TimerFlush} {w₁ : σ} (unfired : t.fired = false)
    (rang : s.fireTimer t.connection w = (.ok (), w₁)) :
    t.attempt rounds s w =
      ({ t with fired := true }.attempt rounds s w₁).after
        [.call (.fireTimer t.connection (.ok ()))] := by
  have before : Fired s { t with fired := true } w₁ ⟨_, [], w₁⟩ := .before rfl
  rw [attempt_of_fired (.now unfired rang), attempt_of_fired before, after_nil]

theorem attempt_following (rounds : Nat) (f : EngineFlush) (dispose : Bool) (s : Surroundings σ)
    (w : σ) :
    let x := f.attempt rounds s w
    (following f dispose).attempt rounds s w =
      conclude s (following f dispose)
        ⟨(x.value.1, x.value.2.withPurpose .timeout), x.trace, x.world⟩ := by
  have fire : Fired s (following f dispose) w ⟨following f dispose, [], w⟩ := .before rfl
  intro x
  rw [attempt_of_fired fire, after_nil]
  exact congrArg _ (f.attempt_withPurpose .timeout rounds s w)

/-- After the timer, an attempt makes the calls of its flush, and disposes the
connection if the flush is done. -/
theorem bout_following (rounds : Nat) (f : EngineFlush) (dispose : Bool) (s : Surroundings σ)
    (w : σ) :
    ((following f dispose).attempt rounds s w).bout =
      (f.attempt rounds s w).bout.retire dispose f.connection := by
  have same := (f.attempt_course rounds s w).2.2.1
  rw [attempt_following]
  generalize f.attempt rounds s w = x at same
  by_cases completed : x.value.1 = .completed
  · cases dispose <;>
      simp [conclude, completed, retire_apply, following, Ran.bout, Bout.retire, connection,
        EngineFlush.withPurpose, same, Trace.calls_append]
  · have waits := conclude_waits (s := s) (t := following f dispose)
      (x := ⟨(x.value.1, x.value.2.withPurpose .timeout), x.trace, x.world⟩) completed
    rw [waits]
    simp [Ran.bout, Bout.retire, completed]

/-- As long as it is refused, the timer command goes on as its flush does. -/
theorem following_of_refused {f : EngineFlush} (dispose : Bool)
    (refused : (f.attempt rounds s w).value.1 = .refused) :
    let y := (following f dispose).attempt rounds s w
    y.value = (.refused, following (f.attempt rounds s w).value.2 dispose) ∧
      y.world = (f.attempt rounds s w).world := by
  rw [attempt_following, conclude_waits (by simp [refused])]
  exact ⟨by rw [refused]; rfl, rfl⟩

/-- After the timer, the attempts make the calls of as many attempts at the
flush, and the disposal comes last. -/
theorem bouts_following (rounds : Nat) (s : Surroundings σ) (dispose : Bool) (f : EngineFlush)
    (w : σ) (meanwhiles : List (σ → σ)) :
    bouts (TimerFlush.attempt rounds) s (following f dispose) w meanwhiles =
      (bouts (EngineFlush.attempt rounds) s f w meanwhiles).map
        (Bout.retire dispose f.connection) := by
  have now := bout_following rounds f dispose s w
  induction meanwhiles generalizing f w with
  | nil => simp [bouts, now]
  | cons meanwhile later ih =>
    by_cases refused : (f.attempt rounds s w).value.1 = .refused
    · obtain ⟨value, world⟩ := following_of_refused dispose refused
      have same := (f.attempt_course rounds s w).2.2.1
      rw [bouts_cons refused, bouts_cons (by rw [value]), now, value, world,
        ih _ _ (bout_following rounds _ dispose s _), same, List.map_cons]
    · have last : ((following f dispose).attempt rounds s w).value.1 ≠ .refused := by
        have progress := congrArg Bout.progress now
        rw [Bout.retire_progress] at progress
        exact fun h => refused (progress.symm.trans h)
      rw [bouts_last refused, bouts_last last, now]
      rfl

end TimerFlush

/-! ## The law -/

section

variable {connection : Connection} {channel : Channel} {dispose : Bool} {policy : Policy}
  {meanwhiles : List (σ → σ)}

theorem bouts_of_fireFailed {e : EngineFault}
    (failed : s.fireTimer connection w = (.error e, w')) :
    bouts (TimerFlush.attempt rounds) s (.new connection channel dispose policy) w meanwhiles =
      [⟨.failed (.engine e), [.fireTimer connection (.error e)]⟩] := by
  have attempted : TimerFlush.Attempted s rounds (.new connection channel dispose policy) w
      ⟨_, [.call (.fireTimer connection (.error e))], w'⟩ := .fireFailed rfl failed
  have attempt := TimerFlush.attempt_of_attempted attempted
  rw [bouts_last (by simp [attempt]), attempt]
  rfl

theorem bouts_of_rang (rang : s.fireTimer connection w = (.ok (), w')) :
    let flush := bouts (EngineFlush.attempt rounds) s
      { purpose := .send, connection, channel, policy } w' meanwhiles
    bouts (TimerFlush.attempt rounds) s (.new connection channel dispose policy) w meanwhiles =
      Bout.led [.fireTimer connection (.ok ())] (flush.map (Bout.retire dispose connection)) := by
  have attempt := TimerFlush.attempt_of_rang rounds
    (t := .new connection channel dispose policy) rfl rang
  rw [bouts_of_after attempt]
  exact congrArg _ (TimerFlush.bouts_following rounds s dispose
    { purpose := .send, connection, channel, policy } w' meanwhiles)

end

/-- If some calls hold no disposal, and at most one comes after them, then this
is the last call. -/
theorem cut_at_disposal {earlier last before after : List Call} {connection x : Connection}
    (none : ∀ y, .dispose y ∉ earlier) (ends : last = [.dispose connection] ∨ last = [])
    (cut : earlier ++ last = before ++ .dispose x :: after) :
    after = [] ∧ x = connection ∧ before = earlier ∧ last = [.dispose connection] := by
  rcases ends with rfl | rfl
  · rcases List.eq_nil_or_concat after with rfl | ⟨after', c, rfl⟩
    · obtain ⟨rfl, same⟩ := List.append_inj' cut rfl
      cases same
      exact ⟨rfl, rfl, rfl, rfl⟩
    · -- a call after the disposal would put it among the earlier calls
      rw [List.concat_eq_append, ← List.cons_append, ← List.append_assoc] at cut
      obtain ⟨rfl, -⟩ := List.append_inj' cut rfl
      exact absurd (List.mem_append_right before (List.mem_cons_self ..)) (none x)
  · rw [List.append_nil] at cut
    subst cut
    exact absurd (List.mem_append_right before (List.mem_cons_self ..)) (none x)

/-- In a plain flush with calls before it and a disposal after it, only the
attempt in which the flush is done disposes. -/
theorem completed_of_dispose {flush : List Bout}
    (flushing : ∀ c ∈ flush.flatMap Bout.calls, c.ofFlush = true) {dispose : Bool}
    {connection x y : Connection} {answer : Except EngineFault Unit} {b : Bout}
    (mem : b ∈ Bout.led [.fireTimer y answer] (flush.map (Bout.retire dispose connection)))
    (disposes : .dispose x ∈ b.calls) : b.progress = .completed := by
  obtain ⟨b', hb', progress, within⟩ := Bout.mem_led mem
  obtain ⟨b'', hb'', rfl⟩ := List.mem_map.1 hb'
  rw [Bout.retire_progress] at progress
  rw [← progress]
  by_contra incomplete
  rw [Bout.retire_of_incomplete dispose connection incomplete] at within
  rcases within _ disposes with fires | flushes
  · cases List.mem_singleton.1 fires
  · cases flushing _ (List.mem_flatMap.2 ⟨b'', hb'', flushes⟩)

/-- When the disposal comes, the flush is done. -/
theorem settled_at_disposal (rounds : Nat) (s : Surroundings σ) {f : EngineFlush} (w : σ)
    (meanwhiles : List (σ → σ)) (none : f.held = none) {dispose : Bool}
    {connection x : Connection} {before after : List Call} :
    let flush := bouts (EngineFlush.attempt rounds) s f w meanwhiles
    [.fireTimer connection (.ok ())] ++ flush.flatMap Bout.calls ++
        Bout.disposal dispose connection flush = before ++ .dispose x :: after →
      after = [] ∧ x = connection ∧ RanDry before ∧
        (s.TellsTruth f.connection → produced before = accepted before) := by
  intro flush cut
  have flushing : ∀ c ∈ flush.flatMap Bout.calls, c.ofFlush = true :=
    EngineFlush.bouts_ofFlush rounds s f w meanwhiles
  have earlier : ∀ y, .dispose y ∉ [.fireTimer connection (.ok ())] ++
      flush.flatMap Bout.calls := by
    intro y hy
    rcases List.mem_append.1 hy with hy | hy
    · cases List.mem_singleton.1 hy
    · cases flushing _ hy
  have ends := Bout.disposal_cases dispose connection flush
  obtain ⟨rfl, rfl, rfl, last⟩ := cut_at_disposal earlier (ends.imp_left And.left) cut
  have completed : .completed ∈ flush.map Bout.progress := by
    rcases ends with ⟨-, completed⟩ | never
    · exact completed
    · simp [never] at last
  obtain ⟨dry, settled⟩ := EngineFlush.bouts_completed rounds s f w meanwhiles completed
  rw [none] at settled
  exact ⟨rfl, rfl, dry.append _, settled⟩

/-- A timer command fires, then flushes, then disposes. Its first attempt fires
the timer, and it ends there if that fails. If not, attempt by attempt it makes
the calls of a plain flush of the same connection, attempted as often, and it
disposes the connection, if it is to, at the end of the attempt in which the
flush is done. So a disposal comes last, after the engine was found to have
nothing left, and all that it produced was accepted if it told the truth. -/
theorem timer_commands_fire_then_flush_then_dispose (s : Surroundings σ) (rounds : Nat)
    (connection : Connection) (channel : Channel) (dispose : Bool) (policy : Policy)
    (w : σ) (meanwhiles : List (σ → σ)) :
    let timer := bouts (TimerFlush.attempt rounds) s (.new connection channel dispose policy) w
      meanwhiles
    let calls := timer.flatMap Bout.calls
    (∀ e w₁, s.fireTimer connection w = (.error e, w₁) →
        timer = [⟨.failed (.engine e), [.fireTimer connection (.error e)]⟩]) ∧
      (∀ w₁, s.fireTimer connection w = (.ok (), w₁) →
        let flush := bouts (EngineFlush.attempt rounds) s
          { purpose := .send, connection, channel, policy } w₁ meanwhiles
        timer = Bout.led [.fireTimer connection (.ok ())]
            (flush.map (Bout.retire dispose connection)) ∧
          calls = [.fireTimer connection (.ok ())] ++ flush.flatMap Bout.calls ++
            Bout.disposal dispose connection flush) ∧
      firings calls = [connection] ∧
      (∀ b ∈ timer, ∀ x, .dispose x ∈ b.calls → b.progress = .completed) ∧
      ∀ before x after, calls = before ++ .dispose x :: after →
        after = [] ∧ x = connection ∧ RanDry before ∧
          (s.TellsTruth connection → produced before = accepted before) := by
  intro timer calls
  rcases answer : s.fireTimer connection w with ⟨e | _, w₁⟩
  · have htimer : timer = [⟨.failed (.engine e), [.fireTimer connection (.error e)]⟩] :=
      bouts_of_fireFailed answer
    have hcalls : calls = [.fireTimer connection (.error e)] := by simp [calls, htimer]
    have none : ∀ y, .dispose y ∉ calls := by simp [hcalls]
    refine ⟨?_, ?_, by rw [hcalls]; rfl, ?_, ?_⟩
    · intro e' w' h
      cases h
      exact htimer
    · intro w' h
      cases h
    · intro b hb x disposes
      exact absurd (List.mem_flatMap.2 ⟨b, hb, disposes⟩) (none x)
    · intro before x after cut
      rw [cut] at none
      exact absurd (List.mem_append_right before (List.mem_cons_self ..)) (none x)
  · let flush := bouts (EngineFlush.attempt rounds) s
      { purpose := .send, connection, channel, policy } w₁ meanwhiles
    have flushing : ∀ c ∈ flush.flatMap Bout.calls, c.ofFlush = true :=
      EngineFlush.bouts_ofFlush rounds s _ w₁ meanwhiles
    have htimer : timer = Bout.led [.fireTimer connection (.ok ())]
        (flush.map (Bout.retire dispose connection)) := bouts_of_rang answer
    have hcalls : calls = [.fireTimer connection (.ok ())] ++ flush.flatMap Bout.calls ++
        Bout.disposal dispose connection flush := by
      have some : flush.map (Bout.retire dispose connection) ≠ [] := by
        simpa using bouts_ne_nil
      simp only [calls, htimer, Bout.calls_led _ some, List.append_assoc]
      rw [calls_retire dispose connection]
    refine ⟨?_, ?_, ?_, ?_, ?_⟩
    · intro e w' h
      cases h
    · intro w' h
      cases h
      exact ⟨htimer, hcalls⟩
    · rw [hcalls, firings_append, firings_append, firings_of_flush flushing]
      rcases Bout.disposal_cases dispose connection flush with ⟨h, -⟩ | h <;> rw [h] <;> rfl
    · intro b hb x disposes
      exact completed_of_dispose flushing (htimer ▸ hb) disposes
    · intro before x after cut
      exact settled_at_disposal rounds s w₁ meanwhiles rfl (hcalls.symm.trans cut)

namespace Bench

/-- The second datagram is refused twice. -/
def halting : Bench × List Bool := ({ left := fun _ => [[1], [2]] }, [false, true, true])

def stuck : EngineFault := ⟨.timeout, "closed"⟩

def alarmed : Surroundings Bench := { workbench with fireTimer := fun _ w => (.error stuck, w) }

end Bench

/-- The flush takes three attempts, and the disposal comes with the third. With
a timer that fails there is one attempt, and no flush. -/
theorem timer_commands_fire_then_flush_then_dispose_on_the_workbench :
    let timer := bouts (TimerFlush.attempt 4) workbench.impatient
      (.new ⟨"right"⟩ ⟨"out"⟩ true .standard) Bench.halting [id, id]
    let flush := bouts (EngineFlush.attempt 4) workbench.impatient
      { purpose := .send, connection := ⟨"right"⟩, channel := ⟨"out"⟩, policy := .standard }
      Bench.halting [id, id]
    let calls := timer.flatMap Bout.calls
    (timer.map Bout.progress = [.refused, .refused, .completed] ∧
        timer = Bout.led [.fireTimer ⟨"right"⟩ (.ok ())]
          (flush.map (Bout.retire true ⟨"right"⟩))) ∧
      (∃ b ∈ timer, .dispose ⟨"right"⟩ ∈ b.calls ∧ b.progress = .completed) ∧
      (calls = calls.dropLast ++ [.dispose ⟨"right"⟩] ∧ RanDry calls.dropLast ∧
        workbench.impatient.TellsTruth ⟨"right"⟩ ∧
          produced calls.dropLast = accepted calls.dropLast) ∧
      bouts (TimerFlush.attempt 4) Bench.alarmed (.new ⟨"right"⟩ ⟨"out"⟩ true .standard) {}
          [id, id] =
        [⟨.failed (.engine Bench.stuck), [.fireTimer ⟨"right"⟩ (.error Bench.stuck)]⟩] := by
  intro timer flush calls
  obtain ⟨-, rang, -, disposed, cut⟩ := timer_commands_fire_then_flush_then_dispose
    workbench.impatient 4 ⟨"right"⟩ ⟨"out"⟩ true .standard Bench.halting [id, id]
  obtain ⟨failed, -⟩ := timer_commands_fire_then_flush_then_dispose
    Bench.alarmed 4 ⟨"right"⟩ ⟨"out"⟩ true .standard {} [id, id]
  have last : calls = calls.dropLast ++ [.dispose ⟨"right"⟩] := rfl
  have truthful := workbench_truthful.tellsTruth ⟨"right"⟩
  obtain ⟨-, -, dry, settled⟩ := cut _ _ _ last
  have third : timer.get ⟨2, by decide⟩ ∈ timer := List.get_mem ..
  have disposes : .dispose ⟨"right"⟩ ∈ (timer.get ⟨2, by decide⟩).calls := by decide
  exact ⟨⟨rfl, (rang _ rfl).1⟩, ⟨_, third, disposes, disposed _ third _ disposes⟩,
    ⟨last, dry, truthful, settled truthful⟩, failed _ _ rfl⟩

end Outbox
