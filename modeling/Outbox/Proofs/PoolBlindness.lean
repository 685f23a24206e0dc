-- A pool has no say in the traffic, if no engine looks at the capacity of a
-- buffer. Whatever buffers it lends, commands that are alike do the same with
-- the same engines and channels, attempt by attempt and request by request.
-- Only the buffers themselves differ, and the bytes that stood in them before
-- are never seen.
import Mathlib.Data.List.Forall2
import Outbox.Proofs.Lenders
import Outbox.Proofs.Workbench

namespace Outbox

variable {σ π₁ π₂ : Type} {s : Surroundings σ} {l₁ : Lender σ π₁} {l₂ : Lender σ π₂}

/-! ## Commands -/

/-- The same write, each with a buffer of its own. -/
def DatagramWrite.Alike (d e : DatagramWrite) : Prop :=
  ∃ held, Option.Rel Buffer.Alike d.held held ∧ e = { d with held }

theorem DatagramWrite.agree_attempt {d e : DatagramWrite} (de : d.Alike e) :
    Agree s l₁ l₂ (AlikeEnd Alike) d.attempt e.attempt := by
  have same := de
  obtain ⟨held, hheld, rfl⟩ := de
  unfold attempt
  generalize d.held = x at hheld
  cases hheld with
  | none => exact .pure ⟨rfl, same⟩
  | @some a b ab =>
    have finish : Agree s l₁ l₂ (AlikeEnd Alike) (d.finish a)
        ({ d with held := some b }.finish b) :=
      (Agree.release ab).bindEq fun _ => .pure ⟨rfl, none, .none, rfl⟩
    simp only [ab.isEmpty]
    split
    · exact finish
    · refine (Agree.send d.channel ab d.peer).bindEq fun answer => ?_
      rcases answer with e | _ | n
      · exact .pure ⟨rfl, same⟩
      · exact .pure ⟨rfl, same⟩
      · exact finish

namespace TimerFlush

/-- The same timer command, each with a flush of its own. -/
def Alike (t u : TimerFlush) : Prop := ∃ flush, t.flush.Alike flush ∧ u = { t with flush }

inductive AlikeFire : Except EngineFault TimerFlush → Except EngineFault TimerFlush → Prop where
  | failed (e : EngineFault) : AlikeFire (.error e) (.error e)
  | fired {t u : TimerFlush} (alike : t.Alike u) : AlikeFire (.ok t) (.ok u)

variable {t u : TimerFlush}

theorem alike_connection (tu : t.Alike u) : u.connection = t.connection := by
  obtain ⟨_, ⟨_, -, rfl⟩, rfl⟩ := tu
  rfl

theorem agree_fire (tu : t.Alike u) : Agree s l₁ l₂ AlikeFire t.fire u.fire := by
  have connection := alike_connection tu
  have same := tu
  obtain ⟨flush, alike, rfl⟩ := tu
  unfold fire
  rw [connection]
  split
  · exact .pure (.fired same)
  · refine (Agree.fireTimer t.connection).bindEq fun answer => ?_
    rcases answer with e | _
    · exact .pure (.failed e)
    · exact .pure (.fired ⟨flush, alike, rfl⟩)

theorem agree_retire (tu : t.Alike u) : Agree s l₁ l₂ Alike t.retire u.retire := by
  have connection := alike_connection tu
  have same := tu
  obtain ⟨flush, alike, rfl⟩ := tu
  unfold retire
  rw [connection]
  split
  · refine (Agree.noteRemote t.connection .disposing).bindEq fun _ => ?_
    refine (Agree.dispose t.connection).bindEq fun _ => ?_
    exact .pure ⟨flush, alike, rfl⟩
  · exact .pure same

theorem agree_attempt (blind : s.CapacityBlind) (rounds : Nat) (tu : t.Alike u) :
    Agree s l₁ l₂ (AlikeEnd Alike) (t.attempt rounds) (u.attempt rounds) := by
  refine (agree_fire tu).bind fun x y xy => ?_
  cases xy with
  | failed e => exact .pure ⟨rfl, tu⟩
  | @fired t u alike =>
    obtain ⟨flush, fg, rfl⟩ := alike
    refine (EngineFlush.agree_attempt blind rounds fg).bindEnd fun p f g fg => ?_
    have same : Alike { t with flush := f } { t with flush := g } := ⟨g, fg, rfl⟩
    cases p with
    | completed => exact (agree_retire same).bind fun _ _ alike => .pure ⟨rfl, alike⟩
    | _ => exact .pure ⟨rfl, same⟩

end TimerFlush

namespace Command

/-- The same command, each with a buffer of its own. -/
inductive Alike : Command → Command → Prop where
  | write {d e : DatagramWrite} (alike : d.Alike e) : Alike (.write d) (.write e)
  | flush {f g : EngineFlush} (alike : f.Alike g) : Alike (.flush f) (.flush g)
  | timer {t u : TimerFlush} (alike : t.Alike u) : Alike (.timer t) (.timer u)

variable {c c' : Command}

theorem Alike.kind (alike : c.Alike c') : c'.kind = c.kind := by
  cases alike with
  | write => rfl
  | flush alike =>
    obtain ⟨_, -, rfl⟩ := alike
    rfl
  | timer => rfl

theorem Alike.held (alike : c.Alike c') : Option.Rel Buffer.Alike c.held c'.held := by
  cases alike with
  | write alike =>
    obtain ⟨_, hheld, rfl⟩ := alike
    exact hheld
  | flush alike =>
    obtain ⟨_, hheld, rfl⟩ := alike
    exact hheld
  | timer alike =>
    obtain ⟨_, ⟨_, hheld, rfl⟩, rfl⟩ := alike
    exact hheld

theorem agree_resume (blind : s.CapacityBlind) (rounds : Nat) (alike : c.Alike c') :
    Agree s l₁ l₂ (AlikeEnd Alike) (c.resume rounds) (c'.resume rounds) := by
  cases alike with
  | write alike =>
    exact (DatagramWrite.agree_attempt alike).bindEnd fun _ _ _ h => .pure ⟨rfl, .write h⟩
  | flush alike =>
    refine (EngineFlush.agree_attempt blind rounds alike).bindEnd fun _ _ _ h => ?_
    exact .pure ⟨rfl, .flush h⟩
  | timer alike =>
    refine (TimerFlush.agree_attempt blind rounds alike).bindEnd fun _ _ _ h => ?_
    exact .pure ⟨rfl, .timer h⟩

theorem agree_noteProgress (alike : c.Alike c') (p : Progress) :
    Agree s l₁ l₂ Eq (c.noteProgress p) (c'.noteProgress p) := by
  unfold noteProgress
  rw [alike.kind]
  cases p with
  | completed => exact .note _
  | refused => exact .note _
  | failed e => exact .pure rfl
  | unfinished => exact .pure rfl

theorem agree_attempt (blind : s.CapacityBlind) (rounds : Nat) (alike : c.Alike c') :
    Agree s l₁ l₂ (AlikeEnd Alike) (c.attempt rounds) (c'.attempt rounds) := by
  unfold attempt
  rw [alike.kind]
  refine (Agree.note _).bindEq fun _ => ?_
  refine (agree_resume blind rounds alike).bindEnd fun p c c' alike => ?_
  exact (agree_noteProgress alike p).bindEq fun _ => .pure ⟨rfl, alike⟩

theorem agree_abandon (alike : c.Alike c') : Agree s l₁ l₂ Eq c.abandon c'.abandon := by
  have held := alike.held
  unfold abandon
  rw [alike.kind]
  refine (Agree.note _).bindEq fun _ => ?_
  generalize c.held = x at held
  generalize c'.held = y at held
  cases held with
  | some ab => exact .release ab
  | none => exact .pure rfl

end Command

/-! ## Backlogs -/

namespace Backlog

/-- The same backlog, but for the buffers. -/
structure Alike (b b' : Backlog) : Prop where
  policy : b.policy = b'.policy
  waiting : List.Forall₂ Command.Alike b.waiting b'.waiting

/-- The same request, but for the capacity of its buffer. -/
inductive Request.Alike : Request → Request → Prop where
  | write {channel : Channel} {peer : Address} {a b : Buffer} (alike : a.Alike b) :
      Alike (.write channel a peer) (.write channel b peer)
  | flush (connection : Connection) (channel : Channel) :
      Alike (.flush connection channel) (.flush connection channel)
  | timer (connection : Connection) (channel : Channel) (dispose : Bool) :
      Alike (.timer connection channel dispose) (.timer connection channel dispose)
  | drain : Alike .drain .drain

variable {b b' : Backlog} {c c' : Command}

theorem Alike.enqueue (bb : b.Alike b') (cc : c.Alike c') :
    Alike { b with waiting := b.waiting ++ [c] } { b' with waiting := b'.waiting ++ [c'] } :=
  ⟨bb.policy, List.rel_append bb.waiting (.cons cc .nil)⟩

theorem agree_submit (blind : s.CapacityBlind) (rounds : Nat) (bb : b.Alike b')
    (cc : c.Alike c') :
    Agree s l₁ l₂ (AlikeEnd Alike) (b.submit rounds c) (b'.submit rounds c') := by
  refine (Command.agree_attempt blind rounds cc).bindEnd fun p c c' cc => ?_
  cases p with
  | completed => exact .pure ⟨rfl, bb⟩
  | failed e => exact (Command.agree_abandon cc).bindEq fun _ => .pure ⟨rfl, bb⟩
  | refused => exact .pure ⟨rfl, bb.enqueue cc⟩
  | unfinished => exact .pure ⟨rfl, bb.enqueue cc⟩

theorem agree_resumeAll (blind : s.CapacityBlind) (rounds : Nat) {l l' : List Command}
    (ll : List.Forall₂ Command.Alike l l') :
    Agree s l₁ l₂ (AlikeEnd (List.Forall₂ Command.Alike)) (resumeAll rounds l)
      (resumeAll rounds l') := by
  induction ll with
  | nil => exact .pure ⟨rfl, .nil⟩
  | cons cc behind ih =>
    refine (Command.agree_attempt blind rounds cc).bindEnd fun p c c' cc => ?_
    cases p with
    | completed => exact ih
    | failed e => exact (Command.agree_abandon cc).bindEq fun _ => .pure ⟨rfl, behind⟩
    | refused => exact .pure ⟨rfl, .cons cc behind⟩
    | unfinished => exact .pure ⟨rfl, .cons cc behind⟩

theorem agree_drain (blind : s.CapacityBlind) (rounds : Nat) (bb : b.Alike b') :
    Agree s l₁ l₂ (AlikeEnd Alike) (b.drain rounds) (b'.drain rounds) := by
  have size : b.size = b'.size := bb.waiting.length_eq
  have empty : b.isEmpty = b'.isEmpty := by
    rw [Bool.eq_iff_iff]
    simp only [isEmpty, List.isEmpty_iff_length_eq_zero]
    exact Eq.congr_left size
  unfold drain
  rw [size, empty]
  split
  · exact .pure ⟨rfl, bb⟩
  · refine (Agree.note _).bindEq fun _ => ?_
    refine (agree_resumeAll blind rounds bb.waiting).bindEnd fun p l l' ll => ?_
    exact .pure ⟨rfl, bb.policy, ll⟩

theorem agree_perform (blind : s.CapacityBlind) (rounds : Nat) (bb : b.Alike b') {r r' : Request}
    (rr : r.Alike r') :
    Agree s l₁ l₂ (AlikeEnd Alike) (b.perform rounds r) (b'.perform rounds r') := by
  cases rr with
  | @write channel peer a a' alike =>
    have length : a.length = a'.length := congrArg List.length alike
    simp only [perform, submitWrite, length]
    refine (Agree.note _).bindEq fun _ => ?_
    exact agree_submit blind rounds bb (.write ⟨some a', .some alike, rfl⟩)
  | flush connection channel =>
    refine (Agree.noteRemote connection .submitFlush).bindEq fun _ => ?_
    refine agree_submit blind rounds bb (.flush ⟨none, .none, ?_⟩)
    rw [bb.policy]
  | timer connection channel dispose =>
    refine (Agree.noteRemote connection (.submitTimer · dispose)).bindEq fun _ => ?_
    refine agree_submit blind rounds bb (.timer ⟨_, ⟨none, .none, rfl⟩, ?_⟩)
    rw [bb.policy]
    rfl
  | drain => exact agree_drain blind rounds bb

theorem agree_performAll (blind : s.CapacityBlind) (rounds : Nat) (bb : b.Alike b')
    {requests requests' : List Request} (rr : List.Forall₂ Request.Alike requests requests') :
    Agree s l₁ l₂ (fun x y => x.1 = y.1 ∧ x.2.Alike y.2) (b.performAll rounds requests)
      (b'.performAll rounds requests') := by
  induction rr generalizing b b' with
  | nil => exact .pure ⟨rfl, bb⟩
  | cons first later ih =>
    refine (agree_perform blind rounds bb first).bindEnd fun p b b' bb => ?_
    refine (ih bb).bind fun x y xy => ?_
    exact .pure ⟨congrArg (p :: ·) xy.1, xy.2⟩

end Backlog

/-! ## The law -/

/-- A call on the pool. -/
def Call.ofPool : Call → Bool
  | .acquire .. | .release _ => true
  | _ => false

/-- The calls on engines and channels. Of a buffer that an engine is handed, only
the contents are told. -/
def traffic (calls : List Call) : List Call := (calls.filter fun c => !c.ofPool).map Call.bare

theorem traffic_bare (calls : List Call) : traffic (calls.map Call.bare) = traffic calls := by
  have kept : ∀ c : Call, (!c.bare.ofPool) = !c.ofPool := fun c => by cases c <;> rfl
  have twice : ∀ c : Call, c.bare.bare = c.bare := fun c => by cases c <;> rfl
  calc traffic (calls.map Call.bare)
    _ = ((calls.filter fun c => !c.bare.ofPool).map Call.bare).map Call.bare :=
      congrArg (List.map Call.bare) List.filter_map
    _ = (calls.filter fun c => !c.ofPool).map fun c => c.bare.bare := by
      simp only [kept, List.map_map, Function.comp_def]
    _ = traffic calls := by simp only [twice, traffic]

/-- A pool has no say in the traffic. Take the same engines and channels, with
engines that do not look at the capacity of a buffer, any two lenders of
buffers, and requests that differ at most in the capacities of their buffers.
Then all requests come to the same ends, and the same commands wait. The calls
on engines and channels are the same, with the same answers, and the pools are
asked for the same and get the same contents back. The same notes are left, and
the same world. -/
theorem pools_have_no_say_in_the_traffic (s : Surroundings σ) (blind : s.CapacityBlind)
    (l₁ : Lender σ π₁) (l₂ : Lender σ π₂) (rounds : Nat) (policy : Policy)
    {requests requests' : List Backlog.Request}
    (alike : List.Forall₂ Backlog.Request.Alike requests requests') (w : σ) (x : π₁) (y : π₂) :
    let run := ({ policy } : Backlog).performAll rounds requests (s.lentBy l₁) (w, x)
    let run' := ({ policy } : Backlog).performAll rounds requests' (s.lentBy l₂) (w, y)
    run.value.1 = run'.value.1 ∧
      (run.value.2.size = run'.value.2.size ∧
        List.Forall₂ Command.Alike run.value.2.waiting run'.value.2.waiting) ∧
      traffic run.trace.calls = traffic run'.trace.calls ∧
      run.trace.calls.map Call.bare = run'.trace.calls.map Call.bare ∧
      run.trace.notes = run'.trace.notes ∧ run.world.1 = run'.world.1 := by
  intro run run'
  have start : ({ policy } : Backlog).Alike { policy } := ⟨rfl, .nil⟩
  obtain ⟨⟨progresses, left⟩, trace, world⟩ :=
    Backlog.agree_performAll blind rounds start alike (w, x) (w, y) rfl
  have calls : run.trace.calls.map Call.bare = run'.trace.calls.map Call.bare := by
    rw [← Trace.calls_bare, ← Trace.calls_bare]
    exact congrArg Trace.calls trace
  have notes : run.trace.notes = run'.trace.notes := by
    rw [← Trace.notes_bare, ← Trace.notes_bare run'.trace]
    exact congrArg Trace.notes trace
  refine ⟨progresses, ⟨left.waiting.length_eq, left.waiting⟩, ?_, calls, notes, world⟩
  rw [← traffic_bare, calls, traffic_bare]

namespace Bench

/-- A lender of new buffers. -/
def plain : Lender (Bench × List Bool) Unit where
  lend least _ _ x := (.withCapacity least, x)
  takeBack _ _ x := x

/-- A lender of what it got back last, with all that still stands in it. -/
def untidy : Lender (Bench × List Bool) (List Buffer) where
  lend _ _ _ kept := (kept.headD ((Buffer.withCapacity 4).append [255]), kept.tail)
  takeBack b _ kept := b :: kept

/-- The chores, with more room in the buffer of the write. -/
def roomyChores : List Backlog.Request :=
  [.write ⟨"out"⟩ ((Buffer.withCapacity 99).append [9]) ⟨"peer"⟩, .flush ⟨"left"⟩ ⟨"out"⟩,
    .timer ⟨"right"⟩ ⟨"out"⟩ true, .drain]

end Bench

theorem roomyChores_alike :
    List.Forall₂ Backlog.Request.Alike Bench.chores Bench.roomyChores :=
  .cons (.write rfl) (.cons (.flush _ _) (.cons (.timer _ _ _) (.cons .drain .nil)))

/-- The lenders lend different buffers, and the traffic is the same. -/
theorem pools_have_no_say_in_the_traffic_on_the_workbench :
    let run := ({} : Backlog).performAll 4 Bench.chores
      (workbench.impatient.lentBy Bench.plain) (Bench.busy, ())
    let run' := ({} : Backlog).performAll 4 Bench.roomyChores
      (workbench.impatient.lentBy Bench.untidy) (Bench.busy, [])
    workbench.impatient.CapacityBlind ∧
      List.Forall₂ Backlog.Request.Alike Bench.chores Bench.roomyChores ∧
      run.trace.calls ≠ run'.trace.calls ∧
      run.value.1 = run'.value.1 ∧ run.value.2.size = run'.value.2.size ∧
      traffic run.trace.calls = traffic run'.trace.calls ∧
      run.trace.calls.map Call.bare = run'.trace.calls.map Call.bare := by
  intro run run'
  have blind := impatient_blind workbench_blind
  obtain ⟨progresses, ⟨size, -⟩, traffic, bare, -⟩ := pools_have_no_say_in_the_traffic
    workbench.impatient blind Bench.plain Bench.untidy 4 .standard roomyChores_alike Bench.busy
    () []
  exact ⟨blind, roomyChores_alike, by decide, progresses, size, traffic, bare⟩

end Outbox
