-- Attempts near and far. An attempt that is put off near is one that goes on
-- far: with enough rounds it passes by the very command that waits near. So
-- however often a command is put off, its attempts together do what a single
-- attempt does where nothing is refused.
import Outbox.Proofs.Mirrors

namespace Outbox

variable {σ₁ σ₂ τ : Type}

/-! ## Attempts near and far -/

section Attempts

variable {σ P : Type}

/-- With enough rounds, an attempt at `q` passes by `q'`, and has left the
trace `u` by then. -/
def Passes (go : Nat → P → σ → Ran σ (Progress × P)) (q : P) (v : σ) (u : Trace) (q' : P)
    (v' : σ) : Prop :=
  ∃ k, ∀ n, go (k + n + 1) q v = (go (n + 1) q' v').after u

variable {go : Nat → P → σ → Ran σ (Progress × P)} {q q' q'' : P} {v v' v'' : σ} {u u' : Trace}

theorem passes_refl (q : P) (v : σ) : Passes go q v [] q v :=
  ⟨0, fun n => by rw [after_nil, Nat.zero_add]⟩

theorem passes_trans (h : Passes go q v u q' v') (h' : Passes go q' v' u' q'' v'') :
    Passes go q v (u ++ u') q'' v'' := by
  obtain ⟨k, hk⟩ := h
  obtain ⟨k', hk'⟩ := h'
  refine ⟨k + k', fun n => ?_⟩
  rw [Nat.add_assoc k k' n, hk, hk', after_after]

/-- An attempt that comes to its end does so from wherever it passes by. -/
theorem ends_of_passes {rounds : Nat} {y : Ran σ (Progress × P)} (pos : 0 < rounds)
    (h : Passes go q v u q' v') (ends : ∀ n ≥ rounds, go n q v = y) :
    ∃ y', y = y'.after u ∧ ∀ n ≥ rounds, go n q' v' = y' := by
  obtain ⟨k, hk⟩ := h
  have hy : ∀ n ≥ rounds, y = (go n q' v').after u := fun n hn => by
    obtain ⟨n, rfl⟩ : ∃ i, n = i + 1 := ⟨n - 1, by omega⟩
    rw [← hk, ends (k + n + 1) (by omega)]
  refine ⟨go rounds q' v', hy rounds (Nat.le_refl _), fun n hn => ?_⟩
  have h1 := hy n hn
  rw [hy rounds (Nat.le_refl _)] at h1
  simp only [Ran.after, Ran.mk.injEq, List.append_cancel_left_eq] at h1
  rcases hx : go n q' v' with ⟨_, _, _⟩
  rcases hz : go rounds q' v' with ⟨_, _, _⟩
  simp_all

/-- What an attempt near says of the attempts far. If it is put off, they pass
by the same command. If it ends, they end in the same way, and no later. -/
structure Mirror.Follows (m : Mirror σ₁ σ₂ τ) (same : P → P → Prop)
    (go : Nat → P → σ₂ → Ran σ₂ (Progress × P)) (rounds : Nat) (x : Ran σ₁ (Progress × P)) (q : P)
    (v : σ₂) : Prop where
  putOff : x.value.1.waits = true → ∃ u q' v', Passes go q v u q' v' ∧ same x.value.2 q' ∧
    m.related x.world v' ∧ m.told x.trace.calls = m.told u.calls
  unfinished : x.value.1 = .unfinished → (go rounds q v).value.1 = .unfinished
  ended : x.value.1.waits = false → ∃ y, (∀ n ≥ rounds, go n q v = y) ∧
    m.Matches (fun a b => a.1 = b.1 ∧ same a.2 b.2) x y

namespace Mirror.Follows

variable {m : Mirror σ₁ σ₂ τ} {same : P → P → Prop} {far : Nat → P → σ₂ → Ran σ₂ (Progress × P)}
variable {rounds : Nat} {x : Ran σ₁ (Progress × P)} {w₂ w₂' : σ₂}

theorem of_ended {y : Ran σ₂ (Progress × P)} (ended : x.value.1.waits = false)
    (goes : ∀ n ≥ rounds, far n q w₂ = y)
    (xy : m.Matches (fun a b => a.1 = b.1 ∧ same a.2 b.2) x y) :
    m.Follows same far rounds x q w₂ := by
  constructor
  case putOff =>
    intro waits
    simp [ended] at waits
  case unfinished =>
    intro unfinished
    simp [unfinished, Progress.waits] at ended
  case ended => exact fun _ => ⟨y, goes, xy⟩

theorem of_refused (refused : x.value.1 = .refused) (passes : Passes far q w₂ u q' w₂')
    (hsame : same x.value.2 q') (hw : m.related x.world w₂')
    (ht : m.told x.trace.calls = m.told u.calls) : m.Follows same far rounds x q w₂ := by
  constructor
  case putOff => exact fun _ => ⟨u, q', w₂', passes, hsame, hw, ht⟩
  case unfinished =>
    intro unfinished
    simp [refused] at unfinished
  case ended =>
    intro ended
    simp [refused, Progress.waits] at ended

/-- Both went one round further. -/
theorem of_round {t t' : Trace} (h : m.Follows same far rounds x q' w₂')
    (goes : ∀ n, far (n + 1) q w₂ = (far n q' w₂').after t')
    (ht : m.told t.calls = m.told t'.calls) :
    m.Follows same far (rounds + 1) (x.after t) q w₂ := by
  constructor
  case putOff =>
    intro waits
    obtain ⟨u, q'', v'', ⟨k, hk⟩, hq, hw, hu⟩ := h.putOff waits
    refine ⟨t' ++ u, q'', v'', ⟨k + 1, fun n => ?_⟩, hq, hw, ?_⟩
    · have hn : k + 1 + n + 1 = (k + n + 1) + 1 := by omega
      rw [hn, goes, hk, after_after]
    · simp [ht, hu]
  case unfinished =>
    intro unfinished
    rw [goes, value_after]
    exact h.unfinished unfinished
  case ended =>
    intro ended
    obtain ⟨y, hy, hm⟩ := h.ended ended
    refine ⟨y.after t', fun n hn => ?_, hm.value, hm.world, ?_⟩
    · obtain ⟨n, rfl⟩ : ∃ i, n = i + 1 := ⟨n - 1, by omega⟩
      rw [goes, hy n (by omega)]
    · simp [ht, hm.told]

end Mirror.Follows

end Attempts

section Flushes

open EngineFlush

variable {m : Mirror σ₁ σ₂ τ}

/-- If each round at `f` goes on as one at `g`, then so does each attempt. -/
theorem EngineFlush.attempt_of_rounds {σ : Type} {s : Surroundings σ} {f g : EngineFlush}
    {w v : σ} {u : Trace} (h : ∀ y, Rounded s g v y → Rounded s f w (y.after u)) (n : Nat) :
    f.attempt (n + 1) s w = (g.attempt (n + 1) s v).after u := by
  have hg := rounded_round s g v
  have hf := h _ hg
  rcases hv : g.round s v with ⟨g' | ⟨p, g'⟩, t, v'⟩ <;> rw [hv] at hg hf
  · rw [attempt_again n hg, attempt_again n hf, after_after]
  · rw [attempt_stop n hg, attempt_stop n hf]
    rfl

theorem EngineFlush.attempt_follows (m : Mirror σ₁ σ₂ τ) (rounds : Nat) {f g : EngineFlush}
    {w : σ₁} {v : σ₂} (same : m.AlikeFlush f g) (wv : m.related w v) (hc : m.about f.connection) :
    m.Follows m.AlikeFlush (fun n f v => f.attempt n m.far v) rounds (f.attempt rounds m.near w) g
      v := by
  induction rounds generalizing f g w v with
  | zero =>
    refine ⟨fun _ => ⟨[], g, v, passes_refl g v, same, wv, rfl⟩, fun _ => rfl, fun h => ?_⟩
    simp [attempt_zero, Progress.waits] at h
  | succ rounds ih =>
    have hx := rounded_round m.near f w
    have hkeep : (f.round m.near w).value.flush.connection = f.connection :=
      (rounded_course hx).2.2.1
    rcases hv : f.round m.near w with ⟨turn, t, w'⟩
    rw [hv] at hx hkeep
    rcases Mirror.rounded_matches same wv hc hx with
      ⟨⟨turn', t', v'⟩, hy, hm⟩ | ⟨a, b, u, v', hr, hgo⟩
    · cases hm.value with
      | @again f' g' alike =>
        rw [attempt_again rounds hx]
        exact (ih alike hm.world (hkeep ▸ hc)).of_round (fun n => attempt_again n hy) hm.told
      | @stop f' g' p ended alike =>
        rw [attempt_stop rounds hx]
        have goes : ∀ n ≥ rounds + 1, g.attempt n m.far v = ⟨(p, g'), t', v'⟩ := fun n hn => by
          obtain ⟨n, rfl⟩ : ∃ i, n = i + 1 := ⟨n - 1, by omega⟩
          exact attempt_stop n hy
        exact .of_ended ended goes ⟨⟨rfl, alike⟩, hm.world, hm.told⟩
    · have hval : turn = _ := hr.value
      subst hval
      rw [attempt_stop rounds hx]
      have passes : Passes (fun n f v => f.attempt n m.far v) g v u { g with held := some b } v' :=
        ⟨0, fun n => by
          rw [Nat.zero_add]
          exact attempt_of_rounds hgo n⟩
      refine .of_refused rfl passes ?_ hr.world hr.told
      obtain ⟨held, -, rfl⟩ := same
      exact Mirror.alikeFlush_some hr.alike

end Flushes

/-! ## Timer commands -/

namespace TimerFlush

variable {σ : Type} {s : Surroundings σ} {t : TimerFlush} {w : σ}

theorem retire_apply (s : Surroundings σ) (t : TimerFlush) (w : σ) :
    t.retire s w =
      if t.dispose = true ∧ t.disposed = false then
        ⟨{ t with disposed := true },
          [.note (.disposing (s.peerAddress t.connection w)), .call (.dispose t.connection)],
          s.dispose t.connection w⟩
      else ⟨t, [], w⟩ := by
  unfold retire
  split
  · simp [Act.noteRemote, Act.dispose]
  · rfl

/-- What a timer command makes of what its flush did. -/
def conclude (s : Surroundings σ) (t : TimerFlush) (x : Ran σ (Progress × EngineFlush)) :
    Ran σ (Progress × TimerFlush) :=
  let t := { t with flush := x.value.2 }
  match x.value.1 with
  | .completed =>
    let retired := t.retire s x.world
    ⟨(.completed, retired.value), x.trace ++ retired.trace, retired.world⟩
  | .refused => ⟨(.refused, t), x.trace, x.world⟩
  | .failed e => ⟨(.failed e, t), x.trace, x.world⟩
  | .unfinished => ⟨(.unfinished, t), x.trace, x.world⟩

theorem attempt_of_fired {fired : Ran σ TimerFlush} (fire : Fired s t w fired) (n : Nat) :
    t.attempt n s w =
      (fired.value.conclude s (fired.value.flush.attempt n s fired.world)).after fired.trace := by
  simp only [attempt, Act.bind_apply, fire_of_fired fire, conclude, Ran.after]
  rcases fired.value.flush.attempt n s fired.world with ⟨⟨_ | _ | _ | _, g⟩, u, w'⟩ <;> simp

theorem conclude_after (u : Trace) (x : Ran σ (Progress × EngineFlush)) :
    t.conclude s (x.after u) = (t.conclude s x).after u := by
  unfold conclude
  rcases x with ⟨⟨_ | _ | _ | _, g⟩, u', w'⟩ <;> simp [Ran.after]

theorem conclude_waits {x : Ran σ (Progress × EngineFlush)} (h : x.value.1 ≠ .completed) :
    t.conclude s x = ⟨(x.value.1, { t with flush := x.value.2 }), x.trace, x.world⟩ := by
  unfold conclude
  rcases x with ⟨⟨_ | _ | _ | _, g⟩, u', w'⟩ <;> simp_all

@[simp] theorem conclude_progress (x : Ran σ (Progress × EngineFlush)) :
    (t.conclude s x).value.1 = x.value.1 := by
  unfold conclude
  rcases x with ⟨⟨_ | _ | _ | _, g⟩, u', w'⟩ <;> rfl

theorem fired_of_fired {fired : Ran σ TimerFlush} (h : Fired s t w fired) :
    fired.value.fired = true := by
  cases h with
  | before fired => exact fired
  | now => rfl

end TimerFlush

namespace Mirror

variable (m : Mirror σ₁ σ₂ τ)

/-- The same timer command near and far, each with a buffer of its own. -/
def AlikeTimer (t t' : TimerFlush) : Prop :=
  ∃ flush, m.AlikeFlush t.flush flush ∧ t' = { t with flush }

/-- The same write near and far, each with a buffer of its own. -/
def AlikeWrite (d d' : DatagramWrite) : Prop :=
  ∃ held, Option.Rel m.alike d.held held ∧ d' = { d with held }

/-- The same command near and far, each with a buffer of its own. -/
inductive AlikeCommand : Command → Command → Prop where
  | write {d d' : DatagramWrite} (alike : m.AlikeWrite d d') : AlikeCommand (.write d) (.write d')
  | flush {f g : EngineFlush} (alike : m.AlikeFlush f g) : AlikeCommand (.flush f) (.flush g)
  | timer {t t' : TimerFlush} (alike : m.AlikeTimer t t') : AlikeCommand (.timer t) (.timer t')

variable {m}

theorem alikeWrite_some {d d' : DatagramWrite} {a : Buffer} (same : m.AlikeWrite d d')
    (held : d.held = some a) : ∃ b, m.alike a b ∧ d' = { d with held := some b } := by
  obtain ⟨held', hheld, rfl⟩ := same
  rw [held] at hheld
  cases hheld with
  | some ab => exact ⟨_, ab, rfl⟩

theorem alikeWrite_none {d d' : DatagramWrite} (same : m.AlikeWrite d d') (done : d.held = none) :
    d'.held = none := by
  obtain ⟨held', hheld, rfl⟩ := same
  rw [done] at hheld
  cases hheld
  rfl

theorem fired_matches {t t' : TimerFlush} {w : σ₁} {v : σ₂} {x : Ran σ₁ TimerFlush}
    (same : m.AlikeTimer t t') (wv : m.related w v) (hc : m.about t.connection)
    (h : TimerFlush.Fired m.near t w x) :
    ∃ y, TimerFlush.Fired m.far t' v y ∧ m.Matches m.AlikeTimer x y := by
  obtain ⟨flush, hf, rfl⟩ := same
  have hconn : flush.connection = t.flush.connection := by
    obtain ⟨held, -, rfl⟩ := hf
    rfl
  cases h with
  | before fired => exact ⟨_, .before fired, ⟨flush, hf, rfl⟩, wv, rfl⟩
  | now unfired rang =>
    obtain ⟨v', far, hw⟩ := far_of_near (m.fireTimer wv hc) rang
    unfold TimerFlush.connection at far
    rw [← hconn] at far
    refine ⟨_, .now unfired far, ⟨flush, hf, rfl⟩, hw, ?_⟩
    simp [TimerFlush.connection, hconn]

theorem conclude_matches {t t' : TimerFlush} {x : Ran σ₁ (Progress × EngineFlush)}
    {y : Ran σ₂ (Progress × EngineFlush)} (same : m.AlikeTimer t t')
    (xy : m.Matches (fun a b => a.1 = b.1 ∧ m.AlikeFlush a.2 b.2) x y)
    (hc : m.about x.value.2.connection) :
    m.Matches (fun a b => a.1 = b.1 ∧ m.AlikeTimer a.2 b.2) (t.conclude m.near x)
      (t'.conclude m.far y) := by
  obtain ⟨_, -, rfl⟩ := same
  obtain ⟨⟨p, f⟩, u, w⟩ := x
  obtain ⟨⟨p', g⟩, u', v⟩ := y
  obtain ⟨⟨hp, hfg⟩, hw, ht⟩ := xy
  simp only at hp hfg hw ht hc
  subst hp
  cases p with
  | completed =>
    have hconn : g.connection = f.connection := by
      obtain ⟨held, -, rfl⟩ := hfg
      rfl
    simp only [TimerFlush.conclude, TimerFlush.retire_apply, TimerFlush.connection, hconn]
    by_cases due : t.dispose = true ∧ t.disposed = false
    · simp only [due, and_self, if_true]
      refine ⟨⟨rfl, g, hfg, rfl⟩, m.dispose hw hc, ?_⟩
      simp [ht]
    · simp only [due, if_false]
      exact ⟨⟨rfl, g, hfg, rfl⟩, hw, by simp [ht]⟩
  | _ => exact ⟨⟨rfl, g, hfg, rfl⟩, hw, ht⟩

end Mirror

namespace TimerFlush

variable {m : Mirror σ₁ σ₂ τ} {t t' : TimerFlush} {w : σ₁} {v : σ₂}

/-- Once the timer fired, an attempt that passes by another flush passes by
the command that holds this flush. -/
theorem passes_of_fired {s : Surroundings σ₂} {fired : Ran σ₂ TimerFlush} {u : Trace}
    {g : EngineFlush} {v' : σ₂} (fire : Fired s t v fired)
    (passes : Passes (fun n f v => f.attempt n s v) fired.value.flush fired.world u g v') :
    Passes (fun n t v => t.attempt n s v) t v (fired.trace ++ u) { fired.value with flush := g }
      v' := by
  obtain ⟨k, hk⟩ := passes
  refine ⟨k, fun n => ?_⟩
  have again : Fired s { fired.value with flush := g } v' ⟨_, [], v'⟩ :=
    .before (fired_of_fired fire)
  simp only at hk ⊢
  rw [attempt_of_fired fire, attempt_of_fired again, hk, conclude_after, after_nil, after_after]
  rfl

theorem follows_of_fired (rounds : Nat) {x : Ran σ₁ TimerFlush} (same : m.AlikeTimer t t')
    (wv : m.related w v) (hc : m.about t.connection) (fire : Fired m.near t w x) :
    m.Follows m.AlikeTimer (fun n t v => t.attempt n m.far v) rounds (t.attempt rounds m.near w) t'
      v := by
  obtain ⟨⟨_, u, v'⟩, hfar, ⟨flush, hflush, rfl⟩, hw, ht⟩ := Mirror.fired_matches same wv hc fire
  have hxc : x.value.flush.connection = t.connection := by cases fire <;> rfl
  have hf := EngineFlush.attempt_follows m rounds hflush hw (hxc ▸ hc)
  have kept := (EngineFlush.attempt_course rounds x.value.flush m.near x.world).2.2.1
  rw [attempt_of_fired fire rounds]
  generalize x.value.flush.attempt rounds m.near x.world = z at hf kept
  constructor
  case putOff =>
    intro waits
    rw [value_after, conclude_progress] at waits
    obtain ⟨u', g, v'', passes, hg, hw', ht'⟩ := hf.putOff waits
    have hz : z.value.1 ≠ .completed := fun h => by simp [h, Progress.waits] at waits
    rw [conclude_waits hz]
    refine ⟨u ++ u', _, v'', passes_of_fired hfar passes, ⟨g, hg, rfl⟩, hw', ?_⟩
    simp [ht, ht']
  case unfinished =>
    intro unfinished
    rw [value_after, conclude_progress] at unfinished
    simp only [attempt_of_fired hfar, value_after, conclude_progress]
    exact hf.unfinished unfinished
  case ended =>
    intro ended
    rw [value_after, conclude_progress] at ended
    obtain ⟨y, hy, hm⟩ := hf.ended ended
    have hcon := Mirror.conclude_matches ⟨flush, hflush, rfl⟩ hm (by rw [kept, hxc]; exact hc)
    have goes : ∀ n ≥ rounds, t'.attempt n m.far v =
        (conclude m.far { x.value with flush } y).after u := fun n hn => by
      rw [attempt_of_fired hfar]
      exact congrArg (fun y => (conclude m.far { x.value with flush } y).after u) (hy n hn)
    refine ⟨_, goes, hcon.value, hcon.world, ?_⟩
    simp [ht, hcon.told]

theorem follows_of_fireFailed (rounds : Nat) {e : EngineFault} {w' : σ₁} (same : m.AlikeTimer t t')
    (wv : m.related w v) (hc : m.about t.connection) (unfired : t.fired = false)
    (rang : m.near.fireTimer t.connection w = (.error e, w')) :
    m.Follows m.AlikeTimer (fun n t v => t.attempt n m.far v) rounds (t.attempt rounds m.near w) t'
      v := by
  obtain ⟨flush, hflush, rfl⟩ := same
  have hconn : flush.connection = t.flush.connection := by
    obtain ⟨held, -, rfl⟩ := hflush
    rfl
  obtain ⟨v', far, hw⟩ := Mirror.far_of_near (m.fireTimer wv hc) rang
  unfold connection at far
  rw [← hconn] at far
  have hx : t.attempt rounds m.near w = _ := attempted_iff.1 (.fireFailed unfired rang)
  rw [hx]
  refine .of_ended rfl (fun n _ => attempted_iff.1 (.fireFailed unfired far)) ?_
  refine ⟨⟨rfl, flush, hflush, rfl⟩, hw, ?_⟩
  simp [TimerFlush.connection, hconn]

theorem attempt_follows (m : Mirror σ₁ σ₂ τ) (rounds : Nat) (same : m.AlikeTimer t t')
    (wv : m.related w v) (hc : m.about t.connection) :
    m.Follows m.AlikeTimer (fun n t v => t.attempt n m.far v) rounds (t.attempt rounds m.near w) t'
      v := by
  rcases fired_or_failed m.near t w with ⟨x, fire⟩ | ⟨e, w', unfired, rang⟩
  · exact follows_of_fired rounds same wv hc fire
  · exact follows_of_fireFailed rounds same wv hc unfired rang

end TimerFlush

/-! ## Commands -/

theorem DatagramWrite.attempt_follows (m : Mirror σ₁ σ₂ τ) (rounds : Nat) {d d' : DatagramWrite}
    {w : σ₁} {v : σ₂} (same : m.AlikeWrite d d') (wv : m.related w v) :
    m.Follows m.AlikeWrite (fun _ d v => d.attempt m.far v) rounds (d.attempt m.near w) d' v := by
  have hx := attempted_iff.2 (rfl : d.attempt m.near w = _)
  generalize d.attempt m.near w = x at hx
  cases hx with
  | done done =>
    have done := Mirror.alikeWrite_none same done
    refine .of_ended rfl (fun _ _ => attempted_iff.1 (.done done)) ?_
    exact ⟨⟨rfl, same⟩, wv, rfl⟩
  | empty held empty =>
    obtain ⟨b, ab, rfl⟩ := Mirror.alikeWrite_some same held
    obtain ⟨hw, ht⟩ := m.release wv ab
    have empty : b.isEmpty = true := Mirror.alike_isEmpty ab ▸ empty
    refine .of_ended rfl (fun _ _ => attempted_iff.1 (.empty rfl empty)) ?_
    exact ⟨⟨rfl, none, .none, rfl⟩, hw, by simp [ht]⟩
  | failed held full sent =>
    obtain ⟨b, ab, rfl⟩ := Mirror.alikeWrite_some same held
    rw [m.contents ab] at sent
    obtain ⟨v', far, hw⟩ := Mirror.send_failed wv sent
    have full : b.isEmpty = false := Mirror.alike_isEmpty ab ▸ full
    refine .of_ended rfl (fun _ _ => attempted_iff.1 (.failed rfl full far)) ?_
    exact ⟨⟨rfl, same⟩, hw, by simp [m.contents ab]⟩
  | refused held full sent =>
    have hw := Mirror.send_refused wv sent
    exact .of_refused rfl (passes_refl _ v) same hw (by simp [m.untoldRefusal])
  | accepted held full sent =>
    obtain ⟨b, ab, rfl⟩ := Mirror.alikeWrite_some same held
    rw [m.contents ab] at sent
    obtain ⟨k, v', far, hw, ht⟩ := Mirror.send_accepted wv sent
    obtain ⟨hw, ht'⟩ := m.release hw ab
    have full : b.isEmpty = false := Mirror.alike_isEmpty ab ▸ full
    refine .of_ended rfl (fun _ _ => attempted_iff.1 (.accepted rfl full far)) ?_
    exact ⟨⟨rfl, none, .none, rfl⟩, hw, by simp [m.contents ab, ht, ht']⟩

/-- The run of a part of a command, as a run of the command. -/
def Ran.wrap {σ P Q : Type} (inj : P → Q) (x : Ran σ (Progress × P)) : Ran σ (Progress × Q) :=
  ⟨(x.value.1, inj x.value.2), x.trace, x.world⟩

theorem Mirror.Follows.wrap {m : Mirror σ₁ σ₂ τ} {P Q : Type} {inj : P → Q} {same : P → P → Prop}
    {same' : Q → Q → Prop} {go : Nat → P → σ₂ → Ran σ₂ (Progress × P)}
    {go' : Nat → Q → σ₂ → Ran σ₂ (Progress × Q)} {rounds : Nat} {x : Ran σ₁ (Progress × P)} {q : P}
    {v : σ₂} (h : m.Follows same go rounds x q v)
    (hgo : ∀ n q v, go' n (inj q) v = (go n q v).wrap inj)
    (hsame : ∀ {a b}, same a b → same' (inj a) (inj b)) :
    m.Follows same' go' rounds (x.wrap inj) (inj q) v := by
  constructor
  case putOff =>
    intro waits
    obtain ⟨u, q', v', ⟨k, hk⟩, hq, hw, ht⟩ := h.putOff waits
    refine ⟨u, inj q', v', ⟨k, fun n => ?_⟩, hsame hq, hw, ht⟩
    rw [hgo, hgo, hk]
    rfl
  case unfinished =>
    intro unfinished
    rw [hgo]
    exact h.unfinished unfinished
  case ended =>
    intro ended
    obtain ⟨y, hy, hm⟩ := h.ended ended
    refine ⟨y.wrap inj, fun n hn => ?_, ⟨hm.value.1, hsame hm.value.2⟩, hm.world, hm.told⟩
    rw [hgo, hy n hn]

theorem Command.resume_follows (m : Mirror σ₁ σ₂ τ) (rounds : Nat) {c c' : Command} {w : σ₁}
    {v : σ₂} (same : m.AlikeCommand c c') (wv : m.related w v)
    (hc : ∀ x, c.connection? = some x → m.about x) :
    m.Follows m.AlikeCommand (fun n c v => c.resume n m.far v) rounds (c.resume rounds m.near w) c'
      v := by
  cases same with
  | @write d d' alike =>
    rw [resume_write]
    exact (d.attempt_follows m rounds alike wv).wrap (fun n d v => resume_write n d m.far v) .write
  | @flush f g alike =>
    rw [resume_flush]
    exact (f.attempt_follows m rounds alike wv (hc _ rfl)).wrap
      (fun n f v => resume_flush n f m.far v) .flush
  | @timer t t' alike =>
    rw [resume_timer]
    exact (t.attempt_follows m rounds alike wv (hc _ rfl)).wrap
      (fun n t v => resume_timer n t m.far v) .timer

/-- Each command is like itself. -/
theorem Mirror.alikeCommand_refl (m : Mirror σ₁ σ₂ τ) (h : ∀ b, m.alike b b)
    (c : Command) : m.AlikeCommand c c := by
  have hrel : ∀ held : Option Buffer, Option.Rel m.alike held held := fun held => by
    cases held with
    | none => exact .none
    | some b => exact .some (h b)
  cases c with
  | write d => exact .write ⟨d.held, hrel _, rfl⟩
  | flush f => exact .flush ⟨f.held, hrel _, rfl⟩
  | timer t => exact .timer ⟨t.flush, ⟨t.flush.held, hrel _, rfl⟩, rfl⟩

theorem Mirror.alikeCommand_held {m : Mirror σ₁ σ₂ τ} {c c' : Command}
    (same : m.AlikeCommand c c') : Option.Rel m.alike c.held c'.held := by
  cases same with
  | write alike =>
    obtain ⟨held, hheld, rfl⟩ := alike
    exact hheld
  | flush alike =>
    obtain ⟨held, hheld, rfl⟩ := alike
    exact hheld
  | timer alike =>
    obtain ⟨flush, ⟨held, hheld, rfl⟩, rfl⟩ := alike
    exact hheld

/-- To give a command up is told the same near and far. -/
theorem Mirror.leave_matches {m : Mirror σ₁ σ₂ τ} {c c' : Command} {w : σ₁} {v : σ₂}
    (same : m.AlikeCommand c c') (wv : m.related w v) (p : Progress) :
    m.related (c.leave m.near w p) (c'.leave m.far v p) ∧
      m.told (c.parting p) = m.told (c'.parting p) := by
  cases p with
  | failed e =>
    have held := Mirror.alikeCommand_held same
    unfold Command.leave Command.parting
    generalize c.held = x at held
    generalize c'.held = y at held
    cases held with
    | some ab =>
      obtain ⟨hw, ht⟩ := m.release wv ab
      exact ⟨hw, by simp [ht]⟩
    | none => exact ⟨wv, rfl⟩
  | _ => exact ⟨wv, rfl⟩

/-- Where attempts at a command come to their end, with what they leave and
the calls that they make, the parting included. -/
structure Command.Ends {σ : Type} (s : Surroundings σ) (rounds : Nat) (c : Command) (v : σ)
    (y : Ran σ (Progress × Command)) : Prop where
  ends : ∀ n ≥ rounds, c.resume n s v = y
  settled : y.value.1.waits = false

/-- The calls of a command and of its parting. -/
def Ran.allCalls {σ : Type} (y : Ran σ (Progress × Command)) : List Call :=
  y.trace.calls ++ y.value.2.parting y.value.1

/-- The world after a command and its parting. -/
def Ran.left {σ : Type} (s : Surroundings σ) (y : Ran σ (Progress × Command)) : σ :=
  y.value.2.leave s y.world y.value.1

/-- A command that is put off near goes on far, and one that comes to its end
near does so far. -/
theorem Command.serve_follows (m : Mirror σ₁ σ₂ τ) (rounds : Nat) {c c' : Command} {w : σ₁}
    {v : σ₂} (same : m.AlikeCommand c c') (wv : m.related w v)
    (hc : ∀ x, c.connection? = some x → m.about x) :
    let x := c.serve rounds m.near w
    (x.value.1.waits = true → ∃ u q' v',
      Passes (fun n c v => c.resume n m.far v) c' v u q' v' ∧ m.AlikeCommand x.value.2 q' ∧
        m.related x.world v' ∧ m.told x.trace.calls = m.told u.calls) ∧
    (x.value.1 = .unfinished → (c'.resume rounds m.far v).value.1 = .unfinished) ∧
    (x.value.1.waits = false → ∃ y, Ends m.far rounds c' v y ∧ x.value.1 = y.value.1 ∧
      m.related x.world (y.left m.far) ∧ m.told x.trace.calls = m.told y.allCalls) := by
  have hf := resume_follows m rounds same wv hc
  obtain ⟨hv, ht, hw⟩ := serve_eq rounds c m.near w
  generalize c.serve rounds m.near w = x at hv ht hw
  simp only [hv, ht, hw]
  generalize c.resume rounds m.near w = z at hf
  refine ⟨fun waits => ?_, hf.unfinished, fun ended => ?_⟩
  · obtain ⟨u, q', v', hp, hq, hw, ht⟩ := hf.putOff waits
    refine ⟨u, q', v', hp, hq, ?_⟩
    rcases h : z.value.1 with _ | _ | _ | _ <;> simp [h, Progress.waits] at waits
    all_goals exact ⟨hw, by simpa [parting] using ht⟩
  · obtain ⟨y, hy, ⟨hp, hq⟩, hw, ht⟩ := hf.ended ended
    obtain ⟨hl, hparting⟩ := Mirror.leave_matches hq hw z.value.1
    refine ⟨y, ⟨hy, hp ▸ ended⟩, hp, ?_, ?_⟩
    · unfold Ran.left
      rw [← hp]
      exact hl
    · unfold Ran.allCalls
      rw [m.told_append, m.told_append, ht, hparting, hp]

end Outbox
