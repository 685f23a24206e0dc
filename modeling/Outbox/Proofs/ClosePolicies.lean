-- The two policies for closing connections, compared. A flush looks at its policy in
-- one place, after a poll that found nothing left. Up to the first such poll it makes
-- the same calls under both. Without a forced close it is done then, so a forced close
-- only adds to what is sent, and a question that no connection affirms changes nothing.
import Outbox.Proofs.Closings
import Outbox.Proofs.TimerPhases

namespace Outbox

variable {σ κ κ' : Type} {s : Surroundings σ} {rounds : Nat} {w w' : σ}

/-! ## Before and after a poll that found nothing left -/

/-- The policy with another answer to a closing connection. -/
def Policy.closing (p : Policy) (onClose : ClosingFlush) : Policy := { p with onClose }

/-- A poll that found nothing left. -/
def Call.isDry : Call → Bool
  | .produce _ _ _ (.ok 0) => true
  | _ => false

/-- Whether the call asks if a connection is closing. -/
def Call.asks : Call → Bool
  | .isClosing .. => true
  | _ => false

/-- The call is none that comes with or after a poll that found nothing left. -/
def Call.Early (c : Call) : Prop := c.isDry = false ∧ c.ofClose = false

/-- The calls without the questions about a close. -/
def unasked (calls : List Call) : List Call := calls.filter fun c => !c.asks

/-- The attempt without the questions about a close. -/
def Bout.unasked (b : Bout) : Bout := { b with calls := Outbox.unasked b.calls }

variable {l m : List Call} {c : Call}

theorem unasked_append (l m : List Call) : unasked (l ++ m) = unasked l ++ unasked m :=
  List.filter_append ..

theorem unasked_of_early (early : ∀ c ∈ l, c.Early) : unasked l = l := by
  unfold unasked
  rw [List.filter_eq_self]
  intro c mem
  have := (early c mem).2
  cases c with
  | isClosing => cases this
  | _ => rfl

namespace EngineFlush

variable {f g : EngineFlush} {b : Buffer} {r : Ran σ Turn}

/-- The same flush with another answer to a closing connection. -/
def under (f : EngineFlush) (onClose : ClosingFlush) : EngineFlush :=
  { f with policy := f.policy.closing onClose }

def Turn.under (onClose : ClosingFlush) : Turn → Turn
  | .again f => .again (f.under onClose)
  | .stop progress f => .stop progress (f.under onClose)

theorem taken_under {buffer : Ran σ Buffer} (taken : Taken s f w buffer) (k : ClosingFlush) :
    Taken s (f.under k) w buffer := by
  cases taken with
  | held held => exact .held held
  | acquired none given => exact .acquired none given

theorem taken_early {buffer : Ran σ Buffer} (taken : Taken s f w buffer) :
    ∀ c ∈ buffer.trace.calls, c.Early := by
  cases taken <;> simp [Call.Early, Call.isDry, Call.ofClose]

theorem transmitted_under (sent : Transmitted s f b w r) (k : ClosingFlush) :
    Transmitted s (f.under k) b w ⟨r.value.under k, r.trace, r.world⟩ := by
  cases sent with
  | failed sent => exact .failed sent
  | refused sent => exact .refused sent
  | accepted sent => exact .accepted sent

theorem transmitted_early (sent : Transmitted s f b w r) : ∀ c ∈ r.trace.calls, c.Early := by
  cases sent <;> simp [transmission, Call.Early, Call.isDry, Call.ofClose]

/-- A round does the same under each policy, or it polls the engine and finds nothing
left. It is the policy that says how it ends then. -/
inductive Comparable (s : Surroundings σ) (f : EngineFlush) (w : σ) : Prop where
  | same {r : Ran σ Turn} (early : ∀ c ∈ r.trace.calls, c.Early)
      (round : ∀ k, Rounded s (f.under k) w ⟨r.value.under k, r.trace, r.world⟩)
  | dry {t : Trace} {c : Call} {b : Buffer} {w₁ : σ} (early : ∀ d ∈ t.calls, d.Early)
      (dry : c.isDry = true)
      (round : ∀ k u, WoundUp s (f.under k) b w₁ u →
        Rounded s (f.under k) w (u.after (t ++ [.call c])))

theorem round_comparable (s : Surroundings σ) (f : EngineFlush) (w : σ) : Comparable s f w := by
  have round := rounded_round s f w
  generalize f.round s w = r at round
  cases round with
  | @intro buffer r taken worked =>
    have first := taken_early taken
    have together : (∀ c ∈ r.trace.calls, c.Early) →
        ∀ c ∈ (r.after buffer.trace).trace.calls, c.Early := fun early c mem => by
      rw [trace_after, Trace.calls_append] at mem
      exact (List.mem_append.1 mem).elim (first c) (early c)
    cases worked with
    | resent full sent =>
      refine .same (together (transmitted_early sent)) fun k => ?_
      exact .intro (taken_under taken k) (.resent full (transmitted_under sent k))
    | pollFailed empty polled =>
      refine .same (together (by simp [Call.Early, Call.isDry, Call.ofClose])) fun k => ?_
      exact .intro (taken_under taken k) (.pollFailed empty polled)
    | produced empty polled sent =>
      refine .same (together (List.forall_mem_cons.2 ⟨⟨rfl, rfl⟩, transmitted_early sent⟩)) ?_
      intro k
      exact .intro (taken_under taken k)
        (.produced (f := f.under k) empty polled (transmitted_under sent k))
    | @ranDry bytes w₁ r empty polled =>
      let poll : Call := .produce f.connection buffer.value bytes (.ok 0)
      have goesOn : ∀ k u, WoundUp s (f.under k) (buffer.value.append bytes) w₁ u →
          Rounded s (f.under k) w (u.after (buffer.trace ++ [.call poll])) := fun k u woundUp => by
        rw [← after_after]
        exact .intro (taken_under taken k) (.ranDry empty polled woundUp)
      exact .dry first rfl goesOn

/-- Without a forced close the flush is done, and sends no more. With one it is done too,
after the same calls but for the question, unless the connection says that it is closing. -/
theorem woundUp_compared {x y : Ran σ Turn} (plain : WoundUp s (f.under .disabled) b w x)
    (thorough : WoundUp s (f.under .forceOnce) b w y) :
    (∃ g, x.value = .stop .completed g) ∧ accepted x.trace.calls = [] ∧
      ((∀ z, .isClosing z true ∉ y.trace.calls) →
        (∃ g, y.value = .stop .completed g) ∧ x.trace.calls = unasked y.trace.calls) := by
  have undue : ¬ (f.under .disabled).CloseDue := fun due => by cases due.1
  cases plain with
  | notDue =>
    refine ⟨⟨_, rfl⟩, rfl, fun unaffirmed => ?_⟩
    cases thorough with
    | notDue => exact ⟨⟨_, rfl⟩, rfl⟩
    | notClosing => exact ⟨⟨_, rfl⟩, rfl⟩
    | closeFailed | closed | notClosed =>
      exact absurd (List.mem_cons_self ..) (unaffirmed (f.under .forceOnce).connection)
  | notClosing due | closeFailed due | closed due | notClosed due => exact absurd due undue

end EngineFlush

/-! ## Attempts compared -/

/-- The same calls come first in both, up to a first poll that found nothing left. After
it, the first ones send nothing any more. -/
inductive Parted : List Call → List Call → Prop where
  | intro {common later later' : List Call} {dry : Call} (early : ∀ c ∈ common, c.Early)
      (isDry : dry.isDry = true) (silent : accepted later = []) :
      Parted (common ++ dry :: later) (common ++ dry :: later')

namespace Parted

variable {l' m' : List Call}

theorem lead (early : ∀ c ∈ m, c.Early) (parted : Parted l l') : Parted (m ++ l) (m ++ l') := by
  cases parted with
  | intro before isDry silent =>
    rw [← List.append_assoc, ← List.append_assoc]
    exact .intro (List.forall_mem_append.2 ⟨early, before⟩) isDry silent

theorem trail (silent : accepted m = []) (parted : Parted l l') :
    Parted (l ++ m) (l' ++ m') := by
  cases parted with
  | intro early isDry before =>
    rw [List.append_assoc, List.append_assoc, List.cons_append, List.cons_append]
    refine .intro early isDry ?_
    rw [accepted_append, before, silent, List.append_nil]

theorem cut (parted : Parted l l') :
    ∃ common dry later later', l = common ++ dry :: later ∧ l' = common ++ dry :: later' ∧
      dry.isDry = true ∧ ∀ c ∈ common, c.isDry = false := by
  cases parted with
  | intro early isDry silent => exact ⟨_, _, _, _, rfl, rfl, isDry, fun c mem => (early c mem).1⟩

theorem accepted (parted : Parted l l') : Outbox.accepted l <+: Outbox.accepted l' := by
  cases parted with
  | @intro common later later' dry early isDry silent =>
    have split : ∀ rest, Outbox.accepted (common ++ dry :: rest) =
        Outbox.accepted (common ++ [dry]) ++ Outbox.accepted rest := fun rest => by
      rw [← accepted_append, List.append_assoc, List.singleton_append]
    rw [split later, split later', silent, List.append_nil]
    exact List.prefix_append ..

end Parted

/-- The second attempt goes on where the first is done. It is done there too, after the
same calls but for the questions, if no connection says that it is closing. -/
structure GoesOn (b b' : Bout) : Prop where
  completed : b.progress = .completed
  parted : Parted b.calls b'.calls
  unaffirmed : (∀ x, .isClosing x true ∉ b'.calls) → b = b'.unasked

namespace GoesOn

variable {b b' : Bout} {p : Progress}

theorem of_dry {common later later' : List Call} {dry : Call} (early : ∀ c ∈ common, c.Early)
    (isDry : dry.isDry = true) (silent : accepted later = [])
    (unaffirmed : (∀ x, .isClosing x true ∉ later') →
      p = .completed ∧ later = unasked later') :
    GoesOn ⟨.completed, common ++ dry :: later⟩ ⟨p, common ++ dry :: later'⟩ := by
  refine ⟨rfl, .intro early isDry silent, fun none => ?_⟩
  obtain ⟨rfl, rfl⟩ := unaffirmed fun x mem => none x (by simp [mem])
  have poll : unasked (dry :: later') = dry :: unasked later' := by
    cases dry with
    | isClosing => cases isDry
    | _ => rfl
  simp only [Bout.unasked, unasked_append, unasked_of_early early, poll]

theorem led (early : ∀ c ∈ l, c.Early) (goesOn : GoesOn b b') :
    GoesOn ⟨b.progress, l ++ b.calls⟩ ⟨b'.progress, l ++ b'.calls⟩ := by
  refine ⟨goesOn.completed, goesOn.parted.lead early, fun none => ?_⟩
  rw [goesOn.unaffirmed fun x mem => none x (List.mem_append_right _ mem)]
  simp only [Bout.unasked, unasked_append, unasked_of_early early]

end GoesOn

namespace EngineFlush

/-- How an attempt at a flush that does not force a close compares with one that does. -/
inductive Compared (x y : Ran σ (Progress × EngineFlush)) : Prop where
  | same {g : EngineFlush} (bout : y.bout = x.bout) (plain : x.value.2 = g.under .disabled)
      (thorough : y.value.2 = g.under .forceOnce) (world : y.world = x.world)
      (early : ∀ c ∈ x.bout.calls, c.Early)
  | goesOn (goesOn : GoesOn x.bout y.bout)

theorem bout_after (x : Ran σ (Progress × κ)) (t : Trace) :
    (x.after t).bout = ⟨x.bout.progress, t.calls ++ x.bout.calls⟩ := by
  simp [Ran.bout]

theorem Compared.after {x y : Ran σ (Progress × EngineFlush)} {t : Trace}
    (early : ∀ c ∈ t.calls, c.Early) (compared : Compared x y) :
    Compared (x.after t) (y.after t) := by
  cases compared with
  | same bout plain thorough world rest =>
    refine .same ?_ plain thorough world ?_
    · rw [bout_after, bout_after, bout]
    · rw [bout_after]
      exact List.forall_mem_append.2 ⟨early, rest⟩
  | goesOn goesOn =>
    apply Compared.goesOn
    rw [bout_after, bout_after]
    exact goesOn.led early

theorem attempt_compared (rounds : Nat) (f : EngineFlush) (s : Surroundings σ) (w : σ) :
    Compared ((f.under .disabled).attempt rounds s w) ((f.under .forceOnce).attempt rounds s w) := by
  induction rounds generalizing f w with
  | zero => exact .same (g := f) rfl rfl rfl rfl (by simp [attempt_zero, Ran.bout])
  | succ rounds ih =>
    cases round_comparable s f w with
    | @same r early round =>
      obtain ⟨turn, t, w'⟩ := r
      cases turn with
      | again g =>
        rw [attempt_again rounds (round .disabled), attempt_again rounds (round .forceOnce)]
        exact (ih g w').after early
      | stop p g =>
        rw [attempt_stop rounds (round .disabled), attempt_stop rounds (round .forceOnce)]
        exact .same (g := g) rfl rfl rfl rfl early
    | @dry t c b w₁ early dry round =>
      -- only from here on the two policies can differ
      have plain := woundUp_iff.2 (rfl : (f.under .disabled).windUp b s w₁ = _)
      have thorough := woundUp_iff.2 (rfl : (f.under .forceOnce).windUp b s w₁ = _)
      generalize (f.under .disabled).windUp b s w₁ = x at plain
      generalize (f.under .forceOnce).windUp b s w₁ = y at thorough
      obtain ⟨⟨g, done⟩, silent, unaffirmed⟩ := woundUp_compared plain thorough
      have first := round .disabled x plain
      have second := round .forceOnce y thorough
      obtain ⟨turn, u, w₂⟩ := x
      obtain ⟨turn', u', w₂'⟩ := y
      simp only at done silent unaffirmed
      subst done
      rw [attempt_stop rounds first]
      cases turn' with
      | again g' =>
        rw [attempt_again rounds second]
        refine .goesOn ?_
        simp only [Ran.bout, trace_after, Trace.calls_append, Trace.calls_call,
          List.append_assoc, List.cons_append, List.nil_append]
        refine .of_dry early dry silent fun none => ?_
        -- the attempt goes on only if a close was forced, and a connection affirmed it before
        obtain ⟨⟨_, done⟩, -⟩ := unaffirmed fun z mem => none z (List.mem_append_left _ mem)
        cases done
      | stop p g' =>
        rw [attempt_stop rounds second]
        refine .goesOn ?_
        simp only [Ran.bout, Trace.calls_append, Trace.calls_call,
          List.append_assoc, List.cons_append, List.nil_append]
        refine .of_dry early dry silent fun none => ?_
        obtain ⟨⟨_, done⟩, same⟩ := unaffirmed none
        cases done
        exact ⟨rfl, same⟩

end EngineFlush

/-! ## Runs compared -/

/-- How the attempts of the first list, which do not force a close, compare with those of
the second, which do. They are the same, or the same up to a first poll that found nothing
left. -/
structure Extends (plain thorough : List Bout) : Prop where
  calls : (plain = thorough ∧ ∀ c ∈ plain.flatMap Bout.calls, c.Early) ∨
    Parted (plain.flatMap Bout.calls) (thorough.flatMap Bout.calls)
  unaffirmed : (∀ x, .isClosing x true ∉ thorough.flatMap Bout.calls) →
    plain = thorough.map Bout.unasked

theorem Bout.map_unasked_of_early {bs : List Bout} (early : ∀ c ∈ bs.flatMap calls, c.Early) :
    bs.map Bout.unasked = bs := by
  have each : ∀ b ∈ bs, b.unasked = id b := fun b mem => by
    have quiet : ∀ c ∈ b.calls, c.Early := fun c hc => early c (List.mem_flatMap.2 ⟨b, mem, hc⟩)
    rw [Bout.unasked, unasked_of_early quiet, id]
  rw [List.map_congr_left each, List.map_id]

theorem Bout.unasked_retire (dispose : Bool) (connection : Connection) (b : Bout) :
    (b.retire dispose connection).unasked = b.unasked.retire dispose connection := by
  unfold retire
  by_cases due : dispose = true ∧ b.progress = .completed
  · simp only [due, and_self, if_true, Bout.unasked, unasked_append]
    rfl
  · simp only [Bout.unasked, due, if_false]

namespace Extends

variable {plain thorough rest : List Bout} {b b' : Bout}

theorem same (early : ∀ c ∈ plain.flatMap Bout.calls, c.Early) : Extends plain plain :=
  ⟨Or.inl ⟨rfl, early⟩, fun _ => (Bout.map_unasked_of_early early).symm⟩

/-- More may follow the attempt that goes on, if it is not done. -/
theorem of_goesOn (goesOn : GoesOn b b') (last : b'.progress = .completed → rest = []) :
    Extends [b] (b' :: rest) := by
  refine ⟨Or.inr ?_, fun none => ?_⟩
  · have parted : Parted (b.calls ++ []) (b'.calls ++ rest.flatMap Bout.calls) :=
      goesOn.parted.trail rfl
    simpa using parted
  · rw [List.flatMap_cons] at none
    have same := goesOn.unaffirmed fun x mem => none x (List.mem_append_left _ mem)
    have done : b'.progress = .completed := by
      rw [← goesOn.completed, same]
      rfl
    rw [last done, same]
    rfl

/-- The same attempt comes first in both. -/
theorem cons (early : ∀ c ∈ b.calls, c.Early) (later : Extends plain thorough) :
    Extends (b :: plain) (b :: thorough) := by
  refine ⟨?_, fun none => ?_⟩
  · rcases later.calls with ⟨rfl, rest⟩ | parted
    · exact Or.inl ⟨rfl, List.forall_mem_append.2 ⟨early, rest⟩⟩
    · exact Or.inr (parted.lead early)
  · rw [List.flatMap_cons] at none
    rw [List.map_cons, ← later.unaffirmed fun x mem => none x (List.mem_append_right _ mem),
      Bout.unasked, unasked_of_early early]

/-- The same calls come before the first attempt of both. -/
theorem led (some : plain ≠ []) (some' : thorough ≠ []) (early : ∀ c ∈ l, c.Early)
    (later : Extends plain thorough) : Extends (Bout.led l plain) (Bout.led l thorough) := by
  refine ⟨?_, fun none => ?_⟩
  · rw [Bout.calls_led _ some, Bout.calls_led _ some']
    rcases later.calls with ⟨rfl, rest⟩ | parted
    · exact Or.inl ⟨rfl, List.forall_mem_append.2 ⟨early, rest⟩⟩
    · exact Or.inr (parted.lead early)
  · rw [Bout.calls_led _ some'] at none
    rw [later.unaffirmed fun x mem => none x (List.mem_append_right _ mem)]
    cases thorough with
    | nil => rfl
    | cons b rest => simp [Bout.led, Bout.unasked, unasked_append, unasked_of_early early]

/-- A disposal comes at the end of both. -/
theorem retired {dispose : Bool} {connection : Connection}
    (ends : (plain.map (Bout.retire dispose connection)).flatMap Bout.calls =
      plain.flatMap Bout.calls ++ Bout.disposal dispose connection plain)
    (ends' : (thorough.map (Bout.retire dispose connection)).flatMap Bout.calls =
      thorough.flatMap Bout.calls ++ Bout.disposal dispose connection thorough)
    (earlier : Extends plain thorough) :
    Extends (plain.map (Bout.retire dispose connection))
      (thorough.map (Bout.retire dispose connection)) := by
  obtain ⟨silent, early⟩ : accepted (Bout.disposal dispose connection plain) = [] ∧
      ∀ c ∈ Bout.disposal dispose connection plain, c.Early := by
    rcases Bout.disposal_cases dispose connection plain with ⟨disposal, -⟩ | disposal
    · rw [disposal]
      exact ⟨rfl, by simp [Call.Early, Call.isDry, Call.ofClose]⟩
    · rw [disposal]
      exact ⟨rfl, by simp⟩
  refine ⟨?_, fun none => ?_⟩
  · rw [ends, ends']
    rcases earlier.calls with ⟨rfl, before⟩ | parted
    · exact Or.inl ⟨rfl, List.forall_mem_append.2 ⟨before, early⟩⟩
    · exact Or.inr (parted.trail silent)
  · rw [ends'] at none
    rw [earlier.unaffirmed fun x mem => none x (List.mem_append_left _ mem), List.map_map,
      List.map_map]
    exact List.map_congr_left fun b _ => (Bout.unasked_retire dispose connection b).symm

end Extends

/-- The attempts begin with the first, and end there if it is not refused. -/
theorem bouts_begin (attempt : κ → Act σ (Progress × κ)) (s : Surroundings σ) (c : κ) (w : σ)
    (meanwhiles : List (σ → σ)) :
    ∃ rest, bouts attempt s c w meanwhiles = (attempt c s w).bout :: rest ∧
      ((attempt c s w).value.1 ≠ .refused → rest = []) := by
  cases meanwhiles with
  | nil => exact ⟨[], rfl, fun _ => rfl⟩
  | cons meanwhile later =>
    refine ⟨_, rfl, fun last => ?_⟩
    rw [if_neg last]

/-- Commands that do as others do are attempted as often. -/
theorem bouts_embed {attempt : κ → Act σ (Progress × κ)} {attempt' : κ' → Act σ (Progress × κ')}
    (embed : κ → κ')
    (same : ∀ c w, (attempt' (embed c) s w).bout = (attempt c s w).bout ∧
      (attempt' (embed c) s w).value.2 = embed (attempt c s w).value.2 ∧
      (attempt' (embed c) s w).world = (attempt c s w).world)
    (c : κ) (w : σ) (meanwhiles : List (σ → σ)) :
    bouts attempt' s (embed c) w meanwhiles = bouts attempt s c w meanwhiles := by
  obtain ⟨bout, value, world⟩ := same c w
  have progress : (attempt' (embed c) s w).value.1 = (attempt c s w).value.1 :=
    congrArg Bout.progress bout
  induction meanwhiles generalizing c w with
  | nil => simp only [bouts, bout]
  | cons meanwhile later ih =>
    obtain ⟨bout', value', world'⟩ := same (attempt c s w).value.2 (meanwhile (attempt c s w).world)
    simp only [bouts, bout, value, world, progress]
    rw [ih _ _ bout' value' world' (congrArg Bout.progress bout')]

theorem bouts_of_goesOn {attempt : κ → Act σ (Progress × κ)} {c c' : κ}
    (goesOn : GoesOn (attempt c s w).bout (attempt c' s w).bout) (meanwhiles : List (σ → σ)) :
    Extends (bouts attempt s c w meanwhiles) (bouts attempt s c' w meanwhiles) := by
  have done : (attempt c s w).value.1 = .completed := goesOn.completed
  obtain ⟨rest, begins, last⟩ := bouts_begin attempt s c' w meanwhiles
  rw [bouts_last (by simp [done]), begins]
  apply Extends.of_goesOn goesOn
  intro done'
  apply last
  rw [show (attempt c' s w).value.1 = .completed from done']
  simp

namespace EngineFlush

/-- The attempts at a flush that forces a close extend those at one that does not. -/
theorem bouts_extend (rounds : Nat) (s : Surroundings σ) (f : EngineFlush) (w : σ)
    (meanwhiles : List (σ → σ)) :
    Extends (bouts (EngineFlush.attempt rounds) s (f.under .disabled) w meanwhiles)
      (bouts (EngineFlush.attempt rounds) s (f.under .forceOnce) w meanwhiles) := by
  induction meanwhiles generalizing f w with
  | nil =>
    cases attempt_compared rounds f s w with
    | same bout plain thorough world early =>
      simp only [bouts, bout]
      exact .same (by simpa using early)
    | goesOn goesOn => exact bouts_of_goesOn goesOn []
  | cons meanwhile later ih =>
    cases attempt_compared rounds f s w with
    | @same g bout plain thorough world early =>
      have progress := congrArg Bout.progress bout
      by_cases refused : ((f.under .disabled).attempt rounds s w).value.1 = .refused
      · rw [bouts_cons refused, bouts_cons (progress.trans refused), bout, plain, thorough, world]
        exact (ih g _).cons early
      · rw [bouts_last refused, bouts_last fun refused' => refused (progress.symm.trans refused'),
          bout]
        exact .same (by simpa using early)
    | goesOn goesOn => exact bouts_of_goesOn goesOn _

end EngineFlush

/-- So do those at a timer command. -/
theorem TimerFlush.bouts_extend (rounds : Nat) (s : Surroundings σ) (connection : Connection)
    (channel : Channel) (dispose : Bool) (policy : Policy) (w : σ) (meanwhiles : List (σ → σ)) :
    Extends
      (bouts (TimerFlush.attempt rounds) s
        (.new connection channel dispose (policy.closing .disabled)) w meanwhiles)
      (bouts (TimerFlush.attempt rounds) s
        (.new connection channel dispose (policy.closing .forceOnce)) w meanwhiles) := by
  rcases rang : s.fireTimer connection w with ⟨e | _, w₁⟩
  · rw [bouts_of_fireFailed rang, bouts_of_fireFailed rang]
    exact .same (by simp [Call.Early, Call.isDry, Call.ofClose])
  · rw [bouts_of_rang rang, bouts_of_rang rang]
    have flushed := EngineFlush.bouts_extend rounds s
      { purpose := .send, connection, channel, policy } w₁ meanwhiles
    apply Extends.led
    · simpa using bouts_ne_nil
    · simpa using bouts_ne_nil
    · simp [Call.Early, Call.isDry, Call.ofClose]
    · exact flushed.retired (calls_retire dispose connection) (calls_retire dispose connection)

/-! ## The law -/

namespace Command

theorem bout_flush (rounds : Nat) (f : EngineFlush) (s : Surroundings σ) (w : σ) :
    let x := (Command.flush f).attempt rounds s w
    let y := f.attempt rounds s w
    x.bout = y.bout ∧ x.value.2 = .flush y.value.2 ∧ x.world = y.world := by
  obtain ⟨t, attempt, calls⟩ := attempt_eq rounds (.flush f) s w
  rw [attempt]
  rw [resume_flush] at calls ⊢
  exact ⟨by rw [Ran.bout, calls]; rfl, rfl, rfl⟩

theorem bout_timer (rounds : Nat) (t : TimerFlush) (s : Surroundings σ) (w : σ) :
    let x := (Command.timer t).attempt rounds s w
    let y := t.attempt rounds s w
    x.bout = y.bout ∧ x.value.2 = .timer y.value.2 ∧ x.world = y.world := by
  obtain ⟨u, attempt, calls⟩ := attempt_eq rounds (.timer t) s w
  rw [attempt]
  rw [resume_timer] at calls ⊢
  exact ⟨by rw [Ran.bout, calls]; rfl, rfl, rfl⟩

/-- A flush or a timer command whose policy forces a close extends what it does under one
that does not. -/
theorem bouts_extend {policy : Policy} {r : Backlog.Request} {plain thorough : Command}
    (made : r.command? (policy.closing .disabled) = some plain)
    (made' : r.command? (policy.closing .forceOnce) = some thorough) {connection : Connection}
    (about : plain.connection? = some connection) (rounds : Nat) (s : Surroundings σ) (w : σ)
    (meanwhiles : List (σ → σ)) :
    Extends (bouts (Command.attempt rounds) s plain w meanwhiles)
      (bouts (Command.attempt rounds) s thorough w meanwhiles) := by
  cases r with
  | write => cases made; cases about
  | drain => cases made
  | flush connection channel =>
    cases made
    cases made'
    rw [bouts_embed Command.flush (bout_flush rounds · s), bouts_embed Command.flush
      (bout_flush rounds · s)]
    exact EngineFlush.bouts_extend rounds s { purpose := .send, connection, channel, policy } w _
  | timer connection channel dispose =>
    cases made
    cases made'
    rw [bouts_embed Command.timer (bout_timer rounds · s), bouts_embed Command.timer
      (bout_timer rounds · s)]
    exact TimerFlush.bouts_extend rounds s connection channel dispose policy w meanwhiles

end Command

/-- A forced close only extends what is sent without one. Take a new flush or timer command,
under a policy that does not force a close and under the same that does, in the same
surroundings, and its attempts up to the first that is not refused. Both make the same
calls, up to the first poll that found nothing left, and all the same if there is none. So
what is accepted without a forced close is accepted with it, before anything else. And if no
connection ever says that it is closing, the attempts end in the same way, with the same
calls but for the questions. -/
theorem a_forced_close_only_extends_what_is_sent (s : Surroundings σ) (policy : Policy)
    {r : Backlog.Request} {plain thorough : Command}
    (made : r.command? (policy.closing .disabled) = some plain)
    (made' : r.command? (policy.closing .forceOnce) = some thorough) {connection : Connection}
    (about : plain.connection? = some connection) (rounds : Nat) (w : σ)
    (meanwhiles : List (σ → σ)) :
    let plainly := bouts (Command.attempt rounds) s plain w meanwhiles
    let thoroughly := bouts (Command.attempt rounds) s thorough w meanwhiles
    let calls := plainly.flatMap Bout.calls
    let calls' := thoroughly.flatMap Bout.calls
    ((plainly = thoroughly ∧ ∀ c ∈ calls, c.isDry = false) ∨
        ∃ common dry later later', calls = common ++ dry :: later ∧
          calls' = common ++ dry :: later' ∧ dry.isDry = true ∧
          ∀ c ∈ common, c.isDry = false) ∧
      accepted calls <+: accepted calls' ∧
      ((∀ x, .isClosing x true ∉ calls') → plainly = thoroughly.map Bout.unasked) := by
  intro plainly thoroughly calls calls'
  have extends' : Extends plainly thoroughly :=
    Command.bouts_extend made made' about rounds s w meanwhiles
  refine ⟨?same, ?accepted, extends'.unaffirmed⟩
  case same =>
    rcases extends'.calls with ⟨same, early⟩ | parted
    · exact Or.inl ⟨same, fun c mem => (early c mem).1⟩
    · exact Or.inr parted.cut
  case accepted =>
    rcases extends'.calls with ⟨same, -⟩ | parted
    · simp only [calls, calls', same]
      exact List.prefix_rfl
    · exact parted.accepted

namespace Bench

/-- A timer command of the left connection, under one of the policies. -/
def timer (onClose : ClosingFlush) : Command :=
  .timer (.new ⟨"left"⟩ ⟨"out"⟩ true (Policy.standard.closing onClose))

/-- Its attempts, with one datagram left in the engine and the first send refused. -/
def timed (s : Surroundings Bench) (onClose : ClosingFlush) : List Bout :=
  bouts (Command.attempt 5) s.impatient (timer onClose) ({ left := fun _ => [[1]] }, [true]) [id]

end Bench

/-- With a forced close the closing datagram goes out behind the one that is left. If the
connection is not closing, the two policies differ in one question. -/
theorem a_forced_close_only_extends_what_is_sent_on_the_workbench :
    let r : Backlog.Request := .timer ⟨"left"⟩ ⟨"out"⟩ true
    let calls := (Bench.timed (Bench.parting true) .disabled).flatMap Bout.calls
    let calls' := (Bench.timed (Bench.parting true) .forceOnce).flatMap Bout.calls
    (r.command? (Policy.standard.closing .disabled) = some (Bench.timer .disabled) ∧
        r.command? (Policy.standard.closing .forceOnce) = some (Bench.timer .forceOnce) ∧
        (Bench.timer .disabled).connection? = some ⟨"left"⟩) ∧
      (accepted calls = [[1]] ∧ accepted calls' = [[1], [7]] ∧
        accepted calls <+: accepted calls') ∧
      Bench.timed workbench .disabled = (Bench.timed workbench .forceOnce).map Bout.unasked := by
  intro r calls calls'
  have made : r.command? (Policy.standard.closing .disabled) = some (Bench.timer .disabled) := rfl
  have made' : r.command? (Policy.standard.closing .forceOnce) = some (Bench.timer .forceOnce) := rfl
  have about : (Bench.timer .disabled).connection? = some ⟨"left"⟩ := rfl
  obtain ⟨-, sent, -⟩ := a_forced_close_only_extends_what_is_sent (Bench.parting true).impatient
    .standard made made' about 5 ({ left := fun _ => [[1]] }, [true]) [id]
  obtain ⟨-, -, unaffirmed⟩ := a_forced_close_only_extends_what_is_sent workbench.impatient
    .standard made made' about 5 ({ left := fun _ => [[1]] }, [true]) [id]
  have asked : ((Bench.timed workbench .forceOnce).flatMap Bout.calls).filter Call.asks =
      [.isClosing ⟨"left"⟩ false] := rfl
  refine ⟨⟨made, made', about⟩, ⟨rfl, rfl, sent⟩, unaffirmed fun x mem => ?_⟩
  have affirmed := List.mem_filter.2 ⟨mem, (rfl : Call.asks (.isClosing x true) = true)⟩
  rw [Bench.timed] at asked
  rw [asked] at affirmed
  cases List.mem_singleton.1 affirmed

end Outbox
