-- Repeated attempts at one command, with anything between one and the next. A
-- flush that is done, after however many, found the engine with nothing left,
-- and all that the engine produced was accepted if it told the truth. What the
-- flush is for makes no difference to it.
import Outbox.Proofs.DatagramAccount
import Outbox.Proofs.Refusals

namespace Outbox

variable {σ κ : Type} {s : Surroundings σ} {rounds : Nat} {w w' : σ}

/-! ## Attempts at one command -/

/-- One attempt: how it ended, and the calls that it made. -/
structure Bout where
  progress : Progress
  calls : List Call
  deriving DecidableEq

def Ran.bout (x : Ran σ (Progress × κ)) : Bout := ⟨x.value.1, x.trace.calls⟩

/-- The attempts at a command, up to the first that is not refused. The list
says what becomes of the world between one attempt and the next. -/
def bouts (attempt : κ → Act σ (Progress × κ)) (s : Surroundings σ) :
    κ → σ → List (σ → σ) → List Bout
  | c, w, [] => [(attempt c s w).bout]
  | c, w, meanwhile :: later =>
    let first := attempt c s w
    first.bout ::
      if first.value.1 = .refused then bouts attempt s first.value.2 (meanwhile first.world) later
      else []

section

variable {attempt : κ → Act σ (Progress × κ)} {c : κ} {meanwhiles : List (σ → σ)}

theorem bouts_cons {meanwhile : σ → σ} {later : List (σ → σ)}
    (refused : (attempt c s w).value.1 = .refused) :
    bouts attempt s c w (meanwhile :: later) =
      (attempt c s w).bout ::
        bouts attempt s (attempt c s w).value.2 (meanwhile (attempt c s w).world) later := by
  simp [bouts, refused]

/-- An attempt that is not refused is the last. -/
theorem bouts_last (last : (attempt c s w).value.1 ≠ .refused) :
    bouts attempt s c w meanwhiles = [(attempt c s w).bout] := by
  cases meanwhiles <;> simp [bouts, last]

theorem bouts_ne_nil : bouts attempt s c w meanwhiles ≠ [] := by
  cases meanwhiles <;> simp [bouts]

end

/-! ## Attempts at a flush -/

/-- What a poll answered. -/
def Call.poll? : Call → Option (Except EngineFault Nat)
  | .produce _ _ _ answer => some answer
  | _ => none

/-- The answers of the polls among some calls. -/
def polls (calls : List Call) : List (Except EngineFault Nat) := calls.filterMap Call.poll?

theorem polls_append (l m : List Call) : polls (l ++ m) = polls l ++ polls m :=
  List.filterMap_append

/-- The last poll found nothing left. -/
def RanDry (calls : List Call) : Prop := (polls calls).getLast? = some (.ok 0)

theorem RanDry.append {calls : List Call} (before : List Call) (dry : RanDry calls) :
    RanDry (before ++ calls) := by
  unfold RanDry at *
  rw [polls_append, List.getLast?_append, dry]
  rfl

namespace EngineFlush

variable {f g : EngineFlush} {b : Buffer} {r : Ran σ Turn} {t : Trace}

theorem ranDry_of_rounded (h : Rounded s f w ⟨.stop .completed g, t, w'⟩) : RanDry t.calls := by
  generalize hr : (⟨.stop .completed g, t, w'⟩ : Ran σ Turn) = r at h
  obtain ⟨hvalue, rfl⟩ : r.value = .stop .completed g ∧ r.trace = t := by simp [← hr]
  clear hr
  cases h with
  | intro taken worked =>
    rw [trace_after, Trace.calls_append]
    apply RanDry.append
    cases worked with
    | resent full sent => cases sent <;> cases hvalue
    | pollFailed empty polled => cases hvalue
    | produced empty polled sent => cases sent <;> cases hvalue
    | ranDry empty polled woundUp =>
      cases woundUp <;> rfl

/-- A flush is done only when the engine has nothing left. -/
theorem attempt_ranDry (rounds : Nat) (f : EngineFlush) (s : Surroundings σ) (w : σ) :
    let r := f.attempt rounds s w
    r.value.1 = .completed → RanDry r.trace.calls := by
  refine attempt_induction (P := fun _ _ x => x.value.1 = .completed → RanDry x.trace.calls)
    ?spent ?stop ?again rounds f w
  case spent =>
    intro f w completed
    cases completed
  case stop =>
    intro f w p g t w' round completed
    obtain rfl : p = .completed := completed
    exact ranDry_of_rounded round
  case again =>
    intro f w g t w' x round later completed
    rw [trace_after, Trace.calls_append]
    exact (later completed).append _

/-- No attempt at a flush fires a timer or disposes a connection. -/
theorem bouts_ofFlush (rounds : Nat) (s : Surroundings σ) (f : EngineFlush) (w : σ)
    (meanwhiles : List (σ → σ)) :
    ∀ c ∈ (bouts (EngineFlush.attempt rounds) s f w meanwhiles).flatMap Bout.calls,
      c.ofFlush = true := by
  have now := f.attempt_ofFlush rounds s w
  induction meanwhiles generalizing f w with
  | nil => simpa [bouts, Ran.bout] using now
  | cons meanwhile later ih =>
    by_cases refused : (f.attempt rounds s w).value.1 = .refused
    · rw [bouts_cons refused, List.flatMap_cons]
      intro c hc
      rcases List.mem_append.1 hc with hc | hc
      · exact now c hc
      · exact ih _ _ (attempt_ofFlush rounds _ s _) c hc
    · rw [bouts_last refused]
      simpa [Ran.bout] using now

/-- The account of the datagrams of one flush, if its engine tells the truth. -/
theorem attempt_balances (rounds : Nat) (f : EngineFlush) (s : Surroundings σ) (w : σ) :
    let r := f.attempt rounds s w
    s.TellsTruth f.connection →
      unsent f.held ++ produced r.trace.calls =
        accepted r.trace.calls ++ unsent r.value.2.held := by
  refine attempt_induction
    (P := fun f _ x => s.TellsTruth f.connection →
      unsent f.held ++ produced x.trace.calls =
        accepted x.trace.calls ++ unsent x.value.2.held)
    ?spent ?stop ?again rounds f w
  case spent => simp
  case stop => exact fun f w p g t w' round truthful => rounded_balances truthful round
  case again =>
    intro f w g t w' x round later truthful
    have same : g.connection = f.connection := (rounded_course round).2.2.1
    have first := rounded_balances truthful round
    have rest := later (same ▸ truthful)
    simp only [Turn.flush] at first
    rw [trace_after, value_after, Trace.calls_append, produced_append, accepted_append,
      ← List.append_assoc, first, List.append_assoc, rest, List.append_assoc]

theorem completed_alone (f : EngineFlush) (w : σ) :
    let l := [(f.attempt rounds s w).bout]
    .completed ∈ l.map Bout.progress →
      RanDry (l.flatMap Bout.calls) ∧
        (s.TellsTruth f.connection → unsent f.held ++ produced (l.flatMap Bout.calls) =
          accepted (l.flatMap Bout.calls)) := by
  intro l completed
  have completed : (f.attempt rounds s w).value.1 = .completed :=
    (List.mem_singleton.1 completed).symm
  simp only [l, List.flatMap_singleton, Ran.bout]
  refine ⟨f.attempt_ranDry rounds s w completed, fun truthful => ?_⟩
  have balance := f.attempt_balances rounds s w truthful
  have given := (f.held_of_attempt rounds s w (by simp [completed])).2 completed
  rwa [given, unsent_none, List.append_nil] at balance

/-- When a flush is done, after whatever attempts, the engine has nothing left,
and all that it produced was accepted if it told the truth. -/
theorem bouts_completed (rounds : Nat) (s : Surroundings σ) (f : EngineFlush) (w : σ)
    (meanwhiles : List (σ → σ)) :
    let l := bouts (EngineFlush.attempt rounds) s f w meanwhiles
    .completed ∈ l.map Bout.progress →
      RanDry (l.flatMap Bout.calls) ∧
        (s.TellsTruth f.connection → unsent f.held ++ produced (l.flatMap Bout.calls) =
          accepted (l.flatMap Bout.calls)) := by
  induction meanwhiles generalizing f w with
  | nil => exact completed_alone f w
  | cons meanwhile later ih =>
    by_cases refused : (f.attempt rounds s w).value.1 = .refused
    · rw [bouts_cons refused]
      intro l completed
      have completed' : .completed ∈ (bouts (EngineFlush.attempt rounds) s
          (f.attempt rounds s w).value.2 (meanwhile (f.attempt rounds s w).world) later).map
          Bout.progress := by
        simpa [l, Ran.bout, refused] using completed
      obtain ⟨dry, settled⟩ := ih _ _ completed'
      simp only [l, List.flatMap_cons]
      refine ⟨dry.append _, fun truthful => ?_⟩
      have same := (f.attempt_course rounds s w).2.2.1
      have first := f.attempt_balances rounds s w truthful
      have rest := settled (same.symm ▸ truthful)
      rw [produced_append, accepted_append, ← List.append_assoc, ← rest, ← List.append_assoc]
      exact congrArg (· ++ _) first
    · rw [bouts_last refused]
      exact completed_alone f w

/-! ## What a flush is for makes no difference -/

/-- The same flush for another purpose. -/
def withPurpose (f : EngineFlush) (p : Purpose) : EngineFlush := { f with purpose := p }

def Turn.withPurpose (p : Purpose) : Turn → Turn
  | .again f => .again (f.withPurpose p)
  | .stop progress f => .stop progress (f.withPurpose p)

theorem transmitted_withPurpose (p : Purpose) (h : Transmitted s f b w r) :
    Transmitted s (f.withPurpose p) b w ⟨r.value.withPurpose p, r.trace, r.world⟩ := by
  cases h with
  | failed sent => exact .failed sent
  | refused sent => exact .refused sent
  | accepted sent => exact .accepted sent

theorem woundUp_withPurpose (p : Purpose) (h : WoundUp s f b w r) :
    WoundUp s (f.withPurpose p) b w ⟨r.value.withPurpose p, r.trace, r.world⟩ := by
  cases h with
  | notDue due => exact .notDue due
  | notClosing due asked => exact .notClosing due asked
  | closeFailed due asked forced => exact .closeFailed due asked forced
  | closed due asked forced => exact .closed due asked forced
  | notClosed due asked forced => exact .notClosed due asked forced

theorem rounded_withPurpose (p : Purpose) (h : Rounded s f w r) :
    Rounded s (f.withPurpose p) w ⟨r.value.withPurpose p, r.trace, r.world⟩ := by
  cases h with
  | @intro buffer r taken worked =>
    have taken' : Taken s (f.withPurpose p) w buffer := by
      cases taken with
      | held held => exact .held held
      | acquired none given => exact .acquired none given
    refine .intro taken' (r := ⟨r.value.withPurpose p, r.trace, r.world⟩) ?_
    cases worked with
    | resent full sent => exact .resent full (transmitted_withPurpose p sent)
    | pollFailed empty polled => exact .pollFailed empty polled
    | produced empty polled sent =>
      exact .produced (f := f.withPurpose p) empty polled (transmitted_withPurpose p sent)
    | ranDry empty polled woundUp =>
      exact .ranDry (f := f.withPurpose p) empty polled (woundUp_withPurpose p woundUp)

theorem attempt_withPurpose (p : Purpose) (rounds : Nat) (f : EngineFlush) (s : Surroundings σ)
    (w : σ) :
    (f.withPurpose p).attempt rounds s w =
      let x := f.attempt rounds s w
      ⟨(x.value.1, x.value.2.withPurpose p), x.trace, x.world⟩ := by
  induction rounds generalizing f w with
  | zero => rfl
  | succ rounds ih =>
    have round := rounded_round s f w
    have same := rounded_withPurpose p round
    rcases hv : f.round s w with ⟨g | ⟨q, g⟩, t, w'⟩ <;> rw [hv] at round same
    · rw [attempt_again rounds round, attempt_again rounds same, ih]
      rfl
    · rw [attempt_stop rounds round, attempt_stop rounds same]

end EngineFlush

end Outbox
