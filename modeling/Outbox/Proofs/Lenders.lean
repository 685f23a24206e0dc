-- Two lenders of buffers, and the same engines and channels. What they lend is
-- emptied before it is used. If the engines do not look at a capacity, nothing
-- does, so two buffers with the same contents do the same. Two computations
-- agree if they come to the same whichever lender there is. Each single step
-- agrees with itself, and steps that agree make computations that agree.
import Outbox.Proofs.Courses
import Outbox.Proofs.Workbench

namespace Outbox

variable {σ π π₁ π₂ α α' β β' : Type}

/-! ## Buffers with the same contents -/

/-- The same contents. -/
def Buffer.Alike (a b : Buffer) : Prop := a.contents = b.contents

theorem Buffer.Alike.isEmpty {a b : Buffer} (ab : a.Alike b) : a.isEmpty = b.isEmpty :=
  congrArg List.isEmpty ab

theorem Buffer.Alike.append {a b : Buffer} (ab : a.Alike b) (bytes : Bytes) :
    (a.append bytes).Alike (b.append bytes) := congrArg (· ++ bytes) ab

theorem Buffer.alike_clear (a b : Buffer) : a.clear.Alike b.clear := rfl

/-- The same contents, without room to spare. -/
def Buffer.bare (b : Buffer) : Buffer := ⟨b.contents, b.contents.length, Nat.le_refl _⟩

theorem Buffer.Alike.bare {a b : Buffer} (ab : a.Alike b) : a.bare = b.bare := by
  have ab : a.contents = b.contents := ab
  simp only [Buffer.bare, ab]

/-- Engines answer by what a buffer holds, whatever its capacity. -/
def Surroundings.CapacityBlind (s : Surroundings σ) : Prop :=
  ∀ c {a b : Buffer} w, a.Alike b → s.produce c a w = s.produce c b w

theorem workbench_blind : workbench.CapacityBlind := fun _ _ _ _ _ => rfl

theorem impatient_blind {s : Surroundings σ} (blind : s.CapacityBlind) :
    s.impatient.CapacityBlind := by
  intro c a b w ab
  simp only [Surroundings.impatient, blind c w.1 ab]

/-! ## Lenders -/

/-- Any source of buffers, with a state of its own. What it lends may have any
capacity and hold anything. It may look at the rest of the world, but leaves it
as it is. -/
structure Lender (σ π : Type) where
  lend : Nat → Bool → σ → π → Buffer × π
  takeBack : Buffer → σ → π → π

/-- The same engines and channels, with buffers from a lender. -/
def Surroundings.lentBy (s : Surroundings σ) (l : Lender σ π) : Surroundings (σ × π) where
  acquire least direct w :=
    ((l.lend least direct w.1 w.2).1, w.1, (l.lend least direct w.1 w.2).2)
  release b w := (w.1, l.takeBack b w.1 w.2)
  produce c b w := ((s.produce c b w.1).1, (s.produce c b w.1).2, w.2)
  peerAddress c w := s.peerAddress c w.1
  fireTimer c w := ((s.fireTimer c w.1).1, (s.fireTimer c w.1).2, w.2)
  isClosing c w := ((s.isClosing c w.1).1, (s.isClosing c w.1).2, w.2)
  finaliseClose c w := ((s.finaliseClose c w.1).1, (s.finaliseClose c w.1).2, w.2)
  dispose c w := (s.dispose c w.1, w.2)
  send channel datagram destination w :=
    ((s.send channel datagram destination w.1).1, (s.send channel datagram destination w.1).2, w.2)

/-! ## What does not depend on the lender -/

/-- The call without what is the lender's: the buffer lent, and the capacity of
a buffer handed on or given back. -/
def Call.bare : Call → Call
  | .acquire least direct _ => .acquire least direct (.withCapacity 0)
  | .release b => .release b.bare
  | .produce c b appended answer => .produce c b.bare appended answer
  | c => c

def Event.bare : Event → Event
  | .call c => .call c.bare
  | .note n => .note n

def Trace.bare (t : Trace) : Trace := t.map Event.bare

theorem Trace.bare_append (t u : Trace) : bare (t ++ u) = bare t ++ bare u := List.map_append

theorem Trace.calls_bare (t : Trace) : t.bare.calls = t.calls.map Call.bare := by
  unfold calls bare
  rw [List.filterMap_map, List.map_filterMap]
  refine List.filterMap_congr fun e _ => ?_
  cases e <;> rfl

theorem Trace.notes_bare (t : Trace) : t.bare.notes = t.notes := by
  unfold notes bare
  rw [List.filterMap_map]
  refine List.filterMap_congr fun e _ => ?_
  cases e <;> rfl

/-! ## Computations that agree -/

/-- Both runs came to the same, but for what is the lenders'. -/
structure Ran.Alike (same : α → β → Prop) (x : Ran (σ × π₁) α) (y : Ran (σ × π₂) β) : Prop where
  value : same x.value y.value
  trace : x.trace.bare = y.trace.bare
  world : x.world.1 = y.world.1

section

variable (s : Surroundings σ) (l₁ : Lender σ π₁) (l₂ : Lender σ π₂)

/-- The two computations come to the same, each with its own lender. -/
def Agree (same : α → β → Prop) (m : Act (σ × π₁) α) (n : Act (σ × π₂) β) : Prop :=
  ∀ w v, w.1 = v.1 → Ran.Alike same (m (s.lentBy l₁) w) (n (s.lentBy l₂) v)

end

variable {s : Surroundings σ} {l₁ : Lender σ π₁} {l₂ : Lender σ π₂}

namespace Agree

variable {same : α → β → Prop} {same' : α' → β' → Prop}

theorem pure {a : α} {b : β} (h : same a b) :
    Agree s l₁ l₂ same (Pure.pure a) (Pure.pure b) := fun _ _ wv => ⟨h, rfl, wv⟩

theorem bind {m : Act (σ × π₁) α} {n : Act (σ × π₂) β} {f : α → Act (σ × π₁) α'}
    {g : β → Act (σ × π₂) β'} (first : Agree s l₁ l₂ same m n)
    (next : ∀ a b, same a b → Agree s l₁ l₂ same' (f a) (g b)) :
    Agree s l₁ l₂ same' (m >>= f) (n >>= g) := by
  intro w v wv
  obtain ⟨value, trace, world⟩ := first w v wv
  obtain ⟨value', trace', world'⟩ := next _ _ value _ _ world
  refine ⟨value', ?_, world'⟩
  simp only [Act.bind_apply, Trace.bare_append, trace, trace']

/-- After computations that come to equal values, go on from there. -/
theorem bindEq {m : Act (σ × π₁) α} {n : Act (σ × π₂) α} {f : α → Act (σ × π₁) α'}
    {g : α → Act (σ × π₂) β'} (first : Agree s l₁ l₂ Eq m n)
    (next : ∀ a, Agree s l₁ l₂ same' (f a) (g a)) :
    Agree s l₁ l₂ same' (m >>= f) (n >>= g) :=
  first.bind fun a _ h => h ▸ next a

/-! ### The single steps -/

theorem note (n : Note) : Agree s l₁ l₂ Eq (Act.note n) (Act.note n) :=
  fun _ _ wv => ⟨rfl, rfl, wv⟩

theorem noteRemote (c : Connection) (n : Address → Note) :
    Agree s l₁ l₂ Eq (Act.noteRemote c n) (Act.noteRemote c n) := fun w v wv =>
  ⟨rfl, by simp [Act.noteRemote, Surroundings.lentBy, wv], wv⟩

theorem acquire (least : Nat) (direct : Bool) :
    Agree s l₁ l₂ (fun _ _ => True) (Act.acquire least direct) (Act.acquire least direct) :=
  fun _ _ wv => ⟨trivial, rfl, wv⟩

theorem release {a b : Buffer} (ab : a.Alike b) :
    Agree s l₁ l₂ Eq (Act.release a) (Act.release b) := fun _ _ wv =>
  ⟨rfl, by simp [Act.release, Trace.bare, Event.bare, Call.bare, ab.bare], wv⟩

theorem produce (blind : s.CapacityBlind) (c : Connection) {a b : Buffer} (ab : a.Alike b) :
    Agree s l₁ l₂ (fun x y => x.1.Alike y.1 ∧ x.2 = y.2) (Act.produce c a) (Act.produce c b) := by
  intro w v wv
  simp only [Act.produce, Surroundings.lentBy, wv, blind c v.1 ab]
  refine ⟨⟨ab.append _, rfl⟩, ?_, rfl⟩
  simp only [Trace.bare, Event.bare, Call.bare, ab.bare, List.map_cons]

theorem peerAddress (c : Connection) :
    Agree s l₁ l₂ Eq (Act.peerAddress c) (Act.peerAddress c) := by
  intro w v wv
  simp only [Act.peerAddress, Surroundings.lentBy, wv]
  exact ⟨rfl, rfl, wv⟩

theorem fireTimer (c : Connection) : Agree s l₁ l₂ Eq (Act.fireTimer c) (Act.fireTimer c) := by
  intro w v wv
  simp only [Act.fireTimer, Surroundings.lentBy, wv]
  exact ⟨rfl, rfl, rfl⟩

theorem isClosing (c : Connection) : Agree s l₁ l₂ Eq (Act.isClosing c) (Act.isClosing c) := by
  intro w v wv
  simp only [Act.isClosing, Surroundings.lentBy, wv]
  exact ⟨rfl, rfl, rfl⟩

theorem finaliseClose (c : Connection) :
    Agree s l₁ l₂ Eq (Act.finaliseClose c) (Act.finaliseClose c) := by
  intro w v wv
  simp only [Act.finaliseClose, Surroundings.lentBy, wv]
  exact ⟨rfl, rfl, rfl⟩

theorem dispose (c : Connection) : Agree s l₁ l₂ Eq (Act.dispose c) (Act.dispose c) := by
  intro w v wv
  simp only [Act.dispose, Surroundings.lentBy, wv]
  exact ⟨rfl, rfl, rfl⟩

theorem send (channel : Channel) {a b : Buffer} (ab : a.Alike b) (destination : Address) :
    Agree s l₁ l₂ Eq (Act.send channel a.contents destination)
      (Act.send channel b.contents destination) := by
  intro w v wv
  have ab : a.contents = b.contents := ab
  simp only [Act.send, Surroundings.lentBy, wv, ab]
  exact ⟨rfl, rfl, rfl⟩

end Agree

/-! ## Flushes -/

/-- The same progress, and alike in what is left. -/
def AlikeEnd (same : α → β → Prop) (x : Progress × α) (y : Progress × β) : Prop :=
  x.1 = y.1 ∧ same x.2 y.2

/-- After computations that end alike, go on from each progress. -/
theorem Agree.bindEnd {same : α → β → Prop} {same' : α' → β' → Prop}
    {m : Act (σ × π₁) (Progress × α)} {n : Act (σ × π₂) (Progress × β)}
    {f : Progress × α → Act (σ × π₁) α'} {g : Progress × β → Act (σ × π₂) β'}
    (first : Agree s l₁ l₂ (AlikeEnd same) m n)
    (next : ∀ p a b, same a b → Agree s l₁ l₂ same' (f (p, a)) (g (p, b))) :
    Agree s l₁ l₂ same' (m >>= f) (n >>= g) := by
  refine first.bind fun x y xy => ?_
  obtain ⟨p, a⟩ := x
  obtain ⟨q, b⟩ := y
  obtain ⟨rfl, ab⟩ : p = q ∧ same a b := xy
  exact next p a b ab

namespace EngineFlush

/-- The same flush, each with a buffer of its own. -/
def Alike (f g : EngineFlush) : Prop :=
  ∃ held, Option.Rel Buffer.Alike f.held held ∧ g = { f with held }

inductive Turn.Alike : Turn → Turn → Prop where
  | again {f g : EngineFlush} (alike : f.Alike g) : Alike (.again f) (.again g)
  | stop {f g : EngineFlush} {p : Progress} (alike : f.Alike g) : Alike (.stop p f) (.stop p g)

variable {f g : EngineFlush} {a b : Buffer}

theorem alike_some (f : EngineFlush) {held : Option Buffer} (ab : a.Alike b) :
    Alike { f with held := some a } { { f with held } with held := some b } :=
  ⟨some b, .some ab, rfl⟩

theorem alike_none (f : EngineFlush) : Alike { f with held := none } { f with held := none } :=
  ⟨none, .none, rfl⟩

theorem agree_takeBuffer (fg : f.Alike g) :
    Agree s l₁ l₂ Buffer.Alike f.takeBuffer g.takeBuffer := by
  obtain ⟨held, hheld, rfl⟩ := fg
  unfold takeBuffer
  generalize f.held = x at hheld
  cases hheld with
  | some ab => exact .pure ab
  | none => exact (Agree.acquire _ _).bind fun _ _ _ => .pure (Buffer.alike_clear _ _)

theorem agree_transmit (fg : f.Alike g) (ab : a.Alike b) :
    Agree s l₁ l₂ Turn.Alike (f.transmit a) (g.transmit b) := by
  obtain ⟨held, -, rfl⟩ := fg
  refine (Agree.peerAddress f.connection).bindEq fun destination => ?_
  refine (Agree.send f.channel ab destination).bindEq fun answer => ?_
  rcases answer with e | _ | n
  · exact .pure (.stop (alike_some f ab))
  · exact .pure (.stop (alike_some f ab))
  · exact .pure (.again (alike_some f (Buffer.alike_clear a b)))

theorem agree_finish (fg : f.Alike g) (ab : a.Alike b) :
    Agree s l₁ l₂ Turn.Alike (f.finish a) (g.finish b) := by
  obtain ⟨held, -, rfl⟩ := fg
  exact (Agree.release ab).bindEq fun _ => .pure (.stop (alike_none f))

theorem agree_finaliseClose (fg : f.Alike g) (ab : a.Alike b) :
    Agree s l₁ l₂ Turn.Alike (f.finaliseClose a) (g.finaliseClose b) := by
  obtain ⟨held, -, rfl⟩ := fg
  have forced : Alike { f with held := some a, closeRequested := true }
      { f with held := some b, closeRequested := true } := ⟨some b, .some ab, rfl⟩
  refine (Agree.finaliseClose f.connection).bindEq fun answer => ?_
  rcases answer with e | _ | _
  · exact .pure (.stop forced)
  · exact agree_finish forced ab
  · exact .pure (.again forced)

theorem agree_windUp (fg : f.Alike g) (ab : a.Alike b) :
    Agree s l₁ l₂ Turn.Alike (f.windUp a) (g.windUp b) := by
  have finish : Agree s l₁ l₂ Turn.Alike (f.finish a) (g.finish b) := agree_finish fg ab
  have close : Agree s l₁ l₂ Turn.Alike (f.finaliseClose a) (g.finaliseClose b) :=
    agree_finaliseClose fg ab
  obtain ⟨held, -, rfl⟩ := fg
  unfold windUp
  split
  · refine (Agree.isClosing f.connection).bindEq fun closing => ?_
    cases closing
    · exact finish
    · exact close
  · exact finish

theorem agree_poll (blind : s.CapacityBlind) (fg : f.Alike g) (ab : a.Alike b) :
    Agree s l₁ l₂ Turn.Alike (f.poll a) (g.poll b) := by
  have same := fg
  obtain ⟨held, -, rfl⟩ := fg
  refine (Agree.produce blind f.connection ab).bind fun x y xy => ?_
  obtain ⟨filled, answer⟩ := x
  obtain ⟨filled', answer'⟩ := y
  obtain ⟨filling, rfl⟩ : filled.Alike filled' ∧ answer = answer' := xy
  rcases answer with e | _ | n
  · exact .pure (.stop (alike_some f filling))
  · exact agree_windUp same filling
  · exact agree_transmit same filling

theorem agree_round (blind : s.CapacityBlind) (fg : f.Alike g) :
    Agree s l₁ l₂ Turn.Alike f.round g.round := by
  refine (agree_takeBuffer fg).bind fun a b ab => ?_
  rw [ab.isEmpty]
  split
  · exact agree_poll blind fg ab
  · exact agree_transmit fg ab

theorem agree_attempt (blind : s.CapacityBlind) (rounds : Nat) (fg : f.Alike g) :
    Agree s l₁ l₂ (AlikeEnd Alike) (f.attempt rounds) (g.attempt rounds) := by
  induction rounds generalizing f g with
  | zero => exact .pure ⟨rfl, fg⟩
  | succ rounds ih =>
    refine (agree_round blind fg).bind fun t u tu => ?_
    cases tu with
    | again alike => exact ih alike
    | stop alike => exact .pure ⟨rfl, alike⟩

end EngineFlush

end Outbox
