-- Two surroundings that a command cannot tell apart, but for refused sends. In
-- the near one a channel may refuse where it does not in the far one. A
-- command that is refused near is put off: the same command far goes on, and
-- the put-off one stands where the far one passed by. Whatever it is told
-- later, the far one was told then.
import Outbox.Proofs.Courses
import Outbox.Proofs.Workbench

namespace Outbox

variable {σ₁ σ₂ τ : Type}

/-- An engine that answers a count above zero leaves something in the buffer. -/
def Surroundings.Substantial {σ : Type} (s : Surroundings σ) : Prop :=
  ∀ c b w n, (s.produce c b w).1.2 = .ok (n + 1) →
    b.contents ++ (s.produce c b w).1.1 ≠ []

theorem impatient_substantial {σ : Type} {s : Surroundings σ} (h : s.Substantial) :
    s.impatient.Substantial := fun c b w => h c b w.1

theorem workbench_substantial : workbench.Substantial := by
  intro c b w n h hnil
  have hbytes : (w.left c).headD [] = [] := (List.append_eq_nil_iff.1 hnil).2
  have hcount : ((w.left c).headD []).length = n + 1 := Except.ok.inj h
  rw [hbytes] at hcount
  simp at hcount

theorem brimming_substantial : brimming.Substantial := by
  intro c b w n h hnil
  obtain ⟨-, none⟩ := List.append_eq_nil_iff.1 hnil
  have count : (brimming.produce c b w).1.1.length = n + 1 := Except.ok.inj h
  rw [none] at count
  cases count

/-! ## Mirrors -/

/-- What comes of a send near and far, if the channel did not refuse it near:
both were accepted, and told alike, or both failed. -/
def SameVerdict (tell : Call → Option τ) (channel : Channel) (datagram : Bytes)
    (destination : Address) (near far : Except ChannelFault Nat) : Prop :=
  (∃ n m, near = .ok (n + 1) ∧ far = .ok (m + 1) ∧
    tell (.send channel datagram destination near) =
      tell (.send channel datagram destination far)) ∨
  ∃ e, near = .error e ∧ far = .error e

/-- Surroundings near and far, worlds of theirs that are related, and what is
told of a call. Related worlds answer each call on the connections in
question alike, and stay related. -/
structure Mirror (σ₁ σ₂ τ : Type) where
  near : Surroundings σ₁
  far : Surroundings σ₂
  /-- The connections in question. -/
  about : Connection → Prop
  tell : Call → Option τ
  /-- The buffers of a command near and far. -/
  alike : Buffer → Buffer → Prop
  related : σ₁ → σ₂ → Prop
  contents {a b : Buffer} (h : alike a b) : a.contents = b.contents
  append {a b : Buffer} (h : alike a b) (bytes : Bytes) : alike (a.append bytes) (b.append bytes)
  clear {a b : Buffer} (h : alike a b) : alike a.clear b.clear
  acquire {w : σ₁} {v : σ₂} (h : related w v) (least : Nat) (direct : Bool) :
    alike (near.acquire least direct w).1.clear (far.acquire least direct v).1.clear ∧
      related (near.acquire least direct w).2 (far.acquire least direct v).2 ∧
      tell (.acquire least direct (near.acquire least direct w).1) =
        tell (.acquire least direct (far.acquire least direct v).1)
  release {w : σ₁} {v : σ₂} {a b : Buffer} (h : related w v) (ab : alike a b) :
    related (near.release a w) (far.release b v) ∧ tell (.release a) = tell (.release b)
  produce {w : σ₁} {v : σ₂} {a b : Buffer} (h : related w v) (ab : alike a b) {c : Connection}
      (hc : about c) :
    (near.produce c a w).1 = (far.produce c b v).1 ∧
      related (near.produce c a w).2 (far.produce c b v).2
  peerAddress {w : σ₁} {v : σ₂} (h : related w v) {c : Connection} (hc : about c) :
    near.peerAddress c w = far.peerAddress c v
  fireTimer {w : σ₁} {v : σ₂} (h : related w v) {c : Connection} (hc : about c) :
    (near.fireTimer c w).1 = (far.fireTimer c v).1 ∧
      related (near.fireTimer c w).2 (far.fireTimer c v).2
  isClosing {w : σ₁} {v : σ₂} (h : related w v) {c : Connection} (hc : about c) :
    (near.isClosing c w).1 = (far.isClosing c v).1 ∧
      related (near.isClosing c w).2 (far.isClosing c v).2
  finaliseClose {w : σ₁} {v : σ₂} (h : related w v) {c : Connection} (hc : about c) :
    (near.finaliseClose c w).1 = (far.finaliseClose c v).1 ∧
      related (near.finaliseClose c w).2 (far.finaliseClose c v).2
  dispose {w : σ₁} {v : σ₂} (h : related w v) {c : Connection} (hc : about c) :
    related (near.dispose c w) (far.dispose c v)
  send {w : σ₁} {v : σ₂} (h : related w v) (channel : Channel) (datagram : Bytes)
    (destination : Address) :
    (near.send channel datagram destination w).1 = .ok 0 ∧
        related (near.send channel datagram destination w).2 v ∨
      SameVerdict tell channel datagram destination (near.send channel datagram destination w).1
          (far.send channel datagram destination v).1 ∧
        related (near.send channel datagram destination w).2
          (far.send channel datagram destination v).2
  toldPoll {a b : Buffer} (ab : alike a b) (c : Connection) (appended : Bytes)
      (answer : Except EngineFault Nat) :
    tell (.produce c a appended answer) = tell (.produce c b appended answer)
  untoldPeer (c : Connection) (address : Address) : tell (.peerAddress c address) = none
  untoldRefusal (channel : Channel) (datagram : Bytes) (destination : Address) :
    tell (.send channel datagram destination (.ok 0)) = none
  substantial : far.Substantial

namespace Mirror

variable (m : Mirror σ₁ σ₂ τ)

/-- What is told of some calls. -/
def told (calls : List Call) : List τ := calls.filterMap m.tell

@[simp] theorem told_nil : m.told [] = [] := rfl

@[simp] theorem told_cons (c : Call) (l : List Call) :
    m.told (c :: l) = (m.tell c).toList ++ m.told l := by
  cases h : m.tell c <;> simp [told, h]

@[simp] theorem told_append (l k : List Call) : m.told (l ++ k) = m.told l ++ m.told k :=
  List.filterMap_append

/-- The same flush near and far, each with a buffer of its own. -/
def AlikeFlush (f g : EngineFlush) : Prop :=
  ∃ held, Option.Rel m.alike f.held held ∧ g = { f with held }

/-- Turns the same way near and far. A flush that is put off is none. -/
inductive AlikeTurn : EngineFlush.Turn → EngineFlush.Turn → Prop where
  | again {f g : EngineFlush} (alike : m.AlikeFlush f g) : AlikeTurn (.again f) (.again g)
  | stop {f g : EngineFlush} {p : Progress} (ended : p.waits = false)
      (alike : m.AlikeFlush f g) : AlikeTurn (.stop p f) (.stop p g)

/-- Both ran, and came to the same. -/
structure Matches {α β : Type} (same : α → β → Prop) (x : Ran σ₁ α) (y : Ran σ₂ β) : Prop where
  value : same x.value y.value
  world : m.related x.world y.world
  told : m.told x.trace.calls = m.told y.trace.calls

variable {m}

theorem alike_isEmpty {a b : Buffer} (h : m.alike a b) : a.isEmpty = b.isEmpty := by
  unfold Buffer.isEmpty
  rw [m.contents h]

theorem alikeFlush_some {f : EngineFlush} {a b : Buffer} (hab : m.alike a b) :
    m.AlikeFlush { f with held := some a } { f with held := some b } :=
  ⟨some b, .some hab, rfl⟩

theorem alikeFlush_none {f : EngineFlush} :
    m.AlikeFlush { f with held := none } { f with held := none } :=
  ⟨none, .none, rfl⟩

/-! ## Answers near and far -/

section Answers

variable {w w' : σ₁} {v : σ₂}

/-- An answer near is the answer far, and leaves related worlds. -/
theorem far_of_near {α : Type} {x : α × σ₁} {y : α × σ₂} {a : α}
    (h : x.1 = y.1 ∧ m.related x.2 y.2) (hx : x = (a, w')) :
    ∃ v', y = (a, v') ∧ m.related w' v' := by
  obtain ⟨b, v'⟩ := y
  subst hx
  obtain ⟨rfl, hw⟩ := h
  exact ⟨v', rfl, hw⟩

variable {channel : Channel} {datagram : Bytes} {destination : Address}

theorem send_failed {e : ChannelFault} (wv : m.related w v)
    (sent : m.near.send channel datagram destination w = (.error e, w')) :
    ∃ v', m.far.send channel datagram destination v = (.error e, v') ∧ m.related w' v' := by
  have h := m.send wv channel datagram destination
  rcases far : m.far.send channel datagram destination v with ⟨answer, v'⟩
  rw [sent, far] at h
  rcases h with ⟨h, -⟩ | ⟨⟨n, k, h, -⟩ | ⟨e, h, rfl⟩, hw⟩ <;> cases h
  exact ⟨v', rfl, hw⟩

theorem send_refused (wv : m.related w v)
    (sent : m.near.send channel datagram destination w = (.ok 0, w')) : m.related w' v := by
  have h := m.send wv channel datagram destination
  rw [sent] at h
  rcases h with ⟨-, hw⟩ | ⟨⟨n, k, h, -⟩ | ⟨e, h, -⟩, -⟩
  · exact hw
  · cases h
  · cases h

theorem send_accepted {n : Nat} (wv : m.related w v)
    (sent : m.near.send channel datagram destination w = (.ok (n + 1), w')) :
    ∃ k v', m.far.send channel datagram destination v = (.ok (k + 1), v') ∧ m.related w' v' ∧
      m.tell (.send channel datagram destination (.ok (n + 1))) =
        m.tell (.send channel datagram destination (.ok (k + 1))) := by
  have h := m.send wv channel datagram destination
  rcases far : m.far.send channel datagram destination v with ⟨answer, v'⟩
  rw [sent, far] at h
  rcases h with ⟨h, -⟩ | ⟨⟨n, k, h, rfl, ht⟩ | ⟨e, h, -⟩, hw⟩ <;> cases h
  exact ⟨k, v', rfl, hw, ht⟩

end Answers

/-! ## Rounds near and far -/

section Rounds

open EngineFlush

variable {f g : EngineFlush} {a b : Buffer} {w : σ₁} {v : σ₂}

theorem taken_matches {x : Ran σ₁ Buffer} (same : m.AlikeFlush f g) (wv : m.related w v)
    (h : Taken m.near f w x) : ∃ y, Taken m.far g v y ∧ m.Matches m.alike x y := by
  obtain ⟨held, hheld, rfl⟩ := same
  cases h with
  | @held a hf =>
    rw [hf] at hheld
    cases hheld with
    | some ab => exact ⟨_, .held rfl, ab, wv, rfl⟩
  | @acquired a w' hf given =>
    rw [hf] at hheld
    cases hheld
    obtain ⟨hb, hw, ht⟩ := m.acquire wv f.policy.minCapacity f.policy.direct
    rw [given] at hb hw ht
    exact ⟨_, .acquired rfl rfl, hb, hw, by simp [ht]⟩

/-- A send is the same near and far, or it is refused near. -/
theorem transmitted_matches {x : Ran σ₁ Turn} (same : m.AlikeFlush f g) (ab : m.alike a b)
    (wv : m.related w v) (hc : m.about f.connection) (h : Transmitted m.near f a w x) :
    (∃ y, Transmitted m.far g b v y ∧ m.Matches m.AlikeTurn x y) ∨
      x.value = .stop .refused { f with held := some a } ∧ m.related x.world v ∧
        m.told x.trace.calls = [] := by
  obtain ⟨held, -, rfl⟩ := same
  have hpeer := m.peerAddress wv hc
  cases h with
  | failed sent =>
    rw [hpeer, m.contents ab] at sent
    obtain ⟨v', far, hw⟩ := send_failed wv sent
    refine Or.inl ⟨_, .failed far, .stop rfl (alikeFlush_some ab), hw, ?_⟩
    simp [transmission, m.untoldPeer, m.contents ab, hpeer]
  | refused sent =>
    refine Or.inr ⟨rfl, send_refused wv sent, ?_⟩
    simp [transmission, m.untoldPeer, m.untoldRefusal]
  | accepted sent =>
    rw [hpeer, m.contents ab] at sent
    obtain ⟨k, v', far, hw, ht⟩ := send_accepted wv sent
    refine Or.inl ⟨_, .accepted far, .again (alikeFlush_some (m.clear ab)), hw, ?_⟩
    simpa [transmission, m.untoldPeer, m.contents ab, hpeer] using congrArg Option.toList ht

theorem woundUp_matches {x : Ran σ₁ Turn} (same : m.AlikeFlush f g) (ab : m.alike a b)
    (wv : m.related w v) (hc : m.about f.connection) (h : WoundUp m.near f a w x) :
    ∃ y, WoundUp m.far g b v y ∧ m.Matches m.AlikeTurn x y := by
  obtain ⟨held, -, rfl⟩ := same
  cases h with
  | notDue due =>
    obtain ⟨hw, ht⟩ := m.release wv ab
    exact ⟨_, .notDue due, .stop rfl alikeFlush_none, hw, by simp [ht]⟩
  | notClosing due asked =>
    obtain ⟨v₁, asked, hw⟩ := far_of_near (m.isClosing wv hc) asked
    obtain ⟨hw, ht⟩ := m.release hw ab
    exact ⟨_, .notClosing due asked, .stop rfl alikeFlush_none, hw, by simp [ht]⟩
  | closeFailed due asked forced =>
    obtain ⟨v₁, asked, hw⟩ := far_of_near (m.isClosing wv hc) asked
    obtain ⟨v₂, forced, hw⟩ := far_of_near (m.finaliseClose hw hc) forced
    exact ⟨_, .closeFailed due asked forced, .stop rfl ⟨some b, .some ab, rfl⟩, hw, rfl⟩
  | closed due asked forced =>
    obtain ⟨v₁, asked, hw⟩ := far_of_near (m.isClosing wv hc) asked
    obtain ⟨v₂, forced, hw⟩ := far_of_near (m.finaliseClose hw hc) forced
    exact ⟨_, .closed due asked forced, .again ⟨some b, .some ab, rfl⟩, hw, rfl⟩
  | notClosed due asked forced =>
    obtain ⟨v₁, asked, hw⟩ := far_of_near (m.isClosing wv hc) asked
    obtain ⟨v₂, forced, hw⟩ := far_of_near (m.finaliseClose hw hc) forced
    obtain ⟨hw, ht⟩ := m.release hw ab
    exact ⟨_, .notClosed due asked forced, .stop rfl ⟨none, .none, rfl⟩, hw, by simp [ht]⟩

/-- The near buffer was refused. The far round comes by the same buffer, in a
related world, and by then has told the same. -/
structure RefusedAt (m : Mirror σ₁ σ₂ τ) (f g : EngineFlush) (x : Ran σ₁ Turn) (a b : Buffer)
    (u : Trace) (v : σ₂) : Prop where
  value : x.value = .stop .refused { f with held := some a }
  alike : m.alike a b
  full : b.isEmpty = false
  world : m.related x.world v
  told : m.told x.trace.calls = m.told u.calls

theorem worked_matches {x : Ran σ₁ Turn} (same : m.AlikeFlush f g) (ab : m.alike a b)
    (wv : m.related w v) (hc : m.about f.connection) (h : Worked m.near f a w x) :
    (∃ y, Worked m.far g b v y ∧ m.Matches m.AlikeTurn x y) ∨
      ∃ a' b' u v', RefusedAt m f g x a' b' u v' ∧
        ∀ y, Transmitted m.far g b' v' y → Worked m.far g b v (y.after u) := by
  obtain ⟨held, hheld, rfl⟩ := same
  have same : m.AlikeFlush f { f with held } := ⟨held, hheld, rfl⟩
  have hproduce := m.produce wv ab hc
  have hempty := alike_isEmpty ab
  cases h with
  | resent full sent =>
    rw [hempty] at full
    rcases transmitted_matches same ab wv hc sent with ⟨y, hy, hm⟩ | ⟨hv, hw, ht⟩
    · exact Or.inl ⟨y, .resent full hy, hm⟩
    · exact Or.inr ⟨a, b, [], v, ⟨hv, ab, full, hw, ht⟩, fun y hy => .resent full hy⟩
  | pollFailed empty polled =>
    rw [hempty] at empty
    obtain ⟨v₁, polled, hw⟩ := far_of_near hproduce polled
    refine Or.inl ⟨_, .pollFailed empty polled, .stop rfl (alikeFlush_some (m.append ab _)), hw, ?_⟩
    simp [m.toldPoll ab]
  | produced empty polled sent =>
    rw [hempty] at empty
    obtain ⟨v₁, polled, hw⟩ := far_of_near hproduce polled
    rcases transmitted_matches same (m.append ab _) hw hc sent with ⟨y, hy, hm⟩ | ⟨hv, hw, ht⟩
    · refine Or.inl ⟨_, .produced empty polled hy, hm.value, hm.world, ?_⟩
      simp [m.toldPoll ab, hm.told]
    · refine Or.inr ⟨_, _, _, _, ⟨hv, m.append ab _, ?_, hw, ?_⟩, fun y hy =>
        .produced empty polled hy⟩
      · have hs := m.substantial f.connection b v
        simpa [Buffer.isEmpty, polled] using hs
      · simp [m.toldPoll ab, ht]
  | ranDry empty polled woundUp =>
    rw [hempty] at empty
    obtain ⟨v₁, polled, hw⟩ := far_of_near hproduce polled
    obtain ⟨y, hy, hm⟩ := woundUp_matches same (m.append ab _) hw hc woundUp
    refine Or.inl ⟨_, .ranDry empty polled hy, hm.value, hm.world, ?_⟩
    simp [m.toldPoll ab, hm.told]

/-- What a send does does not depend on the buffer that the flush held before. -/
theorem transmitted_held {σ : Type} {s : Surroundings σ} {f : EngineFlush} {held : Option Buffer}
    {b : Buffer} {w : σ} {x : Ran σ Turn} (h : Transmitted s { f with held } b w x) :
    Transmitted s f b w x := by
  cases h with
  | failed sent => exact .failed sent
  | refused sent => exact .refused sent
  | accepted sent => exact .accepted sent

/-- A round that holds something sends it. -/
theorem rounded_full {σ : Type} {s : Surroundings σ} {f : EngineFlush} {b : Buffer} {w : σ}
    {x : Ran σ Turn} (full : b.isEmpty = false) (h : Rounded s { f with held := some b } w x) :
    Transmitted s f b w x := by
  cases h with
  | intro taken worked =>
    obtain rfl := taken_unique taken (.held rfl)
    cases worked with
    | resent _ sent => exact transmitted_held sent
    | pollFailed empty => simp [full] at empty
    | produced empty => simp [full] at empty
    | ranDry empty => simp [full] at empty

/-- A round does the same near and far, or it is refused near. Then the far
round goes on as a round of the refused flush does. -/
theorem rounded_matches {x : Ran σ₁ Turn} (same : m.AlikeFlush f g) (wv : m.related w v)
    (hc : m.about f.connection) (h : Rounded m.near f w x) :
    (∃ y, Rounded m.far g v y ∧ m.Matches m.AlikeTurn x y) ∨
      ∃ a b u v', RefusedAt m f g x a b u v' ∧
        ∀ y, Rounded m.far { g with held := some b } v' y → Rounded m.far g v (y.after u) := by
  cases h with
  | intro taken worked =>
    obtain ⟨buffer, hb, hm⟩ := taken_matches same wv taken
    rcases worked_matches same hm.value hm.world hc worked with
      ⟨y, hy, hm'⟩ | ⟨a, b, u, v', hr, hgo⟩
    · refine Or.inl ⟨_, .intro hb hy, hm'.value, hm'.world, ?_⟩
      simp [hm.told, hm'.told]
    · refine Or.inr ⟨a, b, buffer.trace ++ u, v', ⟨hr.value, hr.alike, hr.full, hr.world, ?_⟩, ?_⟩
      · simp [hm.told, hr.told]
      · intro y hy
        have := Rounded.intro hb (hgo y (rounded_full hr.full hy))
        rwa [after_after] at this

end Rounds

end Mirror

end Outbox
