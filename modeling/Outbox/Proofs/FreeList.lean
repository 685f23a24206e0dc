-- The free list of a pool, over any history of visits. A request is met by the
-- first kept buffer that is large enough, and the last one moves to its place,
-- so all others are still kept. A buffer that comes back joins the list, emptied,
-- unless the list is full. So whatever was given back is kept, or was handed out
-- again, or was discarded.
import Mathlib.Data.List.Perm.Basic
import Outbox.Proofs.PoolAccount

namespace Outbox

namespace Pool

/-! ## Visits -/

inductive Visit where
  /-- Takes a buffer with room for so many bytes. -/
  | take (least : Nat)
  /-- Brings any buffer, from this pool or from elsewhere. -/
  | bring (buffer : Buffer)

inductive Upshot where
  /-- A kept buffer is handed out. -/
  | reused
  /-- A new buffer is handed out. -/
  | made
  | kept
  | discarded
  deriving DecidableEq

def Visit.isTake : Visit → Bool
  | .take _ => true
  | .bring _ => false

def Visit.isBring : Visit → Bool
  | .take _ => false
  | .bring _ => true

/-- A request reuses a buffer if one that is kept is large enough. A buffer
that comes back is kept if there is room. -/
def upshot (p : Pool) : Visit → Upshot
  | .take least => if p.free.any (fun b => least ≤ b.capacity) then .reused else .made
  | .bring _ => if p.free.length < p.limit then .kept else .discarded

def visit (p : Pool) : Visit → Pool
  | .take least => (p.acquire least).2
  | .bring b => p.release b

def visitAll (p : Pool) (visits : List Visit) : Pool := visits.foldl visit p

def upshots : Pool → List Visit → List Upshot
  | _, [] => []
  | p, v :: rest => p.upshot v :: upshots (p.visit v) rest

/-! ## Requests -/

/-- The buffer handed out is the first kept one that is large enough. All
others are still kept. -/
structure Reuses (p : Pool) (least : Nat) (b : Buffer) (q : Pool) : Prop where
  large : least ≤ b.capacity
  first : ∃ before after, p.free = before ++ b :: after ∧ ∀ a ∈ before, a.capacity < least
  others : p.free.Perm (b :: q.free)

/-- No kept buffer is large enough. The buffer handed out is new, and the list
is as it was. -/
structure Makes (p : Pool) (least : Nat) (b : Buffer) (q : Pool) : Prop where
  small : ∀ a ∈ p.free, a.capacity < least
  new : b = .withCapacity least
  same : q.free = p.free

-- A buffer with more room than was asked for would do as well: what follows
-- uses of a new buffer only this.
theorem Makes.fits {p q : Pool} {least : Nat} {b : Buffer} (makes : p.Makes least b q) :
    b.contents = [] ∧ least ≤ b.capacity := by
  rw [makes.new]
  exact ⟨rfl, Nat.le_refl _⟩

/-- The last buffer takes the place of the one removed. -/
theorem swapRemove_perm (before after : List Buffer) (b : Buffer) :
    (swapRemove (before ++ b :: after) before.length).Perm (before ++ after) := by
  rcases List.eq_nil_or_concat after with rfl | ⟨between, last, rfl⟩
  · simp [swapRemove]
  · have moved : swapRemove (before ++ b :: (between ++ [last])) before.length =
        before ++ last :: between := by
      have ends : (before ++ b :: (between ++ [last])).getLast? = some last := by
        rw [← List.cons_append, ← List.append_assoc, List.getLast?_concat]
      unfold swapRemove
      rw [ends]
      simp only [List.set_append_right _ _ (Nat.le_refl _), Nat.sub_self, List.set_cons_zero]
      rw [← List.cons_append, ← List.append_assoc, List.dropLast_concat]
    rw [List.concat_eq_append, moved]
    exact (List.perm_append_singleton last between).symm.append_left before

theorem findIdx_middle {α : Type} {test : α → Bool} {before after : List α} {b : α}
    (small : ∀ a ∈ before, test a = false) (large : test b = true) :
    (before ++ b :: after).findIdx test = before.length := by
  have none : before.findIdx test = before.length :=
    List.findIdx_eq_length.mpr small
  rw [List.findIdx_append, none, if_neg (Nat.lt_irrefl _), List.findIdx_cons, large]
  simp

theorem acquire_reuses {p : Pool} {least : Nat}
    (large : p.upshot (.take least) = .reused) :
    p.Reuses least (p.acquire least).1 (p.acquire least).2 := by
  have enough : p.free.any (fun b => least ≤ b.capacity) = true := by
    by_contra none
    simp [upshot, none] at large
  obtain ⟨b, found⟩ := Option.isSome_iff_exists.mp
    ((List.find?_isSome (p := fun b : Buffer => decide (least ≤ b.capacity))).mpr
      (List.any_eq_true.mp enough))
  obtain ⟨fits, before, after, cut, small⟩ := List.find?_eq_some_iff_append.mp found
  have place : p.free.findIdx (fun b => least ≤ b.capacity) = before.length := by
    rw [cut]
    exact findIdx_middle (by simpa using small) fits
  have outcome : p.acquire least = (b, { p with
      acquired := p.acquired + 1, free := swapRemove (before ++ b :: after) before.length }) := by
    unfold acquire
    simp only [found, place]
    rw [cut]
  rw [outcome]
  refine ⟨by simpa using fits, ⟨before, after, cut, by simpa using small⟩, ?_⟩
  rw [cut]
  exact List.perm_middle.trans ((swapRemove_perm before after b).symm.cons b)

theorem acquire_makes {p : Pool} {least : Nat} (small : p.upshot (.take least) = .made) :
    p.Makes least (p.acquire least).1 (p.acquire least).2 := by
  have none : ∀ a ∈ p.free, a.capacity < least := by
    by_contra some
    simp only [not_forall, Nat.not_lt] at some
    obtain ⟨a, mem, fits⟩ := some
    have enough : p.free.any (fun b => least ≤ b.capacity) = true :=
      List.any_eq_true.mpr ⟨a, mem, by simpa using fits⟩
    simp [upshot, enough] at small
  have missed : p.free.find? (fun b => least ≤ b.capacity) = .none :=
    List.find?_eq_none.mpr fun a mem => by simpa using none a mem
  unfold acquire
  rw [missed]
  exact ⟨none, rfl, rfl⟩

/-- A request either reuses a kept buffer or makes a new one, as the pool says. -/
theorem acquire_spec (p : Pool) (least : Nat) :
    (p.upshot (.take least) = .reused ∧ p.Reuses least (p.acquire least).1 (p.acquire least).2) ∨
      (p.upshot (.take least) = .made ∧ p.Makes least (p.acquire least).1 (p.acquire least).2) := by
  have either : p.upshot (.take least) = .reused ∨ p.upshot (.take least) = .made := by
    simp only [upshot]
    split <;> simp
  exact either.imp (fun large => ⟨large, acquire_reuses large⟩)
    (fun small => ⟨small, acquire_makes small⟩)

@[simp] theorem limit_acquire (p : Pool) (least : Nat) : (p.acquire least).2.limit = p.limit := by
  unfold acquire
  split <;> rfl

/-! ## Releases -/

/-- A buffer that comes back is kept, emptied, behind all others, or the list
is full and stays as it was. -/
theorem release_spec (p : Pool) (b : Buffer) :
    (p.upshot (.bring b) = .kept ∧ p.free.length < p.limit ∧
        (p.release b).free = p.free ++ [.withCapacity b.capacity]) ∨
      (p.upshot (.bring b) = .discarded ∧ p.limit ≤ p.free.length ∧
        (p.release b).free = p.free) := by
  by_cases room : p.free.length < p.limit
  · left
    exact ⟨if_pos room, room, by simp only [release, if_pos room]; rfl⟩
  · right
    exact ⟨if_neg room, Nat.le_of_not_lt room, by simp only [release, if_neg room]⟩

@[simp] theorem limit_release (p : Pool) (b : Buffer) : (p.release b).limit = p.limit := by
  unfold release
  split <;> rfl

/-! ## The list over a history -/

/-- The list is within its limit, and all that is kept is empty. -/
structure Tidy (limit : Nat) (p : Pool) : Prop where
  limited : p.limit = limit
  bounded : p.retained ≤ limit
  emptied : ∀ b ∈ p.free, b.contents = []

variable {limit : Nat} {p : Pool}

theorem Tidy.acquire (tidy : Tidy limit p) (least : Nat) : Tidy limit (p.acquire least).2 := by
  refine ⟨(limit_acquire p least).trans tidy.limited, ?_, ?_⟩
  · rcases acquire_spec p least with ⟨-, reuses⟩ | ⟨-, makes⟩
    · have shorter := reuses.others.length_eq
      rw [List.length_cons] at shorter
      have bounded := tidy.bounded
      unfold retained at bounded ⊢
      omega
    · unfold retained
      rw [makes.same]
      exact tidy.bounded
  · intro b mem
    rcases acquire_spec p least with ⟨-, reuses⟩ | ⟨-, makes⟩
    · exact tidy.emptied b (reuses.others.mem_iff.mpr (List.mem_cons_of_mem _ mem))
    · exact tidy.emptied b (makes.same ▸ mem)

theorem Tidy.release (tidy : Tidy limit p) (b : Buffer) : Tidy limit (p.release b) := by
  refine ⟨(limit_release p b).trans tidy.limited, ?_, ?_⟩
  · rcases release_spec p b with ⟨-, room, grown⟩ | ⟨-, -, same⟩
    · unfold retained
      rw [grown, List.length_append, List.length_singleton, ← tidy.limited]
      exact room
    · unfold retained
      rw [same]
      exact tidy.bounded
  · intro a mem
    rcases release_spec p b with ⟨-, -, grown⟩ | ⟨-, -, same⟩
    · rw [grown, List.mem_append, List.mem_singleton] at mem
      rcases mem with mem | rfl
      · exact tidy.emptied a mem
      · rfl
    · exact tidy.emptied a (same ▸ mem)

theorem Tidy.visit (tidy : Tidy limit p) : (v : Visit) → Tidy limit (p.visit v)
  | .take least => tidy.acquire least
  | .bring b => tidy.release b

theorem Tidy.visitAll (tidy : Tidy limit p) (visits : List Visit) :
    Tidy limit (p.visitAll visits) := by
  induction visits generalizing p with
  | nil => exact tidy
  | cons v rest ih => exact ih (tidy.visit v)

/-- All that is handed out is empty and large enough. -/
theorem Tidy.handed_out (tidy : Tidy limit p) (least : Nat) :
    (p.acquire least).1.contents = [] ∧ least ≤ (p.acquire least).1.capacity := by
  rcases acquire_spec p least with ⟨-, reuses⟩ | ⟨-, makes⟩
  · exact ⟨tidy.emptied _ (reuses.others.mem_iff.mpr List.mem_cons_self), reuses.large⟩
  · exact makes.fits

/-! ## Conservation -/

/-- What comes back is kept, or is discarded. What is kept stays until it is
handed out again. -/
theorem retained_visit (p : Pool) (v : Visit) :
    (p.visit v).retained + [p.upshot v].count .reused + [p.upshot v].count .discarded =
      p.retained + [v].countP Visit.isBring := by
  unfold retained
  cases v with
  | take least =>
    rcases acquire_spec p least with ⟨told, reuses⟩ | ⟨told, makes⟩
    · rw [told, reuses.others.length_eq]
      rfl
    · rw [told, visit, makes.same]
      rfl
  | bring b =>
    rcases release_spec p b with ⟨told, -, grown⟩ | ⟨told, -, same⟩
    · rw [told, visit, grown, List.length_append]
      rfl
    · rw [told, visit, same]
      rfl

theorem retained_visitAll (p : Pool) (visits : List Visit) :
    (p.visitAll visits).retained + (p.upshots visits).count .reused +
      (p.upshots visits).count .discarded = p.retained + visits.countP Visit.isBring := by
  induction visits generalizing p with
  | nil => rfl
  | cons v rest ih =>
    have step := retained_visit p v
    have later := ih (p.visit v)
    rw [show v :: rest = [v] ++ rest from rfl, List.countP_append]
    rw [show p.visitAll ([v] ++ rest) = (p.visit v).visitAll rest from rfl,
      show p.upshots ([v] ++ rest) = [p.upshot v] ++ (p.visit v).upshots rest from rfl,
      List.count_append, List.count_append]
    omega

/-- Each request is met by a kept buffer or by a new one. -/
theorem upshots_takes (p : Pool) (visits : List Visit) :
    (p.upshots visits).count .reused + (p.upshots visits).count .made =
      visits.countP Visit.isTake := by
  induction visits generalizing p with
  | nil => rfl
  | cons v rest ih =>
    have step : [p.upshot v].count .reused + [p.upshot v].count .made =
        [v].countP Visit.isTake := by
      cases v with
      | take least =>
        rcases acquire_spec p least with ⟨told, -⟩ | ⟨told, -⟩ <;> rw [told] <;> rfl
      | bring b =>
        rcases release_spec p b with ⟨told, -⟩ | ⟨told, -⟩ <;> rw [told] <;> rfl
    have later := ih (p.visit v)
    rw [show v :: rest = [v] ++ rest from rfl, List.countP_append]
    rw [show p.upshots ([v] ++ rest) = [p.upshot v] ++ (p.visit v).upshots rest from rfl,
      List.count_append, List.count_append]
    omega

theorem counts_visit (p : Pool) (v : Visit) :
    p.Counts (p.visit v) ([v].countP Visit.isTake) ([v].countP Visit.isBring) := by
  cases v with
  | take least => exact counts_acquire p least
  | bring b => exact counts_release p b

theorem counts_visitAll (p : Pool) (visits : List Visit) :
    p.Counts (p.visitAll visits) (visits.countP Visit.isTake) (visits.countP Visit.isBring) := by
  induction visits generalizing p with
  | nil => exact counts_refl p
  | cons v rest ih =>
    have both := counts_trans (counts_visit p v) (ih (p.visit v))
    rw [← List.countP_append, ← List.countP_append] at both
    exact both

/-- Whatever one asks of a pool that started empty: the list keeps its limit
and only empty buffers. A request gets an empty buffer that is large enough,
the first kept one or else a new one, and no other kept buffer is lost. A
buffer that comes back is kept, emptied, unless the list is full. So until the
counters wrap, all that came back is kept, or was handed out again, or was
discarded, and all that was handed out was kept before or was new. -/
theorem kept_buffers_are_reused_or_stay (limit : Nat) (visits : List Visit) :
    let start : Pool := { limit }
    let p := start.visitAll visits
    let told := start.upshots visits
    Tidy limit p ∧
      (∀ least, (p.acquire least).1.contents = [] ∧ least ≤ (p.acquire least).1.capacity ∧
        ((p.upshot (.take least) = .reused ∧
            p.Reuses least (p.acquire least).1 (p.acquire least).2) ∨
          (p.upshot (.take least) = .made ∧
            p.Makes least (p.acquire least).1 (p.acquire least).2))) ∧
      (∀ b, (p.upshot (.bring b) = .kept ∧ p.retained < limit ∧
            (p.release b).free = p.free ++ [.withCapacity b.capacity]) ∨
          (p.upshot (.bring b) = .discarded ∧ p.retained = limit ∧
            (p.release b).free = p.free)) ∧
      (visits.countP Visit.isBring < 2 ^ 64 →
        p.released.toNat = p.retained + told.count .reused + told.count .discarded) ∧
      (visits.countP Visit.isTake < 2 ^ 64 →
        p.acquired.toNat = told.count .reused + told.count .made) := by
  intro start p told
  have fresh : Tidy limit start := ⟨rfl, Nat.zero_le _, fun _ mem => absurd mem List.not_mem_nil⟩
  have tidy : Tidy limit p := fresh.visitAll visits
  obtain ⟨acquired, released⟩ := counts_visitAll start visits
  rw [show start.acquired = 0 from rfl, UInt64.zero_add] at acquired
  rw [show start.released = 0 from rfl, UInt64.zero_add] at released
  refine ⟨tidy, ?_, ?_, ?_, ?_⟩
  · intro least
    exact ⟨(tidy.handed_out least).1, (tidy.handed_out least).2, acquire_spec p least⟩
  · intro b
    have bounded := tidy.bounded
    have cases := release_spec p b
    rw [tidy.limited] at cases
    exact cases.imp_right fun ⟨full, most, same⟩ => ⟨full, Nat.le_antisymm bounded most, same⟩
  · intro few
    have all := retained_visitAll start visits
    rw [show start.retained = 0 from rfl, Nat.zero_add] at all
    rw [show p.released = _ from released, UInt64.toNat_ofNat_of_lt' few]
    exact all.symm
  · intro few
    rw [show p.acquired = _ from acquired, UInt64.toNat_ofNat_of_lt' few]
    exact (upshots_takes start visits).symm

/-- A buffer comes in, goes out again and comes back. Another one does not
fit beside it, and none is large enough for the last request. -/
def fewVisits : List Visit :=
  [.bring ((Buffer.withCapacity 16).append [1]), .take 8, .bring (.withCapacity 16),
    .bring (.withCapacity 4), .take 64]

theorem kept_buffers_are_reused_or_stay_in_a_small_pool :
    fewVisits.countP Visit.isBring < 2 ^ 64 ∧ fewVisits.countP Visit.isTake < 2 ^ 64 ∧
      (visitAll { limit := 1 } fewVisits).released.toNat = 1 + 1 + 1 ∧
      (visitAll { limit := 1 } fewVisits).acquired.toNat = 1 + 1 := by
  have few : fewVisits.countP Visit.isBring < 2 ^ 64 := by decide
  have few' : fewVisits.countP Visit.isTake < 2 ^ 64 := by decide
  obtain ⟨-, -, -, released, acquired⟩ := kept_buffers_are_reused_or_stay 1 fewVisits
  exact ⟨few, few', (released few).trans (by decide), (acquired few').trans (by decide)⟩

end Pool

end Outbox
