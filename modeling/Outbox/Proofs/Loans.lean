-- What a pool lends out when all who ask want the same room. Owners only append to their
-- buffers or clear them, so each buffer that comes back is large enough for the next who
-- asks, and a new one is made only while none is kept. So the kept buffers and those in
-- hand are all that were ever made, and these are as many as were in hand at one time. If
-- no more than the list has room for are ever in hand, the list takes back all of them.
import Mathlib.Data.List.Infix
import Outbox.Proofs.FreeList

namespace Outbox

namespace Pool

/-! ## Buffers in hand -/

/-- How many buffers are in hand after some visits. -/
def inHand (visits : List Visit) : Nat :=
  visits.countP Visit.isTake - visits.countP Visit.isBring

/-- The most buffers that were in hand at any moment of some visits. -/
def peak (visits : List Visit) : Nat := (visits.inits.map inHand).foldl max 0

theorem peak_concat (visits : List Visit) (v : Visit) :
    peak (visits ++ [v]) = max (peak visits) (inHand (visits ++ [v])) := by
  unfold peak
  rw [List.inits_append]
  simp

theorem peak_le_concat (visits : List Visit) (v : Visit) : peak visits ≤ peak (visits ++ [v]) := by
  rw [peak_concat]
  exact Nat.le_max_left _ _

theorem peak_mono {earlier visits : List Visit} (begins : earlier <+: visits) :
    peak earlier ≤ peak visits := by
  obtain ⟨later, rfl⟩ := begins
  induction later using List.reverseRecOn with
  | nil => simp
  | append_singleton later v ih =>
    rw [← List.append_assoc]
    exact Nat.le_trans ih (peak_le_concat _ v)

/-! ## Visits, the last one apart -/

theorem visitAll_concat (p : Pool) (visits : List Visit) (v : Visit) :
    p.visitAll (visits ++ [v]) = (p.visitAll visits).visit v := by
  simp [visitAll]

theorem upshots_concat (p : Pool) (visits : List Visit) (v : Visit) :
    p.upshots (visits ++ [v]) = p.upshots visits ++ [(p.visitAll visits).upshot v] := by
  induction visits generalizing p with
  | nil => rfl
  | cons first rest ih =>
    rw [List.cons_append, upshots, ih]
    rfl

/-! ## Loans -/

/-- The owners make these visits, and then have these buffers. All who ask want the same
room. An owner appends to a buffer, which may give it more room, clears it, or gives it
back, and does nothing else with it. -/
inductive Lent (start : Pool) (least : Nat) : List Visit → List Buffer → Prop where
  | none : Lent start least [] []
  | take {visits : List Visit} {out : List Buffer} (earlier : Lent start least visits out) :
      Lent start least (visits ++ [.take least])
        (((start.visitAll visits).acquire least).1 :: out)
  | append {visits : List Visit} {before after : List Buffer} {b b' : Buffer} {bytes : Bytes}
      (earlier : Lent start least visits (before ++ b :: after))
      (appended : b'.contents = b.contents ++ bytes) (room : b.capacity ≤ b'.capacity) :
      Lent start least visits (before ++ b' :: after)
  | clear {visits : List Visit} {before after : List Buffer} {b : Buffer}
      (earlier : Lent start least visits (before ++ b :: after)) :
      Lent start least visits (before ++ b.clear :: after)
  | giveBack {visits : List Visit} {before after : List Buffer} {b : Buffer}
      (earlier : Lent start least visits (before ++ b :: after)) :
      Lent start least (visits ++ [.bring b]) (before ++ after)

namespace Lent

variable {start : Pool} {limit least : Nat} {visits earlier : List Visit} {out : List Buffer}

/-- What was taken is in hand or was given back. -/
theorem balance (lent : Lent start least visits out) :
    out.length + visits.countP Visit.isBring = visits.countP Visit.isTake := by
  induction lent with
  | none => rfl
  | take earlier ih =>
    simp [Visit.isTake, Visit.isBring]
    omega
  | append earlier appended room ih => simpa using ih
  | clear earlier ih => simpa using ih
  | giveBack earlier ih =>
    simp [Visit.isTake, Visit.isBring] at ih ⊢
    omega

theorem length_eq_inHand (lent : Lent start least visits out) : out.length = inHand visits := by
  have balance := lent.balance
  unfold inHand
  omega

/-- Each moment has its loans. -/
theorem upTo (lent : Lent start least visits out) (begins : earlier <+: visits) :
    ∃ out, Lent start least earlier out := by
  induction lent with
  | none =>
    obtain rfl := List.prefix_nil.1 begins
    exact ⟨_, .none⟩
  | take before ih =>
    rcases List.prefix_concat_iff.1 begins with rfl | begins
    · exact ⟨_, before.take⟩
    · exact ih begins
  | append before appended room ih => exact ih begins
  | clear before ih => exact ih begins
  | giveBack before ih =>
    rcases List.prefix_concat_iff.1 begins with rfl | begins
    · exact ⟨_, before.giveBack⟩
    · exact ih begins

end Lent

/-- All buffers have the room that is asked for, no more of them were made than were in
hand at one time, and none was discarded. -/
structure Thrifty (start : Pool) (least : Nat) (visits : List Visit) (out : List Buffer) :
    Prop where
  kept : ∀ b ∈ (start.visitAll visits).free, least ≤ b.capacity
  out : ∀ b ∈ out, least ≤ b.capacity
  made : (start.upshots visits).count .made = peak visits
  discarded : (start.upshots visits).count .discarded = 0

namespace Thrifty

variable {limit least : Nat} {visits : List Visit} {out before after : List Buffer} {b : Buffer}

/-- What was made is kept or in hand. -/
theorem retained (thrifty : Thrifty { limit } least visits out)
    (lent : Lent { limit } least visits out) :
    (visitAll { limit } visits).retained + out.length = peak visits := by
  have stays := retained_visitAll { limit } visits
  have met := upshots_takes { limit } visits
  have balance := lent.balance
  have made := thrifty.made
  have discarded := thrifty.discarded
  rw [show ({ limit } : Pool).retained = 0 from rfl] at stays
  omega

theorem take (thrifty : Thrifty { limit } least visits out)
    (lent : Lent { limit } least visits out) :
    Thrifty { limit } least (visits ++ [.take least])
      (((visitAll { limit } visits).acquire least).1 :: out) := by
  have all := thrifty.retained lent
  have more := lent.take.length_eq_inHand
  obtain ⟨kept, inUse, made, discarded⟩ := thrifty
  rcases acquire_spec (visitAll { limit } visits) least with ⟨told, reuses⟩ | ⟨told, makes⟩
  · -- there was a kept buffer, so there have been more in hand than now
    have some := reuses.others.length_eq
    refine ⟨?_, ?_, ?_, ?_⟩
    · intro a mem
      rw [visitAll_concat] at mem
      exact kept a (reuses.others.mem_iff.mpr (List.mem_cons_of_mem _ mem))
    · exact List.forall_mem_cons.mpr ⟨reuses.large, inUse⟩
    · rw [upshots_concat, told, List.count_append, made, peak_concat, ← more]
      simp only [Pool.retained, List.length_cons] at all some ⊢
      have same : List.count Upshot.made [.reused] = 0 := rfl
      omega
    · rw [upshots_concat, told, List.count_append, discarded]
      rfl
  · -- every kept buffer would have been large enough, so none was kept
    have none : (visitAll { limit } visits).free = [] :=
      List.eq_nil_iff_forall_not_mem.mpr fun a mem =>
        absurd (kept a mem) (Nat.not_le_of_lt (makes.small a mem))
    refine ⟨?_, ?_, ?_, ?_⟩
    · intro a mem
      rw [visitAll_concat, visit, makes.same] at mem
      exact kept a mem
    · exact List.forall_mem_cons.mpr ⟨makes.fits.2, inUse⟩
    · rw [upshots_concat, told, List.count_append, made, peak_concat, ← more]
      simp only [Pool.retained, none, List.length_nil, List.length_cons] at all ⊢
      have one : List.count Upshot.made [.made] = 1 := rfl
      omega
    · rw [upshots_concat, told, List.count_append, discarded]
      rfl

/-- An owner changes a buffer, and leaves it its room. -/
theorem change {b' : Buffer} (thrifty : Thrifty { limit } least visits (before ++ b :: after))
    (room : b.capacity ≤ b'.capacity) :
    Thrifty { limit } least visits (before ++ b' :: after) := by
  obtain ⟨kept, inUse, made, discarded⟩ := thrifty
  obtain ⟨first, others⟩ := List.forall_mem_append.1 inUse
  obtain ⟨large, last⟩ := List.forall_mem_cons.1 others
  have all : ∀ a ∈ b' :: after, least ≤ a.capacity :=
    List.forall_mem_cons.2 ⟨Nat.le_trans large room, last⟩
  exact ⟨kept, List.forall_mem_append.2 ⟨first, all⟩, made, discarded⟩

theorem giveBack (thrifty : Thrifty { limit } least visits (before ++ b :: after))
    (lent : Lent { limit } least visits (before ++ b :: after)) (few : peak visits ≤ limit) :
    Thrifty { limit } least (visits ++ [.bring b]) (before ++ after) := by
  have all := thrifty.retained lent
  have fewer := lent.giveBack.length_eq_inHand
  obtain ⟨kept, inUse, made, discarded⟩ := thrifty
  obtain ⟨first, others⟩ := List.forall_mem_append.1 inUse
  obtain ⟨large, last⟩ := List.forall_mem_cons.1 others
  have tidy : Tidy limit { limit } := ⟨rfl, Nat.zero_le _, by simp⟩
  have limited := (tidy.visitAll visits).limited
  simp only [List.length_append, List.length_cons] at all fewer
  rcases release_spec (visitAll { limit } visits) b with ⟨told, -, grown⟩ | ⟨-, full, -⟩
  · refine ⟨?_, ?_, ?_, ?_⟩
    · intro a mem
      rw [visitAll_concat, visit, grown, List.mem_append, List.mem_singleton] at mem
      rcases mem with mem | rfl
      · exact kept a mem
      · exact large
    · exact List.forall_mem_append.2 ⟨first, last⟩
    · rw [upshots_concat, told, List.count_append, made, peak_concat, ← fewer]
      have same : List.count Upshot.made [.kept] = 0 := rfl
      omega
    · rw [upshots_concat, told, List.count_append, discarded]
      rfl
  · -- this one is in hand, so the list has room for it
    unfold Pool.retained at all
    omega

end Thrifty

theorem Lent.thrifty {limit least : Nat} {visits : List Visit} {out : List Buffer}
    (lent : Lent { limit } least visits out) (few : peak visits ≤ limit) :
    Thrifty { limit } least visits out := by
  induction lent with
  | none => exact ⟨by simp [visitAll], by simp, rfl, rfl⟩
  | take earlier ih => exact (ih (Nat.le_trans (peak_le_concat _ _) few)).take earlier
  | append earlier appended room ih => exact (ih few).change room
  | clear earlier ih => exact (ih few).change (Nat.le_refl _)
  | @giveBack visits before after b earlier ih =>
    have few : peak visits ≤ limit := Nat.le_trans (peak_le_concat _ _) few
    exact (ih few).giveBack earlier few

/-! ## The law -/

/-- A pool makes only as many buffers as are in hand at one time. The owners of its buffers
all ask for the same room, give back what they took, append to it and clear it, and never
have more in hand than the pool keeps. At each moment, until its counters wrap, the pool
has made as many buffers as were in hand at one time so far, has discarded none, and knows
where all of them are: with the owners or on its list. -/
theorem a_pool_makes_only_what_is_in_hand_at_one_time {limit least : Nat} {visits : List Visit}
    {out : List Buffer} (lent : Lent { limit } least visits out) (few : peak visits ≤ limit)
    (unwrapped : visits.countP Visit.isTake < 2 ^ 64) :
    out.length = inHand visits ∧
      ∀ earlier, earlier <+: visits →
        let p := visitAll { limit } earlier
        let told := upshots { limit } earlier
        told.count .made = peak earlier ∧ told.count .discarded = 0 ∧
          p.outstanding + p.retained = peak earlier := by
  refine ⟨lent.length_eq_inHand, fun earlier begins => ?_⟩
  intro p told
  obtain ⟨held, lent'⟩ := lent.upTo begins
  have thrifty := lent'.thrifty (Nat.le_trans (peak_mono begins) few)
  refine ⟨thrifty.made, thrifty.discarded, ?_⟩
  have balance := lent'.balance
  have few' : earlier.countP Visit.isTake < 2 ^ 64 :=
    Nat.lt_of_le_of_lt begins.sublist.countP_le unwrapped
  have known : p.outstanding = earlier.countP Visit.isTake - earlier.countP Visit.isBring :=
    outstanding_of_counts rfl rfl (counts_visitAll { limit } earlier)
      (balance ▸ Nat.le_add_left _ _) few'
  have all : p.retained + held.length = peak earlier := thrifty.retained lent'
  omega

/-- Two buffers are taken. The first grows and comes back, is taken again, and both come
back. -/
def twoLoans : List Visit :=
  [.take 4, .take 4, .bring ((Buffer.withCapacity 4).append [1, 2, 3, 4, 5]), .take 4,
    .bring (.withCapacity 4), .bring (.withCapacity 8)]

theorem a_pool_makes_only_what_is_in_hand_at_one_time_of_two :
    Lent { limit := 2 } 4 twoLoans [] ∧ peak twoLoans ≤ 2 ∧
      twoLoans.countP Visit.isTake < 2 ^ 64 ∧
      (upshots { limit := 2 } twoLoans).count .made = 2 ∧
      (visitAll { limit := 2 } twoLoans).outstanding +
        (visitAll { limit := 2 } twoLoans).retained = 2 := by
  let small : Buffer := .withCapacity 4
  let large : Buffer := small.append [1, 2, 3, 4, 5]
  have both : Lent { limit := 2 } 4 [.take 4, .take 4] [small, small] := .take (.take .none)
  have grown : Lent { limit := 2 } 4 [.take 4, .take 4] [large, small] :=
    @Lent.append _ _ _ [] [small] small large [1, 2, 3, 4, 5] both rfl (small.capacity_le_append _)
  have back : Lent { limit := 2 } 4 [.take 4, .take 4, .bring large] [small] :=
    @Lent.giveBack _ _ _ [] [small] large grown
  have again : Lent { limit := 2 } 4 [.take 4, .take 4, .bring large, .take 4]
      [large.clear, small] := back.take
  have last : Lent { limit := 2 } 4 [.take 4, .take 4, .bring large, .take 4, .bring small]
      [large.clear] := @Lent.giveBack _ _ _ [large.clear] [] small again
  have lent : Lent { limit := 2 } 4 twoLoans [] := @Lent.giveBack _ _ _ [] [] large.clear last
  have few : peak twoLoans ≤ 2 := by decide
  have unwrapped : twoLoans.countP Visit.isTake < 2 ^ 64 := by decide
  obtain ⟨-, always⟩ := a_pool_makes_only_what_is_in_hand_at_one_time lent few unwrapped
  obtain ⟨made, -, all⟩ := always twoLoans (List.prefix_refl _)
  have most : peak twoLoans = 2 := by decide
  exact ⟨lent, few, unwrapped, made.trans most, all.trans most⟩

end Pool

end Outbox
