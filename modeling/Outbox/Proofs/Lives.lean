-- The life of each command in a run. Submissions are numbered 1, 2, 3, and so
-- on. The first attempt at a command is the one that its submission makes, and
-- each later one takes the command up where the attempt before let it wait.
-- So what one attempt does to a command can be followed along its life.
import Outbox.Proofs.Attempts

namespace Outbox

variable {σ : Type} {s : Surroundings σ} {rounds : Nat}

/-! ## The docket at each moment -/

namespace Docket

/-- The docket after one more attempt. -/
def follow (d : Docket) (st : Stint) : Docket :=
  if st.fresh then d.enlist st else { d with waiting := requeue st d.waiting.tail }

/-- The docket after some attempts. -/
def after (d : Docket) (attempts : List Stint) : Docket := attempts.foldl follow d

theorem after_append_singleton (d : Docket) (attempts : List Stint) (st : Stint) :
    d.after (attempts ++ [st]) = (d.after attempts).follow st := by
  simp [after]

theorem follow_fresh (d : Docket) {st : Stint} (fresh : st.fresh = true) :
    d.follow st = d.enlist st := if_pos fresh

theorem follow_again {d : Docket} {st : Stint} {t : Ticket} {behind : List Ticket}
    (again : st.fresh = false) (front : d.waiting = t :: behind) :
    d.follow st = { d with waiting := requeue st behind } := by
  simp [follow, again, front]

end Docket

namespace History

variable {d₀ d : Docket} {h : List Stint} {w₀ w : σ}

/-- The attempts alone tell which commands wait. -/
theorem eq_after (hist : History s rounds d₀ w₀ h d w) : d = d₀.after h := by
  induction hist with
  | start => rfl
  | submit earlier made served ih =>
    subst served
    rw [Docket.after_append_singleton, ← ih]
    exact (Docket.follow_fresh _ rfl).symm
  | resume earlier front served ih =>
    subst served
    rw [Docket.after_append_singleton, ← ih]
    exact (Docket.follow_again rfl front).symm

/-- Each moment of a run has a history of its own. -/
theorem upTo {earlier : List Stint} (hist : History s rounds d₀ w₀ h d w)
    (begins : earlier <+: h) : ∃ w', History s rounds d₀ w₀ earlier (d₀.after earlier) w' := by
  induction hist with
  | start =>
    obtain rfl := List.prefix_nil.1 begins
    exact ⟨w₀, .start⟩
  | submit before made served ih =>
    rcases List.prefix_concat_iff.1 begins with rfl | begins
    · have now := before.submit made served
      exact ⟨_, now.eq_after ▸ now⟩
    · exact ih begins
  | resume before front served ih =>
    rcases List.prefix_concat_iff.1 begins with rfl | begins
    · have now := before.resume front served
      exact ⟨_, now.eq_after ▸ now⟩
    · exact ih begins

/-- What comes after a moment of a run is a history of its own. -/
theorem split {earlier later : List Stint}
    (hist : History s rounds d₀ w₀ (earlier ++ later) d w) :
    ∃ w', History s rounds d₀ w₀ earlier (d₀.after earlier) w' ∧
      History s rounds (d₀.after earlier) w' later d w := by
  have whole := hist
  generalize hh : earlier ++ later = h at hist
  induction hist generalizing later with
  | start =>
    obtain ⟨rfl, rfl⟩ := List.append_eq_nil_iff.1 hh
    exact ⟨w₀, .start, .start⟩
  | submit before made served ih =>
    rcases List.eq_nil_or_concat later with rfl | ⟨later, st, rfl⟩
    · rw [List.append_nil] at hh whole
      exact ⟨_, whole.eq_after ▸ whole, whole.eq_after ▸ .start⟩
    · rw [List.concat_eq_append, ← List.append_assoc] at hh
      obtain ⟨rfl, hst⟩ := List.append_inj' hh rfl
      obtain ⟨w', first, second⟩ := ih before rfl
      rw [List.concat_eq_append, List.singleton_inj.1 hst]
      exact ⟨w', first, second.submit made served⟩
  | resume before front served ih =>
    rcases List.eq_nil_or_concat later with rfl | ⟨later, st, rfl⟩
    · rw [List.append_nil] at hh whole
      exact ⟨_, whole.eq_after ▸ whole, whole.eq_after ▸ .start⟩
    · rw [List.concat_eq_append, ← List.append_assoc] at hh
      obtain ⟨rfl, hst⟩ := List.append_inj' hh rfl
      obtain ⟨w', first, second⟩ := ih before rfl
      rw [List.concat_eq_append, List.singleton_inj.1 hst]
      exact ⟨w', first, second.resume front served⟩

/-- A command that is taken up again is the first of those that wait. -/
theorem front_of_again {earlier later : List Stint} {st : Stint}
    (hist : History s rounds d₀ w₀ h d w) (cut : h = earlier ++ st :: later)
    (again : st.fresh = false) :
    ∃ behind, (d₀.after earlier).waiting = ⟨st.number, st.before⟩ :: behind := by
  have begins : earlier ++ [st] <+: h := ⟨later, by simp [cut]⟩
  obtain ⟨w', hist⟩ := hist.upTo begins
  generalize hl : earlier ++ [st] = l at hist
  generalize d₀.after l = d' at hist
  cases hist with
  | start => simp at hl
  | submit before made served =>
    subst served
    obtain ⟨rfl, hst⟩ := List.append_inj' hl rfl
    rw [List.singleton_inj.1 hst] at again
    cases again
  | resume before front served =>
    subst served
    obtain ⟨rfl, hst⟩ := List.append_inj' hl rfl
    rw [List.singleton_inj.1 hst, ← before.eq_after]
    exact ⟨_, front⟩

end History

/-! ## Submissions by number -/

/-- The requests that submit something, in order. -/
def submissions (requests : List Backlog.Request) : List Backlog.Request :=
  requests.filter fun r => r ≠ .drain

theorem submissions_commands (policy : Policy) (requests : List Backlog.Request) :
    (submissions requests).map (Backlog.Request.command? policy) =
      (requests.filterMap (Backlog.Request.command? policy)).map some := by
  induction requests with
  | nil => rfl
  | cons r rest ih =>
    cases r <;> simp_all [submissions, List.filterMap_cons, Backlog.Request.command?]

namespace History

variable {policy : Policy} {h : List Stint} {d : Docket} {w₀ w : σ}

/-- The submissions of a run have the numbers 1, 2, 3, and so on. -/
theorem numbers (hist : History s rounds { policy } w₀ h d w) :
    (h.filter Stint.fresh).map Stint.number = List.range' 1 d.submitted := by
  induction hist with
  | start => rfl
  | @submit h d w r c ran earlier made served ih =>
    subst served
    rw [List.filter_append, List.map_append, ih]
    simp [Ticket.serve, Docket.enlist, List.range'_concat, Nat.add_comm]
  | @resume h d w t behind ran earlier front served ih =>
    subst served
    rw [List.filter_append, List.map_append, ih]
    simp [Ticket.serve]

/-- Every attempt is served as its command was when the attempt began. -/
theorem served {d₀ : Docket} (hist : History s rounds d₀ w₀ h d w) :
    ∀ st ∈ h, ∃ w, (Ticket.serve rounds st.fresh ⟨st.number, st.before⟩ s w).value = st := by
  induction hist with
  | start => simp
  | submit earlier made served ih =>
    subst served
    intro st hst
    rcases List.mem_append.1 hst with hst | hst
    · exact ih st hst
    · rw [List.mem_singleton.1 hst]
      exact ⟨_, rfl⟩
  | resume earlier front served ih =>
    subst served
    intro st hst
    rcases List.mem_append.1 hst with hst | hst
    · exact ih st hst
    · rw [List.mem_singleton.1 hst]
      exact ⟨_, rfl⟩

end History

/-! ## What the attempts tell of a run -/

/-- The attempts tell all of a run: they make its calls and leave its commands,
and the first attempt at each command is that of its submission. -/
structure Chronicle (policy : Policy) (requests : List Backlog.Request) (attempts : List Stint)
    (run : Ran σ (List Progress × Backlog)) : Prop where
  calls : run.trace.calls = (traceOf attempts).calls
  backlog : run.value.2 = (Docket.after { policy } attempts).backlog
  numbers : (attempts.filter Stint.fresh).map Stint.number =
    List.range' 1 (submissions requests).length
  commands : (attempts.filter Stint.fresh).map (some ∘ Stint.before) =
    (submissions requests).map (Backlog.Request.command? policy)

theorem performAll_chronicle (s : Surroundings σ) (rounds : Nat) (policy : Policy)
    (requests : List Backlog.Request) (w : σ) :
    Chronicle policy requests
      (({ policy } : Docket).performAll rounds requests s w).value.1.flatten
      (({ policy } : Backlog).performAll rounds requests s w) := by
  obtain ⟨erase, hist⟩ := Docket.performAll_history rounds { policy } requests s w
  have hrun : ({ policy } : Backlog).performAll rounds requests s w = _ := erase
  have commands := congrArg (List.map some)
    (Docket.performAll_fresh rounds { policy } requests s w)
  rw [List.map_map, ← submissions_commands] at commands
  constructor
  case calls =>
    rw [hrun]
    exact Docket.performAll_calls rounds { policy } requests s w
  case backlog => rw [hrun, ← hist.eq_after]
  case numbers =>
    have hn := hist.numbers
    have hlength := congrArg List.length hn
    have hsubmitted := congrArg List.length commands
    simp only [List.length_map, List.length_range'] at hlength hsubmitted
    rw [hn, ← hlength, hsubmitted]
  case commands => exact commands

namespace Chronicle

variable {policy : Policy} {requests : List Backlog.Request} {attempts : List Stint}
  {run : Ran σ (List Progress × Backlog)}

theorem number_of_fresh (chronicle : Chronicle policy requests attempts run) {i : Nat}
    {st : Stint} (found : (attempts.filter Stint.fresh)[i]? = some st) : st.number = i + 1 := by
  have hn := congrArg (fun l => l[i]?) chronicle.numbers
  simp only [List.getElem?_map, found, Option.map_some] at hn
  obtain ⟨lt, hn⟩ := List.getElem?_eq_some_iff.1 hn.symm
  rw [List.getElem_range' lt] at hn
  omega

/-- The first attempt at a command is that of the submission with its number. -/
theorem submission_of_fresh (chronicle : Chronicle policy requests attempts run) {first : Stint}
    (mem : first ∈ attempts) (fresh : first.fresh = true) :
    ∃ n r, first.number = n + 1 ∧ (submissions requests)[n]? = some r ∧
      r.command? policy = some first.before := by
  obtain ⟨i, hi⟩ := List.mem_iff_getElem?.1 (List.mem_filter.2 ⟨mem, fresh⟩)
  have hc := congrArg (fun l => l[i]?) chronicle.commands
  simp only [List.getElem?_map, hi, Option.map_some] at hc
  obtain ⟨r, found, made⟩ := Option.map_eq_some_iff.1 hc.symm
  exact ⟨i, r, chronicle.number_of_fresh hi, found, made⟩

/-- Each submission is attempted, under its number. -/
theorem fresh_of_submission (chronicle : Chronicle policy requests attempts run) {n : Nat}
    {r : Backlog.Request} (found : (submissions requests)[n]? = some r) :
    ∃ first ∈ attempts, first.fresh = true ∧ first.number = n + 1 ∧
      r.command? policy = some first.before := by
  have hc := congrArg (fun l => l[n]?) chronicle.commands
  simp only [List.getElem?_map, found, Option.map_some] at hc
  obtain ⟨first, hfirst, before⟩ := Option.map_eq_some_iff.1 hc
  obtain ⟨mem, fresh⟩ := List.mem_filter.1 (List.mem_of_getElem? hfirst)
  exact ⟨first, mem, fresh, chronicle.number_of_fresh hfirst, before.symm⟩

end Chronicle

/-! ## Lives -/

/-- The attempts at one command, from the first to the last so far. -/
inductive Life : Stint → List Stint → Stint → Prop where
  | submitted {st : Stint} (fresh : st.fresh = true) : Life st [st] st
  | resumed {first last st : Stint} {l : List Stint} (earlier : Life first l last)
      (waits : last.progress.waits = true) (same : st.before = last.after)
      (again : st.fresh = false) : Life first (l ++ [st]) st

namespace Life

variable {first last st : Stint} {l : List Stint}

theorem first_fresh (life : Life first l last) : first.fresh = true := by
  induction life with
  | submitted fresh => exact fresh
  | resumed _ _ _ _ ih => exact ih

theorem first_mem (life : Life first l last) : first ∈ l := by
  induction life with
  | submitted => exact List.mem_singleton_self first
  | resumed _ _ _ _ ih => exact List.mem_append_left _ ih

theorem last_mem (life : Life first l last) : last ∈ l := by
  cases life <;> simp

theorem getLast? (life : Life first l last) : l.getLast? = some last := by
  cases life <;> simp

theorem eq_first (life : Life first l last) (mem : st ∈ l) (fresh : st.fresh = true) :
    st = first := by
  induction life with
  | submitted => exact List.mem_singleton.1 mem
  | resumed _ _ _ again ih =>
    rcases List.mem_append.1 mem with mem | mem
    · exact ih mem
    · rw [List.mem_singleton.1 mem, again] at fresh
      cases fresh

end Life

/-- The attempts at each command are its life, and a ticket that waits is what
the last of them left. -/
structure Lived (h : List Stint) (d : Docket) : Prop where
  waiting : ∀ t ∈ d.waiting, ∃ first last, Life first (ofNumber t.number h) last ∧
    last.progress.waits = true ∧ last.ticket = t
  each : ∀ n, ofNumber n h = [] ∨ ∃ first last, Life first (ofNumber n h) last

/-- An attempt goes on with the life of its own command only. -/
theorem Lived.attempted {h : List Stint} {d d' : Docket} {first st : Stint} (before : Lived h d)
    (life : Life first (ofNumber st.number (h ++ [st])) st)
    (others : ∀ t ∈ d'.waiting, (t ∈ d.waiting ∧ t.number ≠ st.number) ∨
      t = st.ticket ∧ st.progress.waits = true) : Lived (h ++ [st]) d' := by
  constructor
  · intro t ht
    rcases others t ht with ⟨ht, hne⟩ | ⟨rfl, waits⟩
    · rw [ofNumber_append_ne h hne.symm]
      exact before.waiting t ht
    · exact ⟨first, st, life, waits, rfl⟩
  · intro n
    by_cases hn : st.number = n
    · exact Or.inr ⟨first, st, hn ▸ life⟩
    · rw [ofNumber_append_ne h hn]
      exact before.each n

theorem Lived.submit {h : List Stint} {d : Docket} {st : Stint} (before : Lived h d)
    (numbered : Numbered h d) (hn : st.number = d.submitted + 1) (fresh : st.fresh = true) :
    Lived (h ++ [st]) (d.enlist st) := by
  have new : ofNumber st.number h = [] := hn ▸ numbered.ofNumber_next
  have life : Life st (ofNumber st.number (h ++ [st])) st := by
    rw [ofNumber_append_self h rfl, new]
    exact .submitted fresh
  exact before.attempted life fun t ht => numbered.of_enlist hn ht

theorem Lived.resume {h : List Stint} {d : Docket} {st : Stint} {t : Ticket}
    {behind : List Ticket} (before : Lived h d) (numbered : Numbered h d)
    (front : d.waiting = t :: behind) (hn : st.number = t.number) (same : st.before = t.command)
    (again : st.fresh = false) :
    Lived (h ++ [st]) { d with waiting := Docket.requeue st behind } := by
  obtain ⟨first, last, life, waits, rfl⟩ := before.waiting t (front ▸ List.mem_cons_self ..)
  have next : Life first (ofNumber st.number (h ++ [st])) st := by
    rw [ofNumber_append_self h rfl, hn]
    exact .resumed life waits same again
  exact before.attempted next fun u hu => numbered.of_requeue front hn hu

namespace History

variable {policy : Policy} {h : List Stint} {d : Docket} {w₀ w : σ}

theorem lived (hist : History s rounds { policy } w₀ h d w) : Lived h d := by
  induction hist with
  | start => exact ⟨by simp, fun n => Or.inl rfl⟩
  | submit earlier made served ih =>
    subst served
    exact ih.submit earlier.numbered rfl rfl
  | resume earlier front served ih =>
    subst served
    exact ih.resume earlier.numbered front rfl rfl rfl

/-- The life of the command of a submission. -/
theorem life_of_fresh (hist : History s rounds { policy } w₀ h d w) {first : Stint}
    (mem : first ∈ h) (fresh : first.fresh = true) :
    ∃ last, Life first (ofNumber first.number h) last := by
  have hmem : first ∈ ofNumber first.number h := mem_ofNumber.2 ⟨mem, rfl⟩
  rcases hist.lived.each first.number with none | ⟨first', last, life⟩
  · rw [none] at hmem
    cases hmem
  · exact ⟨last, life.eq_first hmem fresh ▸ life⟩

end History

end Outbox
