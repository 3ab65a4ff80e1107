import Funnel.Proofs.Pool.History

/-!
# Bounded work after a failure

The first failure is the answer of a pool from then on, but nothing tells the other workers about
it. What still happens is again a history, from the pool where the failure was answered, and its
length is a matter of the workers that are left: each failure takes one of them, and an item in the
queue is only safe from a call when none is left to take it.
-/

set_option autoImplicit false

namespace Funnel.Pool

variable {α β : Type} {limit : Int} {items : List α} {p q r : Pool α β}
  {es fs : List (Event α β)}

theorem Run.append (h : Run p es q) (h' : Run q fs r) : Run p (es ++ fs) r := by
  induction h' with
  | start =>
    rw [List.append_nil]
    exact h
  | next _ s ih =>
    rw [← List.append_assoc]
    exact .next ih s

/-- No call is started by a pool that has raised, whatever happens next. -/
def StopsOnFailure (β : Type) (limit : Int) (items : List α) : Prop :=
  ∀ (es fs : List (Event α β)) (p q : Pool α β), Run (init limit items) es p → p.raised ≠ none →
    Run p fs q → taken fs = []

/-- What a history `fs` makes of a pool that `es` has led to. -/
structure GoesOn (limit : Int) (items : List α) (es fs : List (Event α β)) (p q : Pool α β) :
    Prop where
  outcome : q.outcome = p.outcome
  /-- Items are taken in the order of the queue. -/
  started : taken fs ++ q.waiting = p.waiting
  /-- Each failure has cost a worker, and each worker has at most one call. -/
  staffed : q.pending.length + (failures (es ++ fs)).length ≤ workers limit items.length
  /-- The work only ends early when no worker is left. -/
  ends : q.Over → q.waiting = [] ∨ (failures (es ++ fs)).length = workers limit items.length

namespace Consistent

theorem failures_ne_nil (hp : Consistent limit items es p) (hraised : p.raised ≠ none) :
    failures es ≠ [] := by
  intro hnone
  rw [hp.raised, hnone] at hraised
  exact hraised rfl

theorem goesOn (hp : Consistent limit items es p) (hraised : p.raised ≠ none)
    (hq : Consistent limit items (es ++ fs) q) : GoesOn limit items es fs p q where
  outcome := by
    obtain ⟨e, rest, hfailures⟩ := List.exists_cons_of_ne_nil (hp.failures_ne_nil hraised)
    have hold : p.raised = some e := by rw [hp.raised, hfailures, List.head?_cons]
    have hnew : q.raised = some e := by
      rw [hq.raised, failures_append, hfailures, List.cons_append, List.head?_cons]
    rw [Pool.outcome, Pool.outcome, hold, hnew]
  started := by
    have horder : taken es ++ (taken fs ++ q.waiting) = taken es ++ p.waiting := by
      rw [← List.append_assoc, ← taken_append, hq.order, hp.order]
    exact List.append_cancel_left horder
  staffed := by
    have hcrew := hq.crew
    omega
  ends hover := by
    have hcrew := hq.crew
    rw [hover.pending_eq_nil, List.length_nil] at hcrew
    cases hstart : q.start? with
    | some r => exact absurd (Step.start hstart) (hover r)
    | none =>
      rcases start?_eq_none hstart with hidle | hwaiting
      · exact .inr (by omega)
      · exact .inl hwaiting

/-- With an item in the queue and a worker left, a call can follow: the worker either has no item
or gets rid of it. -/
theorem exists_start [Nonempty β] (hp : Consistent limit items es p) (hwaiting : p.waiting ≠ [])
    (hleft : (failures es).length < workers limit items.length) :
    ∃ fs q, Run p fs q ∧ taken fs ≠ [] := by
  have htake : ∀ {q : Pool α β}, q.idle ≠ 0 → q.waiting ≠ [] →
      ∃ item r, Happens q (.taken item) r := by
    intro q hidle hwaiting
    cases hstart : q.start? with
    | some r =>
      obtain ⟨item, hitem⟩ := exists_happens_of_start? hstart
      exact ⟨item, r, hitem⟩
    | none => exact absurd (start?_eq_none hstart) (not_or.mpr ⟨hidle, hwaiting⟩)
  by_cases hidle : p.idle = 0
  · have hpending : 0 < p.pending.length := by
      have hcrew := hp.crew
      omega
    obtain ⟨y⟩ := ‹Nonempty β›
    have hend : Happens p (.ended p.pending[0] (.ok y)) (p.settle 0 p.pending[0].1 (.ok y)) :=
      .settle 0 _ _ _ (List.getElem?_eq_getElem hpending)
    obtain ⟨item, r, hitem⟩ := @htake (p.settle 0 p.pending[0].1 (.ok y)) (Nat.succ_ne_zero _)
      hwaiting
    exact ⟨_, r, .next (.next .start hend) hitem, List.cons_ne_nil _ _⟩
  · obtain ⟨item, r, hitem⟩ := htake hidle hwaiting
    exact ⟨_, r, .next .start hitem, List.cons_ne_nil _ _⟩

end Consistent

theorem Over.eq_nil (hover : p.Over) (h : Run p fs q) : fs = [] ∧ q = p := by
  induction h with
  | start => exact ⟨rfl, rfl⟩
  | next _ s ih =>
    rw [ih.2] at s
    exact absurd (step_iff.mpr ⟨_, s⟩) (hover _)

/-- A worker that is gone takes no item, so whatever starts is started by one that is left. -/
theorem Consistent.left_of_taken (hp : Consistent limit items es p) (h : Run p fs q)
    (htaken : taken fs ≠ []) : (failures es).length < workers limit items.length := by
  have hcrew := hp.crew
  by_contra hnone
  have hover : p.Over :=
    over_of_pending_eq_nil (List.eq_nil_of_length_eq_zero (by omega)) (.inl (by omega))
  rw [(hover.eq_nil h).1] at htaken
  exact htaken rfl

theorem stopsOnFailure_of_single (hlimit : limit ≤ 1) : StopsOnFailure β limit items := by
  intro es fs p q h hraised hq
  have hp := h.consistent
  by_contra htaken
  have hleft := hp.left_of_taken hq htaken
  have hfailures := List.length_pos_iff.mpr (hp.failures_ne_nil hraised)
  unfold workers at hleft
  omega

/-- A pool that has raised goes on with the workers it has left: a call can still be started exactly
as long as there are an item in the queue and a worker whose call has not failed. -/
theorem work_goes_on [Nonempty β] (h : Run (init limit items : Pool α β) es p)
    (hraised : p.raised ≠ none) :
    (∀ fs q, Run p fs q → GoesOn limit items es fs p q) ∧
    ((∃ fs q, Run p fs q ∧ taken fs ≠ []) ↔
      p.waiting ≠ [] ∧ (failures es).length < workers limit items.length) ∧
    (limit ≤ 1 → StopsOnFailure β limit items) := by
  have hp := h.consistent
  have hgoes : ∀ fs q, Run p fs q → GoesOn limit items es fs p q :=
    fun fs q hq => hp.goesOn hraised (h.append hq).consistent
  refine ⟨hgoes, ⟨?_, fun hleft => hp.exists_start hleft.1 hleft.2⟩, stopsOnFailure_of_single⟩
  rintro ⟨fs, q, hq, htaken⟩
  refine ⟨fun hwaiting => ?_, hp.left_of_taken hq htaken⟩
  have hstarted := (hgoes fs q hq).started
  rw [hwaiting] at hstarted
  exact htaken (List.append_eq_nil_iff.mp hstarted).1

/-- Of two workers, the first with a failing call, the second goes on to the third item. -/
theorem run_of_first_failing :
    ∃ p q : Pool Nat Nat,
      Run (init 2 [10, 20, 30])
        [.taken (0, 10), .taken (1, 20), .ended (0, 10) (.error .wrongKind)] p ∧
      p.raised = some .wrongKind ∧ Run p [.ended (1, 20) (.ok 21), .taken (2, 30)] q :=
  ⟨_, _, .next (.next (.next .start (.take rfl rfl)) (.take rfl rfl))
      (.settle 0 0 10 (.error .wrongKind) rfl), rfl,
    .next (.next .start (.settle 0 1 20 (.ok 21) rfl)) (.take rfl rfl)⟩

theorem not_stopsOnFailure_two_workers : ¬ StopsOnFailure Nat 2 [10, 20, 30] := by
  intro hstops
  obtain ⟨p, q, hrun, hraised, hnext⟩ := run_of_first_failing
  have htaken := hstops _ _ p q hrun (by rw [hraised]; exact Option.some_ne_none _) hnext
  cases htaken

theorem work_goes_on_of_two_workers :
    ∃ p : Pool Nat Nat, p.outcome = .error .wrongKind ∧ p.waiting ≠ [] ∧
      ∀ fs q, Run p fs q → q.outcome = .error .wrongKind ∧
        (q.Over → q.waiting = [] ∨ (failures fs).length = 1) := by
  obtain ⟨p, q, hrun, hraised, hnext⟩ := run_of_first_failing
  have hgoes := work_goes_on hrun (by rw [hraised]; exact Option.some_ne_none _)
  have houtcome : p.outcome = .error .wrongKind := by rw [Pool.outcome, hraised]
  refine ⟨p, houtcome, (hgoes.2.1.mp ⟨_, q, hnext, List.cons_ne_nil _ _⟩).1, fun fs q hq => ?_⟩
  refine ⟨(hgoes.1 fs q hq).outcome.trans houtcome, fun hover => ?_⟩
  refine ((hgoes.1 fs q hq).ends hover).imp_right fun hall => ?_
  rw [failures_append, List.length_append] at hall
  exact Nat.add_left_cancel hall

end Funnel.Pool
