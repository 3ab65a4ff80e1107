import Funnel.Proofs.Pool.History
import Funnel.Proofs.Store.Asks

/-!
# Why a session did not answer

A session that did not answer has a reason in what happened while it ran: between the calls made
before it and those made when it had ended. Reasons are stated over these two rows of calls, which
stay the same for all parts of the session, so that a reason found in a part is one of the whole.
-/

set_option autoImplicit false

namespace Funnel

/-- The store gave an answer to a call that was made after the first calls and is among the last
ones. -/
def Store.Answered (s : Store) (first last : List Call) (c : Call) (a : Except Fault Value) :
    Prop :=
  ∃ earlier, first <+: earlier ∧ earlier ++ [c] <+: last ∧ s.answer earlier c = a

namespace Session

variable {α β : Type} {first last : List Call} {P : Prop} {Q : α → Prop} {R : β → Prop}

def Grows (x : Session α) : Prop := ∀ t : Trace, t.calls <+: (x.run t).2.calls

theorem Asks.grows {C : Call → Prop} {x : Session α} (h : x.Asks C) : x.Grows := by
  intro t
  obtain ⟨new, hcalls, -⟩ := h t
  exact ⟨new, hcalls.symm⟩

theorem Grows.asks {x : Session α} (h : x.Grows) : x.Asks fun _ => True := by
  intro t
  obtain ⟨new, hcalls⟩ := h t
  exact ⟨new, hcalls.symm, fun _ _ => trivial⟩

theorem grows_ofExcept (x : Except Fault α) : (ofExcept x).Grows :=
  fun t => List.prefix_refl t.calls

theorem grows_pure (a : α) : (pure a : Session α).Grows := fun t => List.prefix_refl t.calls

theorem grows_ask (s : Store) (c : Call) : (ask s c).Grows := fun t => List.prefix_append t.calls [c]

theorem grows_bind {x : Session α} {k : α → Session β} (hx : x.Grows) (hk : ∀ a, (k a).Grows) :
    (x >>= k).Grows :=
  (asks_bind hx.asks fun a => (hk a).asks).grows

theorem prefix_calls_bind (x : Session α) {k : α → Session β} (hk : ∀ a, (k a).Grows) (t : Trace) :
    (x.run t).2.calls <+: ((x >>= k).run t).2.calls := by
  rw [run_bind]
  rcases x.run t with ⟨e | a, u⟩
  · exact List.prefix_refl u.calls
  · exact hk a u

/-- As long as its calls are among the last ones, the session has an answer of a kind, unless there
is a reason. -/
def AnswersUnless (first last : List Call) (P : Prop) (Q : α → Prop) (x : Session α) : Prop :=
  ∀ t : Trace, first <+: t.calls → (x.run t).2.calls <+: last →
    P ∨ ∃ a, (x.run t).1 = .ok a ∧ Q a

theorem answersUnless_ofExcept {x : Except Fault α} (hP : ∀ e, x = .error e → P)
    (hQ : ∀ a, x = .ok a → Q a) : (ofExcept x).AnswersUnless first last P Q := by
  intro t _ _
  cases x with
  | error e => exact .inl (hP e rfl)
  | ok a => exact .inr ⟨a, rfl, hQ a rfl⟩

theorem answersUnless_pure {a : α} (h : Q a) :
    (pure a : Session α).AnswersUnless first last P Q := fun _ _ _ => .inr ⟨a, rfl, h⟩

theorem answersUnless_ask {s : Store} {c : Call}
    (hP : ∀ e, s.Answered first last c (.error e) → P) :
    (ask s c).AnswersUnless first last P fun v => s.Answered first last c (.ok v) := by
  intro t hfirst hlast
  have hanswered : ∀ a, s.answer t.calls c = a → s.Answered first last c a :=
    fun a ha => ⟨t.calls, hfirst, hlast, ha⟩
  cases hanswer : s.answer t.calls c with
  | error e => exact .inl (hP e (hanswered _ hanswer))
  | ok v => exact .inr ⟨v, hanswer, hanswered _ hanswer⟩

theorem answersUnless_bind {x : Session α} {k : α → Session β}
    (hx : x.AnswersUnless first last P Q) (hgrows : x.Grows) (hkgrows : ∀ a, (k a).Grows)
    (hk : ∀ a, Q a → (k a).AnswersUnless first last P R) :
    (x >>= k).AnswersUnless first last P R := by
  intro t hfirst hlast
  rcases hx t hfirst ((prefix_calls_bind x hkgrows t).trans hlast) with hP | ⟨a, ha, hQ⟩
  · exact .inl hP
  · obtain ⟨u, hrun⟩ : ∃ u, x.run t = (.ok a, u) := ⟨_, Prod.ext ha rfl⟩
    have hbegin := hgrows t
    rw [hrun] at hbegin
    rw [run_bind_of_ok hrun] at hlast ⊢
    exact hk a hQ u (hfirst.trans hbegin) hlast

theorem answersUnless_ofExcept_bind {x : Except Fault α} {a : α} {k : α → Session β}
    (hx : x = .ok a) (hk : (k a).AnswersUnless first last P R) :
    (ofExcept x >>= k).AnswersUnless first last P R := by
  subst hx
  exact hk

/-- Gathered sessions are all run, so a reason in any of them is found before the end. -/
theorem answersUnless_gather {ι : Type} {xs : List ι} {x : ι → Session α} {Q : ι → α → Prop}
    (hgrows : ∀ i, (x i).Grows) (h : ∀ i ∈ xs, (x i).AnswersUnless first last P (Q i)) :
    (gather (xs.map x)).AnswersUnless first last P (List.Forall₂ Q xs) := by
  intro t hfirst hlast
  change P ∨ ∃ as, (((xs.map x).mapM ExceptT.run).run t).1.mapM id = .ok as ∧ _
  change (((xs.map x).mapM ExceptT.run).run t).2.calls <+: last at hlast
  induction xs generalizing t with
  | nil => exact .inr ⟨[], rfl, .nil⟩
  | cons i xs ih =>
    rw [List.forall_mem_cons] at h
    rw [List.map_cons, List.mapM_cons] at hlast ⊢
    have hrest : ((x i).run t).2.calls <+:
        (((xs.map x).mapM ExceptT.run).run ((x i).run t).2).2.calls := by
      have hasks : ∀ y ∈ xs.map x, y.Asks fun _ => True :=
        List.forall_mem_map.mpr fun j _ => (hgrows j).asks
      obtain ⟨new, hcalls, -⟩ := grows_mapM_run hasks ((x i).run t).2
      exact ⟨new, hcalls.symm⟩
    rcases h.1 t hfirst (hrest.trans hlast) with hP | ⟨a, ha, hQ⟩
    · exact .inl hP
    · rcases ih h.2 ((x i).run t).2 (hfirst.trans (hgrows i t)) hlast with hP | ⟨as, has, hQs⟩
      · exact .inl hP
      · refine .inr ⟨a :: as, ?_, .cons hQ hQs⟩
        change (((x i).run t).1 :: (((xs.map x).mapM ExceptT.run).run ((x i).run t).2).1).mapM id =
          .ok (a :: as)
        exact Fault.mapM_cons_eq_ok_iff.mpr ⟨a, as, ha, has, rfl⟩

end Session

namespace Pool

variable {α β : Type} {first last : List Call} {P : Prop} {Q : α → β → Prop}
  {work : α → Session β}

theorem raised_fill (p : Pool α β) (fuel : Nat) : (p.fill fuel).raised = p.raised :=
  fill_unchanged (fun h => (start?_eq_some h).2.1) p fuel

/-- A pool has no failure to raise, unless there is a reason: the first call that fails has one. -/
theorem raised_drain (hgrows : ∀ x, (work x).Grows)
    (hwork : ∀ x, (work x).AnswersUnless first last P (Q x)) {schedule : Nat → Nat} {left : Nat}
    {p q : Pool α β} {t u : Trace} (hrun : (drain work schedule left p).run t = (q, u))
    (hp : p.raised = none) (hfirst : first <+: t.calls) (hlast : u.calls <+: last) :
    P ∨ q.raised = none := by
  induction left generalizing p t with
  | zero =>
    cases hrun
    exact .inr hp
  | succ left ih =>
    have hfill : (p.fill p.idle).raised = none := by rw [raised_fill, hp]
    rw [drain] at hrun
    split at hrun
    · cases hrun
      exact .inr hfill
    · rename_i place x _
      change (drain work schedule left ((p.fill p.idle).settle
        (schedule left % (p.fill p.idle).pending.length) place ((work x).run t).1)).run
          ((work x).run t).2 = (q, u) at hrun
      obtain ⟨new, hcalls, -⟩ := grows_drain (fun x => (hgrows x).asks) schedule left
        ((p.fill p.idle).settle (schedule left % (p.fill p.idle).pending.length) place
          ((work x).run t).1) ((work x).run t).2
      rw [hrun] at hcalls
      have hrest : ((work x).run t).2.calls <+: last := List.IsPrefix.trans ⟨new, hcalls.symm⟩ hlast
      rcases hwork x t hfirst hrest with hP | ⟨y, hy, -⟩
      · exact .inl hP
      · refine ih hrun ?_ (hfirst.trans (hgrows x t))
        rw [hy]
        exact hfill

theorem answersUnless_run {items : List α} (hgrows : ∀ x, (work x).Grows)
    (hwork : ∀ x, (work x).AnswersUnless first last P (Q x))
    (hyields : ∀ x ∈ items, (work x).Yields (Q x)) (limit : Int) (schedule : Nat → Nat) :
    (run limit schedule items work).AnswersUnless first last P (List.Forall₂ Q items) := by
  intro t hfirst hlast
  have hrun : (drain work schedule items.length (init limit items)).run t =
      (((finish limit schedule items work).run t).1, ((finish limit schedule items work).run t).2) :=
    rfl
  rcases raised_drain hgrows hwork hrun rfl hfirst hlast with hP | hraised
  · exact .inl hP
  · right
    have hok : ((run limit schedule items work).run t).1 =
        .ok (((finish limit schedule items work).run t).1.slots.filterMap id) := by
      change ((finish limit schedule items work).run t).1.outcome = _
      rw [outcome, hraised]
    exact ⟨_, hok, yields_run hyields limit schedule t _ hok⟩

end Pool

end Funnel
