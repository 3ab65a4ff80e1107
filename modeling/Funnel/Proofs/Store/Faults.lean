import Funnel.Proofs.Pool.History
import Funnel.Proofs.Store.Asks

/-!
# How sessions fail

The ways in which a session can fail are followed through the ways of putting sessions together. A
session with something to fall back on does not fail at all, so nothing has to be known of a store
that is only asked in such sessions.
-/

set_option autoImplicit false

namespace Funnel

namespace Session

variable {α β : Type} {P : Fault → Prop} {Q : α → Prop}

/-- Whatever has happened before, the session fails only in ways of a kind. -/
def FailsAs (P : Fault → Prop) (x : Session α) : Prop := ∀ t, Fault.FailsAs P (x.run t).1

theorem failsAs_ofExcept {x : Except Fault α} (h : Fault.FailsAs P x) : (ofExcept x).FailsAs P :=
  fun _ => h

theorem failsAs_pure (a : α) : (pure a : Session α).FailsAs P := fun _ => Fault.failsAs_ok a

theorem failsAs_noteLookup (ids : List String) : (noteLookup ids).FailsAs P :=
  fun _ => Fault.failsAs_ok ()

theorem Answers.failsAs {x : Session α} (h : x.Answers Q) : x.FailsAs P := by
  intro t e he
  obtain ⟨a, u, hrun, -⟩ := h t
  rw [hrun] at he
  cases he

theorem failsAs_orElse (x : Session α) (fallback : α) : (x.orElse fallback).FailsAs P :=
  (answers_orElse (yields_trivial x) trivial).failsAs

theorem failsAs_bind_of_yields {x : Session α} {k : α → Session β} (hx : x.FailsAs P)
    (hQ : x.Yields Q) (hk : ∀ a, Q a → (k a).FailsAs P) : (x >>= k).FailsAs P := by
  intro t e he
  have hfails := hx t
  have hyield := hQ t
  rw [run_bind] at he
  rcases hrun : x.run t with ⟨f | a, u⟩ <;> rw [hrun] at he hfails hyield
  · obtain rfl : f = e := Except.error.inj he
    exact hfails f rfl
  · exact hk a (hyield a rfl) u e he

theorem failsAs_bind {x : Session α} {k : α → Session β} (hx : x.FailsAs P)
    (hk : ∀ a, (k a).FailsAs P) : (x >>= k).FailsAs P :=
  failsAs_bind_of_yields hx (yields_trivial x) fun a _ => hk a

theorem failsAs_ofExcept_bind {x : Except Fault α} {k : α → Session β} (hx : Fault.FailsAs P x)
    (hk : ∀ a, x = .ok a → (k a).FailsAs P) : (ofExcept x >>= k).FailsAs P :=
  failsAs_bind_of_yields (failsAs_ofExcept hx) (yields_ofExcept fun _ ha => ha) hk

end Session

namespace Pool

variable {α β : Type} {P : Fault → Prop}

/-- A pool fails as the work on one of its items does. -/
theorem failsAs_run {items : List α} {work : α → Session β}
    (hwork : ∀ x ∈ items, (work x).FailsAs P) (limit : Int) (schedule : Nat → Nat) :
    (run limit schedule items work).FailsAs P := by
  intro t e he
  obtain ⟨es, hrun, hanswered⟩ := exists_run_finish limit schedule items work t
  have hp := hrun.consistent
  have hfailed : e ∈ failures es := by
    by_cases hnone : failures es = []
    · obtain ⟨ys, hok, -⟩ := hp.results hnone (over_finish limit schedule items work t)
      cases hok.symm.trans he
    · obtain ⟨f, hf, hraises⟩ := hp.raises hnone
      cases hraises.symm.trans he
      exact hf
  obtain ⟨⟨i, x⟩, hended⟩ := mem_failures.mp hfailed
  obtain ⟨u, hu⟩ := hanswered i x _ hended
  exact hwork x (List.mem_of_getElem? (hp.item_of_ended hended)) u e hu.symm

end Pool

end Funnel
