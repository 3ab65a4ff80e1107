import Funnel.Proofs.Store.Asks

/-!
# Sessions with one outcome

A store that answers by the text and the parameters of a call alone has no memory, so a session with
it ends the same way whatever was asked before. Where the outcome matters it is carried through the
ways of putting sessions together; where only its being the same matters, that is.
-/

set_option autoImplicit false

namespace Funnel.Session

variable {α β γ : Type}

/-- Whatever has happened before, the session ends in one way. -/
def Gives (r : Except Fault α) (x : Session α) : Prop := ∀ t : Trace, (x.run t).1 = r

/-- How the session ends when it is the first one. -/
def alone (x : Session α) : Except Fault α := (x.run .start).1

/-- The session ends the same way whatever has happened before. -/
def Steady (x : Session α) : Prop := x.Gives x.alone

theorem gives_pure (a : α) : (pure a : Session α).Gives (.ok a) := fun _ => rfl

theorem gives_ofExcept (r : Except Fault α) : (ofExcept r).Gives r := fun _ => rfl

theorem gives_ofExcept_of_eq {x r : Except Fault α} (h : x = r) : (ofExcept x).Gives r :=
  h ▸ gives_ofExcept x

theorem gives_ask (answer : String → Fields → Except Fault Value) (c : Call) :
    (ask (.ofFunction answer) c).Gives (answer c.sql c.params) := fun _ => rfl

theorem gives_ask_of_answer {s : Store} {c : Call} {r : Except Fault Value}
    (h : ∀ earlier, s.answer earlier c = r) : (ask s c).Gives r := fun t => h t.calls

theorem gives_noteLookup (ids : List String) : (noteLookup ids).Gives (.ok ()) := fun _ => rfl

theorem gives_bind {x : Session α} {k : α → Session β} {r : Except Fault α}
    {g : α → Except Fault β} (hx : x.Gives r) (hk : ∀ a, r = .ok a → (k a).Gives (g a)) :
    (x >>= k).Gives (r >>= g) := by
  intro t
  have hrun := hx t
  rw [run_bind]
  rcases h : x.run t with ⟨e | a, u⟩ <;> rw [h] at hrun <;> subst hrun
  · rfl
  · exact hk a rfl u

theorem gives_bind_ok {x : Session α} {k : α → Session β} {a : α} {r : Except Fault β}
    (hx : x.Gives (.ok a)) (hk : (k a).Gives r) : (x >>= k).Gives r := by
  refine @gives_bind _ _ x k (.ok a) (fun _ => r) hx ?_
  rintro b ⟨rfl⟩
  exact hk

theorem gives_bind_error {x : Session α} {k : α → Session β} {fault : Fault}
    (hx : x.Gives (.error fault)) : (x >>= k).Gives (.error fault) :=
  @gives_bind _ _ x k (.error fault) (fun _ => .error fault) hx nofun

theorem gives_orElse {x : Session α} {r : Except Fault α} (hx : x.Gives r) (fallback : α) :
    (x.orElse fallback).Gives (.ok (match r with
      | .ok a => a
      | .error _ => fallback)) := by
  intro t
  have hrun := hx t
  rcases h : x.run t with ⟨e | a, u⟩ <;> rw [h] at hrun <;> subst hrun
  · rw [run_orElse_of_error fallback h]
  · rw [run_orElse_of_ok fallback h]

theorem answers_mapM_run {xs : List γ} {x : γ → Session α} {g : γ → Except Fault α}
    (h : ∀ c ∈ xs, (x c).Gives (g c)) (t : Trace) :
    (((xs.map x).mapM ExceptT.run).run t).1 = xs.map g := by
  induction xs generalizing t with
  | nil => rfl
  | cons c xs ih =>
    rw [List.map_cons, List.mapM_cons]
    have hfirst := h c List.mem_cons_self t
    have hrest := ih (fun d hd => h d (List.mem_cons_of_mem c hd)) ((x c).run t).2
    rw [List.map_cons, ← hfirst, ← hrest]
    rfl

theorem gives_gather {xs : List γ} {x : γ → Session α} {g : γ → Except Fault α}
    (h : ∀ c ∈ xs, (x c).Gives (g c)) : (gather (xs.map x)).Gives (xs.mapM g) := by
  intro t
  have hrun := answers_mapM_run h t
  change (((xs.map x).mapM ExceptT.run).run t).1.mapM id = xs.mapM g
  rw [hrun, List.mapM_map]
  rfl

theorem Gives.answers {x : Session α} {a : α} (h : x.Gives (.ok a)) : x.Answers (· = a) :=
  fun t => ⟨a, (x.run t).2, Prod.ext (h t) rfl, rfl⟩

theorem Gives.yields {x : Session α} {a : α} (h : x.Gives (.ok a)) : x.Yields (· = a) :=
  h.answers.yields

theorem Gives.alone_eq {x : Session α} {r : Except Fault α} (h : x.Gives r) : x.alone = r :=
  h .start

theorem Gives.steady {x : Session α} {r : Except Fault α} (h : x.Gives r) : x.Steady := by
  rw [Steady, h.alone_eq]
  exact h

theorem steady_pure (a : α) : (pure a : Session α).Steady := (gives_pure a).steady

theorem steady_ofExcept (r : Except Fault α) : (ofExcept r).Steady := (gives_ofExcept r).steady

theorem steady_bind {x : Session α} {k : α → Session β} (hx : x.Steady)
    (hk : ∀ a, (k a).Steady) : (x >>= k).Steady :=
  (gives_bind hx fun a _ => hk a).steady

theorem steady_orElse {x : Session α} (hx : x.Steady) (fallback : α) :
    (x.orElse fallback).Steady := (gives_orElse hx fallback).steady

theorem steady_gather {xs : List γ} {x : γ → Session α} (h : ∀ c ∈ xs, (x c).Steady) :
    (gather (xs.map x)).Steady := (gives_gather h).steady

/-- The answer of a session on its own, or something else if it has none. -/
def valueOr (x : Session α) (fallback : α) : α :=
  match x.alone with
  | .ok a => a
  | .error _ => fallback

theorem gives_valueOr {x : Session α} (h : ∃ a, x.Gives (.ok a)) (fallback : α) :
    x.Gives (.ok (x.valueOr fallback)) := by
  obtain ⟨a, ha⟩ := h
  rw [valueOr, ha.alone_eq]
  exact ha

/-- A session that always answers and ends in one way ends with an answer. -/
theorem Steady.answers {Q : α → Prop} {x : Session α} (h : x.Steady) (hx : x.Answers Q) :
    ∃ a, x.Gives (.ok a) ∧ Q a := by
  obtain ⟨a, u, hrun, ha⟩ := hx .start
  have halone : x.alone = .ok a := congrArg Prod.fst hrun
  exact ⟨a, halone ▸ h, ha⟩

end Funnel.Session
