import Funnel.Pool
import Funnel.Proofs.Fault

/-!
# What a session asks of the store

A session is read off its run: how the trace grows, and which answers it can end with. Both are
followed through the ways of putting sessions together, so that a statement on every call of a long
session is a statement on the calls of its parts. Nothing is assumed of the store.
-/

set_option autoImplicit false

namespace Funnel

/-- The later trace holds the earlier calls and then only calls of one kind. -/
def Trace.Grows (P : Call → Prop) (t u : Trace) : Prop :=
  ∃ new, u.calls = t.calls ++ new ∧ ∀ c ∈ new, P c

namespace Trace

variable {P : Call → Prop}

theorem Grows.of_calls_eq {t u : Trace} (h : u.calls = t.calls) : t.Grows P u :=
  ⟨[], by simp [h], by simp⟩

theorem Grows.refl (t : Trace) : t.Grows P t := .of_calls_eq rfl

theorem Grows.trans {t u v : Trace} (htu : t.Grows P u) (huv : u.Grows P v) : t.Grows P v := by
  obtain ⟨a, ha, hPa⟩ := htu
  obtain ⟨b, hb, hPb⟩ := huv
  refine ⟨a ++ b, by rw [hb, ha, List.append_assoc], ?_⟩
  intro c hc
  rcases List.mem_append.mp hc with hc | hc
  · exact hPa c hc
  · exact hPb c hc

theorem Grows.mono {P' : Call → Prop} {t u : Trace} (htu : t.Grows P u) (h : ∀ c, P c → P' c) :
    t.Grows P' u := by
  obtain ⟨new, hcalls, hnew⟩ := htu
  exact ⟨new, hcalls, fun c hc => h c (hnew c hc)⟩

end Trace

namespace Session

variable {α β : Type}

theorem run_ofExcept (x : Except Fault α) (t : Trace) : (ofExcept x).run t = (x, t) := rfl

theorem run_ask (s : Store) (c : Call) (t : Trace) :
    (ask s c).run t = (s.answer t.calls c, { t with calls := t.calls ++ [c] }) := rfl

theorem run_bind (x : Session α) (k : α → Session β) (t : Trace) :
    (x >>= k).run t = match x.run t with
      | (.ok a, u) => (k a).run u
      | (.error e, u) => (.error e, u) := by
  change (match x.run t with
    | (r, u) => (ExceptT.bindCont k r) u) = _
  rcases x.run t with ⟨_ | a, u⟩ <;> rfl

theorem run_bind_of_ok {x : Session α} {k : α → Session β} {t u : Trace} {a : α}
    (h : x.run t = (.ok a, u)) : (x >>= k).run t = (k a).run u := by
  rw [run_bind, h]

theorem run_bind_of_error {x : Session α} {k : α → Session β} {t u : Trace} {e : Fault}
    (h : x.run t = (.error e, u)) : (x >>= k).run t = (.error e, u) := by
  rw [run_bind, h]

theorem run_map (x : Session α) (g : α → β) (t : Trace) :
    (g <$> x).run t = ((x.run t).1.map g, (x.run t).2) := by
  rw [map_eq_pure_bind, run_bind]
  rcases x.run t with ⟨_ | a, u⟩ <;> rfl

theorem run_orElse_of_ok {x : Session α} {t u : Trace} {a : α} (fallback : α)
    (h : x.run t = (.ok a, u)) : (x.orElse fallback).run t = (.ok a, u) := by
  simp only [orElse, ExceptT.run_mk, bind, StateT.bind, h]
  rfl

theorem run_orElse_of_error {x : Session α} {t u : Trace} {e : Fault} (fallback : α)
    (h : x.run t = (.error e, u)) : (x.orElse fallback).run t =
      (.ok fallback, { u with failures := u.failures + 1 }) := by
  simp only [orElse, ExceptT.run_mk, bind, StateT.bind, h]
  rfl

theorem calls_orElse (x : Session α) (fallback : α) (t : Trace) :
    ((x.orElse fallback).run t).2.calls = (x.run t).2.calls := by
  rcases hrun : x.run t with ⟨e | a, u⟩
  · rw [run_orElse_of_error fallback hrun]
  · rw [run_orElse_of_ok fallback hrun]

/-- Whatever has happened before and whatever the store answers, the session only makes calls of
one kind. -/
def Asks (P : Call → Prop) (x : Session α) : Prop := ∀ t : Trace, t.Grows P (x.run t).2

/-- Whenever the session has an answer, it is one of a kind. -/
def Yields (Q : α → Prop) (x : Session α) : Prop := ∀ t a, (x.run t).1 = .ok a → Q a

variable {P : Call → Prop} {Q : α → Prop}

theorem Asks.mono {P' : Call → Prop} {x : Session α} (hx : x.Asks P) (h : ∀ c, P c → P' c) :
    x.Asks P' := fun t => (hx t).mono h

theorem asks_pure (a : α) : (pure a : Session α).Asks P := fun t => .refl t

theorem asks_ofExcept (x : Except Fault α) : (ofExcept x).Asks P := fun t => .refl t

theorem asks_noteLookup (ids : List String) : (noteLookup ids).Asks P :=
  fun _ => .of_calls_eq rfl

theorem asks_ask (s : Store) {c : Call} (h : P c) : (ask s c).Asks P :=
  fun _ => ⟨[c], rfl, by simpa using h⟩

theorem asks_bind_of_yields {x : Session α} {k : α → Session β} (hx : x.Asks P)
    (hQ : x.Yields Q) (hk : ∀ a, Q a → (k a).Asks P) : (x >>= k).Asks P := by
  intro t
  have hgrow := hx t
  have hyield := hQ t
  rw [run_bind]
  rcases hrun : x.run t with ⟨_ | a, u⟩ <;> rw [hrun] at hgrow hyield
  · exact hgrow
  · exact hgrow.trans (hk a (hyield a rfl) u)

theorem asks_bind {x : Session α} {k : α → Session β} (hx : x.Asks P)
    (hk : ∀ a, (k a).Asks P) : (x >>= k).Asks P :=
  asks_bind_of_yields (Q := fun _ => True) hx (fun _ _ _ => trivial) fun a _ => hk a

theorem asks_orElse {x : Session α} (hx : x.Asks P) (fallback : α) :
    (x.orElse fallback).Asks P := by
  intro t
  exact (hx t).trans (.of_calls_eq (calls_orElse x fallback t))

theorem grows_mapM_run {xs : List (Session α)} (h : ∀ x ∈ xs, x.Asks P) (t : Trace) :
    t.Grows P ((xs.mapM ExceptT.run).run t).2 := by
  induction xs generalizing t with
  | nil => exact .refl t
  | cons x xs ih =>
    rw [List.mapM_cons]
    have hfirst := h x List.mem_cons_self t
    have hrest := ih (fun y hy => h y (List.mem_cons_of_mem x hy)) (x.run t).2
    exact hfirst.trans hrest

/-- Gathered sessions ask what each of them asks, also after a failure. -/
theorem asks_gather {xs : List (Session α)} (h : ∀ x ∈ xs, x.Asks P) : (gather xs).Asks P :=
  fun t => grows_mapM_run h t

theorem yields_ofExcept {x : Except Fault α} (h : ∀ a, x = .ok a → Q a) :
    (ofExcept x).Yields Q := by
  intro t a ha
  exact h a ha

theorem yields_pure {a : α} (h : Q a) : (pure a : Session α).Yields Q := by
  rintro t b ⟨rfl⟩
  exact h

theorem yields_orElse {x : Session α} {fallback : α} (hx : x.Yields Q) (h : Q fallback) :
    (x.orElse fallback).Yields Q := by
  intro t b hb
  have hyield := hx t
  rcases hrun : x.run t with ⟨e | a, u⟩
  · rw [run_orElse_of_error fallback hrun] at hb
    cases hb
    exact h
  · rw [run_orElse_of_ok fallback hrun] at hb
    rw [hrun] at hyield
    exact hyield b hb

/-- Of the last part of a session only its answers matter. -/
theorem yields_bind {R : β → Prop} {x : Session α} {k : α → Session β} (hx : x.Yields Q)
    (hk : ∀ a, Q a → (k a).Yields R) : (x >>= k).Yields R := by
  intro t b hb
  have hyield := hx t
  rw [run_bind] at hb
  rcases hrun : x.run t with ⟨_ | a, u⟩ <;> rw [hrun] at hb hyield
  · cases hb
  · exact hk a (hyield a rfl) u b hb

theorem Yields.mono {R : α → Prop} {x : Session α} (h : x.Yields Q) (hR : ∀ a, Q a → R a) :
    x.Yields R := fun t a ha => hR a (h t a ha)

/-- A session that goes on from a plain answer only yields what it yields from there. -/
theorem yields_ofExcept_bind {R : β → Prop} {x : Except Fault α} {k : α → Session β}
    (hk : ∀ a, x = .ok a → (k a).Yields R) : (ofExcept x >>= k).Yields R :=
  yields_bind (yields_ofExcept fun _ ha => ha) hk

theorem yields_trivial (x : Session α) : x.Yields fun _ => True := fun _ _ _ => trivial

theorem yields_bind_last {R : β → Prop} {x : Session α} {k : α → Session β}
    (hk : ∀ a, (k a).Yields R) : (x >>= k).Yields R :=
  yields_bind (yields_trivial x) fun a _ => hk a

/-- Whatever has happened before and whatever the store answers, the session ends with an answer of
a kind. -/
def Answers (Q : α → Prop) (x : Session α) : Prop :=
  ∀ t : Trace, ∃ a u, x.run t = (.ok a, u) ∧ Q a

theorem answers_pure {a : α} (h : Q a) : (pure a : Session α).Answers Q :=
  fun t => ⟨a, t, rfl, h⟩

theorem answers_ofExcept {x : Except Fault α} {a : α} (hx : x = .ok a) (h : Q a) :
    (ofExcept x).Answers Q := fun t => ⟨a, t, by rw [run_ofExcept, hx], h⟩

theorem Answers.yields {x : Session α} (h : x.Answers Q) : x.Yields Q := by
  intro t b hb
  obtain ⟨a, u, hrun, ha⟩ := h t
  rw [hrun] at hb
  cases hb
  exact ha

theorem Answers.mono {R : α → Prop} {x : Session α} (h : x.Answers Q) (hR : ∀ a, Q a → R a) :
    x.Answers R := by
  intro t
  obtain ⟨a, u, hrun, ha⟩ := h t
  exact ⟨a, u, hrun, hR a ha⟩

theorem answers_bind {R : β → Prop} {x : Session α} {k : α → Session β} (hx : x.Answers Q)
    (hk : ∀ a, Q a → (k a).Answers R) : (x >>= k).Answers R := by
  intro t
  obtain ⟨a, u, hrun, ha⟩ := hx t
  obtain ⟨b, v, hnext, hb⟩ := hk a ha u
  refine ⟨b, v, ?_, hb⟩
  rw [run_bind, hrun]
  exact hnext

/-- With something to fall back on, a session answers whatever goes wrong in it. -/
theorem answers_orElse {x : Session α} {fallback : α} (hx : x.Yields Q) (h : Q fallback) :
    (x.orElse fallback).Answers Q := by
  intro t
  have hyield := hx t
  rcases hrun : x.run t with ⟨e | a, u⟩
  · exact ⟨fallback, _, run_orElse_of_error fallback hrun, h⟩
  · rw [hrun] at hyield
    exact ⟨a, u, run_orElse_of_ok fallback hrun, hyield a rfl⟩

theorem Answers.orElse {x : Session α} (h : x.Answers Q) (fallback : α) :
    (x.orElse fallback).Answers Q := by
  intro t
  obtain ⟨a, u, hrun, ha⟩ := h t
  exact ⟨a, u, run_orElse_of_ok fallback hrun, ha⟩

theorem exists_mapM_run {xs : List (Session α)} (h : ∀ x ∈ xs, x.Answers Q) (t : Trace) :
    ∃ (as : List α) (u : Trace), (xs.mapM ExceptT.run).run t = (as.map Except.ok, u) ∧
      as.length = xs.length ∧ ∀ a ∈ as, Q a := by
  induction xs generalizing t with
  | nil => exact ⟨[], t, rfl, rfl, nofun⟩
  | cons x xs ih =>
    rw [List.forall_mem_cons] at h
    obtain ⟨a, u, hfirst, ha⟩ := h.1 t
    obtain ⟨as, w, hrest, hlength, has⟩ := ih h.2 u
    refine ⟨a :: as, w, ?_, congrArg Nat.succ hlength, List.forall_mem_cons.mpr ⟨ha, has⟩⟩
    rw [List.mapM_cons]
    change (match x.run t with
      | (r, v) => match (xs.mapM ExceptT.run).run v with
        | (rs, w) => ((r :: rs), w)) = _
    rw [hfirst]
    change (match (xs.mapM ExceptT.run).run u with
        | (rs, w) => ((Except.ok a :: rs), w)) = _
    rw [hrest]
    rfl

theorem answers_gather {xs : List (Session α)} (h : ∀ x ∈ xs, x.Answers Q) :
    (gather xs).Answers fun as => as.length = xs.length ∧ ∀ a ∈ as, Q a := by
  intro t
  obtain ⟨as, u, hrun, has⟩ := exists_mapM_run h t
  have hall : (as.map Except.ok).mapM id = (.ok as : Except Fault (List α)) := by
    rw [List.mapM_map]
    exact (Fault.mapM_eq_ok fun _ _ => rfl).trans (congrArg Except.ok (List.map_id' as))
  refine ⟨as, u, ?_, has⟩
  change (match (xs.mapM ExceptT.run).run t with
    | (answers, w) => (answers.mapM id, w)) = _
  rw [hrun]
  exact Prod.ext hall rfl

/-- A plain answer is asked for nothing, and the session goes on with it. -/
theorem asks_ofExcept_bind {x : Except Fault α} {k : α → Session β}
    (hk : ∀ a, x = .ok a → (k a).Asks P) : (ofExcept x >>= k).Asks P :=
  asks_bind_of_yields (asks_ofExcept x) (yields_ofExcept fun _ ha => ha) hk

end Session

namespace Pool

variable {α β : Type} {P : Call → Prop}

/-- The pool asks what the work on its items asks, in whatever order the items are settled. -/
theorem grows_drain {work : α → Session β} (h : ∀ x, (work x).Asks P) (schedule : Nat → Nat)
    (left : Nat) (p : Pool α β) (t : Trace) :
    t.Grows P ((drain work schedule left p).run t).2 := by
  induction left generalizing p t with
  | zero => exact .refl t
  | succ left ih =>
    rw [drain]
    split
    · exact .refl t
    · rename_i place x _
      exact (h x t).trans (ih _ _)

theorem asks_run {work : α → Session β} (h : ∀ x, (work x).Asks P) (limit : Int)
    (schedule : Nat → Nat) (items : List α) : (run limit schedule items work).Asks P :=
  fun t => grows_drain h schedule _ _ t

end Pool

end Funnel
