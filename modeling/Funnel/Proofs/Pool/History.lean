import Mathlib.Data.List.Nodup
import Mathlib.Data.List.Perm.Basic
import Funnel.Proofs.Pool

/-!
# Histories of bounded work

Steps of a pool are read together with what happens in them: an item is taken, or the call of an
item ends. The history of a pool fixes the rest of it. Items are taken from the head of the queue,
every taken item is either pending or ended, a slot is filled exactly when the call of its item has
ended with a result, and each failure costs one worker. Nothing is assumed of the order in which
calls end or of their answers.
-/

set_option autoImplicit false

namespace Funnel.Pool

variable {α β : Type} {limit : Int} {items : List α} {p q r : Pool α β}

inductive Event (α β : Type) where
  | taken (item : Nat × α)
  | ended (item : Nat × α) (answer : Except Fault β)

def taken : List (Event α β) → Placed α
  | [] => []
  | .taken item :: es => item :: taken es
  | .ended _ _ :: es => taken es

def ended : List (Event α β) → Placed α
  | [] => []
  | .taken _ :: es => ended es
  | .ended item _ :: es => item :: ended es

def failures : List (Event α β) → List Fault
  | [] => []
  | .ended _ (.error e) :: es => e :: failures es
  | _ :: es => failures es

/-- A step of the pool with what happens in it. -/
inductive Happens : Pool α β → Event α β → Pool α β → Prop where
  | take {p q : Pool α β} {item : Nat × α} {rest : Placed α} (hwaiting : p.waiting = item :: rest)
      (h : p.start? = some q) : Happens p (.taken item) q
  | settle {p : Pool α β} (k place : Nat) (x : α) (answer : Except Fault β)
      (h : p.pending[k]? = some (place, x)) :
      Happens p (.ended (place, x) answer) (p.settle k place answer)

/-- Any number of steps with their history. -/
inductive Run (p : Pool α β) : List (Event α β) → Pool α β → Prop where
  | start : Run p [] p
  | next {es : List (Event α β)} {e : Event α β} {q r : Pool α β} (h : Run p es q)
      (s : Happens q e r) : Run p (es ++ [e]) r

/-- Nothing can happen any more. -/
def Over (p : Pool α β) : Prop := ∀ q, ¬ Step p q

/-- All items with their places, as they stand in the queue before the first is taken. -/
def places (items : List α) : Placed α := items.zipIdx.map fun (x, i) => (i, x)

variable {es fs : List (Event α β)}

@[simp]
theorem taken_append : taken (es ++ fs) = taken es ++ taken fs := by
  fun_induction taken es <;> simp_all [taken]

@[simp]
theorem ended_append : ended (es ++ fs) = ended es ++ ended fs := by
  fun_induction ended es <;> simp_all [ended]

@[simp]
theorem failures_append : failures (es ++ fs) = failures es ++ failures fs := by
  fun_induction failures es <;> simp_all [failures]

theorem mem_ended {item : Nat × α} : item ∈ ended es ↔ ∃ answer, Event.ended item answer ∈ es := by
  fun_induction ended es with
  | case1 => simp
  | case2 taken es ih => simp [ih]
  | case3 other answer es ih =>
    simp only [List.mem_cons, ih, Event.ended.injEq]
    constructor
    · rintro (rfl | ⟨a, h⟩)
      · exact ⟨answer, .inl ⟨rfl, rfl⟩⟩
      · exact ⟨a, .inr h⟩
    · rintro ⟨a, ⟨rfl, -⟩ | h⟩
      · exact .inl rfl
      · exact .inr ⟨a, h⟩

theorem mem_failures {e : Fault} :
    e ∈ failures es ↔ ∃ item, Event.ended item (.error e) ∈ es := by
  fun_induction failures es with
  | case1 => simp
  | case2 item f es ih =>
    simp only [List.mem_cons, ih, Event.ended.injEq, Except.error.injEq]
    constructor
    · rintro (rfl | ⟨a, h⟩)
      · exact ⟨item, .inl ⟨rfl, rfl⟩⟩
      · exact ⟨a, .inr h⟩
    · rintro ⟨a, ⟨-, rfl⟩ | h⟩
      · exact .inl rfl
      · exact .inr ⟨a, h⟩
  | case3 event es hother ih =>
    rw [ih]
    refine exists_congr fun item => ?_
    simp only [List.mem_cons]
    refine ⟨.inr, ?_⟩
    rintro (h | h)
    · exact absurd h.symm (hother item e)
    · exact h

theorem length_eq_taken_add_ended : es.length = (taken es).length + (ended es).length := by
  induction es with
  | nil => rfl
  | cons e es ih => cases e <;> simp only [taken, ended, List.length_cons, ih] <;> omega

theorem exists_happens_of_start? (h : p.start? = some q) :
    ∃ item, Happens p (.taken item) q := by
  cases hwaiting : p.waiting with
  | nil => simp [start?, hwaiting] at h
  | cons item rest => exact ⟨item, .take hwaiting h⟩

theorem step_iff : Step p q ↔ ∃ e, Happens p e q := by
  constructor
  · rintro (h | ⟨k, place, x, answer, h⟩)
    · exact (exists_happens_of_start? h).imp' Event.taken fun _ h => h
    · exact ⟨_, .settle k place x answer h⟩
  · rintro ⟨e, ⟨-, h⟩ | ⟨k, place, x, answer, h⟩⟩
    · exact .start h
    · exact .settle k place x answer h

/-- The pool stands as its history says. -/
structure Consistent (limit : Int) (items : List α) (es : List (Event α β)) (p : Pool α β) :
    Prop where
  crew : p.idle + p.pending.length + (failures es).length = workers limit items.length
  order : taken es ++ p.waiting = places items
  calls : (taken es).Perm (ended es ++ p.pending)
  size : p.slots.length = items.length
  filled : ∀ i y, p.slots[i]? = some (some y) ↔ ∃ x, Event.ended (i, x) (.ok y) ∈ es
  raised : p.raised = (failures es).head?

theorem mem_places {i : Nat} {x : α} : (i, x) ∈ places items ↔ items[i]? = some x := by
  simp only [places, List.mem_map, Prod.mk.injEq, Prod.exists, List.mem_zipIdx_iff_getElem?]
  constructor
  · rintro ⟨y, j, h, rfl, rfl⟩
    exact h
  · exact fun h => ⟨x, i, h, rfl, rfl⟩

theorem nodup_places : ((places items).map Prod.fst).Nodup := by
  have h : (places items).map Prod.fst = List.range items.length := by
    simp only [places, List.map_map, List.range_eq_range']
    exact List.zipIdx_map_snd 0 items
  rw [h]
  exact List.nodup_range

theorem consistent_init (limit : Int) (items : List α) :
    Consistent limit items [] (init limit items : Pool α β) where
  crew := rfl
  order := rfl
  calls := .nil
  size := List.length_map _
  filled i y := by
    simp only [List.not_mem_nil, exists_false, iff_false, init]
    intro h
    rw [List.getElem?_map] at h
    cases hi : items[i]? <;> rw [hi] at h <;> cases h
  raised := rfl

/-- A place is never pending twice, and not pending any more once its call has ended. -/
theorem Consistent.nodup (hp : Consistent limit items es p) :
    ((ended es ++ p.pending).map Prod.fst).Nodup := by
  refine (hp.calls.map Prod.fst).nodup_iff.mp (List.Nodup.sublist ?_ (@nodup_places _ items))
  rw [← hp.order]
  exact (List.sublist_append_left _ _).map _

theorem Consistent.mem_of_pending (hp : Consistent limit items es p) {i : Nat} {x : α}
    (h : (i, x) ∈ p.pending) : items[i]? = some x := by
  apply mem_places.mp
  rw [← hp.order]
  exact List.mem_append_left _ (hp.calls.mem_iff.mpr (List.mem_append_right _ h))

theorem Consistent.take (hp : Consistent limit items es p) {item : Nat × α} {rest : Placed α}
    (hwaiting : p.waiting = item :: rest) (h : p.start? = some q) :
    Consistent limit items (es ++ [.taken item]) q := by
  unfold start? at h
  split at h
  · rename_i idle head tail hidle hhead
    cases h
    obtain ⟨rfl, rfl⟩ : head = item ∧ tail = rest := by
      rw [hhead] at hwaiting
      cases hwaiting
      exact ⟨rfl, rfl⟩
    refine ⟨?_, ?_, ?_, hp.size, ?_, ?_⟩
    · have hcrew := hp.crew
      simp only [failures_append, failures, List.append_nil, List.length_append,
        List.length_singleton]
      omega
    · rw [← hp.order, hwaiting, taken_append, List.append_assoc]
      rfl
    · rw [taken_append, ended_append]
      simpa [taken, ended, ← List.append_assoc] using hp.calls.append_right [head]
    · intro i y
      rw [hp.filled i y]
      simp
    · rw [hp.raised, failures_append]
      simp [failures]
  · cases h

theorem perm_append_eraseIdx {l m n : List α} {k : Nat} {a : α} (h : l.Perm (m ++ n))
    (hk : n[k]? = some a) : l.Perm (m ++ [a] ++ n.eraseIdx k) := by
  obtain ⟨hlt, rfl⟩ := List.getElem?_eq_some_iff.mp hk
  rw [List.append_assoc]
  exact h.trans ((List.getElem_cons_eraseIdx_perm hlt).symm.append_left m)

theorem Consistent.settle (hp : Consistent limit items es p) {k place : Nat} {x : α}
    {answer : Except Fault β} (hk : p.pending[k]? = some (place, x)) :
    Consistent limit items (es ++ [.ended (place, x) answer]) (p.settle k place answer) := by
  have hmem : (place, x) ∈ p.pending := List.mem_of_getElem? hk
  have hlt := (List.getElem?_eq_some_iff.mp hk).1
  have hcrew := hp.crew
  cases answer with
  | error e =>
    refine ⟨?_, ?_, ?_, hp.size, ?_, ?_⟩
    · simp only [Pool.settle, failures_append, failures, List.length_append,
        List.length_singleton, List.length_eraseIdx_of_lt hlt]
      omega
    · simpa [Pool.settle, taken] using hp.order
    · simpa [Pool.settle, taken, ended] using perm_append_eraseIdx hp.calls hk
    · intro i y
      simpa [Pool.settle] using hp.filled i y
    · simp only [Pool.settle, hp.raised, failures_append, failures]
      cases failures es <;> rfl
  | ok y =>
    refine ⟨?_, ?_, ?_, ?_, ?_, ?_⟩
    · simp only [Pool.settle, failures_append, failures, List.append_nil,
        List.length_eraseIdx_of_lt hlt]
      omega
    · simpa [Pool.settle, taken] using hp.order
    · simpa [Pool.settle, taken, ended] using perm_append_eraseIdx hp.calls hk
    · simpa [Pool.settle] using hp.size
    · intro i z
      simp only [Pool.settle, List.mem_append, List.mem_singleton, Event.ended.injEq,
        Prod.mk.injEq, Except.ok.injEq]
      by_cases hi : i = place
      · subst hi
        have hfresh : ¬ ∃ x', Event.ended (i, x') (.ok z) ∈ es := by
          rintro ⟨x', hold⟩
          have hnodup := hp.nodup
          rw [List.map_append] at hnodup
          exact List.disjoint_of_nodup_append hnodup
            (List.mem_map.mpr ⟨_, mem_ended.mpr ⟨_, hold⟩, rfl⟩)
            (List.mem_map.mpr ⟨_, hmem, rfl⟩)
        have hplace : i < p.slots.length := by
          rw [hp.size]
          exact (List.getElem?_eq_some_iff.mp (hp.mem_of_pending hmem)).1
        rw [List.getElem?_set_self hplace]
        constructor
        · intro h
          obtain rfl : y = z := by simpa using h
          exact ⟨x, .inr ⟨⟨rfl, rfl⟩, rfl⟩⟩
        · rintro ⟨x', h | ⟨-, rfl⟩⟩
          · exact absurd ⟨x', h⟩ hfresh
          · rfl
      · rw [List.getElem?_set_ne (Ne.symm hi), hp.filled i z]
        simp [hi]
    · simpa [Pool.settle, failures] using hp.raised

theorem Consistent.happens {e : Event α β} (hp : Consistent limit items es p)
    (h : Happens p e q) : Consistent limit items (es ++ [e]) q := by
  cases h with
  | take hwaiting h => exact hp.take hwaiting h
  | settle k place x answer h => exact hp.settle h

theorem Run.consistent (h : Run (init limit items) es p) : Consistent limit items es p := by
  induction h with
  | start => exact consistent_init limit items
  | next _ s ih => exact ih.happens s

theorem Over.pending_eq_nil (h : p.Over) : p.pending = [] := by
  cases hpending : p.pending with
  | nil => rfl
  | cons item rest =>
    refine absurd (Step.settle 0 item.1 item.2 (.error .wrongKind) ?_) (h _)
    rw [hpending]
    rfl

theorem over_of_pending_eq_nil (hpending : p.pending = []) (h : p.idle = 0 ∨ p.waiting = []) :
    p.Over := by
  rintro q (hstart | ⟨k, place, x, answer, hk⟩)
  · unfold start? at hstart
    split at hstart
    · rename_i hidle hwaiting
      rcases h with h | h
      · rw [hidle] at h
        cases h
      · rw [hwaiting] at h
        cases h
    · cases hstart
  · rw [hpending] at hk
    cases hk

/-- Without a failure no worker is lost, so the work only stops when no item is left. -/
theorem Consistent.waiting_eq_nil (hp : Consistent limit items es p) (hnone : failures es = [])
    (hover : p.Over) : p.waiting = [] := by
  have hcrew := hp.crew
  rw [hover.pending_eq_nil, hnone] at hcrew
  have hidle : p.idle ≠ 0 := by
    have := one_le_workers limit items.length
    simp only [List.length_nil] at hcrew
    omega
  cases hstart : p.start? with
  | none => exact (start?_eq_none hstart).resolve_left hidle
  | some q => exact absurd (Step.start hstart) (hover q)

theorem Consistent.ended_perm (hp : Consistent limit items es p) (hnone : failures es = [])
    (hover : p.Over) : (ended es).Perm (places items) := by
  have hcalls := hp.calls
  rw [hover.pending_eq_nil, List.append_nil] at hcalls
  rw [← hp.order, hp.waiting_eq_nil hnone hover, List.append_nil]
  exact hcalls.symm

theorem eq_map_some {slots : List (Option β)} (h : ∀ o ∈ slots, o ≠ none) :
    slots = (slots.filterMap id).map some := by
  induction slots with
  | nil => rfl
  | cons o slots ih =>
    cases o with
    | none => exact absurd rfl (h none List.mem_cons_self)
    | some y =>
      have hrest := ih fun o ho => h o (List.mem_cons_of_mem _ ho)
      exact congrArg (some y :: ·) hrest

theorem Consistent.slots_eq (hp : Consistent limit items es p) (hnone : failures es = [])
    (hover : p.Over) : p.slots = (p.slots.filterMap id).map some := by
  apply eq_map_some
  rintro o ho rfl
  obtain ⟨i, hi⟩ := List.mem_iff_getElem?.mp ho
  have hlt : i < items.length := hp.size ▸ (List.getElem?_eq_some_iff.mp hi).1
  have hended : (i, items[i]) ∈ ended es :=
    (hp.ended_perm hnone hover).mem_iff.mpr (mem_places.mpr (List.getElem?_eq_getElem hlt))
  obtain ⟨answer, hanswer⟩ := mem_ended.mp hended
  cases answer with
  | ok y =>
    have := (hp.filled i y).mpr ⟨_, hanswer⟩
    rw [hi] at this
    cases this
  | error e =>
    have := mem_failures.mpr ⟨_, hanswer⟩
    rw [hnone] at this
    cases this

theorem Consistent.item_of_ended (hp : Consistent limit items es p) {i : Nat} {x : α}
    {answer : Except Fault β} (h : Event.ended (i, x) answer ∈ es) : items[i]? = some x := by
  apply mem_places.mp
  rw [← hp.order]
  exact List.mem_append_left _
    (hp.calls.mem_iff.mpr (List.mem_append_left _ (mem_ended.mpr ⟨_, h⟩)))

/-- A result in the list of a pool is that of the call of the item in its place. -/
theorem Consistent.item_of_filled (hp : Consistent limit items es p) {i : Nat} {y : β}
    (h : p.slots[i]? = some (some y)) :
    ∃ x, items[i]? = some x ∧ Event.ended (i, x) (.ok y) ∈ es := by
  obtain ⟨x, hx⟩ := (hp.filled i y).mp h
  exact ⟨x, hp.item_of_ended hx, hx⟩

theorem Consistent.length_le (hp : Consistent limit items es p) : es.length ≤ 2 * items.length := by
  have htaken := congrArg List.length hp.order
  have hended := hp.calls.length_eq
  simp only [places, List.length_append, List.length_map, List.length_zipIdx] at htaken hended
  rw [length_eq_taken_add_ended]
  omega

/-- The calls that have ended gave what the work on their items gives at some point. -/
def AnsweredBy (work : α → Session β) (es : List (Event α β)) : Prop :=
  ∀ place x answer, Event.ended (place, x) answer ∈ es → ∃ u, answer = ((work x).run u).1

theorem AnsweredBy.take {work : α → Session β} (h : AnsweredBy work es) (item : Nat × α) :
    AnsweredBy work (es ++ [.taken item]) := by
  intro place x answer hmem
  rcases List.mem_append.mp hmem with hmem | hmem
  · exact h place x answer hmem
  · cases List.mem_singleton.mp hmem

theorem AnsweredBy.settle {work : α → Session β} (h : AnsweredBy work es) (place : Nat) (x : α)
    (t : Trace) : AnsweredBy work (es ++ [.ended (place, x) ((work x).run t).1]) := by
  intro i y answer hmem
  rcases List.mem_append.mp hmem with hmem | hmem
  · exact h i y answer hmem
  · cases List.mem_singleton.mp hmem
    exact ⟨t, rfl⟩

theorem exists_run_fill {work : α → Session β} (h : Run p es q) (hes : AnsweredBy work es)
    (fuel : Nat) : ∃ fs, Run p fs (q.fill fuel) ∧ AnsweredBy work fs := by
  induction fuel generalizing es q with
  | zero => exact ⟨es, h, hes⟩
  | succ fuel ih =>
    rw [Pool.fill]
    split
    · rename_i r hr
      obtain ⟨item, hitem⟩ := exists_happens_of_start? hr
      exact ih (.next h hitem) (hes.take item)
    · exact ⟨es, h, hes⟩

/-- Whatever the schedule, what the pool does is a history of steps. -/
theorem exists_run_drain {work : α → Session β} (schedule : Nat → Nat) {left : Nat}
    (h : Run p es q) (hes : AnsweredBy work es) (t : Trace) :
    ∃ fs, Run p fs ((drain work schedule left q).run t).1 ∧ AnsweredBy work fs := by
  induction left generalizing es q t with
  | zero => exact ⟨es, h, hes⟩
  | succ left ih =>
    obtain ⟨fs, hfs, hanswered⟩ := exists_run_fill h hes q.idle
    rw [drain]
    split
    · exact ⟨fs, hfs, hanswered⟩
    · rename_i place x hk
      exact ih (.next hfs (.settle _ place x ((work x).run t).1 hk)) (hanswered.settle place x t)
        ((work x).run t).2

/-- The schedule goes on until nothing can happen any more. -/
theorem over_drain {work : α → Session β} (schedule : Nat → Nat) {left : Nat}
    (hleft : q.owed.length ≤ left) (t : Trace) : ((drain work schedule left q).run t).1.Over := by
  induction left generalizing q t with
  | zero =>
    have howed : q.owed = [] := List.eq_nil_of_length_eq_zero (Nat.le_zero.mp hleft)
    obtain ⟨hpending, hwaiting⟩ := List.append_eq_nil_iff.mp howed
    exact over_of_pending_eq_nil hpending (.inr hwaiting)
  | succ left ih =>
    have hstops := fill_stops (Nat.le_refl q.idle)
    rw [drain]
    split
    · rename_i hnone
      refine over_of_pending_eq_nil ?_ hstops
      -- The schedule points into the list of pending calls unless there are none.
      by_contra hpending
      exact absurd (Nat.mod_lt _ (List.length_pos_iff.mpr hpending))
        (Nat.not_lt.mpr (List.getElem?_eq_none_iff.mp hnone))
    · rename_i place x hk
      have hsettle := length_owed_settle hk ((work x).run t).1
      rw [owed_fill] at hsettle
      exact ih (Nat.le_of_succ_le_succ (Nat.le_trans (Nat.le_of_eq hsettle) hleft))
        ((work x).run t).2

theorem over_finish (limit : Int) (schedule : Nat → Nat) (items : List α) (work : α → Session β)
    (t : Trace) : ((finish limit schedule items work).run t).1.Over :=
  over_drain schedule (Nat.le_of_eq (length_owed_init limit items)) t

theorem exists_run_finish (limit : Int) (schedule : Nat → Nat) (items : List α)
    (work : α → Session β) (t : Trace) :
    ∃ es, Run (init limit items) es ((finish limit schedule items work).run t).1 ∧
      AnsweredBy work es := by
  refine exists_run_drain schedule .start ?_ t
  intro place x answer h
  cases h

/-- What a history of bounded work owes to its caller. -/
structure Orderly (limit : Int) (items : List α) (es : List (Event α β)) (p : Pool α β) :
    Prop where
  inFlight : (p.pending.length : Int) ≤ max 1 (min limit items.length)
  started : taken es <+: places items
  once : (taken es).Nodup
  calls : (taken es).Perm (ended es ++ p.pending)
  ends : es.length ≤ 2 * items.length
  results : failures es = [] → p.Over →
    (ended es).Perm (places items) ∧
      ∃ ys, p.outcome = .ok ys ∧ p.slots = ys.map some ∧ ys.length = items.length ∧
        ∀ i y, ys[i]? = some y → ∃ x, items[i]? = some x ∧ Event.ended (i, x) (.ok y) ∈ es
  raises : failures es ≠ [] → ∃ e ∈ failures es, p.outcome = .error e

theorem Consistent.results (hp : Consistent limit items es p) (hnone : failures es = [])
    (hover : p.Over) : ∃ ys, p.outcome = .ok ys ∧ p.slots = ys.map some ∧
      ys.length = items.length ∧
      ∀ i y, ys[i]? = some y → ∃ x, items[i]? = some x ∧ Event.ended (i, x) (.ok y) ∈ es := by
  have hslots := hp.slots_eq hnone hover
  have hraised : p.raised = none := by rw [hp.raised, hnone, List.head?_nil]
  refine ⟨p.slots.filterMap id, ?_, hslots, ?_, ?_⟩
  · rw [outcome, hraised]
  · rw [← hp.size]
    conv_rhs => rw [hslots]
    rw [List.length_map]
  · intro i y hy
    apply hp.item_of_filled
    rw [hslots, List.getElem?_map, hy]
    rfl

theorem Consistent.raises (hp : Consistent limit items es p) (hsome : failures es ≠ []) :
    ∃ e ∈ failures es, p.outcome = .error e := by
  obtain ⟨e, rest, heq⟩ := List.exists_cons_of_ne_nil hsome
  have hraised : p.raised = some e := by rw [hp.raised, heq, List.head?_cons]
  refine ⟨e, heq ▸ List.mem_cons_self, ?_⟩
  rw [outcome, hraised]

theorem Consistent.orderly (hp : Consistent limit items es p) : Orderly limit items es p where
  inFlight := by
    have hcrew := hp.crew
    unfold workers at hcrew
    omega
  started := ⟨p.waiting, hp.order⟩
  once := by
    refine List.Nodup.sublist ?_ (List.Nodup.of_map Prod.fst (@nodup_places _ items))
    rw [← hp.order]
    exact List.sublist_append_left _ _
  calls := hp.calls
  ends := hp.length_le
  results hnone hover := ⟨hp.ended_perm hnone hover, hp.results hnone hover⟩
  raises := hp.raises

/-- Every history of a pool is orderly, for every limit, in whatever order its calls end and
whatever they end with, and what a scheduled pool does is such a history to its end. -/
theorem bounded_queue (limit : Int) (items : List α) :
    (∀ (es : List (Event α β)) (p : Pool α β), Run (init limit items) es p →
      Orderly limit items es p) ∧
    ∀ (schedule : Nat → Nat) (work : α → Session β) (t : Trace), ∃ es p,
      Run (init limit items) es p ∧ p.Over ∧ AnsweredBy work es ∧
        ((run limit schedule items work).run t).1 = p.outcome := by
  refine ⟨fun es p h => h.consistent.orderly, fun schedule work t => ?_⟩
  obtain ⟨es, hrun, hanswered⟩ := exists_run_finish limit schedule items work t
  exact ⟨es, _, hrun, over_finish limit schedule items work t, hanswered, rfl⟩

theorem bounded_queue_of_failing_call :
    ∃ p : Pool Nat Nat,
      Run (init 2 [10, 20, 30]) [.taken (0, 10), .taken (1, 20), .ended (1, 20) (.error .wrongKind),
        .ended (0, 10) (.ok 11), .taken (2, 30), .ended (2, 30) (.ok 31)] p ∧
      p.outcome = .error .wrongKind ∧ p.pending.length ≤ 2 := by
  have hrun : Run (init 2 [10, 20, 30] : Pool Nat Nat) _ _ :=
    .next (.next (.next (.next (.next (.next .start (.take rfl rfl)) (.take rfl rfl))
      (.settle 1 1 20 (.error .wrongKind) rfl)) (.settle 0 0 10 (.ok 11) rfl)) (.take rfl rfl))
      (.settle 0 2 30 (.ok 31) rfl)
  have horderly := (bounded_queue 2 [10, 20, 30]).1 _ _ hrun
  obtain ⟨e, he, hraises⟩ := horderly.raises (List.cons_ne_nil _ _)
  obtain rfl : e = .wrongKind := List.mem_singleton.mp he
  exact ⟨_, hrun, hraises, by have := horderly.inFlight; omega⟩

/-- What holds of every answer of the work on an item holds of its place in the results. -/
theorem yields_run {Q : α → β → Prop} {work : α → Session β}
    (hwork : ∀ x ∈ items, (work x).Yields (Q x)) (limit : Int) (schedule : Nat → Nat) :
    (run limit schedule items work).Yields (List.Forall₂ Q items) := by
  intro t ys hys
  obtain ⟨es, hrun, hanswered⟩ := exists_run_finish limit schedule items work t
  have hp := hrun.consistent
  have hover := over_finish limit schedule items work t
  have hnone : failures es = [] := by
    by_contra hsome
    obtain ⟨e, -, hraises⟩ := hp.raises hsome
    cases hraises.symm.trans hys
  obtain ⟨zs, hok, -, hlength, hresults⟩ := hp.results hnone hover
  obtain rfl : zs = ys := Except.ok.inj (hok.symm.trans hys)
  refine List.forall₂_iff_get.mpr ⟨hlength.symm, fun i hi hj => ?_⟩
  obtain ⟨x, hx, hended⟩ := hresults i zs[i] (List.getElem?_eq_getElem hj)
  obtain ⟨u, hu⟩ := hanswered i x _ hended
  obtain rfl : items[i] = x := (List.getElem?_eq_some_iff.mp hx).2
  exact hwork _ (List.getElem_mem hi) u _ hu.symm

/-- Work that always ends in results has results for all items. -/
theorem answers_run {Q : α → β → Prop} {work : α → Session β}
    (hwork : ∀ x ∈ items, (work x).Answers (Q x)) (limit : Int) (schedule : Nat → Nat) :
    (run limit schedule items work).Answers (List.Forall₂ Q items) := by
  intro t
  obtain ⟨es, hrun, hanswered⟩ := exists_run_finish limit schedule items work t
  have hp := hrun.consistent
  have hnone : failures es = [] := by
    refine List.eq_nil_iff_forall_not_mem.mpr fun e he => ?_
    obtain ⟨⟨i, x⟩, hended⟩ := mem_failures.mp he
    have hx : x ∈ items := List.mem_of_getElem? (hp.item_of_ended hended)
    obtain ⟨u, hu⟩ := hanswered i x _ hended
    obtain ⟨y, v, hy, -⟩ := hwork x hx u
    rw [hy] at hu
    cases hu
  obtain ⟨ys, hok, -⟩ := hp.results hnone (over_finish limit schedule items work t)
  have hys : ((run limit schedule items work).run t).1 = .ok ys := hok
  refine ⟨ys, ((run limit schedule items work).run t).2, Prod.ext hys rfl, ?_⟩
  exact yields_run (fun x hx => (hwork x hx).yields) limit schedule t ys hys

end Funnel.Pool
