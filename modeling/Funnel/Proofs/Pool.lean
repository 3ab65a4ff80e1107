import Funnel.Proofs.Store.Gives

/-!
# Bounded work with results

Work that always ends in results fills every slot with the result of its item, however many workers
there are and in whatever order their calls end. The invariant of a pool on its way there says which
items are still owed.
-/

set_option autoImplicit false

namespace Funnel.Pool

variable {α β : Type} {items : List α} {g : α → β} {p q : Pool α β}

def owed (p : Pool α β) : Placed α := p.pending ++ p.waiting

/-- The slots of some items that are no longer owed hold their results, and as long as anything is
owed somebody works on it. -/
structure OnCourse (items : List α) (g : α → β) (p : Pool α β) : Prop where
  unraised : p.raised = none
  staffed : 1 ≤ p.idle + p.pending.length
  slots : p.slots.length = items.length
  placed : ∀ i x, (i, x) ∈ p.owed → items[i]? = some x
  filled : ∀ i x, items[i]? = some x → (i, x) ∉ p.owed → p.slots[i]? = some (some (g x))

theorem one_le_workers (limit : Int) (n : Nat) : 1 ≤ workers limit n := by
  unfold workers
  omega

theorem onCourse_init (limit : Int) (items : List α) (g : α → β) :
    OnCourse items g (init limit items) where
  unraised := rfl
  staffed := Nat.le_add_right_of_le (one_le_workers limit items.length)
  slots := List.length_map _
  placed i x h := by
    obtain ⟨⟨y, j⟩, hmem, heq⟩ := List.mem_map.mp h
    cases heq
    simpa [List.mem_zipIdx_iff_getElem?] using hmem
  filled i x h hnot := by
    refine absurd (List.mem_map.mpr ⟨(x, i), ?_, rfl⟩) hnot
    simpa [List.mem_zipIdx_iff_getElem?] using h

theorem length_owed_init (limit : Int) (items : List α) :
    (init limit items : Pool α β).owed.length = items.length := by
  simp [owed, init]

theorem start?_eq_some (h : p.start? = some q) :
    q.owed = p.owed ∧ q.raised = p.raised ∧ q.slots = p.slots ∧
      q.idle + 1 = p.idle ∧ q.pending.length = p.pending.length + 1 := by
  unfold start? at h
  split at h
  · rename_i idle item rest hidle hwaiting
    cases h
    refine ⟨?_, rfl, rfl, hidle.symm, by simp⟩
    simp only [owed, hwaiting, List.append_assoc, List.singleton_append]
  · cases h

theorem start?_eq_none (h : p.start? = none) : p.idle = 0 ∨ p.waiting = [] := by
  unfold start? at h
  split at h
  · cases h
  · rename_i hnot
    cases hidle : p.idle with
    | zero => exact .inl rfl
    | succ idle =>
      cases hwaiting : p.waiting with
      | nil => exact .inr rfl
      | cons item rest => exact absurd hwaiting (hnot idle item rest hidle)

theorem OnCourse.start (hp : OnCourse items g p) (h : p.start? = some q) :
    OnCourse items g q := by
  obtain ⟨howed, hraised, hslots, hidle, hpending⟩ := start?_eq_some h
  refine ⟨hraised.trans hp.unraised, by omega, hslots ▸ hp.slots, ?_, ?_⟩
  · rw [howed]
    exact hp.placed
  · rw [howed, hslots]
    exact hp.filled

theorem mem_eraseIdx_of_ne {l : List α} {k : Nat} {a b : α} (ha : l[k]? = some a) (hb : b ∈ l)
    (hne : b ≠ a) : b ∈ l.eraseIdx k := by
  obtain ⟨j, hj⟩ := List.mem_iff_getElem?.mp hb
  refine List.mem_eraseIdx_iff_getElem?.mpr ⟨j, ?_, hj⟩
  rintro rfl
  exact hne (Option.some.inj (hj.symm.trans ha))

/-- A call that ends with the result of its item leaves only the other items owed. -/
theorem OnCourse.settle (hp : OnCourse items g p) {k place : Nat} {x : α}
    (hk : p.pending[k]? = some (place, x)) :
    OnCourse items g (p.settle k place (.ok (g x))) := by
  have hplace : items[place]? = some x :=
    hp.placed place x (List.mem_append_left _ (List.mem_of_getElem? hk))
  refine ⟨hp.unraised, ?_, ?_, ?_, ?_⟩
  · simp only [Pool.settle]
    omega
  · simp only [Pool.settle, List.length_set]
    exact hp.slots
  · intro i y h
    apply hp.placed
    rcases List.mem_append.mp h with h | h
    · exact List.mem_append_left _ (List.mem_of_mem_eraseIdx h)
    · exact List.mem_append_right _ h
  · intro i y hy hnot
    by_cases hsame : i = place
    · subst hsame
      obtain rfl : x = y := Option.some.inj (hplace.symm.trans hy)
      have hlt : i < p.slots.length := hp.slots ▸ (List.getElem?_eq_some_iff.mp hy).1
      simp only [Pool.settle, List.getElem?_set_self hlt]
    · have hne : (i, y) ≠ (place, x) := fun h => hsame (congrArg Prod.fst h)
      have hold : (i, y) ∉ p.owed := by
        intro h
        apply hnot
        rcases List.mem_append.mp h with h | h
        · exact List.mem_append_left _ (mem_eraseIdx_of_ne hk h hne)
        · exact List.mem_append_right _ h
      simp only [Pool.settle, List.getElem?_set_ne (Ne.symm hsame)]
      exact hp.filled i y hy hold

theorem length_owed_settle {k place : Nat} {x : α} (hk : p.pending[k]? = some (place, x))
    (answer : Except Fault β) : (p.settle k place answer).owed.length + 1 = p.owed.length := by
  have hlt := (List.getElem?_eq_some_iff.mp hk).1
  cases answer <;>
    simp only [Pool.settle, owed, List.length_append, List.length_eraseIdx_of_lt hlt] <;> omega

theorem OnCourse.fill (hp : OnCourse items g p) (fuel : Nat) :
    OnCourse items g (p.fill fuel) := by
  induction fuel generalizing p with
  | zero => exact hp
  | succ fuel ih =>
    rw [Pool.fill]
    split
    · exact ih (hp.start ‹_›)
    · exact hp

/-- Taking items changes nothing that taking one leaves as it is. -/
theorem fill_unchanged {γ : Type} {g : Pool α β → γ}
    (h : ∀ {p q : Pool α β}, p.start? = some q → g q = g p) (p : Pool α β) (fuel : Nat) :
    g (p.fill fuel) = g p := by
  induction fuel generalizing p with
  | zero => rfl
  | succ fuel ih =>
    rw [Pool.fill]
    split
    · rename_i q hq
      rw [ih, h hq]
    · rfl

theorem owed_fill (p : Pool α β) (fuel : Nat) : (p.fill fuel).owed = p.owed :=
  fill_unchanged (fun h => (start?_eq_some h).1) p fuel

/-- Taking items goes on until there is no worker or no item left. -/
theorem fill_stops {fuel : Nat} (hfuel : p.idle ≤ fuel) :
    (p.fill fuel).idle = 0 ∨ (p.fill fuel).waiting = [] := by
  induction fuel generalizing p with
  | zero => exact .inl (Nat.le_zero.mp hfuel)
  | succ fuel ih =>
    rw [Pool.fill]
    split
    · rename_i q hq
      obtain ⟨-, -, -, hidle, -⟩ := start?_eq_some hq
      exact ih (by omega)
    · exact start?_eq_none ‹_›

/-- As long as anything is owed, some call is pending once the idle workers have taken items. -/
theorem OnCourse.pending_ne_nil (hp : OnCourse items g p) (howed : p.owed ≠ [])
    (hend : p.idle = 0 ∨ p.waiting = []) : p.pending ≠ [] := by
  rcases hend with hidle | hwaiting
  · intro h
    have := hp.staffed
    rw [hidle, h] at this
    cases this
  · simpa [owed, hwaiting] using howed

theorem OnCourse.outcome (hp : OnCourse items g p) (howed : p.owed = []) :
    p.outcome = .ok (items.map g) := by
  have hslots : p.slots = items.map fun x => some (g x) := by
    apply List.ext_getElem?
    intro i
    rw [List.getElem?_map]
    cases hi : items[i]? with
    | none =>
      rw [List.getElem?_eq_none_iff, ← hp.slots] at hi
      simp [hi]
    | some x =>
      rw [hp.filled i x hi (by simp [howed])]
      rfl
  have hvalues : (items.map fun x => some (g x)).filterMap id = items.map g := by
    simp [List.filterMap_map]
  simp only [Pool.outcome, hp.unraised, hslots, hvalues]

theorem outcome_drain {work : α → Session β} (hwork : ∀ x ∈ items, (work x).Gives (.ok (g x)))
    (schedule : Nat → Nat) {left : Nat} (hp : OnCourse items g p) (hleft : p.owed.length = left)
    (t : Trace) : ((drain work schedule left p).run t).1.outcome = .ok (items.map g) := by
  induction left generalizing p t with
  | zero => exact hp.outcome (List.eq_nil_of_length_eq_zero hleft)
  | succ left ih =>
    have hcourse := hp.fill p.idle
    have howed : (p.fill p.idle).owed.length = left + 1 := by rw [owed_fill, hleft]
    have hpending := hcourse.pending_ne_nil (List.ne_nil_of_length_eq_add_one howed)
      (fill_stops (Nat.le_refl p.idle))
    have hk : schedule left % (p.fill p.idle).pending.length < (p.fill p.idle).pending.length :=
      Nat.mod_lt _ (List.length_pos_iff.mpr hpending)
    rw [drain]
    split
    · rename_i hnone
      exact absurd hk (Nat.not_lt.mpr (List.getElem?_eq_none_iff.mp hnone))
    · rename_i place x hsome
      have hx : x ∈ items := List.mem_of_getElem?
        (hcourse.placed place x (List.mem_append_left _ (List.mem_of_getElem? hsome)))
      have hanswer := hwork x hx t
      have hnext := ih (hcourse.settle hsome)
        (by have := length_owed_settle hsome (.ok (g x)); omega) ((work x).run t).2
      rw [← hanswer] at hnext
      exact hnext

/-- Work that always ends in results gives the results of all items in their order, for every limit
and every order in which calls end. -/
theorem gives_run {work : α → Session β} (hwork : ∀ x ∈ items, (work x).Gives (.ok (g x)))
    (limit : Int) (schedule : Nat → Nat) :
    (run limit schedule items work).Gives (.ok (items.map g)) :=
  outcome_drain hwork schedule (onCourse_init limit items g) (length_owed_init limit items)

/-- The order in which calls end does not depend on what was asked before. -/
theorem steady_run {work : α → Session β} (hwork : ∀ x, (work x).Steady) (limit : Int)
    (schedule : Nat → Nat) (items : List α) : (run limit schedule items work).Steady := by
  have hdrain : ∀ (left : Nat) (p : Pool α β) (t : Trace),
      ((drain work schedule left p).run t).1 = ((drain work schedule left p).run .start).1 := by
    intro left
    induction left with
    | zero => exact fun _ _ => rfl
    | succ left ih =>
      intro p t
      rw [drain]
      split
      · rfl
      · rename_i place x _
        have hrest := ih ((p.fill p.idle).settle
          (schedule left % (p.fill p.idle).pending.length) place (work x).alone)
        have hanswer : ((work x).run t).1 = (work x).alone := hwork x t
        have hlater := hrest ((work x).run t).2
        rw [← hanswer] at hlater
        exact hlater.trans (hanswer ▸ (hrest ((work x).run Trace.start).2).symm)
  intro t
  change ((finish limit schedule items work).run t).1.outcome =
    ((finish limit schedule items work).run Trace.start).1.outcome
  rw [finish, hdrain]

end Funnel.Pool
