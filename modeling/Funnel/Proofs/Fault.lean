import Funnel.Fault
import Mathlib.Data.List.Perm.Basic

/-!
# Computations that may fail

A computation that does not fail went through all of its steps.
-/

set_option autoImplicit false

namespace Funnel.Fault

variable {α β γ : Type}

theorem bind_eq_ok_iff {x : Except Fault α} {k : α → Except Fault β} {b : β} :
    x >>= k = .ok b ↔ ∃ a, x = .ok a ∧ k a = .ok b := by
  cases x with
  | error e => exact ⟨nofun, fun ⟨_, h, _⟩ => nomatch h⟩
  | ok a => exact ⟨fun h => ⟨a, rfl, h⟩, fun ⟨_, h, hk⟩ => Except.ok.inj h ▸ hk⟩

theorem exists_bind_eq_ok {x : Except Fault α} {k : α → Except Fault β} {a : α} (hx : x = .ok a)
    (hk : ∃ b, k a = .ok b) : ∃ b, x >>= k = .ok b :=
  hk.imp fun _ hb => bind_eq_ok_iff.mpr ⟨a, hx, hb⟩

theorem bind_eq_error_iff {x : Except Fault α} {k : α → Except Fault β} {e : Fault} :
    x >>= k = .error e ↔ x = .error e ∨ ∃ a, x = .ok a ∧ k a = .error e := by
  cases x with
  | error f =>
    constructor
    · intro h
      cases h
      exact .inl rfl
    · rintro (h | ⟨_, h, -⟩)
      · cases h
        rfl
      · cases h
  | ok a =>
    constructor
    · intro h
      exact .inr ⟨a, rfl, h⟩
    · rintro (h | ⟨_, h, hk⟩)
      · cases h
      · cases h
        exact hk

theorem eq_ok_of_toOption {x : Except Fault α} {a : α} (h : x.toOption = some a) : x = .ok a := by
  cases x with
  | error e => cases h
  | ok b => exact congrArg Except.ok (Option.some.inj h)

/-- Computations that give the same, though they may fail in different ways. -/
theorem toOption_eq_of_ok_iff {x y : Except Fault α} (h : ∀ a, x = .ok a ↔ y = .ok a) :
    x.toOption = y.toOption := by
  cases x with
  | ok a => rw [(h a).mp rfl]
  | error e =>
    cases y with
    | ok b => cases (h b).mpr rfl
    | error e' => rfl

theorem mapM_cons_eq_ok_iff {f : α → Except Fault β} {x : α} {xs : List α} {ys : List β} :
    (x :: xs).mapM f = .ok ys ↔ ∃ y zs, f x = .ok y ∧ xs.mapM f = .ok zs ∧ ys = y :: zs := by
  rw [List.mapM_cons, bind_eq_ok_iff]
  constructor
  · rintro ⟨y, hy, h⟩
    obtain ⟨zs, hzs, h⟩ := bind_eq_ok_iff.mp h
    cases h
    exact ⟨y, zs, hy, hzs, rfl⟩
  · rintro ⟨y, zs, hy, hzs, rfl⟩
    exact ⟨y, hy, bind_eq_ok_iff.mpr ⟨zs, hzs, rfl⟩⟩

theorem mem_of_mapM {f : α → Except Fault β} {xs : List α} {ys : List β} (h : xs.mapM f = .ok ys)
    {y : β} : y ∈ ys ↔ ∃ x ∈ xs, f x = .ok y := by
  induction xs generalizing ys with
  | nil =>
    cases h
    simp
  | cons x xs ih =>
    obtain ⟨first, rest, hfirst, hrest, rfl⟩ := mapM_cons_eq_ok_iff.mp h
    rw [List.mem_cons, ih hrest]
    constructor
    · rintro (rfl | ⟨w, hw, hy⟩)
      · exact ⟨x, List.mem_cons_self, hfirst⟩
      · exact ⟨w, List.mem_cons_of_mem x hw, hy⟩
    · rintro ⟨w, hw, hy⟩
      rcases List.mem_cons.mp hw with rfl | hw
      · exact .inl (Except.ok.inj (hy.symm.trans hfirst))
      · exact .inr ⟨w, hw, hy⟩

theorem forall_mem_of_mapM {Q : β → Prop} {f : α → Except Fault (Option β)} {xs : List α}
    (h : ∀ x ∈ xs, ∀ b, f x = .ok (some b) → Q b) {bs : List (Option β)}
    (hbs : xs.mapM f = .ok bs) : ∀ b ∈ bs.filterMap id, Q b := by
  intro b hb
  obtain ⟨c, hc, hsome⟩ := List.mem_filterMap.mp hb
  obtain rfl : c = some b := hsome
  obtain ⟨x, hmem, hx⟩ := (mem_of_mapM hbs).mp hc
  exact h x hmem b hx

theorem forall_of_mapM {Q : β → Prop} {f : α → Except Fault (Option β)}
    (h : ∀ x b, f x = .ok (some b) → Q b) {xs : List α} {bs : List (Option β)}
    (hbs : xs.mapM f = .ok bs) : ∀ b ∈ bs.filterMap id, Q b :=
  forall_mem_of_mapM (fun x _ => h x) hbs

theorem mapM_eq_ok {f : α → Except Fault β} {g : α → β} {xs : List α}
    (h : ∀ x ∈ xs, f x = .ok (g x)) : xs.mapM f = .ok (xs.map g) := by
  induction xs with
  | nil => rfl
  | cons x xs ih =>
    rw [List.mapM_cons, h x List.mem_cons_self, ih fun y hy => h y (List.mem_cons_of_mem x hy)]
    rfl

theorem exists_mapM_eq_ok {f : α → Except Fault β} {xs : List α}
    (h : ∀ x ∈ xs, ∃ y, f x = .ok y) : ∃ ys, xs.mapM f = .ok ys := by
  induction xs with
  | nil => exact ⟨[], rfl⟩
  | cons x xs ih =>
    obtain ⟨y, hy⟩ := h x List.mem_cons_self
    obtain ⟨ys, hys⟩ := ih fun z hz => h z (List.mem_cons_of_mem x hz)
    rw [List.mapM_cons]
    exact exists_bind_eq_ok hy (exists_bind_eq_ok hys ⟨_, rfl⟩)

theorem exists_mapM_eq_ok_iff {f : α → Except Fault β} {xs : List α} :
    (∃ ys, xs.mapM f = .ok ys) ↔ ∀ x ∈ xs, ∃ y, f x = .ok y := by
  refine ⟨?_, exists_mapM_eq_ok⟩
  rintro ⟨ys, hys⟩
  induction xs generalizing ys with
  | nil => nofun
  | cons x xs ih =>
    obtain ⟨y, zs, hy, hzs, -⟩ := mapM_cons_eq_ok_iff.mp hys
    exact List.forall_mem_cons.mpr ⟨⟨y, hy⟩, ih zs hzs⟩

theorem mapM_eq_ok_iff {f : α → Except Fault β} {xs : List α} {ys : List β} :
    xs.mapM f = .ok ys ↔ List.Forall₂ (fun x y => f x = .ok y) xs ys := by
  induction xs generalizing ys with
  | nil => exact ⟨fun h => by cases h; exact .nil, fun h => by cases h; rfl⟩
  | cons x xs ih =>
    rw [mapM_cons_eq_ok_iff, List.forall₂_cons_left_iff]
    constructor
    · rintro ⟨y, zs, hy, hzs, rfl⟩
      exact ⟨y, zs, hy, ih.mp hzs, rfl⟩
    · rintro ⟨y, zs, hy, hzs, rfl⟩
      exact ⟨y, zs, hy, ih.mpr hzs, rfl⟩

theorem exists_mapM_of_perm {f : α → Except Fault β} {xs others : List α} {ys : List β}
    (hperm : xs.Perm others) (h : xs.mapM f = .ok ys) :
    ∃ zs, others.mapM f = .ok zs ∧ ys.Perm zs := by
  obtain ⟨zs, hzs, hperm⟩ := List.perm_comp_forall₂ hperm.symm (mapM_eq_ok_iff.mp h)
  exact ⟨zs, mapM_eq_ok_iff.mpr hzs, hperm.symm⟩

theorem exists_of_mapM_eq_error {f : α → Except Fault β} {xs : List α} {e : Fault}
    (h : xs.mapM f = .error e) : ∃ x ∈ xs, f x = .error e := by
  induction xs with
  | nil => cases h
  | cons x xs ih =>
    rw [List.mapM_cons, bind_eq_error_iff] at h
    rcases h with hx | ⟨y, -, h⟩
    · exact ⟨x, List.mem_cons_self, hx⟩
    · rcases bind_eq_error_iff.mp h with hxs | ⟨ys, -, h⟩
      · obtain ⟨z, hz, hfz⟩ := ih hxs
        exact ⟨z, List.mem_cons_of_mem x hz, hfz⟩
      · cases h

theorem mapM_filter {f : α → Except Fault (Option β)} {keep : α → Bool} {q : β → Bool}
    (hkeep : ∀ x y, f x = .ok (some y) → keep x = q y) {xs : List α} {found : List (Option β)}
    (h : xs.mapM f = .ok found) :
    ∃ kept, (xs.filter keep).mapM f = .ok kept ∧
      kept.filterMap id = (found.filterMap id).filter q := by
  induction xs generalizing found with
  | nil =>
    cases h
    exact ⟨[], rfl, rfl⟩
  | cons x xs ih =>
    obtain ⟨first, rest, hfirst, hrest, rfl⟩ := mapM_cons_eq_ok_iff.mp h
    obtain ⟨kept, hkept, hfilter⟩ := ih hrest
    have hsome : ∀ y ys, List.filterMap id (some y :: ys) = (y :: ys.filterMap id : List β) :=
      fun _ _ => rfl
    by_cases hx : keep x = true
    · refine ⟨first :: kept, ?_, ?_⟩
      · rw [List.filter_cons, if_pos hx]
        exact mapM_cons_eq_ok_iff.mpr ⟨first, kept, hfirst, hkept, rfl⟩
      · cases first with
        | none => exact hfilter
        | some y =>
          have hq : q y = true := by rw [← hkeep x y hfirst, hx]
          rw [hsome, hsome, hfilter, List.filter_cons, if_pos hq]
    · refine ⟨kept, ?_, ?_⟩
      · rw [List.filter_cons, if_neg hx]
        exact hkept
      · cases first with
        | none => exact hfilter
        | some y =>
          have hq : ¬ q y = true := by rwa [← hkeep x y hfirst]
          rw [hsome, hfilter, List.filter_cons, if_neg hq]

/-- Items that give nothing may be left out. -/
theorem bind_mapM_filter {f : α → Except Fault (Option β)} {keep : α → Bool}
    {xs : List α} (h : ∀ x ∈ xs, keep x = false → f x = .ok none) (k : List β → Except Fault γ) :
    ((xs.filter keep).mapM f >>= fun found => k (found.filterMap id)) =
      xs.mapM f >>= fun found => k (found.filterMap id) := by
  induction xs generalizing k with
  | nil => rfl
  | cons x xs ih =>
    obtain ⟨hx, hxs⟩ := List.forall_mem_cons.mp h
    rw [List.mapM_cons, bind_assoc]
    simp only [bind_assoc, pure_bind]
    cases hkeep : keep x with
    | true =>
      rw [List.filter_cons, if_pos hkeep, List.mapM_cons, bind_assoc]
      simp only [bind_assoc, pure_bind]
      refine bind_congr fun found => ?_
      cases found with
      | none => exact ih hxs k
      | some y => exact ih hxs fun ys => k (y :: ys)
    | false =>
      rw [List.filter_cons, if_neg (Bool.eq_false_iff.mp hkeep), hx hkeep]
      exact ih hxs k

/-- The computation fails only in ways of a kind. -/
def FailsAs (P : Fault → Prop) (x : Except Fault α) : Prop := ∀ e, x = .error e → P e

variable {P : Fault → Prop}

theorem failsAs_ok (a : α) : FailsAs P (.ok a) := nofun

theorem failsAs_error {e : Fault} (h : P e) : FailsAs P (.error e : Except Fault α) := by
  rintro _ ⟨rfl⟩
  exact h

theorem failsAs_bind {x : Except Fault α} {k : α → Except Fault β} (hx : FailsAs P x)
    (hk : ∀ a, FailsAs P (k a)) : FailsAs P (x >>= k) := by
  intro e he
  rcases bind_eq_error_iff.mp he with h | ⟨a, -, h⟩
  · exact hx e h
  · exact hk a e h

theorem failsAs_mapM {f : α → Except Fault β} (hf : ∀ a, FailsAs P (f a)) (xs : List α) :
    FailsAs P (xs.mapM f) := by
  intro e he
  obtain ⟨x, -, hx⟩ := exists_of_mapM_eq_error he
  exact hf x e hx

theorem failsAs_foldlM {f : β → α → Except Fault β} (hf : ∀ b a, FailsAs P (f b a)) (xs : List α)
    (b : β) : FailsAs P (xs.foldlM f b) := by
  induction xs generalizing b with
  | nil => exact failsAs_ok b
  | cons x xs ih =>
    rw [List.foldlM_cons]
    exact failsAs_bind (hf b x) fun c => ih c

end Funnel.Fault
