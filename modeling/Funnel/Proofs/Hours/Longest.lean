import Funnel.Hours.Window
import Funnel.Proofs.Fault
import Mathlib.Data.List.Nodup

/-!
# The window of a phone number

Of the windows whose country code stands in front of a number, the one with the longest code has
it, and the first one of several that are as long. A number in front of which no code stands has the
default, so the order of the windows only matters between those of one code.
-/

set_option autoImplicit false

namespace Funnel.Hours

def Window.code (w : Window) : List Char := digits w.countryCode

/-- The code has digits and these stand in front of a number. -/
def Window.Fits (w : Window) (number : List Char) : Prop := w.code ≠ [] ∧ w.code <+: number

/-- A window fits a number, no window that fits it has a longer code, and those before that fit it
have shorter ones. -/
def FirstLongest (number : List Char) (windows : List Window) (w : Window) : Prop :=
  w.Fits number ∧ ∃ before after, windows = before ++ w :: after ∧
    (∀ v ∈ before, v.Fits number → v.code.length < w.code.length) ∧
    ∀ v ∈ after, v.Fits number → v.code.length ≤ w.code.length

variable {number : List Char} {windows : List Window} {best : Option Window} {w : Window}

namespace FirstLongest

theorem mem (h : FirstLongest number windows w) : w ∈ windows := by
  obtain ⟨-, before, after, rfl, -, -⟩ := h
  exact List.mem_append_cons_self

theorem length_le (h : FirstLongest number windows w) {v : Window} (hv : v ∈ windows)
    (hfits : v.Fits number) : v.code.length ≤ w.code.length := by
  obtain ⟨-, before, after, rfl, hbefore, hafter⟩ := h
  rcases List.mem_append.mp hv with hv | hv
  · exact Nat.le_of_lt (hbefore v hv hfits)
  · rcases List.mem_cons.mp hv with rfl | hv
    · exact Nat.le_refl _
    · exact hafter v hv hfits

theorem length_eq (h : FirstLongest number windows w) {v : Window}
    (hv : FirstLongest number windows v) : w.code.length = v.code.length :=
  Nat.le_antisymm (hv.length_le h.mem h.1) (h.length_le hv.mem hv.1)

theorem eq_of_firstLongest (h : FirstLongest number windows w) {v : Window}
    (hv : FirstLongest number windows v) : w = v := by
  have hlength := h.length_eq hv
  obtain ⟨hfits, before, after, rfl, hbefore, -⟩ := h
  obtain ⟨hfits', before', after', heq, hbefore', -⟩ := hv
  -- of two winners, one that comes before the other would have to be shorter
  rcases List.append_eq_append_iff.mp heq with ⟨between, rfl, hrest⟩ | ⟨between, rfl, hrest⟩
  · cases between with
    | nil => exact (List.cons.inj hrest).1
    | cons u between =>
      obtain ⟨rfl, -⟩ := List.cons.inj hrest
      have hshorter := hbefore' w List.mem_append_cons_self hfits
      omega
  · cases between with
    | nil => exact (List.cons.inj hrest).1.symm
    | cons u between =>
      obtain ⟨rfl, -⟩ := List.cons.inj hrest
      have hshorter := hbefore v List.mem_append_cons_self hfits'
      omega

/-- A window behind the others wins if its code fits and is longer than all that fit. -/
theorem concat_of_longer (hfits : w.Fits number)
    (h : ∀ v ∈ windows, v.Fits number → v.code.length < w.code.length) :
    FirstLongest number (windows ++ [w]) w :=
  ⟨hfits, windows, [], rfl, h, List.forall_mem_nil _⟩

theorem concat (h : FirstLongest number windows w) {v : Window}
    (hv : v.Fits number → v.code.length ≤ w.code.length) :
    FirstLongest number (windows ++ [v]) w := by
  obtain ⟨hfits, before, after, rfl, hbefore, hafter⟩ := h
  refine ⟨hfits, before, after ++ [v], by simp, hbefore, ?_⟩
  exact List.forall_mem_append.mpr ⟨hafter, List.forall_mem_singleton.mpr hv⟩

end FirstLongest

/-- What was found among the windows seen: nothing where none fits, else the first longest. -/
def IsBest (number : List Char) (seen : List Window) : Option Window → Prop
  | none => ∀ w ∈ seen, ¬ w.Fits number
  | some w => FirstLongest number seen w

theorem longest_of_longer (hfits : w.Fits number)
    (h : ∀ b ∈ best, b.code.length < w.code.length) : longest number best w = some w := by
  have hfront : w.code.isPrefixOf number = true := List.isPrefixOf_iff_prefix.mpr hfits.2
  cases best with
  | none =>
    have hlength : 0 < w.code.length := List.length_pos_iff.mpr hfits.1
    exact if_pos (Bool.and_eq_true_iff.mpr ⟨hfront, decide_eq_true hlength⟩)
  | some b => exact if_pos (Bool.and_eq_true_iff.mpr ⟨hfront, decide_eq_true (h b rfl)⟩)

theorem longest_of_not (h : w.Fits number → ∃ b ∈ best, w.code.length ≤ b.code.length) :
    longest number best w = best := by
  refine if_neg fun hlonger => ?_
  obtain ⟨hfront, hlength⟩ := Bool.and_eq_true_iff.mp hlonger
  replace hlength := of_decide_eq_true hlength
  have hfits : w.Fits number := by
    refine ⟨fun hnil => ?_, List.isPrefixOf_iff_prefix.mp hfront⟩
    change _ < w.code.length at hlength
    rw [hnil] at hlength
    exact absurd hlength (Nat.not_lt_zero _)
  obtain ⟨b, rfl, hle⟩ := h hfits
  exact absurd hlength (Nat.not_lt_of_le hle)

theorem isBest_longest {seen : List Window} (h : IsBest number seen best) (w : Window) :
    IsBest number (seen ++ [w]) (longest number best w) := by
  by_cases hlonger : w.Fits number ∧ ∀ b ∈ best, b.code.length < w.code.length
  · rw [longest_of_longer hlonger.1 hlonger.2]
    refine FirstLongest.concat_of_longer hlonger.1 fun v hv hfits => ?_
    cases best with
    | none => exact absurd hfits (h v hv)
    | some b => exact Nat.lt_of_le_of_lt (h.length_le hv hfits) (hlonger.2 b rfl)
  · have hnot : w.Fits number → ∃ b ∈ best, w.code.length ≤ b.code.length := fun hfits => by
      simpa using fun h => hlonger ⟨hfits, h⟩
    rw [longest_of_not hnot]
    cases best with
    | none =>
      refine List.forall_mem_append.mpr ⟨h, List.forall_mem_singleton.mpr fun hfits => ?_⟩
      obtain ⟨b, hb, -⟩ := hnot hfits
      cases hb
    | some b =>
      refine FirstLongest.concat h fun hfits => ?_
      obtain ⟨_, ⟨rfl⟩, hle⟩ := hnot hfits
      exact hle

theorem isBest_foldl {seen : List Window} (h : IsBest number seen best) (windows : List Window) :
    IsBest number (seen ++ windows) (windows.foldl (longest number) best) := by
  induction windows generalizing seen best with
  | nil => rwa [List.append_nil]
  | cons w windows ih =>
    rw [← List.singleton_append, ← List.append_assoc]
    exact ih (isBest_longest h w)

/-- The search finds nothing where no code fits, and else the first longest. -/
theorem windowFor_eq (phone : String) (windows : List Window) :
    ∃ found, IsBest (digits phone) windows found ∧
      ∀ default, windowFor phone windows default = found.getD default :=
  ⟨_, @isBest_foldl (digits phone) none [] (List.forall_mem_nil _) windows, fun _ => rfl⟩

/-- Of windows with different codes only one can have the longest that fits. -/
theorem FirstLongest.eq_of_perm {others : List Window} (hperm : windows.Perm others)
    (hcodes : (windows.map Window.code).Nodup) {v : Window} (h : FirstLongest number windows w)
    (hv : FirstLongest number others v) : w = v := by
  have hmem : v ∈ windows := hperm.mem_iff.mpr hv.mem
  have hlength : w.code.length = v.code.length :=
    Nat.le_antisymm (hv.length_le (hperm.mem_iff.mp h.mem) h.1) (h.length_le hmem hv.1)
  have hcode : w.code = v.code :=
    (List.prefix_of_prefix_length_le h.1.2 hv.1.2 (Nat.le_of_eq hlength)).eq_of_length hlength
  exact List.inj_on_of_nodup_map hcodes h.mem hmem hcode

theorem windowFor_perm {others : List Window} (hperm : windows.Perm others)
    (hcodes : (windows.map Window.code).Nodup) (phone : String) (default : Window) :
    windowFor phone others default = windowFor phone windows default := by
  obtain ⟨found, hfound, heq⟩ := windowFor_eq phone windows
  obtain ⟨found', hfound', heq'⟩ := windowFor_eq phone others
  rw [heq, heq']
  cases found with
  | none =>
    cases found' with
    | none => rfl
    | some v => exact absurd hfound'.1 (hfound v (hperm.mem_iff.mpr hfound'.mem))
  | some w =>
    cases found' with
    | none => exact absurd hfound.1 (hfound' w (hperm.mem_iff.mp hfound.mem))
    | some v => rw [hfound.eq_of_perm hperm hcodes hfound']

def windowOf (phone : Option String) (windows : List Window) (default : Window) :
    Except Fault Window := do
  .ok (windowFor (← phoneText (phone.elim .null .text)) windows default)

theorem windowOf_eq (phone : Option String) (windows : List Window) (default : Window) :
    windowOf phone windows default = .ok (windowFor (phone.getD "") windows default) := by
  cases phone with
  | none => rfl
  | some s =>
    have htext : phoneText (.text s) = .ok s := by
      by_cases hempty : s = ""
      · rw [hempty]
        rfl
      · have hgiven : (Value.text s).isGiven = true := bne_iff_ne.mpr hempty
        rw [phoneText, Value.orElse, if_pos hgiven]
    exact Fault.bind_eq_ok_iff.mpr ⟨s, htext, rfl⟩

/-- The longest code wins. Every phone number has a window. It is the default exactly if no code
stands in front of the number (or the default is itself the window that wins), else the first one of
those with the longest code. Windows with different codes may therefore come in any order. -/
theorem longest_code_wins (phone : Option String) (windows : List Window) (default : Window) :
    let number := digits (phone.getD "")
    (windowOf phone windows default = .ok default ↔
      (∀ w ∈ windows, ¬ w.Fits number) ∨ FirstLongest number windows default) ∧
    ((∃ w ∈ windows, w.Fits number) →
      ∃ w, windowOf phone windows default = .ok w ∧ FirstLongest number windows w) ∧
    ∀ others, windows.Perm others → (windows.map Window.code).Nodup →
      windowOf phone others default = windowOf phone windows default := by
  intro number
  simp only [windowOf_eq]
  refine ⟨?_, ?_, fun others hperm hcodes => by rw [windowFor_perm hperm hcodes]⟩
  all_goals
    obtain ⟨found, hfound, heq⟩ := windowFor_eq (phone.getD "") windows
    rw [heq]
  · cases found with
    | none => exact ⟨fun _ => .inl hfound, fun _ => rfl⟩
    | some w =>
      rw [Option.getD_some, Except.ok.injEq]
      constructor
      · rintro rfl
        exact .inr hfound
      · rintro (hnone | hdefault)
        · exact absurd hfound.1 (hnone w hfound.mem)
        · rw [hfound.eq_of_firstLongest hdefault]
  · rintro ⟨w, hw, hfits⟩
    cases found with
    | none => exact absurd hfits (hfound w hw)
    | some v => exact ⟨v, rfl, hfound⟩

/-- A window of every day that is told apart by its code. -/
def codedWindow (code : String) : Window := { Window.standard .null with countryCode := code }

/-- A code counts by its digits, so the island's window is not hidden behind that of the country,
which it may follow or precede. -/
theorem longest_code_wins_island :
    let windows := [codedWindow "+1", codedWindow "1-246"]
    let others := [codedWindow "1-246", codedWindow "+1"]
    let phone := some "+1 (246) 555-0100"
    (∃ w, windowOf phone windows (codedWindow "") = .ok w ∧
      FirstLongest (digits "+1 (246) 555-0100") windows w ∧ w.countryCode = "1-246") ∧
    windowOf phone others (codedWindow "") = windowOf phone windows (codedWindow "") := by
  intro windows others phone
  obtain ⟨-, hfound, horder⟩ := longest_code_wins phone windows (codedWindow "")
  have hfits : (codedWindow "1-246").Fits (digits "+1 (246) 555-0100") :=
    ⟨by decide, List.isPrefixOf_iff_prefix.mp (by decide)⟩
  obtain ⟨w, hw, hfirst⟩ := hfound ⟨codedWindow "1-246", by simp [windows], hfits⟩
  refine ⟨⟨w, hw, hfirst, ?_⟩, horder others (List.Perm.swap _ _ _) (by decide)⟩
  rw [windowOf_eq] at hw
  cases hw
  decide

end Funnel.Hours
