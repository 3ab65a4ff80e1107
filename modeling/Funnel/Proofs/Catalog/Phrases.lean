import Funnel.Proofs.Catalog.Texts
import Funnel.Proofs.Query.Phrases

/-!
# Metrics as phrases

Every text that a metric puts into a query is of the grammar: its columns are columns, its conditions
are conditions, and its value is one that a name or a chart can be put around. What is shown of base
metrics holds of their families.
-/

set_option autoImplicit false

namespace Funnel

open Sql

namespace Registry

theorem readable_orZero {s : String} (h : Readable .value s) :
    Readable .value ("COALESCE(" ++ s ++ ", 0)") :=
  readable_call (by decide) h

theorem readable_sum {c : String} (h : Readable .value c) :
    Readable .value ("COALESCE(" ++ ("SUM(" ++ c ++ ")") ++ ", 0)") :=
  readable_orZero (readable_call (by decide) h)

theorem readable_avg {c : String} (h : Readable .value c) :
    Readable .value ("COALESCE(" ++ ("AVG(" ++ c ++ ")") ++ ", 0)") :=
  readable_orZero (readable_call (by decide) h)

theorem readable_text {s : String} (h : s ∈ constants) : Readable .value s :=
  .fixed (.constant h)

theorem readable_shown : Readable .condition "LOWER(call_outcome) = 'show'" := by
  have houtcome : Readable .value ("LOWER(" ++ "call_outcome" ++ ")") :=
    readable_call (by decide) (readable_column (by decide))
  exact readable_equals houtcome (readable_text (s := "'show'") (by decide))

theorem readable_won : Readable .condition "show_outcome = 'won'" := by
  have houtcome : Readable .value "show_outcome" := readable_column (by decide)
  exact readable_equals houtcome (readable_text (s := "'won'") (by decide))

theorem readable_positive {s : String} (h : Readable .value s) :
    Readable .condition (s ++ " > 0") := by
  have hzero := readable_compared h (readable_text (s := "0") (by decide))
    (show " > " ∈ comparisons by decide)
  rwa [String.append_assoc] at hzero

theorem readable_countFilter {s : String} (h : Readable .conjunction s) :
    Readable .value ("COUNT(*) FILTER (WHERE " ++ s ++ ")") :=
  .around .countFilter h

theorem readable_flag {c : String} (h : Readable .value c) :
    Readable .value ("COUNT(*) FILTER (WHERE " ++ (c ++ " IS TRUE") ++ ")") :=
  readable_countFilter (readable_isTrue h).conjunction

theorem readable_quotient {n d : String} (hn : Readable .value n) (hd : Readable .value d) :
    Readable .value ("COALESCE(" ++ (n ++ "::numeric" ++ " / " ++ ("NULLIF(" ++ d ++ ", 0)")) ++
      ", 0)") := by
  have hover : Readable .value ("NULLIF(" ++ d ++ ", 0)") := readable_call (by decide) hd
  have hquotient : Readable .operand (n ++ "::numeric" ++ " / " ++ ("NULLIF(" ++ d ++ ", 0)")) :=
    .between .quotient (.followed .numeric hn) hover
  exact .around (.call (by decide)) hquotient

theorem readable_ratio {n d : String} (hn : Readable .value n) (hd : Readable .value d) :
    Readable .value (ratio n d) := by
  have hnumerator : Readable .value ("(" ++ n ++ ")") := .around .enclosed (.same .value hn)
  have htexts : "COALESCE((" = "COALESCE(" ++ "(" ∧
      ")::numeric / NULLIF(" = ")" ++ "::numeric" ++ " / " ++ "NULLIF(" ∧
      ", 0), 0)" = ", 0)" ++ ", 0)" := by decide
  have hratio := readable_quotient hnumerator hd
  rw [ratio, htexts.1, htexts.2.1, htexts.2.2]
  simpa only [String.append_assoc] using hratio

theorem figures_readable : Figures (Readable .value) where
  rows := readable_countRows
  shows := readable_countFilter readable_shown.conjunction
  wins := readable_countFilter readable_won.conjunction
  cash := readable_sum (c := "cash_collected") (readable_column (by decide))
  revenue := readable_sum (c := "total_sales_value") (readable_column (by decide))
  answered := readable_flag (c := "answered") (readable_column (by decide))
  meaningful := readable_flag (c := "meaningful_conversation") (readable_column (by decide))
  booked := readable_flag (c := "booked") (readable_column (by decide))
  paid := by
    have hpaid : Readable .condition ("pif" ++ " IS TRUE") :=
      readable_isTrue (readable_column (by decide))
    have hboth : ∀ r ∈ ["show_outcome = 'won'", "pif" ++ " IS TRUE"], Readable .condition r := by
      simpa using ⟨readable_won, hpaid⟩
    exact readable_countFilter (readable_conjunction hboth)
  quality := readable_avg (c := "lead_quality") (readable_column (by decide))
  duration := readable_avg (c := "duration") (readable_column (by decide))
  leads := by
    have hid : Readable .value "id" := readable_column (by decide)
    have hdistinct : Readable .value ("COUNT(DISTINCT " ++ "id" ++ ")") :=
      readable_call (by decide) hid
    exact hdistinct
  spend := readable_sum (c := "spend") (readable_column (by decide))
  ratio := fun _ _ => readable_ratio

theorem Figures.and {P Q : String → Prop} (hP : Figures P) (hQ : Figures Q) :
    Figures fun s => P s ∧ Q s where
  rows := ⟨hP.rows, hQ.rows⟩
  shows := ⟨hP.shows, hQ.shows⟩
  wins := ⟨hP.wins, hQ.wins⟩
  cash := ⟨hP.cash, hQ.cash⟩
  revenue := ⟨hP.revenue, hQ.revenue⟩
  answered := ⟨hP.answered, hQ.answered⟩
  meaningful := ⟨hP.meaningful, hQ.meaningful⟩
  booked := ⟨hP.booked, hQ.booked⟩
  paid := ⟨hP.paid, hQ.paid⟩
  quality := ⟨hP.quality, hQ.quality⟩
  duration := ⟨hP.duration, hQ.duration⟩
  leads := ⟨hP.leads, hQ.leads⟩
  spend := ⟨hP.spend, hQ.spend⟩
  ratio := fun n d hn hd => ⟨hP.ratio n d hn.1 hd.1, hQ.ratio n d hn.2 hd.2⟩

theorem readable_ownConditions : ∀ s ∈ ownConditions, Readable .condition s := by
  simp only [ownConditions, List.forall_mem_cons]
  refine ⟨?_, ?_, readable_shown, ?_, ?_, ?_, List.forall_mem_nil _⟩
  · exact @readable_isNotNull "setter_user_id" (readable_column (by decide))
  · exact @readable_isNotNull "lead_quality" (readable_column (by decide))
  · exact @readable_isTrue "meaningful_conversation" (readable_column (by decide))
  · exact @readable_isTrue "answered" (readable_column (by decide))
  · exact @readable_positive "duration" (readable_column (by decide))

theorem readable_parts :
    Parts (Readable .column) (Readable .value) (Readable .condition) (Readable .order) where
  keyed := by
    intro p hp
    have hnames : ∀ p ∈ personKeys, p.1 ∈ Sql.names ∧ p.2 ∈ labels := by decide
    have hcolumn := readable_column (hnames p hp).1
    exact ⟨hcolumn, readable_aliased (.same .value hcolumn) (.inr (hnames p hp).2)⟩
  valued := fun _ => readable_valued
  rows := readable_countRows
  nonempty := readable_positive readable_countRows
  byValue := @readable_descending "value" (readable_column (by decide))
  none := readable_column (by decide)

end Registry

abbrev Metric.Legible (m : Metric) : Prop :=
  m.Texts (Readable .column) (Readable .value) (Readable .condition) (Readable .order)

theorem Registry.legible_of_find? {name : String} {m : Metric} (h : find? name = some m) :
    m.Legible :=
  texts_of_find? readable_parts (figures_figurable.and figures_readable)
    (fun _ hs => ⟨hs.1.toTight, hs.2⟩) readable_ownConditions h

/-- Rows that have an owner are told from the owner's column. -/
theorem readable_ownerConditions (a : Option Attribution) :
    ∀ s ∈ ownerConditions a none, Readable .condition s := by
  intro s hs
  cases a with
  | none => cases hs
  | some a =>
    rw [List.mem_singleton.mp hs]
    have hcolumn : Readable .value a.ownerColumn := by
      cases a with
      | assigned => exact readable_column (by decide)
      | booked => exact readable_column (by decide)
      | dialer => exact readable_column (by decide)
    exact readable_isNotNull hcolumn

end Funnel
