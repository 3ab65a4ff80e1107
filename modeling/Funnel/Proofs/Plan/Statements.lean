import Funnel.Proofs.Plan.Form
import Funnel.Proofs.Plan.Fragments
import Funnel.Proofs.Plan.Phrases

/-!
# Queries of formulas are statements

Every query of every formula is a statement of the grammar, whatever a request asks for and however
many people it narrows the figures to. Each is put together from parts that are phrases on their
own, as the plain queries and the charts are.
-/

set_option autoImplicit false

namespace Funnel

open Sql Standard Calendar

namespace Plan

theorem readable_sumDraft {t : Table} (ht : t ∈ Table.all) {expression : String}
    (h : Readable .value expression) (narrowed : Bool) (n : Headcount) :
    Readable .rows (sumDraft t expression narrowed n).query.render := by
  have hcolumns : ∀ s ∈ [expression ++ " AS value"], Readable .column s := by
    simpa using readable_valued h
  exact readable_rows
    (phrased_simple hcolumns (Table.readable_name ht) (readable_texts ht narrowed n))

theorem readable_spendDraft : Readable .rows spendDraft.query.render :=
  readable_sumDraft (t := .adPerformance) (by decide) Registry.figures_readable.spend false _

theorem readable_totalAppointmentsDraft : Readable .rows totalAppointmentsDraft.query.render :=
  readable_sumDraft (t := .appointments) (by decide) readable_countRows false _

theorem readable_appointments : Readable .source "appointments" := readable_source (by decide)

theorem readable_countAppointments : Readable .column ("COUNT(*)" ++ " AS " ++ "appointments") :=
  readable_aliased (.same .value readable_countRows) (.inl (by decide))

theorem readable_repStatsSelect (n : Headcount) :
    Readable .rows (repStatsSelect (texts .appointments none true n)).render := by
  have hkey := Registry.readable_parts.keyed ("sales_rep_user_id", "rep_id") (by decide)
  have hcash := readable_aliased (n := "cash") (.same .value Registry.figures_readable.cash)
    (.inr (by decide))
  have hassigned : Readable .condition ("sales_rep_user_id" ++ " IS NOT NULL") :=
    readable_isNotNull hkey.1
  refine readable_rows ⟨?_, readable_appointments, List.forall_mem_nil _,
    readable_sqlConditions ?_, ?_, List.forall_mem_nil _, List.forall_mem_nil _⟩
  · simp only [List.forall_mem_cons]
    exact ⟨hkey.2, readable_countAppointments, hcash, List.forall_mem_nil _⟩
  · simp only [List.forall_mem_append, List.forall_mem_cons]
    exact ⟨readable_texts (by decide) true n, hassigned, List.forall_mem_nil _⟩
  · simpa using hkey.1

theorem readable_entitiesSelect {keys : List (String × String)} (h : keys ⊆ Registry.personKeys)
    (n : Headcount) :
    Readable .rows (entitiesSelect keys (texts .appointments none true n)).render := by
  have hkeys := readable_keys h
  have hdown : Readable .order ("appointments" ++ " DESC") :=
    readable_descending (readable_column (by decide))
  refine readable_rows ⟨?_, readable_appointments, List.forall_mem_nil _,
    readable_sqlConditions ?_, hkeys.2, List.forall_mem_nil _, ?_⟩
  · simp only [List.forall_mem_append, List.forall_mem_cons]
    exact ⟨hkeys.1, readable_countAppointments, List.forall_mem_nil _⟩
  · simp only [List.forall_mem_append]
    refine ⟨readable_texts (by decide) true n, ?_⟩
    intro s hs
    obtain ⟨p, hp, rfl⟩ := List.mem_map.mp hs
    exact readable_isNotNull (Registry.readable_parts.keyed _ (h hp)).1
  · simpa using hdown

theorem readable_leadTime : Readable .column
    "EXTRACT(EPOCH FROM (date_booked_for - date_booked)) / 86400.0 AS days" := by
  have hbooked : Readable .value "date_booked" := readable_column (by decide)
  have hfor : Readable .value "date_booked_for" := readable_column (by decide)
  have hspan : Readable .value ("(" ++ ("date_booked_for" ++ " - " ++ "date_booked") ++ ")") :=
    .around .enclosed (.between .difference hfor hbooked)
  have hseconds : Readable .value ("EXTRACT(EPOCH FROM " ++
      ("(" ++ ("date_booked_for" ++ " - " ++ "date_booked") ++ ")") ++ ")") :=
    readable_call (by decide) hspan
  have hdays := Derives.between .quotient hseconds (.fixed (.constant (s := "86400.0") (by decide)))
  exact readable_aliased (n := "days") hdays (.inr (by decide))

theorem readable_leadTimesSelect (n : Headcount) :
    Readable .rows (leadTimesSelect (texts .appointments none true n)).render := by
  have hbooked : Readable .value "date_booked" := readable_column (by decide)
  have hset : Readable .condition ("date_booked" ++ " IS NOT NULL") := readable_isNotNull hbooked
  have hlater : Readable .condition ("date_booked_for" ++ " >= " ++ "date_booked") :=
    readable_compared (readable_column (by decide)) hbooked (by decide)
  refine readable_rows (phrased_simple ?_ readable_appointments ?_)
  · simpa using readable_leadTime
  · simp only [List.forall_mem_append, List.forall_mem_cons]
    exact ⟨readable_texts (by decide) true n, hset, hlater, List.forall_mem_nil _⟩

theorem readable_accountDraft : Readable .rows accountDraft.query.render := by
  have hnames : ∀ c ∈ ["business_timezone", "business_hours"], c ∈ Sql.names := by decide
  refine readable_rows (@phrased_simple _ ["id = $account_id"] _
    (fun c hc => readable_output (readable_column (hnames c hc)))
    (readable_source (n := "accounts") (by decide)) ?_)
  simpa using readable_ownAccount

/-- The people of a joined table are conditions of the join, after those that always hold. -/
theorem readable_on {s : String} {fixed texts : List String}
    (hfixed : ∀ q ∈ s :: fixed, Readable .condition q)
    (htexts : ∀ q ∈ texts, Readable .condition q) :
    Readable .conjunction (" AND ".intercalate (s :: fixed ++ texts)) := by
  have hall : ∀ q ∈ s :: fixed ++ texts, Readable .condition q := by
    simp only [List.forall_mem_append]
    exact ⟨hfixed, htexts⟩
  exact readable_conjunction hall

theorem readable_leads (n : Headcount) :
    ∀ s ∈ texts .contacts (some "c") true n, Readable .condition s :=
  readable_of_mem_texts Table.legible_contacts true n

theorem readable_pairsSelect (n : Headcount) :
    Readable .rows (pairsSelect (texts .contacts (some "c") true n)
      (userTexts .dials (some "d") n)).render := by
  have hid : Readable .value ("c" ++ "." ++ "id") := readable_member (by decide) (by decide)
  have hphone : Readable .value ("c" ++ "." ++ "phone") := readable_member (by decide) (by decide)
  have hcreated : Readable .value ("c" ++ "." ++ "ghl_created_at") :=
    readable_member (by decide) (by decide)
  have hcalled : Readable .value ("d" ++ "." ++ "date_called") :=
    readable_member (by decide) (by decide)
  have hfirst : Readable .value ("MIN(" ++ ("d" ++ "." ++ "date_called") ++ ")") :=
    readable_call (by decide) hcalled
  have hcontact := readable_equals
    (readable_member (t := "d") (n := "contact_id") (by decide) (by decide)) hid
  have haccount := readable_equals
    (readable_member (t := "d") (n := "account_id") (by decide) (by decide))
    (readable_member (t := "c") (n := "account_id") (by decide) (by decide))
  have hafter := readable_compared hcalled hcreated (show " >= " ∈ comparisons by decide)
  have hfixed : ∀ s ∈ ["d.contact_id = c.id", "d.account_id = c.account_id",
      "d.date_called >= c.ghl_created_at"], Readable .condition s := by
    simp only [List.forall_mem_cons]
    exact ⟨hcontact, haccount, hafter, List.forall_mem_nil _⟩
  have hon := readable_on hfixed (readable_of_mem_userTexts Table.legible_dials n)
  have hsources : Readable .source ("contacts" ++ " " ++ "c") ∧
      Readable .source ("dials" ++ " " ++ "d") :=
    ⟨readable_renamed (by decide) (by decide), readable_renamed (by decide) (by decide)⟩
  have hinner : some "INNER" ∈ [none, some "LEFT", some "INNER"] := by decide
  have hjoin : ∀ j ∈ [⟨"dials d", pairsOn (userTexts .dials (some "d") n), some "INNER"⟩],
      Readable .join (Join.render j) :=
    List.forall_mem_singleton.mpr (readable_join hinner hsources.2 hon)
  refine readable_rows ⟨?_, hsources.1, hjoin, readable_sqlConditions (readable_leads n), ?_,
    List.forall_mem_nil _, List.forall_mem_nil _⟩
  · simp only [List.forall_mem_cons]
    exact ⟨readable_aliased (n := "contact_id") (.same .value hid) (.inl (by decide)),
      readable_aliased (n := "phone") (.same .value hphone) (.inl (by decide)),
      readable_aliased (n := "lead_created_at") (.same .value hcreated) (.inr (by decide)),
      readable_aliased (n := "first_dial_at") (.same .value hfirst) (.inr (by decide)),
      List.forall_mem_nil _⟩
  · simp only [List.forall_mem_cons]
    exact ⟨hid, hphone, hcreated, List.forall_mem_nil _⟩

theorem readable_conversion : Readable .column
    ("COALESCE(COUNT(DISTINCT a.contact_id)::numeric / NULLIF(COUNT(DISTINCT c.id), 0), 0) " ++
      "AS value") := by
  have hcontact : Readable .value ("COUNT(DISTINCT " ++ ("a" ++ "." ++ "contact_id") ++ ")") :=
    readable_call (by decide) (readable_member (by decide) (by decide))
  have hid : Readable .value ("COUNT(DISTINCT " ++ ("c" ++ "." ++ "id") ++ ")") :=
    readable_call (by decide) (readable_member (by decide) (by decide))
  exact readable_valued (Registry.readable_quotient hcontact hid)

theorem readable_conversionSelect (n : Headcount) :
    Readable .rows (conversionSelect (texts .contacts (some "c") true n)
      (userTexts .appointments (some "a") n)).render := by
  have hcontact := readable_equals
    (readable_member (t := "a") (n := "contact_id") (by decide) (by decide))
    (readable_member (t := "c") (n := "id") (by decide) (by decide))
  have haccount := readable_equals
    (readable_member (t := "a") (n := "account_id") (by decide) (by decide))
    (readable_member (t := "c") (n := "account_id") (by decide) (by decide))
  have hfixed : ∀ s ∈ ["a.contact_id = c.id", "a.account_id = c.account_id"],
      Readable .condition s := by
    simp only [List.forall_mem_cons]
    exact ⟨hcontact, haccount, List.forall_mem_nil _⟩
  have hon := readable_on hfixed (readable_of_mem_userTexts Table.legible_appointments n)
  have hsources : Readable .source ("contacts" ++ " " ++ "c") ∧
      Readable .source ("appointments" ++ " " ++ "a") :=
    ⟨readable_renamed (by decide) (by decide), readable_renamed (by decide) (by decide)⟩
  have hleft : some "LEFT" ∈ [none, some "LEFT", some "INNER"] := by decide
  have hjoin : ∀ j ∈ [⟨"appointments a", conversionOn (userTexts .appointments (some "a") n),
      some "LEFT"⟩], Readable .join (Join.render j) :=
    List.forall_mem_singleton.mpr (readable_join hleft hsources.2 hon)
  exact readable_rows ⟨List.forall_mem_singleton.mpr readable_conversion, hsources.1, hjoin,
    readable_sqlConditions (readable_leads n), List.forall_mem_nil _, List.forall_mem_nil _,
    List.forall_mem_nil _⟩

theorem phrased_assignedSelect {t : Table} (ht : t ∈ Table.all) {columns more : List String}
    (hcolumns : ∀ s ∈ columns, Readable .column s) (hmore : ∀ s ∈ more, Readable .condition s)
    (n : Headcount) : Phrased columns t.name [] (sqlConditions
      (texts t none true n ++ ["sales_rep_user_id IS NOT NULL"] ++ more)) [] [] [] := by
  have hassigned : Readable .condition ("sales_rep_user_id" ++ " IS NOT NULL") :=
    readable_isNotNull (readable_column (by decide))
  refine phrased_simple hcolumns (Table.readable_name ht) ?_
  simp only [List.forall_mem_append, List.forall_mem_cons]
  exact ⟨⟨readable_texts ht true n, hassigned, List.forall_mem_nil _⟩, hmore⟩

theorem readable_recordsDraft {columns more conditions : List String} {value : String}
    (hcolumns : ∀ s ∈ columns, Readable .column s) (hmore : ∀ s ∈ more, Readable .condition s)
    (hvalue : Readable .value value) (hconditions : ∀ s ∈ conditions, Readable .condition s)
    (n : Headcount) :
    Readable .statement (recordsDraft columns more value conditions n).query.render := by
  have hboth : ∀ s ∈ [(assignedSelect .appointments columns more
        (texts .appointments none true n)).render, (assignedSelect .discoveries columns more
        (texts .discoveries none true n)).render], Readable .held s := by
    simp only [List.forall_mem_cons]
    exact ⟨readable_held (phrased_assignedSelect (by decide) hcolumns hmore n),
      readable_held (phrased_assignedSelect (by decide) hcolumns hmore n), List.forall_mem_nil _⟩
  refine readable_statement ⟨?_, readable_source (by decide), List.forall_mem_nil _,
    readable_sqlConditions hconditions, List.forall_mem_nil _, List.forall_mem_nil _,
    List.forall_mem_nil _⟩ ?_
  · simpa using readable_valued hvalue
  · exact List.forall_mem_singleton.mpr (readable_cte (by decide) (readable_union hboth))

theorem readable_share {s : String} (h : Readable .condition s) : Readable .value
    ("COALESCE(COUNT(*) FILTER (WHERE " ++ s ++ ")::numeric / NULLIF(COUNT(*), 0), 0)") := by
  have hshare := Registry.readable_quotient (Registry.readable_countFilter h.conjunction)
    readable_countRows
  have htexts : "COALESCE(COUNT(*) FILTER (WHERE " = "COALESCE(" ++ "COUNT(*) FILTER (WHERE " ∧
      ")::numeric / NULLIF(COUNT(*), 0), 0)" = ")" ++ ("::numeric" ++ (" / " ++ ("NULLIF(" ++
        ("COUNT(*)" ++ (", 0)" ++ ", 0)"))))) := by decide
  rw [htexts.1, htexts.2]
  simpa only [String.append_assoc] using hshare

theorem readable_now : Readable .value "now()" := .fixed (.constant (by decide))

theorem readable_completion (n : Headcount) : Readable .statement (recordsDraft ["data_filled"]
    ["date_booked_for < now()"]
    "COALESCE(COUNT(*) FILTER (WHERE data_filled IS TRUE)::numeric / NULLIF(COUNT(*), 0), 0)"
    [] n).query.render := by
  have hfilled : Readable .value "data_filled" := readable_column (by decide)
  have hpast : Readable .condition ("date_booked_for" ++ " < " ++ "now()") :=
    readable_compared (readable_column (by decide)) readable_now (by decide)
  have htrue : Readable .condition ("data_filled" ++ " IS TRUE") := readable_isTrue hfilled
  refine readable_recordsDraft ?_ ?_ (readable_share htrue) (List.forall_mem_nil _) n
  · simpa using readable_output hfilled
  · exact List.forall_mem_singleton.mpr hpast

theorem readable_overdue : Readable .condition overdue := by
  have hbooked : Readable .value "date_booked_for" := readable_column (by decide)
  have hdayAgo : Readable .operand ("now()" ++ " - " ++ "interval '24 hours'") :=
    .between .earlier readable_now (.fixed (.duration (by decide)))
  have hlate : Readable .condition ("date_booked_for" ++ " < " ++
      ("now()" ++ " - " ++ "interval '24 hours'")) :=
    .between (.comparison (by decide)) (.same .value hbooked) hdayAgo
  exact hlate

theorem readable_overdueDraft (formula : Formula) (n : Headcount) :
    Readable .statement (overdueDraft formula n).query.render := by
  have hnames : ∀ c ∈ ["date_booked_for", "data_filled"], c ∈ Sql.names := by decide
  have hvalue : Readable .value (overdueValue formula) := by
    unfold overdueValue
    split
    · exact readable_share readable_overdue
    · exact Registry.readable_countFilter readable_overdue.conjunction
  have hunfilled : Readable .condition ("data_filled" ++ " IS NOT TRUE") :=
    readable_tested (readable_column (by decide)) (by decide)
  exact readable_recordsDraft (fun c hc => readable_output (readable_column (hnames c hc)))
    (List.forall_mem_nil _) hvalue (List.forall_mem_singleton.mpr hunfilled) n

theorem readable_dials : Readable .source ("dials" ++ " " ++ "d") :=
  readable_renamed (by decide) (by decide)

theorem readable_dialsSelect (n : Headcount) :
    Readable .rows (dialsSelect (texts .dials (some "d") true n)).render := by
  refine readable_rows (phrased_simple ?_ readable_dials
    (readable_of_mem_texts Table.legible_dials true n))
  simpa using readable_valued readable_countRows

theorem readable_bookedSelect (n : Headcount) :
    Readable .rows (bookedSelect (texts .dials (some "d") true n)).render := by
  have hbooked : Readable .value ("d" ++ "." ++ "booked_appointment_id") :=
    readable_member (by decide) (by decide)
  refine readable_rows (phrased_simple ?_ readable_dials ?_)
  · exact List.forall_mem_singleton.mpr (readable_output hbooked)
  · simp only [List.forall_mem_append, List.forall_mem_cons]
    exact ⟨readable_of_mem_texts Table.legible_dials true n, readable_isNotNull hbooked,
      List.forall_mem_nil _⟩

theorem readable_cashSelect (n : Headcount) :
    Readable .rows (cashSelect (texts .dials (some "d") true n)).render := by
  have haccount := readable_equality
    (readable_member (t := "a") (n := "account_id") (by decide) (by decide)) isPlaceholder_account
  have hid : Readable .value ("a" ++ "." ++ "id") := readable_member (by decide) (by decide)
  have hcash : Readable .value ("a" ++ "." ++ "cash_collected") :=
    readable_member (by decide) (by decide)
  have hsource : Readable .source ("appointments" ++ " " ++ "a") :=
    readable_renamed (by decide) (by decide)
  have hwithin := readable_within hid (readable_bookedSelect n)
  refine readable_rows ⟨?_, hsource, List.forall_mem_nil _, ?_,
    List.forall_mem_nil _, List.forall_mem_nil _, List.forall_mem_nil _⟩
  · exact List.forall_mem_singleton.mpr (readable_valued (Registry.readable_sum hcash))
  · simp only [List.forall_mem_cons]
    exact ⟨haccount, hwithin, List.forall_mem_nil _⟩

theorem readable_drafts (formula : Formula) (b : Breakdown) (n : Headcount) :
    ∀ p ∈ drafts formula b n, Readable .statement p.2.query.render := by
  have hspend : Readable .statement _ := .same .rows readable_spendDraft
  have htotal : Readable .statement _ := .same .rows readable_totalAppointmentsDraft
  cases formula with
  | roi =>
    have hcash := readable_sumDraft (t := .appointments) (by decide)
      Registry.figures_readable.cash true n
    simpa [drafts] using ⟨.same .rows hcash, hspend⟩
  | repRoi => simpa [drafts] using ⟨.same .rows (readable_repStatsSelect n), htotal, hspend⟩
  | costPerBookedCall =>
    have hkeys := Table.keys_subset (t := .appointments) (by decide) b
    have hentities : Readable .statement _ := .same .rows (readable_entitiesSelect hkeys n)
    simp only [drafts, List.forall_mem_append, List.forall_mem_cons]
    refine ⟨⟨htotal, hspend, List.forall_mem_nil _⟩, ?_⟩
    split
    · exact List.forall_mem_nil _
    · simpa using hentities
  | speedToLead =>
    simpa [drafts] using
      ⟨.same .rows (readable_pairsSelect n), .same .rows readable_accountDraft⟩
  | leadToAppointment => simpa [drafts] using .same .rows (readable_conversionSelect n)
  | dataCompletionRate => simpa [drafts] using readable_completion n
  | overdueItems => simpa [drafts] using readable_overdueDraft .overdueItems n
  | overduePercentage => simpa [drafts] using readable_overdueDraft .overduePercentage n
  | cashPerDial =>
    simpa [drafts] using
      ⟨.same .rows (readable_dialsSelect n), .same .rows (readable_cashSelect n)⟩
  | bookingLeadTime => simpa [drafts] using .same .rows (readable_leadTimesSelect n)
  | workTimeframe => exact List.forall_mem_nil _

end Plan

end Funnel
