import Funnel.Catalog.Registry
import Funnel.Proofs.Fault
import Funnel.Proofs.Named
import Mathlib.Data.List.Flatten

/-!
# Families of metrics

No suffix of a context ends in another one, so a key tells of at most one context and gives back
what stands before it. Members of two families therefore meet under one key only where a base key is
another base key with a suffix. Main statements: base keys without suffixes expand into families
that lose nothing and pass the audit, and a registry that is built keeps all members of all families
exactly if no base key is another one with a suffix.
-/

set_option autoImplicit false

namespace Funnel

namespace Attribution

theorem suffix_unique {a b : Attribution} {cs : List Char} (ha : a.suffix.toList <:+ cs)
    (hb : b.suffix.toList <:+ cs) : a = b := by
  have hsuffixes : ∀ a ∈ all, ∀ b ∈ all, a.suffix.toList <:+ b.suffix.toList → a = b := by
    decide
  have hall : ∀ a : Attribution, a ∈ all := by
    intro a
    cases a <;> decide
  rcases List.suffix_or_suffix_of_suffix ha hb with h | h
  · exact hsuffixes a (hall a) b (hall b) h
  · exact (hsuffixes b (hall b) a (hall a) h).symm

theorem suffix_of_ofKey? {key : String} {a : Attribution} (h : ofKey? key = some a) :
    a.suffix.toList <:+ key.toList := by
  unfold ofKey? at h
  have hfound := List.find?_some h
  exact List.isSuffixOf_iff_suffix.mp hfound

theorem ofKey?_eq_some_iff {key : String} {a : Attribution} :
    ofKey? key = some a ↔ a.suffix.toList <:+ key.toList := by
  constructor
  · exact suffix_of_ofKey?
  · intro h
    have hmem : a ∈ all := by cases a <;> decide
    have hsome : (ofKey? key).isSome = true :=
      List.find?_isSome.mpr ⟨a, hmem, List.isSuffixOf_iff_suffix.mpr h⟩
    obtain ⟨b, hb⟩ := Option.isSome_iff_exists.mp hsome
    rw [hb, suffix_unique (suffix_of_ofKey? hb) h]

theorem ofKey?_eq_none_iff {key : String} :
    ofKey? key = none ↔ ∀ a : Attribution, ¬ a.suffix.toList <:+ key.toList := by
  rw [Option.eq_none_iff_forall_ne_some]
  exact forall_congr' fun a => not_congr ofKey?_eq_some_iff

theorem ofKey?_append_suffix (key : String) (a : Attribution) :
    ofKey? (key ++ a.suffix) = some a := by
  rw [ofKey?_eq_some_iff, String.toList_append]
  exact List.suffix_append _ _

/-- A suffix comes off as it was put on. -/
theorem baseKey_append_suffix (key : String) (a : Attribution) :
    baseKey (key ++ a.suffix) = key := by
  have hlength : key.toList.length = (key ++ a.suffix).length - a.suffix.length := by
    rw [String.length_toList, String.length_append, Nat.add_sub_cancel]
  rw [baseKey, ofKey?_append_suffix]
  dsimp only
  rw [String.toList_append, List.take_left' hlength, String.ofList_toList]

theorem baseKey_of_ofKey?_eq_none {key : String} (h : ofKey? key = none) : baseKey key = key := by
  rw [baseKey, h]

theorem append_suffix_inj {key key' : String} {a b : Attribution}
    (h : key ++ a.suffix = key' ++ b.suffix) : key = key' ∧ a = b := by
  have ha := ofKey?_append_suffix key a
  have hkey := baseKey_append_suffix key a
  rw [h, ofKey?_append_suffix, Option.some.injEq] at ha
  rw [h, baseKey_append_suffix] at hkey
  exact ⟨hkey.symm, ha.symm⟩

end Attribution

namespace Metric

/-- The members of the families of some metrics, one family after the other. -/
def members (base : Named Metric) : Named Metric := base.flatMap fun p => p.2.family p.1

theorem mem_members {base : Named Metric} {q : String × Metric} :
    q ∈ members base ↔ ∃ p ∈ base, q ∈ p.2.family p.1 :=
  List.mem_flatMap

theorem families_eq_putAll (base : Named Metric) :
    families base = Named.putAll [] (members base) := by
  unfold families members
  generalize ([] : Named Metric) = all
  induction base generalizing all with
  | nil => rfl
  | cons p base ih =>
    rw [List.foldl_cons, ih, List.flatMap_cons]
    exact List.foldl_append.symm

theorem mem_family {m : Metric} {key : String} {q : String × Metric} : q ∈ m.family key ↔
    (∃ a ∈ Attribution.applicable m.table, q = (key ++ a.suffix, m.variant key a)) ∨
      q = (key, m.unattributed key) := by
  simp only [family, List.mem_append, List.mem_map, List.mem_singleton, eq_comm]

theorem names_family (m : Metric) (key : String) : (m.family key).names =
    (Attribution.applicable m.table).map (key ++ ·.suffix) ++ [key] := by
  simp [family, Named.names]

theorem names_members (base : Named Metric) : (members base).names =
    base.flatMap fun p => (Attribution.applicable p.2.table).map (p.1 ++ ·.suffix) ++ [p.1] := by
  simp only [members, Named.names, List.map_flatMap]
  exact congrArg (List.flatMap · base) (funext fun p => names_family p.2 p.1)

theorem mem_names_family {m : Metric} {key name : String} : name ∈ (m.family key).names ↔
    (∃ a ∈ Attribution.applicable m.table, name = key ++ a.suffix) ∨ name = key := by
  simp only [names_family, List.mem_append, List.mem_map, List.mem_singleton, eq_comm]

theorem ne_append_suffix (key : String) (a : Attribution) : key ≠ key ++ a.suffix := by
  intro h
  have hlength := congrArg String.length h
  have hpos : 0 < a.suffix.length := by cases a <;> decide
  rw [String.length_append] at hlength
  omega

theorem nodup_names_family (m : Metric) (key : String) : (m.family key).names.Nodup := by
  have hcontexts : (Attribution.applicable m.table).Nodup := by
    unfold Attribution.applicable
    split
    · decide
    · split <;> decide
  rw [names_family, List.nodup_append]
  refine ⟨?_, List.nodup_singleton key, ?_⟩
  · exact hcontexts.map fun a b h => (Attribution.append_suffix_inj h).2
  · intro name hname other hother
    obtain ⟨a, -, rfl⟩ := List.mem_map.mp hname
    rw [List.mem_singleton.mp hother]
    exact (ne_append_suffix key a).symm

/-- No base key is another one with the suffix of one of its contexts. -/
def Apart (base : Named Metric) : Prop :=
  ∀ p ∈ base, ∀ a ∈ Attribution.applicable p.2.table, p.1 ++ a.suffix ∉ base.names

theorem apart_of_plain {base : Named Metric}
    (hplain : ∀ key ∈ base.names, Attribution.ofKey? key = none) : Apart base := by
  intro p _ a _ hmem
  have hnone := hplain _ hmem
  rw [Attribution.ofKey?_append_suffix] at hnone
  cases hnone

/-- Members of two families do not meet if the base keys are apart. -/
theorem nodup_names_members {base : Named Metric} (hnodup : base.names.Nodup)
    (hapart : Apart base) : (members base).names.Nodup := by
  have hfamilies : (members base).names = base.flatMap fun p => (p.2.family p.1).names := by
    simp only [members, Named.names, List.map_flatMap]
  rw [hfamilies, List.nodup_flatMap]
  refine ⟨fun p _ => nodup_names_family p.2 p.1, ?_⟩
  have hkeys : base.Pairwise fun p p' => p.1 ≠ p'.1 := List.pairwise_map.mp hnodup
  refine hkeys.imp_of_mem ?_
  intro p p' hp hp' hne name hname hname'
  rcases mem_names_family.mp hname with ⟨a, ha, rfl⟩ | rfl
  · rcases mem_names_family.mp hname' with ⟨b, -, h⟩ | h
    · exact hne (Attribution.append_suffix_inj h).1
    · exact hapart p hp a ha (h ▸ List.mem_map_of_mem hp')
  · rcases mem_names_family.mp hname' with ⟨b, hb, h⟩ | h
    · exact hapart p' hp' b hb (h ▸ List.mem_map_of_mem hp)
    · exact hne h

theorem families_eq_members {base : Named Metric} (hnodup : base.names.Nodup)
    (hapart : Apart base) : families base = members base := by
  rw [families_eq_putAll, Named.putAll_eq_append (nodup_names_members hnodup hapart),
    List.nil_append]

/-- A member is its base metric but for what tells of its context. -/
theorem eq_of_mem_family {m : Metric} {key : String} {q : String × Metric}
    (h : q ∈ m.family key) : q.2 =
      { m with
        key := q.1
        name := q.2.name
        description := q.2.description
        attribution := q.2.attribution
        options := q.2.options } := by
  rcases mem_family.mp h with ⟨a, -, rfl⟩ | rfl
  · rfl
  · rfl

theorem attribution_of_mem_family {m : Metric} {key : String} {q : String × Metric}
    (h : q ∈ m.family key) {a : Attribution} (ha : q.2.attribution = some a) :
    a ∈ Attribution.applicable m.table := by
  rcases mem_family.mp h with ⟨b, hb, rfl⟩ | rfl
  · exact Option.some.inj ha ▸ hb
  · cases ha

theorem key_of_mem_family {m : Metric} {key : String} (hkey : Attribution.ofKey? key = none)
    {q : String × Metric} (h : q ∈ m.family key) :
    Attribution.baseKey q.1 = key ∧ Attribution.ofKey? q.1 = q.2.attribution := by
  rcases mem_family.mp h with ⟨a, -, rfl⟩ | rfl
  · exact ⟨Attribution.baseKey_append_suffix key a, Attribution.ofKey?_append_suffix key a⟩
  · exact ⟨Attribution.baseKey_of_ofKey?_eq_none hkey, hkey⟩

end Metric

namespace Catalog

theorem problems_eq_nil_iff {registry : Named Metric} :
    problems registry = [] ↔ ∀ p ∈ registry, entryProblems registry p.1 p.2 = [] :=
  List.flatMap_eq_nil_iff

theorem attributionProblems_eq_nil {registry : Named Metric} {key : String} {m : Metric}
    (h : ∀ a, m.attribution = some a →
      a ∈ Attribution.applicable m.table ∧ Attribution.baseKey key ∈ registry.names) :
    attributionProblems registry key m = [] := by
  unfold attributionProblems
  cases ha : m.attribution with
  | none => rfl
  | some a =>
    obtain ⟨happlicable, hbase⟩ := h a ha
    simp only [happlicable, hbase, if_true, List.append_nil]

/-- What the audit says of a metric and its table does not hang on the key. -/
theorem tableProblems_eq_nil_of_eq {key key' : String} {m m' : Metric} {t : Table}
    (hbreakdown : m'.breakdown = m.breakdown) (hformula : m'.formula = m.formula)
    (hcolumns : m'.columns = m.columns) (h : tableProblems key m t = []) :
    tableProblems key' m' t = [] := by
  unfold tableProblems Metric.isSpecial at h ⊢
  rw [hbreakdown, hformula, hcolumns]
  simp only [List.append_eq_nil_iff, ite_eq_left_iff, ite_eq_right_iff] at h ⊢
  refine ⟨?_, ?_⟩
  · intro hsupports
    exact absurd (h.1 hsupports) (List.cons_ne_nil _ _)
  · intro hplain
    obtain ⟨hderived, hcount⟩ := h.2 hplain
    refine ⟨?_, ?_⟩
    · intro hd
      exact absurd (hderived hd) (List.cons_ne_nil _ _)
    · intro hc
      exact absurd (hcount hc) (List.cons_ne_nil _ _)

theorem entryProblems_family {base registry : Named Metric} {p q : String × Metric}
    (hp : entryProblems base p.1 p.2 = []) (hkey : Attribution.ofKey? p.1 = none)
    (hmem : p.1 ∈ registry.names) (hq : q ∈ p.2.family p.1) :
    entryProblems registry q.1 q.2 = [] := by
  have heq := Metric.eq_of_mem_family hq
  have htable : q.2.table = p.2.table := by rw [heq]
  unfold entryProblems at hp ⊢
  rw [List.append_eq_nil_iff] at hp ⊢
  refine ⟨?_, ?_⟩
  · rw [heq]
    exact if_pos rfl
  · rw [htable]
    cases hfind : Table.find? p.2.table with
    | none =>
      rw [hfind] at hp
      exact absurd hp.2 (List.cons_ne_nil _ _)
    | some t =>
      rw [hfind] at hp
      rw [List.append_eq_nil_iff]
      refine ⟨attributionProblems_eq_nil ?_, ?_⟩
      · intro a ha
        rw [htable, (Metric.key_of_mem_family hkey hq).1]
        exact ⟨Metric.attribution_of_mem_family hq ha, hmem⟩
      · have htables := (List.append_eq_nil_iff.mp hp.2).2
        exact tableProblems_eq_nil_of_eq (by rw [heq]) (by rw [heq]) (by rw [heq]) htables

theorem audit_families {base : Named Metric} (hnodup : base.names.Nodup)
    (hplain : ∀ key ∈ base.names, Attribution.ofKey? key = none) (h : audit base = .ok ()) :
    audit (Metric.families base) = .ok () := by
  rw [audit_eq_ok_iff, problems_eq_nil_iff] at h ⊢
  rw [Metric.families_eq_members hnodup (Metric.apart_of_plain hplain)]
  intro q hq
  obtain ⟨p, hp, hq⟩ := Metric.mem_members.mp hq
  refine entryProblems_family (h p hp) (hplain p.1 (List.mem_map_of_mem hp)) ?_ hq
  rw [Metric.names_members, List.mem_flatMap]
  exact ⟨p, hp, List.mem_append_right _ (List.mem_singleton_self p.1)⟩

end Catalog

/-- Base metrics whose keys end in no suffix expand into one member for each context of each of
them and one without a context, all under different keys. A key gives back the base key and the
context of its member, the member is the base metric in all other respects, and what the audit
accepted it accepts as families. -/
theorem Metric.families_faithful {base : Named Metric} (hnodup : base.names.Nodup)
    (hplain : ∀ key ∈ base.names, ∀ a : Attribution, ¬ a.suffix.toList <:+ key.toList) :
    (families base).names = base.flatMap (fun p =>
      (Attribution.applicable p.2.table).map (p.1 ++ ·.suffix) ++ [p.1]) ∧
    (families base).names.Nodup ∧
    (∀ q ∈ families base, ∃ p ∈ base, Attribution.baseKey q.1 = p.1 ∧
      Attribution.ofKey? q.1 = q.2.attribution ∧
      q.2 = { p.2 with
        key := q.1
        name := q.2.name
        description := q.2.description
        attribution := q.2.attribution
        options := q.2.options }) ∧
    (Catalog.audit base = .ok () → Catalog.audit (families base) = .ok ()) := by
  have hnone : ∀ key ∈ base.names, Attribution.ofKey? key = none :=
    fun key hkey => Attribution.ofKey?_eq_none_iff.mpr (hplain key hkey)
  have hapart := apart_of_plain hnone
  rw [families_eq_members hnodup hapart]
  refine ⟨names_members base, nodup_names_members hnodup hapart, ?_, ?_⟩
  · intro q hq
    obtain ⟨p, hp, hq⟩ := mem_members.mp hq
    obtain ⟨hbase, hcontext⟩ := key_of_mem_family (hnone p.1 (List.mem_map_of_mem hp)) hq
    exact ⟨p, hp, hbase, hcontext, eq_of_mem_family hq⟩
  · intro h
    rw [← families_eq_members hnodup hapart]
    exact Catalog.audit_families hnodup hnone h

/-- The discovery metrics of the registry. -/
theorem Metric.families_faithful_discoveries :
    (Registry.keyed Registry.discoveryMetrics).names.Nodup ∧
    (∀ key ∈ (Registry.keyed Registry.discoveryMetrics).names, ∀ a : Attribution,
      ¬ a.suffix.toList <:+ key.toList) ∧
    (families (Registry.keyed Registry.discoveryMetrics)).names.Nodup ∧
    Catalog.audit (families (Registry.keyed Registry.discoveryMetrics)) = .ok () := by
  have hnodup : (Registry.keyed Registry.discoveryMetrics).names.Nodup := by decide
  have hnone : ∀ key ∈ (Registry.keyed Registry.discoveryMetrics).names,
      Attribution.ofKey? key = none := by decide
  have hplain : ∀ key ∈ (Registry.keyed Registry.discoveryMetrics).names, ∀ a : Attribution,
      ¬ a.suffix.toList <:+ key.toList :=
    fun key hkey => Attribution.ofKey?_eq_none_iff.mp (hnone key hkey)
  have haudit : Catalog.audit (Registry.keyed Registry.discoveryMetrics) = .ok () :=
    Catalog.audit_eq_ok_iff.mpr (by decide)
  obtain ⟨-, hnames, -, haccepted⟩ := Metric.families_faithful hnodup hplain
  exact ⟨hnodup, hplain, hnames, haccepted haudit⟩

namespace Metric

theorem members_append (a b : Named Metric) : members (a ++ b) = members a ++ members b :=
  List.flatMap_append

theorem find?_families_of_last {before after : Named Metric} {p q : String × Metric}
    (hq : q ∈ p.2.family p.1) (hafter : q.1 ∉ (members after).names) :
    Named.find? (families (before ++ p :: after)) q.1 = some q.2 := by
  have hsplit : members (before ++ p :: after) =
      members before ++ p.2.family p.1 ++ members after := by
    rw [members_append, List.append_assoc]
    rfl
  rw [families_eq_putAll, hsplit, Named.putAll_append, Named.find?_putAll_of_notMem hafter,
    Named.putAll_append]
  exact Named.find?_putAll_of_mem (nodup_names_family p.2 p.1) hq

/-- A base key with a suffix comes up in its own family and in that of the metric under it. -/
theorem notMem_names_members {base : Named Metric} {key : String} {a : Attribution}
    (hkey : key ∉ base.names) (hsuffixed : key ++ a.suffix ∉ base.names) :
    key ++ a.suffix ∉ (members base).names := by
  intro hmem
  obtain ⟨q, hq, hname⟩ := List.mem_map.mp hmem
  obtain ⟨p, hp, hq⟩ := mem_members.mp hq
  have hnames : key ++ a.suffix ∈ (p.2.family p.1).names :=
    List.mem_map.mpr ⟨q, hq, hname⟩
  rcases mem_names_family.mp hnames with ⟨b, -, h⟩ | h
  · exact hkey ((Attribution.append_suffix_inj h).1 ▸ List.mem_map_of_mem hp)
  · exact hsuffixed (h ▸ List.mem_map_of_mem hp)

end Metric

namespace Catalog

/-- What a build answers, and when it answers at all. -/
theorem build_eq_ok_iff {base special registry : Named Metric} :
    build base special = .ok registry ↔ registry = Named.putAll (Metric.families base) special ∧
      (∀ key ∈ (Metric.families base).names, key ∉ special.names) ∧
      audit registry = .ok () := by
  have hoverlap : ((Metric.families base).names.filter fun k => k ∈ special.names) = [] ↔
      ∀ key ∈ (Metric.families base).names, key ∉ special.names := by
    simp only [List.filter_eq_nil_iff, decide_eq_true_eq]
  unfold build
  dsimp only
  split
  next h =>
    constructor
    · intro hbuilt
      cases hbuilt
    · rintro ⟨-, hapart, -⟩
      exact absurd (hoverlap.mpr hapart) h
  next h =>
    rw [Fault.bind_eq_ok_iff]
    constructor
    · rintro ⟨_, haudit, hregistry⟩
      cases hregistry
      exact ⟨rfl, hoverlap.mp (Decidable.not_not.mp h), haudit⟩
    · rintro ⟨rfl, -, haudit⟩
      exact ⟨(), haudit, rfl⟩

theorem find?_of_build {base special registry : Named Metric}
    (h : build base special = .ok registry) {key : String} {m : Metric}
    (hm : Named.find? (Metric.families base) key = some m) : registry.find? key = some m := by
  obtain ⟨rfl, hapart, -⟩ := build_eq_ok_iff.mp h
  have hkey : key ∈ (Metric.families base).names :=
    List.mem_map_of_mem (Named.mem_of_find? hm)
  rw [Named.find?_putAll_of_notMem (hapart key hkey), hm]

/-- A registry that is built keeps all members of all families exactly if no base key is another
one with a suffix. Where one is, the family of the later of the two metrics has the key, and the
member of the other one is lost. -/
theorem build_keeps_members_iff {base special registry : Named Metric}
    (hnodup : base.names.Nodup) (h : build base special = .ok registry) :
    ((∀ p ∈ base, ∀ q ∈ p.2.family p.1, registry.find? q.1 = some q.2) ↔
      ∀ p ∈ base, ∀ a ∈ Attribution.applicable p.2.table, p.1 ++ a.suffix ∉ base.names) ∧
    ∀ p p' : String × Metric, ∀ a ∈ Attribution.applicable p.2.table, p'.1 = p.1 ++ a.suffix →
      ([p, p'].Sublist base → registry.find? p'.1 = some (p'.2.unattributed p'.1)) ∧
      ([p', p].Sublist base → registry.find? p'.1 = some (p.2.variant p.1 a)) := by
  have hown : ∀ p : String × Metric, (p.1, p.2.unattributed p.1) ∈ p.2.family p.1 :=
    fun p => Metric.mem_family.mpr (.inr rfl)
  have hvariant : ∀ p : String × Metric, ∀ a ∈ Attribution.applicable p.2.table,
      (p.1 ++ a.suffix, p.2.variant p.1 a) ∈ p.2.family p.1 :=
    fun p a ha => Metric.mem_family.mpr (.inl ⟨a, ha, rfl⟩)
  refine ⟨⟨?_, ?_⟩, ?_⟩
  · intro hkept p hp a ha hmem
    obtain ⟨p', hp', hkey⟩ := List.mem_map.mp hmem
    have hfirst := hkept p hp _ (hvariant p a ha)
    have hsecond := hkept p' hp' _ (hown p')
    rw [hkey, hfirst] at hsecond
    have hattribution := congrArg Metric.attribution (Option.some.inj hsecond)
    cases hattribution
  · intro hapart p hp q hq
    apply find?_of_build h
    rw [Metric.families_eq_members hnodup hapart]
    exact Named.find?_of_mem (Metric.nodup_names_members hnodup hapart)
      (Metric.mem_members.mpr ⟨p, hp, hq⟩)
  · intro p p' a ha hkey
    constructor
    · intro hsublist
      obtain ⟨before, rest, rfl, hp, hrest⟩ := List.cons_sublist_iff.mp hsublist
      obtain ⟨between, after, rfl⟩ := List.append_of_mem (List.singleton_sublist.mp hrest)
      apply find?_of_build h
      rw [← List.append_assoc]
      refine Metric.find?_families_of_last (hown p') ?_
      rw [hkey]
      rw [Named.names_append, Named.names_append, List.nodup_append, List.nodup_append] at hnodup
      apply Metric.notMem_names_members
      · intro hmem
        exact hnodup.2.2 p.1 (List.mem_map_of_mem hp) p.1
          (List.mem_append_right _ (List.mem_cons_of_mem _ hmem)) rfl
      · rw [← hkey]
        exact (List.nodup_cons.mp hnodup.2.1.2.1).1
    · intro hsublist
      obtain ⟨before, rest, rfl, hp', hrest⟩ := List.cons_sublist_iff.mp hsublist
      obtain ⟨between, after, rfl⟩ := List.append_of_mem (List.singleton_sublist.mp hrest)
      apply find?_of_build h
      rw [← List.append_assoc, hkey]
      refine Metric.find?_families_of_last (hvariant p a ha) ?_
      rw [Named.names_append, Named.names_append, List.nodup_append, List.nodup_append] at hnodup
      apply Metric.notMem_names_members
      · exact (List.nodup_cons.mp hnodup.2.1.2.1).1
      · intro hmem
        rw [← hkey] at hmem
        exact hnodup.2.2 p'.1 (List.mem_map_of_mem hp') p'.1
          (List.mem_append_right _ (List.mem_cons_of_mem _ hmem)) rfl

def calls : Metric := Registry.total "calls" "Calls" "Calls" .count "appointments" "COUNT(*)"

/-- Calls that were handed over, under the key of the calls with a suffix. -/
def handedCalls : Metric :=
  Registry.total "calls_assigned" "Handed Calls" "Calls handed over" .count "appointments"
    "COUNT(*)"

theorem build_handedCalls : build (Registry.keyed [handedCalls, calls]) [] =
    .ok (Metric.families (Registry.keyed [handedCalls, calls])) := by
  rw [build_eq_ok_iff]
  refine ⟨rfl, ?_, ?_⟩
  · intro key _
    exact List.not_mem_nil
  · exact audit_eq_ok_iff.mpr (by decide)

/-- The assigned calls take the place of the calls that were handed over. -/
theorem build_keeps_members_handedCalls :
    (Registry.keyed [handedCalls, calls]).names.Nodup ∧
    build (Registry.keyed [handedCalls, calls]) [] =
      .ok (Metric.families (Registry.keyed [handedCalls, calls])) ∧
    (Metric.families (Registry.keyed [handedCalls, calls])).find? "calls_assigned" =
      some (calls.variant "calls" .assigned) := by
  have hnodup : (Registry.keyed [handedCalls, calls]).names.Nodup := by decide
  have hlost := (build_keeps_members_iff hnodup build_handedCalls).2 ("calls", calls)
    ("calls_assigned", handedCalls) .assigned (by decide) (by decide)
  exact ⟨hnodup, build_handedCalls, hlost.2 (List.Sublist.refl _)⟩

/-- A registry is built although a metric in it was replaced by the variant of another one. -/
theorem not_build_keeps_members :
    ¬ ∀ base special registry : Named Metric, base.names.Nodup →
      build base special = .ok registry →
      ∀ p ∈ base, ∀ q ∈ p.2.family p.1, registry.find? q.1 = some q.2 := by
  intro hkeeps
  have hown : ("calls_assigned", handedCalls.unattributed "calls_assigned") ∈
      handedCalls.family "calls_assigned" :=
    Metric.mem_family.mpr (.inr rfl)
  have hfound := hkeeps (Registry.keyed [handedCalls, calls]) [] _ (by decide)
    build_handedCalls ("calls_assigned", handedCalls) (List.mem_cons_self ..) _ hown
  have hattribution := congrArg (Option.map Metric.attribution) hfound
  revert hattribution
  decide

end Catalog

/-- A name without a suffix is in the registry only as the key of a base metric or a special one. -/
theorem Registry.find?_eq_none {name : String} (hplain : Attribution.ofKey? name = none)
    (hbase : name ∉ (keyed baseMetrics).names) (hspecial : name ∉ (keyed specialMetrics).names) :
    find? name = none := by
  by_contra hfound
  obtain ⟨m, hm⟩ := Option.ne_none_iff_exists'.mp hfound
  have hname : name ∈ all.names := List.mem_map_of_mem (Named.mem_of_find? hm)
  rw [all, Named.names_putAll, List.mem_append, List.mem_eraseDups] at hname
  rcases hname with hname | hname
  · rw [Metric.families_eq_putAll, Named.names_putAll_nil, List.mem_eraseDups] at hname
    obtain ⟨q, hq, rfl⟩ := List.mem_map.mp hname
    obtain ⟨p, hp, hq⟩ := Metric.mem_members.mp hq
    rcases Metric.mem_names_family.mp (List.mem_map_of_mem hq) with ⟨a, -, hkey⟩ | hkey
    · rw [hkey, Attribution.ofKey?_append_suffix] at hplain
      cases hplain
    · exact hbase (hkey ▸ List.mem_map_of_mem hp)
  · exact hspecial (List.mem_filter.mp hname).1

end Funnel
