import OntologyGraph.Proofs.Maps.Entries
import OntologyGraph.Proofs.Text.ByteOrder
import OntologyGraph.Validation.Properties

/-!
What a report says of a property map, as sets. The map and the rules are each gone through once, in
orders of their own; a property is missing, undefined or invalid by what the map and the rules hold
for it, and never two of these.
-/

namespace OntologyGraph.Validation

open Schema

/-- A value does not satisfy a rule, for the reason given. A kind of values that nothing checks
satisfies no rule. -/
inductive Violates (datatypes : Datatypes) (rule : Rule) (key : String) (value : Value) :
    InvalidReason → Prop where
  | unregistered {kind : String} : rule.datatype = some kind → datatypes.supports kind = false →
      Violates datatypes rule key value (.unsupportedType kind)
  | wrong {kind : String} : rule.datatype = some kind →
      datatypes.check kind key value = .ok false → Violates datatypes rule key value .wrongType

/-- A report holds just the findings that a map and the rules of a class give. -/
structure FindsExactly (v : Validator) (properties : PropertyMap) (rules : Rules) (label : String)
    (report : Report) : Prop where
  mem_missing_iff : ∀ property owner, (property, owner) ∈ report.missing ↔
    ∃ rule, rules.get? property = some rule ∧ rule.kind = .required ∧ rule.owner = owner ∧
      property ∉ properties.keys
  missing_order : (report.missing.map (·.1)).Pairwise Text.BytesBefore
  undefined_eq : report.undefined =
    (properties.keys.filter fun key => key ∉ rules.keys).map (·, label)
  mem_invalid_iff : ∀ entry, entry ∈ report.invalid ↔
    ∃ value, properties.get? entry.property = some value ∧
      rules.get? entry.property = some entry.rule ∧
      Violates v.datatypes entry.rule entry.property value entry.reason
  invalid_order : (report.invalid.map (·.property)).Sublist properties.keys
  undefinedLabels_eq : report.undefinedLabels = []
  brokenClasses_eq : report.brokenClasses = []

structure ListsDisjoint (report : Report) : Prop where
  missing_undefined : (report.missing.map (·.1)).Disjoint (report.undefined.map (·.1))
  missing_invalid : (report.missing.map (·.1)).Disjoint (report.invalid.map (·.property))
  undefined_invalid : (report.undefined.map (·.1)).Disjoint (report.invalid.map (·.property))

/-- Entries made of some of those of a list stand in the order of the list. -/
private theorem map_filterMap_sublist {α β γ : Type} {f : α → Option β} {g : β → γ} {h : α → γ}
    (hkeep : ∀ a b, f a = some b → g b = h a) (l : List α) :
    ((l.filterMap f).map g).Sublist (l.map h) := by
  induction l with
  | nil => simp
  | cons a l ih =>
    rw [List.map_cons, List.filterMap_cons]
    cases hf : f a with
    | none => exact ih.cons _
    | some b =>
      rw [List.map_cons, hkeep a b hf]
      exact ih.cons_cons _

section Lists

variable {v : Validator} {properties : PropertyMap} {rules : Rules} {label : String}

/-- A property is found invalid exactly for the reason the rule is violated for. -/
theorem reason?_eq_some_iff {rule : Rule} {key : String} {value : Value}
    {reason : InvalidReason} :
    v.reason? rule key value = some reason ↔ Violates v.datatypes rule key value reason := by
  unfold Validator.reason?
  constructor
  · intro h
    split at h
    · cases h
    · next kind hkind =>
      split at h
      · cases h
      · next hcheck =>
        cases h
        exact .wrong hkind hcheck
      · next fault hcheck =>
        cases h
        refine .unregistered hkind ?_
        unfold Datatypes.check at hcheck
        unfold Datatypes.supports TextMap.contains
        split at hcheck
        · cases hcheck
        · next hnone => simp [hnone]
  · intro h
    cases h with
    | @unregistered kind hkind hunknown =>
      have hnone : v.datatypes.checks.get? kind = none := by
        simpa [Datatypes.supports, TextMap.contains] using hunknown
      simp [hkind, Datatypes.check, hnone]
    | wrong hkind hcheck => simp [hkind, hcheck]

/-- What is missing are the required properties that the map has no key for. -/
theorem mem_missing_iff (property owner : String) :
    (property, owner) ∈ Validator.missing rules properties ↔
      ∃ rule, rules.get? property = some rule ∧ rule.kind = .required ∧ rule.owner = owner ∧
        property ∉ properties.keys := by
  simp only [Validator.missing, List.mem_filterMap, Prod.exists, SortedMap.mem_entries_iff]
  constructor
  · rintro ⟨key, rule, hrule, hfound⟩
    split at hfound
    · next hcond =>
      cases hfound
      simp [Rule.isRequired, ← TextMap.contains_iff_mem_keys] at hcond ⊢
      exact ⟨rule, hrule, hcond.1, rfl, hcond.2⟩
    · cases hfound
  · rintro ⟨rule, hrule, hkind, rfl, habsent⟩
    rw [← TextMap.contains_iff_mem_keys] at habsent
    exact ⟨property, rule, hrule, by simp [Rule.isRequired, hkind, habsent]⟩

/-- The missing properties are listed in the order of their bytes. -/
theorem missing_order :
    ((Validator.missing rules properties).map (·.1)).Pairwise Text.BytesBefore := by
  have hrise : (rules.entries.map (·.1)).Pairwise Text.BytesBefore :=
    List.pairwise_map.mpr (rules.rising.imp Text.bytesBefore_of_lt)
  refine hrise.sublist (map_filterMap_sublist ?_ rules.entries)
  rintro ⟨key, rule⟩ finding hfound
  dsimp only at hfound
  split at hfound
  · cases hfound
    rfl
  · cases hfound

/-- The undefined properties are the keys without a rule, in the order of the map. -/
theorem undefined_eq :
    Validator.undefined rules properties label =
      (properties.keys.filter fun key => key ∉ rules.keys).map (·, label) := by
  unfold Validator.undefined TextMap.keys
  induction properties.entries with
  | nil => rfl
  | cons e es ih =>
    have hkey : rules.contains e.1 = true ↔ e.1 ∈ rules.keys := (rules.mem_keys_iff e.1).symm
    by_cases hmem : e.1 ∈ rules.keys
    · simp [hmem, hkey.mpr hmem, ih]
    · simp [hmem, mt hkey.mp hmem, ih]

theorem mem_invalid_iff (hunique : properties.Unique) (entry : InvalidProperty) :
    entry ∈ v.invalid rules properties ↔
      ∃ value, properties.get? entry.property = some value ∧
        rules.get? entry.property = some entry.rule ∧
        Violates v.datatypes entry.rule entry.property value entry.reason := by
  simp only [Validator.invalid, List.mem_filterMap, Prod.exists,
    TextMap.mem_entries_iff hunique, ← reason?_eq_some_iff]
  constructor
  · rintro ⟨key, value, hvalue, hfound⟩
    split at hfound
    · cases hfound
    · next rule hrule =>
      obtain ⟨reason, hreason, rfl⟩ := Option.map_eq_some_iff.mp hfound
      exact ⟨value, hvalue, hrule, hreason⟩
  · rintro ⟨value, hvalue, hrule, hreason⟩
    exact ⟨entry.property, value, hvalue, by simp [hrule, hreason]⟩

/-- The invalid properties are listed in the order of the map. -/
theorem invalid_order :
    ((v.invalid rules properties).map (·.property)).Sublist properties.keys := by
  apply map_filterMap_sublist
  rintro ⟨key, value⟩ entry hfound
  dsimp only at hfound
  split at hfound
  · cases hfound
  · obtain ⟨reason, -, rfl⟩ := Option.map_eq_some_iff.mp hfound
    rfl

end Lists

section Reports

variable {v : Validator} {properties : PropertyMap} {rules : Rules} {label : String}
  {report : Report}

theorem FindsExactly.mem_missing (h : FindsExactly v properties rules label report)
    {property : String} (hmem : property ∈ report.missing.map (·.1)) :
    property ∈ rules.keys ∧ property ∉ properties.keys := by
  obtain ⟨⟨property, owner⟩, hfinding, rfl⟩ := List.mem_map.mp hmem
  obtain ⟨rule, hrule, -, -, habsent⟩ := (h.mem_missing_iff property owner).mp hfinding
  exact ⟨(rules.mem_keys_iff property).mpr (by simp [hrule]), habsent⟩

theorem FindsExactly.mem_undefined (h : FindsExactly v properties rules label report)
    {property : String} (hmem : property ∈ report.undefined.map (·.1)) :
    property ∈ properties.keys ∧ property ∉ rules.keys := by
  simpa [h.undefined_eq] using hmem

theorem FindsExactly.mem_invalid (h : FindsExactly v properties rules label report)
    {property : String} (hmem : property ∈ report.invalid.map (·.property)) :
    property ∈ properties.keys ∧ property ∈ rules.keys := by
  refine ⟨h.invalid_order.subset hmem, ?_⟩
  obtain ⟨entry, hentry, rfl⟩ := List.mem_map.mp hmem
  obtain ⟨value, -, hrule, -⟩ := (h.mem_invalid_iff entry).mp hentry
  exact (rules.mem_keys_iff entry.property).mpr (by simp [hrule])

/-- The three lists differ in whether the map and the rules hold their properties. -/
theorem FindsExactly.disjoint (h : FindsExactly v properties rules label report) :
    ListsDisjoint report where
  missing_undefined _ hmissing hundefined :=
    (h.mem_missing hmissing).2 (h.mem_undefined hundefined).1
  missing_invalid _ hmissing hinvalid := (h.mem_missing hmissing).2 (h.mem_invalid hinvalid).1
  undefined_invalid _ hundefined hinvalid :=
    (h.mem_undefined hundefined).2 (h.mem_invalid hinvalid).2

theorem FindsExactly.isViolation_iff (h : FindsExactly v properties rules label report) :
    report.isViolation = true ↔ report.missing ≠ [] ∨ report.invalid ≠ [] ∨
      report.strict = true ∧ report.undefined ≠ [] := by
  simp [Report.isViolation, h.undefinedLabels_eq, h.brokenClasses_eq, or_assoc]

end Reports

end OntologyGraph.Validation
