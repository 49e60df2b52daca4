import OntologyGraph.Proofs.Schema.Ascent

/-!
What a walk collects on a steady store, said of the rows. A property has a rule if some class of the
lineage has a row that declares it. The closest such class owns the rule and its first such row
decides it, whatever other rows and classes farther up declare. The relationships are those of all
rows of all classes.
-/

namespace OntologyGraph.Schema

open Store

structure Declares (row : Row) (kind : PropertyKind) (property : String) : Prop where
  edge : row.text "type" = kind.edge
  label : StoredAs (row.text "property") property

/-- The datatype that a row names, if it names one. A value that is no text stands for its text. -/
inductive NamesDatatype (row : Row) : Option String → Prop where
  | missing : row.get? "datatype" = none → NamesDatatype row none
  | null : row.get? "datatype" = some .null → NamesDatatype row none
  | text {name : String} : row.get? "datatype" = some (.text name) → NamesDatatype row (some name)
  | value {value : Value} : row.get? "datatype" = some value → value.isNull = false →
      value.asText? = none → NamesDatatype row (some value.toText)

section Spec

variable (answers : Query → List Row)

def propertyRows (label : String) : List Row :=
  answers (aboutClass propertyQuery label)

/-- The classes of a lineage give a property a rule: that of the first row of the first class with
a row for the property. -/
structure Ruled (classes : List String) (property : String) (rule : Rule) : Prop where
  closest : ∃ below above, classes = below ++ rule.owner :: above ∧
    ∀ label ∈ below, ∀ row ∈ propertyRows answers label, ∀ kind, ¬ Declares row kind property
  firstRow : ∃ before row after, propertyRows answers rule.owner = before ++ row :: after ∧
    Declares row rule.kind property ∧ NamesDatatype row rule.datatype ∧
    ∀ earlier ∈ before, ∀ kind, ¬ Declares earlier kind property

/-- The rows for the relationships of a class with their directions, the outgoing first. -/
def relationshipRows (label : String) : List (String × Direction × Row) :=
  (answers (aboutClass outgoingQuery label)).map (label, .outgoing, ·) ++
    (answers (aboutClass incomingQuery label)).map (label, .incoming, ·)

end Spec

structure Reports (source : String × Direction × Row) (r : Relationship) : Prop where
  declaredBy : r.declaredBy = source.1
  direction : r.direction = source.2.1
  relationship : StoredAs (source.2.2.text "relationship") r.relationship
  other : StoredAs (source.2.2.text "other") r.other

/-- What a lineage holds besides its classes. -/
structure Collects (answers : Query → List Row) (l : Lineage) : Prop where
  mem_keys_iff : ∀ property, property ∈ l.rules.keys ↔
    ∃ label ∈ l.classes, ∃ row ∈ propertyRows answers label, ∃ kind, Declares row kind property
  rules : ∀ property rule, l.rules.get? property = some rule ↔
    Ruled answers l.classes property rule
  relationships : List.Forall₂ Reports (l.classes.flatMap (relationshipRows answers))
    l.relationships

variable {row : Row} {property owner : String}

theorem ofEdge?_eq_some_iff {edge : String} {kind : PropertyKind} :
    PropertyKind.ofEdge? edge = some kind ↔ edge = kind.edge := by
  constructor
  · unfold PropertyKind.ofEdge?
    intro h
    split at h
    · next hedge =>
      cases h
      exact hedge
    · split at h
      · next hedge =>
        cases h
        exact hedge
      · cases h
  · rintro rfl
    exact PropertyKind.ofEdge?_edge kind

theorem namesDatatype_iff {datatype : Option String} :
    NamesDatatype row datatype ↔ row.text? "datatype" = datatype := by
  unfold Row.text?
  constructor
  · intro h
    cases h with
    | missing h => simp only [h]
    | null h => simp only [h]
    | text h => simp only [h, Value.toText]
    | @value value h hnull _ =>
      simp only [h]
      cases value <;> first | rfl | cases hnull
  · intro h
    cases hvalue : row.get? "datatype" with
    | none =>
      rw [hvalue] at h
      cases h
      exact .missing hvalue
    | some value =>
      rw [hvalue] at h
      cases value
      case null =>
        cases h
        exact .null hvalue
      case text name =>
        cases h
        exact .text hvalue
      all_goals
        cases h
        exact .value hvalue rfl rfl

def ruleFor? (owner property : String) (row : Row) : Option Rule :=
  ((ruleOfRow? owner row).filter (·.1 = property)).map (·.2)

/-- A row gives a rule exactly if it declares the property with that kind and names its datatype. -/
theorem ruleFor?_eq_some_iff {rule : Rule} :
    ruleFor? owner property row = some rule ↔
      rule.owner = owner ∧ Declares row rule.kind property ∧ NamesDatatype row rule.datatype := by
  unfold ruleFor? ruleOfRow?
  constructor
  · intro h
    obtain ⟨e, hfilter, rfl⟩ := Option.map_eq_some_iff.mp h
    obtain ⟨hrow, hproperty⟩ := Option.filter_eq_some_iff.mp hfilter
    obtain ⟨kind, hkind, rfl⟩ := Option.map_eq_some_iff.mp hrow
    exact ⟨rfl, ⟨ofEdge?_eq_some_iff.mp hkind, cleanLabel_eq_iff.mp (of_decide_eq_true hproperty)⟩,
      namesDatatype_iff.mpr rfl⟩
  · obtain ⟨kind, owner', datatype⟩ := rule
    rintro ⟨rfl, ⟨hedge, hlabel⟩, hdatatype⟩
    rw [ofEdge?_eq_some_iff.mpr hedge, Option.map_some, cleanLabel_eq_iff.mpr hlabel,
      namesDatatype_iff.mp hdatatype]
    simp

/-- A row that declares a property for a class declares a rule for it. -/
private theorem isSome_ruleFor?_iff :
    (ruleFor? owner property row).isSome ↔ ∃ kind, Declares row kind property := by
  rw [Option.isSome_iff_exists]
  constructor
  · rintro ⟨rule, hrule⟩
    exact ⟨rule.kind, (ruleFor?_eq_some_iff.mp hrule).2.1⟩
  · rintro ⟨kind, hdeclares⟩
    refine ⟨⟨kind, owner, row.text? "datatype"⟩, ?_⟩
    exact ruleFor?_eq_some_iff.mpr ⟨rfl, hdeclares, namesDatatype_iff.mpr rfl⟩

private theorem ruleFor?_eq_none_iff :
    ruleFor? owner property row = none ↔ ∀ kind, ¬ Declares row kind property := by
  rw [← not_exists, ← isSome_ruleFor?_iff, Option.not_isSome_iff_eq_none]

section Classes

variable (answers : Query → List Row)

/-- The rule that a class declares for one property: that of its first row for the property. -/
def classRule? (property label : String) : Option Rule :=
  (propertyRows answers label).findSome? (ruleFor? label property)

variable {answers} {label : String}

/-- The rule of a property in a class is the one its first declaring row gives. -/
theorem lookup_declaredRules (property label : String) :
    (declaredRules answers label).lookup property = classRule? answers property label := by
  unfold declaredRules classRule? propertyRows
  induction answers (aboutClass propertyQuery label) with
  | nil => rfl
  | cons row rows ih =>
    rw [List.filterMap_cons, List.findSome?_cons, ruleFor?]
    cases hrow : ruleOfRow? label row with
    | none => exact ih
    | some e =>
      obtain ⟨key, rule⟩ := e
      simp only [lookup_cons_eq_ite, ih]
      by_cases hkey : property = key
      · simp [hkey, Option.filter]
      · simp [hkey, Ne.symm hkey, Option.filter]

/-- A class rules a property by the first of its rows that declares it. -/
theorem classRule?_eq_some_iff {rule : Rule} :
    classRule? answers property label = some rule ↔
      rule.owner = label ∧ ∃ before row after, propertyRows answers label = before ++ row :: after ∧
        Declares row rule.kind property ∧ NamesDatatype row rule.datatype ∧
        ∀ earlier ∈ before, ∀ kind, ¬ Declares earlier kind property := by
  rw [classRule?, List.findSome?_eq_some_iff]
  constructor
  · rintro ⟨before, row, after, hrows, hrow, hbefore⟩
    obtain ⟨howner, hdeclares, hdatatype⟩ := ruleFor?_eq_some_iff.mp hrow
    exact ⟨howner, before, row, after, hrows, hdeclares, hdatatype,
      fun earlier hmem => ruleFor?_eq_none_iff.mp (hbefore earlier hmem)⟩
  · rintro ⟨howner, before, row, after, hrows, hdeclares, hdatatype, hbefore⟩
    exact ⟨before, row, after, hrows, ruleFor?_eq_some_iff.mpr ⟨howner, hdeclares, hdatatype⟩,
      fun earlier hmem => ruleFor?_eq_none_iff.mpr (hbefore earlier hmem)⟩

private theorem classRule?_eq_none_iff :
    classRule? answers property label = none ↔
      ∀ row ∈ propertyRows answers label, ∀ kind, ¬ Declares row kind property := by
  simp only [classRule?, List.findSome?_eq_none_iff, ruleFor?_eq_none_iff]

/-- The first class with a rule for the property gives the rule. -/
theorem ruled_iff {classes : List String} {rule : Rule} :
    Ruled answers classes property rule ↔
      classes.findSome? (classRule? answers property) = some rule := by
  rw [List.findSome?_eq_some_iff]
  constructor
  · rintro ⟨⟨below, above, hclasses, hbelow⟩, hfirst⟩
    exact ⟨below, rule.owner, above, hclasses, classRule?_eq_some_iff.mpr ⟨rfl, hfirst⟩,
      fun label hlabel => classRule?_eq_none_iff.mpr (hbelow label hlabel)⟩
  · rintro ⟨below, label, above, hclasses, hrule, hbelow⟩
    obtain ⟨rfl, hfirst⟩ := classRule?_eq_some_iff.mp hrule
    exact ⟨⟨below, above, hclasses,
      fun label hlabel => classRule?_eq_none_iff.mp (hbelow label hlabel)⟩, hfirst⟩

end Classes

theorem reports_relationshipOfRow (direction : Direction) (label : String) (row : Row) :
    Reports (label, direction, row) (relationshipOfRow direction label row) where
  declaredBy := rfl
  direction := rfl
  relationship := cleanLabel_eq_iff.mp rfl
  other := cleanLabel_eq_iff.mp rfl

/-- The relationships of a class are reported one for one from its rows, outgoing before incoming.
-/
theorem reports_declaredRelationships (answers : Query → List Row) (label : String) :
    List.Forall₂ Reports (relationshipRows answers label)
      (declaredRelationships answers label) := by
  have hrows (direction : Direction) (rows : List Row) :
      List.Forall₂ Reports (rows.map (label, direction, ·))
        (rows.map (relationshipOfRow direction label)) := by
    rw [List.forall₂_map_left_iff, List.forall₂_map_right_iff, List.forall₂_same]
    exact fun row _ => reports_relationshipOfRow direction label row
  exact List.rel_append (hrows _ _) (hrows _ _)

section Walk

variable {answers : Query → List Row}

def Lineage.start : Lineage :=
  ⟨[], .empty, []⟩

/-- Extending a lineage puts the walked classes behind those it had. -/
theorem extend_classes (classes : List String) (before : Lineage) :
    (classes.foldl (Lineage.extend answers) before).classes = before.classes ++ classes := by
  induction classes generalizing before with
  | nil => simp
  | cons label classes ih => simp [ih, Lineage.extend]

/-- A property is ruled by the nearest class that declares it: a rule once there is never
replaced. -/
theorem extend_rules (classes : List String) (before : Lineage) (property : String) :
    (classes.foldl (Lineage.extend answers) before).rules.get? property =
      (before.rules.get? property).or (classes.findSome? (classRule? answers property)) := by
  induction classes generalizing before with
  | nil => simp
  | cons label classes ih =>
    rw [List.foldl_cons, ih, Lineage.extend, get?_addRules, lookup_declaredRules, Option.or_assoc,
      List.findSome?_cons]
    cases classRule? answers property label with
    | none => rw [Option.none_or]
    | some rule => rw [Option.some_or]

/-- Extending a lineage puts the relationships of the walked classes behind those it had. -/
theorem extend_relationships (classes : List String) (before : Lineage) :
    (classes.foldl (Lineage.extend answers) before).relationships =
      before.relationships ++ classes.flatMap (declaredRelationships answers) := by
  induction classes generalizing before with
  | nil => simp
  | cons label classes ih => simp [ih, Lineage.extend]

/-- By induction on the classes left: a walk that ends has taken one class after the other. -/
theorem climb_eq_ok {single : Bool} {left : Nat} {before l : Lineage} {label : String}
    (h : climb answers single left before label = .ok l) :
    ∃ classes : List String, l = classes.foldl (Lineage.extend answers) before := by
  induction left generalizing before label with
  | zero => cases h
  | succ left ih =>
    unfold climb at h
    split at h
    · cases h
    · split at h
      · cases h
      · cases h
        exact ⟨[label], rfl⟩
      · next parent _ =>
        obtain ⟨classes, rfl⟩ := ih h
        exact ⟨label :: classes, rfl⟩

/-- A lineage is what its classes make of an empty one, class by class. -/
theorem lineageOf_eq_ok {settings : OntologySettings} {label : String} {l : Lineage}
    (h : lineageOf answers settings label = .ok l) :
    l = l.classes.foldl (Lineage.extend answers) .start := by
  have hclimb : ∃ classes : List String, l = classes.foldl (Lineage.extend answers) .start := by
    unfold lineageOf at h
    split at h
    · cases h
    · exact climb_eq_ok h
    · cases h
  obtain ⟨classes, rfl⟩ := hclimb
  rw [extend_classes]
  rfl

/-- What classes declare that are taken one after the other. -/
theorem collects_foldl_extend (classes : List String) :
    Collects answers (classes.foldl (Lineage.extend answers) .start) where
  mem_keys_iff property := by
    rw [SortedMap.mem_keys_iff, extend_rules, extend_classes]
    change (classes.findSome? (classRule? answers property)).isSome = true ↔ _
    simp only [classRule?, List.findSome?_isSome_iff, isSome_ruleFor?_iff]
    rfl
  rules property rule := by
    rw [ruled_iff, extend_rules, extend_classes]
    rfl
  relationships := by
    rw [extend_relationships, extend_classes]
    change List.Forall₂ Reports (classes.flatMap (relationshipRows answers))
      (classes.flatMap (declaredRelationships answers))
    induction classes with
    | nil => exact .nil
    | cons label classes ih =>
      rw [List.flatMap_cons, List.flatMap_cons]
      exact List.rel_append (reports_declaredRelationships answers label) ih

end Walk

/-- A walk that ends in a lineage on a steady store collects what the rows of its classes declare:
a rule for just the properties with a row, of the closest class with one and of the first such row
of that class, and one relationship for each row, class by class. -/
theorem walk_collects {σ : Type} {backend : Backend σ} {answers : Query → List Row} {state : σ}
    (hsteady : backend.Steady answers state) {settings : OntologySettings} {label : String}
    {l : Lineage} (h : ((walk settings label).run.run backend state).1 = .ok l) :
    Collects answers l := by
  rw [walk_run hsteady] at h
  rw [lineageOf_eq_ok h]
  exact collects_foldl_extend l.classes

def propertyRow (edge property : String) : Row :=
  .ofList [("type", .text edge), ("property", .text property)]

/-- The class `B` below the class `A`, which both have rows for `p`. Of those of `B` the first has
an edge of no kind, and the second has the label in backticks. -/
def twoLevels (query : Query) : List Row :=
  let below := Row.text query.params "label" = "B"
  if query.text = classQuery then [query.params]
  else if query.text = parentQuery then if below then [labelRow "A"] else []
  else if query.text = propertyQuery then
    if below then [propertyRow "OWNS" "p", propertyRow requiredPropertyEdge "\x60p\x60"]
    else [propertyRow definedPropertyEdge "p"]
  else []

theorem lineageOf_twoLevels :
    lineageOf twoLevels {} "B" = .ok (["B", "A"].foldl (Lineage.extend twoLevels) .start) := by
  change climb twoLevels true 64 .start "B" = _
  rw [climb, chooseParent_eq]
  change climb twoLevels true 63 (Lineage.extend twoLevels .start "B") "A" = _
  rw [climb, chooseParent_eq]
  rfl

/-- The row of `B` decides, and that of `A` makes no difference. -/
theorem walk_collects_twoLevels :
    ((walk {} "B").run.run (.ofAnswers twoLevels) ()).1.map (·.classes) = .ok ["B", "A"] ∧
      Ruled twoLevels ["B", "A"] "p" ⟨.required, "B", none⟩ := by
  have hsteady := Backend.ofAnswers_steady twoLevels
  have hwalk : ((walk {} "B").run.run (.ofAnswers twoLevels) ()).1 =
      .ok (["B", "A"].foldl (Lineage.extend twoLevels) .start) :=
    (walk_run hsteady {} "B").trans lineageOf_twoLevels
  have hcollects := walk_collects hsteady hwalk
  rw [hwalk]
  refine ⟨rfl, ?_⟩
  exact (hcollects.rules "p" _).mp (by decide +kernel)

end OntologyGraph.Schema
