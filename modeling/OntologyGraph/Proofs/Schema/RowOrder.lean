import OntologyGraph.Proofs.Schema.Ascent

/-!
What a walk makes of rows in another order. A store gives the rows of a query in any order that its
query allows: sorted by the columns that the query names, and in any order among rows that agree on
these. Two steady stores with the same rows give the same walk, up to the rules of properties for
which a class has several rows: these rows sort alike, and the first of them decides.
-/

namespace OntologyGraph.Store

def orderMark : List Char := " ORDER BY ".toList

def orderClause? : List Char → Option (List Char)
  | [] => none
  | c :: cs =>
    if orderMark.isPrefixOf (c :: cs) then some ((c :: cs).drop orderMark.length)
    else orderClause? cs

def columnsIn (chars : List Char) : List String :=
  match orderClause? chars with
  | none => []
  | some clause =>
    ((clause.splitOnP fun c => c = ',' || c = ' ').filter (· ≠ [])).map String.ofList

def sortColumns (text : String) : List String :=
  columnsIn text.toList

/-- The characters of a text are known from its parts, without putting it together. -/
private theorem sortColumns_of_parts (cs cs' cs'' : List Char) :
    sortColumns (String.ofList cs ++ String.ofList cs' ++ String.ofList cs'') =
      columnsIn (cs ++ cs' ++ cs'') := by
  rw [sortColumns, String.toList_append, String.toList_append, String.toList_ofList,
    String.toList_ofList, String.toList_ofList]

/-- How a store ranks the values of a column, a missing one included. Values with different texts
have different ranks. -/
structure ColumnOrder (κ : Type) where
  rank : Option Value → κ
  text_eq : ∀ (a b : Row) (column : String), rank (a.get? column) = rank (b.get? column) →
    a.text column = b.text column

variable {κ : Type}

def ColumnOrder.key (order : ColumnOrder κ) (columns : List String) (row : Row) : List κ :=
  columns.map fun column => order.rank (row.get? column)

theorem ColumnOrder.text_eq_of_key_eq {order : ColumnOrder κ} {columns : List String} {a b : Row}
    (h : order.key columns a = order.key columns b) {column : String} (hmem : column ∈ columns) :
    a.text column = b.text column :=
  order.text_eq a b column (List.map_inj_left.mp h column hmem)

variable [LinearOrder κ]

def ColumnOrder.Sorts (order : ColumnOrder κ) (columns : List String) (rows : List Row) : Prop :=
  rows.Pairwise fun a b => order.key columns a ≤ order.key columns b

/-- The same rows for every query, in two orders that the query allows. -/
structure Reordered (order : ColumnOrder κ) (answers answers' : Query → List Row) : Prop where
  perm : ∀ query, (answers query).Perm (answers' query)
  sorts : ∀ query, order.Sorts (sortColumns query.text) (answers query)
  sorts' : ∀ query, order.Sorts (sortColumns query.text) (answers' query)

/-- Sorted alike, two orders of the same rows give the same results as long as rows with one key
give no two of them. -/
theorem Reordered.filterMap_eq {order : ColumnOrder κ} {answers answers' : Query → List Row}
    (h : Reordered order answers answers') (query : Query) {β : Type} {g : Row → Option β}
    (htied : ∀ a ∈ answers query, ∀ b ∈ answers query,
      order.key (sortColumns query.text) a = order.key (sortColumns query.text) b →
      ∀ x ∈ g a, ∀ y ∈ g b, x = y) :
    (answers query).filterMap g = (answers' query).filterMap g := by
  let key := order.key (sortColumns query.text)
  -- Each result beside its key: sorted by the key these have one order only.
  let keyed (row : Row) : Option (List κ × β) := (g row).map (key row, ·)
  have hpairs {rows : List Row} (hsorts : order.Sorts (sortColumns query.text) rows) :
      (rows.filterMap keyed).Pairwise fun x y => x.1 ≤ y.1 := by
    refine hsorts.filterMap keyed ?_
    intro a b hle x hx y hy
    obtain ⟨_, -, rfl⟩ := Option.map_eq_some_iff.mp hx
    obtain ⟨_, -, rfl⟩ := Option.map_eq_some_iff.mp hy
    exact hle
  have hkeyed : (answers query).filterMap keyed = (answers' query).filterMap keyed := by
    refine List.Perm.eq_of_pairwise ?_ (hpairs (h.sorts query)) (hpairs (h.sorts' query))
      ((h.perm query).filterMap keyed)
    intro x y hx hy hle hge
    obtain ⟨a, ha, hax⟩ := List.mem_filterMap.mp hx
    obtain ⟨b, hb, hby⟩ := List.mem_filterMap.mp hy
    obtain ⟨x, hgx, rfl⟩ := Option.map_eq_some_iff.mp hax
    obtain ⟨y, hgy, rfl⟩ := Option.map_eq_some_iff.mp hby
    have hkey : key a = key b := le_antisymm hle hge
    rw [hkey, htied a ha b ((h.perm query).mem_iff.mpr hb) hkey x hgx y hgy]
  have hresults (rows : List Row) : rows.filterMap g = (rows.filterMap keyed).map (·.2) := by
    rw [List.map_filterMap]
    congr 1
    funext row
    rw [Option.map_map]
    exact Option.map_id'.symm
  rw [hresults, hresults, hkeyed]

end OntologyGraph.Store

namespace OntologyGraph.Schema

open Store

section Agreement

variable {κ : Type} (order : ColumnOrder κ) (answers : Query → List Row)

/-- Rows of a class for a property that sort alike declare one rule. -/
def Settled (label property : String) : Prop :=
  ∀ a ∈ answers (aboutClass propertyQuery label), ∀ b ∈ answers (aboutClass propertyQuery label),
    order.key (sortColumns propertyQuery) a = order.key (sortColumns propertyQuery) b →
    ∀ rule ∈ ruleOfRow? label a, ∀ rule' ∈ ruleOfRow? label b,
      rule.1 = property → rule'.1 = property → rule = rule'

/-- Two rules that one class declares for a property; one rule if its rows settle it. -/
structure RuleAlike (property : String) (rule rule' : Rule) : Prop where
  owner : rule.owner = rule'.owner
  settled : Settled order answers rule.owner property → rule = rule'

/-- Lineages that differ at most in the kinds and datatypes of rules that rows do not settle. -/
structure LineageAlike (l l' : Lineage) : Prop where
  classes : l.classes = l'.classes
  rules : ∀ property, Option.Rel (RuleAlike order answers property) (l.rules.get? property)
    (l'.rules.get? property)
  relationships : l.relationships = l'.relationships

inductive Alike : Except OntologyFault Lineage → Except OntologyFault Lineage → Prop where
  | fault (fault : OntologyFault) : Alike (.error fault) (.error fault)
  | lineage {l l' : Lineage} : LineageAlike order answers l l' → Alike (.ok l) (.ok l')

end Agreement

variable {κ : Type} {order : ColumnOrder κ} {answers answers' : Query → List Row}

private theorem eq_of_rel {α : Type} {r : α → α → Prop} {a? b? : Option α} (h : Option.Rel r a? b?)
    (heq : ∀ a ∈ a?, ∀ b, r a b → a = b) : a? = b? := by
  cases h with
  | none => rfl
  | @some a b hab => rw [heq a rfl b hab]

private theorem rel_or {α : Type} {r : α → α → Prop} {a? b? c? d? : Option α}
    (h : Option.Rel r a? b?) (h' : Option.Rel r c? d?) : Option.Rel r (a?.or c?) (b?.or d?) := by
  cases h with
  | none => exact h'
  | some hab => exact .some hab

/-- Lineages that are alike are equal where the rows settle every rule of them. -/
theorem Alike.eq_of_settled {result result' : Except OntologyFault Lineage}
    (h : Alike order answers result result')
    (hsettled : ∀ l, result = .ok l → ∀ property, ∀ rule ∈ l.rules.get? property,
      Settled order answers rule.owner property) :
    result = result' := by
  cases h with
  | fault fault => rfl
  | @lineage l l' halike =>
    have hrules : l.rules = l'.rules := by
      apply SortedMap.eq_of_get?_eq
      intro property
      apply eq_of_rel (halike.rules property)
      intro rule hrule rule' hsame
      exact hsame.settled (hsettled l rfl property rule hrule)
    obtain ⟨classes, rules, relationships⟩ := l
    obtain ⟨classes', rules', relationships'⟩ := l'
    obtain rfl : classes = classes' := halike.classes
    obtain rfl : relationships = relationships' := halike.relationships
    obtain rfl : rules = rules' := hrules
    rfl

theorem min?_eq_of_perm {labels labels' : List String} (h : labels.Perm labels') :
    labels.min? = labels'.min? := by
  cases hleast : labels.min? with
  | none =>
    obtain rfl := List.min?_eq_none_iff.mp hleast
    obtain rfl := h.nil_eq
    rfl
  | some least =>
    obtain ⟨hmem, hle⟩ := List.min?_eq_some_iff.mp hleast
    symm
    exact List.min?_eq_some_iff.mpr ⟨h.subset hmem, fun b hb => hle b (h.symm.subset hb)⟩

/-- A cleaned column depends on the column's text only. -/
theorem cleanLabel_congr {a b : Row} {column : String} (h : a.text column = b.text column) :
    cleanLabel a column = cleanLabel b column := by
  rw [cleanLabel, cleanLabel, h]

variable [LinearOrder κ]

/-- The parent chosen does not depend on the order of the rows. -/
theorem chooseParent_reordered (h : Reordered order answers answers') (single : Bool)
    (label : String) :
    chooseParent single label (parentLabels answers label) =
      chooseParent single label (parentLabels answers' label) := by
  have hperm : (parentLabels answers label).Perm (parentLabels answers' label) :=
    (h.perm (aboutClass parentQuery label)).map _
  rw [chooseParent_eq, chooseParent_eq, hperm.length_eq, min?_eq_of_perm hperm]

/-- The relationship that a row declares depends on the columns only that its query sorts by. -/
theorem relationships_reordered (h : Reordered order answers answers') {text : String}
    (hcolumns : sortColumns text = ["relationship", "other"]) (direction : Direction)
    (label : String) :
    (answers (aboutClass text label)).map (relationshipOfRow direction label) =
      (answers' (aboutClass text label)).map (relationshipOfRow direction label) := by
  rw [← List.filterMap_eq_map, h.filterMap_eq]
  intro a _ b _ hkey x hx y hy
  rw [← Option.some.inj hx, ← Option.some.inj hy]
  change order.key (sortColumns text) a = order.key (sortColumns text) b at hkey
  rw [hcolumns] at hkey
  have hrelationship := order.text_eq_of_key_eq hkey (List.mem_cons_self)
  have hother := order.text_eq_of_key_eq hkey (List.mem_cons_of_mem _ List.mem_cons_self)
  rw [relationshipOfRow, relationshipOfRow, cleanLabel_congr hrelationship, cleanLabel_congr hother]

private theorem sortColumns_outgoing : sortColumns outgoingQuery = ["relationship", "other"] :=
  (sortColumns_of_parts _ _ _).trans (by decide)

private theorem sortColumns_incoming : sortColumns incomingQuery = ["relationship", "other"] :=
  (sortColumns_of_parts _ _ _).trans (by decide)

private theorem sortColumns_property : sortColumns propertyQuery = ["property"] :=
  (sortColumns_of_parts _ _ _).trans (by decide)

/-- The queries sort by all that a relationship is made of, so a class has the same relationships in
any order of its rows. -/
theorem declaredRelationships_reordered (h : Reordered order answers answers') (label : String) :
    declaredRelationships answers label = declaredRelationships answers' label := by
  rw [declaredRelationships, declaredRelationships,
    relationships_reordered h sortColumns_outgoing .outgoing label,
    relationships_reordered h sortColumns_incoming .incoming label]

theorem lookup_eq_head?_filter {α : Type} (es : List (String × α)) (k : String) :
    es.lookup k = (es.filter (·.1 = k)).head?.map (·.2) := by
  induction es with
  | nil => rfl
  | cons e es ih =>
    obtain ⟨key, value⟩ := e
    rw [lookup_cons_eq_ite, List.filter_cons, ih]
    by_cases hkey : key = k
    · rw [if_pos hkey.symm, if_pos (decide_eq_true hkey)]
      rfl
    · rw [if_neg (Ne.symm hkey), if_neg (by simpa using hkey)]

def rulesFor (answers : Query → List Row) (label property : String) : List (String × Rule) :=
  (declaredRules answers label).filter (·.1 = property)

theorem owner_of_mem_rulesFor {label property : String} {e : String × Rule}
    (h : e ∈ rulesFor answers label property) : e.2.owner = label := by
  obtain ⟨row, -, hrow⟩ := List.mem_filterMap.mp (List.mem_of_mem_filter h)
  obtain ⟨kind, -, rfl⟩ := Option.map_eq_some_iff.mp hrow
  rfl

/-- A property that is settled in a class has the same rules there in any order of the rows. -/
theorem rulesFor_reordered (h : Reordered order answers answers') {label property : String}
    (hsettled : Settled order answers label property) :
    rulesFor answers label property = rulesFor answers' label property := by
  rw [rulesFor, rulesFor, declaredRules, declaredRules, List.filter_filterMap,
    List.filter_filterMap]
  apply h.filterMap_eq
  intro a ha b hb hkey x hx y hy
  obtain ⟨hax, hxp⟩ := Option.filter_eq_some_iff.mp hx
  obtain ⟨hby, hyp⟩ := Option.filter_eq_some_iff.mp hy
  exact hsettled a ha b hb hkey x hax y hby (of_decide_eq_true hxp) (of_decide_eq_true hyp)

/-- The rules that two orders of the rows give a property are alike. -/
theorem lookup_reordered (h : Reordered order answers answers') (label property : String) :
    Option.Rel (RuleAlike order answers property) ((declaredRules answers label).lookup property)
      ((declaredRules answers' label).lookup property) := by
  have hperm : (rulesFor answers label property).Perm (rulesFor answers' label property) :=
    ((h.perm _).filterMap _).filter _
  rw [lookup_eq_head?_filter, lookup_eq_head?_filter]
  change Option.Rel _ ((rulesFor answers label property).head?.map _)
    ((rulesFor answers' label property).head?.map _)
  cases hrules : rulesFor answers label property with
  | nil =>
    rw [hrules] at hperm
    rw [← hperm.nil_eq]
    exact .none
  | cons e rest =>
    cases hrules' : rulesFor answers' label property with
    | nil =>
      rw [hrules, hrules'] at hperm
      cases hperm.eq_nil
    | cons e' rest' =>
      have hmem : e ∈ rulesFor answers label property := hrules ▸ List.mem_cons_self
      have hmem' : e' ∈ rulesFor answers' label property := hrules' ▸ List.mem_cons_self
      have howner := owner_of_mem_rulesFor hmem
      refine .some ⟨howner.trans (owner_of_mem_rulesFor hmem').symm, ?_⟩
      intro hsettled
      rw [howner] at hsettled
      have heq := rulesFor_reordered h hsettled
      rw [hrules, hrules'] at heq
      rw [(List.cons.inj heq).1]

/-- One class more keeps lineages alike. -/
theorem LineageAlike.extend (h : Reordered order answers answers') {l l' : Lineage}
    (halike : LineageAlike order answers l l') (label : String) :
    LineageAlike order answers (l.extend answers label) (l'.extend answers' label) where
  classes := congrArg (· ++ [label]) halike.classes
  rules property := by
    simp only [Lineage.extend, get?_addRules]
    exact rel_or (halike.rules property) (lookup_reordered h label property)
  relationships := by
    simp only [Lineage.extend, halike.relationships, declaredRelationships_reordered h]

/-- By induction on the classes left: both walks take the same class next. -/
theorem climb_alike (h : Reordered order answers answers') (single : Bool) (left : Nat)
    {before before' : Lineage} (halike : LineageAlike order answers before before')
    (label : String) :
    Alike order answers (climb answers single left before label)
      (climb answers' single left before' label) := by
  induction left generalizing before before' label with
  | zero =>
    rw [climb, climb, halike.classes]
    exact .fault _
  | succ left ih =>
    rw [climb, climb, halike.classes, chooseParent_reordered h]
    split
    · exact .fault _
    · cases chooseParent single label (parentLabels answers' label) with
      | error fault => exact .fault fault
      | ok parent? =>
        cases parent? with
        | none => exact .lineage (halike.extend h label)
        | some parent => exact ih (halike.extend h label) parent

/-- By induction on the ascent, the lineages of reordered rows are alike. -/
theorem lineageOf_alike (h : Reordered order answers answers') (settings : OntologySettings)
    (label : String) :
    Alike order answers (lineageOf answers settings label) (lineageOf answers' settings label) := by
  have hstart : LineageAlike order answers ⟨[], .empty, []⟩ ⟨[], .empty, []⟩ :=
    ⟨rfl, fun _ => .none, rfl⟩
  rw [lineageOf, lineageOf, (h.perm (aboutClass classQuery label)).length_eq]
  split
  · exact .fault _
  · exact climb_alike h _ _ hstart label
  · exact .fault _

def textOrder : ColumnOrder String where
  rank value? := ((value?.filter (!·.isNull)).map Value.toText).getD ""
  text_eq a b column h := by
    have htext (row : Row) :
        row.text column = (((row.get? column).filter (!·.isNull)).map Value.toText).getD "" := by
      rw [Row.text, Row.text?]
      cases row.get? column with
      | none => rfl
      | some value => cases value <;> rfl
    rw [htext, htext, h]

def plainRow (edge : String) : Row :=
  .ofList [("type", .text edge), ("property", .text "p")]

/-- Every label names a class that declares properties only, all by the same rows. -/
def loneClasses (rows : List Row) (query : Query) : List Row :=
  if query.text = classQuery then [query.params]
  else if query.text = propertyQuery then rows
  else []

/-- A class that both allows and demands `p`: the rows in one order, and in the other. -/
def allowFirst : Query → List Row :=
  loneClasses [plainRow definedPropertyEdge, plainRow requiredPropertyEdge]

def demandFirst : Query → List Row :=
  loneClasses [plainRow requiredPropertyEdge, plainRow definedPropertyEdge]

private theorem loneClasses_sorts (edge edge' : String) (query : Query) :
    textOrder.Sorts (sortColumns query.text)
      (loneClasses [plainRow edge, plainRow edge'] query) := by
  unfold loneClasses
  split
  · exact List.pairwise_singleton _ _
  · split
    · next htext =>
      rw [htext]
      have hkey (edge : String) : textOrder.key ["property"] (plainRow edge) = ["p"] := rfl
      rw [sortColumns_property]
      refine List.pairwise_pair.mpr (le_of_eq ?_)
      rw [hkey, hkey]
    · exact .nil

private theorem allowFirst_reordered : Reordered textOrder allowFirst demandFirst where
  perm query := by
    unfold allowFirst demandFirst loneClasses
    split
    · exact .rfl
    · split
      · exact .swap _ _ _
      · exact .rfl
  sorts := loneClasses_sorts _ _
  sorts' := loneClasses_sorts _ _

/-- A class without parents is its own lineage. -/
private theorem lineageOf_loneClasses (rows : List Row) :
    lineageOf (loneClasses rows) {} "A" =
      .ok (Lineage.extend (loneClasses rows) ⟨[], .empty, []⟩ "A") := by
  change climb (loneClasses rows) true 64 ⟨[], .empty, []⟩ "A" = _
  rw [climb, chooseParent_eq]
  rfl

/-- Walks on two steady stores that give the same rows in orders that the queries allow end in the
same fault, or in lineages with the same classes, the same relationships and rules of the same
classes for the same properties. A rule is the same too when the rows of its class settle it. -/
theorem walk_alike {σ τ : Type} {backend : Backend σ} {backend' : Backend τ} {state : σ}
    {state' : τ} (hsteady : backend.Steady answers state)
    (hsteady' : backend'.Steady answers' state')
    (hreordered : Reordered order answers answers') (settings : OntologySettings) (label : String) :
    let result := ((walk settings label).run.run backend state).1
    let result' := ((walk settings label).run.run backend' state').1
    Alike order answers result result' ∧
      ((∀ l, result = .ok l → ∀ property, ∀ rule ∈ l.rules.get? property,
        Settled order answers rule.owner property) → result = result') := by
  rw [walk_run hsteady settings label, walk_run hsteady' settings label]
  have halike := lineageOf_alike hreordered settings label
  exact ⟨halike, halike.eq_of_settled⟩

/-- The two orders are alike but for the rule of `p`. -/
theorem walk_alike_allowFirst :
    Alike textOrder allowFirst ((walk {} "A").run.run (.ofAnswers allowFirst) ()).1
      ((walk {} "A").run.run (.ofAnswers demandFirst) ()).1 :=
  (walk_alike (Backend.ofAnswers_steady allowFirst) (Backend.ofAnswers_steady demandFirst)
    allowFirst_reordered {} "A").1

/-- The query sorts by property only, so both orders are allowed, and the first row decides. -/
theorem walk_differs_demandFirst :
    Reordered textOrder allowFirst demandFirst ∧
      ((walk {} "A").run.run (.ofAnswers allowFirst) ()).1.map (·.rules.get? "p") =
        .ok (some ⟨.defined, "A", none⟩) ∧
      ((walk {} "A").run.run (.ofAnswers demandFirst) ()).1.map (·.rules.get? "p") =
        .ok (some ⟨.required, "A", none⟩) := by
  refine ⟨allowFirst_reordered, ?_, ?_⟩
  · rw [walk_run (Backend.ofAnswers_steady allowFirst), allowFirst,
      lineageOf_loneClasses]
    decide +kernel
  · rw [walk_run (Backend.ofAnswers_steady demandFirst), demandFirst,
      lineageOf_loneClasses]
    decide +kernel

end OntologyGraph.Schema
