import OntologyGraph.Proofs.Command.WriteDiscipline
import OntologyGraph.Proofs.Maps.Entries
import OntologyGraph.Proofs.Store.Repeating

/-!
Defining a node twice. The write of a definition merges a node by its label and then assigns to it,
and the probe of the same definition asks for a node with every pair of its block. Whether the
second definition finds what the first has stored depends on the assignments that come last: the
times that the write stamps on a node replace what a block says under these keys.
-/

namespace OntologyGraph

open Schema Script Store

inductive Assignment where
  /-- The node takes every entry of a parameter that is a map. -/
  | takeEntries (parameter : String)
  /-- A key takes a parameter that is an instant. -/
  | setInstant (key parameter : String)

namespace Assignment

def text : Assignment → String
  | .takeEntries parameter => "o += $" ++ parameter
  | .setInstant key parameter => "o." ++ key ++ " = datetime($" ++ parameter ++ ")"

/-- The node after an assignment. A parameter of another kind assigns nothing. -/
def apply (parameters node : PropertyMap) : Assignment → PropertyMap
  | .takeEntries parameter =>
    match parameters.get? parameter with
    | some (.map m) => node.insertAll m.entries
    | _ => node
  | .setInstant key parameter =>
    match parameters.get? parameter with
    | some (.instant t) => node.insert key (.instant t)
    | _ => node

end Assignment

namespace Definition

def onCreate : List Assignment :=
  [.takeEntries "created", .setInstant "created" "now", .setInstant "modified" "now"]

def onMatch : List Assignment :=
  [.takeEntries "properties", .setInstant "modified" "now"]

def setText (assignments : List Assignment) : String :=
  "SET " ++ ", ".intercalate (assignments.map Assignment.text)

def mergeText (graphLabel : String) : String :=
  "MERGE (o:" ++ graphLabel ++ " \x7blabel: $label\x7d) " ++
    "ON CREATE " ++ setText onCreate ++ " " ++ "ON MATCH " ++ setText onMatch

def askText (graphLabel : String) (node : NodePattern) : String :=
  "MATCH (o:" ++ graphLabel ++ " " ++ Block.text node.pairs ++ ") RETURN o.label AS label"

/-- The properties of the node with the label of a write, after the write; before it the node holds
`prior?`, if it is there. A new node begins with its label. -/
def merged (parameters : PropertyMap) (prior? : Option PropertyMap) : PropertyMap :=
  match prior? with
  | none =>
    onCreate.foldl (Assignment.apply parameters)
      (.ofList [("label", (parameters.get? "label").getD .null)])
  | some prior => onMatch.foldl (Assignment.apply parameters) prior

/-- The write of a definition is the merge of its label, maps first and stamps behind. -/
theorem writeText_eq (definition : Definition) :
    definition.writeText = mergeText definition.graphLabel := by
  have hcreate :
      "ON CREATE SET o += $created, o.created = datetime($now), o.modified = datetime($now) " =
        "ON CREATE " ++ setText onCreate ++ " " := by decide
  have hmatch : "ON MATCH SET o += $properties, o.modified = datetime($now)" =
      "ON MATCH " ++ setText onMatch := by decide
  let merge := "MERGE (o:" ++ definition.graphLabel ++ " \x7blabel: $label\x7d) "
  calc definition.writeText
    _ = merge ++ ("ON CREATE " ++ setText onCreate ++ " ") ++ ("ON MATCH " ++ setText onMatch) :=
      congrArg₂ (merge ++ · ++ ·) hcreate hmatch
    _ = merge ++ "ON CREATE " ++ setText onCreate ++ " " ++ "ON MATCH " ++ setText onMatch := by
      simp only [String.append_assoc]
    _ = mergeText definition.graphLabel := rfl

/-- The probe of a definition asks for a node with its label and its pairs. -/
theorem probe_eq (definition : Definition) (node : NodePattern) :
    definition.probe node = ⟨askText definition.graphLabel node, .empty⟩ := by
  have hopen : "MATCH (o:" = "MATCH " ++ "(" ++ "o" ++ ":" := by decide
  have hclose : ") RETURN o.label AS label" = ")" ++ " RETURN o.label AS label" := by decide
  have hblock : Block.text node.pairs = node.block := rfl
  rw [probe, askText, hopen, hclose, hblock]
  simp only [NodePattern.matching, String.append_assoc]

/-- The keys that the write sets to the present time, over whatever was under them. -/
def Stamped (prior? : Option PropertyMap) (key : String) : Prop :=
  key = "modified" ∨ (key = "created" ∧ prior?.isNone = true)

instance (prior? : Option PropertyMap) (key : String) : Decidable (Stamped prior? key) :=
  inferInstanceAs (Decidable (_ ∨ _))

variable {node : NodePattern}

/-- What a pattern has when it comes from a statement. -/
structure Textual (node : NodePattern) : Prop where
  unique : node.properties.Unique
  texts : ∀ e ∈ node.properties.entries, ∃ s, e.2 = .text s

/-- A pair of a pattern's block says the label, or one of the properties that are set. -/
theorem pair_cases (h : Textual node) {pair : Pair} (hpair : pair ∈ node.pairs) :
    (pair.key.name = "label" ∧ pair.value = node.label) ∨
      (pair.key.name ≠ "label" ∧
        (properties node).get? pair.key.name = some (.text pair.value)) := by
  obtain ⟨e, he, rfl⟩ := List.mem_map.mp hpair
  rcases TextMap.mem_of_mem_withFirst he with rfl | ⟨hmem, hne⟩
  · exact .inl ⟨rfl, rfl⟩
  · obtain ⟨s, hs⟩ := h.texts e hmem
    refine .inr ⟨hne, ?_⟩
    change (node.properties.erase "label").get? e.1 = some (.text e.2.toText)
    rw [TextMap.get?_erase_of_ne _ hne, TextMap.get?_of_mem h.unique hmem, hs]
    rfl

theorem Textual.unique_properties (h : Textual node) : (properties node).Unique :=
  h.unique.erase "label"

theorem get?_properties_label (h : Textual node) : (properties node).get? "label" = none :=
  TextMap.get?_erase_self h.unique "label"

private theorem get?_created (h : Textual node) (id : NodeId) (key : String) :
    (createdProperties node id).get? key = ((properties node).get? key).or
      ((TextMap.ofList [(NodeId.property, Value.text id.toText),
        ("title", .text (".ontology " ++ node.label))]).get? key) :=
  TextMap.get?_insertAll_entries _ h.unique_properties key

/-- What is made up for a new node gives way to the pattern, and is no label. -/
private theorem get?_createdProperties (h : Textual node) (id : NodeId) {key : String}
    {value : Value} (hkey : (properties node).get? key = some value) :
    (createdProperties node id).get? key = some value := by
  rw [get?_created h, hkey, Option.some_or]

private theorem get?_createdProperties_label (h : Textual node) (id : NodeId) :
    (createdProperties node id).get? "label" = none := by
  rw [get?_created h, get?_properties_label h]
  rfl

private theorem unique_createdProperties (node : NodePattern) (id : NodeId) :
    (createdProperties node id).Unique :=
  (TextMap.unique_ofList _).insertAll _

private theorem merged_none (definition : Definition) (node : NodePattern) (stamp : Stamp) :
    merged (definition.write node stamp).params none =
      (((TextMap.ofList [("label", Value.text node.label)]).insertAll
        (createdProperties node stamp.id).entries).insert "created" (.instant stamp.now)).insert
          "modified" (.instant stamp.now) :=
  rfl

private theorem merged_some (definition : Definition) (node : NodePattern) (stamp : Stamp)
    (prior : PropertyMap) :
    merged (definition.write node stamp).params (some prior) =
      (prior.insertAll (properties node).entries).insert "modified" (.instant stamp.now) :=
  rfl

/-- Under the key of each pair of its block the node holds the pair's text, or the time of the write
where the write has stamped it. -/
theorem get?_merged (h : Textual node) (definition : Definition) (stamp : Stamp)
    {prior? : Option PropertyMap}
    (hprior : ∀ prior, prior? = some prior → prior.get? "label" = some (.text node.label))
    {pair : Pair} (hpair : pair ∈ node.pairs) :
    (merged (definition.write node stamp).params prior?).get? pair.key.name =
      if Stamped prior? pair.key.name then some (.instant stamp.now)
      else some (.text pair.value) := by
  by_cases hmodified : pair.key.name = "modified"
  · rw [if_pos (.inl hmodified), hmodified]
    cases prior? with
    | none => rw [merged_none, TextMap.get?_insert_self]
    | some prior => rw [merged_some, TextMap.get?_insert_self]
  cases prior? with
  | some prior =>
    have hunstamped : ¬ Stamped (some prior) pair.key.name := by simp [Stamped, hmodified]
    rw [if_neg hunstamped, merged_some, TextMap.get?_insert_of_ne _ hmodified,
      TextMap.get?_insertAll_entries _ h.unique_properties]
    rcases pair_cases h hpair with ⟨hkey, hvalue⟩ | ⟨-, hvalue⟩
    · rw [hkey, get?_properties_label h, hprior prior rfl, hvalue]
      rfl
    · rw [hvalue, Option.some_or]
  | none =>
    rw [merged_none, TextMap.get?_insert_of_ne _ hmodified]
    by_cases hcreated : pair.key.name = "created"
    · rw [if_pos (.inr ⟨hcreated, rfl⟩), hcreated, TextMap.get?_insert_self]
    have hunstamped : ¬ Stamped none pair.key.name := by simp [Stamped, hmodified, hcreated]
    rw [if_neg hunstamped, TextMap.get?_insert_of_ne _ hcreated,
      TextMap.get?_insertAll_entries _ (unique_createdProperties node stamp.id)]
    rcases pair_cases h hpair with ⟨hkey, hvalue⟩ | ⟨-, hvalue⟩
    · rw [hkey, get?_createdProperties_label h, hvalue]
      rfl
    · rw [get?_createdProperties h _ hvalue, Option.some_or]

def Fits (stored : PropertyMap) (block : Block) : Prop :=
  ∀ pair ∈ block, (stored.get? pair.key.name).bind Value.asText? = some pair.value

instance (stored : PropertyMap) (block : Block) : Decidable (Fits stored block) :=
  inferInstanceAs (Decidable (∀ pair ∈ block, _))

/-- The stored node fits the block exactly where the write has stamped no key of it. -/
theorem fits_merged_iff (h : Textual node) (definition : Definition) (stamp : Stamp)
    {prior? : Option PropertyMap}
    (hprior : ∀ prior, prior? = some prior → prior.get? "label" = some (.text node.label)) :
    Fits (merged (definition.write node stamp).params prior?) node.pairs ↔
      ∀ pair ∈ node.pairs, ¬ Stamped prior? pair.key.name := by
  constructor
  · intro hfits pair hpair hstamped
    have htext := hfits pair hpair
    rw [get?_merged h definition stamp hprior hpair, if_pos hstamped] at htext
    cases htext
  · intro hnone pair hpair
    rw [get?_merged h definition stamp hprior hpair, if_neg (hnone pair hpair)]
    rfl

end Definition

theorem textual_ofRef (ref : NodeRef) : Definition.Textual (NodePattern.ofRef ref) := by
  obtain ⟨label, block⟩ := ref
  cases block with
  | none => exact ⟨List.nodup_nil, fun e he => absurd he List.not_mem_nil⟩
  | some block =>
    refine ⟨TextMap.unique_ofList _, ?_⟩
    intro e he
    rcases TextMap.mem_of_mem_insertAll he with hmem | hmem
    · exact absurd hmem List.not_mem_nil
    · obtain ⟨pair, -, rfl⟩ := List.mem_map.mp hmem
      exact ⟨pair.value, rfl⟩

def Command.patterns : Command → List NodePattern
  | .define _ node => [node]
  | .connect _ subject target => [subject, target]
  | .setRelationship subject relationship target => [subject, relationship, target]
  | .info _ => []

/-- The patterns of a command are as its statement writes them. -/
theorem textual_of_statement {s : Statement} {command : Command}
    (h : Command.ofStatement s = .ok command) :
    ∀ node ∈ command.patterns, Definition.Textual node := by
  obtain ⟨keyword, refs⟩ := s
  intro node hnode
  have hmem : node ∈ refs.map NodePattern.ofRef := by
    unfold Command.ofStatement at h
    split at h <;> cases h
    case h_9 => cases hnode
    all_goals
      next hnodes => rw [hnodes]; exact hnode
  obtain ⟨ref, -, rfl⟩ := List.mem_map.mp hmem
  exact textual_ofRef ref

namespace Command

variable {σ : Type} {backend : Backend σ} {definition : Definition} {node : NodePattern}
  {state : σ}

private theorem change_run (backend : Backend σ) (state : σ) (query : Query) (outcome : Outcome) :
    let written := backend.execute query state
    (do change query; return outcome : CommandAction Outcome).run.run backend state =
        ((written.1.mapError .store).map fun _ => outcome, written.2) ∧
      (do change query; return outcome : CommandAction Outcome).run.trace backend state =
        [.execute query written.1] := by
  intro written
  have hrun : (do change query; return outcome : CommandAction Outcome).run =
      Program.bind (change query).run (ExceptT.bindCont fun _ => pure outcome) := rfl
  have hchange : (change query).run.run backend state = (written.1.mapError .store, written.2) :=
    rfl
  have htrace : (change query).run.trace backend state = [.execute query written.1] := rfl
  rw [hrun, Program.run_bind, Program.trace_bind, hchange, htrace]
  cases written.1 with
  | error fault => exact ⟨rfl, rfl⟩
  | ok value => exact ⟨rfl, rfl⟩

/-- A definition whose probe has no row draws a stamp and merges the node. -/
theorem runDefine_of_nil (h : (backend.fetch (definition.probe node) state).1 = .ok []) :
    let drawn := backend.stamp (backend.fetch (definition.probe node) state).2
    let written := backend.execute (definition.write node drawn.1) drawn.2
    (runDefine definition node).run.run backend state =
        ((written.1.mapError .store).map fun _ => .defined definition node.label, written.2) ∧
      (runDefine definition node).run.trace backend state =
        [.fetch (definition.probe node) (.ok []),
          .execute (definition.write node drawn.1) written.1] := by
  intro drawn written
  have hread := read_run h
  rw [runDefine, Action.run_bind_ok hread, Action.trace_bind_ok hread, read_trace h]
  obtain ⟨hresult, hlog⟩ := change_run backend drawn.2 (definition.write node drawn.1)
    (.defined definition node.label)
  exact ⟨hresult, congrArg (_ :: ·) hlog⟩

/-- A definition whose probe has a row adds nothing and sends nothing more. -/
theorem runDefine_of_cons {row : Row} {rows : List Row}
    (h : (backend.fetch (definition.probe node) state).1 = .ok (row :: rows)) :
    (runDefine definition node).run.run backend state =
        (.ok .nothingToAdd, (backend.fetch (definition.probe node) state).2) ∧
      (runDefine definition node).run.trace backend state =
        [.fetch (definition.probe node) (.ok (row :: rows))] := by
  have hread := read_run h
  rw [runDefine, Action.run_bind_ok hread, Action.trace_bind_ok hread, read_trace h]
  exact ⟨rfl, rfl⟩

/-- A store does with the probe and the write of a definition as their texts say. `stored?` is what
it holds of the node with the label of the definition. -/
structure KeepsNode (backend : Backend σ) (definition : Definition) (node : NodePattern)
    (stored? : σ → Option PropertyMap) : Prop where
  probed : ∀ state,
    let found := backend.fetch ⟨Definition.askText definition.graphLabel node, .empty⟩ state
    (∃ rows, found.1 = .ok rows ∧
      (rows ≠ [] ↔ ∃ stored, stored? state = some stored ∧ Definition.Fits stored node.pairs)) ∧
      stored? found.2 = stored? state
  stamp_keeps : ∀ state, stored? (backend.stamp state).2 = stored? state
  write_merges : ∀ state parameters, parameters.get? "label" = some (.text node.label) →
    let written := backend.execute ⟨Definition.mergeText definition.graphLabel, parameters⟩ state
    written.1 = .ok () → stored? written.2 = some (Definition.merged parameters (stored? state))

/-- What a definition leaves on its node, of which there was `prior?` before, and how it goes when
it is repeated on the store as it is then. -/
structure Redefined (settings : OntologySettings) (backend : Backend σ) (definition : Definition)
    (node : NodePattern) (stored? : σ → Option PropertyMap) (prior? : Option PropertyMap)
    (state : σ) : Prop where
  /-- The pairs of the probe are on the node, but for those that the write has stamped. -/
  held : ∃ now stored, stored? state = some stored ∧ ∀ pair ∈ node.pairs,
    stored.get? pair.key.name =
      if Definition.Stamped prior? pair.key.name then some (.instant now)
      else some (.text pair.value)
  /-- Without a stamped pair the definition finds its node, and writes nothing. -/
  settled : (∀ pair ∈ node.pairs, ¬ Definition.Stamped prior? pair.key.name) →
    (((define definition node).run settings).run.run backend state).1 = .ok .nothingToAdd ∧
      ∀ event ∈ ((define definition node).run settings).run.trace backend state,
        event.isExecute = false
  /-- With one it does not find the node, and writes again. -/
  rewritten : (∃ pair ∈ node.pairs, Definition.Stamped prior? pair.key.name) →
    ∃ stamp written, ((define definition node).run settings).run.trace backend state =
      [.fetch (definition.probe node) (.ok []), .execute (definition.write node stamp) written]

variable {stored? : σ → Option PropertyMap}

/-- A store that keeps the node answers the probe with a row exactly if the stored node fits the
pairs. -/
theorem KeepsNode.probe_rows (h : KeepsNode backend definition node stored?) (state : σ) :
    ∃ rows, (backend.fetch (definition.probe node) state).1 = .ok rows ∧
      (rows ≠ [] ↔
        ∃ stored, stored? state = some stored ∧ Definition.Fits stored node.pairs) := by
  rw [Definition.probe_eq]
  exact (h.probed state).1

/-- A probe leaves the stored node as it is. -/
theorem KeepsNode.probe_keeps (h : KeepsNode backend definition node stored?) (state : σ) :
    stored? (backend.fetch (definition.probe node) state).2 = stored? state := by
  rw [Definition.probe_eq]
  exact (h.probed state).2

/-- A definition that reports a node has merged its pattern into what there was of it. -/
theorem KeepsNode.stored_of_defined (h : KeepsNode backend definition node stored?)
    (hdefined : ((runDefine definition node).run.run backend state).1 =
      .ok (.defined definition node.label)) :
    ∃ stamp, stored? ((runDefine definition node).run.run backend state).2 =
      some (Definition.merged (definition.write node stamp).params (stored? state)) := by
  obtain ⟨rows, hrows, -⟩ := h.probe_rows state
  cases rows with
  | cons row rows =>
    rw [(runDefine_of_cons hrows).1] at hdefined
    cases hdefined
  | nil =>
    rw [(runDefine_of_nil hrows).1] at hdefined ⊢
    have hstored : stored? (backend.stamp (backend.fetch (definition.probe node) state).2).2 =
        stored? state := by
      rw [h.stamp_keeps, h.probe_keeps]
    generalize backend.stamp (backend.fetch (definition.probe node) state).2 = drawn
      at hdefined hstored ⊢
    have hmerges := h.write_merges drawn.2 (definition.write node drawn.1).params rfl
    rw [← Definition.writeText_eq, hstored] at hmerges
    refine ⟨drawn.1, hmerges ?_⟩
    change Except.map _ (Except.mapError _ (backend.execute (definition.write node drawn.1)
      drawn.2).1) = _ at hdefined
    cases hwritten : (backend.execute (definition.write node drawn.1) drawn.2).1 with
    | error fault =>
      rw [hwritten] at hdefined
      cases hdefined
    | ok value => exact hwritten

/-- Whatever there was of the node, once a definition from a statement has written it, the node
holds every pair of the probe except for the times of the write; the same statement finds the node
exactly if there was no pair to except, and otherwise writes once more. -/
theorem define_again {s : Statement} {settings : OntologySettings}
    (hcommand : Command.ofStatement s = .ok (.define definition node))
    (hstore : KeepsNode backend definition node stored?)
    (hprior : ∀ prior, stored? state = some prior → prior.get? "label" = some (.text node.label))
    (hdefined : (((define definition node).run settings).run.run backend state).1 =
      .ok (.defined definition node.label)) :
    Redefined settings backend definition node stored? (stored? state)
      (((define definition node).run settings).run.run backend state).2 := by
  have htextual := textual_of_statement hcommand node List.mem_cons_self
  obtain ⟨stamp, hmerged⟩ := hstore.stored_of_defined hdefined
  change Redefined settings backend definition node stored? (stored? state)
    ((runDefine definition node).run.run backend state).2
  generalize ((runDefine definition node).run.run backend state).2 = next at hmerged ⊢
  obtain ⟨rows, hrows, hfound⟩ := hstore.probe_rows next
  -- The node fits its probe exactly if no pair of the probe was stamped over.
  have hfound : rows ≠ [] ↔ ∀ pair ∈ node.pairs,
      ¬ Definition.Stamped (stored? state) pair.key.name := by
    rw [hfound, hmerged, ← Definition.fits_merged_iff htextual definition stamp hprior]
    simp
  constructor
  case held =>
    refine ⟨stamp.now, _, hmerged, fun pair hpair => ?_⟩
    exact Definition.get?_merged htextual definition stamp hprior hpair
  case settled =>
    intro hnone
    obtain ⟨row, rest, rfl⟩ := List.exists_cons_of_ne_nil (hfound.mpr hnone)
    obtain ⟨hrun, htrace⟩ := runDefine_of_cons hrows
    rw [run, hrun, htrace]
    exact ⟨rfl, List.forall_mem_singleton.mpr rfl⟩
  case rewritten =>
    rintro ⟨pair, hpair, hstamped⟩
    have hnil : rows = [] := by
      by_contra hrows
      exact hfound.mp hrows pair hpair hstamped
    rw [hnil] at hrows
    exact ⟨_, _, (runDefine_of_nil hrows).2⟩

/-- A store that holds one node at most, and takes every read for the probe of the pattern. -/
def nodeStore (node : NodePattern) : Backend (Option PropertyMap) where
  fetch _ stored? :=
    match stored? with
    | some stored =>
      (.ok (if Definition.Fits stored node.pairs then [.ofList [("label", .text node.label)]]
        else []), stored?)
    | none => (.ok [], stored?)
  execute query stored? := (.ok (), some (Definition.merged query.params stored?))
  stamp stored? := (.zero, stored?)

/-- The store of one node answers probes and merges as it has to. -/
theorem nodeStore_keepsNode (definition : Definition) (node : NodePattern) :
    KeepsNode (nodeStore node) definition node id := by
  constructor
  case probed =>
    intro stored?
    cases stored? with
    | none => exact ⟨⟨[], rfl, by simp⟩, rfl⟩
    | some stored =>
      refine ⟨⟨_, rfl, ?_⟩, rfl⟩
      by_cases hfits : Definition.Fits stored node.pairs <;> simp [hfits]
  case stamp_keeps => exact fun _ => rfl
  case write_merges => exact fun _ _ _ _ => rfl

def classX (key value : String) : Statement where
  keyword := .node
  nodes := [⟨.ofName "X", some [⟨.ofName key, value⟩]⟩]

def patternX (key value : String) : NodePattern :=
  .ofRef ⟨.ofName "X", some [⟨.ofName key, value⟩]⟩

private theorem ofStatement_classX (key value : String) :
    Command.ofStatement (classX key value) = .ok (.define .node (patternX key value)) :=
  rfl

/-- The node is there with another note; its definition changes the note, and then has nothing to
add. -/
theorem define_again_note :
    let store := nodeStore (patternX "note" "new")
    let prior : PropertyMap := .ofList [("label", .text "X"), ("note", .text "old")]
    let next := ((run {} (.define .node (patternX "note" "new"))).run.run store (some prior)).2
    Redefined {} store .node (patternX "note" "new") id (some prior) next := by
  apply define_again (ofStatement_classX "note" "new") (nodeStore_keepsNode _ _)
  · rintro _ ⟨⟩
    rfl
  · rfl

/-- The write sets its own time over the `modified` of a pattern, so the same statement never finds
the node it has defined. -/
theorem define_again_modified :
    let store := nodeStore (patternX "modified" "m")
    let command := Command.define .node (patternX "modified" "m")
    Command.ofStatement (classX "modified" "m") = .ok command ∧
      KeepsNode store .node (patternX "modified" "m") id ∧
      let first := (command.run {}).run.run store none
      first.1 = .ok (.defined .node "X") ∧
        first.2.bind (·.get? "modified") = some (.instant Stamp.zero.now) ∧
        ((command.run {}).run.run store first.2).1 = .ok (.defined .node "X") ∧
        ((command.run {}).run.trace store first.2).any Event.isExecute = true := by
  exact ⟨ofStatement_classX _ _, nodeStore_keepsNode _ _, rfl, rfl, rfl, rfl⟩

end Command

end OntologyGraph
