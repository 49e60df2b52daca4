import OntologyGraph.Proofs.Command.Course
import OntologyGraph.Proofs.Command.GuardedText
import OntologyGraph.Proofs.Command.Redefinition
import OntologyGraph.Proofs.Script.Splicing

/-!
What the text of a probe tells of its command. Between the fixed parts of the text stand blocks,
which end at their own braces, and labels, which hold none of the characters that they end at. So
the text can be taken apart from left to right in one way only, and two commands with one probe
text ask for the same nodes and the same edge.
-/

namespace OntologyGraph

open Schema Script Store Action

namespace NodePattern

def wanted (node : NodePattern) : PropertyMap :=
  node.properties.withFirst [("label", .text node.label)]

/-- Patterns with one label and the same properties in the same order, not counting a property that
is called `label`: the label stands in its place. -/
structure Agrees (node node' : NodePattern) : Prop where
  label : node.label = node'.label
  properties : node.properties.erase "label" = node'.properties.erase "label"

variable {node node' : NodePattern}

/-- A probed node is asked for with its label first and its other properties behind, in their
order. -/
theorem wanted_entries (h : Definition.Textual node) :
    node.wanted.entries =
      ("label", .text node.label) :: (node.properties.erase "label").entries :=
  TextMap.entries_withFirst_singleton h.unique _

/-- Two nodes are asked for with the same properties exactly if they agree. -/
theorem wanted_eq_iff (h : Definition.Textual node) (h' : Definition.Textual node') :
    node.wanted = node'.wanted ↔ node.Agrees node' := by
  constructor
  · intro hwanted
    have hentries := congrArg TextMap.entries hwanted
    simp only [wanted_entries h, wanted_entries h', List.cons.injEq, Prod.mk.injEq,
      Value.text.injEq, true_and] at hentries
    exact ⟨hentries.1, TextMap.eq_of_entries_eq hentries.2⟩
  · rintro ⟨hlabel, hproperties⟩
    apply TextMap.eq_of_entries_eq
    rw [wanted_entries h, wanted_entries h', hlabel, hproperties]

/-- Texts are written as they are, so the pairs of a block tell the properties asked for. -/
theorem wanted_eq_of_pairs_eq (h : Definition.Textual node) (h' : Definition.Textual node')
    (hpairs : node.pairs = node'.pairs) : node.wanted = node'.wanted := by
  have hentries {node : NodePattern} (h : Definition.Textual node) :
      node.pairs.map (fun pair => (pair.key.name, Value.text pair.value)) =
        node.wanted.entries := by
    have htexts : ∀ e ∈ node.wanted.entries, ∃ s, e.2 = .text s := by
      intro e hmem
      rcases TextMap.mem_of_mem_withFirst hmem with rfl | ⟨hproperty, -⟩
      · exact ⟨node.label, rfl⟩
      · exact h.texts e hproperty
    have hstringified : node.wanted.stringified = node.wanted := stringified_of_texts htexts
    rw [← hstringified]
    exact List.map_map
  apply TextMap.eq_of_entries_eq
  rw [← hentries h, ← hentries h', hpairs]

/-- Two nodes are printed with the same pairs exactly if they agree. -/
theorem pairs_eq_iff (h : Definition.Textual node) (h' : Definition.Textual node') :
    node.pairs = node'.pairs ↔ node.Agrees node' := by
  rw [← wanted_eq_iff h h']
  exact ⟨wanted_eq_of_pairs_eq h h', congrArg Block.ofProperties⟩

theorem Agrees.block_eq (h : Definition.Textual node) (h' : Definition.Textual node')
    (hagrees : node.Agrees node') : node.block = node'.block := by
  apply String.toList_inj.mp
  rw [node.block_toList, node'.block_toList, (pairs_eq_iff h h').mpr hagrees]

end NodePattern

/-- A word without the character that it ends at can be told from what stands behind it. -/
private theorem word_append_inj {mark : Char} {word word' rest rest' : List Char} (h : mark ∉ word)
    (h' : mark ∉ word') (heq : word ++ mark :: rest = word' ++ mark :: rest') :
    word = word' ∧ rest = rest' := by
  have htake {word rest : List Char} (h : mark ∉ word) :
      (word ++ mark :: rest).takeWhile (fun c => decide (c ≠ mark)) = word := by
    apply takeWhile_eq_of_append (P := fun c => c ≠ mark) (by simp)
    · rintro c hc rfl
      exact h hc
    · exact stops_cons.mpr (by simp)
  have hword : word = word' := by rw [← htake h, heq, htake h']
  subst hword
  have hrest := List.append_cancel_left heq
  exact ⟨rfl, (List.cons.inj hrest).2⟩

private theorem variable_append_inj {name name' label label' : String} {node node' : NodePattern}
    (hname : ':' ∉ name.toList) (hname' : ':' ∉ name'.toList) (hlabel : ' ' ∉ label.toList)
    (hlabel' : ' ' ∉ label'.toList) {rest rest' : List Char}
    (h : (node.matching name label).toList ++ rest =
      (node'.matching name' label').toList ++ rest') :
    name = name' ∧ label = label' ∧ node.pairs = node'.pairs ∧ rest = rest' := by
  have hopen (node : NodePattern) (name label : String) (rest : List Char) :
      (node.matching name label).toList ++ rest =
        '(' :: (name.toList ++
          ':' :: (label.toList ++ ' ' :: (node.block.toList ++ ')' :: rest))) := by
    simp [NodePattern.matching]
  rw [hopen, hopen] at h
  obtain ⟨hnames, hbehind⟩ := word_append_inj hname hname' (List.cons.inj h).2
  obtain ⟨hlabels, hblocks⟩ := word_append_inj hlabel hlabel' hbehind
  rw [NodePattern.block_toList, NodePattern.block_toList] at hblocks
  obtain ⟨hpairs, hrest⟩ :=
    block_append_inj node.wellFormed_pairs node'.wellFormed_pairs hblocks
  exact ⟨String.toList_inj.mp hnames, String.toList_inj.mp hlabels, hpairs, (List.cons.inj hrest).2⟩

private theorem matching_append_inj {node node' : NodePattern} {name label : String}
    {rest rest' : List Char}
    (h : (node.matching name label).toList ++ rest =
      (node'.matching name label).toList ++ rest') :
    node.pairs = node'.pairs ∧ rest = rest' := by
  simp only [NodePattern.matching, String.toList_append, List.append_assoc,
    List.append_cancel_left_eq] at h
  rw [NodePattern.block_toList, NodePattern.block_toList] at h
  obtain ⟨hpairs, hrest⟩ := block_append_inj node.wellFormed_pairs node'.wellFormed_pairs h
  exact ⟨hpairs, List.append_cancel_left hrest⟩

private theorem space_not_mem_graphLabel (definition : Definition) :
    ' ' ∉ definition.graphLabel.toList := by
  cases definition <;>
    simp [Definition.graphLabel, classLabel, propertyLabel, relationshipLabel]

private theorem space_not_mem_targetLabel (connection : Connection) :
    ' ' ∉ connection.targetLabel.toList := by
  cases connection <;> simp [Connection.targetLabel, classLabel, propertyLabel]

private theorem graphLabel_inj {definition definition' : Definition}
    (h : definition.graphLabel = definition'.graphLabel) : definition = definition' := by
  cases definition <;> cases definition' <;>
    simp_all [Definition.graphLabel, classLabel, propertyLabel, relationshipLabel]

private theorem edge_inj {connection connection' : Connection}
    (h : connection.edge = connection'.edge) :
    connection = connection' := by
  cases connection <;> cases connection' <;>
    simp_all [Connection.edge, requiredPropertyEdge, definedPropertyEdge, subclassEdge]

section Probes

variable {definition definition' : Definition} {connection connection' : Connection}
  {node subject subject' relationship relationship' target target' node' : NodePattern}

/-- The probe of a definition can be read back to the kind defined and the pairs of the node. -/
theorem definitionProbe_text_inj
    (h : (definition.probe node).text = (definition'.probe node').text) :
    definition = definition' ∧ node.pairs = node'.pairs := by
  have hchars := congrArg String.toList h
  simp only [Definition.probe, String.toList_append, List.append_assoc,
    List.append_cancel_left_eq] at hchars
  obtain ⟨-, hlabel, hpairs, -⟩ := variable_append_inj (by simp) (by simp)
    (space_not_mem_graphLabel definition) (space_not_mem_graphLabel definition') hchars
  exact ⟨graphLabel_inj hlabel, hpairs⟩

/-- The probe of a connection can be read back to its edge and the pairs of both ends. -/
theorem connectionProbe_text_inj
    (h : (connection.probe subject target).text = (connection'.probe subject' target').text) :
    connection = connection' ∧ subject.pairs = subject'.pairs ∧ target.pairs = target'.pairs := by
  have hchars := congrArg String.toList h
  simp only [Connection.probe, Connection.ends, String.toList_append, List.append_assoc,
    List.append_cancel_left_eq] at hchars
  obtain ⟨hsubject, hcomma⟩ := matching_append_inj hchars
  obtain ⟨-, -, htarget, hoptional⟩ := variable_append_inj (by simp) (by simp)
    (space_not_mem_targetLabel connection) (space_not_mem_targetLabel connection')
    (List.append_cancel_left hcomma)
  have hedge := List.append_cancel_right (List.append_cancel_left hoptional)
  exact ⟨edge_inj (String.toList_inj.mp hedge), hsubject, htarget⟩

/-- The probe of a relationship can be read back to the pairs of its three nodes. -/
theorem relationshipProbe_text_inj
    (h : (RelationshipSetting.probe subject relationship target).text =
      (RelationshipSetting.probe subject' relationship' target').text) :
    subject.pairs = subject'.pairs ∧ relationship.pairs = relationship'.pairs ∧
      target.pairs = target'.pairs := by
  have hchars := congrArg String.toList h
  simp only [RelationshipSetting.probe, RelationshipSetting.ends, String.toList_append,
    List.append_assoc, List.append_cancel_left_eq] at hchars
  obtain ⟨hsubject, hcomma⟩ := matching_append_inj hchars
  obtain ⟨hrelationship, hcomma⟩ := matching_append_inj (List.append_cancel_left hcomma)
  obtain ⟨htarget, -⟩ := matching_append_inj (List.append_cancel_left hcomma)
  exact ⟨hsubject, hrelationship, htarget⟩

/-- A definition asks for a node `o`, the others for a node `s` first. -/
theorem definitionProbe_ne_connectionProbe :
    (definition.probe node).text ≠ (connection.probe subject target).text := by
  intro h
  have hchars := congrArg String.toList h
  simp only [Definition.probe, Connection.probe, Connection.ends, String.toList_append,
    List.append_assoc, List.append_cancel_left_eq] at hchars
  obtain ⟨hname, -⟩ := variable_append_inj (by simp) (by simp)
    (space_not_mem_graphLabel definition) (by simp [classLabel]) hchars
  simp at hname

/-- No text is the probe both of a definition and of a relationship. -/
theorem definitionProbe_ne_relationshipProbe :
    (definition.probe node).text ≠
      (RelationshipSetting.probe subject relationship target).text := by
  intro h
  have hchars := congrArg String.toList h
  simp only [Definition.probe, RelationshipSetting.probe, RelationshipSetting.ends,
    String.toList_append, List.append_assoc, List.append_cancel_left_eq] at hchars
  obtain ⟨hname, -⟩ := variable_append_inj (by simp) (by simp)
    (space_not_mem_graphLabel definition) (by simp [classLabel]) hchars
  simp at hname

/-- Behind its first node a connection asks for a node `t`, a relationship for a node `r`. -/
theorem connectionProbe_ne_relationshipProbe :
    (connection.probe subject target).text ≠
      (RelationshipSetting.probe subject' relationship target').text := by
  intro h
  have hchars := congrArg String.toList h
  simp only [Connection.probe, Connection.ends, RelationshipSetting.probe,
    RelationshipSetting.ends, String.toList_append, List.append_assoc,
    List.append_cancel_left_eq] at hchars
  obtain ⟨-, hcomma⟩ := matching_append_inj hchars
  obtain ⟨hname, -⟩ := variable_append_inj (by simp) (by simp)
    (space_not_mem_targetLabel connection) (by simp [relationshipLabel])
    (List.append_cancel_left hcomma)
  simp at hname

end Probes

namespace Command

/-- Commands of one shape and kind about the same nodes in the same places. -/
inductive SameRequest : Command → Command → Prop where
  | define (definition : Definition) {node node' : NodePattern} :
      node.Agrees node' → SameRequest (.define definition node) (.define definition node')
  | connect (connection : Connection) {subject subject' target target' : NodePattern} :
      subject.Agrees subject' → target.Agrees target' →
      SameRequest (.connect connection subject target) (.connect connection subject' target')
  | setRelationship {subject subject' relationship relationship' target target' : NodePattern} :
      subject.Agrees subject' → relationship.Agrees relationship' → target.Agrees target' →
      SameRequest (.setRelationship subject relationship target)
        (.setRelationship subject' relationship' target')

/-- Every run of a command begins with a read of the query, whatever the store answers. -/
def BeginsWith (command : Command) (query : Query) : Prop :=
  ∀ settings log result, Action.Runs (command.run settings) log result →
    ∃ rows rest, log = .fetch query rows :: rest

/-- Every run of a command that has a probe sends it first. -/
theorem beginsWith_probe {command : Command} {query : Query} (h : command.probe? = some query) :
    command.BeginsWith query := by
  have hread {next : List Row → CommandAction Outcome} {query : Query} {log : List Event}
      {result : Except CommandFault Outcome}
      (hrun : Action.Runs (read query >>= next) log result) :
      ∃ rows rest, log = .fetch query rows :: rest := by
    rcases runs_read_bind hrun with ⟨fault, rfl, -⟩ | ⟨rows, after, rfl, -⟩
    · exact ⟨_, [], rfl⟩
    · exact ⟨_, after, rfl⟩
  intro settings log result hrun
  cases command with
  | define definition node =>
    cases h
    exact hread hrun
  | connect connection subject target =>
    cases h
    exact hread hrun
  | setRelationship subject relationship target =>
    cases h
    exact hread hrun
  | info label => cases h

/-- Every command but `info` has a probe. -/
theorem exists_probe {command : Command} (h : ∀ label, command ≠ .info label) :
    ∃ query, command.probe? = some query := by
  cases command with
  | define definition node => exact ⟨_, rfl⟩
  | connect connection subject target => exact ⟨_, rfl⟩
  | setRelationship subject relationship target => exact ⟨_, rfl⟩
  | info label => exact absurd rfl (h label)

variable {command command' : Command} {query query' : Query}

/-- Two commands whose probes have the same text ask for the same thing. -/
theorem sameRequest_of_text_eq (h : ∀ node ∈ command.patterns, Definition.Textual node)
    (h' : ∀ node ∈ command'.patterns, Definition.Textual node)
    (hprobe : command.probe? = some query) (hprobe' : command'.probe? = some query')
    (htext : query.text = query'.text) : SameRequest command command' := by
  cases command <;> cases command' <;> cases hprobe <;> cases hprobe' <;>
    simp only [patterns, List.forall_mem_cons] at h h'
  case define.define definition node definition' node' =>
    obtain ⟨rfl, hnode⟩ := definitionProbe_text_inj htext
    exact .define _ ((NodePattern.pairs_eq_iff h.1 h'.1).mp hnode)
  case connect.connect connection subject target connection' subject' target' =>
    obtain ⟨rfl, hsubject, htarget⟩ := connectionProbe_text_inj htext
    exact .connect _ ((NodePattern.pairs_eq_iff h.1 h'.1).mp hsubject)
      ((NodePattern.pairs_eq_iff h.2.1 h'.2.1).mp htarget)
  case setRelationship.setRelationship =>
    obtain ⟨hsubject, hrelationship, htarget⟩ := relationshipProbe_text_inj htext
    exact .setRelationship ((NodePattern.pairs_eq_iff h.1 h'.1).mp hsubject)
      ((NodePattern.pairs_eq_iff h.2.1 h'.2.1).mp hrelationship)
      ((NodePattern.pairs_eq_iff h.2.2.1 h'.2.2.1).mp htarget)
  case define.connect => exact absurd htext definitionProbe_ne_connectionProbe
  case define.setRelationship => exact absurd htext definitionProbe_ne_relationshipProbe
  case connect.define => exact absurd htext.symm definitionProbe_ne_connectionProbe
  case connect.setRelationship => exact absurd htext connectionProbe_ne_relationshipProbe
  case setRelationship.define => exact absurd htext.symm definitionProbe_ne_relationshipProbe
  case setRelationship.connect => exact absurd htext.symm connectionProbe_ne_relationshipProbe

/-- Patterns that agree have one block, and a probe holds nothing else of its patterns. -/
theorem text_eq_of_sameRequest (h : ∀ node ∈ command.patterns, Definition.Textual node)
    (h' : ∀ node ∈ command'.patterns, Definition.Textual node)
    (hprobe : command.probe? = some query) (hprobe' : command'.probe? = some query')
    (hsame : SameRequest command command') : query.text = query'.text := by
  cases hsame with
  | define definition hnode =>
    cases hprobe
    cases hprobe'
    simp only [patterns, List.forall_mem_cons] at h h'
    simp only [Definition.probe, NodePattern.matching, hnode.block_eq h.1 h'.1]
  | connect connection hsubject htarget =>
    cases hprobe
    cases hprobe'
    simp only [patterns, List.forall_mem_cons] at h h'
    simp only [Connection.probe, Connection.ends, NodePattern.matching,
      hsubject.block_eq h.1 h'.1, htarget.block_eq h.2.1 h'.2.1]
  | setRelationship hsubject hrelationship htarget =>
    cases hprobe
    cases hprobe'
    simp only [patterns, List.forall_mem_cons] at h h'
    simp only [RelationshipSetting.probe, RelationshipSetting.ends, NodePattern.matching,
      hsubject.block_eq h.1 h'.1, hrelationship.block_eq h.2.1 h'.2.1,
      htarget.block_eq h.2.2.1 h'.2.2.1]

/-- Commands of statements that ask the graph for nodes each begin with a probe, and two of them
have one probe text exactly if they have one shape and kind and are about the same nodes. Whatever
labels, keys and values a statement holds, its probe is not taken for that of another. -/
theorem probe_text_eq_iff_sameRequest {statement statement' : Statement}
    (hcommand : Command.ofStatement statement = .ok command)
    (hcommand' : Command.ofStatement statement' = .ok command')
    (hasks : ∀ label, command ≠ .info label) (hasks' : ∀ label, command' ≠ .info label) :
    ∃ probe probe', command.BeginsWith probe ∧ command'.BeginsWith probe' ∧
      (probe.text = probe'.text ↔ SameRequest command command') := by
  obtain ⟨probe, hprobe⟩ := exists_probe hasks
  obtain ⟨probe', hprobe'⟩ := exists_probe hasks'
  have htextual := textual_of_statement hcommand
  have htextual' := textual_of_statement hcommand'
  refine ⟨probe, probe', beginsWith_probe hprobe, beginsWith_probe hprobe', ?_⟩
  constructor
  · exact sameRequest_of_text_eq htextual htextual' hprobe hprobe'
  · exact text_eq_of_sameRequest htextual htextual' hprobe hprobe'

def parentStatement (subject target : Block) : Statement where
  keyword := .setSubclass
  nodes := [⟨.ofName "X", some subject⟩, ⟨.ofName "Y", some target⟩]

def parentCommand (subject target : Block) : Command :=
  .connect .setSubclass (.ofRef ⟨.ofName "X", some subject⟩) (.ofRef ⟨.ofName "Y", some target⟩)

/-- A value that looks like the end of a block and the beginning of the next. -/
def hostileNote : Pair :=
  ⟨.ofName "note", "\"\x7d), (t:OntologyNode \x7blabel: \"Y\""⟩

/-- A pair for the key `label` makes no difference to a probe, and on which of two classes a note
stands does, even if the note looks like what is between them. -/
theorem probe_text_eq_iff_hostileNote :
    (∃ probe probe',
      (parentCommand [⟨.ofName "label", "Z"⟩, hostileNote] []).BeginsWith probe ∧
      (parentCommand [hostileNote] []).BeginsWith probe' ∧ probe.text = probe'.text) ∧
    ∃ probe probe', (parentCommand [hostileNote] []).BeginsWith probe ∧
      (parentCommand [] [hostileNote]).BeginsWith probe' ∧ probe.text ≠ probe'.text := by
  have hcommand (subject target : Block) :
      Command.ofStatement (parentStatement subject target) = .ok (parentCommand subject target) :=
    rfl
  have hasks (subject target : Block) (label : String) :
      parentCommand subject target ≠ .info label := nofun
  constructor
  · obtain ⟨probe, probe', hprobe, hprobe', hiff⟩ :=
      probe_text_eq_iff_sameRequest (hcommand [⟨.ofName "label", "Z"⟩, hostileNote] [])
        (hcommand [hostileNote] []) (hasks _ _) (hasks _ _)
    exact ⟨probe, probe', hprobe, hprobe', hiff.mpr (.connect _ ⟨rfl, rfl⟩ ⟨rfl, rfl⟩)⟩
  · obtain ⟨probe, probe', hprobe, hprobe', hiff⟩ :=
      probe_text_eq_iff_sameRequest (hcommand [hostileNote] []) (hcommand [] [hostileNote])
        (hasks _ _) (hasks _ _)
    refine ⟨probe, probe', hprobe, hprobe', fun htext => ?_⟩
    cases hiff.mp htext with
    | connect _ hsubject _ =>
      have hsizes := congrArg TextMap.size hsubject.properties
      revert hsizes
      decide

end Command

end OntologyGraph
