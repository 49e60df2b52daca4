import OntologyGraph.Proofs.Command.GuardedText

/-!
The queries that commands send, and which of them can make a subclass edge: only the guarded
write can, whatever patterns and labels are spliced in.
-/

namespace OntologyGraph

open Schema Store Outline

def lookupTexts : List String :=
  [classQuery, parentQuery, propertyQuery, outgoingQuery, incomingQuery, Subclass.parentsQuery]

namespace Command

/-- The read that a command begins with, before it knows whether to write. -/
def probe? : Command → Option Query
  | .define definition node => some (definition.probe node)
  | .connect connection subject target => some (connection.probe subject target)
  | .setRelationship subject relationship target =>
    some (RelationshipSetting.probe subject relationship target)
  | .info _ => none

/-- The reads of a command that leave the graph alone: its probe, and lookups of classes. -/
inductive Inspects (command : Command) : Query → Prop where
  | probe {query : Query} : command.probe? = some query → Inspects command query
  | lookup {text : String} (label : String) : text ∈ lookupTexts →
      Inspects command (aboutClass text label)

/-- The write that a command can execute. That of a subclass edge is a read with an answer, and is
not among them. -/
inductive Executes : Command → Query → Prop where
  | define (definition : Definition) (node : NodePattern) (stamp : Stamp) :
      Executes (.define definition node) (definition.write node stamp)
  | connect {connection : Connection} (subject target : NodePattern) :
      connection ≠ .setSubclass →
      Executes (.connect connection subject target) (connection.write subject target)
  | setRelationship (subject relationship target : NodePattern) :
      Executes (.setRelationship subject relationship target)
        (RelationshipSetting.write subject relationship target)

/-- The guarded write of a command, which only a subclass edge has. -/
def guarded? (settings : OntologySettings) : Command → Option Query
  | .connect .setSubclass subject target =>
    some (Subclass.write settings.singleInheritance subject target)
  | _ => none

end Command

-- Texts are evaluated character by character from here on.
set_option maxRecDepth 8000

private theorem outlines_definedNode (definition : Definition) (node : NodePattern) :
    Outlines (node.matching "o" definition.graphLabel) (nodeTrace "o" definition.graphLabel) := by
  apply outlines_matching node (by decide)
  cases definition <;> decide

private theorem outlines_targetNode (connection : Connection) (node : NodePattern) :
    Outlines (node.matching "t" connection.targetLabel)
      (nodeTrace "t" connection.targetLabel) := by
  apply outlines_matching node (by decide)
  cases connection <;> decide

def endsTrace (connection : Connection) : List Char :=
  "MATCH ".toList ++ nodeTrace "s" classLabel ++ ", ".toList ++
    nodeTrace "t" connection.targetLabel

private theorem outlines_ends (connection : Connection) (subject target : NodePattern) :
    Outlines (connection.ends subject target) (endsTrace connection) := by
  have hsubject := outlines_classNode subject (by decide : "s".toList.all isPlain = true)
  have htarget := outlines_targetNode connection target
  exact ((outlines_match.append hsubject).append outlines_comma).append htarget

def relationshipEndsTrace : List Char :=
  "MATCH ".toList ++ nodeTrace "s" classLabel ++ ", ".toList ++ nodeTrace "r" relationshipLabel ++
    ", ".toList ++ nodeTrace "t" classLabel

private theorem outlines_relationshipEnds (subject relationship target : NodePattern) :
    Outlines (RelationshipSetting.ends subject relationship target) relationshipEndsTrace := by
  have hsubject := outlines_classNode subject (by decide : "s".toList.all isPlain = true)
  have hrelationship : Outlines (relationship.matching "r" relationshipLabel)
      (nodeTrace "r" relationshipLabel) :=
    outlines_matching relationship (by decide) (by decide)
  have htarget := outlines_classNode target (by decide : "t".toList.all isPlain = true)
  have hfirst := (outlines_match.append hsubject).append outlines_comma
  exact ((hfirst.append hrelationship).append outlines_comma).append htarget

/-- The guarded write makes the edge, with either choice of guards. -/
theorem subclassWrite_canMake (single : Bool) (subject target : NodePattern) :
    (Subclass.write single subject target).canMake subclassEdge = true :=
  GuardedMerge.canMake (Subclass.write_text single subject target)

/-- The probe of a definition cannot make a subclass edge. -/
theorem definitionProbe_canMake (definition : Definition) (node : NodePattern) :
    (definition.probe node).canMake subclassEdge = false := by
  have hnode := outlines_match.append (outlines_definedNode definition node)
  apply hnode.canMake_of_pieces [_] rfl (by decide)
  cases definition <;> decide

/-- The probe of a connection cannot make a subclass edge, not even that of a subclass edge. -/
theorem connectionProbe_canMake (connection : Connection) (subject target : NodePattern) :
    (connection.probe subject target).canMake subclassEdge = false := by
  have hends := outlines_ends connection subject target
  cases connection <;> exact hends.canMake_of_pieces [_, _, _, _] rfl (by decide) (by decide)

/-- Property edges are made by their own write, and never a subclass edge. -/
theorem connectionWrite_canMake {connection : Connection} (hproperty : connection ≠ .setSubclass)
    (subject target : NodePattern) :
    (connection.write subject target).canMake subclassEdge = false := by
  have hends := outlines_ends connection subject target
  cases connection
  case setSubclass => exact absurd rfl hproperty
  all_goals exact hends.canMake_of_pieces [_, _, _] rfl (by decide) (by decide)

theorem relationshipProbe_canMake (subject relationship target : NodePattern) :
    (RelationshipSetting.probe subject relationship target).canMake subclassEdge = false :=
  (outlines_relationshipEnds subject relationship target).canMake_of_pieces
    [_, _, _, _, _, _, _] rfl (by decide) (by decide)

theorem relationshipWrite_canMake (subject relationship target : NodePattern) :
    (RelationshipSetting.write subject relationship target).canMake subclassEdge = false :=
  (outlines_relationshipEnds subject relationship target).canMake_of_pieces
    [_, _, _, _, _] rfl (by decide) (by decide)

private theorem toList_append {s s' : String} {cs cs' : List Char} (h : s.toList = cs)
    (h' : s'.toList = cs') : (s ++ s').toList = cs ++ cs' := by
  rw [String.toList_append, h, h']

/-- The label of a definition's node stands in a map, so its text is read as a whole. -/
theorem definitionWrite_canMake (definition : Definition) (node : NodePattern) (stamp : Stamp) :
    (definition.write node stamp).canMake subclassEdge = false := by
  have hchars : (definition.write node stamp).text.toList = _ :=
    toList_append (toList_append (toList_append (toList_append String.toList_ofList rfl)
      String.toList_ofList) String.toList_ofList) String.toList_ofList
  rw [canMake_of_toList hchars]
  cases definition <;> decide

/-- No lookup of the walk can make a subclass edge. -/
theorem lookup_canMake {text : String} (htext : text ∈ lookupTexts) (label : String) :
    (aboutClass text label).canMake subclassEdge = false := by
  have hclass : classQuery.toList = _ := String.toList_ofList
  have hparent : parentQuery.toList = _ := toList_append String.toList_ofList String.toList_ofList
  have hproperty : propertyQuery.toList = _ :=
    toList_append (toList_append String.toList_ofList String.toList_ofList) String.toList_ofList
  have houtgoing : outgoingQuery.toList = _ :=
    toList_append (toList_append String.toList_ofList String.toList_ofList) String.toList_ofList
  have hincoming : incomingQuery.toList = _ :=
    toList_append (toList_append String.toList_ofList String.toList_ofList) String.toList_ofList
  have hparents : Subclass.parentsQuery.toList = _ :=
    toList_append String.toList_ofList String.toList_ofList
  simp only [lookupTexts, List.mem_cons, List.not_mem_nil, or_false] at htext
  rcases htext with rfl | rfl | rfl | rfl | rfl | rfl
  · rw [canMake_of_toList (q := aboutClass classQuery label) hclass]
    decide
  · rw [canMake_of_toList (q := aboutClass parentQuery label) hparent]
    decide
  · rw [canMake_of_toList (q := aboutClass propertyQuery label) hproperty]
    decide
  · rw [canMake_of_toList (q := aboutClass outgoingQuery label) houtgoing]
    decide
  · rw [canMake_of_toList (q := aboutClass incomingQuery label) hincoming]
    decide
  · rw [canMake_of_toList (q := aboutClass Subclass.parentsQuery label) hparents]
    decide

namespace Command

/-- Nothing a command inspects the store with can make a subclass edge. -/
theorem Inspects.canMake {command : Command} {q : Query} (h : command.Inspects q) :
    q.canMake subclassEdge = false := by
  cases h with
  | probe hprobe =>
    cases command with
    | define definition node =>
      cases hprobe
      exact definitionProbe_canMake definition node
    | connect connection subject target =>
      cases hprobe
      exact connectionProbe_canMake connection subject target
    | setRelationship subject relationship target =>
      cases hprobe
      exact relationshipProbe_canMake subject relationship target
    | info label => cases hprobe
  | lookup label htext => exact lookup_canMake htext label

/-- No plain write can make a subclass edge: those are left to the guarded one. -/
theorem Executes.canMake {command : Command} {q : Query} (h : command.Executes q) :
    q.canMake subclassEdge = false := by
  cases h with
  | define definition node stamp => exact definitionWrite_canMake definition node stamp
  | connect subject target hproperty => exact connectionWrite_canMake hproperty subject target
  | setRelationship subject relationship target =>
    exact relationshipWrite_canMake subject relationship target

/-- Only a subclass connection has a guarded write, and it is the one made for its ends. -/
theorem guarded?_eq_some {settings : OntologySettings} {command : Command} {write : Query}
    (h : command.guarded? settings = some write) :
    ∃ subject target, command = .connect .setSubclass subject target ∧
      write = Subclass.write settings.singleInheritance subject target := by
  unfold guarded? at h
  split at h
  · cases h
    exact ⟨_, _, rfl, rfl⟩
  · cases h

/-- The guarded write can make a subclass edge. -/
theorem guarded?_canMake {settings : OntologySettings} {command : Command} {write : Query}
    (h : command.guarded? settings = some write) : write.canMake subclassEdge = true := by
  obtain ⟨subject, target, -, rfl⟩ := guarded?_eq_some h
  exact subclassWrite_canMake _ subject target

/-- A command that writes plainly has no guarded write. -/
theorem guarded?_of_executes (settings : OntologySettings) {command : Command} {write : Query}
    (h : command.Executes write) :
    command.guarded? settings = none := by
  cases h with
  | define definition node stamp => rfl
  | @connect connection subject target hproperty =>
    cases connection with
    | requireProperty => rfl
    | setProperty => rfl
    | setSubclass => exact absurd rfl hproperty
  | setRelationship subject relationship target => rfl

end Command

end OntologyGraph
