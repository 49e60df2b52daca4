import OntologyGraph.Proofs.Command.Outline

/-!
Merges of a subclass edge under guards, as texts. Such a text names both classes by the blocks of
their patterns and lists the guards behind `WHERE`. It tells the blocks and the guards, so two
merges with one text are about the same nodes and under the same guards.
-/

namespace OntologyGraph

open Schema Script Outline

/-- A condition on the ends `s` and `t` of an edge to be merged. -/
inductive Guard where
  /-- No path over subclass edges, not even the empty one, leads from `t` to `s`. -/
  | noPathBack
  /-- No subclass edge leads from `s` to a class. -/
  | noParent

def Guard.text : Guard → String
  | .noPathBack => "NOT (t)-[:SUBCLASS_OF*0..]->(s)"
  | .noParent => "NOT (s)-[:SUBCLASS_OF]->(:OntologyNode)"

def endText (name : String) (node : NodePattern) : String :=
  "(" ++ name ++ ":OntologyNode " ++ Block.text node.pairs ++ ")"

def matchText (subject target : NodePattern) : String :=
  "MATCH " ++ endText "s" subject ++ ", " ++ endText "t" target

/-- A merge of the edge from one class to another where all guards hold. -/
structure GuardedMerge where
  guards : List Guard
  subject : NodePattern
  target : NodePattern

namespace GuardedMerge

/-- What a text says of guards. It says nothing if there are none. -/
def condition : List Guard → String
  | [] => ""
  | guard :: guards => " WHERE " ++ " AND ".intercalate ((guard :: guards).map Guard.text)

def text (merge : GuardedMerge) : String :=
  matchText merge.subject merge.target ++ condition merge.guards ++
    " MERGE (s)-[:SUBCLASS_OF]->(t) RETURN id(s) AS subject_id"

end GuardedMerge

/-- A block can be told from what stands behind it. -/
theorem block_append_inj {b b' : Block} (hb : Block.WellFormed b) (hb' : Block.WellFormed b')
    {rest rest' : List Char} (h : Block.chars b ++ rest = Block.chars b' ++ rest') :
    b = b' ∧ rest = rest' := by
  have hread := (outcome_readBlock_eq_ok_iff _ b rest).mpr (braced_of_chars hb rest)
  rw [h, (outcome_readBlock_eq_ok_iff _ b' rest').mpr (braced_of_chars hb' rest')] at hread
  cases hread
  exact ⟨rfl, rfl⟩

private theorem endText_append_inj {name : String} {node node' : NodePattern}
    {rest rest' : List Char}
    (h : (endText name node).toList ++ rest = (endText name node').toList ++ rest') :
    node.pairs = node'.pairs ∧ rest = rest' := by
  simp only [endText, String.toList_append, Block.text_toList, List.append_assoc,
    List.append_cancel_left_eq] at h
  obtain ⟨hpairs, hrest⟩ := block_append_inj node.wellFormed_pairs node'.wellFormed_pairs h
  exact ⟨hpairs, List.append_cancel_left hrest⟩

/-- The text that matches two classes tells both blocks, wherever it ends. -/
theorem matchText_append_inj {subject subject' target target' : NodePattern}
    {rest rest' : List Char}
    (h : (matchText subject target).toList ++ rest = (matchText subject' target').toList ++ rest') :
    subject.pairs = subject'.pairs ∧ target.pairs = target'.pairs ∧ rest = rest' := by
  simp only [matchText, String.toList_append, List.append_assoc, List.append_cancel_left_eq] at h
  obtain ⟨hsubject, hcomma⟩ := endText_append_inj h
  obtain ⟨htarget, hrest⟩ := endText_append_inj (List.append_cancel_left hcomma)
  exact ⟨hsubject, htarget, hrest⟩

/-- The two guards differ in the node that they begin with. -/
private theorem Guard.text_append_inj {guard guard' : Guard} {rest rest' : List Char}
    (h : guard.text.toList ++ rest = guard'.text.toList ++ rest') :
    guard = guard' ∧ rest = rest' := by
  have hnode := congrArg (·[5]?) h
  cases guard <;> cases guard'
  · exact ⟨rfl, List.append_cancel_left h⟩
  · exact absurd hnode (by simp [Guard.text])
  · exact absurd hnode (by simp [Guard.text])
  · exact ⟨rfl, List.append_cancel_left h⟩

namespace GuardedMerge

/-- All guards of a text, each behind a word. -/
private theorem conjunction_toList (guard : Guard) (guards : List Guard) :
    (" AND ".intercalate ((guard :: guards).map Guard.text)).toList =
      guard.text.toList ++ guards.flatMap fun guard => " AND ".toList ++ guard.text.toList := by
  induction guards generalizing guard with
  | nil => simp
  | cons next guards ih =>
    rw [List.map_cons, List.map_cons, String.intercalate_cons_cons, String.toList_append,
      String.toList_append, ← List.map_cons, ih, List.flatMap_cons]
    simp only [List.append_assoc]

private theorem conjunction_inj {guards guards' : List Guard}
    (h : (guards.flatMap fun guard => " AND ".toList ++ guard.text.toList) =
      guards'.flatMap fun guard => " AND ".toList ++ guard.text.toList) : guards = guards' := by
  induction guards generalizing guards' with
  | nil =>
    cases guards' with
    | nil => rfl
    | cons guard' guards' => simp at h
  | cons guard guards ih =>
    cases guards' with
    | nil => simp at h
    | cons guard' guards' =>
      rw [List.flatMap_cons, List.flatMap_cons, List.append_assoc, List.append_assoc] at h
      obtain ⟨rfl, hrest⟩ := Guard.text_append_inj (List.append_cancel_left h)
      rw [ih hrest]

/-- The condition of a guarded merge can be taken apart: it determines the guards and their order.
-/
theorem condition_inj {guards guards' : List Guard} (h : condition guards = condition guards') :
    guards = guards' := by
  have hchars := congrArg String.toList h
  cases guards with
  | nil =>
    cases guards' with
    | nil => rfl
    | cons guard' guards' => simp [condition] at hchars
  | cons guard guards =>
    cases guards' with
    | nil => simp [condition] at hchars
    | cons guard' guards' =>
      rw [condition, condition, String.toList_append, String.toList_append, conjunction_toList,
        conjunction_toList] at hchars
      obtain ⟨rfl, hrest⟩ := Guard.text_append_inj (List.append_cancel_left hchars)
      rw [conjunction_inj hrest]

/-- The text of a merge tells its guards and the blocks of its ends. -/
theorem text_inj {merge merge' : GuardedMerge} (h : merge.text = merge'.text) :
    merge.guards = merge'.guards ∧ merge.subject.pairs = merge'.subject.pairs ∧
      merge.target.pairs = merge'.target.pairs := by
  have hchars := congrArg String.toList h
  simp only [text, String.toList_append, List.append_assoc] at hchars
  obtain ⟨hsubject, htarget, hrest⟩ := matchText_append_inj hchars
  have hcondition := String.toList_inj.mp (List.append_cancel_right hrest)
  exact ⟨condition_inj hcondition, hsubject, htarget⟩

end GuardedMerge

private theorem matching_classLabel (node : NodePattern) (name : String) :
    node.matching name classLabel = endText name node := by
  have hlabel : ":OntologyNode " = ":" ++ classLabel ++ " " := by decide
  have hblock : Block.text node.pairs = node.block := rfl
  rw [endText, hlabel, hblock]
  simp only [NodePattern.matching, String.append_assoc]

/-- A subclass edge is looked for between two class nodes. -/
theorem ends_setSubclass (subject target : NodePattern) :
    Connection.setSubclass.ends subject target = matchText subject target := by
  have htarget : Connection.setSubclass.targetLabel = classLabel := rfl
  rw [Connection.ends, matchText, htarget, matching_classLabel, matching_classLabel]

def edgeText (subject target : NodePattern) : String :=
  matchText subject target ++ " OPTIONAL MATCH (s)-[e:SUBCLASS_OF]->(t) " ++
    "RETURN id(s) AS subject_id, id(t) AS target_id, count(e) > 0 AS connected"

/-- The probe of a subclass edge is the text asking for that edge, without parameters. -/
theorem probe_setSubclass (subject target : NodePattern) :
    Connection.setSubclass.probe subject target = ⟨edgeText subject target, .empty⟩ := by
  have hedge : " OPTIONAL MATCH (s)-[e:" ++ Connection.setSubclass.edge ++ "]->(t) " =
      " OPTIONAL MATCH (s)-[e:SUBCLASS_OF]->(t) " := by decide
  rw [Connection.probe, edgeText, ends_setSubclass, ← hedge]
  simp only [String.append_assoc]

/-- The merge that sets a subclass edge. Where one parent only is allowed, it asks for more. -/
def Subclass.merge (single : Bool) (subject target : NodePattern) : GuardedMerge where
  guards := if single then [.noPathBack, .noParent] else [.noPathBack]
  subject := subject
  target := target

/-- The merge of a subclass edge is guarded against a path back under every setting. -/
theorem Subclass.noPathBack_mem_guards (single : Bool) (subject target : NodePattern) :
    .noPathBack ∈ (Subclass.merge single subject target).guards := by
  cases single <;> simp [Subclass.merge]

/-- Under single inheritance the merge of a subclass edge is guarded against a second parent. -/
theorem Subclass.noParent_mem_guards (subject target : NodePattern) :
    .noParent ∈ (Subclass.merge true subject target).guards := by
  simp [Subclass.merge]

/-- The guard texts of the write are those of the two guards, the second only under single
inheritance. -/
theorem Guard.text_mem_guards_iff {guard : Guard} {single : Bool} :
    guard.text ∈ Subclass.guards single ↔
      guard = .noPathBack ∨ guard = .noParent ∧ single = true := by
  cases single <;> cases guard <;>
    simp [Subclass.guards, Guard.text, Subclass.noCycleGuard, Subclass.noParentGuard]

/-- The guards of the merge are those whose texts stand in the write. -/
theorem Subclass.mem_guards_iff {single : Bool} {subject target : NodePattern} {guard : Guard} :
    guard ∈ (Subclass.merge single subject target).guards ↔
      guard.text ∈ Subclass.guards single := by
  rw [Guard.text_mem_guards_iff]
  cases single <;> simp [Subclass.merge]

/-- The text the handler sends is the guarded merge: both ends matched, the guards joined by
`AND`, and the edge merged behind them. -/
theorem Subclass.write_text (single : Bool) (subject target : NodePattern) :
    (Subclass.write single subject target).text =
      (Subclass.merge single subject target).text := by
  have hguards : " WHERE " ++ " AND ".intercalate (Subclass.guards single) =
      GuardedMerge.condition (Subclass.merge single subject target).guards := by
    cases single <;> rfl
  have hmerge : " MERGE (s)-[:" ++ subclassEdge ++ "]->(t) RETURN id(s) AS subject_id" =
      " MERGE (s)-[:SUBCLASS_OF]->(t) RETURN id(s) AS subject_id" := by decide
  rw [GuardedMerge.text, ← hguards, ← hmerge]
  simp only [Subclass.write, ends_setSubclass, Subclass.merge, String.append_assoc]

private theorem Outline.occursAfter_append {first second cs : List Char}
    (h : occursAfter first second cs = true) (before : List Char) :
    occursAfter first second (before ++ cs) = true := by
  induction before with
  | nil => exact h
  | cons c before ih => rw [List.cons_append, occursAfter, ih, Bool.or_true]

private theorem Guard.outlines (guard : Guard) : Outlines guard.text guard.text.toList := by
  apply Outlines.plain_toList
  cases guard <;> decide

namespace GuardedMerge

private theorem outlines_conjunction (guard : Guard) (guards : List Guard) :
    ∃ trace, Outlines (" AND ".intercalate ((guard :: guards).map Guard.text)) trace := by
  induction guards generalizing guard with
  | nil => exact ⟨_, guard.outlines⟩
  | cons next guards ih =>
    obtain ⟨trace, hrest⟩ := ih next
    have hand : Outlines " AND " " AND ".toList := .plain_toList (by decide)
    rw [List.map_cons, List.map_cons, String.intercalate_cons_cons, ← List.map_cons]
    exact ⟨_, (guard.outlines.append hand).append hrest⟩

private theorem outlines_condition (guards : List Guard) :
    ∃ trace, Outlines (condition guards) trace := by
  cases guards with
  | nil => exact ⟨_, .plain_toList rfl⟩
  | cons guard guards =>
    obtain ⟨trace, htrace⟩ := outlines_conjunction guard guards
    have hwhere : Outlines " WHERE " " WHERE ".toList := .plain_toList (by decide)
    exact ⟨_, hwhere.append htrace⟩

private theorem outlines_matchText (subject target : NodePattern) :
    ∃ trace, Outlines (matchText subject target) trace := by
  have hsubject := outlines_classNode subject (by decide : "s".toList.all isPlain = true)
  have htarget := outlines_classNode target (by decide : "t".toList.all isPlain = true)
  rw [matching_classLabel] at hsubject htarget
  exact ⟨_, ((outlines_match.append hsubject).append outlines_comma).append htarget⟩

/-- Whatever its guards, a merge is taken for a query that can make the edge. -/
theorem canMake {merge : GuardedMerge} {query : Store.Query} (h : query.text = merge.text) :
    query.canMake subclassEdge = true := by
  obtain ⟨trace, hmatch⟩ := outlines_matchText merge.subject merge.target
  obtain ⟨trace', hcondition⟩ := outlines_condition merge.guards
  have hmerge : Outlines " MERGE (s)-[:SUBCLASS_OF]->(t) RETURN id(s) AS subject_id" _ :=
    .plain_toList (by decide)
  have htext := (hmatch.append hcondition).append hmerge
  rw [← text, ← h] at htext
  have hmakes := occursAfter_append (by decide : occursAfter "MERGE".toList subclassEdge.toList
    " MERGE (s)-[:SUBCLASS_OF]->(t) RETURN id(s) AS subject_id".toList = true) (trace ++ trace')
  rw [htext.canMake_eq, outlineMakes, hmakes, Bool.true_or, Bool.true_or]

end GuardedMerge

end OntologyGraph
