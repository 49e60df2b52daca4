import OntologyGraph.Command.Basic
import OntologyGraph.Proofs.Maps.Entries
import OntologyGraph.Proofs.Script.RoundTrip

/-!
Blocks of property maps, as they are spliced into queries and statements. No key, label or value
ends its quoting early or takes in the text behind it: a block is read back up to its own brace
whatever follows, and it holds the map with every value as its text.
-/

namespace OntologyGraph.Script

open Grammar

/-- The block made of a map gives its values back as texts. -/
theorem toProperties_ofProperties {m : PropertyMap} (h : m.Unique) :
    (Block.ofProperties m).toProperties = m.stringified := by
  have hentries : (Block.ofProperties m).map (fun pair => (pair.key.name, .text pair.value)) =
      m.stringified.entries := List.map_map
  rw [Block.toProperties, hentries]
  exact TextMap.ofList_entries (h.mapValues _)

/-- What a reader takes is what the grammar has, so the reader's bound comes for free. -/
theorem readBlock_blockText (m : PropertyMap) (rest : String) :
    ∃ shorter, readBlock (blockText m ++ rest).toList =
      .done (Block.ofProperties m) rest.toList shorter := by
  have hchars : (blockText m ++ rest).toList =
      Block.chars (Block.ofProperties m) ++ rest.toList := by
    rw [String.toList_append, blockText, Block.text_toList]
  have hread := (outcome_readBlock_eq_ok_iff _ _ rest.toList).mpr
    (braced_of_chars (wellFormed_ofProperties m) rest.toList)
  rw [← hchars] at hread
  exact done_of_outcome_eq hread

def definingStatement (label : String) (m : PropertyMap) : Statement where
  keyword := .node
  nodes := [⟨.ofName label, if m.isEmpty then none else some (.ofProperties m)⟩]

theorem wellFormed_definingStatement (label : String) (m : PropertyMap) :
    (definingStatement label m).WellFormed where
  keyword _ h := nomatch h
  arity n h := Option.some.inj h
  noBlock h := nomatch h
  nodes node hnode := by
    rw [List.mem_singleton.mp hnode]
    refine ⟨wellFormed_ofName label, ?_⟩
    intro b hb
    split at hb
    · cases hb
    · cases hb
      exact wellFormed_ofProperties m

theorem print_definingStatement (label : String) (m : PropertyMap) :
    print [definingStatement label m] = "node " ++ patternText label m := by
  apply String.toList_inj.mp
  rw [print, String.toList_ofList, String.toList_append, patternText]
  by_cases hempty : m.isEmpty = true
  · simp [statementsChars, Statement.chars, definingStatement, NodeRef.chars, hempty, Keyword.word,
      Identifier.text]
  · simp [statementsChars, Statement.chars, definingStatement, NodeRef.chars, hempty, Keyword.word,
      Identifier.text, blockText, Block.text]

theorem parseStatement_patternText (label : String) (m : PropertyMap) :
    parseStatement ("node " ++ patternText label m) = .ok (definingStatement label m) := by
  have hwell : WellFormed [definingStatement label m] :=
    List.forall_mem_singleton.mpr (wellFormed_definingStatement label m)
  have hparse : parse ("node " ++ patternText label m) = .ok [definingStatement label m] := by
    rw [← print_definingStatement, parse_eq_ok_iff_readScript, readScript_eq_ok_iff]
    exact spells_print hwell
  rw [parseStatement, hparse]

/-- The statement made of a label and a map defines that node. -/
theorem ofStatement_definingStatement (label : String) {m : PropertyMap} (h : m.Unique) :
    Command.ofStatement (definingStatement label m) =
      .ok (.define .node ⟨label, m.stringified⟩) := by
  have hproperties : (NodePattern.ofRef
      ⟨.ofName label, if m.isEmpty then none else some (.ofProperties m)⟩).properties =
        m.stringified := by
    by_cases hempty : m.isEmpty = true
    · obtain ⟨entries⟩ := m
      obtain rfl : entries = [] := List.isEmpty_iff.mp hempty
      rfl
    · rw [if_neg hempty]
      exact toProperties_ofProperties h
  rw [← hproperties]
  rfl

theorem stringified_of_texts {m : PropertyMap} (h : ∀ e ∈ m.entries, ∃ s, e.2 = .text s) :
    m.stringified = m := by
  obtain ⟨entries⟩ := m
  apply congrArg TextMap.mk
  refine (List.map_congr_left ?_).trans (List.map_id entries)
  rintro ⟨key, value⟩ hmem
  obtain ⟨s, rfl⟩ := h _ hmem
  rfl

/-- What the text of a map says, wherever it is put. -/
structure Splices (m : PropertyMap) : Prop where
  /-- The block ends at its own brace, before any text at all. -/
  block : ∀ rest : String, ∃ block shorter,
    readBlock (blockText m ++ rest).toList = .done block rest.toList shorter ∧
      block.toProperties = m.stringified
  /-- Behind a label of any kind it makes up a statement. -/
  statement : ∀ label, ∃ statement,
    parseStatement ("node " ++ patternText label m) = .ok statement ∧
      Command.ofStatement statement = .ok (.define .node ⟨label, m.stringified⟩)
  /-- Texts stay what they are. -/
  texts : (∀ e ∈ m.entries, ∃ s, e.2 = .text s) → m.stringified = m

/-- Whatever keys and values a map holds, its block is read back from before any text, and a
pattern with it defines the class of its label with these properties. -/
theorem splices_of_unique {m : PropertyMap} (h : m.Unique) : Splices m where
  block rest := by
    obtain ⟨shorter, hread⟩ := readBlock_blockText m rest
    exact ⟨_, shorter, hread, toProperties_ofProperties h⟩
  statement label :=
    ⟨_, parseStatement_patternText label m, ofStatement_definingStatement label h⟩
  texts := stringified_of_texts

/-- Keys and values that hold what blocks are quoted and closed by. -/
def hostileProperties : PropertyMap :=
  ⟨[("", .text "\"\x7d) RETURN 1 //"), ("\x60: \"", .list [.text "\n", .null]),
    ("plain", .map ⟨[("a.b", .bool true)]⟩), ("\\", .text "\x00\\")]⟩

theorem splices_hostileProperties : hostileProperties.Unique ∧ Splices hostileProperties := by
  have hunique : hostileProperties.Unique := by
    unfold TextMap.Unique
    decide
  exact ⟨hunique, splices_of_unique hunique⟩

end OntologyGraph.Script
