import OntologyGraph.Proofs.Script.Blocks
import OntologyGraph.Script.Parse

/-!
The readers accept the grammar and nothing else. Where a thing may go on or end, as a node with or
without a block and a list of nodes do, the reader takes the longest; what may follow a statement
shows that a derivation took the longest too.
-/

namespace OntologyGraph.Script

open Grammar

/-- A character with which a statement goes on after spaces: the start of a label, or of a block
behind a label. -/
def Continues (c : Char) : Prop :=
  NameStart c ∨ c = '\x60' ∨ c = '\x7b'

/-- What is read as a reference is one by the grammar. -/
theorem node_of_readNode {cs rest : List Char} {node : NodeRef}
    (h : (readNode cs).outcome = .ok (node, rest)) : Reference cs node rest := by
  rw [outcome_readNode] at h
  split at h
  · cases h
  · next label afterLabel hlabel =>
    have hlabel := (outcome_readIdentifier_eq_ok_iff cs label afterLabel).mp hlabel
    split at h
    · cases h
      exact .bare hlabel
    · obtain ⟨⟨block, rest'⟩, hblock, heq⟩ := Except.map_eq_ok_iff.mp h
      cases heq
      have hblock := (outcome_readBlock_eq_ok_iff _ block rest).mp hblock
      exact .braced hlabel (run_skipSpaces afterLabel) hblock

/-- A node without a block is read as such unless a block follows. -/
theorem readNode_of_node {cs rest : List Char} {node : NodeRef} (h : Reference cs node rest)
    (hrest : node.block = none → Stops (· = '\x7b') (skipSpaces rest)) :
    (readNode cs).outcome = .ok (node, rest) := by
  rw [outcome_readNode]
  cases h with
  | bare hlabel =>
    rw [(outcome_readIdentifier_eq_ok_iff cs _ rest).mpr hlabel]
    simp only [outcome_readBlock_absent (hrest rfl)]
  | @braced afterLabel beforeBlock _ label block hlabel hrun hblock =>
    have hskip : skipSpaces afterLabel = beforeBlock :=
      skipSpaces_eq hrun (braced_stops (by simp [Space]) hblock)
    have hread : (readBlock (skipSpaces afterLabel)).outcome = .ok (block, rest) := by
      rw [hskip]
      exact (outcome_readBlock_eq_ok_iff beforeBlock block rest).mpr hblock
    rw [(outcome_readIdentifier_eq_ok_iff cs label afterLabel).mpr hlabel]
    simp only [hread, Except.map]

theorem outcome_readNode_absent {cs : List Char} (h : Stops Continues cs) :
    (readNode cs).outcome = .error none := by
  have hname : Stops NameStart cs := fun c hc hn => h c hc (.inl hn)
  have hquote : Stops (· = '\x60') cs := fun c hc hq => h c hc (.inr (.inl hq))
  rw [outcome_readNode, outcome_readIdentifier_absent hname hquote]

theorem nodes_of_readNodes {cs rest : List Char} {nodes : List NodeRef}
    (h : (readNodes cs).outcome = .ok (nodes, rest)) : References cs nodes rest := by
  fun_induction readNodes cs generalizing nodes rest with
  | case1 =>
    cases h
    exact .nil
  | case2 => cases h
  | case3 cs node afterNode _ hnode _ ih =>
    rw [Reading.outcome_map] at h
    obtain ⟨⟨nodes', rest'⟩, hread, heq⟩ := Except.map_eq_ok_iff.mp h
    cases heq
    exact .cons (run_skipSpaces cs) (node_of_readNode (outcome_eq_of_done hnode)) (ih hread)

theorem node_stops {P : Char → Prop} (hname : ∀ c, NameStart c → ¬ P c) (hquote : ¬ P '\x60')
    {cs rest : List Char} {node : NodeRef} (h : Reference cs node rest) : Stops P cs := by
  cases h with
  | bare hlabel => exact ident_stops hname hquote hlabel
  | braced hlabel _ _ => exact ident_stops hname hquote hlabel

theorem skipSpaces_eq_of_node {cs beforeNode rest : List Char} {node : NodeRef}
    (hrun : Run Space cs beforeNode) (h : Reference beforeNode node rest) :
    skipSpaces cs = beforeNode :=
  skipSpaces_eq hrun (node_stops not_space_of_nameStart (by simp [Space]) h)

/-- No block begins behind the spaces before a node. -/
theorem stops_brace_of_node {cs beforeNode rest : List Char} {node : NodeRef}
    (hrun : Run Space cs beforeNode) (h : Reference beforeNode node rest) :
    Stops (· = '\x7b') (skipSpaces cs) := by
  rw [skipSpaces_eq_of_node hrun h]
  refine node_stops ?_ (by simp) h
  rintro c hc rfl
  exact absurd hc (by simp [NameStart])

/-- Nor does one before more nodes, or before the end of a statement. -/
theorem nodes_stops_brace {cs rest : List Char} {nodes : List NodeRef}
    (h : References cs nodes rest) (hrest : Stops Continues (skipSpaces rest)) :
    Stops (· = '\x7b') (skipSpaces cs) := by
  cases h with
  | nil => exact fun c hc hb => hrest c hc (.inr (.inr hb))
  | cons hrun hnode _ => exact stops_brace_of_node hrun hnode

/-- References of the grammar are read as they are if no further one can begin behind them. -/
theorem readNodes_of_nodes {cs rest : List Char} {nodes : List NodeRef}
    (h : References cs nodes rest) (hrest : Stops Continues (skipSpaces rest)) :
    (readNodes cs).outcome = .ok (nodes, rest) := by
  induction h with
  | nil => rw [outcome_readNodes, outcome_readNode_absent hrest]
  | @cons cs beforeNode afterNode rest node nodes hrun hnode hnodes ih =>
    have hread : (readNode (skipSpaces cs)).outcome = .ok (node, afterNode) := by
      rw [skipSpaces_eq_of_node hrun hnode]
      exact readNode_of_node hnode fun _ => nodes_stops_brace hnodes hrest
    rw [outcome_readNodes, hread]
    simp only [ih hrest, Except.map]

theorem ofWord_eq_other {word : String} (h : word ∉ knownWords) :
    Keyword.ofWord word = .other word := by
  unfold Keyword.ofWord
  split
  · exact absurd (by decide) h
  · exact absurd (by decide) h
  · exact absurd (by decide) h
  · exact absurd (by decide) h
  · exact absurd (by decide) h
  · exact absurd (by decide) h
  · exact absurd (by decide) h
  · exact absurd (by decide) h
  · rfl

theorem ofWord_word {k : Keyword} (h : ProperKeyword k) : Keyword.ofWord k.word = k := by
  cases k with
  | other word => exact ofWord_eq_other (h word rfl)
  | _ => rfl

theorem properKeyword_ofWord (word : String) :
    ProperKeyword (.ofWord word) ∧ (Keyword.ofWord word).word = word := by
  by_cases h : word ∈ knownWords
  · simp only [knownWords, List.mem_cons, List.not_mem_nil, or_false] at h
    rcases h with rfl | rfl | rfl | rfl | rfl | rfl | rfl | rfl <;> refine ⟨?_, rfl⟩ <;>
      rintro _ ⟨⟩
  · rw [ofWord_eq_other h]
    refine ⟨?_, rfl⟩
    intro other hother
    cases hother
    exact h

private theorem any_block_eq_false_iff (nodes : List NodeRef) :
    nodes.any (·.block.isSome) = false ↔ ∀ node ∈ nodes, node.block = none := by
  simp only [List.any_eq_false, Bool.not_eq_true, Option.isSome_eq_false_iff,
    Option.isNone_iff_eq_none]

/-- The parser finds no misfit exactly in a statement of a proper shape. -/
theorem misfit?_eq_none_iff (s : Statement) : s.misfit? = none ↔ ProperShape s := by
  unfold Statement.misfit? ProperShape
  cases harity : s.keyword.arity? with
  | none =>
    have hinfo : s.keyword ≠ .info := by
      intro h
      rw [h] at harity
      cases harity
    refine ⟨fun _ => ⟨?_, fun h => absurd h hinfo⟩, fun _ => rfl⟩
    rintro n ⟨⟩
  | some expected =>
    have hblocks : (!s.keyword.allowsBlocks && s.nodes.any (·.block.isSome)) = false ↔
        (s.keyword = .info → ∀ node ∈ s.nodes, node.block = none) := by
      rw [← any_block_eq_false_iff]
      cases s.keyword <;> simp [Keyword.allowsBlocks]
    rw [← hblocks]
    by_cases hlength : s.nodes.length = expected
    · simp [hlength]
    · simp [hlength]

/-- What is read as a statement is a word and the node references behind it. -/
theorem parts_of_readStatement {cs rest : List Char} {s : Statement}
    (h : (readStatement cs).outcome = .ok (s, rest)) :
    ∃ afterWord, Word cs s.keyword.word afterWord ∧ ProperKeyword s.keyword ∧
      (readNodes afterWord).outcome = .ok (s.nodes, rest) := by
  rw [outcome_readStatement] at h
  split at h
  · cases h
  · next word afterWord hword =>
    obtain ⟨⟨nodes, rest'⟩, hnodes, heq⟩ := Except.map_eq_ok_iff.mp h
    cases heq
    obtain ⟨hproper, hspell⟩ := properKeyword_ofWord word
    have hword := (outcome_readWord_eq_ok_iff cs word afterWord).mp hword
    rw [← hspell] at hword
    exact ⟨afterWord, hword, hproper, hnodes⟩

/-- What is read as a statement without a misfit is one by the grammar. -/
theorem sentence_of_readStatement {cs rest : List Char} {s : Statement}
    (h : (readStatement cs).outcome = .ok (s, rest)) (hfit : s.misfit? = none) :
    Sentence cs s rest := by
  obtain ⟨afterWord, hword, hproper, hnodes⟩ := parts_of_readStatement h
  exact .mk hword hproper (nodes_of_readNodes hnodes) ((misfit?_eq_none_iff s).mp hfit)

/-- A statement of the grammar is read as it is if it cannot be continued. -/
theorem readStatement_of_sentence {cs rest : List Char} {s : Statement} (h : Sentence cs s rest)
    (hrest : Stops Continues (skipSpaces rest)) :
    (readStatement cs).outcome = .ok (s, rest) ∧ s.misfit? = none := by
  obtain ⟨hword, hproper, hnodes, hshape⟩ := h
  refine ⟨?_, (misfit?_eq_none_iff _).mpr hshape⟩
  rw [outcome_readStatement, (outcome_readWord_eq_ok_iff cs _ _).mpr hword]
  simp only [readNodes_of_nodes hnodes hrest, Except.map, ofWord_word hproper]

theorem readSeparator_eq_ok_iff (cs rest : List Char) :
    (readSeparator cs).outcome = .ok ((), rest) ↔ Separator cs rest := by
  constructor
  · intro h
    unfold readSeparator at h
    split at h
    · cases h
      exact .semicolon
    · cases h
      exact .lineFeed
    · cases h
      exact .carriageReturn
    · cases h
  · intro h
    cases h <;> rfl

/-- A separator ends the spaces behind a statement, and nothing of a statement begins with one. -/
theorem separator_stops {cs rest : List Char} (h : Separator cs rest) :
    Stops Space cs ∧ Stops Continues cs := by
  cases h <;> exact ⟨stops_cons.mpr (by simp [Space]),
    stops_cons.mpr (by simp [Continues, NameStart])⟩

theorem sentence_stops {P : Char → Prop} (hP : ∀ c, NameStart c → ¬ P c) {cs rest : List Char}
    {s : Statement} (h : Sentence cs s rest) : Stops P cs := by
  obtain ⟨hword, -, -, -⟩ := h
  exact word_stops hP hword

theorem sentences_stops {cs : List Char} {script : Script} (h : Sentences cs script) :
    Stops Filler cs := by
  cases h with
  | nil => exact stops_nil
  | last hs _ => exact sentence_stops not_filler_of_nameStart hs
  | cons hs _ _ _ _ => exact sentence_stops not_filler_of_nameStart hs

private theorem sentence_ne_nil {cs rest : List Char} {s : Statement} (h : Sentence cs s rest) :
    cs ≠ [] := by
  obtain ⟨hword, -, -, -⟩ := h
  obtain ⟨c, ds, rfl, -⟩ := word_cons hword
  exact List.cons_ne_nil c ds

/-- What is read as a script is one by the grammar. -/
theorem sentences_of_readStatements {cs : List Char} {script : Script}
    (h : readStatements cs = .ok script) : Sentences cs script := by
  fun_induction readStatements cs generalizing script with
  | case1 =>
    cases h
    exact .nil
  | case2 => cases h
  | case3 => cases h
  | case4 => cases h
  | case5 cs _ s rest _ hs hfit hend =>
    cases h
    have hrun := run_skipSpaces rest
    rw [hend] at hrun
    exact .last (sentence_of_readStatement (outcome_eq_of_done hs) hfit) hrun
  | case6 cs _ s rest _ hs hfit _ _ more _ hsep _ ih =>
    obtain ⟨script', hread, rfl⟩ := Except.map_eq_ok_iff.mp h
    have hsep := (readSeparator_eq_ok_iff _ more).mp (outcome_eq_of_done hsep)
    exact .cons (sentence_of_readStatement (outcome_eq_of_done hs) hfit) (run_skipSpaces rest) hsep
      (run_skipSeparators more) (ih hread)
  | case7 => cases h

/-- A statement before a separator is read, and then the text behind the separator. -/
theorem readStatements_of_sentence {cs rest sep more : List Char} {s : Statement}
    (h : Sentence cs s rest) (hrun : Run Space rest sep) (hsep : Separator sep more) :
    readStatements cs = (readStatements (skipSeparators more)).map (s :: ·) := by
  obtain ⟨hspace, hcontinues⟩ := separator_stops hsep
  have hskip : skipSpaces rest = sep := skipSpaces_eq hrun hspace
  have hne : sep ≠ [] := by
    rintro rfl
    cases hsep
  obtain ⟨hread, hfit⟩ := readStatement_of_sentence h (by rw [hskip]; exact hcontinues)
  have hreadSep : (readSeparator (skipSpaces rest)).outcome = .ok ((), more) := by
    rw [hskip]
    exact (readSeparator_eq_ok_iff sep more).mpr hsep
  rw [readStatements_eq, if_neg (sentence_ne_nil h), hread]
  simp only [hfit, hreadSep, hskip, hne, ↓reduceIte]

/-- A script of the grammar is read as it is, by induction on its derivation. -/
theorem readStatements_of_sentences {cs : List Char} {script : Script}
    (h : Sentences cs script) : readStatements cs = .ok script := by
  induction h with
  | nil => rw [readStatements_eq, if_pos rfl]
  | @last cs rest s hs hrun =>
    have hskip : skipSpaces rest = [] := skipSpaces_eq hrun stops_nil
    obtain ⟨hread, hfit⟩ := readStatement_of_sentence hs (by rw [hskip]; exact stops_nil)
    rw [readStatements_eq, if_neg (sentence_ne_nil hs), hread]
    simp only [hfit, hskip, ↓reduceIte]
  | @cons cs rest sep more next s script hs hrun hsep hfill hrest ih =>
    have hnext : skipSeparators more = next := skipSeparators_eq hfill (sentences_stops hrest)
    rw [readStatements_of_sentence hs hrun hsep, hnext, ih]
    rfl

/-- Reading a whole text succeeds exactly with what the grammar derives from it. -/
theorem readScript_eq_ok_iff (cs : List Char) (script : Script) :
    readScript cs = .ok script ↔ Spells cs script := by
  constructor
  · intro h
    exact .mk (run_skipSeparators cs) (sentences_of_readStatements h)
  · rintro ⟨hrun, hscript⟩
    unfold readScript
    rw [skipSeparators_eq hrun (sentences_stops hscript)]
    exact readStatements_of_sentences hscript

theorem parse_eq_ok_iff_readScript (source : String) (script : Script) :
    parse source = .ok script ↔ readScript source.toList = .ok script := by
  unfold parse
  cases readScript source.toList <;> simp [Except.mapError]

/-- A text parses to a script exactly when the grammar derives the script from it: no text that has
a derivation is refused, none without one is accepted, and no text has two meanings. -/
theorem parse_accepts_exactly_grammar (source : String) (script : Script) :
    parse source = .ok script ↔ Spells source.toList script := by
  rw [parse_eq_ok_iff_readScript]
  exact readScript_eq_ok_iff source.toList script

end OntologyGraph.Script
