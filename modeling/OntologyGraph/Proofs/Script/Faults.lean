import OntologyGraph.Proofs.Script.Joining

/-!
What a syntax fault says. Its line and column are those of one place in the text, and its message
is true of that place: the text ends there, a character stands there that does not fit, or a
statement begins there that is not what its keyword allows.
-/

namespace OntologyGraph.Script

open Grammar

/-- The line and column of the place that is `k` characters into a text. -/
structure PlaceAt (source : List Char) (k : Nat) (position : Position) : Prop where
  inside : k ≤ source.length
  line : position.line = (source.take k).count '\n' + 1
  column : ∃ before here, source.take k = before ++ here ∧
    (before = [] ∨ ∃ lines, before = lines ++ ['\n']) ∧ '\n' ∉ here ∧
    position.column = here.length + 1

/-- More text without a line feed moves a place to the right. -/
theorem after_append (before : List Char) {here : List Char} (h : '\n' ∉ here) :
    Position.after (before ++ here) =
      { line := (Position.after before).line
        column := (Position.after before).column + here.length } := by
  have hcount : here.count '\n' = 0 := List.count_eq_zero_of_not_mem h
  have hcolumn : (before ++ here).reverse.takeWhile (· ≠ '\n') =
      here.reverse ++ before.reverse.takeWhile (· ≠ '\n') := by
    rw [List.reverse_append]
    apply List.takeWhile_append_of_pos
    intro c hc
    refine decide_eq_true ?_
    rintro rfl
    exact h (List.mem_reverse.mp hc)
  have hlength : ((before ++ here).reverse.takeWhile (· ≠ '\n')).length + 1 =
      (before.reverse.takeWhile (· ≠ '\n')).length + 1 + here.length := by
    rw [hcolumn, List.length_append, List.length_reverse]
    omega
  unfold Position.after
  rw [hlength, List.count_append, hcount, Nat.add_zero]

/-- A text is whole lines and, behind the last line feed, the start of one more. -/
private theorem exists_lastLine (cs : List Char) :
    ∃ before here, cs = before ++ here ∧
      (before = [] ∨ ∃ lines, before = lines ++ ['\n']) ∧ '\n' ∉ here := by
  by_cases h : '\n' ∈ cs
  · obtain ⟨here, lines, hsplit, hhere⟩ :=
      List.eq_append_cons_of_mem (List.mem_reverse.mpr h)
    refine ⟨lines.reverse ++ ['\n'], here.reverse, ?_, .inr ⟨lines.reverse, rfl⟩, by simpa⟩
    simpa using congrArg List.reverse hsplit
  · exact ⟨[], cs, by simp, .inl rfl, h⟩

theorem column_behind_lines {before : List Char}
    (h : before = [] ∨ ∃ lines, before = lines ++ ['\n']) : (Position.after before).column = 1 := by
  rcases h with rfl | ⟨lines, rfl⟩ <;> simp [Position.after]

theorem placeAt_after (read spot : List Char) :
    PlaceAt (read ++ spot) read.length (.after read) where
  inside := by simp
  line := by simp [Position.after]
  column := by
    obtain ⟨before, here, rfl, hbefore, hhere⟩ := exists_lastLine read
    refine ⟨before, here, List.take_left, hbefore, hhere, ?_⟩
    simp only [after_append before hhere, column_behind_lines hbefore]
    omega

/-- Whole statements with a separator behind each, and fillers, up to where the next begins. -/
inductive StatementsUpTo : List Char → List Char → Prop where
  | fillers {cs first : List Char} : Run Filler cs first → Stops Filler first →
      StatementsUpTo cs first
  | statement {cs first afterStatement beforeSeparator afterSeparator next : List Char}
      {s : Statement} : Run Filler cs first → Sentence first s afterStatement →
      Run Space afterStatement beforeSeparator → Separator beforeSeparator afterSeparator →
      StatementsUpTo afterSeparator next → StatementsUpTo cs next

/-- A keyword and all the node references behind it: no references derive further. -/
inductive Phrase : List Char → Statement → Prop where
  | mk {cs afterWord rest : List Char} {keyword : Keyword} {nodes : List NodeRef} :
      Word cs keyword.word afterWord → ProperKeyword keyword → References afterWord nodes rest →
      (∀ nodes' rest', References afterWord nodes' rest' → rest <:+ rest') →
      Phrase cs ⟨keyword, nodes⟩

/-- Reading a node goes on behind its label. -/
private theorem suffix_of_readNode {cs afterLabel rest : List Char} {label : Identifier}
    {node : NodeRef}
    (hlabel : Ident cs label afterLabel) (h : (readNode cs).outcome = .ok (node, rest)) :
    rest <:+ afterLabel := by
  rw [outcome_readNode, (outcome_readIdentifier_eq_ok_iff cs label afterLabel).mpr hlabel] at h
  simp only at h
  split at h
  · cases h
    exact List.suffix_rfl
  · obtain ⟨⟨block, rest'⟩, hread, heq⟩ := Except.map_eq_ok_iff.mp h
    cases heq
    have hblock := (outcome_readBlock_eq_ok_iff _ block _).mp hread
    exact (braced_carries exchange_alike hblock).suffix.trans (run_suffix (run_skipSpaces _))

/-- The reader takes the longest list of node references: by induction on another derivation, which
can stop early, and can do so before the block of its last node. -/
theorem readNodes_longest {cs rest rest' : List Char} {nodes nodes' : List NodeRef}
    (h : (readNodes cs).outcome = .ok (nodes, rest)) (hother : References cs nodes' rest') :
    rest <:+ rest' := by
  induction hother generalizing nodes rest with
  | nil => exact (readNodes_carries h).suffix
  | @cons cs beforeNode afterNode rest' node _ hrun hnode hnodes ih =>
    rw [outcome_readNodes, skipSpaces_eq_of_node hrun hnode] at h
    by_cases hbare : node.block = none → Stops (· = '\x7b') (skipSpaces afterNode)
    · rw [readNode_of_node hnode hbare] at h
      obtain ⟨⟨nodes', rest''⟩, hread, heq⟩ := Except.map_eq_ok_iff.mp h
      cases heq
      exact ih hread
    · obtain ⟨hnone, hbrace⟩ := Classical.not_imp.mp hbare
      have hend : rest' = afterNode := by
        cases hnodes with
        | nil => rfl
        | cons hrun' hnode' _ => exact absurd (stops_brace_of_node hrun' hnode') hbrace
      obtain ⟨label, hlabel⟩ : ∃ label, Ident beforeNode label afterNode := by
        cases hnode with
        | bare hlabel => exact ⟨_, hlabel⟩
        | braced _ _ _ => cases hnone
      rw [hend]
      split at h
      · next habsent =>
        rw [outcome_readNode_absent_iff, ← outcome_readIdentifier_absent_iff,
          (outcome_readIdentifier_eq_ok_iff _ _ _).mpr hlabel] at habsent
        cases habsent
      · cases h
      · next node' rest₁ hread =>
        obtain ⟨⟨nodes', rest₂⟩, hmore, heq⟩ := Except.map_eq_ok_iff.mp h
        cases heq
        exact (readNodes_carries hmore).suffix.trans (suffix_of_readNode hlabel hread)

theorem phrase_of_readStatement {cs rest : List Char} {s : Statement}
    (h : (readStatement cs).outcome = .ok (s, rest)) : Phrase cs s := by
  obtain ⟨afterWord, hword, hproper, hnodes⟩ := parts_of_readStatement h
  exact .mk hword hproper (nodes_of_readNodes hnodes) fun _ _ => readNodes_longest hnodes

/-- A refusal is for an unexpected character or the end, or for a whole statement. -/
theorem refused_cases {cs first : List Char} {refusal : Refusal} (h : Refused first refusal)
    (hfill : Run Filler cs first) :
    refusal.misfit = .unexpected ∨ StatementsUpTo cs refusal.spot ∧
      ∃ s, Phrase refusal.spot s ∧ s.misfit? = some refusal.misfit := by
  induction h generalizing cs with
  | absent _ _ _ => exact .inl rfl
  | stuck _ => exact .inl rfl
  | misfit hread hmisfit =>
    obtain ⟨-, hstop⟩ := begins_of_readStatement hread (by simp)
    exact .inr ⟨.fillers hfill hstop, _, phrase_of_readStatement hread, hmisfit⟩
  | unseparated _ _ _ _ _ _ => exact .inl rfl
  | later hs hrun hsep hfill' _ ih =>
    rcases ih hfill' with hmisfit | ⟨hupTo, hphrase⟩
    · exact .inl hmisfit
    · exact .inr ⟨.statement hfill hs hrun hsep hupTo, hphrase⟩

/-- A message that is true of the place `k` characters into a text. -/
inductive SaidOf (source : List Char) (k : Nat) : String → Prop where
  | ending : k = source.length → SaidOf source k "unexpected end of input"
  | character {c : Char} : source[k]? = some c → c ≠ '\n' →
      SaidOf source k ("unexpected character " ++ Text.shownChar c)
  | arity {s : Statement} {n : Nat} : StatementsUpTo source (source.drop k) →
      Phrase (source.drop k) s → s.keyword.arity? = some n → s.nodes.length ≠ n →
      SaidOf source k ("'" ++ s.keyword.word ++ "' takes " ++ countText n ++ " node reference" ++
        (if n = 1 then "" else "s") ++ ", got " ++ countText s.nodes.length)
  | block {node : NodeRef} {block : Block} : StatementsUpTo source (source.drop k) →
      Phrase (source.drop k) ⟨.info, [node]⟩ → node.block = some block →
      SaidOf source k "'info' takes no property block"

theorem saidOf_misfit {source : List Char} {k : Nat} {s : Statement} {misfit : Misfit}
    (hupTo : StatementsUpTo source (source.drop k)) (hphrase : Phrase (source.drop k) s)
    (h : s.misfit? = some misfit) (spot : List Char) : SaidOf source k (misfit.message spot) := by
  unfold Statement.misfit? at h
  split at h
  · cases h
  · next expected harity =>
    split at h
    · next hlength =>
      cases h
      exact .arity hupTo hphrase harity hlength
    · next hlength =>
      split at h
      · next hblocks =>
        cases h
        obtain ⟨keyword, nodes⟩ := s
        obtain ⟨hforbids, hany⟩ := Bool.and_eq_true_iff.mp hblocks
        obtain rfl : keyword = .info := by
          cases keyword <;> simp [Keyword.allowsBlocks] at hforbids ⊢
        cases harity
        obtain ⟨node, rfl⟩ := List.length_eq_one_iff.mp (not_not.mp hlength)
        obtain ⟨block, hblock⟩ : ∃ block, node.block = some block := by
          simpa [Option.isSome_iff_exists] using hany
        exact .block hupTo hphrase hblock
      · cases h

theorem saidOf_unexpected {read spot : List Char} (hstop : Stops (· = '\n') spot) :
    SaidOf (read ++ spot) read.length (unexpectedText spot) := by
  cases spot with
  | nil => exact .ending (by simp)
  | cons c spot =>
    have hc : ¬ c = '\n' := hstop c rfl
    simp only [unexpectedText, hc, ↓reduceIte]
    exact .character (by simp) hc

/-- No message speaks of the end of a line. -/
theorem SaidOf.ne_endOfLine {source : List Char} {k : Nat} {message : String}
    (h : SaidOf source k message) : message ≠ "unexpected end of line" := by
  intro heq
  have hchars := congrArg String.toList heq
  cases h with
  | ending _ => simp at hchars
  | character _ _ => simp at hchars
  | arity _ _ _ _ => simp at hchars
  | block _ _ _ => simp at hchars

/-- A syntax fault gives the line and column of one place in the text, and its message is true of
that place: the text ends there, or a character other than a line feed stands there and is named,
or a statement with a known keyword begins there whose node references are too many or too few or,
behind `info`, have a block. It never speaks of the end of a line. -/
theorem parse_fault_said_of_place (source : String) {fault : SyntaxFault}
    (h : parse source = .error fault) :
    (∃ k, PlaceAt source.toList k fault.position ∧ SaidOf source.toList k fault.message) ∧
      fault.message ≠ "unexpected end of line" := by
  obtain ⟨refusal, hread, rfl⟩ := (parse_eq_error_iff source fault).mp h
  obtain ⟨first, hfill, hrefused⟩ := (readScript_eq_error_iff _ refusal).mp hread
  obtain ⟨read, hsource⟩ := spot_suffix_of_readScript hread
  have hplace : PlaceAt source.toList read.length (refusal.located source.toList).position := by
    unfold Refusal.located
    rw [← hsource, upTo_append]
    exact placeAt_after read refusal.spot
  have hsaid : SaidOf source.toList read.length (refusal.located source.toList).message := by
    have hdrop : source.toList.drop read.length = refusal.spot := by
      rw [← hsource, List.drop_left]
    rcases refused_cases hrefused hfill with hmisfit | ⟨hupTo, s, hphrase, hmisfit⟩
    · have hstop := (refused_stops hrefused hmisfit).2
      unfold Refusal.located
      rw [hmisfit, ← hsource]
      exact saidOf_unexpected hstop
    · rw [← hdrop] at hupTo hphrase
      exact saidOf_misfit hupTo hphrase hmisfit refusal.spot
  exact ⟨⟨read.length, hplace, hsaid⟩, hsaid.ne_endOfLine⟩

/-- A keyword alone, on the second line, is pointed at. -/
theorem parse_fault_said_of_place_bareKeyword :
    let fault : SyntaxFault := ⟨"'node' takes 1 node reference, got 0", ⟨2, 2⟩⟩
    parse "\n node" = .error fault ∧
      ∃ k, PlaceAt "\n node".toList k fault.position ∧
        SaidOf "\n node".toList k fault.message := by
  intro fault
  have hfill : Run Filler "\n node".toList "node".toList :=
    run_cons (.inl (by decide)) (run_cons (.inl (by decide)) (run_refl _))
  have hword : Word "node".toList "node" [] :=
    ⟨by simp, (isName_iff _).mp (by decide), stops_nil⟩
  have hnodes : (readNodes []).outcome = .ok ([], []) := readNodes_of_nodes .nil stops_nil
  have hread : (readStatement "node".toList).outcome = .ok (⟨.node, []⟩, []) := by
    rw [outcome_readStatement, (outcome_readWord_eq_ok_iff _ _ _).mpr hword]
    simp only [hnodes]
    rfl
  have hrefused : Refused "node".toList ⟨.arity .node 1 0, "node".toList⟩ := .misfit hread rfl
  have hparse : parse "\n node" = .error fault :=
    (parse_eq_error_iff _ _).mpr
      ⟨_, (readScript_eq_error_iff _ _).mpr ⟨_, hfill, hrefused⟩, by decide⟩
  exact ⟨hparse, (parse_fault_said_of_place "\n node" hparse).1⟩

end OntologyGraph.Script
