import OntologyGraph.Proofs.Script.Acceptance
import OntologyGraph.Script.Printer

/-!
Printing and reading scripts. The text of a tree derives that tree in the grammar, whatever
follows it that does not continue its last token, provided the tree is one that some text can
spell. Such trees are the well-formed ones, and every derivation ends in one.
-/

namespace OntologyGraph.Script

open Grammar

/-- Only the text of a bare name can stand without backticks. -/
def Identifier.WellFormed (i : Identifier) : Prop :=
  i.quoted = false → IsName i.name.toList

def Block.WellFormed (b : Block) : Prop :=
  ∀ pair ∈ b, pair.key.WellFormed

structure NodeRef.WellFormed (n : NodeRef) : Prop where
  label : n.label.WellFormed
  block : ∀ b, n.block = some b → Block.WellFormed b

structure Statement.WellFormed (s : Statement) : Prop where
  /-- An unknown keyword is a bare name that begins no known statement. -/
  keyword : ∀ word, s.keyword = .other word → IsName word.toList ∧ word ∉ knownWords
  arity : ∀ n, s.keyword.arity? = some n → s.nodes.length = n
  noBlock : s.keyword = .info → ∀ node ∈ s.nodes, node.block = none
  nodes : ∀ node ∈ s.nodes, node.WellFormed

def WellFormed (script : Script) : Prop :=
  ∀ s ∈ script, s.WellFormed

theorem Block.text_toList (b : Block) : (Block.text b).toList = Block.chars b := by
  rw [Block.text, String.toList_ofList]

/-- Names are quoted where they need it, so each can be read back. -/
theorem wellFormed_ofName (name : String) : (Identifier.ofName name).WellFormed := by
  intro hbare
  have hname : Text.isName name.toList = true := by simpa [Identifier.ofName] using hbare
  exact (isName_iff _).mp hname

theorem wellFormed_ofProperties (m : PropertyMap) : Block.WellFormed (Block.ofProperties m) := by
  intro pair hpair
  obtain ⟨entry, -, rfl⟩ := List.mem_map.mp hpair
  exact wellFormed_ofName entry.1

theorem wellFormed_of_ident {cs rest : List Char} {i : Identifier} (h : Ident cs i rest) :
    i.WellFormed := by
  intro hquoted
  cases h with
  | bare hword => exact hword.2.1
  | quoted _ => cases hquoted

theorem wellFormed_of_keyTexts {cs rest : List Char} {pairs : List Pair}
    (h : KeyTexts cs pairs rest) : Block.WellFormed pairs := by
  have hkey {cs rest : List Char} {pair : Pair} (h : KeyText cs pair rest) :
      pair.key.WellFormed := by
    obtain ⟨hkey, -, -, -⟩ := h
    exact wellFormed_of_ident hkey
  induction h with
  | one hpair =>
    intro pair hmem
    rw [List.mem_singleton.mp hmem]
    exact hkey hpair
  | more hpair _ _ _ ih =>
    intro pair hmem
    rcases List.mem_cons.mp hmem with rfl | hmem
    · exact hkey hpair
    · exact ih pair hmem

theorem wellFormed_of_braced {cs rest : List Char} {b : Block} (h : Braced cs b rest) :
    Block.WellFormed b := by
  cases h with
  | empty _ =>
    intro pair hmem
    cases hmem
  | pairs _ hpairs _ _ => exact wellFormed_of_keyTexts hpairs

theorem wellFormed_of_node {cs rest : List Char} {n : NodeRef} (h : Reference cs n rest) :
    n.WellFormed := by
  cases h with
  | bare hlabel =>
    refine ⟨wellFormed_of_ident hlabel, ?_⟩
    intro b hb
    cases hb
  | braced hlabel _ hblock =>
    refine ⟨wellFormed_of_ident hlabel, ?_⟩
    intro b hb
    cases hb
    exact wellFormed_of_braced hblock

theorem wellFormed_of_nodes {cs rest : List Char} {nodes : List NodeRef}
    (h : References cs nodes rest) : ∀ node ∈ nodes, node.WellFormed := by
  induction h with
  | nil =>
    intro node hmem
    cases hmem
  | cons _ hnode _ ih =>
    intro node hmem
    rcases List.mem_cons.mp hmem with rfl | hmem
    · exact wellFormed_of_node hnode
    · exact ih node hmem

theorem wellFormed_of_sentence {cs rest : List Char} {s : Statement} (h : Sentence cs s rest) :
    s.WellFormed := by
  obtain ⟨hword, hproper, hnodes, harity, hinfo⟩ := h
  refine ⟨?_, harity, hinfo, wellFormed_of_nodes hnodes⟩
  rintro word rfl
  exact ⟨hword.2.1, hproper word rfl⟩

/-- Every script that a text spells is well-formed. -/
theorem wellFormed_of_spells {cs : List Char} {script : Script} (h : Spells cs script) :
    WellFormed script := by
  obtain ⟨-, h⟩ := h
  induction h with
  | nil =>
    intro s hmem
    cases hmem
  | last hs _ =>
    intro s hmem
    rw [List.mem_singleton.mp hmem]
    exact wellFormed_of_sentence hs
  | cons hs _ _ _ _ ih =>
    intro s hmem
    rcases List.mem_cons.mp hmem with rfl | hmem
    · exact wellFormed_of_sentence hs
    · exact ih s hmem

/-- The text does not continue a name before it, bare or quoted. -/
def EndsName (rest : List Char) : Prop :=
  Stops (fun c => NamePart c ∨ c = '\x60') rest

theorem endsName_cons {c : Char} {cs : List Char} (hname : ¬ NamePart c) (hquote : c ≠ '\x60') :
    EndsName (c :: cs) := by
  refine stops_cons.mpr ?_
  rintro (h | h)
  · exact hname h
  · exact hquote h

/-- A well-formed identifier is printed as the grammar has it, if what follows ends a name. -/
theorem ident_of_chars {i : Identifier} (h : i.WellFormed) {rest : List Char}
    (hrest : EndsName rest) : Ident (i.chars ++ rest) i rest := by
  obtain ⟨name, quoted⟩ := i
  cases quoted with
  | false => exact .bare ⟨rfl, h rfl, fun c hc hp => hrest c hc (.inl hp)⟩
  | true =>
    have hhead : rest.head? ≠ some Text.Backtick.mark := fun hq => hrest _ hq (.inr rfl)
    have hread := Text.Backtick.readBody?_encodeBody name.toList hhead
    have hname := (readBody?_eq_some_iff _ _ rest).mp hread
    have hident := Ident.quoted hname
    rw [String.ofList_toList] at hident
    have hchars : Identifier.chars ⟨name, true⟩ ++ rest =
        '\x60' :: (Text.Backtick.encodeBody name.toList ++ Text.Backtick.mark :: rest) := by
      simp [Identifier.chars, Text.Backtick.encode, Text.Backtick.mark]
    rw [hchars]
    exact hident

private theorem not_namePart_colon : ¬ NamePart ':' := by
  simp [NamePart, NameStart]

/-- A printed pair, behind which anything may stand. -/
theorem keyText_of_chars {pair : Pair} (h : pair.key.WellFormed) (rest : List Char) :
    KeyText (pair.chars ++ rest) pair rest := by
  obtain ⟨key, value⟩ := pair
  have hread := Text.Quoted.readBody_encodeBody value.toList rest
  have htext := (readBody_eq_ok_iff _ _ rest).mp hread
  let behindQuote := Text.Quoted.encodeBody value.toList ++ '"' :: rest
  have hcolon : EndsName (':' :: ' ' :: '"' :: behindQuote) :=
    endsName_cons not_namePart_colon (by decide)
  have hkey := ident_of_chars h hcolon
  have hpair := KeyText.mk hkey (run_refl _) (run_cons (.inl rfl) (run_refl _)) htext
  rw [String.ofList_toList] at hpair
  simpa [Pair.chars, Text.Quoted.encode] using hpair

theorem keyTexts_of_chars {pairs : List Pair} (hne : pairs ≠ []) (h : Block.WellFormed pairs)
    (rest : List Char) : KeyTexts (pairsChars pairs ++ rest) pairs rest := by
  induction pairs with
  | nil => exact absurd rfl hne
  | cons pair pairs ih =>
    have hpair : pair.key.WellFormed := h pair List.mem_cons_self
    cases pairs with
    | nil => exact .one (keyText_of_chars hpair rest)
    | cons next pairs =>
      have hnext := ih (List.cons_ne_nil next pairs) fun p hp => h p (List.mem_cons_of_mem pair hp)
      have hfirst := keyText_of_chars hpair (',' :: ' ' :: (pairsChars (next :: pairs) ++ rest))
      have hall := KeyTexts.more hfirst (run_refl _) (run_cons (.inl rfl) (run_refl _)) hnext
      simpa [pairsChars] using hall

theorem braced_of_chars {b : Block} (h : Block.WellFormed b) (rest : List Char) :
    Braced (Block.chars b ++ rest) b rest := by
  cases b with
  | nil => exact .empty (run_refl _)
  | cons pair pairs =>
    have hpairs := keyTexts_of_chars (List.cons_ne_nil pair pairs) h ('\x7d' :: rest)
    have hall := Braced.pairs (run_refl _) hpairs .absent (run_refl _)
    simpa [Block.chars] using hall

private theorem not_namePart_space : ¬ NamePart ' ' := by
  simp [NamePart, NameStart]

theorem node_of_chars {n : NodeRef} (h : n.WellFormed) {rest : List Char}
    (hrest : EndsName rest) : Reference (n.chars ++ rest) n rest := by
  obtain ⟨label, block⟩ := n
  cases block with
  | none => exact .bare (ident_of_chars h.label hrest)
  | some b =>
    have hspace : EndsName (' ' :: (Block.chars b ++ rest)) :=
      endsName_cons not_namePart_space (by decide)
    have hlabel := ident_of_chars h.label hspace
    have hblock := braced_of_chars (h.block b rfl) rest
    have hall := Reference.braced hlabel (run_cons (.inl rfl) (run_refl _)) hblock
    simpa [NodeRef.chars] using hall

/-- The printed node references of a statement, each behind a space. -/
theorem nodes_of_chars {nodes : List NodeRef} (h : ∀ node ∈ nodes, node.WellFormed)
    {rest : List Char} (hrest : EndsName rest) :
    References ((nodes.flatMap fun n => ' ' :: n.chars) ++ rest) nodes rest := by
  induction nodes with
  | nil => exact .nil
  | cons node nodes ih =>
    have hnodes := ih fun n hn => h n (List.mem_cons_of_mem node hn)
    have hends : EndsName ((nodes.flatMap fun n => ' ' :: n.chars) ++ rest) := by
      cases nodes with
      | nil => exact hrest
      | cons next nodes => exact endsName_cons not_namePart_space (by decide)
    have hnode := node_of_chars (h node List.mem_cons_self) hends
    have hall := References.cons (run_cons (.inl rfl) (run_refl _)) hnode hnodes
    simpa using hall

private theorem isName_word {k : Keyword} (h : ∀ word, k = .other word → IsName word.toList) :
    IsName k.word.toList := by
  cases k with
  | other word => exact h word rfl
  | _ => exact (isName_iff _).mp (by decide)

/-- A well-formed statement is printed as the grammar has it, if what follows ends a name. -/
theorem sentence_of_chars {s : Statement} (h : s.WellFormed) {rest : List Char}
    (hrest : EndsName rest) : Sentence (s.chars ++ rest) s rest := by
  obtain ⟨keyword, nodes⟩ := s
  have hnodes := nodes_of_chars h.nodes hrest
  have hends : Stops NamePart ((nodes.flatMap fun n => ' ' :: n.chars) ++ rest) := by
    cases nodes with
    | nil => exact fun c hc hp => hrest c hc (.inl hp)
    | cons next nodes => exact stops_cons.mpr not_namePart_space
  have hname := isName_word fun word hword => (h.keyword word hword).1
  have hproper : ProperKeyword keyword := fun word hword => (h.keyword word hword).2
  have hall := Sentence.mk ⟨rfl, hname, hends⟩ hproper hnodes ⟨h.arity, h.noBlock⟩
  simpa [Statement.chars] using hall

theorem sentences_of_chars {script : Script} (h : WellFormed script) :
    Sentences (statementsChars script) script := by
  induction script with
  | nil => exact .nil
  | cons s script ih =>
    have hs : s.WellFormed := h s List.mem_cons_self
    cases script with
    | nil =>
      have hsentence := sentence_of_chars hs (stops_nil : EndsName [])
      rw [List.append_nil] at hsentence
      exact .last hsentence (run_refl _)
    | cons next script =>
      have hrest := ih fun t ht => h t (List.mem_cons_of_mem s ht)
      have hends : EndsName ('\n' :: statementsChars (next :: script)) :=
        endsName_cons (by simp [NamePart, NameStart]) (by decide)
      exact .cons (sentence_of_chars hs hends) (run_refl _) .lineFeed (run_refl _) hrest

/-- The printed text of a well-formed script spells this script. -/
theorem spells_print {script : Script} (h : WellFormed script) :
    Spells (print script).toList script := by
  rw [print, String.toList_ofList]
  exact .mk (run_refl _) (sentences_of_chars h)

/-- Printing a tree and reading the text gives the tree back exactly when the tree is well-formed,
whatever its names and values hold, and every tree that is read from a text is well-formed. -/
theorem parse_print_iff_wellFormed :
    (∀ script : Script, parse (print script) = .ok script ↔ WellFormed script) ∧
      ∀ (source : String) (script : Script), parse source = .ok script → WellFormed script := by
  have hread : ∀ (source : String) (script : Script),
      parse source = .ok script → WellFormed script := by
    intro source script h
    rw [parse_eq_ok_iff_readScript, readScript_eq_ok_iff] at h
    exact wellFormed_of_spells h
  refine ⟨?_, hread⟩
  intro script
  constructor
  · exact hread (print script) script
  · intro h
    rw [parse_eq_ok_iff_readScript, readScript_eq_ok_iff]
    exact spells_print h

end OntologyGraph.Script
