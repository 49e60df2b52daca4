import Mathlib.Data.List.Forall2
import OntologyGraph.Command.Basic
import OntologyGraph.Proofs.Maps.Insertions
import OntologyGraph.Proofs.Script.Joining

/-!
The commands of statements. What a command says is told from the word and the node references of its
statement, without the function that makes it; a statement that some text spells always stands for
a command unless its word is unknown, and one that is put together by hand does if the number of
its references is right.
-/

namespace OntologyGraph

open Script Grammar

namespace Script

/-- The map of a block: a key, bare or quoted, has the place of its first pair and the value of its
last. -/
structure Block.Denotes (b : Block) (m : PropertyMap) : Prop where
  keys : m.keys = (b.map (·.key.name)).eraseDups
  values : ∀ before pair after, b = before ++ pair :: after →
    (∀ later ∈ after, later.key.name ≠ pair.key.name) →
    m.get? pair.key.name = some (.text pair.value)

theorem Block.denotes_toProperties (b : Block) : b.Denotes b.toProperties where
  keys := by
    rw [toProperties, TextMap.keys_ofList, List.map_map]
    rfl
  values before pair after hb hlast := by
    rw [toProperties, TextMap.get?_ofList_eq_some_iff, hb, List.map_append, List.map_cons]
    refine ⟨_, _, rfl, ?_⟩
    rw [List.map_map, List.mem_map]
    rintro ⟨later, hlater, hkey⟩
    exact hlast later hlater hkey

/-- A block has one map only: its keys are given, and each has a last pair. -/
theorem Block.denotes_iff {b : Block} {m : PropertyMap} : b.Denotes m ↔ b.toProperties = m := by
  constructor
  · intro h
    apply TextMap.eq_of_keys_eq (TextMap.unique_ofList _)
    · rw [h.keys]
      exact b.denotes_toProperties.keys
    · intro key value hvalue
      obtain ⟨before, after, hb, hlast⟩ := (TextMap.get?_ofList_eq_some_iff _ _ _).mp hvalue
      obtain ⟨before, pairs, rfl, rfl, hpairs⟩ := List.map_eq_append_iff.mp hb
      obtain ⟨pair, after, rfl, hpair, rfl⟩ := List.map_eq_cons_iff.mp hpairs
      cases hpair
      apply h.values before pair after rfl
      intro later hlater hkey
      rw [List.map_map] at hlast
      exact hlast (List.mem_map.mpr ⟨later, hlater, hkey⟩)
  · rintro rfl
    exact b.denotes_toProperties

/-- The pattern of a reference: its label without quotes, and the map of its block if it has one. -/
inductive NodeRef.Denotes : NodeRef → NodePattern → Prop where
  | bare (label : Identifier) : Denotes ⟨label, none⟩ ⟨label.name, .empty⟩
  | braced (label : Identifier) {b : Block} {m : PropertyMap} :
      b.Denotes m → Denotes ⟨label, some b⟩ ⟨label.name, m⟩

/-- A reference denotes exactly the pattern the handlers make of it. -/
theorem NodeRef.denotes_iff {node : NodeRef} {pattern : NodePattern} :
    node.Denotes pattern ↔ NodePattern.ofRef node = pattern := by
  constructor
  · intro h
    cases h with
    | bare label => rfl
    | braced label hblock =>
      rw [← Block.denotes_iff.mp hblock]
      rfl
  · rintro rfl
    obtain ⟨label, block⟩ := node
    cases block with
    | none => exact .bare label
    | some b => exact .braced label b.denotes_toProperties

/-- A list of references denotes exactly the patterns made of them, one for one. -/
theorem denotes_all_iff {nodes : List NodeRef} {patterns : List NodePattern} :
    List.Forall₂ NodeRef.Denotes nodes patterns ↔ nodes.map NodePattern.ofRef = patterns := by
  have hsame : NodeRef.Denotes = fun node pattern => NodePattern.ofRef node = pattern := by
    funext node pattern
    exact propext NodeRef.denotes_iff
  rw [hsame, ← List.forall₂_map_left_iff, List.forall₂_eq_eq_eq]

theorem wellFormed_of_parse {source : String} {script : Script} (h : parse source = .ok script) :
    WellFormed script := by
  have hread := (parse_eq_ok_iff_readScript source script).mp h
  exact wellFormed_of_spells ((readScript_eq_ok_iff _ script).mp hread)

/-- A statement of a parsed script stands for a command, unless its keyword is unknown. -/
theorem Statement.WellFormed.command {statement : Statement} (h : statement.WellFormed) :
    (∃ word, statement.keyword = .other word ∧
      Command.ofStatement statement = .error (.unsupported word)) ∨
    ∃ command, Command.ofStatement statement = .ok command := by
  obtain ⟨keyword, nodes⟩ := statement
  have harity := h.arity
  cases keyword with
  | other word => exact .inl ⟨word, rfl, rfl⟩
  | node | property | relationship | info =>
    obtain ⟨node, rfl⟩ := List.length_eq_one_iff.mp (harity 1 rfl)
    exact .inr ⟨_, rfl⟩
  | requireProperty | setProperty | setSubclass =>
    obtain ⟨subject, target, rfl⟩ := List.length_eq_two.mp (harity 2 rfl)
    exact .inr ⟨_, rfl⟩
  | setRelationship =>
    obtain ⟨subject, relationship, target, rfl⟩ := List.length_eq_three.mp (harity 3 rfl)
    exact .inr ⟨_, rfl⟩

end Script

namespace Command

/-- The command of a known word and the patterns behind it, where the class that gets an edge comes
first. -/
inductive HasShape : String → List NodePattern → Command → Prop where
  | node (node : NodePattern) : HasShape "node" [node] (.define .node node)
  | property (node : NodePattern) : HasShape "property" [node] (.define .property node)
  | relationship (node : NodePattern) :
      HasShape "relationship" [node] (.define .relationship node)
  | requireProperty (subject target : NodePattern) :
      HasShape "require_property" [subject, target] (.connect .requireProperty subject target)
  | setProperty (subject target : NodePattern) :
      HasShape "set_property" [subject, target] (.connect .setProperty subject target)
  | setSubclass (subject target : NodePattern) :
      HasShape "set_subclass" [subject, target] (.connect .setSubclass subject target)
  | setRelationship (subject relationship target : NodePattern) :
      HasShape "set_relationship" [subject, relationship, target]
        (.setRelationship subject relationship target)
  | info (node : NodePattern) : HasShape "info" [node] (.info node.label)

variable {statement : Statement} {command : Command}

private theorem ofStatement_of_other {word : String} (h : statement.keyword = .other word) :
    ofStatement statement = .error (.unsupported word) := by
  unfold ofStatement
  rw [h]

/-- A known keyword with another number of references than it takes is refused with both numbers. -/
theorem ofStatement_of_length_ne {n : Nat} (h : statement.keyword.arity? = some n)
    (hne : statement.nodes.length ≠ n) :
    ofStatement statement =
      .error (.arity statement.keyword.word n statement.nodes.length) := by
  obtain ⟨keyword, nodes⟩ := statement
  have hlength : nodes.length = (nodes.map NodePattern.ofRef).length := (List.length_map _).symm
  unfold ofStatement
  dsimp only at h hne ⊢
  rw [hlength] at hne ⊢
  split
  case h_1 => cases h
  case h_10 => rw [h, Option.getD_some]
  all_goals
    cases h
    next hpatterns => exact absurd (congrArg List.length hpatterns) hne

/-- A statement with as many references as its word takes has the command of its shape. -/
theorem ofStatement_of_length_eq
    (h : statement.keyword.arity? = some statement.nodes.length) :
    ∃ command, ofStatement statement = .ok command ∧
      HasShape statement.keyword.word (statement.nodes.map NodePattern.ofRef) command := by
  obtain ⟨keyword, nodes⟩ := statement
  have hlength {n : Nat} (hn : keyword.arity? = some n) : nodes.length = n :=
    Option.some.inj (h.symm.trans hn)
  cases keyword with
  | other word => cases h
  | node | property | relationship | info =>
    obtain ⟨node, rfl⟩ := List.length_eq_one_iff.mp (hlength rfl)
    exact ⟨_, rfl, by constructor⟩
  | requireProperty | setProperty | setSubclass =>
    obtain ⟨subject, target, rfl⟩ := List.length_eq_two.mp (hlength rfl)
    exact ⟨_, rfl, by constructor⟩
  | setRelationship =>
    obtain ⟨subject, relationship, target, rfl⟩ := List.length_eq_three.mp (hlength rfl)
    exact ⟨_, rfl, by constructor⟩

/-- The command says the same as the statement, of the same nodes in the same places. -/
def Expresses (statement : Statement) (command : Command) : Prop :=
  ∃ patterns, List.Forall₂ NodeRef.Denotes statement.nodes patterns ∧
    HasShape statement.keyword.word patterns command

theorem arity?_eq_none_iff {keyword : Keyword} :
    keyword.arity? = none ↔ ∃ word, keyword = .other word := by
  cases keyword <;> simp [Keyword.arity?]

/-- A statement is turned into a command exactly if it expresses that command. -/
theorem ofStatement_eq_ok_iff (hproper : ProperKeyword statement.keyword) :
    ofStatement statement = .ok command ↔ Expresses statement command := by
  constructor
  · intro hcommand
    cases harity : statement.keyword.arity? with
    | none =>
      obtain ⟨word, hword⟩ := arity?_eq_none_iff.mp harity
      rw [ofStatement_of_other hword] at hcommand
      cases hcommand
    | some n =>
      by_cases hlength : statement.nodes.length = n
      · subst hlength
        obtain ⟨command', hcommand', hshape⟩ := ofStatement_of_length_eq harity
        rw [hcommand', Except.ok.injEq] at hcommand
        subst hcommand
        exact ⟨_, denotes_all_iff.mpr rfl, hshape⟩
      · rw [ofStatement_of_length_ne harity hlength] at hcommand
        cases hcommand
  · rintro ⟨patterns, hpatterns, hshape⟩
    obtain ⟨keyword, nodes⟩ := statement
    have hpatterns : nodes.map NodePattern.ofRef = patterns := denotes_all_iff.mp hpatterns
    have hkeyword : Keyword.ofWord keyword.word = keyword := ofWord_word hproper
    change HasShape keyword.word patterns command at hshape
    -- A shape tells the word, and the keyword is the one that is read off from the word.
    rw [← hkeyword, ofStatement, hpatterns]
    generalize keyword.word = word at hshape
    cases hshape <;> rfl

structure Treated (statement : Statement) : Prop where
  not_arity : ∀ word expected found, ofStatement statement ≠ .error (.arity word expected found)
  unsupported_iff : ∀ word, ofStatement statement = .error (.unsupported word) ↔
    word = statement.keyword.word ∧ word ∉ knownWords
  supported : statement.keyword.word ∈ knownWords → ∃ command, ofStatement statement = .ok command
  ok_iff : ∀ command, ofStatement statement = .ok command ↔ Expresses statement command

/-- A keyword is known exactly if it is none of the other words. -/
theorem word_mem_knownWords_iff {keyword : Keyword} (hproper : ProperKeyword keyword) :
    keyword.word ∈ knownWords ↔ ∀ word, keyword ≠ .other word := by
  constructor
  · rintro hmem word rfl
    exact hproper word rfl hmem
  · intro hother
    cases keyword with
    | other word => exact absurd rfl (hother word)
    | _ => decide

/-- Every well-formed statement is treated as its keyword and the number of its references say. -/
theorem treated_of_wellFormed (h : statement.WellFormed) : Treated statement := by
  have hproper : ProperKeyword statement.keyword := fun word hword => (h.keyword word hword).2
  have hknown := word_mem_knownWords_iff hproper
  rcases h.command with ⟨word, hword, hrefused⟩ | ⟨command, hcommand⟩
  · have hspelled : statement.keyword.word = word := by rw [hword, Keyword.word]
    have hunknown : word ∉ knownWords := (h.keyword word hword).2
    refine ⟨?_, ?_, ?_, fun command => ofStatement_eq_ok_iff hproper⟩
    · intro word' expected found harity
      rw [hrefused] at harity
      cases harity
    · intro word'
      rw [hrefused, hspelled, Except.error.injEq, CommandFault.unsupported.injEq]
      constructor
      · rintro rfl
        exact ⟨rfl, hunknown⟩
      · rintro ⟨rfl, -⟩
        rfl
    · intro hmem
      exact absurd hword (hknown.mp hmem word)
  · have hother : ∀ word, statement.keyword ≠ .other word := by
      intro word hword
      rw [ofStatement_of_other hword] at hcommand
      cases hcommand
    refine ⟨?_, ?_, fun _ => ⟨command, hcommand⟩, fun command => ofStatement_eq_ok_iff hproper⟩
    · intro word expected found harity
      rw [hcommand] at harity
      cases harity
    · intro word
      rw [hcommand]
      refine iff_of_false (fun hrefused => nomatch hrefused) ?_
      rintro ⟨rfl, hunknown⟩
      exact hunknown (hknown.mpr hother)

/-- Statements that a text spells stand for the command of their word, if the word is known; and a
statement of a known word, however it came about, does so exactly if its references are as many as
the word takes. -/
theorem shapes_agree :
    (∀ source script, parse source = .ok script → ∀ statement ∈ script, Treated statement) ∧
      ∀ (statement : Statement) (n : Nat), statement.keyword.arity? = some n →
        ((∃ command, ofStatement statement = .ok command) ↔ statement.nodes.length = n) ∧
        (statement.nodes.length ≠ n → ofStatement statement =
          .error (.arity statement.keyword.word n statement.nodes.length)) := by
  constructor
  · intro source script hparse statement hmem
    exact treated_of_wellFormed (wellFormed_of_parse hparse statement hmem)
  · intro statement n harity
    refine ⟨⟨?_, ?_⟩, ofStatement_of_length_ne harity⟩
    · rintro ⟨command, hcommand⟩
      by_contra hlength
      rw [ofStatement_of_length_ne harity hlength] at hcommand
      cases hcommand
    · rintro rfl
      obtain ⟨command, hcommand, -⟩ := ofStatement_of_length_eq harity
      exact ⟨command, hcommand⟩

/-- One key bare and quoted in one block, an empty block, and an unknown word. -/
def mixedScript : Script :=
  [⟨.setProperty,
      [⟨⟨"Species", false⟩,
          some [⟨⟨"rank", false⟩, "1"⟩, ⟨⟨"note", false⟩, ""⟩, ⟨⟨"rank", true⟩, "2"⟩]⟩,
        ⟨⟨"a \x60 b", true⟩, some []⟩]⟩,
    ⟨.other "drop", [⟨⟨"Species", false⟩, none⟩]⟩]

private theorem wellFormed_mixedScript : WellFormed mixedScript := by
  have hname (name : String) (h : Text.isName name.toList = true) (quoted : Bool) :
      (Identifier.mk name quoted).WellFormed := fun _ => (isName_iff _).mp h
  have hspecies := hname "Species" (by decide) false
  have hlabel : (Identifier.mk "a \x60 b" true).WellFormed := fun hbare => nomatch hbare
  have hpairs : Block.WellFormed
      [⟨⟨"rank", false⟩, "1"⟩, ⟨⟨"note", false⟩, ""⟩, ⟨⟨"rank", true⟩, "2"⟩] := by
    simp only [Block.WellFormed, List.forall_mem_cons, List.not_mem_nil, false_imp_iff,
      implies_true, and_true]
    exact ⟨hname "rank" (by decide) false, hname "note" (by decide) false,
      hname "rank" (by decide) true⟩
  simp only [WellFormed, mixedScript, List.forall_mem_cons, List.not_mem_nil, false_imp_iff,
    implies_true, and_true]
  constructor
  · refine ⟨fun _ h => (nomatch h), fun _ h => Option.some.inj h, fun h => (nomatch h), ?_⟩
    simp only [List.forall_mem_cons, List.not_mem_nil, false_imp_iff, implies_true, and_true]
    refine ⟨⟨hspecies, ?_⟩, ⟨hlabel, ?_⟩⟩
    · rintro _ ⟨⟩
      exact hpairs
    · rintro _ ⟨⟩
      exact fun _ h => absurd h List.not_mem_nil
  · refine ⟨?_, fun _ h => (nomatch h), fun h => (nomatch h), ?_⟩
    · rintro _ ⟨⟩
      exact ⟨(isName_iff _).mp (by decide), by decide⟩
    · exact List.forall_mem_singleton.mpr ⟨hspecies, fun _ h => nomatch h⟩

/-- Keys are bare or quoted as they please, and a word without a command is refused, as is a known
word with one reference too few. -/
theorem shapes_agree_mixedScript :
    parse (print mixedScript) = .ok mixedScript ∧ (∀ statement ∈ mixedScript, Treated statement) ∧
      mixedScript.map ofStatement =
        [.ok (.connect .setProperty ⟨"Species", ⟨[("rank", .text "2"), ("note", .text "")]⟩⟩
            ⟨"a \x60 b", .empty⟩),
          .error (.unsupported "drop")] ∧
      ofStatement ⟨.setProperty, [⟨⟨"Species", false⟩, none⟩]⟩ =
        .error (.arity "set_property" 2 1) := by
  have hparse := parse_print wellFormed_mixedScript
  refine ⟨hparse, shapes_agree.1 _ _ hparse, rfl, ?_⟩
  exact (shapes_agree.2 ⟨.setProperty, [⟨⟨"Species", false⟩, none⟩]⟩ 2 rfl).2 (by decide)

end Command

end OntologyGraph
