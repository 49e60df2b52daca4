import OntologyGraph.Command.Dispatch
import OntologyGraph.Proofs.Script.RoundTrip

/-!
What a query text says outside of its texts and maps. Labels and properties that users choose
reach a query inside a block only, so its outline is the same whatever they are; which edges a
query can make is read off the outline.
-/

namespace OntologyGraph

open Schema Script Store

namespace Outline

/-- Where a place in a query text stands with respect to quotes. -/
inductive Quoting where
  | bare
  | text (mark : Char)
  /-- Behind a backslash in a text. -/
  | escape (mark : Char)
  | name

/-- What is left of a query text without its texts and maps, and without the backticks around
names, read from a place within `depth` maps. A doubled backtick closes a name and opens it
again. -/
def outlineFrom (depth : Nat) : Quoting → List Char → List Char
  | _, [] => []
  | .bare, c :: cs =>
    if c = '"' ∨ c = '\'' then outlineFrom depth (.text c) cs
    else if c = '\x60' then outlineFrom depth .name cs
    else if c = '\x7b' then outlineFrom (depth + 1) .bare cs
    else if c = '\x7d' then outlineFrom (depth - 1) .bare cs
    else if depth = 0 then c :: outlineFrom depth .bare cs
    else outlineFrom depth .bare cs
  | .text mark, c :: cs =>
    if c = '\\' then outlineFrom depth (.escape mark) cs
    else if c = mark then outlineFrom depth .bare cs
    else outlineFrom depth (.text mark) cs
  | .escape mark, _ :: cs => outlineFrom depth (.text mark) cs
  | .name, c :: cs =>
    if c = '\x60' then outlineFrom depth .bare cs
    else if depth = 0 then c :: outlineFrom depth .name cs
    else outlineFrom depth .name cs

end Outline

open Outline

def outline (s : String) : List Char :=
  outlineFrom 0 .bare s.toList

/-- Whether a text begins with a word in capital letters, here in letters of either case. -/
def begins : List Char → List Char → Bool
  | [], _ => true
  | _ :: _, [] => false
  | w :: word, c :: cs => (c == w || c == w.toLower) && begins word cs

def occurs (word : List Char) : List Char → Bool
  | [] => word.isEmpty
  | c :: cs => begins word (c :: cs) || occurs word cs

def occursAfter (first second : List Char) : List Char → Bool
  | [] => false
  | c :: cs => (begins first (c :: cs) && occurs second (c :: cs)) || occursAfter first second cs

/-- Whether an outline names an edge type behind a word that makes edges, or calls something that
could make any. -/
def outlineMakes (edge : String) (cs : List Char) : Bool :=
  occursAfter "MERGE".toList edge.toList cs || occursAfter "CREATE".toList edge.toList cs ||
    occurs "CALL".toList cs

def Store.Query.canMake (q : Query) (edge : String) : Bool :=
  outlineMakes edge (outline q.text)

/-- Whether a query can make an edge is read off the characters of its text. -/
theorem canMake_of_toList {q : Query} {cs : List Char} (h : q.text.toList = cs) (edge : String) :
    q.canMake edge = outlineMakes edge (outlineFrom 0 .bare cs) := by
  rw [Store.Query.canMake, outline, h]

namespace NodePattern

/-- The pairs that a pattern matches, its label among them. -/
def pairs (node : NodePattern) : Block :=
  Block.ofProperties (node.properties.withFirst [("label", .text node.label)])

/-- The pairs a node pattern is printed with can be read back. -/
theorem wellFormed_pairs (node : NodePattern) : Block.WellFormed node.pairs :=
  wellFormed_ofProperties _

theorem block_toList (node : NodePattern) : node.block.toList = Block.chars node.pairs := by
  rw [block, blockText, Block.text_toList, pairs]

end NodePattern

namespace Outline

def isPlain (c : Char) : Bool :=
  c != '"' && c != '\'' && c != '\x60' && c != '\x7b' && c != '\x7d'

private theorem outlineFrom_cons_plain {c : Char} (hc : isPlain c = true) (depth : Nat)
    (cs : List Char) :
    outlineFrom depth .bare (c :: cs) =
      if depth = 0 then c :: outlineFrom depth .bare cs else outlineFrom depth .bare cs := by
  simp only [isPlain, Bool.and_eq_true, bne_iff_ne, ne_eq] at hc
  obtain ⟨⟨⟨⟨h₁, h₂⟩, h₃⟩, h₄⟩, h₅⟩ := hc
  simp [outlineFrom, h₁, h₂, h₃, h₄, h₅]

private theorem outlineFrom_plain {cs : List Char} (h : cs.all isPlain = true) (rest : List Char) :
    outlineFrom 0 .bare (cs ++ rest) = cs ++ outlineFrom 0 .bare rest := by
  induction cs with
  | nil => rfl
  | cons c cs ih =>
    simp only [List.all_cons, Bool.and_eq_true] at h
    rw [List.cons_append, outlineFrom_cons_plain h.1, if_pos rfl, ih h.2, List.cons_append]

private theorem outlineFrom_plain_inside {cs : List Char} (h : cs.all isPlain = true) (depth : Nat)
    (rest : List Char) :
    outlineFrom (depth + 1) .bare (cs ++ rest) = outlineFrom (depth + 1) .bare rest := by
  induction cs with
  | nil => rfl
  | cons c cs ih =>
    simp only [List.all_cons, Bool.and_eq_true] at h
    rw [List.cons_append, outlineFrom_cons_plain h.1, if_neg (Nat.succ_ne_zero depth), ih h.2]

private theorem outlineFrom_escape (depth : Nat) (c : Char) (rest : List Char) :
    outlineFrom depth (.text '"') (Text.Quoted.escape c ++ rest) =
      outlineFrom depth (.text '"') rest := by
  unfold Text.Quoted.escape
  split
  · simp [outlineFrom]
  split
  · simp [outlineFrom]
  split
  · simp [outlineFrom]
  split
  · simp [outlineFrom]
  split
  · simp [outlineFrom]
  · next hquote hbackslash _ _ _ => simp [outlineFrom, hquote, hbackslash]

private theorem outlineFrom_text (depth : Nat) (cs rest : List Char) :
    outlineFrom depth (.text '"') (Text.Quoted.encodeBody cs ++ '"' :: rest) =
      outlineFrom depth .bare rest := by
  induction cs with
  | nil => simp [Text.Quoted.encodeBody, outlineFrom]
  | cons c cs ih =>
    rw [Text.Quoted.encodeBody, List.flatMap_cons, List.append_assoc, outlineFrom_escape]
    exact ih

private theorem outlineFrom_name (depth : Nat) (name rest : List Char) :
    outlineFrom (depth + 1) .name (Text.Backtick.encodeBody name ++ '\x60' :: rest) =
      outlineFrom (depth + 1) .bare rest := by
  induction name with
  | nil => simp [Text.Backtick.encodeBody, outlineFrom]
  | cons c cs ih =>
    unfold Text.Backtick.encodeBody
    by_cases hc : c = Text.Backtick.mark
    · simp [hc, Text.Backtick.mark, outlineFrom, ih]
    · have hc' : ¬ c = '\x60' := hc
      simp [hc, outlineFrom, hc', ih]

private theorem isPlain_of_namePart {c : Char} (h : Grammar.NamePart c) : isPlain c = true := by
  simp only [isPlain, Bool.and_eq_true, bne_iff_ne, ne_eq]
  refine ⟨⟨⟨⟨?_, ?_⟩, ?_⟩, ?_⟩, ?_⟩ <;> rintro rfl <;> revert h <;>
    simp [Grammar.NamePart, Grammar.NameStart]

private theorem outlineFrom_identifier {i : Identifier} (h : i.WellFormed) (depth : Nat)
    (rest : List Char) :
    outlineFrom (depth + 1) .bare (i.chars ++ rest) = outlineFrom (depth + 1) .bare rest := by
  obtain ⟨name, quoted⟩ := i
  cases quoted with
  | false =>
    have hplain : name.toList.all isPlain = true := by
      have hname := h rfl
      cases hchars : name.toList with
      | nil => rfl
      | cons c cs =>
        simp only [hchars] at hname
        rw [List.all_cons, Bool.and_eq_true, List.all_eq_true]
        exact ⟨isPlain_of_namePart (.inl hname.1), fun d hd => isPlain_of_namePart (hname.2 d hd)⟩
    exact outlineFrom_plain_inside hplain depth rest
  | true =>
    have hbody := outlineFrom_name depth name.toList rest
    simpa [Identifier.chars, Text.Backtick.encode, Text.Backtick.mark, outlineFrom] using hbody

private theorem outlineFrom_pair {p : Pair} (h : p.key.WellFormed) (depth : Nat)
    (rest : List Char) :
    outlineFrom (depth + 1) .bare (p.chars ++ rest) = outlineFrom (depth + 1) .bare rest := by
  have hkey := outlineFrom_identifier h depth
    (':' :: ' ' :: '"' :: (Text.Quoted.encodeBody p.value.toList ++ '"' :: rest))
  have htext := outlineFrom_text (depth + 1) p.value.toList rest
  simpa [Pair.chars, Text.Quoted.encode, outlineFrom, htext] using hkey

private theorem outlineFrom_pairs {pairs : List Pair} (h : Block.WellFormed pairs) (depth : Nat)
    (rest : List Char) :
    outlineFrom (depth + 1) .bare (pairsChars pairs ++ rest) =
      outlineFrom (depth + 1) .bare rest := by
  induction pairs with
  | nil => rfl
  | cons pair pairs ih =>
    have hpair := outlineFrom_pair (h pair List.mem_cons_self) depth
    cases pairs with
    | nil => exact hpair rest
    | cons next pairs =>
      have hnext := ih fun p hp => h p (List.mem_cons_of_mem pair hp)
      have hcomma := hpair (',' :: ' ' :: (pairsChars (next :: pairs) ++ rest))
      simpa [pairsChars, outlineFrom, hnext] using hcomma

/-- A property block leaves no trace in the outline, whatever its values hold. -/
theorem outlineFrom_block {b : Block} (h : Block.WellFormed b) (rest : List Char) :
    outlineFrom 0 .bare (Block.chars b ++ rest) = outlineFrom 0 .bare rest := by
  have hpairs := outlineFrom_pairs h 0 ('\x7d' :: rest)
  simpa [Block.chars, outlineFrom] using hpairs

/-- Wherever the text stands outside of texts and maps, `trace` is what the outline has of it. -/
def Outlines (s : String) (trace : List Char) : Prop :=
  ∀ rest, outlineFrom 0 .bare (s.toList ++ rest) = trace ++ outlineFrom 0 .bare rest

/-- The outline of a text is put together from the outlines of its parts. -/
theorem Outlines.append {s s' : String} {trace trace' : List Char} (h : Outlines s trace)
    (h' : Outlines s' trace') : Outlines (s ++ s') (trace ++ trace') := by
  intro rest
  rw [String.toList_append, List.append_assoc, h, h', List.append_assoc]

theorem Outlines.plain_toList {s : String} (h : s.toList.all isPlain = true) :
    Outlines s s.toList :=
  outlineFrom_plain h

/-- The characters are given as a list, since a long text is slow to take apart. -/
theorem Outlines.plain (cs : List Char) (h : cs.all isPlain = true) :
    Outlines (String.ofList cs) cs := by
  intro rest
  rw [String.toList_ofList]
  exact outlineFrom_plain h rest

/-- Pieces that follow a first part, as a query is put together from left to right. -/
theorem Outlines.append_all {s : String} {trace : List Char} (h : Outlines s trace)
    (pieces : List (List Char)) (hplain : pieces.all (·.all isPlain) = true) :
    Outlines (pieces.foldl (fun s cs => s ++ String.ofList cs) s) (trace ++ pieces.flatten) := by
  induction pieces generalizing s trace with
  | nil => rwa [List.flatten_nil, List.append_nil]
  | cons cs pieces ih =>
    rw [List.all_cons, Bool.and_eq_true] at hplain
    rw [List.foldl_cons, List.flatten_cons, ← List.append_assoc]
    exact ih (h.append (.plain cs hplain.1)) hplain.2

/-- What a query can make depends on the outline of its text only. -/
theorem Outlines.canMake_eq {q : Query} {trace : List Char} (h : Outlines q.text trace)
    (edge : String) : q.canMake edge = outlineMakes edge trace := by
  have hend := h []
  rw [List.append_nil, outlineFrom, List.append_nil] at hend
  rw [canMake_of_toList rfl, hend]

theorem outlines_block (node : NodePattern) : Outlines node.block [] := by
  intro rest
  rw [node.block_toList]
  exact outlineFrom_block node.wellFormed_pairs rest

/-- A query whose text goes on from a first part with plain pieces. -/
theorem Outlines.canMake_of_pieces {q : Query} {s : String} {trace : List Char}
    (h : Outlines s trace) (pieces : List (List Char))
    (htext : q.text = pieces.foldl (fun s cs => s ++ String.ofList cs) s)
    (hplain : pieces.all (·.all isPlain) = true) {edge : String} {makes : Bool}
    (hmakes : outlineMakes edge (trace ++ pieces.flatten) = makes) : q.canMake edge = makes := by
  have houtline := h.append_all pieces hplain
  rw [← htext] at houtline
  rw [houtline.canMake_eq, hmakes]

def nodeTrace (name label : String) : List Char :=
  '(' :: (name.toList ++ ':' :: (label.toList ++ [' ', ')']))

/-- A node pattern leaves its variable and its label in the outline and nothing of its properties.
-/
theorem outlines_matching (node : NodePattern) {name label : String}
    (hname : name.toList.all isPlain = true) (hlabel : label.toList.all isPlain = true) :
    Outlines (node.matching name label) (nodeTrace name label) := by
  have hopen : Outlines "(" ['('] := .plain _ (by decide)
  have hname : Outlines name name.toList := .plain_toList hname
  have hcolon : Outlines ":" [':'] := .plain _ (by decide)
  have hlabel : Outlines label label.toList := .plain_toList hlabel
  have hspace : Outlines " " [' '] := .plain _ (by decide)
  have hclose : Outlines ")" [')'] := .plain _ (by decide)
  have hlabelled := ((hopen.append hname).append hcolon).append hlabel
  have hnode := ((hlabelled.append hspace).append (outlines_block node)).append hclose
  simpa [NodePattern.matching, nodeTrace] using hnode

theorem outlines_classNode (node : NodePattern) {name : String}
    (hname : name.toList.all isPlain = true) :
    Outlines (node.matching name classLabel) (nodeTrace name classLabel) :=
  outlines_matching node hname (by decide)

theorem outlines_match : Outlines "MATCH " "MATCH ".toList :=
  .plain _ (by decide)

theorem outlines_comma : Outlines ", " ", ".toList :=
  .plain _ (by decide)

end Outline

end OntologyGraph
