import OntologyGraph.Proofs.Script.Acceptance

/-!
What derivations rest on. A rule of the grammar knows nothing of the text behind what it derives
but whether a name ends before it. So the text behind can be exchanged for any other before which
the same names end, and the rule derives the same. Texts that begin with the same two characters
can be exchanged so.
-/

namespace OntologyGraph.Script

open Grammar

/-- A relation of texts that can stand for one another behind what is read: every name that ends
before the first ends before the second, and the relation holds with more text before both. -/
structure Exchange (like : List Char → List Char → Prop) : Prop where
  behind : ∀ {rest rest'} (read : List Char), like rest rest' → like (read ++ rest) (read ++ rest')
  namePart : ∀ {rest rest'}, like rest rest' → Stops NamePart rest → Stops NamePart rest'
  quote : ∀ {rest rest'}, like rest rest' → Stops (· = '\x60') rest → Stops (· = '\x60') rest'

/-- The text before `rest` makes `holds` true of the two, whatever `rest` is exchanged for. -/
def Carries (like holds : List Char → List Char → Prop) (cs rest : List Char) : Prop :=
  ∃ read, cs = read ++ rest ∧ ∀ rest', like rest rest' → holds (read ++ rest') rest'

section Carrying

variable {like holds holds' : List Char → List Char → Prop} {P : Char → Prop}
  {cs middle rest : List Char}

/-- What is carried along implies what it is weakened to. -/
theorem Carries.imp (h : Carries like holds cs rest)
    (himp : ∀ a b, like rest b → holds a b → holds' a b) : Carries like holds' cs rest := by
  obtain ⟨read, rfl, h⟩ := h
  exact ⟨read, rfl, fun rest' hrest => himp _ _ hrest (h rest' hrest)⟩

theorem Carries.suffix (h : Carries like holds cs rest) : rest <:+ cs := by
  obtain ⟨read, rfl, -⟩ := h
  exact List.suffix_append read rest

/-- What is between the two parts is exchanged too, for a text like it. -/
theorem Carries.trans (hlike : Exchange like) (h : Carries like holds cs middle)
    (h' : Carries like holds' middle rest) :
    Carries like (fun a c => ∃ b, like middle b ∧ holds a b ∧ holds' b c) cs rest := by
  obtain ⟨read, rfl, h⟩ := h
  obtain ⟨more, rfl, h'⟩ := h'
  refine ⟨read ++ more, by simp, ?_⟩
  intro rest' hrest
  have hmiddle := hlike.behind more hrest
  rw [List.append_assoc]
  exact ⟨more ++ rest', hmiddle, h _ hmiddle, h' rest' hrest⟩

theorem carries_refl (h : ∀ rest', like rest rest' → holds rest' rest') :
    Carries like holds rest rest :=
  ⟨[], rfl, h⟩

theorem carries_cons (c : Char) : Carries like (fun a b => a = c :: b) (c :: cs) cs :=
  ⟨[c], rfl, fun _ _ => rfl⟩

theorem run_carries (h : Run P cs rest) : Carries like (Run P) cs rest := by
  obtain ⟨run, rfl, hrun⟩ := h
  exact ⟨run, rfl, fun rest' _ => ⟨run, rfl, hrun⟩⟩

/-- A run up to a mark, and the mark. -/
theorem mark_carries {mark : Char} (h : Run P cs (mark :: rest)) :
    Carries like (fun a b => Run P a (mark :: b)) cs rest := by
  obtain ⟨run, rfl, hrun⟩ := h
  refine ⟨run ++ [mark], by simp, ?_⟩
  intro rest' _
  exact ⟨run, by simp, hrun⟩

theorem word_carries (hlike : Exchange like) {word : String} (h : Word cs word rest) :
    Carries like (Word · word ·) cs rest := by
  obtain ⟨rfl, hname, hstop⟩ := h
  exact ⟨word.toList, rfl, fun rest' hrest => ⟨rfl, hname, hlike.namePart hrest hstop⟩⟩

theorem quotedName_carries (hlike : Exchange like) {name : List Char}
    (h : QuotedName cs name rest) : Carries like (QuotedName · name ·) cs rest := by
  induction h with
  | close hstop => exact ⟨['\x60'], rfl, fun rest' hrest => .close (hlike.quote hrest hstop)⟩
  | doubled _ ih =>
    obtain ⟨read, rfl, h⟩ := ih
    exact ⟨'\x60' :: '\x60' :: read, rfl, fun rest' hrest => .doubled (h rest' hrest)⟩
  | @other c _ _ _ hc _ ih =>
    obtain ⟨read, rfl, h⟩ := ih
    exact ⟨c :: read, rfl, fun rest' hrest => .other hc (h rest' hrest)⟩

theorem ident_carries (hlike : Exchange like) {i : Identifier} (h : Ident cs i rest) :
    Carries like (Ident · i ·) cs rest := by
  cases h with
  | bare hword => exact (word_carries hlike hword).imp fun _ _ _ h => .bare h
  | quoted hname =>
    refine ((carries_cons '\x60').trans hlike (quotedName_carries hlike hname)).imp ?_
    rintro _ c - ⟨b, -, rfl, hname⟩
    exact .quoted hname

theorem quotedText_carries {text : List Char} (h : QuotedText cs text rest) :
    Carries like (QuotedText · text ·) cs rest := by
  induction h with
  | close => exact ⟨['"'], rfl, fun _ _ => .close⟩
  | @escape c _ _ _ _ he _ ih =>
    obtain ⟨read, rfl, h⟩ := ih
    exact ⟨'\\' :: c :: read, rfl, fun rest' hrest => .escape he (h rest' hrest)⟩
  | @other c _ _ _ hq hb _ ih =>
    obtain ⟨read, rfl, h⟩ := ih
    exact ⟨c :: read, rfl, fun rest' hrest => .other hq hb (h rest' hrest)⟩

theorem keyText_carries (hlike : Exchange like) {pair : Pair} (h : KeyText cs pair rest) :
    Carries like (KeyText · pair ·) cs rest := by
  obtain ⟨hkey, hcolon, hrun, htext⟩ := h
  refine ((ident_carries hlike hkey).trans hlike <| (mark_carries hcolon).trans hlike <|
    (mark_carries hrun).trans hlike (quotedText_carries htext)).imp ?_
  rintro a d - ⟨_, -, hkey, _, -, hcolon, _, -, hrun, htext⟩
  exact .mk hkey hcolon hrun htext

theorem pairsToBrace_carries (hlike : Exchange like) {pairs : List Pair}
    (h : PairsToBrace cs pairs rest) : Carries like (PairsToBrace · pairs ·) cs rest := by
  induction h with
  | close hclose => exact (mark_carries hclose).imp fun _ _ _ h => .close h
  | last hfirst hpair hclose =>
    refine ((run_carries hfirst).trans hlike <| (keyText_carries hlike hpair).trans hlike
      (mark_carries hclose)).imp ?_
    rintro a d - ⟨_, -, hfirst, _, -, hpair, hclose⟩
    exact .last hfirst hpair hclose
  | more hfirst hpair hnext _ ih =>
    refine ((run_carries hfirst).trans hlike <| (keyText_carries hlike hpair).trans hlike <|
      (mark_carries hnext).trans hlike ih).imp ?_
    rintro a d - ⟨_, -, hfirst, _, -, hpair, _, -, hnext, hpairs⟩
    exact .more hfirst hpair hnext hpairs

theorem braced_carries (hlike : Exchange like) {block : Block} (h : Braced cs block rest) :
    Carries like (Braced · block ·) cs rest := by
  have hbrace : ∃ ds, cs = '\x7b' :: ds := by cases h <;> simp
  obtain ⟨ds, rfl⟩ := hbrace
  have hpairs := pairsToBrace_carries hlike ((braced_iff ds block rest).mp h)
  refine ((carries_cons '\x7b').trans hlike hpairs).imp ?_
  rintro _ c - ⟨b, -, rfl, hpairs⟩
  exact (braced_iff b block c).mpr hpairs

theorem reference_carries (hlike : Exchange like) {node : NodeRef} (h : Reference cs node rest) :
    Carries like (Reference · node ·) cs rest := by
  cases h with
  | bare hlabel => exact (ident_carries hlike hlabel).imp fun _ _ _ h => .bare h
  | braced hlabel hrun hblock =>
    refine ((ident_carries hlike hlabel).trans hlike <| (run_carries hrun).trans hlike
      (braced_carries hlike hblock)).imp ?_
    rintro a d - ⟨_, -, hlabel, _, -, hrun, hblock⟩
    exact .braced hlabel hrun hblock

theorem references_carries (hlike : Exchange like) {nodes : List NodeRef}
    (h : References cs nodes rest) : Carries like (References · nodes ·) cs rest := by
  induction h with
  | nil => exact carries_refl fun _ _ => .nil
  | cons hrun hnode _ ih =>
    refine ((run_carries hrun).trans hlike <| (reference_carries hlike hnode).trans hlike ih).imp ?_
    rintro a d - ⟨_, -, hrun, _, -, hnode, hnodes⟩
    exact .cons hrun hnode hnodes

/-- A statement is one whatever stands behind it, as long as it begins alike. -/
theorem sentence_carries (hlike : Exchange like) {s : Statement} (h : Sentence cs s rest) :
    Carries like (Sentence · s ·) cs rest := by
  obtain ⟨hword, hproper, hnodes, hshape⟩ := h
  refine ((word_carries hlike hword).trans hlike (references_carries hlike hnodes)).imp ?_
  rintro a c - ⟨_, -, hword, hnodes⟩
  exact .mk hword hproper hnodes hshape

theorem separator_carries (h : Separator cs rest) : Carries like Separator cs rest := by
  cases h with
  | semicolon => exact ⟨[';'], rfl, fun _ _ => .semicolon⟩
  | lineFeed => exact ⟨['\n'], rfl, fun _ _ => .lineFeed⟩
  | carriageReturn => exact ⟨['\r', '\n'], rfl, fun _ _ => .carriageReturn⟩

end Carrying

/-- The two texts agree in their first two characters, and in the first two behind spaces. -/
structure BeginAlike (cs cs' : List Char) : Prop where
  front : cs.take 2 = cs'.take 2
  behindSpaces : (skipSpaces cs).take 2 = (skipSpaces cs').take 2

private theorem stops_of_take_eq {P : Char → Prop} {cs cs' : List Char} (h : cs.take 2 = cs'.take 2)
    (hstop : Stops P cs) : Stops P cs' := by
  have hhead : cs'.head? = cs.head? := by
    have htake := congrArg List.head? h
    simpa [List.head?_take] using htake.symm
  intro c hc
  exact hstop c (hhead ▸ hc)

private theorem take_append_eq {cs cs' : List Char} (h : cs.take 2 = cs'.take 2)
    (read : List Char) :
    (read ++ cs).take 2 = (read ++ cs').take 2 := by
  have hone : cs.take 1 = cs'.take 1 := by
    have htake := congrArg (List.take 1) h
    simpa [List.take_take] using htake
  match read with
  | [] => exact h
  | [c] => simp [hone]
  | c :: d :: read => simp

/-- Texts that begin alike stop the same runs. -/
theorem BeginAlike.stops {P : Char → Prop} {cs cs' : List Char} (h : BeginAlike cs cs')
    (hstop : Stops P cs) : Stops P cs' :=
  stops_of_take_eq h.front hstop

theorem BeginAlike.stops_behind {P : Char → Prop} {cs cs' : List Char} (h : BeginAlike cs cs')
    (hstop : Stops P (skipSpaces cs)) : Stops P (skipSpaces cs') :=
  stops_of_take_eq h.behindSpaces hstop

theorem BeginAlike.of_stops {cs cs' : List Char} (h : cs.take 2 = cs'.take 2)
    (hstop : Stops Space cs) : BeginAlike cs cs' where
  front := h
  behindSpaces := by
    rw [skipSpaces_eq (run_refl cs) hstop,
      skipSpaces_eq (run_refl cs') (stops_of_take_eq h hstop), h]

/-- With more text before both, the spaces end in it or they are those before the two texts. -/
theorem skipSpaces_append_alike {cs cs' : List Char} (h : BeginAlike cs cs') (read : List Char) :
    (skipSpaces (read ++ cs)).take 2 = (skipSpaces (read ++ cs')).take 2 := by
  induction read with
  | nil => exact h.behindSpaces
  | cons c read ih =>
    by_cases hc : isSpace c = true
    · simpa [skipSpaces, hc] using ih
    · simpa [skipSpaces, hc] using take_append_eq h.front (c :: read)

theorem exchange_alike : Exchange BeginAlike where
  behind read h := ⟨take_append_eq h.front read, skipSpaces_append_alike h read⟩
  namePart := BeginAlike.stops
  quote := BeginAlike.stops

theorem BeginAlike.symm {cs cs' : List Char} (h : BeginAlike cs cs') : BeginAlike cs' cs :=
  ⟨h.front.symm, h.behindSpaces.symm⟩

theorem BeginAlike.eq_nil {cs : List Char} (h : BeginAlike [] cs) : cs = [] := by
  simpa using h.front.symm

theorem BeginAlike.eq_cons {c : Char} {cs ds : List Char} (h : BeginAlike (c :: cs) ds) :
    ∃ cs', ds = c :: cs' := by
  have hhead := congrArg List.head? h.front
  exact List.head?_eq_some_iff.mp (by simpa [List.head?_take] using hhead.symm)

theorem BeginAlike.eq_singleton {c : Char} {cs : List Char} (h : BeginAlike [c] cs) :
    cs = [c] := by
  have hfront := h.front
  match cs with
  | [] => simp at hfront
  | [d] => simpa using hfront.symm
  | d :: e :: cs => simp at hfront

theorem BeginAlike.eq_cons_cons {c d : Char} {cs ds : List Char}
    (h : BeginAlike (c :: d :: cs) ds) : ∃ cs', ds = c :: d :: cs' := by
  have hfront := h.front
  match ds with
  | [] => simp at hfront
  | [e] => simp at hfront
  | e :: e' :: ds =>
    simp only [List.take_succ_cons, List.take_zero, List.cons.injEq, and_true] at hfront
    exact ⟨ds, by rw [hfront.1, hfront.2]⟩

end OntologyGraph.Script
