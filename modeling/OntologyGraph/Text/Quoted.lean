import OntologyGraph.Except

/-!
Texts between double quotes. The quote, the backslash, the line feed, the tab and the carriage
return are written with a backslash; every other character stands for itself.
-/

namespace OntologyGraph.Text.Quoted

/-- How one character of the text is written. -/
def escape (c : Char) : List Char :=
  if c = '"' then ['\\', '"']
  else if c = '\\' then ['\\', '\\']
  else if c = '\n' then ['\\', 'n']
  else if c = '\t' then ['\\', 't']
  else if c = '\r' then ['\\', 'r']
  else [c]

/-- The character that a backslash and `c` stand for. -/
def unescape? (c : Char) : Option Char :=
  if c = '"' then some '"'
  else if c = '\\' then some '\\'
  else if c = 'n' then some '\n'
  else if c = 't' then some '\t'
  else if c = 'r' then some '\r'
  else none

def encodeBody (cs : List Char) : List Char :=
  cs.flatMap escape

/-- The text with its quotes around it. -/
def encode (cs : List Char) : List Char :=
  '"' :: (encodeBody cs ++ ['"'])

def escapeText (s : String) : String :=
  String.ofList (encodeBody s.toList)

/-- Reads a text and its closing quote, from just after the opening one. The answer holds the text
and what follows it. On failure it is the input from where no character of the text can be read:
a backslash that begins no escape, or the end. -/
def readBody : List Char → Except (List Char) (List Char × List Char)
  | [] => .error []
  | c :: cs =>
    if c = '"' then .ok ([], cs)
    else if c = '\\' then
      match cs with
      | [] => .error [c]
      | d :: ds =>
        match unescape? d with
        | some e => (readBody ds).map fun (text, rest) => (e :: text, rest)
        | none => .error (c :: d :: ds)
    else (readBody cs).map fun (text, rest) => (c :: text, rest)

theorem readBody_length {cs text rest : List Char} (h : readBody cs = .ok (text, rest)) :
    rest.length < cs.length := by
  fun_induction readBody cs generalizing text rest with
  | case1 => cases h
  | case2 =>
    simp only [Except.ok.injEq, Prod.mk.injEq] at h
    simp [← h.2]
  | case3 => cases h
  | case4 hq d ds e he ih =>
    simp only [Except.map_eq_ok_iff, Prod.exists, Prod.mk.injEq] at h
    obtain ⟨text', rest', h', -, rfl⟩ := h
    have := ih h'
    simp only [List.length_cons]
    omega
  | case5 => cases h
  | case6 c cs hq hb ih =>
    simp only [Except.map_eq_ok_iff, Prod.exists, Prod.mk.injEq] at h
    obtain ⟨text', rest', h', -, rfl⟩ := h
    have := ih h'
    simp only [List.length_cons]
    omega

/-- A character that is neither a quote nor a backslash stands for itself. -/
theorem readBody_cons_of_ne {c : Char} (hq : c ≠ '"') (hb : c ≠ '\\') (cs : List Char) :
    readBody (c :: cs) = (readBody cs).map fun (text, rest) => (c :: text, rest) := by
  cases cs <;> simp [readBody, hq, hb]

/-- Reading a quoted text gives the text back and stops right behind it, whatever follows. -/
theorem readBody_encodeBody (cs rest : List Char) :
    readBody (encodeBody cs ++ '"' :: rest) = .ok (cs, rest) := by
  induction cs with
  | nil => cases rest <;> simp [encodeBody, readBody]
  | cons c cs ih =>
    simp only [encodeBody, List.flatMap_cons, List.append_assoc] at ih ⊢
    by_cases hq : c = '"'
    · subst hq
      simp [escape, readBody, unescape?, ih, Except.map]
    by_cases hb : c = '\\'
    · subst hb
      simp [escape, readBody, unescape?, ih, Except.map]
    by_cases hn : c = '\n'
    · subst hn
      simp [escape, readBody, unescape?, ih, Except.map]
    by_cases ht : c = '\t'
    · subst ht
      simp [escape, readBody, unescape?, ih, Except.map]
    by_cases hr : c = '\r'
    · subst hr
      simp [escape, readBody, unescape?, ih, Except.map]
    simp [escape, readBody_cons_of_ne hq hb, hq, hb, hn, ht, hr, ih, Except.map]

end OntologyGraph.Text.Quoted
