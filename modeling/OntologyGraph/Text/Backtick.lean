/-!
Names between backticks. A backtick inside the name is written twice; every other character
stands for itself, so any text at all can be a name.
-/

namespace OntologyGraph.Text.Backtick

/-- The quote character, U+0060. -/
def mark : Char := '\x60'

def encodeBody : List Char → List Char
  | [] => []
  | c :: cs => if c = mark then mark :: mark :: encodeBody cs else c :: encodeBody cs

/-- The name with its quotes around it. -/
def encode (name : List Char) : List Char :=
  mark :: (encodeBody name ++ [mark])

def encodeText (name : String) : String :=
  String.ofList (encode name.toList)

/-- Reads a name and its closing quote, from just after the opening one. The answer holds the
name and the text that follows; there is none when the closing quote is missing. -/
def readBody? : List Char → Option (List Char × List Char)
  | [] => none
  | c :: cs =>
    if c = mark then
      match cs with
      | [] => some ([], [])
      | d :: ds =>
        if d = mark then (readBody? ds).map fun (name, rest) => (mark :: name, rest)
        else some ([], d :: ds)
    else (readBody? cs).map fun (name, rest) => (c :: name, rest)

theorem readBody?_cons_of_ne {c : Char} (h : c ≠ mark) (cs : List Char) :
    readBody? (c :: cs) = (readBody? cs).map fun (name, rest) => (c :: name, rest) := by
  cases cs <;> simp [readBody?, h]

theorem readBody?_length {cs name rest : List Char} (h : readBody? cs = some (name, rest)) :
    rest.length < cs.length := by
  fun_induction readBody? cs generalizing name rest with
  | case1 => cases h
  | case2 =>
    simp only [Option.some.injEq, Prod.mk.injEq] at h
    simp [← h.2]
  | case3 ds ih =>
    simp only [Option.map_eq_some_iff, Prod.exists, Prod.mk.injEq] at h
    obtain ⟨name', rest', h', -, rfl⟩ := h
    have := ih h'
    simp only [List.length_cons]
    omega
  | case4 d ds hd =>
    simp only [Option.some.injEq, Prod.mk.injEq] at h
    simp [← h.2]
  | case5 c cs hc ih =>
    simp only [Option.map_eq_some_iff, Prod.exists, Prod.mk.injEq] at h
    obtain ⟨name', rest', h', -, rfl⟩ := h
    have := ih h'
    simp only [List.length_cons]
    omega

/-- Reading a quoted name gives the name back and stops right behind it, unless what follows looks
like another half of a doubled quote. -/
theorem readBody?_encodeBody (name : List Char) {rest : List Char} (h : rest.head? ≠ some mark) :
    readBody? (encodeBody name ++ mark :: rest) = some (name, rest) := by
  induction name with
  | nil =>
    cases rest with
    | nil => simp [encodeBody, readBody?]
    | cons d ds =>
      have hd : d ≠ mark := by simpa using h
      simp [encodeBody, readBody?, hd]
  | cons c cs ih =>
    by_cases hc : c = mark
    · simp [encodeBody, readBody?, hc, ih]
    · simp [encodeBody, readBody?_cons_of_ne hc, hc, ih]

end OntologyGraph.Text.Backtick
