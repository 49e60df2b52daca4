import Mathlib.Data.List.Forall2
import Mathlib.Data.List.TakeWhile
import OntologyGraph.Schema.Walk

/-!
Labels as rows have them. A stored label can stand in backticks, any number of them, which are no
part of the label; a read takes them away, and nothing else.
-/

namespace OntologyGraph.Schema

open Store

/-- A label as it is stored: with backticks before and behind it, or none. The label itself neither
begins nor ends in one. -/
def StoredAs (stored label : String) : Prop :=
  ∃ before behind : List Char, stored.toList = before ++ label.toList ++ behind ∧
    (∀ c ∈ before ++ behind, c = '\x60') ∧
    label.toList.head? ≠ some '\x60' ∧ label.toList.getLast? ≠ some '\x60'

section Stripping

variable {p : Char → Bool} {cs body before behind : List Char}

private theorem dropWhile_of_head? (h : ∀ c ∈ cs.head?, p c = false) : cs.dropWhile p = cs := by
  cases cs with
  | nil => rfl
  | cons c cs => exact List.dropWhile_cons_of_neg (by simp [h c rfl])

private theorem head?_dropWhile (cs : List Char) : ∀ c ∈ (cs.dropWhile p).head?, p c = false := by
  intro c hc
  have hnot := List.head?_dropWhile_not p cs
  rw [Option.mem_def.mp hc] at hnot
  simpa using hnot

private theorem stripBoth_append (hbefore : ∀ c ∈ before, p c = true)
    (hbehind : ∀ c ∈ behind, p c = true)
    (hfirst : ∀ c ∈ body.head?, p c = false) (hlast : ∀ c ∈ body.getLast?, p c = false) :
    Text.stripBoth p (before ++ body ++ behind) = body := by
  have hreverse : (behind.reverse ++ body.reverse).dropWhile p = body.reverse := by
    rw [List.dropWhile_append_of_pos fun c hc => hbehind c (List.mem_reverse.mp hc)]
    apply dropWhile_of_head?
    rw [List.head?_reverse]
    exact hlast
  unfold Text.stripBoth
  rw [List.append_assoc, List.dropWhile_append_of_pos hbefore]
  cases body with
  | nil =>
    rw [List.nil_append, List.dropWhile_eq_nil_iff.mpr hbehind]
    rfl
  | cons c body =>
    rw [List.cons_append, List.dropWhile_cons_of_neg (by simp [hfirst c rfl]), ← List.cons_append,
      List.reverse_append, hreverse, List.reverse_reverse]

/-- Stripping takes apart what is stripped at either end and what is left. -/
theorem exists_of_stripBoth (p : Char → Bool) (cs : List Char) :
    ∃ before behind, cs = before ++ Text.stripBoth p cs ++ behind ∧
      (∀ c ∈ before ++ behind, p c = true) ∧
      (∀ c ∈ (Text.stripBoth p cs).head?, p c = false) ∧
      ∀ c ∈ (Text.stripBoth p cs).getLast?, p c = false := by
  let middle := cs.dropWhile p
  have hmiddle : middle = Text.stripBoth p cs ++ (middle.reverse.takeWhile p).reverse := by
    have hsplit := congrArg List.reverse
      (List.takeWhile_append_dropWhile (p := p) (l := middle.reverse))
    rw [List.reverse_append, List.reverse_reverse] at hsplit
    exact hsplit.symm
  refine ⟨cs.takeWhile p, (middle.reverse.takeWhile p).reverse, ?_, ?_, ?_, ?_⟩
  · rw [List.append_assoc, ← hmiddle]
    exact List.takeWhile_append_dropWhile.symm
  · intro c hc
    rcases List.mem_append.mp hc with hc | hc
    · exact List.mem_takeWhile_imp hc
    · exact List.mem_takeWhile_imp (List.mem_reverse.mp hc)
  · intro c hc
    apply head?_dropWhile cs c
    change c ∈ middle.head?
    rw [hmiddle]
    exact List.mem_head?_append_of_mem_head? hc
  · intro c hc
    rw [Text.stripBoth, List.getLast?_reverse] at hc
    exact head?_dropWhile _ c hc

end Stripping

/-- The label read of a column is the only one stored there: what is left between the outer
backticks, all of them taken off. -/
theorem cleanLabel_eq_iff {row : Row} {column label : String} :
    cleanLabel row column = label ↔ StoredAs (row.text column) label := by
  have hmark (o : Option Char) :
      (∀ c ∈ o, decide (c = '\x60') = false) ↔ o ≠ some '\x60' := by
    cases o <;> simp
  constructor
  · rintro rfl
    obtain ⟨before, behind, hsplit, hmarks, hfirst, hlast⟩ :=
      exists_of_stripBoth (· = '\x60') (row.text column).toList
    rw [cleanLabel, StoredAs, String.toList_ofList]
    exact ⟨before, behind, hsplit, fun c hc => of_decide_eq_true (hmarks c hc),
      (hmark _).mp hfirst, (hmark _).mp hlast⟩
  · rintro ⟨before, behind, hsplit, hmarks, hfirst, hlast⟩
    obtain ⟨hbefore, hbehind⟩ := List.forall_mem_append.mp hmarks
    rw [cleanLabel, hsplit, stripBoth_append (fun c hc => decide_eq_true (hbefore c hc))
      (fun c hc => decide_eq_true (hbehind c hc)) ((hmark _).mpr hfirst) ((hmark _).mpr hlast),
      String.ofList_toList]

/-- The parents of classes as rows have them, each row for one. -/
def ReadsParents (answers : Query → List Row) (parents : String → List String) : Prop :=
  ∀ label, List.Forall₂ (fun row parent => StoredAs (row.text "label") parent)
    (answers (aboutClass parentQuery label)) (parents label)

end OntologyGraph.Schema
