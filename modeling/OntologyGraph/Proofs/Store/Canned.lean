import OntologyGraph.Proofs.Store.Repeating
import OntologyGraph.Proofs.Values.JsonText

/-!
The rows of a store with canned answers. They are kept under texts that put a query and its
parameters together, and from such a text both can be told, so each query gets the rows that were
added for it and no others.
-/

namespace OntologyGraph.Store

namespace Query

/-- Serialized parameters hold no NUL: controls are escaped in the text of values. -/
theorem nul_not_mem_serialized (params : PropertyMap) : '\x00' ∉ params.serialized.toList := by
  rw [PropertyMap.serialized, Json.toText, String.toList_ofList]
  exact (Json.noControls_chars params.toJson).nul_not_mem

theorem toList_key (q : Query) :
    q.key.toList = q.text.toList ++ '\x00' :: q.params.serialized.toList := by
  rw [key, String.toList_append, String.toList_append, List.append_assoc]
  rfl

private theorem eq_nil_of_marks {mark : Char} {between after after' : List Char} (h : mark ∉ after)
    (heq : mark :: after = between ++ mark :: after') : between = [] := by
  cases between with
  | nil => rfl
  | cons c between =>
    cases heq
    exact absurd (List.mem_append_right between List.mem_cons_self) h

/-- A mark that does not occur behind its place is the last one, so the place can be found. -/
private theorem split_at_last {mark : Char} {before after before' after' : List Char}
    (h : mark ∉ after) (h' : mark ∉ after')
    (heq : before ++ mark :: after = before' ++ mark :: after') :
    before = before' ∧ after = after' := by
  have hbefore : before = before' := by
    rcases List.append_eq_append_iff.mp heq with
      ⟨between, hlonger, hafter⟩ | ⟨between, hlonger, hafter⟩
    · rw [hlonger, eq_nil_of_marks h hafter, List.append_nil]
    · rw [hlonger, eq_nil_of_marks h' hafter, List.append_nil]
  rw [hbefore] at heq
  exact ⟨hbefore, List.tail_eq_of_cons_eq (List.append_cancel_left heq)⟩

/-- Two queries are asked alike: they have the same text, and their parameters are the same JSON
text. -/
def AskedAlike (q q' : Query) : Prop :=
  q.text = q'.text ∧ q.params.serialized = q'.params.serialized

instance (q q' : Query) : Decidable (q.AskedAlike q') :=
  inferInstanceAs (Decidable (_ ∧ _))

/-- Two queries have one key exactly if they have the same text and the same serialized
parameters. -/
theorem key_eq_iff (q q' : Query) : q.key = q'.key ↔ q.AskedAlike q' := by
  constructor
  · intro h
    have hchars : q.key.toList = q'.key.toList := by rw [h]
    rw [toList_key, toList_key] at hchars
    obtain ⟨htext, hparams⟩ := split_at_last (nul_not_mem_serialized q.params)
      (nul_not_mem_serialized q'.params) hchars
    exact ⟨String.toList_inj.mp htext, String.toList_inj.mp hparams⟩
  · rintro ⟨htext, hparams⟩
    rw [key, key, htext, hparams]

end Query

namespace Canned

private theorem fetch_eq (query : Query) (s : Canned) :
    fetch query s = (.ok (s.rowsOf query), s) := rfl

private theorem rowsOf_addRows (s : Canned) (query added : Query) (rows : List Row) :
    (s.addRows added rows).rowsOf query =
      s.rowsOf query ++ if added.AskedAlike query then rows else [] := by
  split
  · next halike =>
    have hkey : added.key = query.key := (Query.key_eq_iff added query).mpr halike
    rw [rowsOf, addRows, hkey, TextMap.get?_insert_self]
    rfl
  · next halike =>
    have hkey : query.key ≠ added.key :=
      fun heq => halike ((Query.key_eq_iff added query).mp heq.symm)
    rw [rowsOf, addRows, TextMap.get?_insert_of_ne _ hkey, List.append_nil]
    rfl

inductive Call where
  | addRows (query : Query) (rows : List Row)
  | execute (query : Query)

def Call.apply : Call → Canned → Canned
  | .addRows query rows, s => s.addRows query rows
  | .execute query, s => (Canned.execute query s).2

def after (supply : Supply) (calls : List Call) : Canned :=
  calls.foldl (fun s call => call.apply s) { supply }

def Call.rowsFor (query : Query) : Call → List Row
  | .addRows added rows => if added.AskedAlike query then rows else []
  | .execute _ => []

private theorem rowsOf_apply (call : Call) (s : Canned) (query : Query) :
    (call.apply s).rowsOf query = s.rowsOf query ++ call.rowsFor query := by
  cases call with
  | addRows added rows => exact rowsOf_addRows s query added rows
  | execute written => exact (List.append_nil _).symm

private theorem rowsOf_foldl (calls : List Call) (s : Canned) (query : Query) :
    (calls.foldl (fun s call => call.apply s) s).rowsOf query =
      s.rowsOf query ++ calls.flatMap (Call.rowsFor query) := by
  induction calls generalizing s with
  | nil => exact (List.append_nil _).symm
  | cons call calls ih =>
    rw [List.foldl_cons, ih, rowsOf_apply, List.flatMap_cons, List.append_assoc]

/-- A canned store holds for a query the rows of all calls that added to it, in order. -/
theorem rowsOf_after (supply : Supply) (calls : List Call) (query : Query) :
    (after supply calls).rowsOf query = calls.flatMap (Call.rowsFor query) :=
  rowsOf_foldl calls { supply } query

/-- Whatever has been added and executed, reading a query gives all rows that were added for this
text and these parameters, in the order in which they were added, and no others. Reading changes
nothing. No two queries are taken for each other, not even if there are NULs in them. -/
theorem reads_exactly_added :
    (∀ supply calls query, backend.fetch query (after supply calls) =
      (.ok (calls.flatMap (Call.rowsFor query)), after supply calls)) ∧
    ∀ q q' : Query, q.key = q'.key ↔
      q.text = q'.text ∧ q.params.serialized = q'.params.serialized := by
  refine ⟨?_, Query.key_eq_iff⟩
  intro supply calls query
  change fetch query (after supply calls) = _
  rw [fetch_eq, rowsOf_after]

end Canned

end OntologyGraph.Store
