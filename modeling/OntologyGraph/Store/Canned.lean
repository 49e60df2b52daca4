import OntologyGraph.Store.Scripted

/-!
A store that answers every read of the same query with the same rows, and takes every write. Rows
are kept under one text for a query and its parameters: the query text, a NUL, and the parameters
as JSON, which never holds a NUL.
-/

namespace OntologyGraph.Store

/-- The text under which the rows of a query are kept. -/
def Query.key (q : Query) : String :=
  q.text ++ "\x00" ++ q.params.serialized

structure Canned where
  rows : TextMap (List Row) := .empty
  executed : List Query := []
  supply : Supply

namespace Canned

/-- Adds rows after those that the query already has. -/
def addRows (s : Canned) (query : Query) (rows : List Row) : Canned :=
  { s with rows := s.rows.insert query.key ((s.rows.get? query.key).getD [] ++ rows) }

/-- The rows of a query; none if none were added for it. -/
def fetch (query : Query) (s : Canned) : Rows × Canned :=
  (.ok ((s.rows.get? query.key).getD []), s)

def execute (query : Query) (s : Canned) : Written × Canned :=
  (.ok (), { s with executed := s.executed ++ [query] })

def stamp (s : Canned) : Stamp × Canned :=
  let (drawn, supply) := s.supply.draw
  (drawn, { s with supply })

def backend : Backend Canned := ⟨fetch, execute, stamp⟩

/-- Forgets all rows and all writes. -/
def clear (s : Canned) : Canned :=
  { s with rows := .empty, executed := [] }

/-- The store as it is shown in diagnostics. -/
def shown (s : Canned) : String :=
  "FakeGraphStore \x7b canned_queries: " ++ countText s.rows.size ++ ", executed: " ++
    countText s.executed.length ++ " \x7d"

end Canned

end OntologyGraph.Store
