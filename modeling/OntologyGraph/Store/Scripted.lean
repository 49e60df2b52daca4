import OntologyGraph.Store.Program

/-!
A store that plays back prepared answers, in order, and records every request that it gets.
-/

namespace OntologyGraph.Store

/-- Stamps that have not been drawn yet. -/
structure Supply where
  stamps : Nat → Stamp
  drawn : Nat := 0

def Supply.draw (s : Supply) : Stamp × Supply :=
  (s.stamps s.drawn, { s with drawn := s.drawn + 1 })

/-- The answers still to be given, and the requests so far, the earliest first. -/
structure Scripted where
  rows : List Rows := []
  written : List Written := []
  fetched : List Query := []
  executed : List Query := []
  supply : Supply

namespace Scripted

/-- The next prepared rows; none once they are used up. -/
def fetch (query : Query) (s : Scripted) : Rows × Scripted :=
  let s := { s with fetched := s.fetched ++ [query] }
  match s.rows with
  | [] => (.ok [], s)
  | rows :: later => (rows, { s with rows := later })

/-- The next prepared result of a write; success once they are used up. -/
def execute (query : Query) (s : Scripted) : Written × Scripted :=
  let s := { s with executed := s.executed ++ [query] }
  match s.written with
  | [] => (.ok (), s)
  | written :: later => (written, { s with written := later })

def stamp (s : Scripted) : Stamp × Scripted :=
  let (drawn, supply) := s.supply.draw
  (drawn, { s with supply })

def backend : Backend Scripted := ⟨fetch, execute, stamp⟩

/-- Adds answers after those still to be given. -/
def fill (s : Scripted) (rows : List Rows) (written : List Written) : Scripted :=
  { s with rows := s.rows ++ rows, written := s.written ++ written }

end Scripted

end OntologyGraph.Store
