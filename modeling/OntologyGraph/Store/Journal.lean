import OntologyGraph.Store.Program

/-!
A record of the requests that a program makes, kept beside the state of any store.
-/

namespace OntologyGraph.Store

/-- A store's state, and the reads and writes since the record was opened, those that failed
included, the earliest first. -/
structure Journal (σ : Type) where
  state : σ
  fetched : List Query := []
  executed : List Query := []

/-- The store with a record of its reads and writes. -/
def Backend.recorded {σ : Type} (backend : Backend σ) : Backend (Journal σ) where
  fetch query journal :=
    let (rows, state) := backend.fetch query journal.state
    (rows, { journal with state, fetched := journal.fetched ++ [query] })
  execute query journal :=
    let (written, state) := backend.execute query journal.state
    (written, { journal with state, executed := journal.executed ++ [query] })
  stamp journal :=
    let (drawn, state) := backend.stamp journal.state
    (drawn, { journal with state })

end OntologyGraph.Store
