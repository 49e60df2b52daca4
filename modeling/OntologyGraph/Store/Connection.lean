import OntologyGraph.Settings

/-!
Connecting to the graph database: attempts one after the other until one succeeds.
-/

namespace OntologyGraph

namespace ConnectionSettings

/-- A connection is tried at least once. -/
def attempts (s : ConnectionSettings) : Nat :=
  max 1 s.retries

/-- The first success among `left` attempts from the `n`-th on, or the error of the last. -/
def tryFrom {α : Type} (attempt : Nat → Except String α) (n : Nat) (lastError : String) :
    Nat → Except String α
  | 0 => .error lastError
  | left + 1 =>
    match attempt n with
    | .ok connection => .ok connection
    | .error e => tryFrom attempt (n + 1) e left

/-- The first connection that an attempt makes. Without a password none is tried. -/
def connect {α : Type} (s : ConnectionSettings) (attempt : Nat → Except String α) :
    Except StoreFault α :=
  if s.password = "" then .error (.connection "NEO4J_PASSWORD is not set")
  else
    (tryFrom attempt 1 "" s.attempts).mapError fun lastError =>
      .connection ("Failed to connect to Neo4j after " ++ countText s.attempts ++
        " attempts. Last error: " ++ lastError)

end ConnectionSettings

end OntologyGraph
