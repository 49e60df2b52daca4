import OntologyGraph.Decimal.Numeral
import OntologyGraph.Fault
import OntologyGraph.Text.Blank

/-!
Settings: where the graph is, and how strictly the ontology is kept. They are read from named
variables; a variable that is not set, or does not spell a value of its kind, leaves the default.
-/

namespace OntologyGraph

/-- How to reach the graph database. -/
structure ConnectionSettings where
  uri : String := "neo4j://localhost:7687"
  username : String := "neo4j"
  password : String := ""
  database : Option String := none
  poolSize : Nat := 10
  retries : Nat := 3
  retryDelayMs : Nat := 2000
deriving Repr, DecidableEq

structure OntologySettings where
  /-- A class has one parent at most. -/
  singleInheritance : Bool := true
  /-- The greatest number of classes in a lineage; a longer one counts as a cycle. -/
  maxLineageDepth : Nat := 64
  /-- Undefined properties and labels are violations. -/
  strictValidation : Bool := true
deriving Repr, DecidableEq

structure Settings where
  connection : ConnectionSettings := {}
  ontology : OntologySettings := {}
  /-- The file that keeps the statements entered before, if one is named. -/
  history : Option String := none
deriving Repr, DecidableEq

namespace Settings

/-- The name of the history file in the user's own directory. -/
def historyName : String := ".nql_history"

/-- A variable read as a value, blanks around it left out. -/
def readOr {α : Type} (read? : List Char → Option α) (lookup : String → Option String)
    (name : String) (default : α) : α :=
  ((lookup name).bind fun s => read? (Text.stripBoth Text.isBlank s.toList)).getD default

def readBool? (cs : List Char) : Option Bool :=
  if cs = "true".toList then some true
  else if cs = "false".toList then some false
  else none

/-- The variables that are looked up. -/
def variableNames : List String :=
  ["NEO4J_URI", "NEO4J_USER", "NEO4J_PASSWORD", "NEO4J_DATABASE", "NEO4J_POOL_SIZE",
    "NEO4J_CONNECTION_RETRIES", "NEURO_SINGLE_INHERITANCE", "NEURO_MAX_LINEAGE_DEPTH",
    "NEURO_STRICT_VALIDATION", "NQL_HISTORY"]

/-- The settings that variables give. -/
def ofVariables (lookup : String → Option String) : Settings where
  connection :=
    let defaults : ConnectionSettings := {}
    { uri := (lookup "NEO4J_URI").getD defaults.uri
      username := (lookup "NEO4J_USER").getD defaults.username
      password := (lookup "NEO4J_PASSWORD").getD defaults.password
      database := (lookup "NEO4J_DATABASE").filter (· ≠ "")
      poolSize := readOr (Decimal.below? UInt64.size) lookup "NEO4J_POOL_SIZE" defaults.poolSize
      retries :=
        readOr (Decimal.below? UInt32.size) lookup "NEO4J_CONNECTION_RETRIES" defaults.retries }
  ontology :=
    let defaults : OntologySettings := {}
    { singleInheritance :=
        readOr readBool? lookup "NEURO_SINGLE_INHERITANCE" defaults.singleInheritance
      maxLineageDepth :=
        readOr (Decimal.below? UInt64.size) lookup "NEURO_MAX_LINEAGE_DEPTH"
          defaults.maxLineageDepth
      strictValidation :=
        readOr readBool? lookup "NEURO_STRICT_VALIDATION" defaults.strictValidation }
  history := lookup "NQL_HISTORY"

end Settings

end OntologyGraph
