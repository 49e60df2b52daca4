import OntologyGraph.Value

/-!
Property maps, and the rows that a store answers a query with.
-/

namespace OntologyGraph

/-- The properties of a node, in order of insertion. -/
abbrev PropertyMap := TextMap Value

namespace PropertyMap

/-- Every value replaced by its text. -/
def stringified (m : PropertyMap) : PropertyMap :=
  m.mapValues fun v => .text v.toText

/-- The map as a JSON object that keeps the order of insertion; maps within it are sorted. -/
def toJson (m : PropertyMap) : Json :=
  .object (m.entries.map fun (k, v) => (k, v.toJson))

def serialized (m : PropertyMap) : String :=
  m.toJson.toText

/-- Whether two maps hold equal values under the same keys in the same order. -/
def equal (a b : PropertyMap) : Bool :=
  Value.equalEntries a.entries b.entries

end PropertyMap

/-- A row of a store's answer: the values of its columns. -/
abbrev Row := PropertyMap

namespace Row

/-- The text of a column, unless it is missing or null. -/
def text? (row : Row) (column : String) : Option String :=
  match row.get? column with
  | none | some .null => none
  | some v => some v.toText

/-- The text of a column, empty when it is missing or null. -/
def text (row : Row) (column : String) : String :=
  (row.text? column).getD ""

/-- Whether a column holds the truth value true. -/
def flag (row : Row) (column : String) : Bool :=
  ((row.get? column).bind Value.asBool?).getD false

/-- The texts of the items of a column that holds a list. -/
def texts (row : Row) (column : String) : List String :=
  (((row.get? column).bind Value.asList?).getD []).map Value.toText

/-- A column that holds a map. -/
def map? (row : Row) (column : String) : Option PropertyMap :=
  (row.get? column).bind Value.asMap?

end Row

end OntologyGraph
