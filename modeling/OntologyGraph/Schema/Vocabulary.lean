/-!
The labels of the ontology's own nodes and the types of the edges between them.
-/

namespace OntologyGraph.Schema

/-- The label of class nodes. -/
def classLabel : String := "OntologyNode"

/-- The label of property classes. -/
def propertyLabel : String := "OntologyProperty"

/-- The label of relationship classes. -/
def relationshipLabel : String := "OntologyRelationship"

def subclassEdge : String := "SUBCLASS_OF"
def definedPropertyEdge : String := "HAS_PROPERTY"
def requiredPropertyEdge : String := "REQUIRE_PROPERTY"
def relationshipEdge : String := "HAS_RELATIONSHIP"
def targetEdge : String := "HAS_TARGET"

end OntologyGraph.Schema
