/-
This file lists what can be wrong with a shape. Shapes are part of the configuration, so none of
this is the fault of a request.
-/
import ShapeQuery.Rdf.Collection

namespace ShapeQuery.Shape

/-- Why a node is no property path. -/
inductive PathFault where
  | tooDeep
  | emptySequence
  | emptyAlternative
  | notAPath
  | nestedUnion
  | unknownConstruct
  | excludedCompound
  | noFacetValue
deriving DecidableEq

/-- The wording of a fault. -/
def PathFault.message : PathFault → String
  | .tooDeep => "the path is nested too deeply"
  | .emptySequence => "a sequence path must not be empty"
  | .emptyAlternative => "an alternative path must not be empty"
  | .notAPath => "a path must be an IRI or a blank node"
  | .nestedUnion => "sh:union is only supported as the direct value of sh:path"
  | .unknownConstruct => "unknown path construct"
  | .excludedCompound => "sh:maxCount 0 is only supported for direct paths"
  | .noFacetValue => "a facet path must end in a value node"

/-- Why the class of the values of a property is not clear. -/
inductive ClassFault where
  | severalClasses
  | literalMember
  | memberWithoutClass
  | classAndChoice
deriving DecidableEq

/-- The wording of a fault. -/
def ClassFault.message : ClassFault → String
  | .severalClasses => "several sh:class values; use sh:or to declare alternative classes"
  | .literalMember => "an sh:or member is a literal"
  | .memberWithoutClass => "only sh:class constraints are supported in sh:or"
  | .classAndChoice => "sh:class and sh:or are both declared"

/-- What is wrong with a shape. Shapes are told apart by the text of their node. -/
inductive Error where
  | missingPath (shape : String)
  | missingTargetClass (shape : String)
  | missingHierarchyLevel (shape : String)
  | malformedCollection (head : Rdf.Term) (fault : Rdf.CollectionFault)
  | unsupportedPath (node : String) (fault : PathFault)
  | ambiguousClass (shape : String) (fault : ClassFault)
  | invalidValue (shape : Rdf.Node) (predicate : Iri) (value : Rdf.Term)
  | missingFilterValue (shape : Rdf.Node)
  | notFound (shape : String)
  | syntaxFault
deriving DecidableEq

/-- The wording of an error. -/
def Error.message : Error → String
  | .missingPath shape => "The shape " ++ shape ++ " does not declare a sh:path."
  | .missingTargetClass shape =>
    "The node shape " ++ shape ++ " does not declare a target class."
  | .missingHierarchyLevel shape =>
    "The endpoint shape " ++ shape ++ " does not declare a hierarchy level."
  | .malformedCollection head fault =>
    "The RDF list starting at " ++ head.text ++ " is malformed: " ++ fault.message
  | .unsupportedPath node fault =>
    "Unsupported property path at " ++ node ++ ": " ++ fault.message
  | .ambiguousClass shape fault =>
    "The shape " ++ shape ++ " is ambiguous: " ++ fault.message
  | .invalidValue shape predicate value =>
    "Invalid value for " ++ predicate.bracketed ++ " on " ++ shape.text ++ ": " ++ value.text
  | .missingFilterValue shape =>
    "Invalid value for " ++ Vocabulary.shHasValue.bracketed ++ " on " ++ shape.text
      ++ ": a filter needs sh:hasValue or sh:in"
  | .notFound shape => "The shape " ++ shape ++ " could not be found."
  | .syntaxFault => "Could not parse the shape graph."

end ShapeQuery.Shape
