/-
This file carries out commands. Files and the standard input are read by whoever runs them.
-/
import ShapeQuery.CommandLine.Command
import ShapeQuery.Compiler.Session

namespace ShapeQuery.CommandLine

open Listing (BuildError)
open Sparql (Query Defect)

/-! ### Failures -/

/-- Why a command cannot be carried out. -/
inductive Failure where
  | unreadableConfiguration (path : String)
  | invalidConfiguration (path : String)
  | unreadableShapes (path : String)
  | invalidShapes (path : String)
  | queryableWithoutShapes
  | malformedQueryable (declaration : String)
  | invalidQueryable (name : String)
  | notAnIri (text : String)
  | unreadableFilter (path : String)
  | malformedFilter
  | shape (error : Shape.Error)
  | build (error : BuildError)

/-- The wording of a failure. -/
def Failure.message : Failure → String
  | .unreadableConfiguration path => "Failed to read the configuration " ++ path
  | .invalidConfiguration path => "Invalid configuration " ++ path
  | .unreadableShapes path => "Failed to read the shapes " ++ path
  | .invalidShapes path => "Invalid shapes " ++ path
  | .queryableWithoutShapes => "The --shapes option must be set to declare queryables"
  | .malformedQueryable declaration =>
    "The queryable " ++ declaration ++ " is not of the form NAME=SHAPE"
  | .invalidQueryable name => "Invalid queryable " ++ name
  | .notAnIri text => text ++ " is not a valid IRI"
  | .unreadableFilter path => "Failed to read " ++ path
  | .malformedFilter => "Invalid CQL2-JSON document"
  | .shape error => error.message
  | .build error => error.message

/-! ### Sources -/

/-- What is read while a command is carried out. A file that cannot be read has no content. -/
structure Sources (m : Type → Type) where
  file : String → m (Option String)
  input : m String

variable {m : Type → Type} [Monad m]

/-- The content of a file. -/
def Sources.content (sources : Sources m) (path : String) (failure : Failure) :
    ExceptT Failure m String := do
  match ← sources.file path with
  | some content => return content
  | none => throw failure

/-- The configuration of a command. -/
def configuration (sources : Sources m) : Option String → ExceptT Failure m Configuration
  | none => return .standard
  | some path => do
    let text ← sources.content path (.unreadableConfiguration path)
    match Configuration.ofText? text with
    | some configuration => return configuration
    | none => throw (.invalidConfiguration path)

/-- A filter document, from a file or else from the input. -/
def document (sources : Sources m) (path : Option String) : ExceptT Failure m Json := do
  let text ← match path with
    | some path => sources.content path (.unreadableFilter path)
    | none => sources.input
  match Json.parse? text with
  | some document => return document
  | none => throw .malformedFilter

/-! ### Steps -/

/-- An IRI of the command line. -/
def iri (text : String) : Except Failure Iri :=
  match Iri.ofText? text with
  | some iri => .ok iri
  | none => .error (.notAnIri text)

/-- Some IRIs of the command line. -/
def iris (texts : List String) : Except Failure (List Iri) :=
  texts.mapM iri

/-- The name of the graph that holds the shapes. -/
def shapesName : Iri := ⟨"urn:ldquery:shapes"⟩

/-- Declares a queryable, given as its name and its shape with an equals sign between them. -/
def declare (session : Session) (declaration : String) : Except Failure Session :=
  match Text.splitOnce '=' declaration with
  | none => .error (.malformedQueryable declaration)
  | some (name, shape) => do
    (session.declare shapesName (← iri shape) name).mapError fun _ => .invalidQueryable name

/-- Declares some queryables. -/
def declareAll (session : Session) (declarations : List String) : Except Failure Session :=
  declarations.foldlM declare session

/-- The session of a command. -/
def session (sources : Sources m) (configuration : Configuration) (shapes : ShapeSource) :
    ExceptT Failure m Session := do
  let session := Session.start (.ofConfiguration configuration)
  match shapes.file with
  | none =>
    if shapes.queryables.isEmpty then return session else throw .queryableWithoutShapes
  | some path =>
    let text ← sources.content path (.unreadableShapes path)
    match session.load shapesName text with
    | .error _ => throw (.invalidShapes path)
    | .ok session => declareAll session shapes.queryables

/-- A node shape of the session. -/
def nodeShape (session : Session) (shape : String) : Except Failure NodeShape := do
  (session.nodeShape shapesName (← iri shape)).mapError .shape

/-- A property shape of the session. -/
def propertyShape (session : Session) (shape : String) : Except Failure PropertyShape := do
  (session.propertyShape shapesName (← iri shape)).mapError .shape

/-- The shape of the resources of a command. -/
def endpoint (session : Session) (selection : Selection) : Except Failure (Option NodeShape) :=
  selection.endpoint.mapM (nodeShape session)

/-- The request of a command. -/
def request (sources : Sources m) (session : Session) (selection : Selection) :
    ExceptT Failure m Request := do
  let endpoint ← endpoint session selection
  let filter ← selection.filter.mapM fun path => document sources (some path)
  return ⟨endpoint, filter, selection.parameters, none⟩

/-! ### Commands -/

/-- A query that was compiled. -/
def built (query : Except BuildError Query) : Except Failure (Option Query) :=
  match query with
  | .ok query => .ok (some query)
  | .error error => .error (.build error)

/-- The query of a command, if there is anything to ask for. -/
def Command.query (sources : Sources m) (configuration : Configuration) :
    Command → ExceptT Failure m (Option Query)
  | .object shapes profile focus => do
    let session ← session sources configuration shapes
    let profile ← nodeShape session profile
    let focus ← iri focus
    built (Compiler.object profile focus)
  | .listing shapes profile selection term => do
    let session ← session sources configuration shapes
    let profile ← nodeShape session profile
    let request ← request sources session selection
    built (session.compiler.listing profile { request with search := term })
  | .count shapes selection => do
    let session ← session sources configuration shapes
    built (session.compiler.count (← request sources session selection))
  | .facets shapes shape selection => do
    let session ← session sources configuration shapes
    let shape ← propertyShape session shape
    built (session.compiler.facets shape (← request sources session selection))
  | .search term parameters =>
    built ((Compiler.ofConfiguration configuration).search term parameters)
  | .filter shapes file => do
    let session ← session sources configuration shapes
    built (session.compiler.filter (← document sources file))
  | .labels resources => do
    let resources ← iris resources
    return (Session.start (.ofConfiguration configuration)).labelQuery resources

/-- How a run of the program ends. -/
inductive Outcome where
  /-- A query was written, or there was nothing to ask for. -/
  | success (text : String)
  | failure (cause : Failure)
  /-- The words are no command line. -/
  | misuse
  /-- A query without text. -/
  | defect (fault : Defect)

namespace Outcome

/-- The exit code of a run. -/
def code : Outcome → UInt8
  | .success _ => 0
  | .failure _ => 1
  | .misuse => 2
  | .defect _ => 101

/-- The end of a run that found a query, or nothing to ask for. -/
def ofQuery : Option Query → Outcome
  | none => .success ""
  | some query =>
    match query.render with
    | .ok text => .success (text ++ "\n")
    | .error fault => .defect fault

/-- The end of a run that failed. -/
def ofFailure : Failure → Outcome
  | .build (.unwritable fault) => .defect fault
  | cause => .failure cause

end Outcome

/-- Carries out a command line. -/
def run (sources : Sources m) (words : List String) : m Outcome := do
  match Invocation.ofWords? words with
  | none => return .misuse
  | some invocation =>
    let query : ExceptT Failure m (Option Query) := do
      let configuration ← configuration sources invocation.configuration
      invocation.command.query sources configuration
    match ← query.run with
    | .ok query => return .ofQuery query
    | .error failure => return .ofFailure failure

end ShapeQuery.CommandLine
