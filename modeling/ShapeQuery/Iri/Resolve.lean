/-
This file resolves a reference against a base IRI: the components that the reference lacks are
taken from the base. A path that starts at the base is followed segment by segment, so that its dot
segments vanish; the dot segments of the base and of a reference with an authority are kept.
-/
import ShapeQuery.Iri.Scan

namespace ShapeQuery.Iri

/-- The components of an IRI or of a reference. -/
structure Components where
  scheme : Option (List Char)
  authority : Option (List Char)
  path : List Char
  query : Option (List Char)
  fragment : Option (List Char)

namespace Components

/-- The components of a text. -/
def ofCharacters (characters : List Char) : Components :=
  let scheme := (afterScheme? characters).map fun _ => characters.takeWhile (· ≠ ':')
  let hierarchy := (afterScheme? characters).getD characters
  let authority := match hierarchy with
    | '/' :: '/' :: rest => some (rest.takeWhile fun character => !endsAuthority character)
    | _ => none
  let afterAuthority := match hierarchy with
    | '/' :: '/' :: rest => rest.dropWhile fun character => !endsAuthority character
    | _ => hierarchy
  let path := afterAuthority.takeWhile fun character => character ≠ '?' && character ≠ '#'
  let afterPath := afterAuthority.drop path.length
  let query := match afterPath with
    | '?' :: rest => some (rest.takeWhile (· ≠ '#'))
    | _ => none
  let fragment := match afterPath.dropWhile (· ≠ '#') with
    | _ :: rest => some rest
    | [] => none
  { scheme, authority, path, query, fragment }

/-- A component with the mark before it, or nothing. -/
def marked (mark : List Char) : Option (List Char) → List Char
  | some component => mark ++ component
  | none => []

/-- The text of some components. -/
def characters (components : Components) : List Char :=
  (components.scheme.map (· ++ [':'])).getD [] ++ marked ['/', '/'] components.authority
    ++ components.path ++ marked ['?'] components.query ++ marked ['#'] components.fragment

end Components

/-- The path of an IRI. -/
def path (iri : Iri) : List Char :=
  (Components.ofCharacters iri.text.toList).path

/-- The part of a path up to its last slash. After an authority every path has one. -/
def directory (rooted : Bool) (path : List Char) : List Char :=
  match (path.reverse.dropWhile (· ≠ '/')).reverse with
  | [] => if rooted then ['/'] else []
  | directory => directory

/-- The directory that holds a directory. -/
def parent (rooted : Bool) (inner : List Char) : List Char :=
  directory rooted inner.dropLast

/-- The path reached from a directory by the segments of a relative path. -/
def follow (rooted : Bool) (reached : List Char) : List (List Char) → List Char
  | [] => reached
  | segment :: rest =>
    if segment = ['.'] then follow rooted reached rest
    else if segment = ['.', '.'] then follow rooted (parent rooted reached) rest
    else if rest.isEmpty then reached ++ segment
    else follow rooted (reached ++ segment ++ ['/']) rest

/-- The path of a reference that has neither scheme nor authority, seen from the base. Where there is
no authority, it may not begin with two slashes. -/
def pathFrom (base : Components) (path : List Char) : Except Fault (List Char) :=
  let rooted := base.authority.isSome
  let reached := match path with
    | '/' :: rest => follow rooted ['/'] (Text.splitOn '/' rest)
    | _ => follow rooted (directory rooted base.path) (Text.splitOn '/' path)
  if !rooted && reached.take 2 = ['/', '/'] then .error .leadingSlashes else .ok reached

/-- The components of a reference, completed from those of the base. -/
def complete (base reference : Components) : Except Fault Components :=
  if reference.scheme.isSome then .ok reference
  else if reference.authority.isSome then .ok { reference with scheme := base.scheme }
  else if reference.path.isEmpty then
    .ok { base with
      query := if reference.query.isSome then reference.query else base.query
      fragment := reference.fragment }
  else
    (pathFrom base reference.path).map fun path =>
      { base with path, query := reference.query, fragment := reference.fragment }

/-- Resolves a reference against a base. -/
def resolve (base : Iri) (reference : String) : Except Fault Iri := do
  scanReference reference.toList
  let components ←
    complete (.ofCharacters base.text.toList) (.ofCharacters reference.toList)
  .ok ⟨String.ofList components.characters⟩

end ShapeQuery.Iri
