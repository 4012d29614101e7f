/-
This file checks the syntax of IRIs and of relative references. A text is scanned from the left,
component by component, and the first fault met is the answer. Nothing is normalised.
-/
import ShapeQuery.Iri.Address

namespace ShapeQuery.Iri

/-- Why a text is not an absolute IRI. -/
inductive Fault where
  | noScheme
  | hostAddress
  | hostCharacter (character : Char)
  | portCharacter (character : Char)
  | codePoint (character : Char)
  | percentEncoding (following : List Char)
  | leadingSlashes
deriving DecidableEq

/-- The wording of a fault. -/
def Fault.message : Fault → String
  | .noScheme => "No scheme found in an absolute IRI"
  | .hostAddress => "Invalid host IP (invalid IPv6 address syntax)"
  | .hostCharacter character => "Invalid character '" ++ character.toString ++ "' in host"
  | .portCharacter character => "Invalid character '" ++ character.toString ++ "'"
  | .codePoint character => "Invalid IRI code point '" ++ character.toString ++ "'"
  | .percentEncoding following =>
    "Invalid IRI percent encoding '%" ++ String.ofList following ++ "'"
  | .leadingSlashes => "An IRI path is not allowed to start with // if there is no authority"

/-- Scans allowed characters and percent encodings up to a character that ends the component. -/
def scanRun (allowed stops : Char → Bool) : List Char → Except Fault (List Char)
  | [] => .ok []
  | '%' :: first :: second :: rest =>
    if isHexDigit first && isHexDigit second then scanRun allowed stops rest
    else .error (.percentEncoding [first, second])
  | character :: rest =>
    if stops character then .ok (character :: rest)
    else if character = '%' then .error (.percentEncoding rest)
    else if allowed character then scanRun allowed stops rest
    else .error (.codePoint character)

/-- Whether a character ends the authority. -/
def endsAuthority (character : Char) : Bool :=
  character = '/' || character = '?' || character = '#'

/-- Scans a fragment, up to the end of the text. -/
def scanFragment (characters : List Char) : Except Fault Unit :=
  (scanRun isFragmentCharacter (fun _ => false) characters).map fun _ => ()

/-- Scans a query and what follows it. -/
def scanQuery (characters : List Char) : Except Fault Unit := do
  match ← scanRun isQueryCharacter (· = '#') characters with
  | [] => .ok ()
  | _ :: fragment => scanFragment fragment

/-- Scans a path and what follows it. -/
def scanPath (characters : List Char) : Except Fault Unit := do
  match ← scanRun isPathCharacter (fun character => character = '?' || character = '#') characters
  with
  | '?' :: query => scanQuery query
  | '#' :: fragment => scanFragment fragment
  | _ => .ok ()

/-- Scans a port and what follows it. -/
def scanPort (characters : List Char) : Except Fault Unit :=
  match characters.dropWhile Char.isDigit with
  | [] => .ok ()
  | character :: rest =>
    if endsAuthority character then scanPath (character :: rest)
    else .error (.portCharacter character)

/-- Checks what stands between square brackets in a host. -/
def checkAddress (address : List Char) : Except Fault Unit :=
  if address.head? = some 'v' ∨ address.head? = some 'V' then
    match futureAddressFault? address with
    | some character => .error (.hostCharacter character)
    | none => .ok ()
  else if isIpv6Address address then .ok ()
  else .error .hostAddress

/-- Scans a host and what follows it. -/
def scanHost (characters : List Char) : Except Fault Unit := do
  match characters with
  | '[' :: rest =>
    match rest.dropWhile (· ≠ ']') with
    | [] => .error (.hostCharacter '[')
    | _ :: after =>
      checkAddress (rest.takeWhile (· ≠ ']'))
      match after with
      | [] => .ok ()
      | character :: beyond =>
        if character = ':' then scanPort beyond
        else if endsAuthority character then scanPath (character :: beyond)
        else .error (.hostCharacter character)
  | _ =>
    match ← scanRun isPlain (fun character => character = ':' || endsAuthority character)
      characters with
    | ':' :: port => scanPort port
    | rest => scanPath rest

/-- Scans an authority and what follows it. User information reaches up to an at sign; without
one, the text is scanned again as a host. -/
def scanAuthority (characters : List Char) : Except Fault Unit := do
  let rest ← scanRun isUserCharacter
    (fun character => character = '@' || character = '[' || endsAuthority character) characters
  match rest with
  | '@' :: host => scanHost host
  | _ => scanHost characters

/-- What follows the colon of a scheme, if the text starts with one. -/
def afterScheme? (characters : List Char) : Option (List Char) :=
  match characters with
  | [] => none
  | first :: _ =>
    if first.isAlpha then
      match characters.dropWhile isSchemeCharacter with
      | ':' :: rest => some rest
      | _ => none
    else none

/-- Scans what follows a scheme. -/
def scanHierarchy (characters : List Char) : Except Fault Unit :=
  match characters with
  | '/' :: '/' :: authority => scanAuthority authority
  | _ => scanPath characters

/-- Scans a reference without a scheme. The first segment of a relative path has no colon. -/
def scanRelative (characters : List Char) : Except Fault Unit := do
  match characters with
  | ':' :: _ => .error .noScheme
  | '/' :: _ => scanHierarchy characters
  | _ =>
    let rest ← scanRun isFirstSegmentCharacter endsAuthority characters
    scanPath rest

/-- Scans an absolute IRI or a relative reference. -/
def scanReference (characters : List Char) : Except Fault Unit :=
  match afterScheme? characters with
  | some rest => scanHierarchy rest
  | none => scanRelative characters

/-- Scans an absolute IRI. A well formed relative reference only lacks a scheme. -/
def scanAbsolute (characters : List Char) : Except Fault Unit :=
  match afterScheme? characters with
  | some rest => scanHierarchy rest
  | none => do
    scanRelative characters
    .error .noScheme

/-- Reads an absolute IRI. -/
def ofText (text : String) : Except Fault Iri :=
  (scanAbsolute text.toList).map fun _ => ⟨text⟩

/-- Reads an absolute IRI when the fault does not matter. -/
def ofText? (text : String) : Option Iri :=
  (ofText text).toOption

end ShapeQuery.Iri
