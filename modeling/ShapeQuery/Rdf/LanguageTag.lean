/-
This file checks that a language tag is well formed: a language, then optional extended languages,
script, region, variants, extensions and a private part, or a private part alone, or one of the tags
that were registered before these rules.
-/
import ShapeQuery.Iri.Basic
import ShapeQuery.Text.Basic

namespace ShapeQuery.Rdf.LanguageTag

/-- The tags registered before the present rules, in lower case. -/
def registered : List String :=
  ["art-lojban", "cel-gaulish", "en-gb-oed", "i-ami", "i-bnn", "i-default", "i-enochian", "i-hak",
   "i-klingon", "i-lux", "i-mingo", "i-navajo", "i-pwn", "i-tao", "i-tay", "i-tsu", "no-bok",
   "no-nyn", "sgn-be-fr", "sgn-be-nl", "sgn-ch-de", "zh-guoyu", "zh-hakka", "zh-min",
   "zh-min-nan", "zh-xiang"]

/-- The part of a tag that was read last. An extension or private part that has just begun still
needs a subtag. -/
inductive Position where
  | language (extended : Nat)
  | afterExtended
  | afterScript
  | afterRegion
  | extension (begun : Bool)
  | privatePart (begun : Bool)
deriving DecidableEq

/-- The position after one more subtag, in lower case. -/
def Position.next? (position : Position) (subtag : List Char) : Option Position :=
  let alphabetic := subtag.all Char.isAlpha
  let alphanumeric := subtag.all Iri.isAsciiAlphanumeric
  let size := subtag.length
  if subtag.isEmpty || 8 < size || !alphanumeric then none
  else match position with
    | .privatePart _ => some (.privatePart false)
    | .extension true => if size = 1 then none else some (.extension false)
    | _ =>
      if subtag = ['x'] then some (.privatePart true)
      else if size = 1 then some (.extension true)
      else match position with
        | .extension _ => some (.extension false)
        | _ =>
          let variant := 5 ≤ size || (size = 4 && (subtag.headD 'a').isDigit)
          let region := (size = 2 && alphabetic) || (size = 3 && subtag.all Char.isDigit)
          let script := size = 4 && alphabetic
          match position with
          | .language extended =>
            if size = 3 && alphabetic then
              if extended < 3 then some (.language (extended + 1)) else none
            else if script then some .afterScript
            else if region || variant then some .afterRegion
            else none
          | .afterExtended =>
            if script then some .afterScript
            else if region || variant then some .afterRegion
            else none
          | .afterScript => if region || variant then some .afterRegion else none
          | _ => if variant then some .afterRegion else none

/-- Whether the tag may end at a position. -/
def Position.isFinal : Position → Bool
  | .extension begun => !begun
  | .privatePart begun => !begun
  | _ => true

/-- Whether the subtags after the language are in order. -/
def followedBy (position : Position) : List (List Char) → Bool
  | [] => position.isFinal
  | subtag :: rest =>
    match position.next? subtag with
    | some position => followedBy position rest
    | none => false

/-- Whether a tag in lower case is well formed. -/
def isWellFormed (tag : String) : Bool :=
  registered.contains tag ||
    match Text.splitOn '-' tag.toList with
    | [] => false
    | language :: rest =>
      if language = ['x'] then followedBy (.privatePart true) rest
      else
        2 ≤ language.length && language.length ≤ 8 && language.all Char.isAlpha
          && followedBy (if language.length < 4 then .language 0 else .afterExtended) rest

end ShapeQuery.Rdf.LanguageTag
