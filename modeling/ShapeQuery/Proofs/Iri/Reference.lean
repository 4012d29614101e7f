/-
This file shows what the check of an IRI keeps out: an accepted text has no character that could end
an IRI reference in a query. Every scan consumes a text from the left, so its lemma says that the
text is clean if what the scan leaves over is.
-/
import ShapeQuery.Iri.Scan
import ShapeQuery.Proofs.Sparql.Lexing
import ShapeQuery.Proofs.Success

namespace ShapeQuery.Iri

open Sparql.Lexer (isIriCharacter)

/-- A text that may stand in an IRI reference. -/
def Clean (characters : List Char) : Prop :=
  ∀ character ∈ characters, isIriCharacter character = true

theorem clean_nil : Clean [] :=
  fun _ member => absurd member List.not_mem_nil

theorem clean_cons {character : Char} {rest : List Char} :
    Clean (character :: rest) ↔ isIriCharacter character = true ∧ Clean rest :=
  List.forall_mem_cons

theorem clean_append {first second : List Char} :
    Clean (first ++ second) ↔ Clean first ∧ Clean second :=
  List.forall_mem_append

/-! ### Character classes -/

/-- The characters that an IRI reference excludes. -/
def excluded : List Char :=
  (List.range 0x21).map Char.ofNat ++ "<>\"\x7b\x7d|^`\\".toList

theorem mem_excluded {character : Char} (fails : isIriCharacter character = false) :
    character ∈ excluded := by
  rw [isIriCharacter, Bool.and_eq_false_iff] at fails
  rcases fails with control | mark
  · refine List.mem_append_left _ (List.mem_map.2 ⟨character.toNat, ?_, Char.ofNat_toNat _⟩)
    rw [List.mem_range]
    simpa [Nat.lt_succ_iff] using control
  · rw [Bool.not_eq_false'] at mark
    exact List.mem_append_right _ (List.contains_iff_mem.1 mark)

/-- A class of characters that has none of the excluded ones. -/
theorem isIriCharacter_of {test : Char → Bool}
    (excludes : excluded.all (fun character => !test character) = true) {character : Char}
    (passes : test character = true) : isIriCharacter character = true := by
  cases clean : isIriCharacter character with
  | true => rfl
  | false =>
    have none := List.all_eq_true.1 excludes character (mem_excluded clean)
    rw [passes] at none
    cases none

theorem clean_of_all {test : Char → Bool}
    (excludes : excluded.all (fun character => !test character) = true) {characters : List Char}
    (all : characters.all test = true) : Clean characters :=
  fun _ member => isIriCharacter_of excludes (List.all_eq_true.1 all _ member)

/-! ### Runs -/

theorem isIriCharacter_of_isHexDigit {character : Char} (digit : isHexDigit character = true) :
    isIriCharacter character = true :=
  isIriCharacter_of (by decide) digit

theorem scanRun_clean {allowed stops : Char → Bool}
    (excludes : excluded.all (fun character => !allowed character) = true)
    {characters rest : List Char} (scanned : scanRun allowed stops characters = .ok rest)
    (clean : Clean rest) : Clean characters := by
  fun_induction scanRun allowed stops characters with
  | case1 => cases scanned; exact clean
  | case2 first second after hex inductionHypothesis =>
    rw [Bool.and_eq_true] at hex
    simp only [clean_cons]
    exact ⟨by decide, isIriCharacter_of_isHexDigit hex.1, isIriCharacter_of_isHexDigit hex.2,
      inductionHypothesis scanned⟩
  | case3 => cases scanned
  | case4 => cases scanned; exact clean
  | case5 => cases scanned
  | case6 character after _ _ _ allows inductionHypothesis =>
    exact clean_cons.2 ⟨isIriCharacter_of excludes allows, inductionHypothesis scanned⟩
  | case7 => cases scanned

/-- A run ends at a mark or at the end of the text. -/
theorem scanRun_stops {allowed stops : Char → Bool} {characters rest : List Char}
    (scanned : scanRun allowed stops characters = .ok rest) :
    rest = [] ∨ ∃ mark after, rest = mark :: after ∧ stops mark = true := by
  fun_induction scanRun allowed stops characters with
  | case1 => cases scanned; exact .inl rfl
  | case2 _ _ _ _ inductionHypothesis => exact inductionHypothesis scanned
  | case3 => cases scanned
  | case4 character after _ stop => cases scanned; exact .inr ⟨_, _, rfl, stop⟩
  | case5 => cases scanned
  | case6 _ _ _ _ _ _ inductionHypothesis => exact inductionHypothesis scanned
  | case7 => cases scanned

/-! ### Components -/

theorem scanFragment_clean {characters : List Char} (scanned : scanFragment characters = .ok ()) :
    Clean characters := by
  obtain ⟨rest, run, _⟩ := Success.map_ok.1 scanned
  rcases scanRun_stops run with rfl | ⟨mark, after, rfl, stop⟩
  · exact scanRun_clean (by decide) run clean_nil
  · cases stop

theorem scanQuery_clean {characters : List Char} (scanned : scanQuery characters = .ok ()) :
    Clean characters := by
  obtain ⟨rest, run, further⟩ := Success.bind_ok.1 scanned
  refine scanRun_clean (by decide) run ?_
  rcases scanRun_stops run with rfl | ⟨mark, after, rfl, stop⟩
  · exact clean_nil
  · obtain rfl : mark = '#' := by simpa using stop
    exact clean_cons.2 ⟨by decide, scanFragment_clean further⟩

theorem scanPath_clean {characters : List Char} (scanned : scanPath characters = .ok ()) :
    Clean characters := by
  obtain ⟨rest, run, further⟩ := Success.bind_ok.1 scanned
  refine scanRun_clean (by decide) run ?_
  rcases scanRun_stops run with rfl | ⟨mark, after, rfl, stop⟩
  · exact clean_nil
  · simp only [Bool.or_eq_true, decide_eq_true_eq] at stop
    rcases stop with rfl | rfl
    · exact clean_cons.2 ⟨by decide, scanQuery_clean further⟩
    · exact clean_cons.2 ⟨by decide, scanFragment_clean further⟩

theorem scanPort_clean {characters : List Char} (scanned : scanPort characters = .ok ()) :
    Clean characters := by
  rw [← @List.takeWhile_append_dropWhile _ Char.isDigit characters, clean_append]
  refine ⟨clean_of_all (by decide) (List.all_takeWhile ..), ?_⟩
  unfold scanPort at scanned
  split at scanned
  case h_1 ended => rw [ended]; exact clean_nil
  case h_2 character rest ended =>
    split at scanned
    · rw [ended]; exact scanPath_clean scanned
    · cases scanned

/-! ### Addresses -/

/-- A text is clean if the pieces between the occurrences of a clean character are. -/
theorem clean_of_splitOn {separator : Char} (mark : isIriCharacter separator = true)
    {characters : List Char}
    (pieces : ∀ piece ∈ Text.splitOn separator characters, Clean piece) : Clean characters := by
  induction characters with
  | nil => exact clean_nil
  | cons character rest inductionHypothesis =>
    rw [Text.splitOn] at pieces
    cases split : Text.splitOn separator rest with
    | nil =>
      rw [split] at pieces inductionHypothesis
      rw [List.forall_mem_singleton, clean_cons] at pieces
      exact clean_cons.2 ⟨pieces.1, inductionHypothesis fun _ member => by cases member⟩
    | cons piece others =>
      rw [split, List.forall_mem_cons] at inductionHypothesis
      simp only [split] at pieces
      by_cases same : character = separator
      · rw [if_pos same, List.forall_mem_cons, List.forall_mem_cons] at pieces
        exact clean_cons.2 ⟨same ▸ mark, inductionHypothesis pieces.2⟩
      · rw [if_neg same, List.forall_mem_cons, clean_cons] at pieces
        exact clean_cons.2 ⟨pieces.1.1, inductionHypothesis ⟨pieces.1.2, pieces.2⟩⟩

theorem isDottedAddress_clean {text : List Char} (dotted : isDottedAddress text = true) :
    Clean text := by
  simp only [isDottedAddress, Bool.and_eq_true, List.all_eq_true] at dotted
  refine clean_of_splitOn (by decide : isIriCharacter '.' = true) fun piece member => ?_
  have byte := dotted.2 piece member
  simp only [isAddressByte, Bool.and_eq_true] at byte
  exact clean_of_all (by decide) byte.1.1.2

theorem isAddressGroup_clean {group : List Char} (allowed : isAddressGroup group = true) :
    Clean group := by
  simp only [isAddressGroup, Bool.and_eq_true] at allowed
  exact clean_of_all (by decide) allowed.2

theorem groupCount?_clean {dottedAllowed : Bool} {groups : List (List Char)} {count : Nat}
    (counted : groupCount? dottedAllowed groups = some count) :
    ∀ group ∈ groups, Clean group := by
  fun_induction groupCount? dottedAllowed groups generalizing count with
  | case1 => exact fun _ member => absurd member List.not_mem_nil
  | case2 group allowed => exact List.forall_mem_singleton.2 (isAddressGroup_clean allowed)
  | case3 group _ dotted =>
    rw [Bool.and_eq_true] at dotted
    exact List.forall_mem_singleton.2 (isDottedAddress_clean dotted.2)
  | case4 => cases counted
  | case5 group rest _ allowed inductionHypothesis =>
    obtain ⟨_, restCounted, _⟩ := Option.map_eq_some_iff.1 counted
    exact List.forall_mem_cons.2 ⟨isAddressGroup_clean allowed, inductionHypothesis restCounted⟩
  | case6 => cases counted

theorem textGroupCount?_clean {dottedAllowed : Bool} {text : List Char} {count : Nat}
    (counted : textGroupCount? dottedAllowed text = some count) : Clean text := by
  unfold textGroupCount? at counted
  split at counted
  case isTrue empty => rw [List.isEmpty_iff.1 empty]; exact clean_nil
  case isFalse => 
    exact clean_of_splitOn (by decide : isIriCharacter ':' = true) (groupCount?_clean counted)

theorem splitDoubleColon_eq {text before after : List Char}
    (split : splitDoubleColon text = some (before, after)) :
    text = before ++ ':' :: ':' :: after := by
  fun_induction splitDoubleColon text generalizing before with
  | case1 => cases split
  | case2 rest => cases split; rfl
  | case3 character rest _ inductionHypothesis =>
    obtain ⟨⟨inner, _⟩, found, same⟩ := Option.map_eq_some_iff.1 split
    cases same
    rw [inductionHypothesis found, List.cons_append]

theorem isIpv6Address_clean {text : List Char} (address : isIpv6Address text = true) :
    Clean text := by
  unfold isIpv6Address at address
  split at address
  case h_1 => exact textGroupCount?_clean (by simpa using address)
  case h_2 before after found =>
    split at address
    case h_1 leading trailing leadingCounted trailingCounted =>
      rw [splitDoubleColon_eq found, clean_append, clean_cons, clean_cons]
      exact ⟨textGroupCount?_clean leadingCounted, by decide, by decide,
        textGroupCount?_clean trailingCounted⟩
    case h_2 => cases address

/-- A text is clean if it is up to a clean character, and after it. -/
theorem clean_of_cut {separator : Char} (mark : isIriCharacter separator = true)
    {characters : List Char} (before : Clean (characters.takeWhile (· ≠ separator)))
    (after : Clean ((characters.dropWhile (· ≠ separator)).drop 1)) : Clean characters := by
  rw [← @List.takeWhile_append_dropWhile _ (· ≠ separator) characters, clean_append]
  refine ⟨before, ?_⟩
  cases ended : characters.dropWhile (· ≠ separator) with
  | nil => exact clean_nil
  | cons character rest =>
    have stop := List.head?_dropWhile_not (· ≠ separator) characters
    rw [ended] at stop after
    obtain rfl : character = separator := by simpa using stop
    exact clean_cons.2 ⟨mark, after⟩

theorem futureAddressFault?_clean {text : List Char}
    (start : text.head? = some 'v' ∨ text.head? = some 'V')
    (faultless : futureAddressFault? text = none) : Clean text := by
  cases text with
  | nil => exact clean_nil
  | cons letter afterLetter =>
    simp only [futureAddressFault?, List.drop_one, List.tail_cons] at faultless
    split at faultless
    case h_1 => cases faultless
    case h_2 version =>
      rw [List.find?_eq_none] at version
      split at faultless
      case isTrue => cases faultless
      case isFalse =>
        split at faultless
        case isTrue => cases faultless
        case isFalse =>
          rw [List.find?_eq_none] at faultless
          refine clean_cons.2 ⟨?_, clean_of_cut (by decide : isIriCharacter '.' = true) ?_ ?_⟩
          · rcases start with letter | letter
            · cases letter; decide
            · cases letter; decide
          · exact fun character member =>
              isIriCharacter_of_isHexDigit (by simpa using version character member)
          · refine fun character member =>
              @isIriCharacter_of (fun character => isPlainAscii character || character = ':')
                (by decide) _ ?_
            have allowed := faultless character (by simpa using member)
            rwa [Bool.not_eq_true, Bool.not_eq_false'] at allowed

theorem checkAddress_clean {address : List Char} (checked : checkAddress address = .ok ()) :
    Clean address := by
  unfold checkAddress at checked
  split at checked
  case isTrue start =>
    split at checked
    case h_1 => cases checked
    case h_2 faultless => exact futureAddressFault?_clean start faultless
  case isFalse =>
    split at checked
    case isTrue address => exact isIpv6Address_clean address
    case isFalse => cases checked

/-! ### Hosts and whole texts -/

theorem scanHost_clean {characters : List Char} (scanned : scanHost characters = .ok ()) :
    Clean characters := by
  unfold scanHost at scanned
  split at scanned
  case h_1 rest =>
    refine clean_cons.2 ⟨by decide, ?_⟩
    split at scanned
    case h_1 => cases scanned
    case h_2 closing after ended =>
      obtain ⟨_, checked, further⟩ := Success.bind_ok.1 scanned
      refine clean_of_cut (by decide : isIriCharacter ']' = true) (checkAddress_clean checked) ?_
      rw [ended]
      split at further
      case h_1 => exact clean_nil
      case h_2 character beyond =>
        split at further
        case isTrue colon => exact clean_cons.2 ⟨by rw [colon]; decide, scanPort_clean further⟩
        case isFalse =>
          split at further
          case isTrue => exact scanPath_clean further
          case isFalse => cases further
  case h_2 =>
    obtain ⟨rest, run, further⟩ := Success.bind_ok.1 scanned
    refine scanRun_clean (by decide) run ?_
    split at further
    case h_1 port => exact clean_cons.2 ⟨by decide, scanPort_clean further⟩
    case h_2 => exact scanPath_clean further

theorem scanAuthority_clean {characters : List Char}
    (scanned : scanAuthority characters = .ok ()) : Clean characters := by
  obtain ⟨rest, run, further⟩ := Success.bind_ok.1 scanned
  split at further
  case h_1 host =>
    exact scanRun_clean (by decide) run (clean_cons.2 ⟨by decide, scanHost_clean further⟩)
  case h_2 => exact scanHost_clean further

theorem scanHierarchy_clean {characters : List Char}
    (scanned : scanHierarchy characters = .ok ()) : Clean characters := by
  unfold scanHierarchy at scanned
  split at scanned
  case h_1 authority =>
    simp only [clean_cons]
    exact ⟨by decide, by decide, scanAuthority_clean scanned⟩
  case h_2 => exact scanPath_clean scanned

theorem afterScheme?_clean {characters rest : List Char}
    (found : afterScheme? characters = some rest) (clean : Clean rest) : Clean characters := by
  unfold afterScheme? at found
  split at found
  case h_1 => cases found
  case h_2 first rest =>
    split at found
    case isFalse => cases found
    case isTrue =>
      split at found
      case h_2 => cases found
      case h_1 after ended =>
        cases found
        rw [← @List.takeWhile_append_dropWhile _ isSchemeCharacter (first :: rest), clean_append,
          ended, clean_cons]
        exact ⟨clean_of_all (by decide) (List.all_takeWhile ..), by decide, clean⟩

/-- An accepted text has no character that an IRI reference excludes. -/
theorem ofText_clean {text : String} {iri : Iri} (accepted : ofText text = .ok iri) :
    iri.text = text ∧ Clean text.toList := by
  obtain ⟨_, scanned, rfl⟩ := Success.map_ok.1 accepted
  refine ⟨rfl, ?_⟩
  unfold scanAbsolute at scanned
  split at scanned
  case h_1 rest found => exact afterScheme?_clean found (scanHierarchy_clean scanned)
  case h_2 =>
    obtain ⟨_, _, fault⟩ := Success.bind_ok.1 scanned
    cases fault

/-- An IRI that the check accepts. -/
def IsValid (iri : Iri) : Prop :=
  ofText iri.text = .ok iri

theorem IsValid.isReference {iri : Iri} (valid : iri.IsValid) :
    Sparql.Lexer.IsReference iri.text :=
  (ofText_clean valid).2

theorem isReference_of_ofText {text : String} {iri : Iri} (accepted : ofText text = .ok iri) :
    Sparql.Lexer.IsReference iri.text := by
  obtain ⟨same, clean⟩ := ofText_clean accepted
  rw [same]
  exact clean

end ShapeQuery.Iri
