/-
This file says when computations that may fail succeed, and what all their results have in common.
-/

namespace ShapeQuery.Success

variable {ε φ α β : Type}

theorem error_ne_ok {fault : ε} {result : α} : (.error fault : Except ε α) ≠ .ok result := by
  intro same
  cases same

theorem bind_ok {first : Except ε α} {next : α → Except ε β} {result : β} :
    first >>= next = .ok result ↔ ∃ value, first = .ok value ∧ next value = .ok result := by
  cases first with
  | error fault => exact iff_of_false nofun nofun
  | ok value =>
    constructor
    · exact fun succeeds => ⟨value, rfl, succeeds⟩
    · rintro ⟨_, same, succeeds⟩
      cases same
      exact succeeds

theorem pure_ok {value result : α} :
    (pure value : Except ε α) = .ok result ↔ value = result := by
  constructor
  · exact Except.ok.inj
  · rintro rfl
    rfl

theorem map_ok {computed : Except ε α} {change : α → β} {result : β} :
    computed.map change = .ok result ↔ ∃ value, computed = .ok value ∧ change value = result := by
  cases computed with
  | error fault => exact iff_of_false nofun nofun
  | ok value =>
    constructor
    · exact fun succeeds => ⟨value, rfl, Except.ok.inj succeeds⟩
    · rintro ⟨_, same, rfl⟩
      cases same
      rfl

theorem mapError_ok {computed : Except ε α} {change : ε → φ} {result : α} :
    computed.mapError change = .ok result ↔ computed = .ok result := by
  cases computed with
  | error fault => exact iff_of_false nofun nofun
  | ok value =>
    constructor
    · exact fun succeeds => congrArg _ (Except.ok.inj succeeds)
    · exact fun succeeds => congrArg _ (Except.ok.inj succeeds)

theorem mapError_bind {first : Except ε α} {next : α → Except ε β} {change : ε → φ} :
    (first >>= next).mapError change =
      first.mapError change >>= fun value => (next value).mapError change := by
  cases first <;> rfl

theorem mapError_mapM {read : α → Except ε β} {change : ε → φ} (sources : List α) :
    (sources.mapM read).mapError change =
      sources.mapM fun source => (read source).mapError change := by
  induction sources with
  | nil => rfl
  | cons source rest inductionHypothesis =>
    simp only [List.mapM_cons, mapError_bind, inductionHypothesis]
    rfl

theorem exists_ok {computed : Except ε α} (succeeds : computed.isOk = true) :
    ∃ result, computed = .ok result := by
  cases computed with
  | error fault => cases succeeds
  | ok value => exact ⟨value, rfl⟩

theorem mapM_cons_ok {read : α → Except ε β} {source : α} {rest : List α} {results : List β} :
    (source :: rest).mapM read = .ok results ↔
      ∃ first others, read source = .ok first ∧ rest.mapM read = .ok others ∧
        first :: others = results := by
  rw [List.mapM_cons, bind_ok]
  constructor
  · rintro ⟨first, firstRead, further⟩
    obtain ⟨others, othersRead, same⟩ := bind_ok.1 further
    exact ⟨first, others, firstRead, othersRead, pure_ok.1 same⟩
  · rintro ⟨first, others, firstRead, othersRead, same⟩
    exact ⟨first, firstRead, bind_ok.2 ⟨others, othersRead, pure_ok.2 same⟩⟩

/-- Every result of a successful reading was read from one of the sources. -/
theorem source_of_mem_mapM {read : α → Except ε β} {sources : List α} {results : List β}
    (succeeds : sources.mapM read = .ok results) :
    ∀ result ∈ results, ∃ source ∈ sources, read source = .ok result := by
  induction sources generalizing results with
  | nil =>
    cases succeeds
    exact fun _ member => absurd member List.not_mem_nil
  | cons source rest inductionHypothesis =>
    obtain ⟨first, others, firstRead, othersRead, rfl⟩ := mapM_cons_ok.1 succeeds
    intro result member
    rcases List.mem_cons.1 member with rfl | later
    · exact ⟨source, List.mem_cons_self, firstRead⟩
    · obtain ⟨origin, found, read⟩ := inductionHypothesis othersRead result later
      exact ⟨origin, List.mem_cons_of_mem _ found, read⟩

/-- Every source of a successful reading is read. -/
theorem result_of_mem_mapM {read : α → Except ε β} {sources : List α} {results : List β}
    (succeeds : sources.mapM read = .ok results) :
    ∀ source ∈ sources, ∃ result ∈ results, read source = .ok result := by
  induction sources generalizing results with
  | nil => exact fun _ member => absurd member List.not_mem_nil
  | cons source rest inductionHypothesis =>
    obtain ⟨first, others, firstRead, othersRead, rfl⟩ := mapM_cons_ok.1 succeeds
    intro origin member
    rcases List.mem_cons.1 member with rfl | later
    · exact ⟨first, List.mem_cons_self, firstRead⟩
    · obtain ⟨result, found, read⟩ := inductionHypothesis othersRead origin later
      exact ⟨result, List.mem_cons_of_mem _ found, read⟩

theorem length_of_mapM {read : α → Except ε β} {sources : List α} {results : List β}
    (succeeds : sources.mapM read = .ok results) : results.length = sources.length := by
  induction sources generalizing results with
  | nil =>
    cases succeeds
    rfl
  | cons source rest inductionHypothesis =>
    obtain ⟨first, others, -, othersRead, rfl⟩ := mapM_cons_ok.1 succeeds
    rw [List.length_cons, List.length_cons, inductionHypothesis othersRead]

/-- Sources that are read alike are read to like results. -/
theorem mapM_map_ok {Source : Type} {read : α → Except ε β} {again : Source → Except ε β}
    {change : α → Source} {shift : β → β} {sources : List α} {results : List β}
    (alike : ∀ source ∈ sources, ∀ result, read source = .ok result →
      again (change source) = .ok (shift result))
    (succeeds : sources.mapM read = .ok results) :
    (sources.map change).mapM again = .ok (results.map shift) := by
  induction sources generalizing results with
  | nil =>
    cases succeeds
    rfl
  | cons source rest inductionHypothesis =>
    rw [List.forall_mem_cons] at alike
    obtain ⟨first, others, firstRead, othersRead, rfl⟩ := mapM_cons_ok.1 succeeds
    exact mapM_cons_ok.2 ⟨shift first, others.map shift, alike.1 first firstRead,
      inductionHypothesis alike.2 othersRead, rfl⟩

/-- Sources that are read to results which show the same are read to lists of such results. -/
theorem mapM_map_exists {Source Shown : Type} {read : α → Except ε β} {again : Source → Except ε β}
    {change : α → Source} {shown : β → Shown} {sources : List α} {results : List β}
    (alike : ∀ source ∈ sources, ∀ result, read source = .ok result →
      ∃ other, again (change source) = .ok other ∧ shown other = shown result)
    (succeeds : sources.mapM read = .ok results) :
    ∃ others, (sources.map change).mapM again = .ok others ∧
      others.map shown = results.map shown := by
  induction sources generalizing results with
  | nil =>
    cases succeeds
    exact ⟨[], rfl, rfl⟩
  | cons source rest inductionHypothesis =>
    rw [List.forall_mem_cons] at alike
    obtain ⟨first, later, firstRead, laterRead, rfl⟩ := mapM_cons_ok.1 succeeds
    obtain ⟨next, nextRead, sameFirst⟩ := alike.1 first firstRead
    obtain ⟨others, othersRead, sameLater⟩ := inductionHypothesis alike.2 laterRead
    refine ⟨next :: others, mapM_cons_ok.2 ⟨next, others, nextRead, othersRead, rfl⟩, ?_⟩
    rw [List.map_cons, List.map_cons, sameFirst, sameLater]

/-- The order of the sources is that of the results. -/
theorem mapM_perm {read : α → Except ε β} {sources others : List α} {results : List β}
    (perm : sources.Perm others) (succeeds : sources.mapM read = .ok results) :
    ∃ again, others.mapM read = .ok again ∧ again.Perm results := by
  induction perm generalizing results with
  | nil => exact ⟨results, succeeds, .refl results⟩
  | cons source _ inductionHypothesis =>
    obtain ⟨first, later, firstRead, laterRead, rfl⟩ := mapM_cons_ok.1 succeeds
    obtain ⟨again, againRead, same⟩ := inductionHypothesis laterRead
    exact ⟨first :: again, mapM_cons_ok.2 ⟨first, again, firstRead, againRead, rfl⟩, same.cons first⟩
  | swap source next rest =>
    obtain ⟨first, later, firstRead, laterRead, rfl⟩ := mapM_cons_ok.1 succeeds
    obtain ⟨second, last, secondRead, lastRead, rfl⟩ := mapM_cons_ok.1 laterRead
    exact ⟨second :: first :: last, mapM_cons_ok.2 ⟨second, first :: last, secondRead,
      mapM_cons_ok.2 ⟨first, last, firstRead, lastRead, rfl⟩, rfl⟩, .swap first second last⟩
  | trans _ _ one other =>
    obtain ⟨again, againRead, same⟩ := one succeeds
    obtain ⟨last, lastRead, further⟩ := other againRead
    exact ⟨last, lastRead, further.trans same⟩

end ShapeQuery.Success

namespace ShapeQuery

variable {ε φ α β : Type}

/-- Whether a computation that succeeds has a result of the given kind. -/
def YieldsOnly (kind : α → Prop) (computed : Except ε α) : Prop :=
  ∀ result, computed = .ok result → kind result

namespace YieldsOnly

variable {kind : α → Prop} {other : β → Prop}

theorem ok {value : α} (good : kind value) : YieldsOnly kind (.ok value : Except ε α) := by
  intro result same
  cases same
  exact good

theorem error (fault : ε) : YieldsOnly kind (.error fault : Except ε α) := by
  intro result same
  cases same

theorem mono {wider : α → Prop} {computed : Except ε α} (yields : YieldsOnly kind computed)
    (more : ∀ result, kind result → wider result) : YieldsOnly wider computed :=
  fun result same => more result (yields result same)

theorem bind {first : Except ε α} {next : α → Except ε β} (here : YieldsOnly kind first)
    (later : ∀ value, kind value → YieldsOnly other (next value)) :
    YieldsOnly other (first >>= next) := by
  cases first with
  | error fault => exact error fault
  | ok value => exact later value (here value rfl)

theorem map {computed : Except ε α} {change : α → β}
    (yields : YieldsOnly (fun result => other (change result)) computed) :
    YieldsOnly other (computed.map change) := by
  cases computed with
  | error fault => exact error fault
  | ok value => exact ok (yields value rfl)

theorem mapM {read : β → Except ε α} {sources : List β}
    (yields : ∀ source ∈ sources, YieldsOnly kind (read source)) :
    YieldsOnly (fun results => ∀ result ∈ results, kind result) (sources.mapM read) := by
  intro results succeeds result member
  obtain ⟨source, among, made⟩ := Success.source_of_mem_mapM succeeds result member
  exact yields source among result made

end YieldsOnly

end ShapeQuery
