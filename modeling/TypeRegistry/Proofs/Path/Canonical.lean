import Mathlib.Data.List.Infix
import TypeRegistry.Proofs.Path.Components

/-!
# Canonical spellings

Many spellings name the same steps, and one of them has no needless byte: no slash follows another
or ends the path, unless it is the whole path, and no `.` stands between slashes but at the start of
a relative path. Writing the components of a path with one slash between two steps gives this
spelling, since splitting what was joined gives the steps back.

## Main definitions and statements

* `SourcePath.CanonicallySpelled`: a path has no needless byte.
* `SourcePath.segments_ne_nil_iff`: where slashes are needless, in terms of what lies between them.
* `SourcePath.components_canonical`: the canonical spelling has the components of the path.
* `SourcePath.canonicallySpelled_canonical`, `SourcePath.CanonicallySpelled.canonical_eq`: it is
  spelled canonically, and a path that is so already is its own.
-/

namespace TypeRegistry.SourcePath

/-- The path has no needless byte. -/
structure CanonicallySpelled (p : SourcePath) : Prop where
  /-- No slash follows another. -/
  not_repeated : ¬[slash, slash] <:+: p.bytes
  /-- No slash ends the path, unless it is the whole path. -/
  not_trailing : p.bytes.getLast? = some slash → p.bytes = [slash]
  /-- What follows a slash is not `.`. -/
  not_dot : dot ∉ (p.bytes.splitOn slash).tail

variable {p : SourcePath} {b : UInt8} {rest first : List UInt8} {later steps : List (List UInt8)}

/-! ### Segments between slashes -/

/-- Before a slash at the start there is nothing. -/
theorem splitOn_slash_cons (rest : List UInt8) :
    (slash :: rest).splitOn slash = [] :: rest.splitOn slash := by
  simp [List.splitOn_cons_eq_if_modifyHead]

/-- No segment holds a slash. -/
theorem slash_not_mem_of_mem_splitOn {bytes segment : List UInt8}
    (hsegment : segment ∈ bytes.splitOn slash) : slash ∉ segment := by
  induction bytes generalizing segment with
  | nil =>
      rw [List.mem_singleton.1 hsegment]
      exact List.not_mem_nil
  | cons b rest ih =>
      -- A slash opens a new segment, which is empty so far; another byte joins the first one.
      by_cases hb : b = slash
      · subst hb
        rw [splitOn_slash_cons] at hsegment
        rcases List.mem_cons.1 hsegment with rfl | hsegment
        · exact List.not_mem_nil
        · exact ih hsegment
      · obtain ⟨first, later, hrest, hsplit⟩ := exists_splitOn_cons hb rest
        rw [hsplit] at hsegment
        rw [hrest] at ih
        rcases List.mem_cons.1 hsegment with rfl | hsegment
        · rw [List.mem_cons, not_or]
          exact ⟨Ne.symm hb, ih List.mem_cons_self⟩
        · exact ih (List.mem_cons_of_mem _ hsegment)

/-- No segment after the first is empty exactly when no slash is followed by another or by the
end. -/
theorem segments_ne_nil_iff (bytes : List UInt8) :
    (∀ segment ∈ (bytes.splitOn slash).tail, segment ≠ []) ↔
      ¬[slash, slash] <:+: bytes ∧ bytes.getLast? ≠ some slash := by
  induction bytes with
  | nil => simp
  | cons b rest ih =>
      by_cases hb : b = slash
      · subst hb
        rw [splitOn_slash_cons, List.tail_cons, List.infix_cons_iff, List.cons_prefix_cons]
        -- The first segment of the rest follows a slash now, so what the rest starts with counts.
        cases rest with
        | nil => simp
        | cons c rest =>
            rw [List.singleton_prefix_cons_iff, List.getLast?_cons_cons]
            by_cases hc : c = slash
            · subst hc
              simp [splitOn_slash_cons]
            · obtain ⟨first, later, -, hsplit⟩ := exists_splitOn_cons hc rest
              rw [hsplit, List.tail_cons] at ih
              rw [hsplit, List.forall_mem_cons, ih]
              simp [Ne.symm hc]
      · obtain ⟨first, later, hrest, hsplit⟩ := exists_splitOn_cons hb rest
        rw [hrest, List.tail_cons] at ih
        rw [hsplit, List.tail_cons, ih, List.infix_cons_iff, List.cons_prefix_cons]
        cases rest with
        | nil => simp [hb]
        | cons c rest => simp [Ne.symm hb, List.getLast?_cons_cons]

/-- A path is spelled canonically when each of its segments but the first counts. -/
theorem CanonicallySpelled.of_segments
    (hsegments : ∀ segment ∈ (p.bytes.splitOn slash).tail, segment ≠ [] ∧ segment ≠ dot) :
    p.CanonicallySpelled := by
  obtain ⟨hrepeated, htrailing⟩ :=
    (segments_ne_nil_iff p.bytes).1 fun segment hsegment => (hsegments segment hsegment).1
  -- The exception for the whole path is not needed here: its last segment would be empty.
  refine ⟨hrepeated, fun hlast => absurd hlast htrailing, fun hdot => ?_⟩
  exact (hsegments dot hdot).2 rfl

/-- In a canonical spelling of more than one slash each segment but the first counts. -/
theorem CanonicallySpelled.segments (hp : p.CanonicallySpelled) (hne : p.bytes ≠ [slash]) :
    ∀ segment ∈ (p.bytes.splitOn slash).tail, segment ≠ [] ∧ segment ≠ dot := by
  have hnonempty := (segments_ne_nil_iff p.bytes).2
    ⟨hp.not_repeated, fun hlast => hne (hp.not_trailing hlast)⟩
  intro segment hsegment
  refine ⟨hnonempty segment hsegment, ?_⟩
  rintro rfl
  exact hp.not_dot hsegment

/-! ### The canonical spelling -/

/-- The steps after a slash at the start, or after the first one of a relative path. -/
def laterSteps (segments : List (List UInt8)) : List (List UInt8) :=
  segments.filter fun segment => segment ≠ [] ∧ segment ≠ dot

/-- A rooted path has the steps after its slash. -/
theorem components_rooted (rest : List UInt8) :
    components ⟨slash :: rest⟩ = ⟨true, laterSteps (rest.splitOn slash)⟩ := by
  simp [components, laterSteps, splitOn_slash_cons]

/-- A relative path has its first segment, even if that is a dot, and the steps after it. -/
theorem components_relative (hb : b ≠ slash)
    (hsplit : (b :: rest).splitOn slash = (b :: first) :: later) :
    components ⟨b :: rest⟩ = ⟨false, (b :: first) :: laterSteps later⟩ := by
  simp [components, laterSteps, hsplit, hb]

/-- Steps that are neither empty nor dots are all kept. -/
theorem laterSteps_eq_self (hsteps : ∀ step ∈ steps, step ≠ [] ∧ step ≠ dot) :
    laterSteps steps = steps :=
  List.filter_eq_self.2 fun step hstep => decide_eq_true (hsteps step hstep)

/-- What counts among the steps that count is all of them. -/
theorem laterSteps_laterSteps (segments : List (List UInt8)) :
    laterSteps (laterSteps segments) = laterSteps segments := by
  simp [laterSteps]

/-- A later step is a segment that is neither empty nor a dot. -/
theorem mem_laterSteps {segments : List (List UInt8)} {step : List UInt8} :
    step ∈ laterSteps segments ↔ step ∈ segments ∧ step ≠ [] ∧ step ≠ dot := by
  simp [laterSteps]

/-- The steps of a rooted path are joined after its slash. -/
theorem canonical_rooted (rest : List UInt8) :
    canonical ⟨slash :: rest⟩ =
      ⟨slash :: [slash].intercalate (laterSteps (rest.splitOn slash))⟩ := by
  rw [canonical, components_rooted, Components.spelling, if_pos rfl, List.singleton_append]

/-- The steps of a relative path are joined after its first segment. -/
theorem canonical_relative (hb : b ≠ slash)
    (hsplit : (b :: rest).splitOn slash = (b :: first) :: later) :
    canonical ⟨b :: rest⟩ = ⟨[slash].intercalate ((b :: first) :: laterSteps later)⟩ := by
  rw [canonical, components_relative hb hsplit, Components.spelling, if_neg (by simp),
    List.nil_append]

/-- The steps of a rooted path, if there are any, are split again once they are joined. -/
theorem splitOn_joined_rooted (rest : List UInt8)
    (hne : laterSteps (rest.splitOn slash) ≠ []) :
    ([slash].intercalate (laterSteps (rest.splitOn slash))).splitOn slash =
      laterSteps (rest.splitOn slash) := by
  refine List.splitOn_intercalate slash (fun step hstep => ?_) hne
  exact slash_not_mem_of_mem_splitOn (mem_laterSteps.1 hstep).1

/-- The steps of a relative path are split again once they are joined. -/
theorem splitOn_joined_relative (hsplit : (b :: rest).splitOn slash = (b :: first) :: later) :
    ([slash].intercalate ((b :: first) :: laterSteps later)).splitOn slash =
      (b :: first) :: laterSteps later := by
  refine List.splitOn_intercalate slash (fun step hstep => ?_) (List.cons_ne_nil _ _)
  refine slash_not_mem_of_mem_splitOn (?_ : step ∈ (b :: rest).splitOn slash)
  rw [hsplit]
  rcases List.mem_cons.1 hstep with rfl | hstep
  · exact List.mem_cons_self
  · exact List.mem_cons_of_mem _ (mem_laterSteps.1 hstep).1

/-- A joined path starts as its first step does. -/
theorem intercalate_step_cons (b : UInt8) (first : List UInt8) (later : List (List UInt8)) :
    [slash].intercalate ((b :: first) :: later) = b :: [slash].intercalate (first :: later) := by
  cases later <;> simp [List.intercalate]

/-- The canonical spelling has the components of the path. -/
theorem components_canonical (p : SourcePath) : p.canonical.components = p.components := by
  obtain ⟨bytes⟩ := p
  cases bytes with
  | nil => rfl
  | cons b rest =>
      by_cases hb : b = slash
      · subst hb
        rw [canonical_rooted, components_rooted, components_rooted]
        -- Where no step is left, the slash alone is what remains.
        by_cases hne : laterSteps (rest.splitOn slash) = []
        · rw [hne]
          rfl
        · rw [splitOn_joined_rooted rest hne, laterSteps_laterSteps]
      · obtain ⟨first, later, -, hsplit⟩ := exists_splitOn_cons hb rest
        have hjoined := splitOn_joined_relative hsplit
        rw [intercalate_step_cons] at hjoined
        rw [canonical_relative hb hsplit, intercalate_step_cons, components_relative hb hjoined,
          components_relative hb hsplit, laterSteps_laterSteps]

/-- The root on its own has no needless byte. -/
theorem canonicallySpelled_slash : CanonicallySpelled ⟨[slash]⟩ :=
  ⟨by decide, fun _ => rfl, by decide⟩

/-- The canonical spelling has no needless byte. -/
theorem canonicallySpelled_canonical (p : SourcePath) : p.canonical.CanonicallySpelled := by
  obtain ⟨bytes⟩ := p
  cases bytes with
  | nil => exact .of_segments nofun
  | cons b rest =>
      by_cases hb : b = slash
      · subst hb
        rw [canonical_rooted]
        -- Joined steps are the segments again, unless there is none and the slash stands alone.
        by_cases hne : laterSteps (rest.splitOn slash) = []
        · rw [hne]
          exact canonicallySpelled_slash
        · refine .of_segments fun segment hsegment => ?_
          rw [splitOn_slash_cons, List.tail_cons, splitOn_joined_rooted rest hne] at hsegment
          exact (mem_laterSteps.1 hsegment).2
      · obtain ⟨first, later, -, hsplit⟩ := exists_splitOn_cons hb rest
        rw [canonical_relative hb hsplit]
        refine .of_segments fun segment hsegment => ?_
        rw [splitOn_joined_relative hsplit, List.tail_cons] at hsegment
        exact (mem_laterSteps.1 hsegment).2

/-- A path without a needless byte is its canonical spelling. -/
theorem CanonicallySpelled.canonical_eq (hp : p.CanonicallySpelled) : p.canonical = p := by
  obtain ⟨bytes⟩ := p
  by_cases hslash : bytes = [slash]
  · subst hslash
    rfl
  -- Every segment but the first counts, so what is joined again is what was split.
  have hsegments := hp.segments hslash
  cases bytes with
  | nil => rfl
  | cons b rest =>
      by_cases hb : b = slash
      · subst hb
        rw [splitOn_slash_cons, List.tail_cons] at hsegments
        rw [canonical_rooted, laterSteps_eq_self hsegments, List.intercalate_splitOn]
      · obtain ⟨first, later, -, hsplit⟩ := exists_splitOn_cons hb rest
        rw [hsplit, List.tail_cons] at hsegments
        rw [canonical_relative hb hsplit, laterSteps_eq_self hsegments, ← hsplit,
          List.intercalate_splitOn]

end TypeRegistry.SourcePath
