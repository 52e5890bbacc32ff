import ClassSynthesis.Draft.TypeName

/-!
# ClassSynthesis.Proofs.Draft.TypeNames

Legal names of types, as a grammar: segments separated by dots, each of them an identifier that is
no keyword. A legal name is cut into its segments in one way only, because no character of an
identifier is a dot; the check cuts it that way (`segments_eq_splitOn`).

* `fault?_eq_none_iff`: the check lets through the legal names that are not taken, and no others.
* `Legal.not_mem_separator`: but for the dot, a legal name has none of the characters that stand
  between names in a class file.
-/

namespace ClassSynthesis
namespace TypeName

variable {name : String} {c : Char} {cs : List Char} {superclass : TypeDesc}
  {interfaces : List TypeDesc}

/-! ## Grammar -/

/-- An identifier that is no keyword. -/
structure LegalSegment (segment : String) : Prop where
  spelling : ∃ c cs, segment.toList = c :: cs ∧ (isLetter c = true ∨ c = '_' ∨ c = '$') ∧
    ∀ d ∈ cs, isLetter d = true ∨ isNumeral d = true ∨ d = '_' ∨ d = '$'
  notKeyword : segment ∉ keywords

/-- Segments, at least one, with dots between them. -/
def Legal (name : String) : Prop :=
  ∃ parts : List String, parts ≠ [] ∧ name = ".".intercalate parts ∧ ∀ s ∈ parts, LegalSegment s

/-! ## Characters -/

theorem startsIdentifier_iff :
    startsIdentifier c = true ↔ isLetter c = true ∨ c = '_' ∨ c = '$' := by
  simp [startsIdentifier, or_assoc]

theorem continuesIdentifier_iff :
    continuesIdentifier c = true ↔ isLetter c = true ∨ isNumeral c = true ∨ c = '_' ∨ c = '$' := by
  simp [continuesIdentifier, or_assoc]

theorem continues_of_starts (h : startsIdentifier c = true) : continuesIdentifier c = true := by
  rcases startsIdentifier_iff.mp h with h | h
  · exact continuesIdentifier_iff.mpr (.inl h)
  · exact continuesIdentifier_iff.mpr (.inr (.inr h))

/-- The characters that stand between names, or between a name and what follows it. -/
def separators : List Char := ['.', '/', ';', '[']

/-- The tables of letters and numerals have no separator. -/
theorem continuesIdentifier_separator : ∀ c ∈ separators, continuesIdentifier c = false := by
  have hall : separators.all (fun c => !continuesIdentifier c) = true := by decide +kernel
  intro c hc
  have hnot := List.all_eq_true.mp hall c hc
  rwa [Bool.not_eq_true'] at hnot

/-! ## Segments -/

theorem isIdentifier_iff : isIdentifier cs = true ↔
    ∃ c ds, cs = c :: ds ∧ startsIdentifier c = true ∧ ∀ d ∈ ds, continuesIdentifier d = true := by
  cases cs with
  | nil => simp [isIdentifier]
  | cons c ds =>
    rw [isIdentifier, Bool.and_eq_true, List.all_eq_true]
    constructor
    · rintro ⟨hc, hds⟩
      exact ⟨c, ds, rfl, hc, hds⟩
    · rintro ⟨d, es, he, hd, hes⟩
      obtain ⟨rfl, rfl⟩ := List.cons.inj he
      exact ⟨hd, hes⟩

theorem legalSegment_iff {segment : String} :
    LegalSegment segment ↔ isIdentifier segment.toList = true ∧ segment ∉ keywords := by
  simp only [isIdentifier_iff, startsIdentifier_iff, continuesIdentifier_iff]
  exact ⟨fun h => ⟨h.spelling, h.notKeyword⟩, fun h => ⟨h.1, h.2⟩⟩

theorem segmentFault?_eq_none_iff :
    segmentFault? cs = none ↔ LegalSegment (String.ofList cs) := by
  rw [legalSegment_iff, String.toList_ofList, segmentFault?]
  by_cases hk : String.ofList cs ∈ keywords
  · simp [hk]
  · by_cases hi : isIdentifier cs = true
    · simp [hk, hi]
    · simp [hk, hi]

theorem LegalSegment.continues {segment : String} (h : LegalSegment segment) :
    ∀ c ∈ segment.toList, continuesIdentifier c = true := by
  obtain ⟨d, ds, he, hd, hds⟩ := isIdentifier_iff.mp (legalSegment_iff.mp h).1
  rw [he]
  exact List.forall_mem_cons.mpr ⟨continues_of_starts hd, hds⟩

theorem LegalSegment.dot {segment : String} (h : LegalSegment segment) :
    '.' ∉ segment.toList := by
  intro hdot
  have hfalse := continuesIdentifier_separator '.' (.head _)
  rw [h.continues _ hdot] at hfalse
  cases hfalse

/-! ## Names -/

theorem segments_eq_splitOn (cs : List Char) : segments cs = cs.splitOn '.' := by
  induction cs with
  | nil => rfl
  | cons c cs ih =>
    rw [segments, List.splitOn_cons_eq_if_modifyHead, ih]
    by_cases hc : c = '.'
    · simp [hc]
    · cases hs : cs.splitOn '.' with
      | nil => exact absurd hs (List.splitOn_ne_nil _ _)
      | cons s ss => simp [hc]

theorem segments_of_legal {parts : List String} (hne : parts ≠ [])
    (h : ∀ s ∈ parts, LegalSegment s) :
    segments (".".intercalate parts).toList = parts.map String.toList := by
  rw [segments_eq_splitOn, String.toList_intercalate]
  refine List.splitOn_intercalate '.' ?_ (by simpa using hne)
  intro cs hcs
  obtain ⟨s, hs, rfl⟩ := List.mem_map.mp hcs
  exact (h s hs).dot

theorem legal_iff : Legal name ↔ ∀ cs ∈ segments name.toList, LegalSegment (String.ofList cs) := by
  constructor
  · rintro ⟨parts, hne, rfl, hparts⟩ cs hcs
    rw [segments_of_legal hne hparts] at hcs
    obtain ⟨s, hs, rfl⟩ := List.mem_map.mp hcs
    rw [String.ofList_toList]
    exact hparts s hs
  · intro h
    refine ⟨(segments name.toList).map String.ofList, ?_, ?_, ?_⟩
    · simp [segments_eq_splitOn, List.splitOn_ne_nil]
    · apply String.toList_injective
      rw [String.toList_intercalate, List.map_map]
      simp only [Function.comp_def, String.toList_ofList, List.map_id', segments_eq_splitOn]
      exact (List.intercalate_splitOn '.').symm
    · intro s hs
      obtain ⟨cs, hcs, rfl⟩ := List.mem_map.mp hs
      exact h cs hcs

theorem not_legal_empty : ¬ Legal "" := by
  intro h
  obtain ⟨c, cs, he, -⟩ := (legal_iff.mp h [] (.head _)).spelling
  cases he

theorem findSome?_segmentFault? :
    (segments name.toList).findSome? segmentFault? = none ↔ Legal name := by
  rw [List.findSome?_eq_none_iff, legal_iff]
  exact forall_congr' fun cs => imp_congr_right fun _ => segmentFault?_eq_none_iff

instance (name : String) : Decidable (Legal name) := decidable_of_iff _ findSome?_segmentFault?

theorem fault?_eq_none_iff : fault? name superclass interfaces = none ↔
    Legal name ∧ superclass.name ≠ name ∧ ∀ i ∈ interfaces, i.name ≠ name := by
  rw [fault?]
  -- The empty name has a fault of its own, though its only segment is no identifier either.
  by_cases he : name = ""
  · rw [if_pos (by simp [he]), he]
    simp [not_legal_empty]
  · rw [if_neg (by simp [he]), ← findSome?_segmentFault?]
    cases (segments name.toList).findSome? segmentFault? with
    | some fault => simp
    | none =>
      by_cases hs : superclass.name = name
      · simp [hs]
      · simp [hs]

theorem mem_of_mem_intercalate {α : Type} {x c : α} {parts : List (List α)}
    (h : c ∈ [x].intercalate parts) : c = x ∨ ∃ part ∈ parts, c ∈ part := by
  induction parts with
  | nil => cases h
  | cons part parts ih =>
    by_cases hne : parts = []
    · rw [hne, List.intercalate_singleton] at h
      exact .inr ⟨part, .head _, h⟩
    · rw [List.intercalate_cons_of_ne_nil hne, List.mem_append, List.mem_append,
        List.mem_singleton] at h
      rcases h with (h | h) | h
      · exact .inr ⟨part, .head _, h⟩
      · exact .inl h
      · rcases ih h with h | ⟨later, hlater, h⟩
        · exact .inl h
        · exact .inr ⟨later, .tail _ hlater, h⟩

theorem Legal.continues (h : Legal name) :
    ∀ c ∈ name.toList, c = '.' ∨ continuesIdentifier c = true := by
  intro c hc
  obtain ⟨parts, -, rfl, hparts⟩ := h
  rw [String.toList_intercalate] at hc
  rcases mem_of_mem_intercalate hc with hdot | ⟨cs, hcs, hmem⟩
  · exact .inl hdot
  · obtain ⟨s, hs, rfl⟩ := List.mem_map.mp hcs
    exact .inr ((hparts s hs).continues c hmem)

theorem Legal.not_mem_separator (h : Legal name) (hc : c ∈ separators) (hdot : c ≠ '.') :
    c ∉ name.toList := by
  intro hmem
  rcases h.continues c hmem with he | hcontinues
  · exact hdot he
  · rw [continuesIdentifier_separator c hc] at hcontinues
    cases hcontinues

end TypeName
end ClassSynthesis
