import ClassSynthesis.Proofs.Draft.NameSequences
import ClassSynthesis.Proofs.Draft.TypeNames

/-!
# ClassSynthesis.Proofs.Draft.SuffixedNames

Names drawn from a sequence, as far as the check of names goes. What a sequence puts after the name
of the supertype lengthens the last segment of that name and has a dollar sign in it, which keywords
have not; what it puts in front are segments of their own. So a legal name stays legal.

Every sequence that a session makes moves the subclasses of platform types to the same package, and
what is done in the session leaves it at that (`after_standard`). How many names have been drawn is
of no account.

* `subclass_legal`: a subclass of a type with a legal name is refused only if one of its interfaces
  bears the name drawn. That name is not the supertype's, nor is it in a package below `java`.
-/

namespace ClassSynthesis

namespace TypeName

variable {name package rest segment : String}

/-! ## Legal names put together -/

theorem dollar_not_mem_keyword : ∀ k ∈ keywords, '$' ∉ k.toList := by
  decide +kernel

/-- More characters of an identifier, and a dollar sign so that there is no keyword. -/
theorem LegalSegment.append (h : LegalSegment segment)
    (hrest : ∀ c ∈ rest.toList, continuesIdentifier c = true) (hdollar : '$' ∈ rest.toList) :
    LegalSegment (segment ++ rest) := by
  obtain ⟨c, cs, he, hc, hcs⟩ := isIdentifier_iff.mp (legalSegment_iff.mp h).1
  refine legalSegment_iff.mpr ⟨isIdentifier_iff.mpr ⟨c, cs ++ rest.toList, ?_, hc, ?_⟩, ?_⟩
  · rw [String.toList_append, he, List.cons_append]
  · exact List.forall_mem_append.mpr ⟨hcs, hrest⟩
  · intro hkeyword
    refine dollar_not_mem_keyword _ hkeyword ?_
    rw [String.toList_append]
    exact List.mem_append_right _ hdollar

theorem LegalSegment.legal (h : LegalSegment segment) : Legal segment :=
  ⟨[segment], List.cons_ne_nil _ _, String.intercalate_singleton.symm,
    List.forall_mem_singleton.mpr h⟩

theorem Legal.inPackage (hpackage : Legal package) (h : Legal name) :
    Legal (package ++ "." ++ name) := by
  obtain ⟨outer, houter, rfl, hsegments⟩ := hpackage
  obtain ⟨inner, hinner, rfl, hsegments'⟩ := h
  exact ⟨outer ++ inner, by simp [houter], (String.intercalate_append_of_ne_nil houter hinner).symm,
    List.forall_mem_append.mpr ⟨hsegments, hsegments'⟩⟩

/-- It is the last segment that grows. -/
theorem Legal.append (h : Legal name)
    (hrest : ∀ c ∈ rest.toList, continuesIdentifier c = true) (hdollar : '$' ∈ rest.toList) :
    Legal (name ++ rest) := by
  obtain ⟨parts, hne, rfl, hparts⟩ := h
  obtain ⟨init, last, rfl⟩ := (List.eq_nil_or_concat' parts).resolve_left hne
  have hlast := ((hparts last (by simp)).append hrest hdollar).legal
  by_cases hinit : init = []
  · rwa [hinit, List.nil_append, String.intercalate_singleton]
  · rw [String.intercalate_append_of_ne_nil hinit (List.cons_ne_nil _ _),
      String.intercalate_singleton, String.append_assoc]
    have hpackage : Legal (".".intercalate init) :=
      ⟨init, hinit, rfl, fun s hs => hparts s (List.mem_append_left _ hs)⟩
    exact hpackage.inPackage hlast

/-- A legal name that is not the supertype's has one fault at most. -/
theorem fault?_of_legal {superclass : TypeDesc} {interfaces : List TypeDesc} (h : Legal name)
    (hs : superclass.name ≠ name) : fault? name superclass interfaces =
      if interfaces.any fun i => i.name == name then some .takenByInterface else none := by
  have hempty : name ≠ "" := fun he => not_legal_empty (he ▸ h)
  rw [fault?, if_neg (by simp [hempty]), findSome?_segmentFault?.mpr h]
  simp [hs]

/-! ## The front of a name -/

/-- Where the text to be found ends in a character that is not in the rest, it ends before. -/
theorem prefix_of_prefix_append {α : Type} {x : α} {xs ys zs : List α}
    (h : xs ++ [x] <+: ys ++ zs) (hx : x ∉ zs) : xs ++ [x] <+: ys := by
  obtain ⟨more, he⟩ := h
  rcases List.append_eq_append_iff.mp he with ⟨as, rfl, -⟩ | ⟨bs, hbs, rfl⟩
  · exact List.prefix_append _ _
  · rcases List.eq_nil_or_concat' bs with rfl | ⟨front, last, rfl⟩
    · rw [List.append_nil] at hbs
      subst hbs
      exact List.prefix_rfl
    · rw [← List.append_assoc] at hbs
      obtain ⟨-, hlast⟩ := List.append_inj' hbs rfl
      obtain rfl := List.singleton_inj.mp hlast
      exact absurd (by simp) hx

theorem startsWith_append_rest (h : name.startsWith "java." = false) (hdot : '.' ∉ rest.toList) :
    (name ++ rest).startsWith "java." = false := by
  rw [Bool.eq_false_iff, Ne, String.startsWith_string_iff] at h ⊢
  rw [String.toList_append]
  intro hprefix
  have hsplit : ['j', 'a', 'v', 'a'] ++ ['.'] <+: name.toList ++ rest.toList := hprefix
  exact h (prefix_of_prefix_append hsplit hdot)

end TypeName

namespace NameSequence

variable {q : NameSequence} {superclass : TypeDesc}

/-- What a name has after its stem. -/
def ending (q : NameSequence) : String := "$$" ++ q.suffix ++ "$" ++ toString (q.issued + 1).toNat

theorem next_eq_append (q : NameSequence) (superclass : TypeDesc) :
    (q.next superclass).1 = q.stem superclass ++ q.ending := by
  simp only [next, ending, String.append_assoc]

theorem dollar_mem_ending (q : NameSequence) : '$' ∈ q.ending.toList := by
  simp [ending]

theorem continuesIdentifier_of_isDigit {c : Char} (h : c.isDigit = true) :
    TypeName.continuesIdentifier c = true := by
  refine TypeName.continuesIdentifier_iff.mpr (.inr (.inl ?_))
  have hrange : 48 ≤ c.toNat ∧ c.toNat ≤ 57 := Char.isDigit_iff_toNat.mp h
  rw [TypeName.isNumeral, CharRange.any, numericRanges, List.any_cons, Bool.or_eq_true]
  exact .inl (by simpa using hrange)

theorem ending_continues (h : ∀ c ∈ q.suffix.toList, TypeName.continuesIdentifier c = true) :
    ∀ c ∈ q.ending.toList, TypeName.continuesIdentifier c = true := by
  have hdollar : TypeName.continuesIdentifier '$' = true :=
    TypeName.continuesIdentifier_iff.mpr (by simp)
  have hdigits : ∀ c ∈ (toString (q.issued + 1).toNat).toList,
      TypeName.continuesIdentifier c = true := by
    rw [Nat.toString_eq_ofList_toDigits, String.toList_ofList]
    intro c hc
    exact continuesIdentifier_of_isDigit
      (Nat.isDigit_of_mem_toDigits (by decide) (by decide) hc)
  simp only [ending, String.toList_append, List.forall_mem_append]
  exact ⟨⟨⟨by simp [hdollar], h⟩, by simp [hdollar]⟩, hdigits⟩

/-- Subclasses of platform types go to the package that they go to when nothing is said. -/
def Standard (q : NameSequence) : Prop := q.platformPackage = "classforge.renamed"

theorem legal_standardPackage : TypeName.Legal "classforge.renamed" := by
  decide +kernel

theorem legal_stem (hq : q.Standard) (h : TypeName.Legal superclass.name) :
    TypeName.Legal (q.stem superclass) := by
  simp only [stem]
  split
  · rw [hq]
    exact legal_standardPackage.inPackage h
  · exact h

/-- Names in packages below `java` are moved, and the package that they are moved to is not one. -/
theorem startsWith_stem (hq : q.Standard) : (q.stem superclass).startsWith "java." = false := by
  simp only [stem]
  split
  · rw [hq, Bool.eq_false_iff, Ne, String.startsWith_string_iff]
    simp
  · rename_i h
    exact Bool.eq_false_iff.mpr h

theorem legal_next (hq : q.Standard)
    (hsuffix : ∀ c ∈ q.suffix.toList, TypeName.continuesIdentifier c = true)
    (h : TypeName.Legal superclass.name) : TypeName.Legal (q.next superclass).1 := by
  rw [next_eq_append]
  exact (legal_stem hq h).append (ending_continues hsuffix) (dollar_mem_ending q)

theorem startsWith_next (hq : q.Standard)
    (hsuffix : ∀ c ∈ q.suffix.toList, TypeName.continuesIdentifier c = true) :
    (q.next superclass).1.startsWith "java." = false := by
  rw [next_eq_append]
  refine TypeName.startsWith_append_rest (startsWith_stem hq) fun hdot => ?_
  have hfalse := TypeName.continuesIdentifier_separator '.' (.head _)
  rw [ending_continues hsuffix _ hdot] at hfalse
  cases hfalse

theorem length_le_stem (q : NameSequence) (superclass : TypeDesc) :
    superclass.name.length ≤ (q.stem superclass).length := by
  simp only [stem]
  split
  · simp only [String.length_append]
    omega
  · exact Nat.le_refl _

/-- A name drawn is longer than the supertype's. -/
theorem next_ne_name (q : NameSequence) (superclass : TypeDesc) :
    superclass.name ≠ (q.next superclass).1 := by
  intro he
  have hlength := congrArg String.length he
  have hstem := q.length_le_stem superclass
  have hending := List.length_pos_of_mem q.dollar_mem_ending
  rw [String.length_toList] at hending
  rw [next_eq_append, String.length_append] at hlength
  omega

end NameSequence

namespace Snapshot

/-- A draft with a legal name is refused only for the sake of its interfaces. -/
theorem named_of_legal {name : String} {superclass : TypeDesc} (h : TypeName.Legal name)
    (hs : superclass.name ≠ name) (classFile : ClassFileVersion) (modifiers : Modifiers)
    (interfaces : List TypeDesc) :
    let answer := named name classFile superclass interfaces modifiers
    ((∃ first, answer = .ok first ∧ first.name = name) ↔ ∀ i ∈ interfaces, i.name ≠ name) ∧
      (answer = .error (.illegalName name .takenByInterface) ↔
        ∃ i ∈ interfaces, i.name = name) := by
  intro answer
  have hanswer : answer = named name classFile superclass interfaces modifiers := rfl
  rw [hanswer, named, TypeName.fault?_of_legal h hs]
  by_cases htaken : ∃ i ∈ interfaces, i.name = name
  · rw [if_pos (by simpa using htaken)]
    refine ⟨iff_of_false ?_ fun hfree => ?_, iff_of_true rfl htaken⟩
    · rintro ⟨first, he, -⟩
      cases he
    · obtain ⟨i, hi, he⟩ := htaken
      exact hfree i hi he
  · rw [if_neg (by simpa using htaken)]
    refine ⟨iff_of_true ⟨_, rfl, rfl⟩ fun i hi he => htaken ⟨i, hi, he⟩, iff_of_false ?_ htaken⟩
    intro he
    cases he

end Snapshot

namespace Session

variable {s : Session}

/-- The session after a use. -/
def use (s : Session) : Use → Session
  | .request settings superclass interfaces => (s.subclass settings superclass interfaces).2
  | .newSequence suffix => (s.addSequence suffix).2

def after (s : Session) (uses : List Use) : Session := uses.foldl use s

/-! ## Sequences as the session makes them -/

def Standard (s : Session) : Prop := ∀ q ∈ s.sequences, q.Standard

theorem empty_standard : empty.Standard := by
  simp [Standard, empty]

theorem Standard.sequence (hs : s.Standard) (k : Nat) : (s.sequence k).Standard := by
  unfold Session.sequence
  cases hk : s.sequences[k]? with
  | none => rfl
  | some q => exact hs q (Array.mem_of_getElem? hk)

/-- A use draws a number or adds a sequence. -/
theorem Standard.use (hs : s.Standard) (u : Use) : (s.use u).Standard := by
  cases u with
  | request settings superclass interfaces =>
    intro q hq
    rcases Array.mem_or_eq_of_mem_setIfInBounds hq with hq | rfl
    · exact hs q hq
    · exact hs.sequence settings.naming
  | newSequence suffix =>
    intro q hq
    rcases Array.mem_push.mp hq with hq | rfl
    · exact hs q hq
    · rfl

theorem after_standard (hs : s.Standard) (uses : List Use) : (s.after uses).Standard := by
  induction uses generalizing s with
  | nil => exact hs
  | cons u uses ih => exact ih (hs.use u)

/-! ## Subclasses -/

theorem subclass_legal :
    (∀ uses : List Use, (empty.after uses).Standard) ∧
    ∀ (s : Session) (settings : Settings) (superclass : TypeDesc) (interfaces : List TypeDesc),
      s.Standard → (∀ c ∈ (s.suffix settings).toList, TypeName.isLetter c = true ∨
        TypeName.isNumeral c = true ∨ c = '_' ∨ c = '$') → TypeName.Legal superclass.name →
      let name := ((s.sequence settings.naming).next superclass).1
      let answer := (s.subclass settings superclass interfaces).1
      ((∃ first, answer = .ok first ∧ first.name = name) ↔ ∀ i ∈ interfaces, i.name ≠ name) ∧
        (answer = .error (.illegalName name .takenByInterface) ↔
          ∃ i ∈ interfaces, i.name = name) ∧
        TypeName.Legal name ∧ superclass.name ≠ name ∧ name.startsWith "java." = false := by
  refine ⟨after_standard empty_standard, ?_⟩
  intro s settings superclass interfaces hs hsuffix hsuper name answer
  have hq := hs.sequence settings.naming
  have hcontinues : ∀ c ∈ (s.sequence settings.naming).suffix.toList,
      TypeName.continuesIdentifier c = true :=
    fun c hc => TypeName.continuesIdentifier_iff.mpr (hsuffix c hc)
  have hlegal : TypeName.Legal name := NameSequence.legal_next hq hcontinues hsuper
  have hsupername : superclass.name ≠ name := NameSequence.next_ne_name _ superclass
  obtain ⟨haccepted, htaken⟩ := Snapshot.named_of_legal hlegal hsupername settings.classFile
    settings.modifiers interfaces
  exact ⟨haccepted, htaken, hlegal, hsupername, NameSequence.startsWith_next hq hcontinues⟩

/-- A supertype of the platform under the last number before the numbers start again, then one in a
package whose name begins with the same letters, with an interface that bears the name drawn. -/
theorem subclass_legal_forms :
    let settings : Settings := ⟨.standard, .ofClass, false, false, 0⟩
    let s : Session := ⟨#[{ suffix := "_1", issued := 0xfffffffffffffffe }]⟩
    let later := s.use (.request settings .object [])
    let javax := TypeDesc.classNamed "javax.A"
    (∃ first, (s.subclass settings .object []).1 = .ok first ∧
      first.name = "classforge.renamed.java.lang.Object$$_1$18446744073709551615") ∧
    (later.subclass settings javax [.interfaceNamed "javax.A$$_1$0"]).1 =
      .error (.illegalName "javax.A$$_1$0" .takenByInterface) := by
  intro settings s later javax
  have hs : s.Standard := by
    intro q hq
    obtain rfl := List.mem_singleton.mp (Array.mem_toList_iff.mpr hq)
    rfl
  have hsuffix : ∀ c ∈ "_1".toList, TypeName.isLetter c = true ∨ TypeName.isNumeral c = true ∨
      c = '_' ∨ c = '$' := by
    intro c hc
    have hnumeral : TypeName.isNumeral '1' = true := by decide +kernel
    obtain rfl | rfl : c = '_' ∨ c = '1' := List.mem_pair.mp hc
    · exact .inr (.inr (.inl rfl))
    · exact .inr (.inl hnumeral)
  have hobject : TypeName.Legal TypeDesc.object.name := by decide +kernel
  have hjavax : TypeName.Legal javax.name := by decide +kernel
  have hmoved := subclass_legal.2 s settings .object [] hs hsuffix hobject
  have htaken := subclass_legal.2 later settings javax [.interfaceNamed "javax.A$$_1$0"]
    (hs.use _) hsuffix hjavax
  refine ⟨?_, ?_⟩
  · obtain ⟨first, hfirst, hname⟩ := hmoved.1.mpr (List.forall_mem_nil _)
    exact ⟨first, hfirst, hname.trans (by decide +kernel)⟩
  · have hname : ((later.sequence 0).next javax).1 = "javax.A$$_1$0" := by decide +kernel
    have hrefused := htaken.2.1.mpr ⟨_, .head _, hname.symm⟩
    rwa [hname] at hrefused

end Session

end ClassSynthesis
