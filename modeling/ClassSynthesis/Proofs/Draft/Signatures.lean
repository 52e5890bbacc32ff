import Mathlib
import ClassSynthesis.Proofs.Draft.Changes
import ClassSynthesis.Proofs.Types.Spelling

/-!
# ClassSynthesis.Proofs.Draft.Signatures

Drafts tell members apart by their spelling, fields by name and descriptor, methods by name and
descriptor in one text. For plain types this is to tell them apart by their types
(`FieldToken.clash_iff`, `MethodToken.clash_iff`); the name of a method ends at the first
parenthesis, provided that the name has none itself. The text by which a refusal names a field is
as good as name and descriptor, provided that field names have no colon
(`FieldToken.signature_eq_iff`).

* `descriptor_faithful`: what descriptors say of types, and what drafts make of it.
-/

namespace ClassSynthesis

/-- Where a character stands first, a list can be split in one way only. -/
theorem append_cons_inj {α : Type} {c : α} {xs ys xs' ys' : List α} (h : c ∉ xs) (h' : c ∉ xs')
    (he : xs ++ c :: ys = xs' ++ c :: ys') : xs = xs' ∧ ys = ys' := by
  induction xs generalizing xs' with
  | nil =>
    cases xs' with
    | nil => exact ⟨rfl, (List.cons.inj he).2⟩
    | cons x xs' => exact absurd (List.cons.inj he).1 (List.ne_of_not_mem_cons h')
  | cons x xs ih =>
    cases xs' with
    | nil => exact absurd (List.cons.inj he).1.symm (List.ne_of_not_mem_cons h)
    | cons x' xs' =>
      obtain ⟨rfl, htail⟩ := List.cons.inj he
      obtain ⟨rfl, rfl⟩ :=
        ih (List.not_mem_of_not_mem_cons h) (List.not_mem_of_not_mem_cons h') htail
      exact ⟨rfl, rfl⟩

namespace FieldToken

variable {f g : FieldToken}

theorem toList_signature (f : FieldToken) :
    f.signature.toList = f.name.toList ++ ':' :: f.descriptor.toList := by
  simp [signature]

theorem signature_eq_iff (hf : ':' ∉ f.name.toList) (hg : ':' ∉ g.name.toList) :
    f.signature = g.signature ↔ f.Clash g := by
  constructor
  · intro h
    have hl := congrArg String.toList h
    rw [toList_signature, toList_signature] at hl
    obtain ⟨hname, hdescriptor⟩ := append_cons_inj hf hg hl
    exact ⟨String.toList_injective hname, String.toList_injective hdescriptor⟩
  · rintro ⟨hname, hdescriptor⟩
    rw [signature, signature, hname, hdescriptor]

theorem clash_iff (hf : f.type.Plain) (hg : g.type.Plain) :
    f.Clash g ↔ f.name = g.name ∧ (f.type == g.type) = true :=
  and_congr_right fun _ => TypeDesc.descriptor_eq_iff hf hg

end FieldToken

/-- A method that its signature says everything about. -/
structure MethodToken.Plain (m : MethodToken) : Prop where
  name : '(' ∉ m.name.toList
  parameters : ∀ t ∈ m.parameters, t.Plain
  returns : m.returns.Plain

namespace MethodToken

variable {m n : MethodToken}

theorem toList_signature (m : MethodToken) : m.signature.toList =
    m.name.toList ++ '(' :: (descriptorsOf m.parameters ++ ")" ++ m.returns.descriptor).toList := by
  simp [signature, descriptor, methodDescriptor]

theorem toList_descriptor (m : MethodToken) : m.descriptor.toList =
    '(' :: (descriptorsOf m.parameters ++ ")" ++ m.returns.descriptor).toList := by
  simp [descriptor, methodDescriptor]

theorem signature_eq_iff (hm : '(' ∉ m.name.toList) (hn : '(' ∉ n.name.toList) :
    m.signature = n.signature ↔ m.name = n.name ∧ m.descriptor = n.descriptor := by
  constructor
  · intro h
    have hl := congrArg String.toList h
    rw [toList_signature, toList_signature] at hl
    obtain ⟨hname, hrest⟩ := append_cons_inj hm hn hl
    refine ⟨String.toList_injective hname, String.toList_injective ?_⟩
    rw [toList_descriptor, toList_descriptor, hrest]
  · rintro ⟨hname, hdescriptor⟩
    exact Clash.of_parts hname hdescriptor

theorem clash_iff (hm : m.Plain) (hn : n.Plain) : m.Clash n ↔ m.name = n.name ∧
    sameTypes m.parameters n.parameters = true ∧ (m.returns == n.returns) = true := by
  rw [Clash, signature_eq_iff hm.name hn.name]
  exact and_congr_right fun _ =>
    TypeDesc.methodDescriptor_eq_iff hm.parameters hm.returns hn.parameters hn.returns

end MethodToken

namespace Snapshot

variable {s : Snapshot}

theorem withField_refused_iff {f : FieldToken} (hf : f.type.Plain)
    (hs : ∀ g ∈ s.fields, g.type.Plain) : (∃ e, s.withField f = .error e) ↔
      ∃ g ∈ s.fields, g.name = f.name ∧ (g.type == f.type) = true := by
  simp only [withField_error_iff, exists_and_left, exists_eq, and_true]
  exact exists_congr fun g => and_congr_right fun hg => FieldToken.clash_iff (hs g hg) hf

theorem withMethod_refused_iff {m : MethodToken} (hm : m.Plain)
    (hs : ∀ n ∈ s.methods, n.Plain) : (∃ e, s.withMethod m = .error e) ↔
      ∃ n ∈ s.methods, n.name = m.name ∧ sameTypes n.parameters m.parameters = true ∧
        (n.returns == m.returns) = true := by
  simp only [withMethod_error_iff, exists_and_left, exists_eq, and_true]
  exact exists_congr fun n => and_congr_right fun hn => MethodToken.clash_iff (hs n hn) hm

end Snapshot

/-- Reading is by the grammar of descriptors, with `void` for a type like any other; without it
among the parameters, `readMethod?` answers as well. -/
theorem descriptor_faithful :
    (∀ t : TypeDesc, t.Plain →
      ∃ u, readType? t.descriptor.toList = some (u, []) ∧ (u == t) = true) ∧
    (∀ (ts : List TypeDesc) (t : TypeDesc), (∀ u ∈ ts, u.Plain) → t.Plain →
      ∃ ts' t', readSignature? (methodDescriptor ts t) = some (ts', t') ∧
        sameTypes ts' ts = true ∧ (t' == t) = true ∧
        ((∀ u ∈ ts, u.isVoid = false) → readMethod? (methodDescriptor ts t) = some (ts', t'))) ∧
    (∀ (s : Snapshot) (f : FieldToken), f.type.Plain → (∀ g ∈ s.fields, g.type.Plain) →
      ((∃ e, s.withField f = .error e) ↔
        ∃ g ∈ s.fields, g.name = f.name ∧ (g.type == f.type) = true)) ∧
    (∀ (s : Snapshot) (m : MethodToken), m.Plain → (∀ n ∈ s.methods, n.Plain) →
      ((∃ e, s.withMethod m = .error e) ↔
        ∃ n ∈ s.methods, n.name = m.name ∧ sameTypes n.parameters m.parameters = true ∧
          (n.returns == m.returns) = true)) ∧
    ∀ t u : TypeDesc, (t == u) = true → t.descriptor = u.descriptor ∧ hash t = hash u := by
  refine ⟨?_, ?_, fun s f => Snapshot.withField_refused_iff,
    fun s m => Snapshot.withMethod_refused_iff, ?_⟩
  · intro t ht
    exact ⟨t.respelled, TypeDesc.readType?_plain ht, ht.respelled_beq⟩
  · intro ts t hts ht
    have hr := TypeDesc.readSignature?_plain hts ht
    refine ⟨_, _, hr, TypeDesc.sameTypes_map_respelled hts, ht.respelled_beq, fun hv => ?_⟩
    refine readMethod?_iff.mpr ⟨hr, ?_⟩
    simpa using hv
  · intro t u h
    have hd := TypeDesc.descriptor_of_beq h
    refine ⟨hd, ?_⟩
    change hash t.descriptor = hash u.descriptor
    rw [hd]

/-- An array of arrays, as a type, as a parameter, and in members that are there already. -/
theorem descriptor_faithful_nested :
    let t : TypeDesc := .array (.array (.classNamed "p.A"))
    let f : FieldToken := ⟨"x", t, .ofList []⟩
    let m : MethodToken := ⟨"f", .void, [.primitive .int, t], [], .ofList []⟩
    let s : Snapshot :=
      { version := 2, classFile := .standard, superclass := .object, interfaces := [],
        modifiers := .ofClass, name := "p.B", fields := [f], methods := [m],
        initializer := .nothing }
    t.Plain ∧ m.Plain ∧ (∃ u, readType? "[[Lp/A;".toList = some (u, []) ∧ (u == t) = true) ∧
    (∃ ts' t', readMethod? "(I[[Lp/A;)V" = some (ts', t') ∧ sameTypes ts' m.parameters = true ∧
      (t' == .void) = true) ∧
    (∃ e, s.withField f = .error e) ∧ (∃ e, s.withMethod m = .error e) ∧
    hash t = hash t.respelled := by
  intro t f m s
  have ht : t.Plain := by
    show '/' ∉ "p.A".toList ∧ ';' ∉ "p.A".toList
    decide
  have hparameters : ∀ u ∈ m.parameters, u.Plain := by
    simp [m, ht, TypeDesc.Plain]
  have hm : m.Plain := ⟨by decide, hparameters, trivial⟩
  have htext : t.descriptor = "[[Lp/A;" := by cbv
  have hmtext : methodDescriptor m.parameters .void = "(I[[Lp/A;)V" := by cbv
  obtain ⟨htype, hmethod, hfield, hmethods, hhash⟩ := descriptor_faithful
  obtain ⟨ts', t', -, hs, hs', hread⟩ := hmethod m.parameters .void hparameters trivial
  have hvoid : ∀ u ∈ m.parameters, u.isVoid = false := by
    simp [m, t, TypeDesc.isVoid, TypeDesc.asPrimitive]
  have hsame : sameTypes m.parameters m.parameters = true := by
    simp [m, TypeDesc.sameTypes_cons]
  refine ⟨ht, hm, htext ▸ htype t ht, ⟨ts', t', hmtext ▸ hread hvoid, hs, hs'⟩,
    (hfield s f ht ?_).mpr ⟨f, .head _, rfl, TypeDesc.beq_refl t⟩,
    (hmethods s m hm ?_).mpr ⟨m, .head _, rfl, hsame, TypeDesc.beq_refl _⟩,
    (hhash t t.respelled (BEq.symm ht.respelled_beq)).2⟩
  · exact List.forall_mem_singleton.mpr ht
  · exact List.forall_mem_singleton.mpr hm

end ClassSynthesis
