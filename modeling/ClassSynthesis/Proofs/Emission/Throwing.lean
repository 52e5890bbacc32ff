import ClassSynthesis.Proofs.Emission.Frames
import ClassSynthesis.Proofs.Types.Dimensions

/-!
# ClassSynthesis.Proofs.Emission.Throwing

Bodies that throw a new exception. What they throw must be a `Throwable` and have instances of its
own. Neither primitives nor arrays are throwable, so that of an allocation's conditions only the
modifiers remain to be looked at.

* `append_throwing`: the outcome of appending such a body, with the code that it writes.
-/

namespace ClassSynthesis
namespace TypeDesc

variable {t : TypeDesc}

/-- The type is `Throwable` or has it above it. -/
def IsThrowable (t : TypeDesc) : Prop :=
  ∃ u, Relation.ReflTransGen DirectlyBelow t u ∧ u.className? = some "java.lang.Throwable"

theorem isThrowable_iff :
    t.IsThrowable ↔ t.className? = some "java.lang.Throwable" ∨
      t.inheritsFrom throwable = true := by
  rw [throwable, Declaration.type, inheritsFrom_declared_iff]
  constructor
  · rintro ⟨u, hu, h⟩
    rcases Relation.reflTransGen_iff_eq_or_transGen.mp hu with rfl | hu
    · exact .inl h
    · exact .inr ⟨u, hu, h⟩
  · rintro (h | ⟨u, hu, h⟩)
    · exact ⟨t, .refl, h⟩
    · exact ⟨u, hu.to_reflTransGen, h⟩

theorem IsThrowable.declared (h : t.IsThrowable) : t.isPrimitive = false ∧ t.isArray = false := by
  rcases isThrowable_iff.mp h with hn | hi
  · cases t with
    | primitive | array => cases hn
    | declared => exact ⟨rfl, rfl⟩
  · cases t with
    | primitive => cases hi
    | array c =>
      have habove := array_inheritsFrom_declared_iff.mp hi
      exact absurd habove (by decide)
    | declared => exact ⟨rfl, rfl⟩

theorem throwable_isAssignableFrom_iff :
    throwable.isAssignableFrom t = true ↔ t.IsThrowable := by
  have hroot : "java.lang.Throwable" ≠ "java.lang.Object" := by decide
  have hsame : (throwable == t) = true ↔ t.className? = some "java.lang.Throwable" := by
    rw [BEq.comm]
    exact beq_declared_iff
  refine isAssignableFrom_declared.trans ⟨?_, fun h => ⟨h.declared.1, ?_⟩⟩
  · rintro ⟨-, h | h | h⟩
    · exact isThrowable_iff.mpr (.inl (hsame.mp h))
    · exact absurd h hroot
    · exact isThrowable_iff.mpr (.inr h)
  · rcases isThrowable_iff.mp h with h | h
    · exact .inl (hsame.mpr h)
    · exact .inr (.inr h)

end TypeDesc

namespace MethodBody

variable {version : ClassFileVersion} {m : MethodDesc} {exception : TypeDesc}
  {message : Option String}

/-- Allocation, a copy for the constructor to consume, the message if there is one, the call and
the throw. -/
def throwCode (exception : TypeDesc) (message : Option String) : List Instruction :=
  [.type .new exception.internalName, .plain .dup] ++
    (message.toList.map fun s => .push (.string s)) ++
    [.method .invokespecial exception.internalName "<init>"
        (if message.isSome then "(Ljava/lang/String;)V" else "()V") false,
      .plain .athrow]

theorem effect?_throwCode : Machine.effect? (throwCode exception message) =
    some ⟨0, (if message.isSome then 3 else 2 : Nat)⟩ := by
  cases message <;> cbv

theorem call_constructor (t : TypeDesc) (parameters : List TypeDesc) :
    Fragment.call (.constructor t parameters (.ofList [.pub])) =
      .op (.call ⟨.special, .constructor t parameters (.ofList [.pub]), t⟩) := by
  cbv

theorem instruction_constructor {t : TypeDesc} (parameters : List TypeDesc)
    (h : t.isInterface = false) :
    (CallSite.mk .special (.constructor t parameters (.ofList [.pub])) t).instruction =
      .method .invokespecial t.internalName "<init>" (methodDescriptor parameters .void) false := by
  rw [CallSite.instruction, h]
  rfl

theorem instructions_throwFragment (h : exception.isInterface = false) :
    (throwFragment exception message).instructions version = throwCode exception message := by
  have hdefault : methodDescriptor [] .void = "()V" := by cbv
  have hstring : methodDescriptor [.string] .void = "(Ljava/lang/String;)V" := by cbv
  cases message <;>
    simp [throwFragment, throwCode, call_constructor, Fragment.instructions,
      Fragment.instructionsOf, Operation.instructions, Operation.duplicateInstructions,
      instruction_constructor _ h, hdefault, hstring]

theorem throwFragment_isValid (h : exception.IsThrowable) :
    (throwFragment exception message).isValid = true ↔
      exception.modifiers.has .abstract = false ∧ exception.isInterface = false := by
  obtain ⟨hp, ha⟩ := h.declared
  rw [throwFragment, Fragment.isValid, Fragment.allValid_iff]
  cases message <;>
    simp [call_constructor, Fragment.isValid, Operation.isValid, TypeDesc.isInterface, hp, ha]

theorem append_not_throwable (h : ¬exception.IsThrowable) :
    append version m (.throwing exception message) =
      refused (.incompatibleTypes exception.sourceName "java.lang.Throwable") := by
  have hname : TypeDesc.throwable.sourceName = "java.lang.Throwable" := by cbv
  rw [append, if_neg (mt TypeDesc.throwable_isAssignableFrom_iff.mp h), hname]

theorem append_throwable (h : exception.IsThrowable) :
    Outcome version m (throwFragment exception message)
      (append version m (.throwing exception message)) := by
  rw [append, if_pos (TypeDesc.throwable_isAssignableFrom_iff.mpr h)]
  exact appendFragment_outcome version m _

theorem append_throwing_code (h : exception.IsThrowable)
    (hf : (throwFragment exception message).isValid = true) (hm : m.argumentSlots ≤ slotLimit) :
    (append version m (.throwing exception message)).code.toList =
      throwCode exception message := by
  have hi : exception.isInterface = false := ((throwFragment_isValid h).mp hf).2
  rw [(append_throwable h).written hf hm, (Fragment.emit_complete _ hf).written,
    instructions_throwFragment hi]

theorem append_throwing_framed (h : exception.IsThrowable)
    (hf : (throwFragment exception message).isValid = true) (hm : m.argumentSlots ≤ slotLimit) :
    ∃ size, (append version m (.throwing exception message)).result = .ok size ∧
      size.stack.toNat = (if message.isSome then 3 else 2) ∧
      size.locals.toNat = m.argumentSlots := by
  have hlow : (if message.isSome then 3 else 2) ≤ slotLimit := by split <;> decide
  have hemit : ((throwFragment exception message).emit version).outcome =
      .ok ⟨0, (if message.isSome then 3 else 2 : Nat)⟩ := by
    rw [throwFragment_emit, Nat.cast_ite]
    rfl
  obtain ⟨size, hsize, hstack, hlocals⟩ :=
    ((append_throwable h).framed_iff hf hm hemit (Int.natCast_nonneg _)).mpr (Int.ofNat_le.mpr hlow)
  exact ⟨size, hsize, Int.ofNat_inj.mp hstack, hlocals⟩

theorem append_throwing_untouched {e : BodyError}
    (he : (append version m (.throwing exception message)).result = .error e) :
    (append version m (.throwing exception message)).Untouched := by
  by_cases h : exception.IsThrowable
  · refine ((append_throwable h).untouched_iff he).mpr ?_
    rintro required rfl
    exact throwing_fits he
  · rw [append_not_throwable h, untouched_iff]
    rfl

/-- In the order of the checks: the type is throwable, it has instances, the arguments fit. A body
that passes them all has the frame that its instructions need. -/
theorem append_throwing (version : ClassFileVersion) (m : MethodDesc) (exception : TypeDesc)
    (message : Option String) :
    let r := append version m (.throwing exception message)
    let abstract := exception.modifiers.has .abstract = true ∨ exception.isInterface = true
    let height : Nat := if message.isSome then 3 else 2
    (TypeDesc.throwable.isAssignableFrom exception = true ↔ exception.IsThrowable) ∧
    (¬exception.IsThrowable →
      r = refused (.incompatibleTypes exception.sourceName "java.lang.Throwable")) ∧
    (exception.IsThrowable → abstract → r = refused (.illegalFragment ("body of " ++ m.text))) ∧
    (exception.IsThrowable → ¬abstract → slotLimit < m.argumentSlots →
      r = refused (.tooManyLocals m.argumentSlots)) ∧
    (exception.IsThrowable → ¬abstract → m.argumentSlots ≤ slotLimit →
      r.code.toList = throwCode exception message ∧
      Machine.height? r.code.toList = some 0 ∧
      IsGreatest (Machine.heights r.code.toList) height ∧
      ∃ size, r.result = .ok size ∧ size.stack.toNat = height ∧
        size.locals.toNat = m.argumentSlots) ∧
    ∀ e, r.result = .error e → r.Untouched := by
  intro r abstract height
  have hvalid (h : exception.IsThrowable) :
      (throwFragment exception message).isValid = true ↔ ¬abstract := by
    rw [throwFragment_isValid h, not_or, Bool.not_eq_true, Bool.not_eq_true]
  refine ⟨TypeDesc.throwable_isAssignableFrom_iff, append_not_throwable, fun h ha => ?_,
    fun h ha hm => ?_, fun h ha hm => ?_, fun e => append_throwing_untouched⟩
  · have hf : (throwFragment exception message).isValid = false := by
      rw [← Bool.not_eq_true, hvalid h, not_not]
      exact ha
    exact (append_throwable h).of_invalid hf
  · exact (append_throwable h).of_crowded ((hvalid h).mpr ha) hm
  · have hf := (hvalid h).mpr ha
    have hcode : r.code.toList = throwCode exception message := append_throwing_code h hf hm
    have heffect : Machine.effect? (throwCode exception message) = some _ := effect?_throwCode
    obtain ⟨himpact, hpeak⟩ := Machine.effect?_exact heffect
    rw [hcode]
    exact ⟨rfl, himpact, hpeak, append_throwing_framed h hf hm⟩

/-- An exception with a message, an exception without instances and a class that is none. -/
theorem append_throwing_forms :
    let fault := Declaration.type {
      name := "pkg.Fault", modifiers := .ofList [.pub, .abstract, .super],
      superclass := .type .runtimeException }
    let thrown := append .standard plainMethod (.throwing .runtimeException (some "bar"))
    append .standard wideMethod (.throwing .string none) =
        refused (.incompatibleTypes "java.lang.String" "java.lang.Throwable") ∧
      append .standard wideMethod (.throwing fault none) =
        refused (.illegalFragment ("body of " ++ wideMethod.text)) ∧
      append .standard wideMethod (.throwing .runtimeException none) =
        refused (.tooManyLocals 65537) ∧
      thrown.code.toList = [.type .new "java/lang/RuntimeException", .plain .dup,
        .push (.string "bar"),
        .method .invokespecial "java/lang/RuntimeException" "<init>" "(Ljava/lang/String;)V" false,
        .plain .athrow] ∧
      ∃ size, thrown.result = .ok size ∧ size.stack.toNat = 3 ∧ size.locals.toNat = 0 := by
  intro fault thrown
  have hthrowable : TypeDesc.runtimeException.IsThrowable :=
    TypeDesc.throwable_isAssignableFrom_iff.mp (by decide +kernel)
  have hfault : fault.IsThrowable :=
    TypeDesc.throwable_isAssignableFrom_iff.mp (by decide +kernel)
  have hstring : ¬TypeDesc.string.IsThrowable :=
    mt TypeDesc.throwable_isAssignableFrom_iff.mpr (by decide +kernel)
  have hconcrete : ¬(TypeDesc.runtimeException.modifiers.has .abstract = true ∨
      TypeDesc.runtimeException.isInterface = true) := by
    decide +kernel
  have hwide : slotLimit < wideMethod.argumentSlots := by
    rw [wideMethod_argumentSlots]
    decide
  obtain ⟨-, hnone, -⟩ := append_throwing .standard wideMethod .string none
  obtain ⟨-, -, habstract, -⟩ := append_throwing .standard wideMethod fault none
  obtain ⟨-, -, -, hcrowded, -⟩ := append_throwing .standard wideMethod .runtimeException none
  obtain ⟨-, -, -, -, hthrown, -⟩ :=
    append_throwing .standard plainMethod .runtimeException (some "bar")
  obtain ⟨hcode, -, -, hsize⟩ := hthrown hthrowable hconcrete (by decide)
  refine ⟨hnone hstring, habstract hfault (.inl (by decide +kernel)), ?_, ?_, hsize⟩
  · rw [hcrowded hthrowable hconcrete hwide, wideMethod_argumentSlots]
  · rw [hcode]
    decide +kernel

end MethodBody
end ClassSynthesis
