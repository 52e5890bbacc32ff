import ClassSynthesis.Proofs.Emission.CallSites
import ClassSynthesis.Proofs.Types.Sameness

/-!
# ClassSynthesis.Proofs.Emission.Dispatch

Calls after any moves, legal or refused. `CallSite.Lawful m c` says how the dispatch of a call `c`
of the method `m` fits the method and the receiver. The call on the declaring type is lawful
(`of_lawful`), and so is every call that a legal move leads to (`retarget?_lawful`), wherever the
move starts: a move looks at the method and the new receiver only (`retarget?_congr`).

* `moved_lawful`: calls stay lawful under moves, and the last legal move alone decides which call
  is left.
-/

namespace ClassSynthesis
namespace CallSite

variable {c d : CallSite} {m : MethodDesc}

/-- The call after the moves, a refused move leaving it where it is. -/
def moved (c : CallSite) : List Retarget → CallSite
  | [] => c
  | r :: rs => ((c.retarget? r).getD c).moved rs

/-- How a call of a method may be dispatched. -/
structure Lawful (m : MethodDesc) (c : CallSite) : Prop where
  method : c.method = m
  static_iff : c.dispatch = .static ↔ m.isStatic = true
  static_stays : m.isStatic = true → ∀ r, c.retarget? r = none
  not_dynamic : m.isPrivate = true ∨ m.isConstructor = true →
    c.dispatch ≠ .virtual ∧ c.dispatch ≠ .interface
  interface_receiver : c.dispatch = .interface → c.receiver.isInterface = true
  virtual_receiver : c.dispatch = .virtual → c.receiver.isInterface = false
  special_receiver : c.dispatch = .special → m.owner.isAssignableFrom c.receiver = true
  special_owner : c.dispatch = .special →
    m.isPrivate = true ∨ m.isConstructor = true ∨ m.isDefault = true →
    (m.owner == c.receiver) = true

/-! ## Where a call starts -/

theorem of_ok (h : m.isTypeInitializer = false) : ∃ origin, of m = .ok origin := by
  unfold of Dispatch.of
  rw [h]
  cases m.isStatic
  · cases m.isPrivate || m.isConstructor || m.isDefault
    · cases m.owner.isInterface
      · exact ⟨_, rfl⟩
      · exact ⟨_, rfl⟩
    · exact ⟨_, rfl⟩
  · exact ⟨_, rfl⟩

theorem of_cases (h : of m = .ok c) : c.method = m ∧ c.receiver = m.owner ∧
    ((m.isStatic = true ∧ c.dispatch = .static) ∨
      (m.isStatic = false ∧ c.dispatch = .special) ∨
      (m.isStatic = false ∧ m.isPrivate = false ∧ m.isConstructor = false ∧
        c.dispatch = if m.owner.isInterface then .interface else .virtual)) := by
  unfold of at h
  split at h
  · rename_i d hd
    cases h
    refine ⟨rfl, rfl, ?_⟩
    unfold Dispatch.of at hd
    split_ifs at hd with _ hs hb hi
    · cases hd
      exact .inl ⟨hs, rfl⟩
    · cases hd
      exact .inr (.inl ⟨by simpa using hs, rfl⟩)
    all_goals
      cases hd
      simp only [Bool.or_eq_true, not_or, Bool.not_eq_true] at hs hb
      exact .inr (.inr ⟨hs, hb.1.1, hb.1.2, by simp [hi]⟩)
  · cases h

/-! ## What a move does -/

theorem retarget?_congr (h : c.method = d.method) (r : Retarget) :
    c.retarget? r = d.retarget? r := by
  cases r <;> simp only [retarget?, virtualOn?, specialOn?, h]

theorem retarget?_static (h : c.method.isStatic = true) (r : Retarget) : c.retarget? r = none := by
  cases r with
  | virtual target => simp [retarget?, virtualOn?, h]
  | special target => simp [retarget?, specialOn?, MethodDesc.isSpecializableFor, h]

theorem retarget?_cases {r : Retarget} (h : c.retarget? r = some d) : d.method = c.method ∧
    ((c.method.isStatic = false ∧ c.method.isPrivate = false ∧ c.method.isConstructor = false ∧
        d.dispatch = if d.receiver.isInterface then .interface else .virtual) ∨
      (c.method.isStatic = false ∧ d.dispatch = .special ∧
        c.method.isSpecializableFor d.receiver = true)) := by
  refine ⟨retarget?_method h, ?_⟩
  cases r with
  | virtual target =>
    simp only [retarget?, virtualOn?] at h
    split at h
    · cases h
    · rename_i hb
      simp only [Bool.or_eq_true, not_or, Bool.not_eq_true] at hb
      cases h
      exact .inl ⟨hb.2, hb.1.1, hb.1.2, rfl⟩
  | special target =>
    simp only [retarget?, specialOn?] at h
    split at h
    · rename_i hs
      cases h
      exact .inr ⟨not_static_of_isSpecializableFor hs, rfl, hs⟩
    · cases h

theorem owner_of_isSpecializableFor {target : TypeDesc}
    (h : m.isSpecializableFor target = true) :
    m.owner.isAssignableFrom target = true ∧
      (m.isPrivate = true ∨ m.isConstructor = true ∨ m.isDefault = true →
        (m.owner == target) = true) := by
  unfold MethodDesc.isSpecializableFor at h
  split_ifs at h with _ hb
  · exact ⟨TypeDesc.isAssignableFrom_of_same h, fun _ => h⟩
  · simp only [Bool.and_eq_true] at h
    refine ⟨h.2, fun hp => absurd ?_ hb⟩
    simpa [or_assoc] using hp

/-! ## Lawful calls -/

/-- A dispatch that goes by whether the receiver is an interface. -/
theorem lawful_of_dynamic (hm : c.method = m) (hs : m.isStatic = false)
    (hp : m.isPrivate = false) (hc : m.isConstructor = false)
    (hd : c.dispatch = if c.receiver.isInterface then .interface else .virtual) : c.Lawful m := by
  cases hi : c.receiver.isInterface with
  | true =>
    have hd : c.dispatch = .interface := by simpa [hi] using hd
    constructor <;> simp [hm, hs, hp, hc, hd, hi]
  | false =>
    have hd : c.dispatch = .virtual := by simpa [hi] using hd
    constructor <;> simp [hm, hs, hp, hc, hd, hi]

theorem lawful_of_special (hm : c.method = m) (hs : m.isStatic = false)
    (hd : c.dispatch = .special) (ha : m.owner.isAssignableFrom c.receiver = true)
    (ho : m.isPrivate = true ∨ m.isConstructor = true ∨ m.isDefault = true →
      (m.owner == c.receiver) = true) : c.Lawful m := by
  constructor
  case special_owner => exact fun _ => ho
  all_goals simp [hm, hs, hd, ha]

theorem of_lawful (h : of m = .ok c) : c.Lawful m := by
  obtain ⟨hm, hr, ⟨hs, hd⟩ | ⟨hs, hd⟩ | ⟨hs, hp, hc, hd⟩⟩ := of_cases h
  · have hnone := retarget?_static (c := c) (by rw [hm]; exact hs)
    constructor <;> simp [hm, hs, hd, hnone]
  · have hsame : (m.owner == c.receiver) = true := by rw [hr]; exact TypeDesc.beq_refl m.owner
    exact lawful_of_special hm hs hd (TypeDesc.isAssignableFrom_of_same hsame) fun _ => hsame
  · exact lawful_of_dynamic hm hs hp hc (by rw [hr]; exact hd)

/-- A move leads to a lawful call of the method, whatever the call it starts from. -/
theorem retarget?_lawful {r : Retarget} (h : c.retarget? r = some d) : d.Lawful c.method := by
  obtain ⟨hm, ⟨hs, hp, hc, hd⟩ | ⟨hs, hd, hspec⟩⟩ := retarget?_cases h
  · exact lawful_of_dynamic hm hs hp hc hd
  · obtain ⟨ha, ho⟩ := owner_of_isSpecializableFor hspec
    exact lawful_of_special hm hs hd ha ho

/-! ## Any moves -/

/-- What legal moves preserve one by one, all moves preserve. -/
theorem moved_induction {P : CallSite → Prop} (step : ∀ c r d, P c → c.retarget? r = some d → P d)
    (hc : P c) (moves : List Retarget) : P (c.moved moves) := by
  induction moves generalizing c with
  | nil => exact hc
  | cons r rs ih =>
    unfold moved
    cases hd : c.retarget? r with
    | none => exact ih hc
    | some d => exact ih (step c r d hc hd)

theorem moved_method (c : CallSite) (moves : List Retarget) : (c.moved moves).method = c.method :=
  moved_induction (P := fun d => d.method = c.method)
    (fun _ _ _ hd he => (retarget?_method he).trans hd) rfl moves

theorem Lawful.moved (h : c.Lawful m) (moves : List Retarget) : (c.moved moves).Lawful m :=
  moved_induction (fun _ _ _ hc he => hc.method ▸ retarget?_lawful he) h moves

/-- The last legal move alone counts, made from where the call started. -/
theorem moved_eq_last (c : CallSite) (moves : List Retarget) :
    c.moved moves = (moves.filterMap c.retarget?).getLast?.getD c := by
  induction moves generalizing c with
  | nil => rfl
  | cons r rs ih =>
    unfold CallSite.moved
    cases hd : c.retarget? r with
    | none =>
      rw [List.filterMap_cons_none hd]
      exact ih c
    | some d =>
      have hcongr : d.retarget? = c.retarget? := funext (retarget?_congr (retarget?_method hd))
      rw [List.filterMap_cons_some hd, List.getLast?_cons, ← hcongr]
      exact ih d

/-- The answers along a history are those that the first call would give. -/
theorem history_eq_map (c : CallSite) (moves : List Retarget) :
    c.history moves = moves.map c.retarget? := by
  induction moves generalizing c with
  | nil => rfl
  | cons r rs ih =>
    unfold history
    cases hd : c.retarget? r with
    | none => simp [ih c, hd]
    | some d =>
      have hcongr : d.retarget? = c.retarget? := funext (retarget?_congr (retarget?_method hd))
      simp [ih d, hd, hcongr]

theorem Lawful.onInterface (h : c.Lawful m) {op : Opcode} {owner name descriptor : String}
    {onInterface : Bool} (hi : c.instruction = .method op owner name descriptor onInterface) :
    (op = .invokeinterface → onInterface = true) ∧
      (op = .invokevirtual → onInterface = false) := by
  cases hi
  cases hd : c.dispatch with
  | static => exact ⟨fun h => absurd h (by decide), fun h => absurd h (by decide)⟩
  | special => exact ⟨fun h => absurd h (by decide), fun h => absurd h (by decide)⟩
  | virtual => exact ⟨fun h => absurd h (by decide), fun _ => h.virtual_receiver hd⟩
  | interface => exact ⟨fun _ => h.interface_receiver hd, fun h => absurd h (by decide)⟩

theorem moved_lawful (m : MethodDesc) (h : m.isTypeInitializer = false) :
    ∃ origin, of m = .ok origin ∧ ∀ moves,
      let c := origin.moved moves
      c.Lawful m ∧ c.effect = origin.effect ∧
      (∀ op owner name descriptor onInterface,
        c.instruction = .method op owner name descriptor onInterface →
        (op = .invokeinterface → onInterface = true) ∧
          (op = .invokevirtual → onInterface = false)) ∧
      (∀ r, c.retarget? r = origin.retarget? r) ∧
      origin.history moves = moves.map origin.retarget? ∧
      c = (moves.filterMap origin.retarget?).getLast?.getD origin := by
  obtain ⟨origin, ho⟩ := of_ok h
  refine ⟨origin, ho, fun moves => ?_⟩
  have hmethod := origin.moved_method moves
  have hlawful := (of_lawful ho).moved moves
  refine ⟨hlawful, ?_, ?_, ?_, origin.history_eq_map moves, origin.moved_eq_last moves⟩
  · rw [effect, hmethod]
    rfl
  · intro op owner name descriptor onInterface
    exact hlawful.onInterface
  · exact retarget?_congr hmethod

/-- A default method: moved to a class, back to the interface, and not to the class again. -/
theorem moved_lawful_default :
    let m : MethodDesc := ⟨.interfaceNamed "I", "f", .void, [], .ofList [.pub], []⟩
    let moves : List Retarget :=
      [.virtual (.classNamed "A"), .special (.interfaceNamed "I"), .special (.classNamed "A")]
    m.isTypeInitializer = false ∧ ∃ origin, of m = .ok origin ∧ (origin.moved moves).Lawful m ∧
      (origin.moved moves).effect = origin.effect ∧
      origin.history moves = moves.map origin.retarget? ∧
      origin.moved moves = (moves.filterMap origin.retarget?).getLast?.getD origin := by
  intro m moves
  have hm : m.isTypeInitializer = false := by decide
  obtain ⟨origin, ho, h⟩ := moved_lawful m hm
  obtain ⟨hlawful, heffect, -, -, hhistory, hlast⟩ := h moves
  exact ⟨hm, origin, ho, hlawful, heffect, hhistory, hlast⟩

end CallSite
end ClassSynthesis
