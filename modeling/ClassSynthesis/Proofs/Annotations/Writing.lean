import ClassSynthesis.Proofs.Annotations.Parser
import ClassSynthesis.Proofs.Pool.Encoding

/-!
# ClassSynthesis.Proofs.Annotations.Writing

Writers of annotations and arrays are inverse to the parser. `Wrote w w' p a` says that the writer
`w` became `w'` by writing `a`: unless there was a failure, the parser `p` takes the bytes that
were added for `a`, in the pool of `w'` and in every pool that extends it, with any depth that the
bytes do not exceed.

The number that a writer declares is patched in when it is closed, so what was written is followed
without it first (`memberCalls_wrote`, `elementCalls_wrote`) and put behind its count afterwards
(`append_wrote`).

* `block_wrote`: an annotation is read back from what is written for it.
-/

namespace ClassSynthesis

namespace ElementWriter

open AnnotationParser (request text member entry content IsTag)

structure Wrote {α : Type} (w w' : ElementWriter) (p : ConstantPool → Nat → Reader α) (a : α) :
    Prop where
  becomes : w.encoding.Becomes w'.encoding
  written : w'.encoding.failure = none → ∃ bytes, w'.bytes.toList = w.bytes.toList ++ bytes ∧
    ∀ pool, w'.encoding.pool.Extends pool → ∀ depth, bytes.length ≤ depth →
      Reads (p pool depth) bytes a

namespace Wrote

variable {α β γ : Type} {w w' w'' : ElementWriter} {p : ConstantPool → Nat → Reader α}
  {q : ConstantPool → Nat → Reader β} {r : ConstantPool → Nat → Reader γ} {a : α} {b : β} {c : γ}

theorem nothing (h : w.encoding.Becomes w'.encoding) (hb : w'.bytes = w.bytes) (a : α) :
    Wrote w w' (fun _ _ => return a) a :=
  ⟨h, fun _ => ⟨[], by simp [hb], fun _ _ _ _ => .pure a⟩⟩

/-- What was written is the same from an encoding that this one comes from. -/
theorem earlier {enc : Encoding} (ha : Wrote { w with encoding := enc } w' p a)
    (h : w.encoding.Becomes enc) : Wrote w w' p a :=
  ⟨h.trans ha.becomes, ha.written⟩

/-- One after the other, read by a parser that reads both. -/
theorem append (ha : Wrote w w' p a) (hb : Wrote w' w'' q b)
    (hr : ∀ pool depth {bs cs}, Reads (p pool depth) bs a → Reads (q pool depth) cs b →
      Reads (r pool depth) (bs ++ cs) c) : Wrote w w'' r c := by
  refine ⟨ha.becomes.trans hb.becomes, fun hf => ?_⟩
  obtain ⟨bs, hbs, hread⟩ := ha.written (hb.becomes.unfailed hf)
  obtain ⟨cs, hcs, hread'⟩ := hb.written hf
  refine ⟨bs ++ cs, by rw [hcs, hbs, List.append_assoc], ?_⟩
  intro pool hx depth hd
  rw [List.length_append] at hd
  exact hr pool depth (hread pool (hb.becomes.grows.trans hx) depth (by omega))
    (hread' pool hx depth (by omega))

theorem map (ha : Wrote w w' p a)
    (hr : ∀ pool depth {bs}, Reads (p pool depth) bs a → Reads (r pool depth) bs c) :
    Wrote w w' r c := by
  refine ⟨ha.becomes, fun hf => ?_⟩
  obtain ⟨bs, hbs, hread⟩ := ha.written hf
  exact ⟨bs, hbs, fun pool hx depth hd => hr pool depth (hread pool hx depth hd)⟩

end Wrote

/-! ## Indices, names and tags -/

/-- The name of a value, if values are named. -/
def label (w : ElementWriter) (named : Bool) (name : Option String) : ElementWriter :=
  if named then w.index (.utf8 (name.getD "value")) else w

def mark (w : ElementWriter) (tag : Char) : ElementWriter :=
  { w with bytes := w.bytes.push tag.val.toUInt8, count := w.count + 1 }

theorem begin_eq (w : ElementWriter) (named : Bool) (name : Option String) (tag : Char) :
    w.begin named name tag = (w.label named name).mark tag := rfl

/-- An index that is used for an answer given earlier. -/
def refer (w : ElementWriter) (answer : Except PoolError UInt16) : ElementWriter :=
  { w with encoding := (w.encoding.use answer).2, bytes := w.bytes ++ u2 (w.encoding.use answer).1 }

theorem refer_wrote {w : ElementWriter} (h : w.encoding.pool.Wf)
    {answer : Except PoolError UInt16} {r : Request}
    (hr : ∀ i, answer = .ok i → w.encoding.pool.requestAt? i = some r) :
    Wrote w (w.refer answer) (fun pool _ => request pool) r := by
  refine ⟨Encoding.use_becomes h answer, fun hf => ?_⟩
  refine ⟨u2 (w.encoding.use answer).1, by simp [refer], fun pool hx _ _ => ?_⟩
  have hi := hr _ (Encoding.answer_of_use hf)
  have hx' := (Encoding.use_becomes h answer).grows.trans hx
  exact AnnotationParser.reads_request (hx'.requestAt? hi)

theorem index_wrote {w : ElementWriter} (h : w.encoding.pool.Wf) (r : Request) :
    Wrote w (w.index r) (fun pool _ => request pool) r := by
  have ha := Encoding.ask_becomes h r
  have hr := refer_wrote (w := { w with encoding := (w.encoding.ask r).2 }) ha.wf
    fun i => Encoding.requestAt?_of_ask h
  exact hr.earlier ha

theorem text_wrote {w : ElementWriter} (h : w.encoding.pool.Wf) (s : String) :
    Wrote w (w.index (.utf8 s)) (fun pool _ => text pool) s :=
  (index_wrote h (.utf8 s)).map fun _ _ _ => AnnotationParser.reads_text

theorem label_becomes {w : ElementWriter} (h : w.encoding.pool.Wf) (named : Bool)
    (name : Option String) : w.encoding.Becomes (w.label named name).encoding := by
  cases named with
  | false => exact .refl h
  | true => exact (index_wrote h (.utf8 (name.getD "value"))).becomes

theorem value_of_mark {w w' : ElementWriter} {tag : Char} {c : ValueContent} (htag : IsTag tag)
    (h : Wrote (w.mark tag) w'
      (fun pool depth => content pool (AnnotationParser.value pool depth) tag) c) :
    Wrote w w' AnnotationParser.value c := by
  refine ⟨h.becomes, fun hf => ?_⟩
  obtain ⟨bs, hbs, hread⟩ := h.written hf
  refine ⟨[tag.val.toUInt8] ++ bs, by simpa [mark] using hbs, fun pool hx depth hd => ?_⟩
  -- The tag is one byte more, so there is one more level to go down.
  obtain ⟨depth, rfl⟩ : ∃ d, depth = d + 1 := ⟨depth - 1, by simp at hd; omega⟩
  exact AnnotationParser.reads_value htag (hread pool hx depth (by simpa using hd))

/-! ## Values with their names -/

/-- A value was written, after its name if values are named. The constant of a value may have
entered the pool before. -/
def WroteValue (named : Bool) (name : Option String) (w w' : ElementWriter) (c : ValueContent) :
    Prop :=
  ∃ enc, w.encoding.Becomes enc ∧
    Wrote (label { w with encoding := enc } named name) w' AnnotationParser.value c

namespace WroteValue

variable {w w' : ElementWriter} {name : Option String} {c : ValueContent}

theorem element (h : WroteValue false name w w' c) : Wrote w w' AnnotationParser.value c := by
  obtain ⟨enc, ha, hv⟩ := h
  exact hv.earlier ha

theorem member {name : String} (h : WroteValue true (some name) w w' c) :
    Wrote w w' (fun pool depth => member pool (AnnotationParser.value pool depth))
      (.mk name c) := by
  obtain ⟨enc, ha, hv⟩ := h
  have hname := (text_wrote (w := { w with encoding := enc }) ha.wf name).earlier ha
  exact hname.append hv fun _ _ _ _ htext hread => htext.bind (hread.andThen (.pure _))

end WroteValue

/-! ## Counting -/

@[simp] theorem count_label (w : ElementWriter) (named : Bool) (name : Option String) :
    (w.label named name).count = w.count := by
  cases named <;> rfl

@[simp] theorem count_call_valueCall (named : Bool) (name : Option String) (w : ElementWriter)
    (v : Value) : (call named w (valueCall name v)).count = w.count + 1 := by
  rcases v with s | t | ⟨t, constant⟩ | ⟨t, retention, members⟩ | elements
  all_goals exact congrArg (· + 1) (count_label _ named name)

/-- A closed writer declares all values: those before these elements, and these. -/
theorem declared_elementCalls (named : Bool) (vs : List Value) (w : ElementWriter) :
    (callAll named w (elementCalls vs)).declared = w.count + .ofNat vs.length := by
  induction vs generalizing w with
  | nil => simp [elementCalls, callAll, call]
  | cons v vs ih =>
    rw [elementCalls, callAll, ih, count_call_valueCall, List.length_cons, UInt16.ofNat_add]
    ac_rfl

theorem declared_memberCalls {ms : List Member} {cs : List MemberContent}
    (h : memberContents? ms = some cs) (w : ElementWriter) :
    (callAll true w (memberCalls ms)).declared = w.count + .ofNat cs.length := by
  induction ms generalizing w cs with
  | nil =>
    cases h
    simp [memberCalls, callAll, call]
  | cons m ms ih =>
    obtain ⟨name, v, c, cs', rfl, -, hcs, rfl⟩ := memberContents?_cons h
    rw [memberCalls, callAll, ih hcs, count_call_valueCall, List.length_cons, UInt16.ofNat_add]
    ac_rfl

/-- Values behind the number of them, as far as it fits into a `u2`. -/
theorem append_wrote {α : Type} {w inner : ElementWriter} {p : ConstantPool → Nat → Reader α}
    {as : List α}
    (h : Wrote (start w.encoding) inner
      (fun pool depth => Reader.times (p pool depth) as.length) as)
    (hd : inner.declared = .ofNat as.length) (hn : as.length ≤ 65535) :
    Wrote w (w.append inner) (fun pool depth => Reader.counted (p pool depth)) as := by
  refine ⟨h.becomes, fun hf => ?_⟩
  obtain ⟨bs, hbs, hread⟩ := h.written hf
  have hlength : inner.declared.toNat = as.length := by
    rw [hd, UInt16.toNat_ofNat', Nat.mod_eq_of_lt (by omega)]
  refine ⟨u2 inner.declared ++ bs, ?_, fun pool hx depth hle => ?_⟩
  · simpa [append, start] using hbs
  · rw [List.length_append] at hle
    refine Reads.counted ?_
    rw [hlength]
    exact hread pool hx depth (by omega)

/-! ## All calls

By induction on the annotation: there is a theorem for each kind of node, and the calls for a node
hold the calls for the nodes below it. -/

section

variable {w : ElementWriter} (h : w.encoding.pool.Wf) (named : Bool) (name : Option String)
include h

theorem value_wrote (e : Element) :
    WroteValue named name w (w.value named name e) (.element e) := by
  have ha := Encoding.ask_becomes h (constant e).2
  have hl := label_becomes (w := { w with encoding := (w.encoding.ask (constant e).2).2 }) ha.wf
    named name
  -- The index was answered before the name was written, and still stands for the constant.
  have hr := refer_wrote
    (w := (label { w with encoding := (w.encoding.ask (constant e).2).2 } named name).mark
      (constant e).1) hl.wf
    fun i hi => hl.grows.requestAt? (Encoding.requestAt?_of_ask h hi)
  exact ⟨_, ha, value_of_mark (AnnotationParser.isTag_constant e)
    (hr.map fun _ _ _ => AnnotationParser.reads_element e)⟩

/-- A value that is written after its name and its tag. -/
theorem begun_wrote {w' : ElementWriter} {c : ValueContent} (tag : Char) (htag : IsTag tag)
    (hw : (w.begin named name tag).encoding.pool.Wf → Wrote (w.begin named name tag) w'
      (fun pool depth => content pool (AnnotationParser.value pool depth) tag) c) :
    WroteValue named name w w' c := by
  have hl := label_becomes h named name
  rw [begin_eq] at hw
  exact ⟨w.encoding, .refl h, value_of_mark htag (hw hl.wf)⟩

theorem close_wrote {α : Type} :
    Wrote w (callAll named w [.close]) (fun _ _ => return ([] : List α)) [] := by
  have hc : w.encoding.Becomes (callAll named w [.close]).encoding := .refl h
  exact .nothing hc rfl []

theorem enum_wrote (descriptor constant : String) :
    WroteValue named name w (call named w (.enum name descriptor constant))
      (.enum descriptor constant) := by
  refine begun_wrote h named name 'e' rfl fun hb => ?_
  have hd := text_wrote hb descriptor
  exact hd.append (text_wrote hd.becomes.wf constant)
    fun _ _ _ _ hdescriptor hconstant => hdescriptor.bind (hconstant.andThen (.pure _))

end

/-- The type of an annotation, then its members. -/
def block (w : ElementWriter) (descriptor : String) (calls : List Call) : ElementWriter :=
  let w := w.index (.utf8 descriptor)
  w.append (callAll true (start w.encoding) calls)

mutual

theorem memberCalls_wrote : ∀ (ms : List Member) {cs : List MemberContent},
    memberContents? ms = some cs → countableMembers ms → ∀ {w : ElementWriter},
    w.encoding.pool.Wf → Wrote w (callAll true w (memberCalls ms))
      (fun pool depth => Reader.times (member pool (AnnotationParser.value pool depth)) cs.length)
      cs
  | [], _, rfl, _, _, h => close_wrote h _
  | m :: ms, cs, hc, hn, w, h => by
    obtain ⟨name, v, c, cs', rfl, hv, hcs, rfl⟩ := memberContents?_cons hc
    have hfirst := (valueCall_wrote v hv hn.1 true (some name) h).member
    have hrest := memberCalls_wrote ms hcs hn.2 hfirst.becomes.wf
    exact hfirst.append hrest fun _ _ _ _ => .times_cons

theorem valueCall_wrote : ∀ (v : Value) {c : ValueContent}, v.content? = some c → v.Countable →
    ∀ (named : Bool) (name : Option String) {w : ElementWriter}, w.encoding.pool.Wf →
    WroteValue named name w (call named w (valueCall name v)) c
  | .scalar s, _, rfl, _, named, name, _, h => value_wrote h named name (.scalar s)
  | .type t, _, rfl, _, named, name, _, h => value_wrote h named name (.type t.descriptor)
  | .enum t constant, _, rfl, _, named, name, _, h => enum_wrote h named name t.descriptor constant
  | .nested a, _, hc, hn, named, name, _, h => by
    obtain ⟨c, ha, rfl⟩ := Option.map_eq_some_iff.mp hc
    refine begun_wrote h named name '@' rfl fun hb => ?_
    cases a
    exact (block_wrote _ ha hn hb).map fun _ _ _ hread => hread.andThen (.pure _)
  | .array elements, _, hc, hn, named, name, w, h => by
    obtain ⟨cs, hcs, rfl⟩ := Option.map_eq_some_iff.mp hc
    refine begun_wrote h named name '[' rfl fun hb => ?_
    have hlength := length_elementContents? hcs
    have hi := elementCalls_wrote elements hcs hn.2
      (w := .start (w.begin named name '[').encoding) hb
    have hd := declared_elementCalls false elements (.start (w.begin named name '[').encoding)
    refine (append_wrote hi ?_ (hlength ▸ hn.1)).map fun _ _ _ hread => hread.andThen (.pure _)
    rw [hd, hlength]
    exact UInt16.zero_add _

theorem block_wrote : ∀ (a : Annotation) {c : AnnotationContent}, a.content? = some c →
    a.Countable → ∀ {w : ElementWriter}, w.encoding.pool.Wf →
    Wrote w (w.block a.type.descriptor a.calls)
      (fun pool depth => entry pool (AnnotationParser.value pool depth)) c
  | .mk t _ members, _, hc, hn, w, h => by
    obtain ⟨cs, hcs, rfl⟩ := Option.map_eq_some_iff.mp hc
    have ht := text_wrote h t.descriptor
    have hi := memberCalls_wrote members hcs hn.2
      (w := .start (w.index (.utf8 t.descriptor)).encoding) ht.becomes.wf
    have hd := declared_memberCalls hcs (.start (w.index (.utf8 t.descriptor)).encoding)
    have hm := append_wrote hi (hd.trans (UInt16.zero_add _))
      (length_memberContents? hcs ▸ hn.1)
    exact ht.append hm fun _ _ _ _ htype hread => htype.bind (hread.andThen (.pure _))

theorem elementCalls_wrote : ∀ (vs : List Value) {cs : List ValueContent},
    elementContents? vs = some cs → countableElements vs → ∀ {w : ElementWriter},
    w.encoding.pool.Wf → Wrote w (callAll false w (elementCalls vs))
      (fun pool depth => Reader.times (AnnotationParser.value pool depth) cs.length) cs
  | [], _, rfl, _, _, h => close_wrote h _
  | v :: vs, _, hc, hn, w, h => by
    obtain ⟨c, cs, hv, hcs, rfl⟩ := elementContents?_cons hc
    have hfirst := (valueCall_wrote v hv hn.1 false none h).element
    have hrest := elementCalls_wrote vs hcs hn.2 hfirst.becomes.wf
    exact hfirst.append hrest fun _ _ _ _ => .times_cons

end

end ElementWriter
end ClassSynthesis
