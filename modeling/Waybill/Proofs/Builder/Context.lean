import Waybill.Proofs.Builder.Run
import Waybill.Proofs.HeaderValue.Equality
import Waybill.Proofs.Sequence.Codec

/-! The correlation context of a builder and what a push and a pop make of it. A push saves correlation, number and
size as a frame on top of the stack; a pop puts the top frame's correlation back, and its number and size unless it
has none. Both always take effect on the stack, since stacks of different heights are different, and neither touches
a header outside the context. -/
namespace Waybill

def HeaderName.context : List String :=
  [correlationId, sequenceNumber, sequenceSize, sequenceDetails]

theorem HeaderName.isReserved_of_mem_context {name : String} (member : name ∈ HeaderName.context) :
    HeaderName.isReserved name = false := by
  simp only [HeaderName.context, List.mem_cons, List.not_mem_nil, or_false] at member
  rcases member with rfl | rfl | rfl | rfl <;> decide

def Edit.avoidsContext (e : Edit) : Bool := HeaderName.context.all fun name => !e.touches name

def Edit.WithinContext (e : Edit) : Prop := ∀ name, e.touches name = true → name ∈ HeaderName.context

theorem Edit.withinContext_set {name : String} (member : name ∈ HeaderName.context) (v : HeaderValue) :
    (Edit.set name v).WithinContext := by
  intro other touched
  obtain rfl : name = other := by simpa [Edit.touches] using touched
  exact member

theorem Edit.withinContext_remove {name : String} (member : name ∈ HeaderName.context) :
    (Edit.remove name).WithinContext := by
  intro other touched
  obtain rfl : name = other := by simpa [Edit.touches] using touched
  exact member

/-- Three of the headers as they are stored, and the frames of the fourth, outermost first. -/
structure Context where
  correlation : Option HeaderValue
  number : Option HeaderValue
  size : Option HeaderValue
  stack : List HeaderValue

namespace Context

def frame (k : Context) (current : HeaderValue) : Frame := ⟨current, k.number.getD .null, k.size.getD .null⟩

def push (k : Context) (current x : HeaderValue) (n s : Int64) : Context where
  correlation := Store.written (some current) x
  number := some (.int n)
  size := some (.int s)
  stack := k.stack ++ [(k.frame current).toValue]

def restored (old : Option HeaderValue) (saved : HeaderValue) : Option HeaderValue :=
  if saved.isNull then old else Store.written old saved

def pop (k : Context) (f : Frame) (rest : List HeaderValue) : Context where
  correlation := Store.written k.correlation f.correlation
  number := restored k.number f.number
  size := restored k.size f.size
  stack := rest

end Context

namespace Store

theorem written_over_plain {w v : HeaderValue} (plain : w.isPlain = true) (live : v.isNull = false) :
    written (some w) v = some v :=
  written_of_ne live fun u stored same => by
    cases stored
    exact HeaderValue.eq_of_beq_of_isPlain plain same

theorem written_plain (old : Option HeaderValue) {v : HeaderValue} (plain : v.isPlain = true)
    (live : v.isNull = false) : written old v = some v :=
  written_of_ne live fun _ _ same =>
    (HeaderValue.eq_of_beq_of_isPlain plain (HeaderValue.beq_symm same)).symm

theorem written_stack {old : Option HeaderValue} {frames : List HeaderValue}
    (differ : Sequence.depth old ≠ frames.length) : written old (.list frames) = some (.list frames) := by
  refine written_of_ne rfl fun w stored same => ?_
  subst stored
  cases w with
  | list others =>
    rw [HeaderValue.list_beq_of_length_ne differ] at same
    cases same
  | _ => cases same

theorem exists_written_back {c x : HeaderValue} (live : c.isNull = false) (other : x.isNull = false) :
    ∃ y, written (some c) x = some y ∧ y.isNull = false ∧ written (some y) c = some c := by
  by_cases same : (c == x) = true
  · exact ⟨c, by simp [written, other, same], live, by simp [written, live]⟩
  · have back : ¬ (x == c) = true := fun e => same (HeaderValue.beq_symm e)
    exact ⟨x, by simp [written, other, same], other, by simp [written, live, back]⟩

theorem written_written {c : HeaderValue} (live : c.isNull = false) (x : HeaderValue) :
    written (written (some c) x) c = some c := by
  cases other : x.isNull with
  | true => simp [written, other, live]
  | false =>
    obtain ⟨y, entered, -, back⟩ := exists_written_back live other
    rw [entered, back]

end Store

namespace Builder

variable {α : Type}

/-- The builder's headers are those of the context; an empty stack is no header at all. -/
structure Holds (b : Builder Store α) (k : Context) : Prop where
  correlation : b.header HeaderName.correlationId = k.correlation
  number : b.header HeaderName.sequenceNumber = k.number
  size : b.header HeaderName.sequenceSize = k.size
  details : b.header HeaderName.sequenceDetails = Sequence.remainder k.stack

/-- Nothing differs but the context. -/
structure Beyond (b after : Builder Store α) : Prop where
  payload : after.payload = b.payload
  base : after.base = b.base
  header : ∀ name, name ∉ HeaderName.context → after.header name = b.header name

theorem Beyond.trans {b between after : Builder Store α} (first : b.Beyond between) (second : between.Beyond after) :
    b.Beyond after where
  payload := second.payload.trans first.payload
  base := second.base.trans first.base
  header name outside := (second.header name outside).trans (first.header name outside)

theorem beyond_editAll (b : Builder Store α) {es : List Edit}
    (within : ∀ e ∈ es, e.WithinContext) : b.Beyond (b.editAll es) := by
  induction es generalizing b with
  | nil => exact ⟨rfl, rfl, fun _ _ => rfl⟩
  | cons e more ih =>
    obtain ⟨first, rest⟩ := List.forall_mem_cons.1 within
    have here : b.Beyond (b.edit e) := ⟨rfl, rfl, fun name outside =>
      b.header_edit_of_not_touches (Bool.eq_false_iff.2 fun touched => outside (first name touched))⟩
    exact here.trans (ih (b.edit e) rest)

theorem Holds.of_header_eq {b after : Builder Store α} {k : Context} (holds : b.Holds k)
    (same : ∀ name ∈ HeaderName.context, after.header name = b.header name) : after.Holds k where
  correlation := (same _ (by decide)).trans holds.correlation
  number := (same _ (by decide)).trans holds.number
  size := (same _ (by decide)).trans holds.size
  details := (same _ (by decide)).trans holds.details

theorem holds_fromMessage {m : Message α} {k : Context}
    (correlation : m.headers.get? HeaderName.correlationId = k.correlation)
    (number : m.headers.get? HeaderName.sequenceNumber = k.number)
    (size : m.headers.get? HeaderName.sequenceSize = k.size)
    (details : m.headers.get? HeaderName.sequenceDetails = Sequence.remainder k.stack) (payload : α) :
    (fromMessageWithPayload m payload).Holds k where
  correlation := (header_fromMessage m (by decide)).trans correlation
  number := (header_fromMessage m (by decide)).trans number
  size := (header_fromMessage m (by decide)).trans size
  details := (header_fromMessage m (by decide)).trans details

theorem Holds.edit {b : Builder Store α} {k : Context} (holds : b.Holds k) {e : Edit}
    (apart : e.avoidsContext = true) : (b.edit e).Holds k := by
  refine holds.of_header_eq fun name member => b.header_edit_of_not_touches ?_
  simpa using List.all_eq_true.1 apart name member

theorem header_setCorrelationId (b : Builder Store α) (v : HeaderValue) (other : String) :
    (b.edit (.setCorrelationId v)).header other =
      if HeaderName.correlationId = other then Store.written (b.header HeaderName.correlationId) v
      else b.header other :=
  b.header_set (by decide) v other

theorem header_setSequenceNumber (b : Builder Store α) (n : Int64) (other : String) :
    (b.edit (.setSequenceNumber n)).header other =
      if HeaderName.sequenceNumber = other then some (.int n) else b.header other := by
  rw [Edit.setSequenceNumber, b.header_set (by decide), Store.written_plain _ rfl rfl]

theorem header_setSequenceSize (b : Builder Store α) (s : Int64) (other : String) :
    (b.edit (.setSequenceSize s)).header other =
      if HeaderName.sequenceSize = other then some (.int s) else b.header other := by
  rw [Edit.setSequenceSize, b.header_set (by decide), Store.written_plain _ rfl rfl]

theorem Holds.sequenceDepth {b : Builder Store α} {k : Context} (holds : b.Holds k) :
    b.sequenceDepth = k.stack.length := by
  rw [Builder.sequenceDepth, holds.details, Sequence.depth_remainder]

theorem header_setStack {b : Builder Store α} {frames : List HeaderValue}
    (differ : b.sequenceDepth ≠ frames.length) (other : String) :
    (b.edit (.set HeaderName.sequenceDetails (.list frames))).header other =
      if HeaderName.sequenceDetails = other then some (.list frames) else b.header other := by
  rw [b.header_set (by decide), Store.written_stack differ]

theorem header_restore (b : Builder Store α) {name : String} (free : HeaderName.isReserved name = false)
    (v : HeaderValue) (other : String) :
    (b.editAll (Plan.restore name v)).header other =
      if name = other then Context.restored (b.header name) v else b.header other := by
  by_cases null : v.isNull = true
  · by_cases here : name = other
    · subst here
      simp [Plan.restore, Context.restored, null, editAll]
    · simp [Plan.restore, here, null, editAll]
  · simp only [Plan.restore, Context.restored, null, if_false, Bool.false_eq_true]
    exact b.header_set free v other

def contextEdits (x : HeaderValue) (n s : Int64) : List Edit :=
  [.setCorrelationId x, .setSequenceNumber n, .setSequenceSize s]

def pushEdits (stack : List HeaderValue) (f : Frame) (x : HeaderValue) (n s : Int64) : List Edit :=
  .set HeaderName.sequenceDetails (.list (stack ++ [f.toValue])) :: contextEdits x n s

theorem withinContext_contextEdits {x : HeaderValue} {n s : Int64} : ∀ e ∈ contextEdits x n s, e.WithinContext :=
  List.forall_mem_cons.2 ⟨Edit.withinContext_set (by decide) _,
    List.forall_mem_cons.2 ⟨Edit.withinContext_set (by decide) _,
      List.forall_mem_singleton.2 (Edit.withinContext_set (by decide) _)⟩⟩

theorem withinContext_pushEdits {stack : List HeaderValue} {f : Frame} {x : HeaderValue} {n s : Int64} :
    ∀ e ∈ pushEdits stack f x n s, e.WithinContext :=
  List.forall_mem_cons.2 ⟨Edit.withinContext_set (by decide) _, withinContext_contextEdits⟩

theorem plan_push {b : Builder Store α} {k : Context} {current : HeaderValue} (holds : b.Holds k)
    (there : k.correlation = some current) (x : HeaderValue) (n s : Int64) :
    ∃ events, b.plan (.push x n s) = .ok ⟨events, pushEdits k.stack (k.frame current) x n s⟩ := by
  refine ⟨[.pushed (Sequence.depth (some (.list (k.stack ++ [(k.frame current).toValue]))))], ?_⟩
  simp only [plan, Plan.push, holds.correlation, there, holds.number, holds.size, holds.details,
    Sequence.push_remainder]
  rfl

theorem header_contextEdits (b : Builder Store α) (x : HeaderValue) (n s : Int64) (other : String) :
    (b.editAll (contextEdits x n s)).header other =
      if HeaderName.sequenceSize = other then some (.int s)
      else if HeaderName.sequenceNumber = other then some (.int n)
      else if HeaderName.correlationId = other then Store.written (b.header HeaderName.correlationId) x
      else b.header other := by
  change (((b.edit (.setCorrelationId x)).edit (.setSequenceNumber n)).edit (.setSequenceSize s)).header other = _
  rw [header_setSequenceSize, header_setSequenceNumber, header_setCorrelationId]

theorem header_pushEdits {b : Builder Store α} {stack : List HeaderValue} (before : b.sequenceDepth = stack.length)
    (f : Frame) (x : HeaderValue) (n s : Int64) (other : String) :
    (b.editAll (pushEdits stack f x n s)).header other =
      if HeaderName.sequenceSize = other then some (.int s)
      else if HeaderName.sequenceNumber = other then some (.int n)
      else if HeaderName.correlationId = other then Store.written (b.header HeaderName.correlationId) x
      else if HeaderName.sequenceDetails = other then some (.list (stack ++ [f.toValue]))
      else b.header other := by
  have higher : b.sequenceDepth ≠ (stack ++ [f.toValue]).length := by simp [before]
  change ((b.edit (.set HeaderName.sequenceDetails (.list (stack ++ [f.toValue])))).editAll
    (contextEdits x n s)).header other = _
  rw [header_contextEdits, header_setStack higher, header_setStack higher]
  rfl

theorem exists_push {b : Builder Store α} {k : Context} {current : HeaderValue} (holds : b.Holds k)
    (there : k.correlation = some current) (x : HeaderValue) (n s : Int64) :
    ∃ after, b.step (.push x n s) = .ok after ∧ after.Holds (k.push current x n s) ∧ b.Beyond after := by
  obtain ⟨events, planned⟩ := plan_push holds there x n s
  have final := header_pushEdits holds.sequenceDepth (k.frame current) x n s
  refine ⟨_, step_of_plan planned, ⟨?_, ?_, ?_, ?_⟩, b.beyond_editAll withinContext_pushEdits⟩
  · rw [final, if_neg (by decide), if_neg (by decide), if_pos rfl, holds.correlation, there]
    rfl
  · rw [final, if_neg (by decide), if_pos rfl]
    rfl
  · rw [final, if_pos rfl]
    rfl
  · rw [final, if_neg (by decide), if_neg (by decide), if_neg (by decide), if_pos rfl]
    exact (Sequence.remainder_append k.stack _).symm

def leave (rest : List HeaderValue) : Edit :=
  match Sequence.remainder rest with
  | some frames => .set HeaderName.sequenceDetails frames
  | none => .remove HeaderName.sequenceDetails

theorem header_leave {b : Builder Store α} {rest : List HeaderValue} {top : HeaderValue}
    (before : b.header HeaderName.sequenceDetails = some (.list (rest ++ [top]))) (other : String) :
    (b.edit (leave rest)).header other =
      if HeaderName.sequenceDetails = other then Sequence.remainder rest else b.header other := by
  cases rest with
  | nil => exact b.header_remove HeaderName.sequenceDetails other
  | cons first more =>
    have higher : b.sequenceDepth ≠ (first :: more).length := by
      rw [sequenceDepth, before]
      simp [Sequence.depth]
    exact header_setStack higher other

def popEdits (f : Frame) (rest : List HeaderValue) : List Edit :=
  .setCorrelationId f.correlation :: Plan.restore HeaderName.sequenceNumber f.number ++
    Plan.restore HeaderName.sequenceSize f.size ++ [leave rest]

theorem withinContext_restore {name : String} (member : name ∈ HeaderName.context) (v : HeaderValue) :
    ∀ e ∈ Plan.restore name v, e.WithinContext := by
  rw [Plan.restore]
  split
  · exact List.forall_mem_nil _
  · exact List.forall_mem_singleton.2 (Edit.withinContext_set member v)

theorem withinContext_leave (rest : List HeaderValue) : (leave rest).WithinContext := by
  rw [leave]
  split
  · exact Edit.withinContext_set (by decide) _
  · exact Edit.withinContext_remove (by decide)

theorem withinContext_popEdits {f : Frame} {rest : List HeaderValue} : ∀ e ∈ popEdits f rest, e.WithinContext := by
  have number := withinContext_restore (by decide : HeaderName.sequenceNumber ∈ HeaderName.context) f.number
  have size := withinContext_restore (by decide : HeaderName.sequenceSize ∈ HeaderName.context) f.size
  have correlation : (Edit.setCorrelationId f.correlation).WithinContext := Edit.withinContext_set (by decide) _
  exact List.forall_mem_append.2 ⟨List.forall_mem_append.2 ⟨List.forall_mem_cons.2 ⟨correlation, number⟩, size⟩,
    List.forall_mem_singleton.2 (withinContext_leave rest)⟩

theorem plan_pop {b : Builder Store α} {f : Frame} {rest : List HeaderValue}
    (before : b.header HeaderName.sequenceDetails = some (.list (rest ++ [f.toValue])))
    (live : f.correlation.isNull = false) : ∃ events, b.plan .pop = .ok ⟨events, popEdits f rest⟩ := by
  refine ⟨[.popped (Sequence.depth (Sequence.remainder rest))], ?_⟩
  simp only [plan, Plan.pop, before, Sequence.pop_append rest live]
  rfl

theorem header_popEdits {b : Builder Store α} {f : Frame} {rest : List HeaderValue}
    (before : b.header HeaderName.sequenceDetails = some (.list (rest ++ [f.toValue]))) (other : String) :
    (b.editAll (popEdits f rest)).header other =
      if HeaderName.sequenceDetails = other then Sequence.remainder rest
      else if HeaderName.sequenceSize = other then
        Context.restored (b.header HeaderName.sequenceSize) f.size
      else if HeaderName.sequenceNumber = other then
        Context.restored (b.header HeaderName.sequenceNumber) f.number
      else if HeaderName.correlationId = other then
        Store.written (b.header HeaderName.correlationId) f.correlation
      else b.header other := by
  let first := b.edit (.setCorrelationId f.correlation)
  let second := first.editAll (Plan.restore HeaderName.sequenceNumber f.number)
  let third := second.editAll (Plan.restore HeaderName.sequenceSize f.size)
  have ends : b.editAll (popEdits f rest) = third.edit (leave rest) := by
    rw [popEdits, editAll_append, editAll_append]
    rfl
  have context (name : String) : third.header name =
      if HeaderName.sequenceSize = name then
        Context.restored (b.header HeaderName.sequenceSize) f.size
      else if HeaderName.sequenceNumber = name then
        Context.restored (b.header HeaderName.sequenceNumber) f.number
      else if HeaderName.correlationId = name then
        Store.written (b.header HeaderName.correlationId) f.correlation
      else b.header name := by
    simp only [third, second, first, header_restore _ (by decide : HeaderName.isReserved
      HeaderName.sequenceSize = false), header_restore _ (by decide : HeaderName.isReserved
      HeaderName.sequenceNumber = false), header_setCorrelationId]
    rfl
  have stacked : third.header HeaderName.sequenceDetails = some (.list (rest ++ [f.toValue])) := by
    rw [context, if_neg (by decide), if_neg (by decide), if_neg (by decide), before]
  rw [ends, header_leave stacked, context]

theorem exists_pop {b : Builder Store α} {k : Context} {f : Frame} {rest : List HeaderValue}
    (holds : b.Holds k) (top : k.stack = rest ++ [f.toValue]) (live : f.correlation.isNull = false) :
    ∃ after, b.step .pop = .ok after ∧ after.Holds (k.pop f rest) ∧ b.Beyond after := by
  have before : b.header HeaderName.sequenceDetails = some (.list (rest ++ [f.toValue])) := by
    rw [holds.details, top, Sequence.remainder_append]
  obtain ⟨events, planned⟩ := plan_pop before live
  have final := header_popEdits before
  refine ⟨_, step_of_plan planned, ⟨?_, ?_, ?_, ?_⟩, b.beyond_editAll withinContext_popEdits⟩
  · rw [final, if_neg (by decide), if_neg (by decide), if_neg (by decide), if_pos rfl, holds.correlation]
    rfl
  · rw [final, if_neg (by decide), if_neg (by decide), if_pos rfl, holds.number]
    rfl
  · rw [final, if_neg (by decide), if_pos rfl, holds.size]
    rfl
  · rw [final, if_pos rfl]
    rfl

end Builder
end Waybill
