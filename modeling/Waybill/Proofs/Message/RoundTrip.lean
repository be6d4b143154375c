import Waybill.Message.Basic
import Waybill.Proofs.Headers.RoundTrip

/-! Messages and their written form. A message is written as long as its headers are, and reads back with the same
headers, the same kind, and a payload that equals the one it had. -/
namespace Waybill

namespace Message

variable {α : Type} [JsonForm α]

def document (payload headers : Doc) (kind : MessageKind) : Doc :=
  .object [("payload", payload), ("headers", headers), ("kind", .text kind.name)]

theorem doc?_eq {m : Message α} {payload : Doc} (written : JsonForm.doc? m.payload = some payload) :
    m.doc? = m.headers.doc?.map fun headers => document payload headers m.kind := by
  rw [doc?, written]
  cases m.headers.doc? <;> rfl

theorem depth_document (payload headers : Doc) (kind : MessageKind) :
    (document payload headers kind).depth = max payload.depth headers.depth + 1 := by
  simp [document, Doc.depth, Doc.depthMembers]

theorem read_name (kind : MessageKind) (room : Nat) :
    MessageKind.read room (.text (.clean kind.name)) = .ok kind := by
  cases kind <;> rfl

theorem read_document {payload headers : Doc} {room : Nat} {x : α} {h : Headers}
    (first : JsonForm.read room payload.draft = .ok x) (second : Headers.read room headers.draft = .ok h)
    (kind : MessageKind) : read (room + 1) (document payload headers kind).draft = .ok ⟨x, h, kind⟩ := by
  have payloadTaken (p : Parts α) : Parts.take room "payload" p payload.draft =
      some (Read.field "payload" p.payload (.ok x) fun x => { p with payload := some x }) := by
    rw [Parts.take, if_pos rfl, first]
  have headersTaken (p : Parts α) : Parts.take room "headers" p headers.draft =
      some (Read.field "headers" p.headers (.ok h) fun h => { p with headers := some h }) := by
    rw [Parts.take, if_neg (by decide), if_pos rfl, second]
  have kindTaken (p : Parts α) : Parts.take room "kind" p (.text (.clean kind.name)) =
      some (Read.field "kind" p.kind (.ok kind) fun kind => { p with kind := some kind }) := by
    rw [Parts.take, if_neg (by decide), if_neg (by decide), if_pos rfl, read_name kind room]
  simp only [document, Doc.draft, Doc.draftMembers, read, Read.opened, Members.fold, payloadTaken, headersTaken,
    kindTaken]
  rfl

section Written

variable [BEq α] {m : Message α} (own : JsonForm.RoundTrips m.payload)
include own

theorem isSome_text?_iff : m.text?.isSome = true ↔ m.headers.Portable := by
  obtain ⟨payload, written, -⟩ := own
  rw [text?, Option.isSome_map, doc?_eq written, Option.isSome_map]
  exact m.headers.isSome_doc?_iff

theorem exists_read_text {d : Doc} (written : m.doc? = some d) (whole : m.headers.Whole) (levels : d.depth < 128) :
    ∃ payload, (payload == m.payload) = true ∧ Read.text Message.read d.compact = .ok { m with payload } ∧
      ({ m with payload } == m) = true := by
  obtain ⟨inside, ownWritten, reads⟩ := own
  rw [doc?_eq ownWritten] at written
  obtain ⟨headers, headersWritten, rfl⟩ := Option.map_eq_some_iff.1 written
  rw [depth_document] at levels
  have ⟨payloadLevels, headersLevels⟩ := Nat.max_le.1 (Nat.le_of_lt_succ (Nat.lt_of_succ_lt_succ levels))
  obtain ⟨payload, payloadRead, same⟩ := reads 126 payloadLevels
  rw [Draft.scan_compact] at payloadRead
  have headersRead : Headers.read 126 headers.draft = .ok m.headers := by
    rw [headers.draft_eq (Headers.isWhole_doc headersWritten whole)]
    exact Headers.read_doc headersWritten headersLevels
  refine ⟨payload, same, ?_, ?_⟩
  · rw [Read.text_compact]
    exact read_document payloadRead headersRead m.kind
  · change (payload == m.payload && m.headers == m.headers && m.kind == m.kind) = true
    rw [same, BEq.rfl, BEq.rfl]
    rfl

end Written

/-- Headers and messages have a text just when no header value is or contains a channel. The text reads back as the
headers, or as a message equal to the one it was made from, as long as the documents in the headers hold whole numbers
and the text is no deeper than a reader goes. -/
theorem text_round_trip [BEq α] (h : Headers) (m : Message α) (own : JsonForm.RoundTrips m.payload) :
    (h.text?.isSome = true ↔ h.Portable) ∧ (m.text?.isSome = true ↔ m.headers.Portable) ∧
    (∀ d, h.doc? = some d → h.Whole → d.depth < 128 →
      h.text? = some d.compact ∧ Read.text Headers.read d.compact = .ok h) ∧
    (∀ d, m.doc? = some d → m.headers.Whole → d.depth < 128 →
      m.text? = some d.compact ∧ ∃ payload, (payload == m.payload) = true ∧
        Read.text Message.read d.compact = .ok { m with payload } ∧ ({ m with payload } == m) = true) := by
  refine ⟨h.isSome_text?_iff, isSome_text?_iff own, ?_, ?_⟩
  · intro d written whole levels
    exact ⟨congrArg (Option.map Doc.compact) written, Headers.read_text written whole levels⟩
  · intro d written whole levels
    exact ⟨congrArg (Option.map Doc.compact) written, exists_read_text own written whole levels⟩

def lookAlikes : Headers where
  entries := [("absent", .json Json.null), ("count", .int 1), ("document", .json ⟨.number (.whole Whole.zero), rfl⟩),
    ("empty", .list []), ("frames", .list [.list [.null, .int 1], .json ⟨.array [.null], rfl⟩]),
    ("name", .str "\"\\\n"), ("origin", .id ⟨1, by decide⟩), ("text", .str "00000000000000000000000001")]
  ascending := by decide

def letter : Message String := ⟨"1", lookAlikes, .error⟩

theorem text_round_trip_look_alikes :
    lookAlikes.text?.isSome = true ∧ letter.text?.isSome = true ∧
    (∃ d, lookAlikes.doc? = some d ∧ Read.text Headers.read d.compact = .ok lookAlikes) ∧
    ∃ d, letter.doc? = some d ∧ Read.text Message.read d.compact = .ok letter := by
  have ⟨headersWritten, written, headersBack, back⟩ :=
    text_round_trip lookAlikes letter (JsonForm.roundTrips_string letter.payload)
  have portable : lookAlikes.Portable := NameMap.forall_get?_iff.2 (by decide)
  have whole : lookAlikes.Whole := NameMap.forall_get?_iff.2 (by decide)
  refine ⟨headersWritten.2 portable, written.2 portable, ⟨_, rfl, ?_⟩, ⟨_, rfl, ?_⟩⟩
  · exact (headersBack _ rfl whole (by decide)).2
  · obtain ⟨-, payload, same, read, -⟩ := back _ rfl whole (by decide)
    rw [read, eq_of_beq same]

end Message
end Waybill
