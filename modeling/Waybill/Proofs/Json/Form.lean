import Waybill.Json.Form
import Waybill.Proofs.Json.Scanning

/-! Written forms that read back. A value round-trips when its text, wherever there is room for its levels, is read as
an equal value; the text of a document stands alone or inside another, and says the same in both. -/
namespace Waybill

namespace Read

theorem text_laid {α : Type} (read : Reader α) {d : Doc} {s : String} (laid : Laid (d.tokens []) s.toList) :
    text read s = read levels d.draft := by
  obtain ⟨rest, scanned, blanks⟩ := laid.draft_scan
  rw [text, scanned]
  cases outcome : read levels d.draft <;> simp only [outcome, blanks] <;> rfl

theorem text_compact {α : Type} (read : Reader α) (d : Doc) : text read d.compact = read levels d.draft :=
  text_laid read (Laid.compact d)

theorem whole_ok {low high : Int} (expected : String) {n : Whole} (bounds : low ≤ n.toInt ∧ n.toInt ≤ high)
    (room : Nat) : whole low high expected room (.number (.whole n)) = .ok n.toInt := by
  rw [whole, if_pos bounds]

theorem int64_ofInt64 (n : Int64) (room : Nat) : int64 room (.number (.whole (Whole.ofInt64 n))) = .ok n := by
  have bounds : -0x8000000000000000 ≤ (Whole.ofInt64 n).toInt ∧ (Whole.ofInt64 n).toInt ≤ 0x7FFFFFFFFFFFFFFF :=
    ⟨n.le_toInt, Int.le_of_lt_add_one n.toInt_lt⟩
  rw [int64, whole_ok _ bounds]
  exact congrArg Except.ok (Int64.ofInt_toInt n)

theorem uint64_ofUInt64 (n : UInt64) (room : Nat) : uint64 room (.number (.whole (Whole.ofUInt64 n))) = .ok n := by
  have bounds : 0 ≤ (Whole.ofUInt64 n).toInt ∧ (Whole.ofUInt64 n).toInt ≤ 0xFFFFFFFFFFFFFFFF :=
    ⟨Int.natCast_nonneg _, Int.le_of_lt_add_one (Whole.ofUInt64 n).upper⟩
  rw [uint64, whole_ok _ bounds]
  exact congrArg Except.ok (UInt64.ofNat_toNat)

theorem int32_ofInt64 (n : Int32) (room : Nat) : int32 room (.number (.whole (Whole.ofInt64 n.toInt64))) = .ok n := by
  have value : (Whole.ofInt64 n.toInt64).toInt = n.toInt := Int32.toInt_toInt64 n
  have bounds : -0x80000000 ≤ (Whole.ofInt64 n.toInt64).toInt ∧ (Whole.ofInt64 n.toInt64).toInt ≤ 0x7FFFFFFF := by
    rw [value]
    exact ⟨n.le_toInt, Int.le_of_lt_add_one n.toInt_lt⟩
  rw [int32, whole_ok _ bounds, value]
  exact congrArg Except.ok (Int32.ofInt_toInt n)

theorem uint32_ofUInt64 (n : UInt32) (room : Nat) :
    uint32 room (.number (.whole (Whole.ofUInt64 n.toUInt64))) = .ok n := by
  have value : (Whole.ofUInt64 n.toUInt64).toInt = n.toNat := rfl
  have bounds : 0 ≤ (Whole.ofUInt64 n.toUInt64).toInt ∧ (Whole.ofUInt64 n.toUInt64).toInt ≤ 0xFFFFFFFF := by
    rw [value]
    exact ⟨Int.natCast_nonneg _, Int.le_of_lt_add_one (Int.ofNat_lt.2 n.toNat_lt)⟩
  rw [uint32, whole_ok _ bounds, value]
  exact congrArg Except.ok UInt32.ofNat_toNat

theorem uint8_ofUInt64 (n : UInt8) (room : Nat) :
    uint8 room (.number (.whole (Whole.ofUInt64 n.toUInt64))) = .ok n := by
  have value : (Whole.ofUInt64 n.toUInt64).toInt = n.toNat := rfl
  have bounds : 0 ≤ (Whole.ofUInt64 n.toUInt64).toInt ∧ (Whole.ofUInt64 n.toUInt64).toInt ≤ 0xFF := by
    rw [value]
    exact ⟨Int.natCast_nonneg _, Int.le_of_lt_add_one (Int.ofNat_lt.2 n.toNat_lt)⟩
  rw [uint8, whole_ok _ bounds, value]
  exact congrArg Except.ok UInt8.ofNat_toNat

theorem json_ofDoc (j : Json) {room : Nat} (levels : j.doc.depth ≤ room) :
    json room (Draft.ofDoc j.doc) = .ok j := by
  rw [json, Doc.read_ofDoc j.doc levels]
  exact congrArg Except.ok j.ofDoc_doc

end Read

namespace JsonForm

variable {α : Type} [JsonForm α] [BEq α]

/-- The value has a written form, and its text reads as an equal value. -/
def RoundTrips (a : α) : Prop :=
  ∃ d, doc? a = some d ∧
    ∀ room, d.depth ≤ room → ∃ b, read room (Draft.scan d.compact.toList).1 = .ok b ∧ (b == a) = true

theorem roundTrips_of_read [ReflBEq α] {a : α} {d : Doc} (written : doc? a = some d) (whole : d.isWhole = true)
    (reads : ∀ room, d.depth ≤ room → read room (Draft.ofDoc d) = .ok a) : RoundTrips a := by
  refine ⟨d, written, fun room levels => ⟨a, ?_, BEq.rfl⟩⟩
  rw [Draft.scan_compact, d.draft_eq whole]
  exact reads room levels

-- The payload types whose values round-trip. A binary64 number is not among them: a NaN is written as null, and
-- the digits of a number need not read back to it.

theorem roundTrips_unit (a : Unit) : RoundTrips a := roundTrips_of_read rfl rfl fun _ _ => rfl

theorem roundTrips_bool (b : Bool) : RoundTrips b := roundTrips_of_read rfl rfl fun _ _ => rfl

theorem roundTrips_string (s : String) : RoundTrips s := roundTrips_of_read rfl rfl fun _ _ => rfl

theorem roundTrips_int64 (n : Int64) : RoundTrips n :=
  roundTrips_of_read rfl rfl fun room _ => Read.int64_ofInt64 n room

theorem roundTrips_uint64 (n : UInt64) : RoundTrips n :=
  roundTrips_of_read rfl rfl fun room _ => Read.uint64_ofUInt64 n room

theorem roundTrips_int32 (n : Int32) : RoundTrips n :=
  roundTrips_of_read rfl rfl fun room _ => Read.int32_ofInt64 n room

theorem roundTrips_uint32 (n : UInt32) : RoundTrips n :=
  roundTrips_of_read rfl rfl fun room _ => Read.uint32_ofUInt64 n room

theorem roundTrips_uint8 (n : UInt8) : RoundTrips n :=
  roundTrips_of_read rfl rfl fun room _ => Read.uint8_ofUInt64 n room

theorem roundTrips_json (j : Json) (whole : j.doc.isWhole = true) : RoundTrips j :=
  roundTrips_of_read rfl whole fun _ => Read.json_ofDoc j

theorem exists_readEach {xs : List α} (each : ∀ x ∈ xs, RoundTrips x) :
    ∃ ds, xs.mapM doc? = some ds ∧ ∀ room, Doc.depthItems ds ≤ room →
      ∃ ys, (Doc.draftItems ds).readEach (read room) = .ok ys ∧ (ys == xs) = true := by
  induction xs with
  | nil => exact ⟨[], rfl, fun _ _ => ⟨[], rfl, rfl⟩⟩
  | cons x more ih =>
    obtain ⟨d, written, reads⟩ := each x List.mem_cons_self
    obtain ⟨ds, others, readsAll⟩ := ih fun y member => each y (List.mem_cons_of_mem x member)
    refine ⟨d :: ds, ?_, fun room levels => ?_⟩
    · rw [List.mapM_cons, written, others]
      rfl
    · have ⟨levelsFirst, levelsRest⟩ := Nat.max_le.1 levels
      obtain ⟨y, first, same⟩ := reads room levelsFirst
      obtain ⟨ys, rest, sameRest⟩ := readsAll room levelsRest
      rw [Draft.scan_compact] at first
      refine ⟨y :: ys, ?_, ?_⟩
      · rw [Doc.draftItems, Items.readEach, first, rest]
        rfl
      · rw [List.cons_beq_cons, same, sameRest]
        rfl

theorem roundTrips_list {xs : List α} (each : ∀ x ∈ xs, RoundTrips x) : RoundTrips xs := by
  obtain ⟨ds, written, reads⟩ := exists_readEach each
  refine ⟨.array ds, congrArg (Option.map Doc.array) written, fun room levels => ?_⟩
  obtain ⟨inner, rfl⟩ := Nat.exists_eq_add_of_le' (Nat.le_trans (Nat.le_add_left 1 _) levels)
  obtain ⟨ys, read, same⟩ := reads inner (Nat.le_of_succ_le_succ levels)
  refine ⟨ys, ?_, same⟩
  rw [Draft.scan_compact]
  exact read

end JsonForm
end Waybill
