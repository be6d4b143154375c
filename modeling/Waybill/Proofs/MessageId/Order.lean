import Waybill.Instant
import Waybill.MessageId

/-! The order of identities. They compare as numbers, so an identity made in an earlier millisecond is smaller whatever
was drawn at random, as far as the time's 48 bits go: they start over every 2^48 milliseconds from the beginning of 1970
on, for the first time in the year 10889. Two instants on either side of such a point can be out of order. -/
namespace Waybill

namespace MessageId

theorem lt_iff {a b : MessageId} : a < b ↔ a.number < b.number := Iff.rfl

theorem lt_irrefl (a : MessageId) : ¬ a < a := Nat.lt_irrefl a.number

theorem lt_trans {a b c : MessageId} (h : a < b) (k : b < c) : a < c := Nat.lt_trans h k

theorem lt_of_not_lt_of_ne {a b : MessageId} (h : ¬ a < b) (differ : a ≠ b) : b < a := by
  have numbers : a.number ≠ b.number := fun e => differ (ext_number e)
  simp only [lt_iff] at h ⊢
  omega

theorem nodup_of_ascending {xs : List MessageId} (h : xs.Pairwise (· < ·)) : xs.Nodup := by
  refine List.Pairwise.imp (fun {a b} (less : a < b) => ?_) h
  intro equal
  exact lt_irrefl b (equal ▸ less)

theorem eq_of_ascending {xs ys : List MessageId} (h : xs.Pairwise (· < ·)) (k : ys.Pairwise (· < ·))
    (same : ∀ x, x ∈ xs ↔ x ∈ ys) : xs = ys := by
  have perm : xs.Perm ys := (List.perm_ext_iff_of_nodup (nodup_of_ascending h) (nodup_of_ascending k)).2 same
  exact perm.eq_of_pairwise (fun a b _ _ less more => absurd (lt_trans less more) (lt_irrefl a)) h k

theorem ofParts_lt_ofParts_iff {t u r s : Nat} :
    ofParts t r < ofParts u s ↔ t % 0x1000000000000 < u % 0x1000000000000 ∨
      t % 0x1000000000000 = u % 0x1000000000000 ∧
        r % 0x100000000000000000000 < s % 0x100000000000000000000 := by
  simp only [lt_iff, ofParts]
  omega

/-- Milliseconds after which the time of an identity starts over. -/
def span : Nat := 0x1000000000000

theorem forall_generated_lt_iff {now later : Int} :
    (∀ r s, generated now r < generated later s) ↔ now % span < later % span := by
  simp only [generated, ofParts_lt_ofParts_iff, span]
  constructor
  · intro less
    have := less 0xFFFFFFFFFFFFFFFFFFFF 0
    omega
  · intro less r s
    omega

end MessageId

open MessageId (generated span)

def Instant.period (t : Instant) : Int := t.millis.toInt / span

/-- Within a period the identities of a later millisecond are greater. From 1970 on, identities of different periods
compare as what is left of their milliseconds once whole spans are taken away. -/
theorem Instant.generated_ascending {a b : Instant} (later : a.millis < b.millis) :
    (a.period = b.period → ∀ r s, generated a.millis.toInt r < generated b.millis.toInt s) ∧
    (0 ≤ a.millis → ((∀ r s, generated a.millis.toInt r < generated b.millis.toInt s) ↔
      a.millis.toInt.toNat % span < b.millis.toInt.toNat % span)) := by
  have less : a.millis.toInt < b.millis.toInt := Int64.lt_iff_toInt_lt.1 later
  refine ⟨fun together => MessageId.forall_generated_lt_iff.2 ?_, fun start => ?_⟩
  · have first := Int.mul_ediv_add_emod a.millis.toInt span
    have second := Int.mul_ediv_add_emod b.millis.toInt span
    rw [period, period] at together
    rw [together] at first
    omega
  · have first : 0 ≤ a.millis.toInt := Int64.le_iff_toInt_le.1 start
    rw [MessageId.forall_generated_lt_iff, ← Int.toNat_of_nonneg first,
      ← Int.toNat_of_nonneg (Int.le_trans first (Int.le_of_lt less)), Int.toNat_natCast, Int.toNat_natCast]
    omega

theorem Instant.generated_ascending_noon :
    let noon : Instant := ⟨1704110400, 0⟩
    let next : Instant := ⟨1704110400, 1000000⟩
    noon.millis < next.millis ∧ ∀ r s, generated noon.millis.toInt r < generated next.millis.toInt s := by
  intro noon next
  have later : noon.millis < next.millis := by decide
  exact ⟨later, (generated_ascending later).1 (by decide)⟩

/-- The last millisecond of the first period and the one after it, and the two around the beginning of 1970: the
identity of the later one is the smaller, whatever was drawn at random. -/
theorem Instant.generated_descending :
    let last : Instant := ⟨281474976710, 655000000⟩
    let next : Instant := ⟨281474976710, 656000000⟩
    let before : Instant := ⟨-1, 999000000⟩
    let start : Instant := ⟨0, 0⟩
    (∀ t ∈ [last, next, before, start], ofMillis? t.millis = some t) ∧
    (last.millis < next.millis ∧ ∀ r s, generated next.millis.toInt s < generated last.millis.toInt r) ∧
    before.millis < start.millis ∧ ∀ r s, generated start.millis.toInt s < generated before.millis.toInt r := by
  intro last next before start
  refine ⟨by decide, ⟨by decide, fun r s => ?_⟩, by decide, fun r s => ?_⟩
  · exact MessageId.forall_generated_lt_iff.2 (by decide) s r
  · exact MessageId.forall_generated_lt_iff.2 (by decide) s r

end Waybill
