import Waybill.MessageId

/-! The text of an identity reads back as the identity. Its 26 places hold two bits more than the number needs, so
nothing is dropped on the way, and every digit takes one byte. -/
namespace Waybill.MessageId

theorem digitValue?_digit (n : Nat) : digitValue? (digit n) = some (n % 32) := by
  have all : ∀ k < 32, digitValue? (alphabet.getD k '0') = some k := by decide
  exact all (n % 32) (Nat.mod_lt n (by decide))

theorem digit_of_alphabet {p : Char → Prop} (all : ∀ k < 32, p (alphabet.getD k '0')) (n : Nat) : p (digit n) :=
  all (n % 32) (Nat.mod_lt n (by decide))

theorem utf8Size_digit (n : Nat) : (digit n).utf8Size = 1 :=
  digit_of_alphabet (p := fun c => c.utf8Size = 1) (by decide) n

theorem mod_succ_places (places n : Nat) :
    n % Nat.pow 32 (places + 1) = n % Nat.pow 32 places + Nat.pow 32 places * (n / Nat.pow 32 places % 32) :=
  Nat.mod_mul

theorem value?_digits (places n total : Nat) :
    value? total (digits places n) = some (total * Nat.pow 32 places + n % Nat.pow 32 places) := by
  induction places generalizing total with
  | zero => simp [digits, value?, Nat.mod_one]
  | succ places ih =>
    rw [digits, value?, digitValue?_digit, Option.bind_some, ih, mod_succ_places]
    rw [show Nat.pow 32 (places + 1) = Nat.pow 32 places * 32 from rfl]
    generalize Nat.pow 32 places = unit
    generalize n / unit % 32 = leading
    congr 1
    rw [Nat.add_mul, Nat.mul_assoc, Nat.mul_comm 32 unit, Nat.mul_comm leading unit]
    omega

theorem fits_places (x : MessageId) : x.number % Nat.pow 32 26 = x.number :=
  Nat.mod_eq_of_lt (Nat.lt_of_lt_of_le x.number_lt (by decide))

theorem utf8ByteSize_ofList_of_narrow {cs : List Char} (narrow : ∀ c ∈ cs, c.utf8Size = 1) :
    (String.ofList cs).utf8ByteSize = cs.length := by
  induction cs with
  | nil => rfl
  | cons c rest ih =>
    obtain ⟨here, others⟩ := List.forall_mem_cons.1 narrow
    rw [String.ofList_cons, String.utf8ByteSize_append, String.utf8ByteSize_singleton, here, ih others]
    exact Nat.add_comm 1 rest.length

theorem utf8Size_of_mem_digits {places n : Nat} {c : Char} (member : c ∈ digits places n) : c.utf8Size = 1 := by
  induction places with
  | zero => exact absurd member List.not_mem_nil
  | succ places ih =>
    rcases List.mem_cons.1 member with rfl | later
    · exact utf8Size_digit _
    · exact ih later

theorem utf8ByteSize_digits (places n : Nat) : (String.ofList (digits places n)).utf8ByteSize = places := by
  rw [utf8ByteSize_ofList_of_narrow fun c => utf8Size_of_mem_digits, length_digits]

theorem ofText_text (x : MessageId) : ofText x.text = .ok x := by
  have value : value? 0 x.text.toList = some x.number := by
    rw [text, String.toList_ofList, value?_digits, fits_places, Nat.zero_mul, Nat.zero_add]
  have size : x.text.utf8ByteSize = 26 := utf8ByteSize_digits 26 x.number
  rw [ofText, if_neg (not_not_intro size), value]
  exact congrArg Except.ok (ofNumber_number x)

theorem read_of_ofText {s : String} {x : MessageId} (reads : ofText s = .ok x) (room : Nat) :
    read room (.text (.clean s)) = .ok x := by
  rw [read]
  simp only [Read.string, bind, Except.bind, reads]
  rfl

theorem read_text (x : MessageId) (room : Nat) : read room (.text (.clean x.text)) = .ok x :=
  read_of_ofText (ofText_text x) room

end Waybill.MessageId
