import Waybill.Text.Quoted

/-! Failures carried as payloads. A failure is one occurrence of an error: two failures are equal only when they
are the same occurrence, whatever their texts say. -/
namespace Waybill

structure ErrorCause where
  text : String
  detail : String

namespace ErrorCause

def ofText (s : String) : ErrorCause := ⟨s, Text.quoted s⟩

end ErrorCause

structure Failure where
  occurrence : Nat
  cause : ErrorCause

namespace Failure

instance : BEq Failure := ⟨fun a b => a.occurrence == b.occurrence⟩

instance : ReflBEq Failure := ⟨fun {a} => by
  change (a.occurrence == a.occurrence) = true
  simp⟩

def display (f : Failure) : String := f.cause.text

def describe (f : Failure) : String := "Failure(" ++ f.cause.detail ++ ")"

end Failure
end Waybill
