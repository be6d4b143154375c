import Waybill.Json.Reading

/-! Types with a written form. A type's own form round-trips when reading the document of a value gives the value
back. -/
namespace Waybill

class JsonForm (α : Type) where
  doc? : α → Option Doc
  read : Reader α

namespace JsonForm

def ofBinary64 : Binary64 → Doc
  | .finite x => .number (.real x)
  | _ => .null

instance : JsonForm Unit := ⟨fun _ => some .null, Read.unit⟩
instance : JsonForm Bool := ⟨fun b => some (.bool b), Read.bool⟩
instance : JsonForm Int64 := ⟨fun n => some (.number (.whole (Whole.ofInt64 n))), Read.int64⟩
instance : JsonForm UInt64 := ⟨fun n => some (.number (.whole (Whole.ofUInt64 n))), Read.uint64⟩
instance : JsonForm Int32 := ⟨fun n => some (.number (.whole (Whole.ofInt64 n.toInt64))), Read.int32⟩
instance : JsonForm UInt32 := ⟨fun n => some (.number (.whole (Whole.ofUInt64 n.toUInt64))), Read.uint32⟩
instance : JsonForm UInt8 := ⟨fun n => some (.number (.whole (Whole.ofUInt64 n.toUInt64))), Read.uint8⟩
instance : JsonForm Binary64 := ⟨fun x => some (ofBinary64 x), Read.binary64⟩
instance : JsonForm String := ⟨fun s => some (.text s), Read.string⟩
instance : JsonForm Json := ⟨fun j => some j.doc, Read.json⟩

instance {α : Type} [JsonForm α] : JsonForm (List α) :=
  ⟨fun xs => (xs.mapM doc?).map .array, Read.list read⟩

end JsonForm
end Waybill
