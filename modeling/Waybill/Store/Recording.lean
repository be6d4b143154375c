import Waybill.Store.Edit

/-! A staging area that keeps a record of every edit. Single writes and removals take effect on any name, the
other edits are recorded and do nothing. It says of itself whether it counts as modified, and finishes headers
without a stamp. It serves to watch what a builder asks of its staging area. -/
namespace Waybill

structure Recording where
  headers : Headers
  edits : List Edit
  modified : Bool

namespace Recording

def apply (h : Headers) : Edit → Headers
  | .set name v => if v.isNull then h.erase name else h.insert name v
  | .remove name => h.erase name
  | _ => h

def edit (r : Recording) (e : Edit) : Recording :=
  { r with headers := apply r.headers e, edits := r.edits ++ [e] }

def cleared (r : Recording) : Recording := { r with edits := [] }

instance : Staging Recording where
  get? r name := r.headers.get? name
  edit := edit
  events _ _ := []
  isModified := modified
  materialize r stamps := (r.headers, stamps)

end Recording
end Waybill
