import Waybill.Json.Value

/-! What a text says as far as it goes. A draft is a tree whose faults stay where the text has them, so that a
reader meets them in reading order: before its own objections to what comes later, after those to what came
before. A fault can matter to one who reads a piece and not to one who skips it. -/
namespace Waybill

inductive Fault
  | unfinished
  | malformed
  deriving DecidableEq

/-- A string: its characters, or the fault met in reading it, and the one met in skipping it, if any. -/
inductive Written
  | clean (s : String)
  | spoiled (reading : Fault) (skipping : Option Fault)
  deriving DecidableEq

mutual
inductive Draft
  | null
  | bool (b : Bool)
  | number (n : Number)
  | text (s : Written)
  | scrap (reading : Fault) (skipping : Option Fault)
  | absent (fault : Fault)
  | array (items : Items)
  | object (members : Members)

inductive Items
  | closed
  | broken (fault : Fault)
  | dangling (fault : Fault)
  | item (d : Draft) (more : Items)

inductive Members
  | closed
  | broken (fault : Fault)
  | dangling (fault : Fault)
  | member (name : Written) (d : Draft) (more : Members)
end

def Written.skipping : Written → Option Fault
  | .clean _ => none
  | .spoiled _ skipping => skipping

mutual
def Draft.skipping : Draft → Option Fault
  | .text s => s.skipping
  | .scrap _ skipping => skipping
  | .absent fault => some fault
  | .array items => items.skipping
  | .object members => members.skipping
  | _ => none

def Items.skipping : Items → Option Fault
  | .closed => none
  | .broken fault => some fault
  | .dangling fault => some fault
  | .item d more => d.skipping <|> more.skipping

def Members.skipping : Members → Option Fault
  | .closed => none
  | .broken fault => some fault
  | .dangling fault => some fault
  | .member name d more => name.skipping <|> d.skipping <|> more.skipping
end

mutual
/-- Reads a draft whole. `room` is the number of levels that may still be opened. -/
def Draft.read (room : Nat) : Draft → Except Fault Doc
  | .null => .ok .null
  | .bool b => .ok (.bool b)
  | .number n => .ok (.number n)
  | .text (.clean s) => .ok (.text s)
  | .text (.spoiled reading _) => .error reading
  | .scrap reading _ => .error reading
  | .absent fault => .error fault
  | .array items =>
    match room with
    | 0 => .error .malformed
    | room + 1 => (items.read room).map .array
  | .object members =>
    match room with
    | 0 => .error .malformed
    | room + 1 => (members.read room).map .object

def Items.read (room : Nat) : Items → Except Fault (List Doc)
  | .closed => .ok []
  | .broken fault => .error fault
  | .dangling fault => .error fault
  | .item d more => do return (← d.read room) :: (← more.read room)

def Members.read (room : Nat) : Members → Except Fault (List (String × Doc))
  | .closed => .ok []
  | .broken fault => .error fault
  | .dangling fault => .error fault
  | .member (.spoiled reading _) _ _ => .error reading
  | .member (.clean name) d more => do return (name, ← d.read room) :: (← more.read room)
end

mutual
def Draft.ofDoc : Doc → Draft
  | .null => .null
  | .bool b => .bool b
  | .number n => .number n
  | .text s => .text (.clean s)
  | .array items => .array (Items.ofDocs items)
  | .object members => .object (Members.ofDocs members)

def Items.ofDocs : List Doc → Items
  | [] => .closed
  | d :: more => .item (Draft.ofDoc d) (Items.ofDocs more)

def Members.ofDocs : List (String × Doc) → Members
  | [] => .closed
  | (name, d) :: more => .member (.clean name) (Draft.ofDoc d) (Members.ofDocs more)
end

end Waybill
