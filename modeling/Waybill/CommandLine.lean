import Waybill.Order.Pipeline

/-! The command: it takes one order as its argument, or runs a small one of its own, and prints what is reported
at the chosen level and above. -/
namespace Waybill.CommandLine

def defaultOrder : Order :=
  ⟨"A-1", [⟨"apple", 2⟩, ⟨"pear", 1⟩, ⟨"plum", 0⟩]⟩

/-- The most talkative level that is printed, by its name in either case or by its rank. With `off` nothing is
printed, and an empty name stands for errors. -/
def threshold? (name : String) : Option Nat :=
  match name.toLower with
  | "off" => some 0
  | "" => some Level.error.rank
  | "error" => some Level.error.rank
  | "warn" => some Level.warn.rank
  | "info" => some Level.info.rank
  | "debug" => some Level.debug.rank
  | "trace" => some Level.trace.rank
  | rank => [0, 1, 2, 3, 4, 5].find? fun n => toString n == rank

def defaultThreshold : Nat := Level.info.rank

def line (now : Instant) (e : Event) : String :=
  let level := e.level.text
  now.microText ++ " " ++ String.ofList (List.replicate (5 - level.length) ' ') ++ level ++ " " ++ e.text

structure Outcome where
  exitCode : Nat
  printed : List Event
  complaint : Option String

def complaintOf (e : ReadError) : String :=
  e.message?.getD (if e.category = .unfinished then "unexpected end of text" else "malformed text")

def order? (argument : Option String) : Except ReadError Order :=
  match argument with
  | none => .ok defaultOrder
  | some text => Read.text Order.read text

def run (argument : Option String) (threshold : Nat) (stamps : Stamps) : Outcome :=
  match order? argument with
  | .error e => ⟨1, [], some (complaintOf e)⟩
  | .ok o =>
    let ran := Pipeline.run o stamps
    let printed := ran.events.filter fun e => e.level.rank ≤ threshold
    match ran.outcome with
    | .ok _ => ⟨0, printed, none⟩
    | .error e => ⟨1, printed, some e.message⟩

end Waybill.CommandLine
