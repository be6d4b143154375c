import Std.Time.DateTime.Timestamp
import Waybill.CommandLine

/-! The program. The order is the first argument and the level comes from the variable `RUST_LOG`. Here the
clock and the source of randomness are read, and nothing is decided. -/
open Waybill

namespace Waybill.CommandLine

def readClock : IO Instant := do
  let nanos := (← Std.Time.Timestamp.now).toNanosecondsSinceUnixEpoch.val
  return ⟨nanos / 1000000000, (nanos % 1000000000).toNat⟩

def readRandom : IO Nat := do
  return (← IO.getRandomBytes 10).foldl (fun total byte => total * 256 + byte.toNat) 0

end Waybill.CommandLine

def main (args : List String) : IO UInt32 := do
  let level ← IO.getEnv "RUST_LOG"
  let threshold := (level.bind CommandLine.threshold?).getD CommandLine.defaultThreshold
  let stamps := Stamps.counting (← CommandLine.readClock).millis (← CommandLine.readRandom)
  let outcome := CommandLine.run args.head? threshold stamps
  for event in outcome.printed do
    IO.println (CommandLine.line (← CommandLine.readClock) event)
  if let some complaint := outcome.complaint then
    IO.eprintln ("Error: " ++ complaint)
  return UInt32.ofNat outcome.exitCode
