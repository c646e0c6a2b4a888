import ChainSync.CommandLine.Answer
import Std.Time.DateTime.Timestamp

/-!
# The Program

The command line, on the real outputs and the real clock.

All of it is `CommandLine.answer`; here only the clock is read and the answer
given.

## Main definitions

* `main`: The program.
-/

namespace ChainSync

/-- The present in seconds and nanoseconds since 1970. -/
def presentTime : IO Now := do
  let t ← Std.Time.Timestamp.now
  return { seconds := t.toSecondsSinceUnixEpoch.val, nanos := (t.val.nano.val % 1000000000).toNat }

end ChainSync

/-- The program. -/
def main (args : List String) : IO UInt32 := do
  let answer := ChainSync.CommandLine.answer (.of (← ChainSync.presentTime)) args
  for line in answer.stdout do IO.println line
  IO.eprint answer.stderr
  return UInt32.ofNat answer.exit
