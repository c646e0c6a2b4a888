import ChainSync.Rescan.Run

/-!
# Scripted Scanners

A scanner that does as it is told, for rehearsing rescans.

## Main definitions

* `ScanScript`: What the scanner does.
* `ScanScript.scan`: The scanner.
-/

namespace ChainSync

/-- What a scripted scanner does. -/
structure ScanScript where
  /-- How long a block takes, in milliseconds. -/
  delay : Option Nat := none
  /-- The height of a block that cannot be read. -/
  failAt : Option Int32 := none

/-- A scanner that takes its time, may fail at a height, and has the other
    heights noted. -/
def ScanScript.scan {χ : Type} (script : ScanScript) (note : Int32 → χ → χ) : BlockScanner χ :=
  fun height => do
    script.delay.forM Engine.sleep
    if script.failAt = some height then
      return .failed (.storage ("failed to read block " ++ toString height.toInt))
    .update (·.modifyOwn (note height))
    return .scanned

end ChainSync
