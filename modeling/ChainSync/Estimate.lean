import ChainSync.Decimal.Binary64

/-!
# Estimates

Where the tip of the chain must be by now, and how far behind a wallet is.

Blocks come at a fixed rate that depends on the network's label, so the time
since the best known block tells how many blocks are missing. Both 64 bit
differences and the final height are cut off at the ends of their range. The
labels shown to a user are derived from the same times.

## Main definitions

* `blockInterval`: Seconds between blocks of a network.
* `projectedHeight`: The height the chain must have reached.
* `timeRemainingText`: Seconds left, in minutes from one minute on.
* `daysBehindText`: The lag behind the present.
-/

namespace ChainSync.Estimate

/-- The label of the main network. -/
def mainnetLabel : String := "mainnet"

/-- Seconds between blocks on the main network. -/
def mainnetInterval : Int := 300

/-- Seconds between blocks on every other network. -/
def testnetInterval : Int := 120

/-- The share of the header time that discovery takes. -/
def discoveryShare : Float := 0.8

/-- The share of the header time that a rescan takes. -/
def rescanShare : Float := 0.1

/-- Seconds between blocks of the network of that label. -/
def blockInterval (label : String) : Int :=
  if label = mainnetLabel then mainnetInterval else testnetInterval

/-- Seconds from a timestamp until now, cut off at the ends of 64 bits. -/
def elapsed (now timestamp : Int64) : Int64 :=
  Int64.ofIntClamp (now.toInt - timestamp.toInt)

/-- The height the chain must have reached when its best known block was
    `height`, found at `timestamp`. -/
def projectedHeight (now : Int64) (label : String) (timestamp : Int64) (height : Int32) : Int32 :=
  Int32.ofIntClamp (height.toInt + (elapsed now timestamp).toInt.tdiv (blockInterval label))

/-- Seconds left, shown in minutes from one minute on. -/
def timeRemainingText (seconds : Int64) : String :=
  let minutes := seconds.toInt.tdiv 60
  if 0 < minutes then toString minutes ++ " min" else toString seconds.toInt ++ " sec"

/-- The lag behind the present in the unit shown to a user: one for every
    twenty-four minutes. -/
def daysBehind (now timestamp : Int64) : Int :=
  let minutes := Float.ofInt (elapsed now timestamp).toInt / 60.0
  roundHalfAway (minutes / 24.0)
where
  /-- The nearest whole number, a half going away from zero. -/
  roundHalfAway (x : Float) : Int :=
    ((Binary64.ofBits x.toBits).roundHalfAway).getD 0

/-- The lag behind the present, in words. -/
def daysBehindText (now timestamp : Int64) : String :=
  let days := daysBehind now timestamp
  if days < 1 then "<1 day" else if days = 1 then "1 day" else toString days ++ " days"

end ChainSync.Estimate
