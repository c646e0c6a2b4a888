import ChainSync.Session.Progress
import ChainSync.Wire.Codec

/-!
# Progress on the Wire

The forms of phases, time estimates and progress on the wire.

## Main definitions

* `Codec.phase`, `Codec.timeEstimate`, `Codec.progress`.
-/

namespace ChainSync.Wire.Codec

/-- A phase, by its name. -/
def phase : Codec Phase where
  format := .choice (Phase.all.map Phase.tag)
  encode p := .text p.tag
  decode
    | .text s => Phase.ofTag? s
    | _ => none

/-- A time estimate. -/
def timeEstimate : Codec TimeEstimate where
  format := .record
    [("seconds_remaining", .int64), ("time_remaining", .text), ("days_behind", .text),
      ("projected_final_height", .int32), ("total_progress", .byte)]
  encode e := .record
    [("seconds_remaining", int64.encode e.secondsRemaining),
      ("time_remaining", .text e.timeRemaining), ("days_behind", .text e.daysBehind),
      ("projected_final_height", int32.encode e.projectedHeight),
      ("total_progress", uint8.encode e.totalProgress)]
  decode d := do
    match fieldValues d with
    | [seconds, time, days, height, total] =>
      return {
        secondsRemaining := ← int64.decode seconds
        timeRemaining := ← text.decode time
        daysBehind := ← text.decode days
        projectedHeight := ← int32.decode height
        totalProgress := ← uint8.decode total }
    | _ => none

/-- What a session shows of itself. -/
def progress : Codec Progress where
  format := .record
    [("session_id", .nat64), ("phase", phase.format), ("peer_count", .int32),
      ("fetched_filter_count", .int32), ("fetched_header_count", .int32),
      ("current_header_height", .int32), ("discovery_finished", .bool),
      ("rescan_through_height", .int32), ("total_progress", .byte),
      ("estimate", (optional timeEstimate).format)]
  encode p := .record
    [("session_id", uint64.encode p.sessionId), ("phase", phase.encode p.phase),
      ("peer_count", int32.encode p.peers), ("fetched_filter_count", int32.encode p.filters),
      ("fetched_header_count", int32.encode p.headers),
      ("current_header_height", int32.encode p.headerHeight),
      ("discovery_finished", .bool p.discovered),
      ("rescan_through_height", int32.encode p.rescanned),
      ("total_progress", uint8.encode p.totalProgress),
      ("estimate", (optional timeEstimate).encode p.estimate)]
  decode d := do
    match fieldValues d with
    | [id, phs, peers, filters, headers, height, discovered, rescanned, total, estimate] =>
      return {
        sessionId := ← uint64.decode id
        phase := ← phase.decode phs
        peers := ← int32.decode peers
        filters := ← int32.decode filters
        headers := ← int32.decode headers
        headerHeight := ← int32.decode height
        discovered := ← bool.decode discovered
        rescanned := ← int32.decode rescanned
        totalProgress := ← uint8.decode total
        estimate := ← (optional timeEstimate).decode estimate }
    | _ => none

end ChainSync.Wire.Codec
