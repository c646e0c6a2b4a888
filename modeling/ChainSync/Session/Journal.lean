import ChainSync.Journal
import ChainSync.Session.Basic

/-!
# Session Journal

The lines a session's reports give rise to.

A move between phases is one line, and so is a dropped report. Both can be
told from the session before and after, so that the reports themselves need
not mention them.

## Main definitions

* `Session.moveLines`: The lines of the moves between two states.
* `Session.droppedFilters`, `Session.droppedDiscovery`, `Session.droppedRescan`:
  The lines of dropped reports.
-/

namespace ChainSync

/-- The line of one move. -/
def Transition.line (id : UInt64) (t : Transition) : Line :=
  .info ("Sync session " ++ toString id.toNat ++ " phase: " ++ t.source.title ++ " -> "
    ++ t.target.title ++ " (" ++ t.reason ++ ")")

namespace Session

/-- The lines of the moves made since an earlier state. -/
def moveLines (before after : Session) : List Line :=
  (after.history.drop before.history.length).map (·.line after.id)

/-- The line of a filter count that was dropped. -/
def droppedFilters (s : Session) (count : Int32) : Line :=
  .debug ("Ignoring regressing cfilter count " ++ toString count.toInt ++ " (have "
    ++ toString s.filters.toInt ++ ")")

/-- The line of a discovery report that was dropped. -/
def droppedDiscovery : Line :=
  .debug "Ignoring address discovery update after discovery finished"

/-- The line of a rescan height that was dropped. -/
def droppedRescan (s : Session) (through : Int32) : Line :=
  .debug ("Ignoring regressing rescan height " ++ toString through.toInt ++ " (have "
    ++ toString s.rescanned.toInt ++ ")")

end Session

end ChainSync
