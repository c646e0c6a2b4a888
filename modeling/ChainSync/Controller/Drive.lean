import ChainSync.Rescan.Run

/-!
# Driving a Sync

Running the work of a sync under its handle, and making sure that the session
has ended afterwards.

The work is given up as soon as the handle counts as cancelled. Whatever the
work has come to, the session is ended unless it has ended before, so that its
observers are told of one end.

## Main definitions

* `Engine.drive`: The work of a sync with its end.
* `Engine.bridge`: Rescanned heights as reports of the session.
-/

namespace ChainSync

namespace Engine

variable {χ : Type}

/-- The span of a session's work. -/
def sessionSpan (handle : Nat) (e : Engine χ) : Span :=
  { name := "sync_session"
    fields :=
      [("id", toString ((e.controller.session.map (·.id.toNat)).getD 0)),
        ("network", e.controller.network.label), ("operation", toString handle)] }

/-- The work of a sync until it is over or its handle counts as cancelled. -/
def underHandle (handle : Nat) (work : Routine (Engine χ) (Except SyncError Unit)) :
    Routine (Engine χ) (Except SyncError Unit) := do
  match ← untilStopped handle work with
  | .ok outcome => return outcome
  | .error reason =>
    .update (·.note [.info ("Sync cancelled: " ++ reason.message)])
    return .error reason

/-- The error an outcome holds. -/
def error? : Except SyncError Unit → Option SyncError
  | .ok () => none
  | .error e => some e

/-- Runs the work of a sync under its handle and ends the session with what
    comes of it. -/
def drive (handle : Nat) (work : Routine (Engine χ) (Except SyncError Unit)) :
    Routine (Engine χ) (Except SyncError Unit) := do
  let span ← .ask (sessionSpan handle)
  within span do
    let outcome ← underHandle handle work
    .perform (·.conclude (error? outcome))

/-- An observer that reports rescanned heights to the session, and asks to stop
    as soon as the session takes no more. -/
def bridge : ScanObserver χ where
  onScan height e :=
    let (answer, e) := e.report (.rescanProgress height)
    (if answer.isOk then .goOn else .stop, e)
  onEnd height cancelled e :=
    (none, e.note [.debug ("Rescan ended at " ++ toString height.toInt ++ " (cancelled: "
      ++ toString cancelled ++ ")")])
  onError code message e :=
    (none, e.note [.debug ("Rescan error " ++ code.text ++ ": " ++ message)])

end Engine

end ChainSync
