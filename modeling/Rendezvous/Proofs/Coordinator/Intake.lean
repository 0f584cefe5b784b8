import Rendezvous.Proofs.Channel.Reading
import Rendezvous.Proofs.Coordinator.Serving

/-!
# Rendezvous.Proofs.Coordinator.Intake

**What comes in during an iteration, and what is done with it.** An `Intake` is one entry of
that history: a member's turn begins, a stream is read, a message is acted on. `intake` lists
the entries of an iteration, turn by turn in the states that the turns begin in.

It is the only walk through an iteration that is kept. What is acted on (`dispatches`), and
what is announced by that (`announcements`), are views of it. A `Dispatch` has the state in
which its message is acted on, so the stream over which an entry is announced is that of
whoever is attached under the handle at that moment.
-/

namespace Rendezvous
namespace Coordinator

/-- One read of a stream: what it got, and whether reading or decoding failed. -/
structure Pump where
  bytes : Bytes
  failed : Bool
deriving DecidableEq, Repr

/-- A message that is acted on, with the state in which it is. -/
structure Dispatch where
  state : Coordinator
  handle : Handle
  msg : Message

/-- An entry of the history of what comes in. -/
inductive Intake where
  /-- A member's turn begins, with this in the shared inbox. -/
  | turn (inbox : List Message)
  /-- A stream is read. -/
  | read (id : StreamId) (pump : Pump)
  /-- A message is acted on. -/
  | act (dispatch : Dispatch)

/-! ### The walk -/

/-- What comes in when messages are acted on. -/
def actIntake (handle : Handle) : Coordinator → List Message → List Intake
  | _, [] => []
  | c, msg :: msgs => .act ⟨c, handle, msg⟩ :: actIntake handle (c.actOnControl handle msg) msgs

/-- What comes in when a member is read. -/
def readIntake (c : Coordinator) (handle : Handle) (member : Member) (now : Instant) :
    List Intake :=
  let (gathered, failure) := c.gather handle member now
  .read member.stream.id ⟨member.stream.bytesIn c.host, failure.isSome⟩ ::
    actIntake handle { gathered with decoded := [] } gathered.decoded

/-- What comes in during the turn of a handle. -/
def turnIntake (now : Instant) (c : Coordinator) (handle : Handle) : List Intake :=
  .turn c.decoded ::
    match c.roster.get? handle with
    | none => []
    | some member => if member.latch.readable then c.readIntake handle member now else []

/-- What comes in during the turns of some handles. -/
def turnsIntake (now : Instant) : Coordinator → List Handle → List Intake
  | _, [] => []
  | c, handle :: handles =>
    c.turnIntake now handle ++ turnsIntake now (serveOrDismiss now c handle) handles

/-- What comes in during an iteration. -/
def intake (c : Coordinator) (turn : Turn) : List Intake :=
  match c.serving turn with
  | none => []
  | some (s, now) => s.turnsIntake now s.roster.order

/-! ### What is acted on -/

/-- The messages that are acted on, in order. -/
def acted (past : List Intake) : List Dispatch :=
  past.filterMap fun
    | .act dispatch => some dispatch
    | _ => none

@[simp] theorem acted_nil : acted [] = [] := rfl

@[simp] theorem acted_append (past more : List Intake) :
    acted (past ++ more) = acted past ++ acted more :=
  List.filterMap_append

@[simp] theorem acted_turn (inbox : List Message) (past : List Intake) :
    acted (.turn inbox :: past) = acted past := rfl

@[simp] theorem acted_read (id : StreamId) (pump : Pump) (past : List Intake) :
    acted (.read id pump :: past) = acted past := rfl

@[simp] theorem acted_act (dispatch : Dispatch) (past : List Intake) :
    acted (.act dispatch :: past) = dispatch :: acted past := rfl

/-- What is acted on during an iteration. -/
def dispatches (c : Coordinator) (turn : Turn) : List Dispatch := acted (c.intake turn)

/-! ### What is announced -/

/-- An entry that is announced: over which stream, under which handle. -/
structure Announcement where
  id : StreamId
  handle : Handle
  entry : PeerEntry
deriving DecidableEq, Repr

/-- What acting on a message announces. Nobody who is not attached announces anything. -/
def Dispatch.announcement? (dispatch : Dispatch) : Option Announcement :=
  match dispatch.state.roster.get? dispatch.handle, dispatch.msg with
  | some member, .connect entry => some ⟨member.stream.id, dispatch.handle, entry⟩
  | _, _ => none

/-- All that is announced, in order. -/
def announcements (past : List Intake) : List Announcement :=
  (acted past).filterMap Dispatch.announcement?

end Coordinator
end Rendezvous
