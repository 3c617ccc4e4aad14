import Dcpu16.Host.Observer

/-! Workers: an observer with its thread, the messages between that thread and the host, and the
work beside it. -/

namespace Dcpu16

/-- What the host tells an observer's thread. -/
inductive Order where
  | tick
  | stop
  deriving DecidableEq, Repr

/-- Where an observer's thread is. -/
inductive Stage where
  /-- The system has refused the thread. -/
  | refused
  /-- The thread is about to take the machine for the first callback. -/
  | starting
  | inStart
  /-- A callback is over, and its reply is about to be sent. -/
  | answering (r : Reply)
  | waiting
  /-- A tick has been announced, and the thread is about to take the machine. -/
  | ticked
  | inTick
  /-- The thread is about to run its last callback, for which it needs no machine. -/
  | leaving
  | ended (panicked : Bool)
  deriving DecidableEq, Repr

/-- Where the work beside an observer is. -/
inductive TaskStage where
  /-- The task does not have the machine. -/
  | apart
  | inUse
  | ended (panicked : Bool)
  deriving DecidableEq, Repr

/-- The work beside an observer, and how far it is. -/
structure Task where
  work : Background
  stage : TaskStage := .apart
  /-- The number of uses of the machine that are over. -/
  uses : Nat := 0

/-- Whether the task is over. -/
def Task.hasEnded (t : Task) : Bool :=
  match t.stage with
  | .ended _ => true
  | _ => false

/-- An observer at work. -/
structure Worker (σ : Type) where
  /-- The observer's name when it was started. -/
  name : String
  observer : σ
  stage : Stage := .starting
  /-- Orders that the thread has not read, the oldest first. -/
  inbox : List Order := []
  /-- Replies that the host has not read, the oldest first. -/
  outbox : List Reply := []
  task : Option Task := none

namespace Worker

variable {σ : Type}

/-- Whether the thread is over; a refused one has never begun. -/
def hasEnded (w : Worker σ) : Bool :=
  match w.stage with
  | .refused | .ended _ => true
  | _ => false

/-- Whether no task is left to wait for. -/
def taskHasEnded (w : Worker σ) : Bool := w.task.all Task.hasEnded

/-- Sends an order, which is lost on a thread that is over. -/
def tell (w : Worker σ) (o : Order) : Worker σ :=
  if w.hasEnded then w else { w with inbox := w.inbox ++ [o] }

end Worker

end Dcpu16
