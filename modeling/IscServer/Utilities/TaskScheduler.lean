import Mathlib.Algebra.Order.Group.Unbundled.Int
import IscServer.Library.Multimap

/-!
# The Task Scheduler

A task scheduler holds timed tasks, sorted by the time at which they end, and a queue of
asynchronous callables that its next `Dispatch` runs. Callables and tasks are functions; what
matters of a run of one of them are the calls it makes on the scheduler, and these calls change
the containers `Dispatch` is working through.

A session is a scheduler with its history. The callables are numbered in the order of their
registration, and what a callable does when it runs is given by the action that runs it.

## Main definitions

* `TaskScheduler` and its operations — the containers as the code has them.
* `Session.call` — a call on the scheduler, from outside or from within a callable or a task.
* `Session.iterate` — one round of one of the two loops of `Dispatch`.
* `Session.Safe` — what a callable may expect of the asynchronous queue.
-/

namespace IscServer.Utilities

open Multimap

/-- A scheduled task: when it ends, its duration, its group if it has one, how often it was
repeated, and the function it calls, by name. -/
structure Task where
  endAt : ℤ
  duration : ℤ
  group : Option ℕ
  repeated : ℕ
  task : ℕ
  deriving DecidableEq

/-- `Task::IsInGroup`. -/
def Task.isInGroup (t : Task) (group : ℕ) : Bool := t.group = some group

/-! ### The queue of timed tasks -/

/-- `TaskQueue`: the tasks sorted by their ends, those of one end in the order of insertion. -/
abbrev TaskQueue := List Task

namespace TaskQueue

/-- `TaskQueue::Push`. -/
def push (q : TaskQueue) (t : Task) : TaskQueue := insert Task.endAt t q

/-- `TaskQueue::RemoveIf`. -/
def removeIf (q : TaskQueue) (filter : Task → Bool) : TaskQueue := q.filter fun t => !filter t

end TaskQueue

/-! ### The scheduler -/

/-- `TaskScheduler`: the current time, the timed tasks and the asynchronous callables, the next
one to run first. -/
structure TaskScheduler where
  now : ℤ
  taskHolder : TaskQueue
  asyncHolder : List ℕ
  deriving DecidableEq

namespace TaskScheduler

/-- `TaskScheduler::Async`. -/
def async (s : TaskScheduler) (callable : ℕ) : TaskScheduler :=
  { s with asyncHolder := s.asyncHolder ++ [callable] }

/-- `TaskScheduler::CancelAll`. -/
def cancelAll (s : TaskScheduler) : TaskScheduler :=
  { s with taskHolder := [], asyncHolder := [] }

/-- `TaskScheduler::CancelGroup`. -/
def cancelGroup (s : TaskScheduler) (group : ℕ) : TaskScheduler :=
  { s with taskHolder := s.taskHolder.removeIf fun t => t.isInGroup group }

/-- `TaskScheduler::InsertTask`. -/
def insertTask (s : TaskScheduler) (t : Task) : TaskScheduler :=
  { s with taskHolder := s.taskHolder.push t }

/-- `TaskScheduler::ScheduleAt`. -/
def scheduleAt (s : TaskScheduler) (endAt time : ℤ) (group : Option ℕ) (task : ℕ) :
    TaskScheduler :=
  s.insertTask ⟨endAt + time, time, group, 0, task⟩

/-- `TaskScheduler::Schedule`. -/
def schedule (s : TaskScheduler) (time : ℤ) (group : Option ℕ) (task : ℕ) : TaskScheduler :=
  s.scheduleAt s.now time group task

/-- `_asyncHolder.pop()`; to pop from an empty queue is undefined. -/
def popAsync (s : TaskScheduler) : Option TaskScheduler :=
  match s.asyncHolder with
  | [] => none
  | _ :: rest => some { s with asyncHolder := rest }

end TaskScheduler

/-! ### Sessions -/

/-- A call on the scheduler. The last one is what the `Schedule` and `Repeat` of a task context
come to: a task that ends relative to the end of the running one. -/
inductive SchedulerCall where
  | async
  | schedule (time : ℤ) (group : Option ℕ) (task : ℕ)
  | cancelGroup (group : ℕ)
  | cancelAll
  | insertTask (t : Task)
  deriving DecidableEq

/-- Where the program is: outside of `Dispatch`, in its loop over the asynchronous callables, or
in its loop over the tasks. -/
inductive DispatchLoop where
  | idle
  | asyncs
  | tasks
  deriving DecidableEq

/-- A scheduler with its history: how many callables were registered so far, the ones that were
run in the order of their runs, the ones a `CancelAll` removed before they were run, and whether
the program popped from an empty queue. -/
structure Session where
  scheduler : TaskScheduler
  loop : DispatchLoop
  registered : ℕ
  ran : List ℕ
  cancelled : List ℕ
  undefinedPop : Bool
  deriving DecidableEq

namespace Session

/-- A new scheduler. -/
def fresh (now : ℤ) : Session := ⟨⟨now, [], []⟩, .idle, 0, [], [], false⟩

/-- The asynchronous callables that wait. -/
abbrev queue (s : Session) : List ℕ := s.scheduler.asyncHolder

/-- A call on the scheduler. -/
def call (s : Session) : SchedulerCall → Session
  | .async => { s with scheduler := s.scheduler.async s.registered, registered := s.registered + 1 }
  | .schedule time group task => { s with scheduler := s.scheduler.schedule time group task }
  | .cancelGroup group => { s with scheduler := s.scheduler.cancelGroup group }
  | .cancelAll =>
    { s with
      scheduler := s.scheduler.cancelAll
      cancelled := s.cancelled ++ s.queue.filter fun n => n ∉ s.ran }
  | .insertTask t => { s with scheduler := s.scheduler.insertTask t }

/-- Several calls, as a callable or a task makes them while it runs. -/
def calls (s : Session) (cs : List SchedulerCall) : Session := cs.foldl call s

/-- The check of the validator after a callable or a task was run. -/
def validate (s : Session) (valid : Bool) : Session :=
  if valid then s else { s with loop := .idle }

/-- `Update` up to the loops of `Dispatch`: the time is advanced and the validator asked. -/
def update (s : Session) (difftime : ℤ) (valid : Bool) : Session :=
  { s with
    scheduler := { s.scheduler with now := s.scheduler.now + difftime }
    loop := if valid then .asyncs else .idle }

/-- `_asyncHolder.front()()`: the front callable is run where it stands. -/
def runFront (s : Session) (callable : ℕ) (cs : List SchedulerCall) : Session :=
  { s with ran := s.ran ++ [callable] }.calls cs

/-- One round of the loop over the asynchronous callables: the front one is run, then the front
of the queue is popped. -/
def asyncRound (s : Session) (callable : ℕ) (cs : List SchedulerCall) (valid : Bool) : Session :=
  let s := s.runFront callable cs
  match s.scheduler.popAsync with
  | none => { s with undefinedPop := true }
  | some scheduler => { s with scheduler := scheduler }.validate valid

/-- One round of the loop over the tasks: the first task that is over is popped and run; without
one the final callback is called. -/
def taskRound (s : Session) (cs : List SchedulerCall) (valid : Bool) : Session :=
  match s.scheduler.taskHolder with
  | [] => { s with loop := .idle }.calls cs
  | first :: rest =>
    if first.endAt > s.scheduler.now then { s with loop := .idle }.calls cs
    else ({ s with scheduler := { s.scheduler with taskHolder := rest } }.calls cs).validate valid

/-- One round of the loop `Dispatch` is in. -/
def iterate (s : Session) (cs : List SchedulerCall) (valid : Bool) : Session :=
  match s.loop with
  | .idle => s
  | .asyncs =>
    match s.queue with
    | [] => { s with loop := .tasks }
    | callable :: _ => s.asyncRound callable cs valid
  | .tasks => s.taskRound cs valid

end Session

/-- What happens to a scheduler: a call from outside, an update, or the next round of a loop of
`Dispatch`, with the calls that the function it runs makes and the answer of the validator. -/
inductive SessionAct where
  | call (c : SchedulerCall)
  | update (difftime : ℤ) (valid : Bool)
  | iterate (cs : List SchedulerCall) (valid : Bool)
  deriving DecidableEq

namespace Session

/-- One action; nothing is known of the program once its behaviour is undefined. -/
def step (s : Session) (a : SessionAct) : Session :=
  if s.undefinedPop then s
  else match a with
    | .call c => s.call c
    | .update difftime valid => if s.loop = .idle then s.update difftime valid else s
    | .iterate cs valid => s.iterate cs valid

/-- Every registered callable was run, was removed by a `CancelAll` before it was run, or
waits. -/
def Accounted (s : Session) : Prop :=
  ∀ n < s.registered, n ∈ s.ran ∨ n ∈ s.cancelled ∨ n ∈ s.queue

/-- What a callable may expect of the queue: nothing was popped from it while it was empty, the
callables were run in the order of their registration, each at most once, and none of them
disappeared. -/
structure Safe (s : Session) : Prop where
  defined : s.undefinedPop = false
  inOrder : s.ran.Pairwise (· < ·)
  accounted : s.Accounted

/-- The next action does not run an asynchronous callable that calls `CancelAll`. -/
def KeepsQueue (s : Session) (a : SessionAct) : Prop :=
  match a with
  | .iterate cs _ =>
    s.undefinedPop = false → s.loop = .asyncs → s.queue ≠ [] → SchedulerCall.cancelAll ∉ cs
  | _ => True

end Session

end IscServer.Utilities
