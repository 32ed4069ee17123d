import Mathlib.Data.List.Basic

/-!
# The Intrusive Queue of many Producers

`MPSCQueueIntrusive` (`common/Threading/MPSCQueue.h`): nodes that are linked through a field of their own,
any number of producers in `Enqueue` and one consumer in `Dequeue`.

* Each atomic load, store and exchange is one step, and so is entering a function; what is computed between
  two of them belongs to the step before. An event of a thread that has nothing to do changes nothing.
* `item` is a node that producers enqueue, `dummy` is `_dummyPtr`. Null is `none`.
* `begun`, `exchanged` and `returned` record what was passed to `Enqueue`, the exchanges of producers on
  `_head`, and the results of `Dequeue`, where `none` is false.
-/

namespace IscServer.Threading

/-- A node. -/
inductive Node (α : Type)
  | dummy
  | item (input : α)
  deriving DecidableEq, Repr

/-- Where a producer is in `Enqueue`: outside, or before one of its three accesses. -/
inductive Producer (α : Type)
  | idle
  | storeNull (input : α)
  | exchangeHead (input : α)
  | storeLink (input : α) (prevHead : Node α)
  deriving DecidableEq, Repr

/-- Where the consumer is in `Dequeue`: outside, or before one of its accesses. -/
inductive Consumer (α : Type)
  | idle
  | loadTail
  | loadNext (tail : Node α)
  | skipDummy (next : Node α)
  | loadNextOfSkipped (tail : Node α)
  | storeTail (tail next : Node α)
  | loadHead (tail : Node α)
  | storeNullOfDummy (tail : Node α)
  | exchangeDummy (tail : Node α)
  | storeLinkToDummy (tail prevHead : Node α)
  | loadNextAgain (tail : Node α)
  deriving DecidableEq, Repr

/-- A queue with its threads. -/
structure Queue (ι α : Type) where
  link : Node α → Option (Node α)
  head : Node α
  tail : Node α
  producers : ι → Producer α
  consumer : Consumer α
  begun : List α
  exchanged : List α
  returned : List (Option (Node α))

variable {ι α : Type} [DecidableEq ι] [DecidableEq α]

/-- A new queue. The links of other nodes are whatever they are. -/
def Queue.new (link : α → Option (Node α)) : Queue ι α where
  link
    | .dummy => none
    | .item input => link input
  head := .dummy
  tail := .dummy
  producers := fun _ => .idle
  consumer := .idle
  begun := []
  exchanged := []
  returned := []

/-- The nodes that were dequeued. -/
def Queue.dequeued (queue : Queue ι α) : List (Node α) := queue.returned.filterMap id

/-- One access of a producer in `Enqueue`. -/
def Queue.produce (queue : Queue ι α) (i : ι) : Queue ι α :=
  match queue.producers i with
  | .idle => queue
  | .storeNull input => { queue with
      link := Function.update queue.link (.item input) none
      producers := Function.update queue.producers i (.exchangeHead input) }
  | .exchangeHead input => { queue with
      head := .item input
      exchanged := queue.exchanged ++ [input]
      producers := Function.update queue.producers i (.storeLink input queue.head) }
  | .storeLink input prevHead => { queue with
      link := Function.update queue.link prevHead (some (.item input))
      producers := Function.update queue.producers i .idle }

/-- One access of the consumer in `Dequeue`, with the `Enqueue` of the dummy. -/
def Queue.consume (queue : Queue ι α) : Queue ι α :=
  match queue.consumer with
  | .idle => queue
  | .loadTail => { queue with consumer := .loadNext queue.tail }
  | .loadNext tail => match queue.link tail with
      | none =>
        if tail = .dummy then { queue with consumer := .idle, returned := queue.returned ++ [none] }
        else { queue with consumer := .loadHead tail }
      | some next =>
        if tail = .dummy then { queue with consumer := .skipDummy next }
        else { queue with consumer := .storeTail tail next }
  | .skipDummy next => { queue with tail := next, consumer := .loadNextOfSkipped next }
  | .loadNextOfSkipped tail => match queue.link tail with
      | none => { queue with consumer := .loadHead tail }
      | some next => { queue with consumer := .storeTail tail next }
  | .storeTail tail next => { queue with
      tail := next
      consumer := .idle
      returned := queue.returned ++ [some tail] }
  | .loadHead tail =>
    if tail = queue.head then { queue with consumer := .storeNullOfDummy tail }
    else { queue with consumer := .idle, returned := queue.returned ++ [none] }
  | .storeNullOfDummy tail => { queue with
      link := Function.update queue.link .dummy none
      consumer := .exchangeDummy tail }
  | .exchangeDummy tail => { queue with
      head := .dummy
      consumer := .storeLinkToDummy tail queue.head }
  | .storeLinkToDummy tail prevHead => { queue with
      link := Function.update queue.link prevHead (some .dummy)
      consumer := .loadNextAgain tail }
  | .loadNextAgain tail => match queue.link tail with
      | none => { queue with consumer := .idle, returned := queue.returned ++ [none] }
      | some next => { queue with consumer := .storeTail tail next }

/-- A call of `Enqueue` or `Dequeue`, or the next access of one that runs. -/
inductive Event (ι α : Type)
  | enqueue (producer : ι) (input : α)
  | produce (producer : ι)
  | dequeue
  | consume
  deriving DecidableEq, Repr

/-- One step. -/
def Queue.step (queue : Queue ι α) : Event ι α → Queue ι α
  | .enqueue i input => match queue.producers i with
      | .idle => { queue with
          producers := Function.update queue.producers i (.storeNull input)
          begun := queue.begun ++ [input] }
      | _ => queue
  | .produce i => queue.produce i
  | .dequeue => match queue.consumer with
      | .idle => { queue with consumer := .loadTail }
      | _ => queue
  | .consume => queue.consume

end IscServer.Threading
