import Mathlib.Data.List.Count
import IscServer.Library.Neighbours
import IscServer.Library.Run
import IscServer.Threading.MPSCQueue

/-!
# Nothing is Lost or Duplicated in the Queue of many Producers

The nodes from `_tail` to `_head` form a chain, in the order of the exchanges on `_head`. A link of the chain
is missing exactly while the thread that made the exchange has not stored it.

## Main results

* `dequeues_in_order` — in every interleaving in which a node is enqueued again only after it was dequeued,
  the dequeued nodes are a prefix of those exchanged, and a `Dequeue` during which no `Enqueue` is in
  progress is false only if every node has been dequeued.
-/

namespace IscServer.Threading

open List Function

open Neighbours

variable {ι α : Type} {queue : Queue ι α} {chain : List (Node α)}

/-! ### The invariant -/

/-- The node that a producer enqueues. -/
def Producer.input : Producer α → Option α
  | idle => none
  | storeNull input => some input
  | exchangeHead input => some input
  | storeLink input _ => some input

/-- A link that a thread has still to store. -/
inductive Queue.Linking (queue : Queue ι α) : Node α → Node α → Prop
  | producer {i : ι} {input : α} {prevHead : Node α} (h : queue.producers i = .storeLink input prevHead) :
      Linking queue prevHead (.item input)
  | consumer {tail prevHead : Node α} (h : queue.consumer = .storeLinkToDummy tail prevHead) :
      Linking queue prevHead .dummy

/-- Where a producer is fits the chain: its node enters with the exchange, and then has to be linked. -/
def Producer.Fits (queue : Queue ι α) (chain : List (Node α)) : Producer α → Prop
  | idle => True
  | storeNull input => .item input ∉ chain
  | exchangeHead input => .item input ∉ chain ∧ queue.link (.item input) = none
  | storeLink input prevHead => Adjacent chain prevHead (.item input) ∧ queue.link prevHead = none

/-- Where the consumer is fits the chain. -/
def Consumer.Fits (queue : Queue ι α) (chain : List (Node α)) : Consumer α → Prop
  | idle => True
  | loadTail => True
  | loadNext tail => tail = queue.tail
  | skipDummy next => queue.tail = .dummy ∧ queue.link .dummy = some next
  | loadNextOfSkipped tail => tail = queue.tail ∧ tail ≠ .dummy
  | storeTail tail next => tail = queue.tail ∧ tail ≠ .dummy ∧ queue.link tail = some next
  | loadHead tail => tail = queue.tail ∧ tail ≠ .dummy
  | storeNullOfDummy tail => tail = queue.tail ∧ tail ≠ .dummy ∧ .dummy ∉ chain
  | exchangeDummy tail => tail = queue.tail ∧ tail ≠ .dummy ∧ .dummy ∉ chain ∧ queue.link .dummy = none
  | storeLinkToDummy tail prevHead => tail = queue.tail ∧ tail ≠ .dummy ∧ Adjacent chain prevHead .dummy ∧
      queue.link prevHead = none
  | loadNextAgain tail => tail = queue.tail ∧ tail ≠ .dummy

/-- A node of a producer. -/
def Node.isItem : Node α → Bool
  | dummy => false
  | item _ => true

/-- The nodes of producers in a chain. -/
def items (chain : List (Node α)) : List (Node α) := chain.filter Node.isItem

/-- **The memory**: the chain of the queue, and where the threads are in it. -/
structure Chained (queue : Queue ι α) (chain : List (Node α)) : Prop where
  tail : chain.head? = some queue.tail
  head : chain.getLast? = some queue.head
  nodup : chain.Nodup
  order : queue.exchanged.map Node.item = queue.dequeued ++ items chain
  last : queue.link queue.head = none
  links : ∀ x y, Adjacent chain x y →
    queue.link x = some y ∨ (queue.link x = none ∧ queue.Linking x y)
  producers : ∀ i, (queue.producers i).Fits queue chain
  consumer : queue.consumer.Fits queue chain

/-! ### The chain -/

variable {x y : Node α}

/-- A link that is stored leads along the chain. -/
theorem Chained.adjacent_of_link (h : Chained queue chain) (hx : x ∈ chain)
    (hlink : queue.link x = some y) : Adjacent chain x y := by
  have hlast : chain.getLast? ≠ some x := by
    intro hlast
    rw [← Option.some.inj (h.head.symm.trans hlast), h.last] at hlink
    cases hlink
  obtain ⟨z, hz⟩ := exists_adjacent hx hlast
  rcases h.links x z hz with hstored | ⟨hnone, -⟩
  · rw [hlink] at hstored
    rwa [Option.some.inj hstored]
  · rw [hlink] at hnone
    cases hnone

theorem Chained.tail_mem (h : Chained queue chain) : queue.tail ∈ chain := mem_of_head? h.tail

variable {next : Node α}

/-- The chain without its first node. -/
theorem Chained.eq_cons (h : Chained queue chain) (hnext : Adjacent chain queue.tail next) :
    ∃ rest, chain = queue.tail :: next :: rest := by
  obtain ⟨rest, rfl⟩ : ∃ rest, chain = queue.tail :: rest := by
    cases chain with
    | nil => exact hnext.elim
    | cons first rest =>
      cases h.tail
      exact ⟨rest, rfl⟩
  rcases adjacent_cons.mp hnext with ⟨-, hhead⟩ | hrest
  · cases rest with
    | nil => cases hhead
    | cons first rest =>
      cases hhead
      exact ⟨rest, rfl⟩
  · exact absurd hrest.mem_left (nodup_cons.mp h.nodup).1

/-- If the first node of the chain is also the last, there is no other. -/
theorem Chained.eq_singleton (h : Chained queue chain) (heq : queue.tail = queue.head) :
    chain = [queue.tail] := by
  have hlast := h.head
  have hnodup := h.nodup
  cases chain with
  | nil => cases h.tail
  | cons first rest =>
    cases h.tail
    cases rest with
    | nil => rfl
    | cons second rest =>
      rw [List.getLast?_cons_cons] at hlast
      rw [heq] at hnodup
      exact absurd (mem_of_getLast? hlast) (nodup_cons.mp hnodup).1

/-! ### Threads -/

/-- The threads that have a link to store, when the consumer moves and has none. -/
theorem Queue.Linking.of_consumer {x y : Node α} (h : queue.Linking x y) {queue' : Queue ι α}
    (hproducers : queue'.producers = queue.producers)
    (hconsumer : ∀ tail prevHead, queue.consumer ≠ .storeLinkToDummy tail prevHead) : queue'.Linking x y := by
  cases h with
  | @producer i _ _ hproducer => exact .producer (i := i) ((congrFun hproducers i).trans hproducer)
  | consumer hlinks => exact absurd hlinks (hconsumer _ _)

variable {consumer : Consumer α}

/-- What the consumer has to fit are the link and the end of the queue. -/
theorem Consumer.Fits.congr {queue' : Queue ι α} (h : consumer.Fits queue chain)
    (htail : queue'.tail = queue.tail) (hlink : queue'.link = queue.link) : consumer.Fits queue' chain := by
  cases consumer <;> simp only [Fits, htail, hlink] at h ⊢ <;> exact h

theorem Producer.Fits.congr {queue' : Queue ι α} {producer : Producer α} (h : producer.Fits queue chain)
    (hlink : queue'.link = queue.link) : producer.Fits queue' chain := by
  cases producer <;> simp only [Fits, hlink] at h ⊢ <;> exact h

variable {queue' : Queue ι α}

variable {node : Node α}

/-- A node that is appended is none that a producer still has to append. -/
theorem Producer.Fits.append {producer : Producer α} (h : producer.Fits queue chain)
    (hlink : queue'.link = queue.link)
    (hne : ∀ input, producer.input = some input → .item input ≠ node) :
    producer.Fits queue' (chain ++ [node]) := by
  have hnotMem : ∀ input, producer.input = some input → .item input ∉ chain → .item input ∉ chain ++ [node] := by
    intro input hinput hin
    rw [mem_append, mem_singleton, not_or]
    exact ⟨hin, hne input hinput⟩
  cases producer with
  | idle => trivial
  | storeNull input => exact hnotMem input rfl h
  | exchangeHead input => exact ⟨hnotMem input rfl h.1, hlink ▸ h.2⟩
  | storeLink input prevHead => exact ⟨adjacent_concat.mpr (Or.inl h.1), hlink ▸ h.2⟩

theorem Consumer.Fits.append {queue' : Queue ι α} (h : consumer.Fits queue chain)
    (htail : queue'.tail = queue.tail) (hlink : queue'.link = queue.link) (hne : node ≠ .dummy) : consumer.Fits queue' (chain ++ [node]) := by
  have hnotMem : .dummy ∉ chain → .dummy ∉ chain ++ [node] := by
    intro hin
    rw [mem_append, mem_singleton, not_or]
    exact ⟨hin, hne.symm⟩
  refine Fits.congr ?_ htail hlink
  cases consumer with
  | idle | loadTail | loadNext | skipDummy | loadNextOfSkipped | storeTail | loadHead | loadNextAgain => exact h
  | storeNullOfDummy tail => exact ⟨h.1, h.2.1, hnotMem h.2.2⟩
  | exchangeDummy tail => exact ⟨h.1, h.2.1, hnotMem h.2.2.1, h.2.2.2⟩
  | storeLinkToDummy tail prevHead => exact ⟨h.1, h.2.1, adjacent_concat.mpr (Or.inl h.2.2.1), h.2.2.2⟩

theorem dequeued_false (returned : List (Option (Node α))) :
    (returned ++ [none]).filterMap id = returned.filterMap id := by
  rw [filterMap_append]
  exact append_nil _

variable {returned : List (Option (Node α))}

/-- A step of the consumer that stores nothing. -/
theorem Chained.of_consumer (h : Chained queue chain)
    (hconsumer : ∀ tail prevHead, queue.consumer ≠ .storeLinkToDummy tail prevHead)
    (hfits : consumer.Fits queue chain) (hreturned : returned.filterMap id = queue.dequeued) :
    Chained { queue with consumer := consumer, returned := returned } chain where
  tail := h.tail
  head := h.head
  nodup := h.nodup
  order := by
    rw [Queue.dequeued, hreturned]
    exact h.order
  last := h.last
  links := fun x y hxy => (h.links x y hxy).imp_right fun ⟨hnone, hlinking⟩ =>
    ⟨hnone, hlinking.of_consumer rfl hconsumer⟩
  producers := fun i => (h.producers i).congr rfl
  consumer := hfits.congr rfl rfl

section Producers

variable [DecidableEq ι]

variable {queue' : Queue ι α} {i : ι}

/-- The threads that have a link to store, when a producer moves that has none. -/
theorem Queue.Linking.of_producer {x y : Node α} (h : queue.Linking x y) {producer : Producer α}
    (hidle : ∀ input prevHead, queue.producers i ≠ .storeLink input prevHead)
    (hproducers : queue'.producers = Function.update queue.producers i producer)
    (hconsumer : queue'.consumer = queue.consumer) : queue'.Linking x y := by
  cases h with
  | @producer j input _ hj =>
    refine .producer (i := j) ?_
    rw [hproducers, update_of_ne]
    · exact hj
    · rintro rfl
      exact hidle _ _ hj
  | consumer hlinks => exact .consumer (hconsumer.trans hlinks)

/-- What the producers enqueue. -/
def Queue.inputs (queue : Queue ι α) (i : ι) : Option α := (queue.producers i).input

section

variable {producer : Producer α}
  (hproducers : queue'.producers = Function.update queue.producers i producer)
include hproducers

/-- What the producers enqueue after one has moved. -/
theorem inputs_update : queue'.inputs = Function.update queue.inputs i producer.input := by
  funext j
  rw [Queue.inputs, hproducers]
  by_cases hj : j = i
  · rw [hj, update_self, update_self]
  · rw [update_of_ne hj, update_of_ne hj, Queue.inputs]

/-- A producer that moves with the same node. -/
theorem inputs_eq (hinput : producer.input = queue.inputs i) : queue'.inputs = queue.inputs := by
  rw [inputs_update hproducers, hinput, update_eq_self]

end

/-- A step of a producer that stores nothing. -/
theorem Chained.of_producer (h : Chained queue chain) {i : ι} {producer : Producer α}
    (hidle : ∀ input prevHead, queue.producers i ≠ .storeLink input prevHead)
    (hfits : producer.Fits queue chain) :
    Chained { queue with producers := Function.update queue.producers i producer } chain := by
  refine { h with
    links := fun x y hxy => (h.links x y hxy).imp_right fun ⟨hnone, hlinking⟩ =>
      ⟨hnone, hlinking.of_producer hidle rfl rfl⟩
    producers := fun j => ?_
    consumer := h.consumer.congr rfl rfl }
  dsimp only
  by_cases hj : j = i
  · rw [hj, update_self]
    exact hfits.congr rfl
  · rw [update_of_ne hj]
    exact (h.producers j).congr rfl

end Producers

/-! ### Memory -/

/-- **An exchange on `_head`**: the node is the last of the chain, and the thread has the link to store. -/
theorem Chained.exchange (h : Chained queue chain) (hnode : node ∉ chain)
    (hnone : queue.link node = none) (hlink : queue'.link = queue.link)
    (htail : queue'.tail = queue.tail) (hhead : queue'.head = node)
    (horder : queue'.exchanged.map Node.item = queue'.dequeued ++ items (chain ++ [node]))
    (hlinking : ∀ x y, queue.Linking x y → queue'.Linking x y)
    (hnew : queue'.Linking queue.head node)
    (hproducers : ∀ i, (queue'.producers i).Fits queue' (chain ++ [node]))
    (hconsumer : queue'.consumer.Fits queue' (chain ++ [node])) :
    Chained queue' (chain ++ [node]) := by
  refine ⟨?_, ?_, ?_, horder, ?_, fun x y hxy => ?_, hproducers, hconsumer⟩
  · rw [List.head?_append, h.tail, htail]
    rfl
  · rw [List.getLast?_append, hhead]
    rfl
  · refine nodup_append.mpr ⟨h.nodup, nodup_singleton _, fun x hx y hy => ?_⟩
    rw [mem_singleton.mp hy]
    rintro rfl
    exact hnode hx
  · rw [hlink, hhead, hnone]
  · rw [hlink]
    rcases adjacent_concat.mp hxy with hxy | ⟨hx, rfl⟩
    · exact (h.links x y hxy).imp_right fun ⟨hx, hold⟩ => ⟨hx, hlinking x y hold⟩
    · rw [← Option.some.inj (h.head.symm.trans hx)]
      exact Or.inr ⟨h.last, hnew⟩

/-- **A store to `_tail`**: the chain loses its first node, whose link is stored. -/
theorem Chained.storeTail (h : Chained queue chain) (hnext : queue.link queue.tail = some next)
    (hlink : queue'.link = queue.link) (htail : queue'.tail = next)
    (hhead : queue'.head = queue.head) (hproducers : queue'.producers = queue.producers)
    (hnot : ∀ tail prevHead, queue.consumer ≠ .storeLinkToDummy tail prevHead)
    (horder : queue'.exchanged.map Node.item = queue'.dequeued ++ items chain.tail)
    (hconsumer : queue'.consumer.Fits queue' chain.tail) : Chained queue' chain.tail := by
  obtain ⟨rest, rfl⟩ := h.eq_cons (h.adjacent_of_link h.tail_mem hnext)
  have hlast := h.head
  refine ⟨?_, ?_, (nodup_cons.mp h.nodup).2, horder, ?_, fun x y hxy => ?_, fun i => ?_, hconsumer⟩
  · rw [htail]
    rfl
  · rw [hhead]
    exact hlast
  · rw [hlink, hhead, h.last]
  · rw [hlink]
    exact (h.links x y (adjacent_cons.mpr (Or.inr hxy))).imp_right fun ⟨hx, hold⟩ =>
      ⟨hx, hold.of_consumer hproducers hnot⟩
  · rw [hproducers]
    have hfits := h.producers i
    cases hi : queue.producers i with
    | idle => trivial
    | storeNull input =>
      rw [hi] at hfits
      exact fun hin => hfits (mem_cons_of_mem _ hin)
    | exchangeHead input =>
      rw [hi] at hfits
      exact ⟨fun hin => hfits.1 (mem_cons_of_mem _ hin), hlink ▸ hfits.2⟩
    | storeLink input prevHead =>
      rw [hi] at hfits
      refine ⟨(adjacent_cons.mp hfits.1).resolve_left ?_, hlink ▸ hfits.2⟩
      rintro ⟨rfl, -⟩
      rw [hfits.2] at hnext
      cases hnext

variable [DecidableEq α]

/-- A link that is stored is none that another producer waits for. -/
theorem Producer.Fits.storeLink {producer : Producer α} (h : producer.Fits queue chain)
    (hnodup : chain.Nodup) (hadjacent : Adjacent chain x y)
    (hlink : queue'.link = Function.update queue.link x (some y))
    (hne : ∀ input, producer.input = some input → .item input ≠ y) :
    producer.Fits queue' chain := by
  cases producer with
  | idle => trivial
  | storeNull input => exact h
  | exchangeHead input =>
    refine ⟨h.1, ?_⟩
    rw [hlink, update_of_ne, h.2]
    rintro rfl
    exact h.1 hadjacent.mem_left
  | storeLink input prevHead =>
    refine ⟨h.1, ?_⟩
    rw [hlink, update_of_ne, h.2]
    rintro rfl
    exact hne input rfl (h.1.right_unique hnodup hadjacent)

theorem Consumer.Fits.storeLink {queue' : Queue ι α} {x y : Node α}
    (h : consumer.Fits queue chain) (hnodup : chain.Nodup) (hadjacent : Adjacent chain x y)
    (hnone : queue.link x = none) (htail : queue'.tail = queue.tail)
    (hlink : queue'.link = Function.update queue.link x (some y)) (hne : y ≠ .dummy) :
    consumer.Fits queue' chain := by
  have hkeep : ∀ node next, queue.link node = some next → queue'.link node = some next := by
    intro node next hnext
    rw [hlink, update_of_ne, hnext]
    rintro rfl
    rw [hnone] at hnext
    cases hnext
  cases consumer with
  | idle | loadTail => trivial
  | loadNext tail => exact h.trans htail.symm
  | loadNextOfSkipped tail | loadHead tail | loadNextAgain tail => exact ⟨h.1.trans htail.symm, h.2⟩
  | storeNullOfDummy tail => exact ⟨h.1.trans htail.symm, h.2⟩
  | skipDummy next => exact ⟨htail.trans h.1, hkeep _ _ h.2⟩
  | storeTail tail next => exact ⟨h.1.trans htail.symm, h.2.1, hkeep _ _ h.2.2⟩
  | exchangeDummy tail =>
    refine ⟨h.1.trans htail.symm, h.2.1, h.2.2.1, ?_⟩
    rw [hlink, update_of_ne, h.2.2.2]
    rintro rfl
    exact h.2.2.1 hadjacent.mem_left
  | storeLinkToDummy tail prevHead =>
    refine ⟨h.1.trans htail.symm, h.2.1, h.2.2.1, ?_⟩
    rw [hlink, update_of_ne, h.2.2.2]
    rintro rfl
    exact hne (hadjacent.right_unique hnodup h.2.2.1)

/-- Null in the link of a node that is not in the chain. -/
theorem Chained.storeNull (h : Chained queue chain) (hnode : node ∉ chain) :
    Chained { queue with link := Function.update queue.link node none } chain := by
  have hkeep : ∀ x ∈ chain, Function.update queue.link node none x = queue.link x := by
    intro x hx
    refine update_of_ne ?_ _ _
    rintro rfl
    exact hnode hx
  have hnone : ∀ x, queue.link x = none → Function.update queue.link node none x = none := by
    intro x hx
    by_cases hxn : x = node
    · rw [hxn, update_self]
    · rw [update_of_ne hxn, hx]
  refine { h with
    last := hnone _ h.last
    links := fun x y hxy => ?_
    producers := fun i => ?_
    consumer := ?_ }
  · dsimp only
    rw [hkeep x hxy.mem_left]
    exact (h.links x y hxy).imp_right fun ⟨hx, hlinking⟩ => ⟨hx, by
      cases hlinking with
      | producer hproducer => exact .producer hproducer
      | consumer hconsumer => exact .consumer hconsumer⟩
  · have hfits := h.producers i
    cases hi : queue.producers i with
    | idle => trivial
    | storeNull input =>
      rw [hi] at hfits
      exact hfits
    | exchangeHead input =>
      rw [hi] at hfits
      exact ⟨hfits.1, hnone _ hfits.2⟩
    | storeLink input prevHead =>
      rw [hi] at hfits
      exact ⟨hfits.1, hnone _ hfits.2⟩
  · have hfits := h.consumer
    cases hc : queue.consumer with
    | idle | loadTail => trivial
    | loadNext tail | loadNextOfSkipped tail | loadHead tail | storeNullOfDummy tail | loadNextAgain tail =>
      rw [hc] at hfits
      exact hfits
    | skipDummy next =>
      rw [hc] at hfits
      exact ⟨hfits.1, (hkeep _ (hfits.1 ▸ h.tail_mem)).trans hfits.2⟩
    | storeTail tail next =>
      rw [hc] at hfits
      exact ⟨hfits.1, hfits.2.1, (hkeep _ (hfits.1 ▸ h.tail_mem)).trans hfits.2.2⟩
    | exchangeDummy tail =>
      rw [hc] at hfits
      exact ⟨hfits.1, hfits.2.1, hfits.2.2.1, hnone _ hfits.2.2.2⟩
    | storeLinkToDummy tail prevHead =>
      rw [hc] at hfits
      exact ⟨hfits.1, hfits.2.1, hfits.2.2.1, hnone _ hfits.2.2.2⟩

/-- **A link that is stored** by the thread that has it to store. -/
theorem Chained.storeLink (h : Chained queue chain) (hadjacent : Adjacent chain x y)
    (hnone : queue.link x = none) (hlink : queue'.link = Function.update queue.link x (some y))
    (htail : queue'.tail = queue.tail) (hhead : queue'.head = queue.head)
    (hexchanged : queue'.exchanged = queue.exchanged) (hdequeued : queue'.dequeued = queue.dequeued)
    (hlinking : ∀ x' y', x' ≠ x → queue.Linking x' y' → queue'.Linking x' y')
    (hproducers : ∀ i, (queue'.producers i).Fits queue' chain)
    (hconsumer : queue'.consumer.Fits queue' chain) : Chained queue' chain := by
  refine ⟨htail ▸ h.tail, hhead ▸ h.head, h.nodup, ?_, ?_, fun x' y' hxy => ?_, hproducers, hconsumer⟩
  · rw [hexchanged, hdequeued, h.order]
  · rw [hlink, hhead, update_of_ne, h.last]
    rintro rfl
    exact hadjacent.ne_getLast h.nodup h.head
  · rw [hlink]
    by_cases hx : x' = x
    · rw [hx, update_self]
      rw [hx] at hxy
      exact Or.inl (congrArg some (hadjacent.right_unique h.nodup hxy))
    · rw [update_of_ne hx]
      exact (h.links x' y' hxy).imp_right fun ⟨hnone', hold⟩ => ⟨hnone', hlinking x' y' hx hold⟩

/-! ### Bookkeeping -/

/-- A node is in the queue or on its way into it. -/
def Busy (chain : List (Node α)) (inputs : ι → Option α) (input : α) : Prop :=
  .item input ∈ chain ∨ ∃ i, inputs i = some input

/-- **The bookkeeping**: a node is enqueued once more than it was dequeued while it is busy. -/
structure Counted (chain : List (Node α)) (inputs : ι → Option α) (begun : List α) (dequeued : List (Node α)) :
    Prop where
  distinct : ∀ i j input, inputs i = some input → inputs j = some input → i = j
  busy : ∀ input, Busy chain inputs input → begun.count input = dequeued.count (.item input) + 1
  free : ∀ input, ¬ Busy chain inputs input → begun.count input = dequeued.count (.item input)

/-- The whole invariant. -/
structure Sound (queue : Queue ι α) (chain : List (Node α)) : Prop where
  chained : Chained queue chain
  counted : Counted chain queue.inputs queue.begun queue.dequeued

/-- **A node is enqueued again only after it was dequeued**. -/
def Queue.Fresh (queue : Queue ι α) : Event ι α → Prop
  | .enqueue _ input => queue.begun.count input = queue.dequeued.count (.item input)
  | _ => True

instance (queue : Queue ι α) (event : Event ι α) : Decidable (queue.Fresh event) :=
  match event with
  | .enqueue _ _ => inferInstanceAs (Decidable (_ = _))
  | .produce _ | .dequeue | .consume => inferInstanceAs (Decidable True)

theorem sound_new (link : α → Option (Node α)) : Sound (Queue.new link : Queue ι α) [.dummy] where
  chained :=
    { tail := rfl
      head := rfl
      nodup := nodup_singleton _
      order := rfl
      last := rfl
      links := fun _ _ h => h.elim
      producers := fun _ => trivial
      consumer := trivial }
  counted :=
    { distinct := fun _ _ _ h => (by cases h)
      busy := fun input hbusy => by
        rcases hbusy with hin | ⟨i, hi⟩
        · cases mem_singleton.mp hin
        · cases hi
      free := fun _ _ => rfl }

/-- The node of another producer is another node. -/
theorem Sound.item_ne (h : Sound queue chain) {i j : ι} {input : α} (hi : queue.inputs i = some input)
    (hj : j ≠ i) {other : α} (hother : (queue.producers j).input = some other) :
    Node.item other ≠ .item input := by
  rintro ⟨rfl⟩
  exact hj (h.counted.distinct j i _ hother hi)

variable {inputs : ι → Option α} {begun : List α} {dequeued : List (Node α)}

/-- The bookkeeping depends on which nodes are busy. -/
theorem Counted.congr {chain' : List (Node α)} {inputs' : ι → Option α}
    (h : Counted chain inputs begun dequeued)
    (hbusy : ∀ input, Busy chain' inputs' input ↔ Busy chain inputs input)
    (hinputs : ∀ i input, inputs' i = some input → inputs i = some input) :
    Counted chain' inputs' begun dequeued :=
  ⟨fun i j input hi hj => h.distinct i j input (hinputs i input hi) (hinputs j input hj),
    fun input hb => h.busy input ((hbusy input).mp hb), fun input hf => h.free input fun hb =>
      hf ((hbusy input).mpr hb)⟩

/-! ### Producers -/

variable [DecidableEq ι]

variable {input : α}

/-- A free node that a producer takes becomes busy. -/
theorem Counted.enqueue (h : Counted chain inputs begun dequeued) {i : ι}
    (hfree : ¬ Busy chain inputs input) (hnone : inputs i = none) :
    Counted chain (Function.update inputs i (some input)) (begun ++ [input]) dequeued := by
  have hiff : ∀ j other, Function.update inputs i (some input) j = some other ↔
      (j = i ∧ other = input) ∨ inputs j = some other := by
    intro j other
    by_cases hj : j = i
    · rw [hj, update_self, hnone]
      simp [eq_comm]
    · simp [hj]
  have hbusy : ∀ other, Busy chain (Function.update inputs i (some input)) other ↔
      other = input ∨ Busy chain inputs other := by
    simp only [Busy, hiff]
    grind
  refine ⟨fun j k other hj hk => ?_, fun other hother => ?_, fun other hother => ?_⟩
  · rcases (hiff j other).mp hj with ⟨rfl, rfl⟩ | hj'
    · rcases (hiff k other).mp hk with ⟨rfl, -⟩ | hk'
      · rfl
      · exact absurd (Or.inr ⟨k, hk'⟩) hfree
    · rcases (hiff k other).mp hk with ⟨rfl, rfl⟩ | hk'
      · exact absurd (Or.inr ⟨j, hj'⟩) hfree
      · exact h.distinct j k other hj' hk'
  · rw [count_append]
    rcases (hbusy other).mp hother with rfl | hother
    · rw [count_singleton_self, h.free other hfree]
    · have hne : input ≠ other := by
        rintro rfl
        exact hfree hother
      rw [count_singleton, beq_eq_false_iff_ne.mpr hne, h.busy other hother]
      rfl
  · rw [hbusy, not_or] at hother
    rw [count_append, count_singleton, beq_eq_false_iff_ne.mpr (Ne.symm hother.1),
      h.free other hother.2]
    rfl

/-- **A call of `Enqueue`** with a node that is not in the queue. -/
theorem Sound.enqueue (h : Sound queue chain) {i : ι} {input : α} (hidle : queue.producers i = .idle)
    (hfresh : queue.begun.count input = queue.dequeued.count (.item input)) :
    Sound { queue with
      producers := Function.update queue.producers i (.storeNull input)
      begun := queue.begun ++ [input] } chain := by
  have hfree : ¬ Busy chain queue.inputs input := by
    intro hbusy
    have hcount := h.counted.busy input hbusy
    omega
  have hnone : queue.inputs i = none := by rw [Queue.inputs, hidle]; rfl
  have hchained : Chained { queue with producers := Function.update queue.producers i (.storeNull input) } chain :=
    h.chained.of_producer (by simp [hidle]) fun hin => hfree (Or.inl hin)
  refine ⟨{ hchained with
    links := fun x y hxy => (hchained.links x y hxy).imp_right fun ⟨hnone, hlinking⟩ => ⟨hnone, ?_⟩
    producers := fun j => (hchained.producers j).congr rfl
    consumer := hchained.consumer.congr rfl rfl }, ?_⟩
  · cases hlinking with
    | producer hproducer => exact .producer hproducer
    | consumer hconsumer => exact .consumer hconsumer
  · rw [inputs_update rfl]
    exact h.counted.enqueue hfree hnone

/-- **An access in `Enqueue`**. -/
theorem Sound.produce (h : Sound queue chain) (i : ι) : ∃ chain', Sound (queue.produce i) chain' := by
  have hfits := h.chained.producers i
  rw [Queue.produce]
  cases hproducer : queue.producers i with
  | idle => exact ⟨chain, h⟩
  | storeNull input =>
    rw [hproducer] at hfits
    have hstored := h.chained.storeNull hfits
    refine ⟨chain, hstored.of_producer (by simp [hproducer]) ⟨hfits, update_self _ _ _⟩, ?_⟩
    rw [inputs_eq rfl (by rw [Queue.inputs, hproducer]; rfl)]
    exact h.counted
  | exchangeHead input =>
    rw [hproducer] at hfits
    have hinput : queue.inputs i = some input := by rw [Queue.inputs, hproducer]; rfl
    refine ⟨chain ++ [.item input], h.chained.exchange hfits.1 hfits.2 rfl rfl rfl ?_ ?_ ?_ (fun j => ?_) ?_, ?_⟩
    · rw [map_append, h.chained.order, items, items, filter_append, append_assoc]
      rfl
    · exact fun x y hlinking => hlinking.of_producer (by simp [hproducer]) rfl rfl
    · exact .producer (update_self _ _ _)
    · dsimp only
      by_cases hj : j = i
      · rw [hj, update_self]
        exact ⟨adjacent_concat.mpr (Or.inr ⟨h.chained.head, rfl⟩), h.chained.last⟩
      · rw [update_of_ne hj]
        exact (h.chained.producers j).append rfl fun other hother => h.item_ne hinput hj hother
    · exact h.chained.consumer.append rfl rfl nofun
    · rw [inputs_eq rfl (by rw [hinput]; rfl)]
      refine h.counted.congr (fun other => ?_) fun _ _ hj => hj
      rw [Busy, Busy, mem_append, mem_singleton, Node.item.injEq]
      constructor
      · rintro ((hin | rfl) | hin)
        · exact Or.inl hin
        · exact Or.inr ⟨i, hinput⟩
        · exact Or.inr hin
      · exact fun hin => hin.imp_left Or.inl
  | storeLink input prevHead =>
    rw [hproducer] at hfits
    have hinput : queue.inputs i = some input := by rw [Queue.inputs, hproducer]; rfl
    refine ⟨chain, h.chained.storeLink hfits.1 hfits.2 rfl rfl rfl rfl rfl (fun x y hx hlinking => ?_)
      (fun j => ?_) ?_, ?_⟩
    · cases hlinking with
      | @producer j other _ hj =>
        refine .producer (i := j) ?_
        dsimp only
        rw [update_of_ne, hj]
        rintro rfl
        rw [hproducer] at hj
        cases hj
        exact hx rfl
      | consumer hconsumer => exact .consumer hconsumer
    · dsimp only
      by_cases hj : j = i
      · rw [hj, update_self]
        trivial
      · rw [update_of_ne hj]
        exact (h.chained.producers j).storeLink h.chained.nodup hfits.1 rfl fun other hother =>
          h.item_ne hinput hj hother
    · exact h.chained.consumer.storeLink h.chained.nodup hfits.1 hfits.2 rfl rfl nofun
    · rw [inputs_update rfl]
      have hsub : ∀ j other, Function.update queue.inputs i none j = some other →
          queue.inputs j = some other := by
        intro j other hj
        by_cases heq : j = i
        · rw [heq, update_self] at hj
          cases hj
        · rwa [update_of_ne heq] at hj
      refine h.counted.congr (fun other => ⟨?_, ?_⟩) hsub
      · exact fun hbusy => hbusy.imp_right fun ⟨j, hj⟩ => ⟨j, hsub j other hj⟩
      · rintro (hin | ⟨j, hj⟩)
        · exact Or.inl hin
        · by_cases heq : j = i
          · rw [heq, hinput, Option.some.injEq] at hj
            exact Or.inl (hj ▸ hfits.1.mem_right)
          · exact Or.inr ⟨j, by rwa [Producer.input, update_of_ne heq]⟩

/-! ### The consumer -/

omit [DecidableEq ι] in
/-- A node that the consumer takes from the chain is free. -/
theorem Sound.free_tail (h : Sound queue chain) (htail : queue.tail = .item input) :
    ¬ Busy chain.tail queue.inputs input := by
  have hhead := h.chained.tail
  rw [htail] at hhead
  rintro (hin | ⟨i, hi⟩)
  · cases chain with
    | nil => cases hhead
    | cons first rest =>
      cases hhead
      exact (nodup_cons.mp h.chained.nodup).1 hin
  · have hfits := h.chained.producers i
    rw [Queue.inputs] at hi
    cases hproducer : queue.producers i with
    | idle =>
      rw [hproducer] at hi
      cases hi
    | storeNull other =>
      rw [hproducer] at hi hfits
      cases hi
      exact hfits (mem_of_head? hhead)
    | exchangeHead other =>
      rw [hproducer] at hi hfits
      cases hi
      exact hfits.1 (mem_of_head? hhead)
    | storeLink other prevHead =>
      rw [hproducer] at hi hfits
      cases hi
      exact hfits.1.ne_head h.chained.nodup hhead

omit [DecidableEq ι] in
/-- The bookkeeping when the consumer returns a node. -/
theorem Sound.counted_tail (h : Sound queue chain) (htail : queue.tail = .item input) :
    Counted chain.tail queue.inputs queue.begun (queue.dequeued ++ [.item input]) := by
  have hfree := h.free_tail htail
  have hin : Node.item input ∈ chain := htail ▸ h.chained.tail_mem
  have hothers : ∀ other, other ≠ input →
      (Busy chain.tail queue.inputs other ↔ Busy chain queue.inputs other) := by
    intro other hne
    refine or_congr_left ?_
    cases hchain : chain with
    | nil => exact Iff.rfl
    | cons first rest =>
      have hhead := h.chained.tail
      rw [hchain, htail] at hhead
      cases hhead
      rw [tail_cons, mem_cons, or_iff_right]
      rintro ⟨rfl⟩
      exact hne rfl
  have hcount : ∀ other, other ≠ input →
      (queue.dequeued ++ [Node.item input]).count (.item other) = queue.dequeued.count (.item other) := by
    intro other hne
    rw [count_append, count_singleton, beq_eq_false_iff_ne.mpr]
    · rfl
    · rintro ⟨rfl⟩
      exact hne rfl
  refine ⟨h.counted.distinct, fun other hbusy => ?_, fun other hother => ?_⟩
  · have hne : other ≠ input := by
      rintro rfl
      exact hfree hbusy
    rw [hcount other hne, h.counted.busy other ((hothers other hne).mp hbusy)]
  · by_cases hne : other = input
    · rw [hne, count_append, count_singleton_self, h.counted.busy input (Or.inl hin)]
    · rw [hcount other hne, h.counted.free other fun hbusy => hother ((hothers other hne).mpr hbusy)]

omit [DecidableEq ι] in
/-- A step of the consumer that stores nothing and returns no node. -/
theorem Sound.of_consumer (h : Sound queue chain) (consumer : Consumer α) (returned : List (Option (Node α)))
    (hconsumer : ∀ tail prevHead, queue.consumer ≠ .storeLinkToDummy tail prevHead)
    (hfits : consumer.Fits queue chain) (hreturned : returned.filterMap id = queue.dequeued) :
    Sound { queue with consumer := consumer, returned := returned } chain := by
  refine ⟨h.chained.of_consumer hconsumer hfits hreturned, ?_⟩
  rw [Queue.dequeued, hreturned]
  exact h.counted

omit [DecidableEq ι] in
/-- **An access in `Dequeue`**. -/
theorem Sound.consume (h : Sound queue chain) : ∃ chain', Sound queue.consume chain' := by
  have hfits := h.chained.consumer
  rw [Queue.consume]
  cases hconsumer : queue.consumer with
  | idle => exact ⟨chain, h⟩
  | loadTail => exact ⟨chain, h.of_consumer (.loadNext queue.tail) queue.returned (by simp [hconsumer]) rfl rfl⟩
  | loadNext tail =>
    rw [hconsumer] at hfits
    have htail : tail = queue.tail := hfits
    dsimp only
    cases hlink : queue.link tail with
    | none =>
      split_ifs with hdummy
      · exact ⟨chain, h.of_consumer .idle (queue.returned ++ [none]) (by simp [hconsumer]) trivial
          (dequeued_false _)⟩
      · exact ⟨chain, h.of_consumer (.loadHead tail) queue.returned (by simp [hconsumer])
          ⟨htail, hdummy⟩ rfl⟩
    | some next =>
      split_ifs with hdummy
      · exact ⟨chain, h.of_consumer (.skipDummy next) queue.returned (by simp [hconsumer])
          ⟨htail ▸ hdummy, hdummy ▸ hlink⟩ rfl⟩
      · exact ⟨chain, h.of_consumer (.storeTail tail next) queue.returned (by simp [hconsumer])
          ⟨htail, hdummy, hlink⟩ rfl⟩
  | skipDummy next =>
    rw [hconsumer] at hfits
    obtain ⟨htail, hlink⟩ := hfits
    obtain ⟨rest, hchain⟩ := h.chained.eq_cons
      (h.chained.adjacent_of_link h.chained.tail_mem (htail ▸ hlink))
    have hne : next ≠ .dummy := by
      rintro rfl
      have hnodup := h.chained.nodup
      rw [hchain, htail] at hnodup
      exact (nodup_cons.mp hnodup).1 mem_cons_self
    refine ⟨chain.tail, h.chained.storeTail (htail ▸ hlink) rfl rfl rfl rfl (by simp [hconsumer]) ?_
      ⟨rfl, hne⟩, ?_⟩
    · rw [h.chained.order, hchain, htail]
      rfl
    · refine h.counted.congr (fun input => or_congr_left ?_) fun _ _ hi => hi
      simp [hchain, htail]
  | loadNextOfSkipped tail =>
    rw [hconsumer] at hfits
    dsimp only
    cases hlink : queue.link tail with
    | none =>
      exact ⟨chain, h.of_consumer (.loadHead tail) queue.returned (by simp [hconsumer]) hfits rfl⟩
    | some next =>
      exact ⟨chain, h.of_consumer (.storeTail tail next) queue.returned (by simp [hconsumer])
        ⟨hfits.1, hfits.2, hlink⟩ rfl⟩
  | storeTail tail next =>
    rw [hconsumer] at hfits
    obtain ⟨rfl, hne, hlink⟩ := hfits
    obtain ⟨input, hinput⟩ : ∃ input, queue.tail = .item input := by
      cases hnode : queue.tail with
      | dummy => exact absurd hnode hne
      | item input => exact ⟨input, rfl⟩
    obtain ⟨rest, hchain⟩ := h.chained.eq_cons (h.chained.adjacent_of_link h.chained.tail_mem hlink)
    have hdequeued : (queue.returned ++ [some queue.tail]).filterMap id =
        queue.dequeued ++ [.item input] := by
      rw [filterMap_append, hinput]
      rfl
    refine ⟨chain.tail, h.chained.storeTail hlink rfl rfl rfl rfl (by simp [hconsumer]) ?_ trivial, ?_⟩
    · rw [Queue.dequeued, hdequeued, h.chained.order, hchain, hinput, append_assoc]
      rfl
    · rw [Queue.dequeued, hdequeued]
      exact h.counted_tail hinput
  | loadHead tail =>
    rw [hconsumer] at hfits
    obtain ⟨rfl, hne⟩ := hfits
    dsimp only
    split_ifs with hhead
    · refine ⟨chain, h.of_consumer (.storeNullOfDummy queue.tail) queue.returned (by simp [hconsumer])
        ⟨rfl, hne, ?_⟩ rfl⟩
      rw [h.chained.eq_singleton hhead, mem_singleton]
      exact hne.symm
    · exact ⟨chain, h.of_consumer .idle (queue.returned ++ [none]) (by simp [hconsumer]) trivial
            (dequeued_false _)⟩
  | storeNullOfDummy tail =>
    rw [hconsumer] at hfits
    obtain ⟨rfl, hne, hdummy⟩ := hfits
    have hstored := h.chained.storeNull hdummy
    have hnone : Function.update queue.link .dummy none .dummy = none := update_self _ _ _
    exact ⟨chain, hstored.of_consumer (by simp [hconsumer]) ⟨rfl, hne, hdummy, hnone⟩ rfl, h.counted⟩
  | exchangeDummy tail =>
    rw [hconsumer] at hfits
    obtain ⟨rfl, hne, hdummy, hnone⟩ := hfits
    refine ⟨chain ++ [.dummy], h.chained.exchange hdummy hnone rfl rfl rfl ?_ ?_ ?_ (fun i => ?_) ?_, ?_⟩
    · rw [h.chained.order, items, items, filter_append]
      exact congrArg _ (append_nil _).symm
    · exact fun x y hlinking => hlinking.of_consumer rfl (by simp [hconsumer])
    · exact .consumer rfl
    · exact (h.chained.producers i).append rfl nofun
    · exact ⟨rfl, hne, adjacent_concat.mpr (Or.inr ⟨h.chained.head, rfl⟩), h.chained.last⟩
    · refine h.counted.congr (fun input => or_congr_left ?_) fun _ _ hi => hi
      rw [mem_append, mem_singleton, or_iff_left nofun]
  | storeLinkToDummy tail prevHead =>
    rw [hconsumer] at hfits
    obtain ⟨rfl, hne, hadjacent, hnone⟩ := hfits
    refine ⟨chain, h.chained.storeLink hadjacent hnone rfl rfl rfl rfl rfl (fun x y hx hlinking => ?_)
      (fun i => ?_) ⟨rfl, hne⟩, h.counted⟩
    · cases hlinking with
      | producer hproducer => exact .producer hproducer
      | consumer hother =>
        rw [hconsumer] at hother
        cases hother
        exact absurd rfl hx
    · exact (h.chained.producers i).storeLink h.chained.nodup hadjacent rfl nofun
  | loadNextAgain tail =>
    rw [hconsumer] at hfits
    dsimp only
    cases hlink : queue.link tail with
    | none =>
      exact ⟨chain, h.of_consumer .idle (queue.returned ++ [none]) (by simp [hconsumer]) trivial
        (dequeued_false _)⟩
    | some next =>
      exact ⟨chain, h.of_consumer (.storeTail tail next) queue.returned (by simp [hconsumer])
        ⟨hfits.1, hfits.2, hlink⟩ rfl⟩

/-- **One step** keeps the invariant. -/
theorem Sound.step (h : Sound queue chain) (event : Event ι α) (hfresh : queue.Fresh event) :
    ∃ chain', Sound (queue.step event) chain' := by
  cases event with
  | enqueue i input =>
    rw [Queue.step]
    split
    · exact ⟨chain, h.enqueue ‹_› hfresh⟩
    · exact ⟨chain, h⟩
  | produce i => exact h.produce i
  | dequeue =>
    rw [Queue.step]
    split
    · exact ⟨chain, h.of_consumer .loadTail queue.returned (by simp [‹queue.consumer = _›]) trivial rfl⟩
    · exact ⟨chain, h⟩
  | consume => exact h.consume

/-! ### A `Dequeue` alone -/

omit [DecidableEq ι] [DecidableEq α] in
/-- Without a thread that has a link to store, only the last link is missing. -/
theorem Chained.eq_head (h : Chained queue chain) (hidle : ∀ i, queue.producers i = .idle)
    (hconsumer : ∀ tail prevHead, queue.consumer ≠ .storeLinkToDummy tail prevHead)
    (hnone : queue.link queue.tail = none) : queue.tail = queue.head := by
  by_contra hne
  have hlast : chain.getLast? ≠ some queue.tail := by
    rw [h.head]
    exact fun heq => hne (Option.some.inj heq).symm
  obtain ⟨y, hy⟩ := exists_adjacent h.tail_mem hlast
  rcases h.links _ y hy with hlink | ⟨-, hlinking⟩
  · rw [hnone] at hlink
    cases hlink
  · cases hlinking with
    | @producer i _ _ hproducer =>
      rw [hidle i] at hproducer
      cases hproducer
    | consumer hlinks => exact hconsumer _ _ hlinks

/-- Every node has been dequeued. -/
def Queue.Drained (queue : Queue ι α) : Prop :=
  ∀ input, queue.begun.count input = queue.dequeued.count (.item input)

/-- Where the consumer is while it is alone. -/
def Consumer.Alone (queue : Queue ι α) : Consumer α → Prop
  | idle => False
  | loadTail | loadNext _ | skipDummy _ | loadNextOfSkipped _ | storeTail _ _ => True
  | loadHead tail | storeNullOfDummy tail | exchangeDummy tail => tail = queue.head
  | storeLinkToDummy tail prevHead => tail = prevHead
  | loadNextAgain tail => queue.link tail = some .dummy

/-- **A `Dequeue` that runs alone** has not returned yet, or has, and then false only if nothing is left. -/
structure Quiet (returned : List (Option (Node α))) (queue : Queue ι α) : Prop where
  idle : ∀ i, queue.producers i = .idle
  result : (queue.returned = returned ∧ queue.consumer.Alone queue) ∨
    (queue.consumer = .idle ∧ ∃ result, queue.returned = returned ++ [result] ∧ (result = none → queue.Drained))

omit [DecidableEq ι] in
/-- **An access of a `Dequeue` that runs alone**. -/
theorem Quiet.consume (hquiet : Quiet returned queue) (h : Sound queue chain) : Quiet returned queue.consume := by
  obtain ⟨hidle, ⟨hreturned, halone⟩ | ⟨hdone, hresult⟩⟩ := hquiet
  swap
  · rw [Queue.consume, hdone]
    exact ⟨hidle, Or.inr ⟨hdone, hresult⟩⟩
  have hfits := h.chained.consumer
  rw [Queue.consume]
  cases hconsumer : queue.consumer with
  | idle =>
    rw [hconsumer] at halone
    exact halone.elim
  | loadTail => exact ⟨hidle, Or.inl ⟨hreturned, trivial⟩⟩
  | loadNext tail =>
    rw [hconsumer] at hfits
    have htail : tail = queue.tail := hfits
    dsimp only
    cases hlink : queue.link tail with
    | none =>
      have hhead := h.chained.eq_head hidle (by simp [hconsumer]) (htail ▸ hlink)
      split_ifs with hdummy
      · refine ⟨hidle, Or.inr ⟨rfl, none, by rw [hreturned], fun _ input => ?_⟩⟩
        rw [Queue.dequeued, dequeued_false]
        refine h.counted.free input ?_
        rintro (hin | ⟨i, hi⟩)
        · rw [h.chained.eq_singleton hhead, ← htail, hdummy, mem_singleton] at hin
          cases hin
        · rw [Queue.inputs, hidle i] at hi
          cases hi
      · exact ⟨hidle, Or.inl ⟨hreturned, htail.trans hhead⟩⟩
    | some next =>
      split_ifs with hdummy
      · exact ⟨hidle, Or.inl ⟨hreturned, trivial⟩⟩
      · exact ⟨hidle, Or.inl ⟨hreturned, trivial⟩⟩
  | skipDummy next => exact ⟨hidle, Or.inl ⟨hreturned, trivial⟩⟩
  | loadNextOfSkipped tail =>
    rw [hconsumer] at hfits
    dsimp only
    cases hlink : queue.link tail with
    | none =>
      have hhead := h.chained.eq_head hidle (by simp [hconsumer]) (hfits.1 ▸ hlink)
      exact ⟨hidle, Or.inl ⟨hreturned, hfits.1.trans hhead⟩⟩
    | some next => exact ⟨hidle, Or.inl ⟨hreturned, trivial⟩⟩
  | storeTail tail next => exact ⟨hidle, Or.inr ⟨rfl, some tail, by rw [hreturned], nofun⟩⟩
  | loadHead tail =>
    rw [hconsumer] at halone
    have hhead : tail = queue.head := halone
    dsimp only
    rw [if_pos hhead]
    exact ⟨hidle, Or.inl ⟨hreturned, hhead⟩⟩
  | storeNullOfDummy tail =>
    rw [hconsumer] at halone
    exact ⟨hidle, Or.inl ⟨hreturned, halone⟩⟩
  | exchangeDummy tail =>
    rw [hconsumer] at halone
    exact ⟨hidle, Or.inl ⟨hreturned, halone⟩⟩
  | storeLinkToDummy tail prevHead =>
    rw [hconsumer] at halone
    refine ⟨hidle, Or.inl ⟨hreturned, ?_⟩⟩
    rw [show tail = prevHead from halone]
    exact update_self _ _ _
  | loadNextAgain tail =>
    rw [hconsumer] at halone
    have hlink : queue.link tail = some .dummy := halone
    dsimp only
    rw [hlink]
    exact ⟨hidle, Or.inl ⟨hreturned, trivial⟩⟩

/-! ### Runs -/

omit [DecidableEq ι] in
/-- The nodes that were exchanged have been enqueued, and are dequeued or in the queue. -/
theorem Sound.count_le (h : Sound queue chain) (input : α) :
    queue.dequeued.count (.item input) ≤ queue.exchanged.count input ∧
      queue.exchanged.count input ≤ queue.begun.count input := by
  have hinjective : Function.Injective (Node.item : α → Node α) := fun _ _ heq => Node.item.inj heq
  have hcount : queue.exchanged.count input =
      queue.dequeued.count (.item input) + (items chain).count (.item input) := by
    rw [← count_append, ← h.chained.order, count_map_of_injective _ _ hinjective]
  refine ⟨by omega, ?_⟩
  by_cases hin : .item input ∈ chain
  · have hone := nodup_iff_count_le_one.mp (h.chained.nodup.filter Node.isItem) (.item input)
    have hbusy := h.counted.busy input (Or.inl hin)
    rw [items] at hcount
    omega
  · have hzero : (items chain).count (.item input) = 0 :=
      count_eq_zero_of_not_mem fun hmem => hin (mem_filter.mp hmem).1
    by_cases hbusy : Busy chain queue.inputs input
    · have hmore := h.counted.busy input hbusy
      omega
    · have heq := h.counted.free input hbusy
      omega

/-- **The queue loses and duplicates nothing**: in every interleaving in which a node is enqueued again only
after it was dequeued, `Dequeue` never returns the dummy, returns nodes in the order of the exchanges of
their producers, each as often as it was enqueued at most and not before, and if no `Enqueue` is in progress
while it runs, it is false only if every node has been dequeued. -/
theorem dequeues_in_order (link : α → Option (Node α)) (events : List (Event ι α))
    (hfresh : Run.Along Queue.step Queue.Fresh (Queue.new link) events) :
    let queue := events.foldl Queue.step (Queue.new link)
    .dummy ∉ queue.dequeued ∧ queue.dequeued <+: queue.exchanged.map Node.item ∧
    (∀ input, queue.dequeued.count (.item input) ≤ queue.exchanged.count input ∧
      queue.exchanged.count input ≤ queue.begun.count input) ∧
    ((∀ i, queue.producers i = .idle) → queue.consumer = .idle → ∀ n,
      let after := (Event.dequeue :: List.replicate n .consume).foldl Queue.step queue
      after.returned = queue.returned ++ [none] → after.Drained) := by
  intro queue
  obtain ⟨chain, h⟩ : ∃ chain, Sound queue chain :=
    hfresh.invariant (fun queue => ∃ chain, Sound queue chain) (fun _ event ⟨_, hs⟩ he => hs.step event he)
      ⟨_, sound_new link⟩
  refine ⟨fun hin => ?_, ?_, h.count_le, fun hidle hconsumer n => ?_⟩
  · have hmem : .dummy ∈ queue.exchanged.map Node.item := by
      rw [h.chained.order]
      exact mem_append_left _ hin
    obtain ⟨_, -, heq⟩ := mem_map.mp hmem
    cases heq
  · rw [h.chained.order]
    exact prefix_append _ _
  · -- all steps are those of the consumer
    have hrun : ∀ n, ∃ chain', Sound
        ((Event.dequeue :: List.replicate n .consume).foldl Queue.step queue) chain' ∧
        Quiet queue.returned ((Event.dequeue :: List.replicate n .consume).foldl Queue.step queue) := by
      intro n
      induction n with
      | zero =>
        obtain ⟨chain', hstarted⟩ := h.step .dequeue trivial
        refine ⟨chain', hstarted, ?_⟩
        simp only [foldl_cons, Queue.step, hconsumer]
        exact ⟨hidle, Or.inl ⟨rfl, trivial⟩⟩
      | succ n ih =>
        obtain ⟨chain', hsound, hquiet⟩ := ih
        rw [replicate_succ', ← cons_append, foldl_append]
        obtain ⟨chain'', hnext⟩ := hsound.step .consume trivial
        exact ⟨chain'', hnext, hquiet.consume hsound⟩
    intro after hfalse
    obtain ⟨-, -, hquiet⟩ := hrun n
    rcases hquiet.result with ⟨hsame, -⟩ | ⟨-, result, hreturned, hdrained⟩
    · rw [hsame] at hfalse
      exact absurd (self_eq_append_right.mp hfalse) nofun
    · refine hdrained ?_
      rw [hreturned] at hfalse
      exact singleton_inj.mp (append_cancel_left hfalse)

section Example

/-- Two producers, of which one is interrupted between its exchange and its link while the consumer appends
the dummy. -/
theorem dequeues_in_order_interrupted :
    let queue := [Event.enqueue 0 7, .produce 0, .produce 0, .produce 0, .dequeue, .consume, .consume, .consume,
      .consume, .consume, .consume, .enqueue 1 9, .produce 1, .produce 1, .consume, .consume, .consume,
      .produce 1, .dequeue, .consume, .consume, .consume, .enqueue 0 7].foldl Queue.step
        (Queue.new fun _ => none : Queue ℕ ℕ)
    .dummy ∉ queue.dequeued ∧ queue.dequeued <+: queue.exchanged.map Node.item ∧
    (∀ input, queue.dequeued.count (.item input) ≤ queue.exchanged.count input ∧
      queue.exchanged.count input ≤ queue.begun.count input) ∧
    ((∀ i, queue.producers i = .idle) → queue.consumer = .idle → ∀ n,
      let after := (Event.dequeue :: List.replicate n .consume).foldl Queue.step queue
      after.returned = queue.returned ++ [none] → after.Drained) :=
  dequeues_in_order _ _ (by decide)

end Example

end IscServer.Threading
