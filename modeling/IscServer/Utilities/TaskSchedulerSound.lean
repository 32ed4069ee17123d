import IscServer.Library.Run
import IscServer.Utilities.TaskScheduler

/-!
# Callables that Modify their Scheduler

A callable runs while it still stands at the front of the asynchronous queue, and the front of the
queue is popped when it returns. As long as the callable only adds to the queue, the pop removes
the callable itself. A callable that calls `CancelAll` empties the queue it stands in: the pop then
finds an empty queue, or it takes a callable that was registered since and has not been run.

## Main results

* `Session.Tidy` — how the numbers of the callables stand; every call keeps it (`Tidy.call`).
* `Session.calls_queue` — what the calls of a callable make of the queue.
* `Session.accounted_asyncRound_iff` — one round of the loop loses no callable exactly if the
  callable it runs does not call `CancelAll`.
* `Session.safe_run_iff` — runs.
* `Session.cancel_then_add` — a callable that cancels everything and registers another one.
-/

namespace IscServer.Utilities

open List

namespace Session

/-! ### One call -/

/-- How the numbers of the callables stand while one of them may be running: those that wait are in
the order of their registration, and a callable that was cancelled does not wait any more. -/
structure Tidy (s : Session) : Prop where
  queue_sorted : s.queue.Pairwise (· < ·)
  queue_lt : ∀ n ∈ s.queue, n < s.registered
  cancelled_lt : ∀ n ∈ s.cancelled, n < s.registered
  cancelled_gone : ∀ n ∈ s.cancelled, n ∉ s.queue
  ran_sorted : s.ran.Pairwise (· < ·)
  ran_lt : ∀ n ∈ s.ran, n < s.registered

variable (s : Session)

variable (c : SchedulerCall)

@[simp] theorem call_ran : (s.call c).ran = s.ran := by
  cases c <;> rfl

@[simp] theorem call_undefinedPop : (s.call c).undefinedPop = s.undefinedPop := by
  cases c <;> rfl

/-- What a call does to the numbers: it registers one more callable, it moves all that wait to the
cancelled ones, or it does nothing to them. -/
theorem call_cases :
    (c ≠ .cancelAll ∧ (s.call c).queue = s.queue ++ [s.registered] ∧
      (s.call c).registered = s.registered + 1 ∧ (s.call c).cancelled = s.cancelled) ∨
    (c = .cancelAll ∧ (s.call c).queue = [] ∧ (s.call c).registered = s.registered ∧
      (s.call c).cancelled = s.cancelled ++ s.queue.filter fun n => n ∉ s.ran) ∨
    (c ≠ .cancelAll ∧ (s.call c).queue = s.queue ∧ (s.call c).registered = s.registered ∧
      (s.call c).cancelled = s.cancelled) := by
  cases c with
  | async => exact .inl ⟨nofun, rfl, rfl, rfl⟩
  | cancelAll => exact .inr (.inl ⟨rfl, rfl, rfl, rfl⟩)
  | schedule time group task => exact .inr (.inr ⟨nofun, rfl, rfl, rfl⟩)
  | cancelGroup group => exact .inr (.inr ⟨nofun, rfl, rfl, rfl⟩)
  | insertTask t => exact .inr (.inr ⟨nofun, rfl, rfl, rfl⟩)

theorem call_registered_le : s.registered ≤ (s.call c).registered := by
  obtain ⟨-, -, hreg, -⟩ | ⟨-, -, hreg, -⟩ | ⟨-, -, hreg, -⟩ := s.call_cases c <;> omega

/-- Every call keeps the numbers in order. -/
theorem Tidy.call {s : Session} (h : s.Tidy) (c : SchedulerCall) : (s.call c).Tidy := by
  have hle := s.call_registered_le c
  have hran : ∀ n ∈ (s.call c).ran, n < (s.call c).registered := by
    intro n hn
    rw [call_ran] at hn
    exact lt_of_lt_of_le (h.ran_lt n hn) hle
  have hsorted : (s.call c).ran.Pairwise (· < ·) := by
    rw [call_ran]
    exact h.ran_sorted
  obtain ⟨-, hqueue, hreg, hcan⟩ | ⟨-, hqueue, hreg, hcan⟩ | ⟨-, hqueue, hreg, hcan⟩ :=
    s.call_cases c
  · refine ⟨?_, ?_, ?_, ?_, hsorted, hran⟩
    · rw [hqueue]
      refine pairwise_append.mpr ⟨h.queue_sorted, pairwise_singleton _ _, ?_⟩
      intro a ha b hb
      obtain rfl := mem_singleton.mp hb
      exact h.queue_lt a ha
    · intro n hn
      rw [hqueue, mem_append, mem_singleton] at hn
      rcases hn with hn | rfl
      · exact lt_of_lt_of_le (h.queue_lt n hn) hle
      · omega
    · intro n hn
      rw [hcan] at hn
      exact lt_of_lt_of_le (h.cancelled_lt n hn) hle
    · intro n hn hwaits
      rw [hcan] at hn
      rw [hqueue, mem_append, mem_singleton] at hwaits
      rcases hwaits with hwaits | rfl
      · exact h.cancelled_gone n hn hwaits
      · exact absurd (h.cancelled_lt _ hn) (lt_irrefl _)
  · refine ⟨?_, ?_, ?_, ?_, hsorted, hran⟩
    · rw [hqueue]
      exact List.Pairwise.nil
    · intro n hn
      rw [hqueue] at hn
      exact absurd hn not_mem_nil
    · intro n hn
      rw [hcan, mem_append, mem_filter] at hn
      rw [hreg]
      rcases hn with hn | ⟨hn, -⟩
      · exact h.cancelled_lt n hn
      · exact h.queue_lt n hn
    · intro n _ hwaits
      rw [hqueue] at hwaits
      exact absurd hwaits not_mem_nil
  · refine ⟨?_, ?_, ?_, ?_, hsorted, hran⟩
    · rw [hqueue]
      exact h.queue_sorted
    · rw [hqueue, hreg]
      exact h.queue_lt
    · rw [hcan, hreg]
      exact h.cancelled_lt
    · rw [hcan, hqueue]
      exact h.cancelled_gone

/-- A call loses no callable, and finds none that was lost. -/
theorem accounted_call_iff : (s.call c).Accounted ↔ s.Accounted := by
  unfold Accounted
  rw [call_ran]
  obtain ⟨-, hqueue, hreg, hcan⟩ | ⟨-, hqueue, hreg, hcan⟩ | ⟨-, hqueue, hreg, hcan⟩ :=
    s.call_cases c
  · rw [hqueue, hreg, hcan]
    constructor
    · intro h n hn
      rcases h n (by omega) with hran | hcan | hwaits
      · exact .inl hran
      · exact .inr (.inl hcan)
      · rw [mem_append, mem_singleton] at hwaits
        rcases hwaits with hwaits | rfl
        · exact .inr (.inr hwaits)
        · exact absurd hn (lt_irrefl _)
    · intro h n hn
      rcases Nat.lt_succ_iff_lt_or_eq.mp hn with hn | rfl
      · rcases h n hn with hran | hcan | hwaits
        · exact .inl hran
        · exact .inr (.inl hcan)
        · exact .inr (.inr (mem_append_left _ hwaits))
      · exact .inr (.inr (mem_append_right _ mem_cons_self))
  · rw [hqueue, hreg, hcan]
    refine forall_congr' fun n => imp_congr_right fun _ => ?_
    by_cases hran : n ∈ s.ran <;> simp [hran]
  · rw [hqueue, hreg, hcan]

/-! ### The calls of one function -/

theorem calls_cons (cs : List SchedulerCall) : s.calls (c :: cs) = (s.call c).calls cs := rfl

variable (cs : List SchedulerCall)

theorem calls_ran : (s.calls cs).ran = s.ran := by
  induction cs generalizing s with
  | nil => rfl
  | cons c cs ih => rw [calls_cons, ih, call_ran]

theorem calls_undefinedPop : (s.calls cs).undefinedPop = s.undefinedPop := by
  induction cs generalizing s with
  | nil => rfl
  | cons c cs ih => rw [calls_cons, ih, call_undefinedPop]

theorem Tidy.calls {s : Session} (h : s.Tidy) (cs : List SchedulerCall) : (s.calls cs).Tidy := by
  induction cs generalizing s with
  | nil => exact h
  | cons c cs ih => exact ih (h.call c)

theorem accounted_calls_iff : (s.calls cs).Accounted ↔ s.Accounted := by
  induction cs generalizing s with
  | nil => exact Iff.rfl
  | cons c cs ih => rw [calls_cons, ih, accounted_call_iff]

/-- **What the calls of a function make of the queue**: callables registered since stand behind
those that waited before, which are gone if there was a `CancelAll`. -/
theorem calls_queue :
    ∃ new, (s.calls cs).queue = (if SchedulerCall.cancelAll ∈ cs then [] else s.queue) ++ new ∧
      ∀ n ∈ new, s.registered ≤ n := by
  induction cs generalizing s with
  | nil => exact ⟨[], by simp [calls], by simp⟩
  | cons c cs ih =>
    obtain ⟨new, hqueue, hnew⟩ := ih (s.call c)
    have hle := s.call_registered_le c
    have hlater : ∀ n ∈ new, s.registered ≤ n := fun n hn => hle.trans (hnew n hn)
    rw [calls_cons, hqueue]
    by_cases hcs : SchedulerCall.cancelAll ∈ cs
    · exact ⟨new, by rw [if_pos hcs, if_pos (mem_cons_of_mem c hcs)], hlater⟩
    rw [if_neg hcs]
    obtain ⟨hc, hq, -, -⟩ | ⟨rfl, hq, -, -⟩ | ⟨hc, hq, -, -⟩ := s.call_cases c
    · have hall : SchedulerCall.cancelAll ∉ c :: cs := not_mem_cons_of_ne_of_not_mem hc.symm hcs
      refine ⟨s.registered :: new, ?_, forall_mem_cons.mpr ⟨le_refl _, hlater⟩⟩
      rw [hq, if_neg hall, append_assoc, singleton_append]
    · exact ⟨new, by rw [hq, if_pos mem_cons_self], hlater⟩
    · have hall : SchedulerCall.cancelAll ∉ c :: cs := not_mem_cons_of_ne_of_not_mem hc.symm hcs
      exact ⟨new, by rw [hq, if_neg hall], hlater⟩

/-! ### One round of the asynchronous loop -/

/-- Between two rounds, every callable that was run was registered before those that wait. -/
structure Ready (s : Session) : Prop extends s.Tidy where
  ahead : ∀ r ∈ s.ran, ∀ n ∈ s.queue, r < n

variable {callable : ℕ} {rest : List ℕ}

/-- While the front callable runs it counts as run and still stands in the queue. -/
theorem Ready.tidy_front {s : Session} (h : s.Ready) (hqueue : s.queue = callable :: rest) :
    { s with ran := s.ran ++ [callable] }.Tidy := by
  have hfront : callable ∈ s.queue := hqueue ▸ mem_cons_self
  refine ⟨h.queue_sorted, h.queue_lt, h.cancelled_lt, h.cancelled_gone, ?_, ?_⟩
  · refine pairwise_append.mpr ⟨h.ran_sorted, pairwise_singleton _ _, ?_⟩
    intro r hr n hn
    obtain rfl := mem_singleton.mp hn
    exact h.ahead r hr n hfront
  · intro n hn
    rcases mem_append.mp hn with hn | hn
    · exact h.ran_lt n hn
    · obtain rfl := mem_singleton.mp hn
      exact h.queue_lt n hfront

theorem accounted_front_iff {s : Session} (hqueue : s.queue = callable :: rest) :
    { s with ran := s.ran ++ [callable] }.Accounted ↔ s.Accounted := by
  refine forall_congr' fun n => imp_congr_right fun _ => ?_
  have hfront : callable ∈ s.queue := hqueue ▸ mem_cons_self
  show n ∈ s.ran ++ [callable] ∨ n ∈ s.cancelled ∨ n ∈ s.queue ↔ _
  rw [mem_append, mem_singleton]
  constructor
  · rintro ((hran | rfl) | hcan | hwaits)
    · exact .inl hran
    · exact .inr (.inr hfront)
    · exact .inr (.inl hcan)
    · exact .inr (.inr hwaits)
  · rintro (hran | hcan | hwaits)
    · exact .inl (.inl hran)
    · exact .inr (.inl hcan)
    · exact .inr (.inr hwaits)

/-- The validator changes only whether the loop goes on. -/
theorem validate_cases (valid : Bool) : ∃ loop, s.validate valid = { s with loop := loop } := by
  cases valid with
  | false => exact ⟨.idle, rfl⟩
  | true => exact ⟨s.loop, rfl⟩

theorem Ready.validate {s : Session} (h : s.Ready) (valid : Bool) : (s.validate valid).Ready := by
  obtain ⟨loop, heq⟩ := s.validate_cases valid
  rw [heq]
  exact ⟨⟨h.queue_sorted, h.queue_lt, h.cancelled_lt, h.cancelled_gone, h.ran_sorted, h.ran_lt⟩,
    h.ahead⟩

theorem accounted_validate_iff (valid : Bool) : (s.validate valid).Accounted ↔ s.Accounted := by
  obtain ⟨loop, heq⟩ := s.validate_cases valid
  rw [heq]
  exact Iff.rfl

theorem validate_undefinedPop (valid : Bool) :
    (s.validate valid).undefinedPop = s.undefinedPop := by
  obtain ⟨loop, heq⟩ := s.validate_cases valid
  rw [heq]

/-- What the front callable leaves behind in the queue, when the numbers stood in order. -/
theorem Ready.runFront {s : Session} (h : s.Ready) {callable : ℕ} {rest : List ℕ}
    (hqueue : s.queue = callable :: rest) (cs : List SchedulerCall) :
    (s.runFront callable cs).Tidy ∧ (s.runFront callable cs).ran = s.ran ++ [callable] ∧
      (s.runFront callable cs).undefinedPop = s.undefinedPop ∧
      ((s.runFront callable cs).Accounted ↔ s.Accounted) ∧
      ∃ new, (s.runFront callable cs).queue =
        (if SchedulerCall.cancelAll ∈ cs then [] else callable :: rest) ++ new ∧
        ∀ n ∈ new, s.registered ≤ n := by
  refine ⟨(h.tidy_front hqueue).calls cs, calls_ran _ cs, calls_undefinedPop _ cs, ?_, ?_⟩
  · exact (accounted_calls_iff _ cs).trans (accounted_front_iff hqueue)
  · obtain ⟨new, heq, hnew⟩ := calls_queue { s with ran := s.ran ++ [callable] } cs
    refine ⟨new, ?_, hnew⟩
    rw [← hqueue]
    exact heq

/-- A round of the asynchronous loop that finds an empty queue at its pop. -/
theorem asyncRound_of_empty {s : Session} {callable : ℕ} {cs : List SchedulerCall} {valid : Bool}
    (hempty : (s.runFront callable cs).queue = []) :
    s.asyncRound callable cs valid = { s.runFront callable cs with undefinedPop := true } := by
  have hpop : (s.runFront callable cs).scheduler.popAsync = none := by
    unfold TaskScheduler.popAsync
    rw [show (s.runFront callable cs).scheduler.asyncHolder = [] from hempty]
  unfold asyncRound
  simp only [hpop]

variable {left : List ℕ}

/-- A round of the asynchronous loop that pops `first`. -/
theorem asyncRound_of_cons {s : Session} {first : ℕ} {cs : List SchedulerCall} {valid : Bool}
    (hcons : (s.runFront callable cs).queue = first :: left) :
    s.asyncRound callable cs valid =
      { s.runFront callable cs with
        scheduler := { (s.runFront callable cs).scheduler with asyncHolder := left } }.validate
          valid := by
  have hpop : (s.runFront callable cs).scheduler.popAsync =
      some { (s.runFront callable cs).scheduler with asyncHolder := left } := by
    unfold TaskScheduler.popAsync
    rw [show (s.runFront callable cs).scheduler.asyncHolder = first :: left from hcons]
  unfold asyncRound
  simp only [hpop]

/-- After the pop the numbers stand in order again when the callables left wait behind those that
were run. -/
theorem Tidy.ready_pop {s : Session} (h : s.Tidy) {first : ℕ} (hcons : s.queue = first :: left)
    (hahead : ∀ r ∈ s.ran, ∀ n ∈ left, r < n) :
    { s with scheduler := { s.scheduler with asyncHolder := left } }.Ready := by
  have hsub : ∀ n ∈ left, n ∈ s.queue := fun n hn => hcons ▸ mem_cons_of_mem first hn
  refine ⟨⟨?_, fun n hn => h.queue_lt n (hsub n hn), h.cancelled_lt,
    fun n hn hwaits => h.cancelled_gone n hn (hsub n hwaits), h.ran_sorted, h.ran_lt⟩, hahead⟩
  have hsorted := h.queue_sorted
  rw [hcons] at hsorted
  exact hsorted.of_cons

/-- **One round of the asynchronous loop** keeps the numbers in order, pops from a queue that is
not empty and loses no callable exactly if the callable that it runs does not call `CancelAll`. -/
theorem accounted_asyncRound_iff {s : Session} (h : s.Ready) (hqueue : s.queue = callable :: rest)
    (hdef : s.undefinedPop = false) (cs : List SchedulerCall) (valid : Bool) :
    (s.asyncRound callable cs valid).Ready ∧
      ((s.asyncRound callable cs valid).undefinedPop = false ∧
        (s.asyncRound callable cs valid).Accounted ↔
          s.Accounted ∧ SchedulerCall.cancelAll ∉ cs) := by
  obtain ⟨htidy, hran, hundef, hacc, new, hnew, hle⟩ := h.runFront hqueue cs
  have hbefore : ∀ r ∈ (s.runFront callable cs).ran, r < s.registered := by
    rw [hran]
    exact (h.tidy_front hqueue).ran_lt
  by_cases hcancel : SchedulerCall.cancelAll ∈ cs
  · rw [if_pos hcancel, nil_append] at hnew
    cases new with
    | nil =>
      rw [asyncRound_of_empty hnew]
      refine ⟨⟨⟨htidy.queue_sorted, htidy.queue_lt, htidy.cancelled_lt, htidy.cancelled_gone,
        htidy.ran_sorted, htidy.ran_lt⟩, fun r _ n hn => ?_⟩, ?_⟩
      · rw [show n ∈ (s.runFront callable cs).queue ↔ n ∈ [] by rw [hnew]] at hn
        exact absurd hn not_mem_nil
      · exact iff_of_false (fun hsafe => Bool.noConfusion hsafe.1) (fun hkeep => hkeep.2 hcancel)
    | cons first left =>
      have hfirst : first ∈ (s.runFront callable cs).queue := hnew ▸ mem_cons_self
      rw [asyncRound_of_cons hnew]
      constructor
      · refine (htidy.ready_pop hnew fun r hr n hn => ?_).validate valid
        exact lt_of_lt_of_le (hbefore r hr) (hle n (mem_cons_of_mem first hn))
      · refine iff_of_false (fun hsafe => ?_) (fun hkeep => hkeep.2 hcancel)
        -- the popped callable was registered while the front one ran, and is nowhere any more
        rcases (accounted_validate_iff _ valid).mp hsafe.2 first (htidy.queue_lt first hfirst) with
          hran' | hcan | hwaits
        · exact absurd (hbefore first hran') (not_lt.mpr (hle first mem_cons_self))
        · exact htidy.cancelled_gone first hcan hfirst
        · have hsorted := htidy.queue_sorted
          rw [hnew] at hsorted
          exact absurd ((pairwise_cons.mp hsorted).1 first hwaits) (lt_irrefl _)
  · rw [if_neg hcancel, cons_append] at hnew
    rw [asyncRound_of_cons hnew]
    constructor
    · refine (htidy.ready_pop hnew fun r hr n hn => ?_).validate valid
      have hsorted := htidy.queue_sorted
      rw [hnew] at hsorted
      rw [hran, mem_append, mem_singleton] at hr
      rcases hr with hr | rfl
      · have hfront := h.ahead r hr callable (hqueue ▸ mem_cons_self)
        exact hfront.trans ((pairwise_cons.mp hsorted).1 n hn)
      · exact (pairwise_cons.mp hsorted).1 n hn
    · rw [validate_undefinedPop, accounted_validate_iff, ← hacc]
      constructor
      · rintro ⟨-, hpop⟩
        refine ⟨fun n hn => ?_, hcancel⟩
        rcases hpop n hn with hran' | hcan | hwaits
        · exact .inl hran'
        · exact .inr (.inl hcan)
        · exact .inr (.inr (hnew ▸ mem_cons_of_mem callable hwaits))
      · rintro ⟨hall, -⟩
        refine ⟨hundef.trans hdef, fun n hn => ?_⟩
        rcases hall n hn with hran' | hcan | hwaits
        · exact .inl hran'
        · exact .inr (.inl hcan)
        · rw [hnew, mem_cons] at hwaits
          rcases hwaits with rfl | hwaits
          · exact .inl (hran ▸ mem_append_right _ mem_cons_self)
          · exact .inr (.inr hwaits)

/-! ### Runs -/

/-- Calls from outside of the asynchronous loop keep the numbers in order. -/
theorem Ready.calls {s : Session} (h : s.Ready) (cs : List SchedulerCall) : (s.calls cs).Ready := by
  refine ⟨h.toTidy.calls cs, fun r hr n hn => ?_⟩
  obtain ⟨new, hqueue, hnew⟩ := calls_queue s cs
  rw [calls_ran] at hr
  rw [hqueue, mem_append] at hn
  rcases hn with hn | hn
  · split_ifs at hn with hcancel
    · exact absurd hn not_mem_nil
    · exact h.ahead r hr n hn
  · exact lt_of_lt_of_le (h.ran_lt r hr) (hnew n hn)

/-- The place of the program and the containers of tasks are nothing to the callables. -/
theorem Ready.congr {s s' : Session} (h : s.Ready) (hqueue : s'.queue = s.queue)
    (hreg : s'.registered = s.registered) (hran : s'.ran = s.ran)
    (hcan : s'.cancelled = s.cancelled) : s'.Ready := by
  refine ⟨⟨?_, ?_, ?_, ?_, ?_, ?_⟩, ?_⟩
  · rw [hqueue]
    exact h.queue_sorted
  · rw [hqueue, hreg]
    exact h.queue_lt
  · rw [hcan, hreg]
    exact h.cancelled_lt
  · rw [hcan, hqueue]
    exact h.cancelled_gone
  · rw [hran]
    exact h.ran_sorted
  · rw [hran, hreg]
    exact h.ran_lt
  · rw [hran, hqueue]
    exact h.ahead

/-- A round of the loop over the tasks is a series of calls, as far as the callables go. -/
theorem taskRound_spec {s : Session} (h : s.Ready) (cs : List SchedulerCall) (valid : Bool) :
    (s.taskRound cs valid).Ready ∧ (s.taskRound cs valid).undefinedPop = s.undefinedPop ∧
      ((s.taskRound cs valid).Accounted ↔ s.Accounted) := by
  have hidle : ({ s with loop := .idle } : Session).Ready := h.congr rfl rfl rfl rfl
  have hfinish : ({ s with loop := .idle }.calls cs).Ready ∧
      ({ s with loop := .idle }.calls cs).undefinedPop = s.undefinedPop ∧
      (({ s with loop := .idle }.calls cs).Accounted ↔ s.Accounted) :=
    ⟨hidle.calls cs, calls_undefinedPop _ cs, accounted_calls_iff _ cs⟩
  unfold taskRound
  split
  · exact hfinish
  · rename_i first rest htasks
    split_ifs
    · exact hfinish
    · have hpopped : ({ s with scheduler := { s.scheduler with taskHolder := rest } } : Session).Ready :=
        h.congr rfl rfl rfl rfl
      refine ⟨(hpopped.calls cs).validate valid, ?_, ?_⟩
      · rw [validate_undefinedPop, calls_undefinedPop]
      · rw [accounted_validate_iff]
        exact accounted_calls_iff _ cs

/-- **One action** keeps the numbers in order, and it keeps the queue safe exactly if it does not
run a callable that calls `CancelAll`. -/
theorem safe_step_iff {s : Session} (h : s.Ready) (a : SessionAct) :
    (s.step a).Ready ∧
      ((s.step a).undefinedPop = false ∧ (s.step a).Accounted ↔
        (s.undefinedPop = false ∧ s.Accounted) ∧ s.KeepsQueue a) := by
  by_cases hundef : s.undefinedPop = true
  · unfold step
    rw [if_pos hundef]
    refine ⟨h, iff_of_false (fun hsafe => ?_) (fun hsafe => ?_)⟩
    · exact Bool.noConfusion (hsafe.1.symm.trans hundef)
    · exact Bool.noConfusion (hsafe.1.1.symm.trans hundef)
  have hdef : s.undefinedPop = false := Bool.eq_false_of_not_eq_true hundef
  unfold step
  rw [if_neg hundef]
  have hother : ∀ s' : Session, s'.undefinedPop = s.undefinedPop → (s'.Accounted ↔ s.Accounted) →
      (s'.undefinedPop = false ∧ s'.Accounted ↔ (s.undefinedPop = false ∧ s.Accounted) ∧ True) := by
    intro s' hpop hacc
    rw [hpop, hacc, and_true]
  cases a with
  | call c =>
    exact ⟨h.calls [c], hother _ (call_undefinedPop s c) (accounted_call_iff s c)⟩
  | update difftime valid =>
    split_ifs with hidle
    · exact ⟨h.congr rfl rfl rfl rfl, hother _ rfl Iff.rfl⟩
    · exact ⟨h, hother _ rfl Iff.rfl⟩
  | iterate cs valid =>
    show (s.iterate cs valid).Ready ∧ _
    unfold iterate
    cases hloop : s.loop with
    | idle =>
      refine ⟨h, ?_⟩
      have hkeeps : s.KeepsQueue (.iterate cs valid) := fun _ hasyncs =>
        absurd (hloop.symm.trans hasyncs) nofun
      exact (and_iff_left hkeeps).symm
    | tasks =>
      obtain ⟨hready, hpop, hacc⟩ := taskRound_spec h cs valid
      have hkeeps : s.KeepsQueue (.iterate cs valid) := fun _ hasyncs =>
        absurd (hloop.symm.trans hasyncs) nofun
      refine ⟨hready, ?_⟩
      rw [hother _ hpop hacc, and_true]
      exact (and_iff_left hkeeps).symm
    | asyncs =>
      cases hqueue : s.queue with
      | nil =>
        have hkeeps : s.KeepsQueue (.iterate cs valid) := fun _ _ hne => absurd hqueue hne
        exact ⟨h.congr rfl rfl rfl rfl, (and_iff_left hkeeps).symm⟩
      | cons callable rest =>
        obtain ⟨hready, hiff⟩ := accounted_asyncRound_iff h hqueue hdef cs valid
        have hkeeps : s.KeepsQueue (.iterate cs valid) ↔ SchedulerCall.cancelAll ∉ cs := by
          refine ⟨fun hk => hk hdef hloop ?_, fun hk _ _ _ => hk⟩
          rw [hqueue]
          exact cons_ne_nil _ _
        refine ⟨hready, hiff.trans ?_⟩
        rw [hkeeps]
        exact ⟨fun hk => ⟨⟨hdef, hk.1⟩, hk.2⟩, fun hk => ⟨hk.1.2, hk.2⟩⟩

theorem ready_fresh (now : ℤ) : (fresh now).Ready := by
  refine ⟨⟨List.Pairwise.nil, ?_, ?_, ?_, List.Pairwise.nil, ?_⟩, ?_⟩ <;>
    exact fun n hn => absurd hn not_mem_nil

/-- **Runs**: after any sequence of actions the queue was never popped while it was empty, the
callables were run in the order of their registration, each at most once, and every callable was
run, was removed by a `CancelAll` or waits — exactly if no callable that was run called
`CancelAll`. -/
theorem safe_run_iff (now : ℤ) (acts : List SessionAct) :
    (acts.foldl step (fresh now)).Safe ↔ Run.Along step KeepsQueue (fresh now) acts := by
  have hready := List.foldlRecOn (motive := Ready) acts step (ready_fresh now)
    fun s hs a _ => (safe_step_iff hs a).1
  have hrun := Run.foldl_iff_along (P := KeepsQueue)
    (G := fun s => s.undefinedPop = false ∧ s.Accounted) Ready
    (fun s a hs => (safe_step_iff hs a).1) (fun s a hs => (safe_step_iff hs a).2) acts
    (ready_fresh now)
  have hstart : (fresh now).Accounted := fun n hn => absurd hn (Nat.not_lt_zero n)
  constructor
  · exact fun hsafe => (hrun.mp ⟨hsafe.defined, hsafe.accounted⟩).2
  · intro halong
    obtain ⟨hdef, hacc⟩ := hrun.mpr ⟨⟨rfl, hstart⟩, halong⟩
    exact ⟨hdef, hready.ran_sorted, hacc⟩

/-- **Cancel, then add**: a callable cancels everything and registers another one; the pop that
follows removes the new callable, which is neither run nor cancelled. -/
theorem cancel_then_add :
    ¬ ([SessionAct.call .async, .update 1 true, .iterate [.cancelAll, .async] true].foldl step
      (fresh 0)).Safe := by
  intro hsafe
  rcases hsafe.accounted 1 (by decide) with hran | hcan | hwaits
  · exact absurd hran (by decide)
  · exact absurd hcan (by decide)
  · exact absurd hwaits (by decide)

/-- A callable that only cancels leaves an empty queue for the pop. -/
example : ([SessionAct.call .async, .update 1 true, .iterate [.cancelAll] true].foldl step
    (fresh 0)).undefinedPop = true := by
  decide

end Session

end IscServer.Utilities
