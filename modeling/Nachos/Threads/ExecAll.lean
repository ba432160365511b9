import Nachos.Threads.RunningPrograms

/-! `ExecAll` makes a thread for each program, and with its option to exit the machine halts when
no program is counted as running: whether all programs are done by then.
-/

namespace Nachos.Threads

-----------------------------------------------------------------------------------------
-- The main thread
-----------------------------------------------------------------------------------------

/-- Where the main thread is. -/
inductive Stage where
  /-- Before `ExecAll`. -/
  | booting
  /-- In the loop of `ExecAll`. -/
  | looping
  /-- `Exec`, after it made a thread. -/
  | made (t : ThreadId)
  /-- `Exec`, after `setIsExec`. -/
  | marked (t : ThreadId)
  /-- It called `Finish`. -/
  | finished
  deriving DecidableEq

/-- The kernel, and what its main thread has still to do. -/
structure Session where
  kernel : Kernel
  main : ThreadId
  stage : Stage
  /-- The priorities of the programs for which `ExecAll` has not called `Exec`. -/
  programs : List Int

namespace Session

inductive Command where
  /-- Any step but one of `ExecAll`. -/
  | other (action : Kernel.Action)
  /-- The next call in `ExecAll`, where a new thread gets the address `t`. -/
  | execAll (t : ThreadId)

/-- One round of the loop of `ExecAll`, up to the first call in it. -/
def loop (t : ThreadId) (session : Session) : Kernel.Call × Stage × List Int :=
  match session.programs with
  | [] => (.finish, .finished, [])
  | priority :: rest => (.construct t priority, .made t, rest)

/-- The next call of `ExecAll`, and where it goes on after it. -/
def execAll (t : ThreadId) (session : Session) : Option (Kernel.Call × Stage × List Int) :=
  match session.stage with
  | .booting | .looping => some (session.loop t)
  | .made t => some (.setIsExec t, .marked t, session.programs)
  | .marked t => some (.fork t, .looping, session.programs)
  | .finished => none

/-- Calls that are made outside of `ExecAll`: by the main thread only before it, and never for
the thread that `Exec` is making.
-/
def Outside (session : Session) (call : Kernel.Call) : Prop :=
  (session.kernel.currentThread = session.main →
    session.stage = .booting ∨ session.stage = .finished)
  ∧ match call with
    | .setIsExec _ => False
    | .finish => session.kernel.currentThread = session.main → session.stage ≠ .booting
    | .fork t => session.stage ≠ .made t ∧ session.stage ≠ .marked t
    | _ => True

/-- The step of the kernel in a step of the session. -/
def action (session : Session) : Command → Option Kernel.Action
  | .other action => some action
  | .execAll t => (session.execAll t).map (fun (call, _) => .call call)

def Legal (session : Session) : Command → Prop
  | .other (.call call) => session.Outside call
  | .other _ => True
  | .execAll _ => session.kernel.currentThread = session.main

instance (session : Session) (call : Kernel.Call) : Decidable (session.Outside call) :=
  match call with
  | .setIsExec _ => .isFalse (fun outside => outside.2)
  | .finish => inferInstanceAs (Decidable (_ ∧ (_ → _)))
  | .fork _ => inferInstanceAs (Decidable (_ ∧ _ ∧ _))
  | .construct _ _ | .yield | .semaphore _ _ | .p _ | .v _ | .setLevel _
  | .setStatus _ | .oneTick | .halt => inferInstanceAs (Decidable (_ ∧ True))

instance (session : Session) (command : Command) : Decidable (session.Legal command) :=
  match command with
  | .other (.call call) => inferInstanceAs (Decidable (session.Outside call))
  | .execAll _ => inferInstanceAs (Decidable (_ = _))
  | .other .resume | .other .timer | .other (.device _) | .other .handled | .other .findNext
  | .other (.advance _) | .other .noInterrupts => .isTrue trivial

/-- A step of the kernel, after which the main thread is where the command left it. -/
def Step (session : Session) (command : Command) (after : Session) : Prop :=
  session.Legal command
  ∧ (∃ action,
      session.action command = some action
      ∧ Kernel.Step session.kernel action after.kernel)
  ∧ after.main = session.main
  ∧ match command with
    | .other _ => after.stage = session.stage ∧ after.programs = session.programs
    | .execAll t =>
        (session.execAll t).map Prod.snd = some (after.stage, after.programs)

/-- The main thread starts, with the option to exit after the programs. -/
def initial (main : ThreadId) (initPriority : Int) (programs : List Int)
    : Except Fault Session := do
  let kernel ← Kernel.initial main initPriority true
  return { kernel, main, stage := .booting, programs }

-----------------------------------------------------------------------------------------
-- Programs
-----------------------------------------------------------------------------------------

/-- `ExecAll` is through with `Exec`. -/
def AllMade (session : Session) : Prop :=
  session.programs = [] ∧ ∀ t, session.stage ≠ .made t ∧ session.stage ≠ .marked t

/-- All programs have threads, and each of these but the current one reached `Finish`. -/
def AllFinished (session : Session) : Prop :=
  session.AllMade
  ∧ ∀ t, session.kernel.isExec t = true → t ≠ session.kernel.currentThread →
      session.kernel.scheduler.statusOf t ≠ some .new
      ∧ ¬Ongoing (session.kernel.scheduler.statusOf t)

/-- All programs have threads, and `Begin` counted each of them. -/
def AllBegun (session : Session) : Prop :=
  session.AllMade
  ∧ ∀ t, session.kernel.isExec t = true →
      session.kernel.scheduler.statusOf t ≠ some .new
      ∧ (Ongoing (session.kernel.scheduler.statusOf t) →
          beginnings (session.kernel.calls t) = 0)

/-- The current thread is the only one that is counted. -/
def LastCounted (session : Session) : Prop :=
  session.kernel.isExec session.kernel.currentThread = true
  ∧ session.kernel.execRunningNum = 1

-----------------------------------------------------------------------------------------
-- Runs
-----------------------------------------------------------------------------------------

/-- The kernel's own invariant, the tally, and that `Exec` marks a new thread. -/
structure Invariant (session : Session) : Prop where
  places : session.kernel.Invariant
  tally : session.kernel.Tally
  isNew : ∀ t, session.stage = .made t → session.kernel.scheduler.statusOf t = some .new

variable {session after : Session} {command : Command}

/-- What the loop of `ExecAll` does, by cases on the programs that are left. -/
theorem loop_eq (t : ThreadId) (session : Session)
    : session.programs = [] ∧ session.loop t = (.finish, .finished, [])
      ∨ ∃ priority rest, session.loop t = (.construct t priority, .made t, rest) := by
  unfold loop
  split
  · exact .inl ⟨‹_›, rfl⟩
  · exact .inr ⟨_, _, rfl⟩

/-- What `ExecAll` calls, and where it is before and after. -/
theorem execAll_cases {t : ThreadId} {call : Kernel.Call} {stage : Stage} {programs : List Int}
    (next : session.execAll t = some (call, stage, programs))
    : (call = .finish ∧ stage = .finished ∧ programs = [] ∧ session.AllMade)
      ∨ (∃ priority, call = .construct t priority ∧ stage = .made t)
      ∨ (∃ made, call = .setIsExec made ∧ stage = .marked made ∧ session.stage = .made made)
      ∨ ∃ marked, call = .fork marked ∧ stage = .looping ∧ session.stage = .marked marked := by
  have looped (outside : ∀ t, session.stage ≠ .made t ∧ session.stage ≠ .marked t)
      (same : session.loop t = (call, stage, programs))
      : (call = .finish ∧ stage = .finished ∧ programs = [] ∧ session.AllMade)
        ∨ ∃ priority, call = .construct t priority ∧ stage = .made t := by
    rcases loop_eq t session with ⟨none, ends⟩ | ⟨priority, rest, makes⟩
    · obtain ⟨rfl, rfl, rfl⟩ := by simpa using ends.symm.trans same
      exact .inl ⟨rfl, rfl, rfl, none, outside⟩
    · obtain ⟨rfl, rfl, _⟩ := by simpa using makes.symm.trans same
      exact .inr ⟨priority, rfl, rfl⟩
  cases at' : session.stage with
  | booting =>
      simp only [execAll, at', Option.some.injEq] at next
      exact (looped (by simp [at']) next).imp_right .inl
  | looping =>
      simp only [execAll, at', Option.some.injEq] at next
      exact (looped (by simp [at']) next).imp_right .inl
  | made made =>
      simp only [execAll, at', Option.some.injEq, Prod.mk.injEq] at next
      exact .inr (.inr (.inl ⟨made, next.1.symm, next.2.1.symm, rfl⟩))
  | marked marked =>
      simp only [execAll, at', Option.some.injEq, Prod.mk.injEq] at next
      exact .inr (.inr (.inr ⟨marked, next.1.symm, next.2.1.symm, rfl⟩))
  | finished => simp [execAll, at'] at next

/-- Calls outside of `ExecAll` neither mark threads nor fork the one that `Exec` is making. -/
theorem Invariant.step (invariant : session.Invariant) (step : Step session command after)
    : after.Invariant := by
  obtain ⟨legal, ⟨action, same, moved⟩, _, rest⟩ := step
  obtain ⟨places, tally, isNew⟩ := invariant
  have placesAfter : after.kernel.Invariant := by
    obtain ⟨_, done, kept⟩ := places.perform moved.1
    obtain rfl := Except.ok.inj (done.symm.trans moved.2)
    exact kept
  cases command with
  | other own =>
      obtain rfl := Option.some.inj same
      refine ⟨placesAfter, tally.step places moved ?_, ?_⟩
      · rintro t rfl
        exact absurd legal.2 id
      · intro t making
        rw [rest.1] at making
        refine Kernel.isNew_step places moved (isNew t making) ?_
        rintro rfl
        exact legal.2.1 making
  | execAll fresh =>
      obtain ⟨⟨call, stage, programs⟩, next, rfl⟩ := Option.map_eq_some_iff.mp same
      simp only [next, Option.map_some, Option.some.injEq, Prod.mk.injEq] at rest
      obtain ⟨rfl, rfl⟩ := rest
      refine ⟨placesAfter, tally.step places moved ?_, ?_⟩
      · intro t marks
        obtain rfl := Kernel.Action.call.inj marks
        rcases execAll_cases next with
          ⟨other, _⟩ | ⟨_, other, _⟩ | ⟨made, own, _, making⟩ | ⟨_, other, _⟩
        · cases other
        · cases other
        · obtain rfl := Kernel.Call.setIsExec.inj own
          exact fun begun => by simp [Kernel.Begun, Ongoing, isNew t making] at begun
        · cases other
      · intro t making
        rcases execAll_cases next with
          ⟨_, other, _⟩ | ⟨priority, rfl, own⟩ | ⟨_, _, other, _⟩ | ⟨_, _, other, _⟩
        · cases other.symm.trans making
        · obtain rfl := Stage.made.inj (own.symm.trans making)
          rw [← Except.ok.inj moved.2]
          change (session.kernel.scheduler.put fresh _).statusOf fresh = some .new
          rw [SchedulerState.statusOf_put_self]
          rfl
        · cases other.symm.trans making
        · cases other.symm.trans making

/-- The invariant holds in every reachable state, by induction on the run from the boot. -/
theorem invariant_of_reachable {main : ThreadId} {initPriority : Int} {programs : List Int}
    {first : Session} (started : initial main initPriority programs = .ok first)
    (reachable : Runs.Reachable Step first session)
    : session.Invariant := by
  refine @Runs.Reachable.invariant _ _ _ _ _ Invariant reachable ?_
    (fun _ _ _ invariant step => invariant.step step)
  obtain ⟨kernel, booted, rest⟩ := Outcome.of_bind_ok started
  obtain rfl := Except.ok.inj rest
  obtain ⟨_, done, working⟩ := Kernel.exists_initial main initPriority true
  obtain rfl := Except.ok.inj (done.symm.trans booted)
  refine ⟨.working working, ?_, nofun⟩
  obtain ⟨_, _, boots⟩ := Outcome.of_bind_ok booted
  obtain ⟨_, _, boots⟩ := Outcome.of_bind_ok boots
  obtain rfl := Except.ok.inj boots
  refine ⟨rfl, fun _ => Nat.zero_le _, fun _ => ⟨∅, fun t => ?_, rfl⟩⟩
  simp [Kernel.Counted, Kernel.booted]

-----------------------------------------------------------------------------------------
-- Halting
-----------------------------------------------------------------------------------------

/-- `Finish` halts the machine for the last thread that is counted, and changes nothing else. -/
theorem finish_cases {kernel after : Kernel} (execExit : kernel.execExit = true)
    (finished : kernel.finish = .ok after)
    : (kernel.isExec kernel.currentThread = true ∧ kernel.execRunningNum = 1
        ∧ after.control = .halted
        ∧ after.isExec = kernel.isExec
        ∧ after.currentThread = kernel.currentThread
        ∧ after.scheduler = kernel.scheduler)
      ∨ (¬(kernel.isExec kernel.currentThread = true ∧ kernel.execRunningNum = 1)
        ∧ after.control = .sleep true) := by
  have sleeps {number : Int}
      (slept
        : Kernel.sleep true { kernel with interrupt.level := .intOff, execRunningNum := number }
            = .ok after)
      : after.control = .sleep true := by
    obtain ⟨_, _, rest⟩ := Outcome.of_bind_ok slept
    obtain ⟨_, _, rest⟩ := Outcome.of_bind_ok rest
    obtain rfl := Except.ok.inj rest
    rfl
  simp only [Kernel.finish, Kernel.setLevel_off, bind, Except.bind] at finished
  split at finished
  · rename_i counts
    split at finished
    · rename_i last
      obtain rfl := Except.ok.inj finished
      exact .inl ⟨counts.2, by omega, rfl, rfl, rfl, rfl⟩
    · rename_i others
      exact .inr ⟨fun counted => others (by omega), sleeps finished⟩
  · rename_i skips
    exact .inr ⟨fun counted => skips ⟨execExit, counted.1⟩, sleeps finished⟩

/-- `ExecAll` has made all threads before a step in which a thread finishes, or has not. -/
theorem allMade_finish (step : Step session command after)
    (finishes : session.action command = some (.call .finish))
    : after.AllMade ↔ session.AllMade := by
  obtain ⟨_, _, _, rest⟩ := step
  cases command with
  | other action =>
      rw [AllMade, AllMade, rest.1, rest.2]
  | execAll t =>
      obtain ⟨⟨call, stage, programs⟩, next, same⟩ := Option.map_eq_some_iff.mp finishes
      obtain rfl := Kernel.Action.call.inj same
      simp only [next, Option.map_some, Option.some.injEq, Prod.mk.injEq] at rest
      obtain ⟨rfl, rfl⟩ := rest
      rcases execAll_cases next with
        ⟨_, ends, none, made⟩ | ⟨_, other, _⟩ | ⟨_, other, _⟩ | ⟨_, other, _⟩
      · exact iff_of_true ⟨none, by simp [ends]⟩ made
      · cases other
      · cases other
      · cases other

/-- If all threads of `Exec` have begun, the last one that is counted is the last one. -/
theorem Invariant.only_current (invariant : session.Invariant) (last : session.LastCounted)
    (working : session.kernel.Working)
    (own : session.kernel.calls session.kernel.currentThread = []) {t : ThreadId}
    (counted : session.kernel.Counted t)
    : t = session.kernel.currentThread := by
  have going : session.kernel.control ≠ .halted := by simp [working.control]
  obtain ⟨counting, members, number⟩ := invariant.tally.counted going
  have current := (Kernel.counted_current working own).mpr last.1
  obtain ⟨only, single⟩ := Finset.card_eq_one.mp (Int.ofNat_inj.mp (number.symm.trans last.2))
  have here := (members _).mpr current
  have there := (members _).mpr counted
  rw [single, Finset.mem_singleton] at here there
  rw [here, there]

/-- When `Finish` halts the machine all programs are done, if and only if `Begin` had counted
them all.
-/
theorem halts_when_finished_iff {main : ThreadId} {initPriority : Int} {programs : List Int}
    {first : Session} (started : initial main initPriority programs = .ok first)
    (reachable : Runs.Reachable Step first session) (step : Step session command after)
    (finishes : session.action command = some (.call .finish))
    : (after.kernel.control = .halted → after.AllFinished)
      ↔ (session.LastCounted → session.AllBegun) := by
  have invariant := invariant_of_reachable started reachable
  have made := allMade_finish step finishes
  obtain ⟨_, ⟨action, same, legal, performed⟩, _⟩ := step
  obtain rfl := Option.some.inj (same.symm.trans finishes)
  have working := invariant.places.own legal.1 legal.2.1
  rcases finish_cases invariant.tally.execExit performed with
    ⟨isExec, number, halted, sameExec, sameThread, sameThreads⟩ | ⟨others, sleeps⟩
  swap
  · refine iff_of_true (fun halted => ?_) (fun last => absurd last others)
    rw [sleeps] at halted
    cases halted
  constructor
  · intro done _
    obtain ⟨allMade, finished⟩ := done halted
    refine ⟨made.mp allMade, fun t marked => ?_⟩
    by_cases own : t = session.kernel.currentThread
    · have running := (working.active.running _).mpr own
      refine ⟨by simp [running], fun _ => ?_⟩
      rw [own, legal.2.1]
      rfl
    · rw [← sameExec] at marked
      obtain ⟨isNew, ended⟩ := finished t marked (sameThread ▸ own)
      rw [sameThreads] at isNew ended
      exact ⟨isNew, fun ongoing => absurd ongoing ended⟩
  · intro begun _
    obtain ⟨allMade, past⟩ := begun ⟨isExec, number⟩
    refine ⟨made.mpr allMade, fun t marked apart => ?_⟩
    rw [sameExec] at marked
    rw [sameThreads]
    refine ⟨(past t marked).1, fun ongoing => ?_⟩
    have counted : session.kernel.Counted t := ⟨marked, ongoing, (past t marked).2 ongoing⟩
    rw [sameThread] at apart
    exact apart (invariant.only_current ⟨isExec, number⟩ working legal.2.1 counted)

-----------------------------------------------------------------------------------------
-- Execution
-----------------------------------------------------------------------------------------

/-- The step that a command takes, if it may come next. -/
def next (session : Session) (command : Command) : Option Session :=
  if session.Legal command then
    match command with
    | .other action => (session.kernel.next action).map (fun kernel => { session with kernel })
    | .execAll t =>
        (session.execAll t).bind (fun (call, stage, programs) =>
          (session.kernel.next (.call call)).map (fun kernel =>
            { session with kernel, stage, programs }))
  else none

/-- The executable step is a step of the relation. -/
theorem step_of_next (session : Session) (command : Command) (after : Session)
    (computed : session.next command = some after)
    : Step session command after := by
  unfold next at computed
  split at computed
  swap
  · cases computed
  rename_i legal
  cases command with
  | other action =>
      obtain ⟨kernel, moved, rfl⟩ := Option.map_eq_some_iff.mp computed
      exact ⟨legal, ⟨action, rfl, Kernel.step_of_next _ _ _ moved⟩, rfl, rfl, rfl⟩
  | execAll t =>
      obtain ⟨⟨call, stage, programs⟩, own, rest⟩ := Option.bind_eq_some_iff.mp computed
      obtain ⟨kernel, moved, rfl⟩ := Option.map_eq_some_iff.mp rest
      refine ⟨legal, ⟨.call call, ?_, Kernel.step_of_next _ _ _ moved⟩, rfl, ?_⟩
      · rw [action, own]
        rfl
      · change (session.execAll t).map Prod.snd = _
        rw [own]
        rfl

/-- `ExecAll` makes one thread for each address, and the main thread finishes. -/
def execAllCommands (threads : List ThreadId) : List Command :=
  threads.flatMap (fun t => [.execAll t, .execAll t, .execAll t])
    ++ [.execAll 0, .other .findNext]

/-- A thread begins, and runs its program. -/
def beginCommands : List Command := [.other .resume, .other .handled, .other .resume]

/-- A run of programs, by its commands, and the step in which its last thread finishes. -/
theorem exists_finish {programs : List Int} {commands : List Command} {test : Session → Bool}
    (tested
      : (((initial 0 50 programs).toOption.bind (Runs.follow next commands)).bind (fun session =>
          session.next (.other (.call .finish)))).any test = true)
    : ∃ first session after,
        initial 0 50 programs = .ok first
        ∧ (initial 0 50 programs).toOption.bind (Runs.follow next commands) = some session
        ∧ Runs.Reachable Step first session
        ∧ Step session (.other (.call .finish)) after
        ∧ test after = true := by
  obtain ⟨after, computed, passed⟩ := (Option.any_eq_true _ _).mp tested
  obtain ⟨session, led, moved⟩ := Option.bind_eq_some_iff.mp computed
  obtain ⟨first, started, followed⟩ := Option.bind_eq_some_iff.mp led
  cases outcome : initial 0 50 programs with
  | error fault => simp [outcome, Except.toOption] at started
  | ok begun =>
      simp only [outcome, Except.toOption, Option.some.injEq] at started
      subst started
      exact ⟨begun, session, after, rfl, by simpa [outcome] using led,
        .of_follow step_of_next (.refl begun) followed, step_of_next _ _ _ moved, passed⟩

/-- The first of two programs finishes before the second one begins. -/
theorem halts_before_second_program
    : ¬∀ (main : ThreadId) (initPriority : Int) (programs : List Int)
        (first session after : Session) (command : Command),
        initial main initPriority programs = .ok first →
        Runs.Reachable Step first session →
        Step session command after →
        session.action command = some (.call .finish) →
        after.kernel.control = .halted →
        after.AllFinished := by
  intro always
  obtain ⟨first, session, after, started, _, reachable, step, passed⟩ :=
    @exists_finish [50, 50] (execAllCommands [1, 2] ++ beginCommands)
      (fun after =>
        decide
          (after.kernel.control = .halted
            ∧ after.kernel.isExec 2 = true
            ∧ 2 ≠ after.kernel.currentThread
            ∧ after.kernel.scheduler.statusOf 2 = some .ready))
      (by decide +kernel)
  obtain ⟨halted, isExec, apart, ready⟩ := of_decide_eq_true passed
  have finished := always 0 50 [50, 50] first session after _ started reachable step rfl halted
  exact (finished.2 2 isExec apart).2 (.inl ready)

/-- The first program yields to the second one, which finishes before the first goes on. -/
def secondFirst : List Command :=
  execAllCommands [1, 2] ++ beginCommands ++ [.other (.call .yield)] ++ beginCommands
    ++ [
      .other (.call .finish), .other .findNext, .other .resume, .other .resume, .other .handled
    ]

/-- Witness: two programs are done when the first one, the last to finish, does. -/
theorem halts_when_both_programs_finish
    : ∃ first session after,
        initial 0 50 [50, 50] = .ok first
        ∧ Runs.Reachable Step first session
        ∧ Step session (.other (.call .finish)) after
        ∧ after.kernel.control = .halted
        ∧ after.AllFinished := by
  obtain ⟨first, session, after, started, led, reachable, step, passed⟩ :=
    @exists_finish [50, 50] secondFirst
      (fun after => decide (after.kernel.control = .halted)) (by decide +kernel)
  have halted := of_decide_eq_true passed
  have known :
      ((initial 0 50 [50, 50]).toOption.bind (Runs.follow next secondFirst)).map (fun session =>
          (session.programs, session.stage, session.kernel.isExec,
            [1, 2].map session.kernel.scheduler.statusOf, session.kernel.calls 1))
      = some
          ([], .finished,
            [(1, false), (1, true), (2, false), (2, true)].foldl
              (fun isExec entry => Function.update isExec entry.1 entry.2) (fun _ => false),
            [some .running, none], []) :=
    rfl
  rw [led] at known
  simp only [Option.map_some, Option.some.injEq, Prod.mk.injEq] at known
  obtain ⟨programs, stage, isExec, statuses, calls⟩ := known
  obtain ⟨status1, rest⟩ := List.cons.inj statuses
  obtain ⟨status2, _⟩ := List.cons.inj rest
  have begun : session.AllBegun := by
    refine ⟨⟨programs, by simp [stage]⟩, fun t marked => ?_⟩
    rw [isExec] at marked
    have either : t = 1 ∨ t = 2 := by
      by_contra other
      simp [not_or.mp other] at marked
    rcases either with rfl | rfl
    · exact ⟨by simp [status1], fun _ => by rw [calls]; rfl⟩
    · exact ⟨by simp [status2], fun ongoing => by simp [status2, Ongoing] at ongoing⟩
  exact ⟨first, session, after, started, reachable, step, halted,
    (halts_when_finished_iff started reachable step rfl).mpr (fun _ => begun) halted⟩

end Session

end Nachos.Threads
