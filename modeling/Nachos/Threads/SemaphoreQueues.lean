import Nachos.Threads.Kernel

/-! The queues of semaphores against the status of every thread: a thread in a queue waits, and
is in no other place of any queue.
-/

namespace Nachos.Threads

/-- Threads in the queue of a semaphore wait, in that queue only and only once. -/
structure Waiting (semaphores : SemaphoreId → Option Semaphore)
    (statusOf : ThreadId → Option ThreadStatus)
    : Prop where
  waiting : ∀ (s : SemaphoreId) (semaphore : Semaphore) (t : ThreadId),
    semaphores s = some semaphore → t ∈ semaphore.queue → statusOf t = some .waiting
  distinct : ∀ (s : SemaphoreId) (semaphore : Semaphore),
    semaphores s = some semaphore → semaphore.queue.Nodup
  apart : ∀ (s1 s2 : SemaphoreId) (first second : Semaphore) (t : ThreadId),
    semaphores s1 = some first → semaphores s2 = some second → t ∈ first.queue
    → t ∈ second.queue → s1 = s2

namespace Waiting

variable {semaphores : SemaphoreId → Option Semaphore}
  {statusOf : ThreadId → Option ThreadStatus} {s : SemaphoreId} {semaphore : Semaphore}
  {t : ThreadId}

/-- Threads that do not wait may change. -/
theorem congr {after : ThreadId → Option ThreadStatus} (waiting : Waiting semaphores statusOf)
    (kept : ∀ t, statusOf t = some .waiting → after t = some .waiting)
    : Waiting semaphores after :=
  { waiting with
    waiting := fun s semaphore t found member =>
      kept t (waiting.waiting s semaphore t found member) }

/-- A change of a thread that does not wait keeps the queues as they are. -/
theorem update {st : Option ThreadStatus} (waiting : Waiting semaphores statusOf)
    (busy : statusOf t ≠ some .waiting)
    : Waiting semaphores (Function.update statusOf t st) := by
  refine waiting.congr (fun other waits => ?_)
  rw [Function.update_of_ne]
  · exact waits
  · rintro rfl
    exact busy waits

/-- The queue of one semaphore is replaced by one that threads only leave. -/
theorem store {changed : Semaphore} (waiting : Waiting semaphores statusOf)
    (sublist
      : changed.queue.Sublist ((semaphores s).elim [] Semaphore.queue))
    : Waiting (Function.update semaphores s (some changed)) statusOf := by
  have old {s' : SemaphoreId} {semaphore : Semaphore} {t : ThreadId}
      (found : Function.update semaphores s (some changed) s' = some semaphore)
      (member : t ∈ semaphore.queue)
      : ∃ before, semaphores s' = some before ∧ t ∈ before.queue := by
    by_cases same : s' = s
    · subst same
      rw [Function.update_self] at found
      obtain rfl := Option.some.inj found
      cases before : semaphores s' with
      | none => simp [before] at sublist; simp [sublist] at member
      | some semaphore =>
          rw [before] at sublist
          exact ⟨semaphore, rfl, sublist.subset member⟩
    · rw [Function.update_of_ne same] at found
      exact ⟨semaphore, found, member⟩
  constructor
  · intro s' semaphore t found member
    obtain ⟨before, foundBefore, memberBefore⟩ := old found member
    exact waiting.waiting s' before t foundBefore memberBefore
  · intro s' semaphore found
    by_cases same : s' = s
    · subst same
      rw [Function.update_self] at found
      obtain rfl := Option.some.inj found
      refine sublist.nodup ?_
      cases before : semaphores s' with
      | none => exact List.nodup_nil
      | some semaphore => exact waiting.distinct s' semaphore before
    · rw [Function.update_of_ne same] at found
      exact waiting.distinct s' semaphore found
  · intro s1 s2 first second t foundFirst foundSecond memberFirst memberSecond
    obtain ⟨a, foundA, memberA⟩ := old foundFirst memberFirst
    obtain ⟨b, foundB, memberB⟩ := old foundSecond memberSecond
    exact waiting.apart s1 s2 a b t foundA foundB memberA memberB

/-- A thread that goes to wait is queued once. -/
theorem append (waiting : Waiting semaphores statusOf) (found : semaphores s = some semaphore)
    (busy : statusOf t ≠ some .waiting)
    : t ∉ semaphore.queue
      ∧ Waiting
          (Function.update semaphores s
            (some { semaphore with queue := semaphore.queue ++ [t] }))
          (Function.update statusOf t (some .waiting)) := by
  have absent {s' : SemaphoreId} {other : Semaphore} (foundOther : semaphores s' = some other)
      : t ∉ other.queue :=
    fun member => busy (waiting.waiting s' other t foundOther member)
  have old {s' : SemaphoreId} {other : Semaphore} {u : ThreadId}
      (foundOther
        : Function.update semaphores s
            (some { semaphore with queue := semaphore.queue ++ [t] }) s' = some other)
      (member : u ∈ other.queue)
      : (u = t ∧ s' = s)
        ∨ u ≠ t ∧ ∃ before, semaphores s' = some before ∧ u ∈ before.queue := by
    by_cases same : s' = s
    · subst same
      rw [Function.update_self] at foundOther
      obtain rfl := Option.some.inj foundOther
      rcases List.mem_append.mp member with before | last
      · refine .inr ⟨?_, semaphore, found, before⟩
        rintro rfl
        exact absent found before
      · exact .inl ⟨List.mem_singleton.mp last, rfl⟩
    · rw [Function.update_of_ne same] at foundOther
      refine .inr ⟨?_, other, foundOther, member⟩
      rintro rfl
      exact absent foundOther member
  refine ⟨absent found, ?_, ?_, ?_⟩
  · intro s' other u foundOther member
    rcases old foundOther member with ⟨rfl, _⟩ | ⟨apart, before, foundBefore, memberBefore⟩
    · exact Function.update_self ..
    · rw [Function.update_of_ne apart]
      exact waiting.waiting s' before u foundBefore memberBefore
  · intro s' other foundOther
    by_cases same : s' = s
    · subst same
      rw [Function.update_self] at foundOther
      obtain rfl := Option.some.inj foundOther
      exact List.nodup_append.mpr
        ⟨waiting.distinct s' semaphore found, List.nodup_singleton t,
          fun a memberA b memberB same =>
            absent found (List.mem_singleton.mp memberB ▸ same ▸ memberA)⟩
    · rw [Function.update_of_ne same] at foundOther
      exact waiting.distinct s' other foundOther
  · intro s1 s2 first second u foundFirst foundSecond memberFirst memberSecond
    rcases old foundFirst memberFirst with ⟨same, rfl⟩ | ⟨apart, a, foundA, memberA⟩
    · rcases old foundSecond memberSecond with ⟨_, rfl⟩ | ⟨apart, _⟩
      · rfl
      · exact absurd same apart
    · rcases old foundSecond memberSecond with ⟨same, _⟩ | ⟨_, b, foundB, memberB⟩
      · exact absurd same apart
      · exact waiting.apart s1 s2 a b u foundA foundB memberA memberB

/-- The front of a queue waits, and in no queue once it left this one. -/
theorem removeFront {changed : Semaphore} {st : Option ThreadStatus}
    (waiting : Waiting semaphores statusOf) (found : semaphores s = some semaphore)
    (front : semaphore.queue = t :: changed.queue)
    : statusOf t = some .waiting
      ∧ Waiting (Function.update semaphores s (some changed))
          (Function.update statusOf t st) := by
  have member : t ∈ semaphore.queue := front ▸ List.mem_cons_self ..
  refine ⟨waiting.waiting s semaphore t found member, ?_⟩
  have shorter : changed.queue.Sublist ((semaphores s).elim [] Semaphore.queue) := by
    rw [found, Option.elim_some, front]
    exact List.sublist_cons_self ..
  have rest : Waiting (Function.update semaphores s (some changed)) statusOf :=
    waiting.store shorter
  have distinct := List.nodup_cons.mp (front ▸ waiting.distinct s semaphore found)
  refine { rest with waiting := fun s' other u foundOther memberOther => ?_ }
  rw [Function.update_of_ne]
  · exact rest.waiting s' other u foundOther memberOther
  · rintro rfl
    by_cases same : s' = s
    · subst same
      rw [Function.update_self] at foundOther
      obtain rfl := Option.some.inj foundOther
      exact distinct.1 memberOther
    · rw [Function.update_of_ne same] at foundOther
      exact same (waiting.apart s' s other semaphore u foundOther found memberOther member)

end Waiting

end Nachos.Threads
