import Mathlib.Data.Nat.Digits.Lemmas
import Nachos.KernelLib.BusyDevice
import Nachos.Lib.Bytes

/-! `SynchConsoleOutput` over the simulated display: characters and numbers are written under
a lock, with an interrupt for every character.
-/

namespace Nachos.UserProg
open Bytes SynchDevice

/-- A call of `SynchConsoleOutput`. -/
inductive OutputCall where
  | putChar (ch : Byte)
  | putInt (value : Int)

namespace ConsoleOutput

-----------------------------------------------------------------------------------------
-- Numbers
-----------------------------------------------------------------------------------------

/-- The decimal digits of a number. -/
def digits (number : Nat) : List Byte :=
  if number = 0 then [48]
  else (Nat.digits 10 number).reverse.map (fun digit => 48 + UInt8.ofNat digit)

/-- What `%d` prints. -/
def decimal (value : Int) : List Byte :=
  if value < 0 then 45 :: digits value.natAbs else digits value.natAbs

/-- The characters in `str` after `sprintf`, with the NUL that ends them. -/
def str (value : Int) : List Byte := decimal value ++ [10] ++ [0]

/-- The loop of `PutInt`, from `str[idx]` on. -/
def putLoop : List Byte → List (Instruction Byte)
  | [] => []
  | ch :: rest => .request ch :: .p :: if rest.head? = some 0 then [] else putLoop rest

theorem digit_ne_zero {digit : Nat} (small : digit < 10) : 48 + UInt8.ofNat digit ≠ 0 := by
  interval_cases digit <;> decide

/-- No digit is NUL. -/
theorem zero_not_mem_digits (number : Nat) : 0 ∉ digits number := by
  unfold digits
  split
  · decide
  · intro member
    obtain ⟨digit, isDigit, zero⟩ := List.mem_map.mp member
    exact digit_ne_zero (Nat.digits_lt_base (by decide) (List.mem_reverse.mp isDigit)) zero

/-- No character of a number is NUL. -/
theorem zero_not_mem_decimal (value : Int) : 0 ∉ decimal value := by
  have digits := zero_not_mem_digits value.natAbs
  unfold decimal
  split
  · exact List.not_mem_cons_of_ne_of_not_mem (by decide) digits
  · exact digits

/-- The loop puts every character before the NUL, by induction on them. -/
theorem putLoop_eq {ch : Byte} {rest : List Byte} (proper : 0 ∉ rest)
    : putLoop (ch :: rest ++ [0]) = (ch :: rest).flatMap (fun ch => [.request ch, .p]) := by
  induction rest generalizing ch with
  | nil => rfl
  | cons next more ih =>
      have next_ne : next ≠ 0 := Ne.symm (List.ne_of_not_mem_cons proper)
      have others : 0 ∉ more := List.not_mem_of_not_mem_cons proper
      rw [List.cons_append, putLoop, List.flatMap_cons]
      rw [List.cons_append, List.head?_cons,
        if_neg (fun same => next_ne (Option.some.inj same))]
      exact congrArg ([.request ch, .p] ++ ·) (ih others)

-----------------------------------------------------------------------------------------
-- The display
-----------------------------------------------------------------------------------------

/-- `ConsoleOutput::PutChar`. -/
def putChar (ch : Byte) (console : BusyDevice (List Byte))
    : Except Fault (Unit × BusyDevice (List Byte)) :=
  console.serve True (fun written => ((), written ++ [ch]))

/-- `PutChar` and `PutInt` under the lock, and `ConsoleOutput::CallBack`, which signals. -/
def synchConsoleOutput : Driver OutputCall Byte Unit (BusyDevice (List Byte)) Unit where
  valid
    | .putChar _ => True
    | .putInt value => CInt.InRange value
  script
    | .putChar ch => [.request ch, .p]
    | .putInt value => putLoop (str value)
  request ch := putChar ch
  pending console := 0 < console.scheduled
  callBack _ console := .ok console.callBack

instance : DecidablePred synchConsoleOutput.valid
  | .putChar _ => isTrue trivial
  | .putInt value => inferInstanceAs (Decidable (CInt.InRange value))

instance : DecidablePred synchConsoleOutput.pending :=
  fun console => inferInstanceAs (Decidable (0 < console.scheduled))

/-- What a call is to write. -/
def text : OutputCall → List Byte
  | .putChar ch => [ch]
  | .putInt value => decimal value ++ [10]

def effect (ch : Byte) (written : List Byte) : Unit × List Byte := ((), written ++ [ch])

/-- A call is one request for each character of its text, by cases on the call. -/
theorem script_eq (call : OutputCall)
    : synchConsoleOutput.script call = (text call).flatMap (fun ch => [.request ch, .p]) := by
  cases call with
  | putChar ch => rfl
  | putInt value =>
      have proper : 0 ∉ decimal value ++ [10] := by
        rw [List.mem_append, not_or]
        exact ⟨zero_not_mem_decimal value, by decide⟩
      change putLoop (decimal value ++ [10] ++ [0]) = (decimal value ++ [10]).flatMap _
      cases chars : decimal value ++ [10] with
      | nil => exact absurd chars (List.append_ne_nil_of_right_ne_nil _ (List.cons_ne_nil _ _))
      | cons ch rest => exact putLoop_eq (List.not_mem_of_not_mem_cons (chars ▸ proper))

theorem alternates_flatMap (chars : List Byte)
    : Alternates (fun _ => True) (chars.flatMap (fun ch => [.request ch, .p])) := by
  induction chars with
  | nil => exact .nil
  | cons ch rest ih => exact .cons trivial ih

theorem requests_flatMap (chars : List Byte)
    : requests (chars.flatMap (fun ch => [.request ch, .p])) = chars := by
  induction chars with
  | nil => rfl
  | cons ch rest ih => exact congrArg (ch :: ·) ih

theorem requests_script (call : OutputCall)
    : requests (synchConsoleOutput.script call) = text call := by
  rw [script_eq, requests_flatMap]

theorem drives : Drives synchConsoleOutput (fun _ => True) effect where
  script _ := script_eq _ ▸ alternates_flatMap _
  request _ _ := rfl
  pending := id
  callBack := rfl

/-- Characters put one after the other, by induction on them. -/
theorem execute_written (chars written : List Byte)
    : (execute effect chars written).2 = written ++ chars := by
  induction chars generalizing written with
  | nil => exact (List.append_nil _).symm
  | cons ch rest ih =>
      refine (ih _).trans ?_
      rw [effect, List.append_assoc, List.singleton_append]

/-- Calls made one after the other write their texts, by induction on them. -/
theorem serial_written (calls : List OutputCall) (written : List Byte)
    : (serial synchConsoleOutput.script effect calls written).2
      = written ++ calls.flatMap text := by
  induction calls generalizing written with
  | nil => exact (List.append_nil _).symm
  | cons call rest ih =>
      refine (ih _).trans ?_
      rw [requests_script, execute_written, List.append_assoc, List.flatMap_cons]

-----------------------------------------------------------------------------------------
-- Concurrent calls
-----------------------------------------------------------------------------------------

variable {ι : Type} {state : State ι OutputCall Byte Unit (BusyDevice (List Byte))}
  {current : Option ι}

/-- What a thread that has the lock has written of the text of its call. -/
theorem written_of_did {progress : Progress OutputCall Byte Unit} {call : OutputCall}
    {before now : List Byte} (holding : progress.holding = some call)
    (did : progress.Did synchConsoleOutput effect before now)
    : ∃ written, now = before ++ written ∧ written <+: text call
        ∧ ∀ other outputs, progress = .releasing other outputs → written = text call := by
  cases progress with
  | outside | acquiring => exact nomatch holding
  | acquired other =>
      have same : now = before := did
      exact ⟨[], by rw [same, List.append_nil], List.nil_prefix, nofun⟩
  | inside other rest outputs =>
      obtain rfl := Option.some.inj holding
      obtain ⟨done, all, ran⟩ := did
      rw [requests_script] at all
      have final := congrArg Prod.snd ran
      rw [execute_written] at final
      exact ⟨done, final.symm, ⟨_, all.symm⟩, nofun⟩
  | releasing other outputs =>
      obtain rfl := Option.some.inj holding
      have final := congrArg Prod.snd did
      rw [requests_script, execute_written] at final
      exact ⟨text other, final.symm, List.prefix_refl _, fun _ _ _ => rfl⟩

/-- What is on the display: the texts of the calls that returned, and what the call that has
the lock has written of its text.
-/
theorem written_of_holds
    (holds
      : Holds synchConsoleOutput (InStep (fun _ => True)) BusyDevice.medium effect [] current
          state)
    : ∃ written,
        state.device.medium = (state.returned.map Prod.fst).flatMap text ++ written
        ∧ (state.acquired = state.returned.map Prod.fst ∧ written = []
            ∨ ∃ call, state.acquired = state.returned.map Prod.fst ++ [call]
              ∧ written <+: text call)
        ∧ ∀ t call outputs, state.threads t = .releasing call outputs
          → state.acquired = state.returned.map Prod.fst ++ [call] ∧ written = text call := by
  obtain ⟨before, ran, free, did⟩ := holds.served
  have ordered := holds.ordered
  have served : before = (state.returned.map Prod.fst).flatMap text := by
    have final := congrArg Prod.snd ran
    rw [serial_written, List.nil_append] at final
    exact final.symm
  cases has : current with
  | none =>
      rw [has, Option.bind_none, Option.toList_none, List.append_nil] at ordered
      refine ⟨[], ?_, .inl ⟨ordered, rfl⟩, ?_⟩
      · rw [List.append_nil, free has, served]
      · intro t call outputs releasing
        have mine := (holds.only t).mp (by rw [releasing]; exact Option.some_ne_none _)
        rw [has] at mine
        exact nomatch mine
  | some t =>
      obtain ⟨call, holding⟩ := Option.ne_none_iff_exists'.mp ((holds.only t).mpr has)
      rw [has, Option.bind_some, holding, Option.toList_some] at ordered
      obtain ⟨written, now, part, whole⟩ := written_of_did holding (did t has)
      refine ⟨written, by rw [now, served], .inr ⟨call, ordered, part⟩, ?_⟩
      intro other returning outputs releasing
      have mine := (holds.only other).mp (by rw [releasing]; exact Option.some_ne_none _)
      rw [has] at mine
      obtain rfl := Option.some.inj mine
      have same := holding
      rw [releasing] at same
      obtain rfl := Option.some.inj same
      exact ⟨ordered, whole _ _ releasing⟩

/-- Calls of `SynchConsoleOutput` by any threads: no assertion fails, and the display shows the
texts of the calls in the order in which they acquired the lock, the last one possibly in
part. A call returns after the interrupts of all its characters.
-/
theorem consoleOutput_atomic [DecidableEq ι]
    (state : State ι OutputCall Byte Unit (BusyDevice (List Byte)))
    (reachable
      : Runs.Reachable synchConsoleOutput.Step (initial (BusyDevice.new [])) state)
    : (∀ action, synchConsoleOutput.Legal state action
        → ∃ after, synchConsoleOutput.perform state action = .ok after)
      ∧ (∃ written,
          state.device.medium = (state.returned.map Prod.fst).flatMap text ++ written
          ∧ (state.acquired = state.returned.map Prod.fst ∧ written = []
              ∨ ∃ call, state.acquired = state.returned.map Prod.fst ++ [call]
                ∧ written <+: text call)
          ∧ ∀ t call outputs, state.threads t = .releasing call outputs
            → state.acquired = state.returned.map Prod.fst ++ [call] ∧ written = text call)
      ∧ ∀ t call outputs, state.threads t = .releasing call outputs
        → state.device.completed = state.device.requested := by
  obtain ⟨current, holds⟩ :=
    drives.protocol.holds_of_reachable (InStep.idle Alternates.nil) reachable
  refine ⟨?_, written_of_holds holds,
    fun _ _ _ releasing => completed_of_releasing holds releasing⟩
  intro action legal
  obtain ⟨after, performed, _⟩ := holds.perform drives.protocol legal
  exact ⟨after, performed⟩

/-- A thread puts a number of two characters, and another puts a character meanwhile. -/
theorem consoleOutput_atomic_two_calls
    : ∃ state : State Bool OutputCall Byte Unit (BusyDevice (List Byte)),
        state.acquired = [.putInt (-5), .putChar 33]
        ∧ state.device.medium = [45, 53, 10, 33]
        ∧ state.device.completed = state.device.requested := by
  let actions : List (Action Bool OutputCall Unit) :=
    [.begin false (.putInt (-5)), .begin true (.putChar 33), .advance false, .advance false,
      .advance true, .advance false, .interrupt (), .advance false, .advance false,
      .advance false, .interrupt (), .advance false, .advance false, .interrupt (),
      .advance false, .advance false, .advance false, .advance true, .advance true,
      .advance true, .interrupt (), .advance true, .advance true]
  have reachable :=
    @Runs.Reachable.of_follow _ _ _ _ _ _ synchConsoleOutput.next
      (fun _ _ _ => synchConsoleOutput.step_of_next) actions
      (.refl (initial (BusyDevice.new []))) rfl
  exact ⟨_, rfl, rfl, (consoleOutput_atomic _ reachable).2.2 true _ _ rfl⟩

end ConsoleOutput

end Nachos.UserProg
