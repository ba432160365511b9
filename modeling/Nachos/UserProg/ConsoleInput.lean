import Mathlib.Data.List.GetD
import Nachos.KernelLib.SerialAccess
import Nachos.Lib.Bytes

/-! `SynchConsoleInput` over the simulated keyboard, which polls a file of the host and keeps
one character that was read.
-/

namespace Nachos.UserProg
open Bytes SynchDevice Outcome

/-- `EOF`, which also marks an empty buffer. -/
def eof : Int := -1

/-- A byte in a `char`, which is signed. -/
def charOfByte (byte : Byte) : Int :=
  if byte.toNat < 128 then byte.toNat else byte.toNat - 256

/-- The simulated keyboard: the character that was read, the bytes left in the file, and how
many polls are scheduled. How many characters were taken is kept for reference only.
-/
structure ConsoleInput where
  incoming : Int
  input : List Byte
  scheduled : Nat
  taken : Nat

namespace ConsoleInput

/-- The constructor schedules the first poll. -/
def new (input : List Byte) : ConsoleInput :=
  { incoming := eof, input, scheduled := 1, taken := 0 }

/-- `ConsoleInput::CallBack`, where the file has something to be read or not: whether the
semaphore is signalled. At the end of the file nothing is read.
-/
def callBack (available : Bool) (console : ConsoleInput)
    : Except Fault (Bool × ConsoleInput) := do
  require (console.incoming = eof) .assertion
  let polled := { console with scheduled := console.scheduled - 1 }
  if available then
    match console.input with
    | [] => return (true, polled)
    | byte :: rest => return (true, { polled with incoming := charOfByte byte, input := rest })
  else return (false, { polled with scheduled := polled.scheduled + 1 })

/-- `ConsoleInput::GetChar`. -/
def getChar (console : ConsoleInput) : Int × ConsoleInput :=
  (console.incoming,
    {
      console with
      incoming := eof
      scheduled :=
        if console.incoming ≠ eof then console.scheduled + 1 else console.scheduled
      taken := console.taken + 1
    })

/-- `SynchConsoleInput::GetChar` under the lock. -/
def synchConsoleInput : Driver Unit Unit Int ConsoleInput Bool where
  valid _ := True
  script _ := [.p, .request ()]
  request _ console := .ok console.getChar
  pending console := 0 < console.scheduled
  callBack := callBack

instance : DecidablePred synchConsoleInput.valid := fun _ => isTrue trivial

instance : DecidablePred synchConsoleInput.pending :=
  fun console => inferInstanceAs (Decidable (0 < console.scheduled))

/-- What the calls should return one after the other. -/
def stream (input : List Byte) : List Int := input.map charOfByte ++ [eof]

/-- The next character can still arrive: a poll is scheduled, or its semaphore is signalled,
or a thread is about to take it.
-/
def Alive {ι : Type} (state : State ι Unit Unit Int ConsoleInput) : Prop :=
  0 < state.device.scheduled ∨ 0 < state.waitFor.value
  ∨ ∃ t outputs, state.threads t = .inside () [.request ()] outputs

/-- In every state of every run no assertion can fail, the calls have returned the characters
of the input in order, and characters that remain can still arrive.
-/
def Delivers (ι : Type) [DecidableEq ι] (input : List Byte) : Prop :=
  ∀ state : State ι Unit Unit Int ConsoleInput,
    Runs.Reachable synchConsoleInput.Step (initial (new input)) state
    → (∀ action, synchConsoleInput.Legal state action
        → ∃ after, synchConsoleInput.perform state action = .ok after)
      ∧ state.returned.flatMap Prod.snd <+: stream input
      ∧ (state.device.taken < (stream input).length → Alive state)

-----------------------------------------------------------------------------------------
-- Characters
-----------------------------------------------------------------------------------------

/-- Only one byte reads as the mark of an empty buffer. -/
theorem charOfByte_eq_eof_iff (byte : Byte) : charOfByte byte = eof ↔ byte = 255 := by
  constructor
  · intro same
    unfold charOfByte eof at same
    have value : byte.toNat = 255 := by
      split at same <;> omega
    exact UInt8.toNat_inj.mp value
  · rintro rfl
    rfl

variable {input : List Byte}

theorem stream_getD_of_lt {k : Nat} (inside : k < input.length)
    : (stream input).getD k eof = charOfByte input[k] := by
  rw [stream, List.getD_append _ _ _ _ (by rwa [List.length_map]),
    List.getD_eq_getElem _ _ (by rwa [List.length_map]), List.getElem_map]

theorem stream_getD_length : (stream input).getD input.length eof = eof := by
  rw [stream, List.getD_append_right _ _ _ _ (by rw [List.length_map]), List.length_map,
    Nat.sub_self]
  rfl

theorem length_stream : (stream input).length = input.length + 1 := by
  rw [stream, List.length_append, List.length_map, List.length_singleton]

-----------------------------------------------------------------------------------------
-- Who polls next
-----------------------------------------------------------------------------------------

/-- The buffer holds the next character, or the end of the file was read. -/
def Ready (input : List Byte) (console : ConsoleInput) : Prop :=
  console.scheduled = 0 ∧ console.taken ≤ input.length
  ∧ console.incoming = (stream input).getD console.taken eof
  ∧ console.input = input.drop (console.taken + 1)

/-- Before the next instructions of the thread that has the lock one of these holds: a poll is
scheduled, the semaphore tells of a character, the thread is about to take it, or the end of
the file has been delivered.
-/
inductive Polls (input : List Byte)
    : ConsoleInput → Int → List (Instruction Unit) → Prop
  | polling {console : ConsoleInput} {rest : List (Instruction Unit)}
      (outside : rest = [] ∨ rest = [.p, .request ()])
      (scheduled : console.scheduled = 1)
      (empty : console.incoming = eof)
      (left : console.input = input.drop console.taken)
      (more : console.taken ≤ input.length)
      : Polls input console 0 rest
  | available {console : ConsoleInput} {rest : List (Instruction Unit)}
      (outside : rest = [] ∨ rest = [.p, .request ()]) (ready : Ready input console)
      : Polls input console 1 rest
  | taking {console : ConsoleInput} (ready : Ready input console)
      : Polls input console 0 [.request ()]
  | ended {console : ConsoleInput} {rest : List (Instruction Unit)}
      (outside : rest = [] ∨ rest = [.p, .request ()])
      (scheduled : console.scheduled = 0) (all : console.taken = input.length + 1)
      : Polls input console 0 rest

/-- The memory of the keyboard is how much was taken. -/
def effect (input : List Byte) (_ : Unit) (taken : Nat) : Int × Nat :=
  ((stream input).getD taken eof, taken + 1)

/-- The next character is no mark of an empty buffer unless the input has ended. -/
theorem taken_of_eof {console : ConsoleInput} (proper : 255 ∉ input)
    (ready : Ready input console) (empty : console.incoming = eof)
    : console.taken = input.length := by
  obtain ⟨_, more, incoming, _⟩ := ready
  by_contra apart
  have inside : console.taken < input.length := lt_of_le_of_ne more apart
  rw [incoming, stream_getD_of_lt inside, charOfByte_eq_eof_iff] at empty
  exact proper (empty ▸ List.getElem_mem inside)

/-- GetChar takes the character that has come and schedules the next poll, by cases on whether one
has come.
-/
theorem getChar_polls {console : ConsoleInput} (proper : 255 ∉ input)
    (ready : Ready input console)
    : Polls input console.getChar.2 0 [] := by
  by_cases empty : console.incoming = eof
  · have all := taken_of_eof proper ready empty
    refine .ended (.inl rfl) ?_ ?_
    · simp only [getChar, empty]
      exact ready.1
    · exact congrArg (· + 1) all
  · have inside : console.taken < input.length := by
      by_contra past
      have all : console.taken = input.length := le_antisymm ready.2.1 (not_lt.mp past)
      rw [ready.2.2.1, all] at empty
      exact empty stream_getD_length
    refine .polling (.inl rfl) ?_ rfl ready.2.2.2 inside
    exact (if_pos empty).trans (congrArg (· + 1) ready.1)

/-- A poll schedules the next one, or reads a character or the end of the file. -/
theorem callBack_polls {console : ConsoleInput} {rest : List (Instruction Unit)}
    (outside : rest = [] ∨ rest = [.p, .request ()])
    (scheduled : console.scheduled = 1) (empty : console.incoming = eof)
    (left : console.input = input.drop console.taken) (more : console.taken ≤ input.length)
    (available : Bool)
    : ∃ signals next,
        callBack available console = .ok (signals, next)
        ∧ next.taken = console.taken
        ∧ Polls input next (if signals then 1 else 0) rest := by
  have none : console.scheduled - 1 = 0 := by omega
  unfold callBack
  rw [bind_ok (require_of empty _)]
  cases available with
  | false =>
      exact ⟨_, _, rfl, rfl, .polling outside (congrArg (· + 1) none) empty left more⟩
  | true =>
      cases bytes : console.input with
      | nil =>
          have all : console.taken = input.length := by
            rw [left, List.drop_eq_nil_iff] at bytes
            omega
          refine ⟨true, _, rfl, rfl, .available outside ⟨none, more, ?_, ?_⟩⟩
          · change console.incoming = (stream input).getD console.taken eof
            rw [empty, all, stream_getD_length]
          · change [] = input.drop (console.taken + 1)
            rw [List.drop_eq_nil_of_le (by omega)]
      | cons byte others =>
          rw [left] at bytes
          have inside : console.taken < input.length := by
            by_contra past
            rw [List.drop_eq_nil_of_le (not_lt.mp past)] at bytes
            exact nomatch bytes
          rw [List.drop_eq_getElem_cons inside] at bytes
          obtain ⟨first, others⟩ := List.cons.inj bytes
          refine ⟨true, _, rfl, rfl, .available outside ⟨none, more, ?_, others.symm⟩⟩
          change charOfByte byte = (stream input).getD console.taken eof
          rw [stream_getD_of_lt inside, first]

/-- Without the byte that reads as the mark, the duty to poll is handed over exactly once. -/
theorem protocol (proper : 255 ∉ input)
    : Protocol synchConsoleInput (Polls input) ConsoleInput.taken (effect input) where
  begin := by
    intro console value call _ polls
    cases polls with
    | polling outside scheduled empty left more =>
        exact .polling (.inr rfl) scheduled empty left more
    | available outside ready => exact .available (.inr rfl) ready
    | ended outside scheduled all => exact .ended (.inr rfl) scheduled all
  request := by
    intro console value request rest polls
    cases polls with
    | polling outside => exact absurd outside (by simp)
    | available outside => exact absurd outside (by simp)
    | ended outside => exact absurd outside (by simp)
    | taking ready =>
        refine ⟨console.getChar.2, ?_, rfl, getChar_polls proper ready⟩
        rw [effect, ← ready.2.2.1]
        rfl
  p := by
    intro console value rest polls available
    cases polls with
    | polling => exact absurd rfl available
    | ended => exact absurd rfl available
    | available outside ready =>
        have last : rest = [.request ()] := by simpa using outside
        exact last ▸ .taking ready
  callBack := by
    intro console value rest available polls pending
    have scheduled : 0 < console.scheduled := pending
    cases polls with
    | polling outside one empty left more =>
        obtain ⟨signals, next, handled, same, kept⟩ :=
          callBack_polls outside one empty left more available
        refine ⟨signals, next, handled, same, ?_⟩
        cases signals <;> exact kept
    | available outside ready => exact absurd ready.1 (by omega)
    | taking ready => exact absurd ready.1 (by omega)
    | ended outside none => exact absurd none (by omega)

-----------------------------------------------------------------------------------------
-- Inputs that are delivered
-----------------------------------------------------------------------------------------

/-- Calls made one after the other take the stream apart, by induction on them. -/
theorem serial_taken (calls : List Unit) (taken : Nat)
    : (serial synchConsoleInput.script (effect input) calls taken).2 = taken + calls.length
      ∧ (serial synchConsoleInput.script (effect input) calls taken).1.flatMap Prod.snd
        = (List.range' taken calls.length).map (fun k => (stream input).getD k eof) := by
  induction calls generalizing taken with
  | nil => exact ⟨rfl, rfl⟩
  | cons call rest ih =>
      obtain ⟨count, values⟩ := ih (taken + 1)
      refine ⟨count.trans ?_, ?_⟩
      · rw [List.length_cons]
        omega
      · exact congrArg (_ :: ·) values

/-- Every request takes one character, by induction on them. -/
theorem execute_taken (requests : List Unit) (taken : Nat)
    : (execute (effect input) requests taken).2 = taken + requests.length := by
  induction requests generalizing taken with
  | nil => rfl
  | cons request rest ih =>
      refine (ih _).trans ?_
      rw [List.length_cons]
      exact Nat.succ_add_eq_add_succ _ _

theorem taken_le_of_execute {requests : List Unit} {taken after : Nat} {outputs : List Int}
    (ran : execute (effect input) requests taken = (outputs, after))
    : taken ≤ after := by
  have count := @execute_taken input requests taken
  rw [ran] at count
  exact Nat.le.intro count.symm

/-- The first characters of the stream are a prefix of it. -/
theorem map_getD_prefix {count : Nat} (few : count ≤ (stream input).length)
    : (List.range' 0 count).map (fun k => (stream input).getD k eof) <+: stream input := by
  rw [List.prefix_iff_eq_take, List.length_map, List.length_range']
  refine List.ext_getElem ?_ ?_
  · rw [List.length_map, List.length_range', List.length_take, min_eq_left few]
  · intro k inside _
    rw [List.length_map, List.length_range'] at inside
    rw [List.getElem_map, List.getElem_range', List.getElem_take, Nat.zero_add, Nat.one_mul,
      List.getD_eq_getElem _ _ (by omega)]

variable {ι : Type} {state : State ι Unit Unit Int ConsoleInput} {current : Option ι}

theorem Polls.taken_le {console : ConsoleInput} {value : Int}
    {rest : List (Instruction Unit)} (polls : Polls input console value rest)
    : console.taken ≤ input.length + 1 := by
  cases polls with
  | polling outside scheduled empty left more => exact Nat.le_succ_of_le more
  | available outside ready | taking ready => exact Nat.le_succ_of_le ready.2.1
  | ended outside scheduled all => exact all.le

/-- The calls that returned have taken no more than all calls together. -/
theorem returned_prefix
    (holds
      : Holds synchConsoleInput (Polls input) ConsoleInput.taken (effect input) 0 current
          state)
    : state.returned.flatMap Prod.snd <+: stream input := by
  obtain ⟨before, ran, free, did⟩ := holds.served
  obtain ⟨count, values⟩ := @serial_taken input (state.returned.map Prod.fst) 0
  rw [ran, Nat.zero_add] at count
  rw [ran] at values
  have limit := holds.device.taken_le
  have later : before ≤ state.device.taken := by
    cases has : current with
    | none => exact (free has).ge
    | some t =>
        have progress := did t has
        cases where_ : state.threads t with
        | outside | acquiring call =>
            exact absurd has (fun mine => (holds.only t).mpr mine (by rw [where_]; rfl))
        | acquired call =>
            rw [where_] at progress
            exact progress.ge
        | inside call rest outputs =>
            rw [where_] at progress
            obtain ⟨done, _, ran⟩ := progress
            exact taken_le_of_execute ran
        | releasing call outputs =>
            rw [where_] at progress
            exact taken_le_of_execute progress
  rw [values]
  refine map_getD_prefix ?_
  rw [length_stream, ← count]
  exact later.trans limit

/-- While characters remain the next one can still arrive. -/
theorem alive_of_holds
    (holds
      : Holds synchConsoleInput (Polls input) ConsoleInput.taken (effect input) 0 current
          state)
    (remain : state.device.taken < (stream input).length)
    : Alive state := by
  rw [length_stream] at remain
  have polls := holds.device
  generalize value : state.waitFor.value = count at polls
  generalize script : current.elim [] _ = rest at polls
  cases polls with
  | polling outside scheduled => exact .inl (by omega)
  | available => exact .inr (.inl (by omega))
  | ended outside scheduled all => omega
  | taking =>
      cases has : current with
      | none =>
          rw [has] at script
          exact nomatch script
      | some t =>
          rw [has, Option.elim_some] at script
          cases where_ : state.threads t with
          | outside | acquiring call | releasing call outputs =>
              rw [where_] at script
              exact nomatch script
          | acquired call =>
              rw [where_] at script
              exact absurd script (by simp [Progress.rest, synchConsoleInput])
          | inside call rest outputs =>
              rw [where_] at script
              obtain rfl : rest = [.request ()] := script
              exact .inr (.inr ⟨t, outputs, where_⟩)

/-- Without a byte 255 all characters arrive in order, since the protocol holds in every reachable
state.
-/
theorem delivers_of_proper [DecidableEq ι] (proper : 255 ∉ input) : Delivers ι input := by
  intro state reachable
  have initially : Polls input (new input) 0 [] :=
    .polling (.inl rfl) rfl rfl rfl (Nat.zero_le _)
  obtain ⟨current, holds⟩ := (protocol proper).holds_of_reachable initially reachable
  refine ⟨?_, returned_prefix holds, alive_of_holds holds⟩
  intro action legal
  obtain ⟨after, performed, _⟩ := holds.perform (protocol proper) legal
  exact ⟨after, performed⟩

-----------------------------------------------------------------------------------------
-- Inputs that are cut off
-----------------------------------------------------------------------------------------

/-- One thread in a call, all others outside. -/
def alone [DecidableEq ι] (t : ι) (progress : Progress Unit Unit Int) (lock : Int)
    (lockHolder : Option ι) (waitFor : Int) (console : ConsoleInput) (acquired : List Unit)
    (returned : List (Unit × List Int))
    : State ι Unit Unit Int ConsoleInput where
  lock := .new lock
  lockHolder := lockHolder
  waitFor := .new waitFor
  device := console
  threads := Function.update (fun _ => .outside) t progress
  acquired := acquired
  returned := returned

/-- The keyboard before a poll, and after a character was taken from it. -/
def between (input : List Byte) (scheduled taken : Nat) : ConsoleInput :=
  { incoming := eof, input, scheduled, taken }

/-- A thread reads the next byte while no other thread makes a call. -/
theorem reads_byte [DecidableEq ι] (t : ι) (byte : Byte) (rest : List Byte) (taken : Nat)
    (acquired : List Unit) (returned : List (Unit × List Int))
    : Runs.Reachable synchConsoleInput.Step
        (alone t .outside 1 none 0 (between (byte :: rest) 1 taken) acquired returned)
        (alone t .outside 1 none 0
          (between rest (if charOfByte byte ≠ eof then 1 else 0) (taken + 1))
          (acquired ++ [()]) (returned ++ [((), [charOfByte byte])])) := by
  let filled : ConsoleInput :=
    { incoming := charOfByte byte, input := rest, scheduled := 0, taken }
  let final := between rest (if charOfByte byte ≠ eof then 1 else 0) (taken + 1)
  let free progress waitFor console :=
    alone t progress 1 none waitFor console acquired returned
  let locked progress lockHolder waitFor console :=
    alone t progress 0 lockHolder waitFor console (acquired ++ [()]) returned
  have polled
      : synchConsoleInput.Step (free .outside 0 (between (byte :: rest) 1 taken))
          (.interrupt true) (free .outside 1 filled) :=
    ⟨Nat.one_pos, rfl⟩
  have begun
      : synchConsoleInput.Step (free .outside 1 filled) (.begin t ())
          (free (.acquiring ()) 1 filled) := by
    simp [free, Driver.Step, Driver.Legal, Driver.perform, alone, synchConsoleInput]
  have acquiring
      : synchConsoleInput.Step (free (.acquiring ()) 1 filled) (.advance t)
          (locked (.acquired ()) none 1 filled) := by
    simp [free, locked, Driver.Step, Driver.Legal, Driver.perform, Driver.advance,
      Semaphore.p, Semaphore.new, alone, bind, Except.bind, pure, Except.pure]
  have entered
      : synchConsoleInput.Step (locked (.acquired ()) none 1 filled) (.advance t)
          (locked (.inside () [.p, .request ()] []) (some t) 1 filled) := by
    simp [locked, Driver.Step, Driver.Legal, Driver.perform, Driver.advance, Semaphore.new,
      alone, synchConsoleInput]
  have passed
      : synchConsoleInput.Step (locked (.inside () [.p, .request ()] []) (some t) 1 filled)
          (.advance t) (locked (.inside () [.request ()] []) (some t) 0 filled) := by
    simp [locked, Driver.Step, Driver.Legal, Driver.perform, Driver.advance, Semaphore.p,
      Semaphore.new, alone, bind, Except.bind, pure, Except.pure]
  have taking
      : synchConsoleInput.Step (locked (.inside () [.request ()] []) (some t) 0 filled)
          (.advance t) (locked (.inside () [] [charOfByte byte]) (some t) 0 final) := by
    simp [locked, Driver.Step, Driver.Legal, Driver.perform, Driver.advance, Semaphore.new,
      alone, synchConsoleInput, getChar, filled, final, between, bind, Except.bind, pure,
      Except.pure]
  have released
      : synchConsoleInput.Step (locked (.inside () [] [charOfByte byte]) (some t) 0 final)
          (.advance t) (locked (.releasing () [charOfByte byte]) none 0 final) := by
    simp [locked, Driver.Step, Driver.Legal, Driver.perform, Driver.advance, Semaphore.new,
      alone, require, bind, Except.bind, pure, Except.pure]
  have returning
      : synchConsoleInput.Step (locked (.releasing () [charOfByte byte]) none 0 final)
          (.advance t)
          (alone t .outside 1 none 0 final (acquired ++ [()])
            (returned ++ [((), [charOfByte byte])])) := by
    simp [locked, Driver.Step, Driver.Legal, Driver.perform, Driver.advance, Semaphore.v,
      Semaphore.new, alone]
  exact ((((((((Runs.Reachable.refl _).snoc polled).snoc begun).snoc acquiring).snoc
    entered).snoc passed).snoc taking).snoc released).snoc returning

/-- All bytes up to one that reads as the mark are read, and then no poll is scheduled, by
induction on the bytes before it.
-/
theorem stops_polling [DecidableEq ι] (t : ι) {before : List Byte} (proper : 255 ∉ before)
    (later : List Byte) (taken : Nat) (acquired : List Unit)
    (returned : List (Unit × List Int))
    : ∃ calls values,
        Runs.Reachable synchConsoleInput.Step
          (alone t .outside 1 none 0 (between (before ++ 255 :: later) 1 taken) acquired
            returned)
          (alone t .outside 1 none 0 (between later 0 (taken + before.length + 1)) calls
            values) := by
  induction before generalizing taken acquired returned with
  | nil => exact ⟨_, _, reads_byte t 255 later taken acquired returned⟩
  | cons byte rest ih =>
      obtain ⟨calls, values, others⟩ :=
        ih (List.not_mem_of_not_mem_cons proper) (taken + 1) (acquired ++ [()])
          (returned ++ [((), [charOfByte byte])])
      have apart : charOfByte byte ≠ eof := by
        rw [Ne, charOfByte_eq_eof_iff]
        exact Ne.symm (List.ne_of_not_mem_cons proper)
      have first := reads_byte t byte (rest ++ 255 :: later) taken acquired returned
      rw [if_pos apart] at first
      have count : taken + 1 + rest.length + 1 = taken + (byte :: rest).length + 1 := by
        rw [List.length_cons]
        omega
      rw [count] at others
      exact ⟨calls, values, first.trans others⟩

/-- An input with a byte that reads as the mark is not delivered. -/
theorem not_delivers_of_mem [DecidableEq ι] [Inhabited ι] (member : 255 ∈ input)
    : ¬Delivers ι input := by
  intro delivers
  obtain ⟨before, later, split, proper⟩ := List.eq_append_cons_of_mem member
  obtain ⟨calls, values, reachable⟩ :=
    stops_polling (default : ι) proper later 0 [] []
  have start
      : alone (default : ι) .outside 1 none 0 (between input 1 0) [] []
        = initial (new input) := by
    rw [alone, Function.update_eq_self_iff.mpr rfl]
    rfl
  rw [← split, start] at reachable
  obtain ⟨_, _, alive⟩ := delivers _ reachable
  have remain : 0 + before.length + 1 < (stream input).length := by
    rw [length_stream, split, List.length_append, List.length_cons]
    omega
  rcases alive remain with polls | signalled | ⟨t, outputs, inside⟩
  · exact absurd polls (lt_irrefl _)
  · exact absurd signalled (lt_irrefl _)
  · change Function.update (fun _ => Progress.outside) default .outside t = _ at inside
    rw [Function.update_eq_self_iff.mpr rfl] at inside
    exact nomatch inside

/-- The input is delivered exactly when none of its bytes reads as the mark of an empty
buffer.
-/
theorem delivers_iff (ι : Type) [DecidableEq ι] [Inhabited ι] (input : List Byte)
    : Delivers ι input ↔ 255 ∉ input :=
  ⟨fun delivers member => not_delivers_of_mem member delivers, delivers_of_proper⟩

/-- The first of two bytes reads as the mark, and the second is never polled for. -/
theorem byte_255_stops_polling : ¬Delivers Bool [255, 65] :=
  not_delivers_of_mem (by decide)

end ConsoleInput

end Nachos.UserProg
