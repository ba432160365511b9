import Mathlib.Data.List.GetD
import Mathlib.Logic.Function.Basic
import Mathlib.Tactic.SplitIfs
import Nachos.Fault
import Nachos.Lib.Folds

/-! The command line of the third project: the programs that it names, and the threads that are
started for them.
-/

namespace Nachos.CommandLine

-----------------------------------------------------------------------------------------
-- Kernel
-----------------------------------------------------------------------------------------

/-- `INIT_PRIORITY`. -/
def initPriority : Int := 0

structure Execfile where
  filename : Option String
  threadPriority : Int
  deriving DecidableEq

/-- `Execfile()`. -/
def Execfile.new : Execfile := { filename := none, threadPriority := initPriority }

/-- The parts of a thread that its constructor gets. -/
structure Thread where
  name : Option String
  ID : Int
  priority : Int
  deriving DecidableEq

structure Kernel where
  randomSlice : Bool
  debugUserProg : Bool
  execExit : Bool
  consoleIn : Option String
  consoleOut : Option String
  /-- The text of `reliability`, when one is given. -/
  reliability : Option String
  hostName : Int
  /-- The last argument of `RandomInit`. -/
  randomSeed : Option Int
  execfileInfo : Fin 10 → Execfile
  execfile : Fin 10 → Option String
  execfileNum : Int
  t : Fin 10 → Option Thread
  threadNum : Int
  currentThread : Option Thread
  /-- The threads that `Fork` was called for, in this order. -/
  forked : List Thread

/-- `atoi`: an optional sign and digits after blanks, up to the limits of an `int`. -/
def atoi (text : String) : Int :=
  let text := text.toList.dropWhile (fun char => char = ' ' ∨ '\t' ≤ char ∧ char ≤ '\r')
  let number (digits : List Char) : Int :=
    (digits.takeWhile Char.isDigit).foldl (fun value digit => value * 10 + (digit.toNat - 48)) 0
  max (-2147483648) (min 2147483647 (
    match text with
    | '-' :: digits => -number digits
    | '+' :: digits => number digits
    | digits => number digits))

/-- An index into one of the arrays of ten. -/
def entryAt (index : Int) : Except Fault (Fin 10) :=
  if inside : 0 ≤ index ∧ index < 10 then .ok ⟨index.toNat, by omega⟩
  else .error .outOfBounds

namespace Kernel

/-- The members at the beginning of the constructor. -/
def blank (threadNum : Int) : Kernel where
  randomSlice := false
  debugUserProg := false
  execExit := false
  consoleIn := none
  consoleOut := none
  reliability := none
  hostName := 0
  randomSeed := none
  execfileInfo _ := Execfile.new
  execfile _ := none
  execfileNum := 0
  t _ := none
  threadNum
  currentThread := none
  forked := []

/-- `ExecfileInfo[++execfileNum] = info`. -/
def addExecfileInfo (kernel : Kernel) (info : Execfile) : Except Fault Kernel := do
  let entry ← entryAt (kernel.execfileNum + 1)
  return {
    kernel with
    execfileNum := kernel.execfileNum + 1
    execfileInfo := Function.update kernel.execfileInfo entry info
  }

/-- `execfile[++execfileNum] = name`. -/
def addExecfile (kernel : Kernel) (name : Option String) : Except Fault Kernel := do
  let entry ← entryAt (kernel.execfileNum + 1)
  return {
    kernel with
    execfileNum := kernel.execfileNum + 1
    execfile := Function.update kernel.execfile entry name
  }

/-- The loop of the constructor, from a word on. -/
def interpret : List String → Kernel → Except Fault Kernel
  | [], kernel => .ok kernel
  | word :: rest, kernel =>
      if word = "-rs" then
        match rest with
        | seed :: rest =>
            interpret rest { kernel with randomSeed := some (atoi seed), randomSlice := true }
        | [] => .error .assertion
      else if word = "-s" then interpret rest { kernel with debugUserProg := true }
      else if word = "-ep" then
        match rest with
        | name :: priority :: rest => do
            let kernel ← kernel.addExecfileInfo
              { filename := some name, threadPriority := atoi priority }
            interpret rest kernel
        -- The priority is the null pointer after the last word, or beyond it.
        | [_] => .error .nullPointer
        | [] => .error .outOfBounds
      else if word = "-e" then
        match rest with
        | name :: rest => do
            let kernel ← kernel.addExecfile (some name)
            interpret rest kernel
        | [] => kernel.addExecfile none
      else if word = "-ee" then interpret rest { kernel with execExit := true }
      else if word = "-ci" then
        match rest with
        | file :: rest => interpret rest { kernel with consoleIn := some file }
        | [] => .error .assertion
      else if word = "-co" then
        match rest with
        | file :: rest => interpret rest { kernel with consoleOut := some file }
        | [] => .error .assertion
      else if word = "-n" then
        match rest with
        | number :: rest => interpret rest { kernel with reliability := some number }
        | [] => .error .assertion
      else if word = "-m" then
        match rest with
        | number :: rest => interpret rest { kernel with hostName := atoi number }
        | [] => .error .assertion
      -- `-u` only prints, and other words are for others.
      else interpret rest kernel

/-- The constructor; the first word is the name of the command. -/
def new (threadNum : Int) (argv : List String) : Except Fault Kernel :=
  interpret argv.tail (blank threadNum)

/-- What `Initialize` does with the members here. -/
def initializeKernel (kernel : Kernel) : Kernel :=
  {
    kernel with
    currentThread :=
      some { name := some "main", ID := kernel.threadNum, priority := initPriority }
    threadNum := kernel.threadNum + 1
  }

/-- `Exec`. -/
def exec (kernel : Kernel) (name : Option String) (priority : Int) : Except Fault Kernel := do
  let entry ← entryAt kernel.threadNum
  let thread : Thread := { name, ID := kernel.threadNum, priority }
  return {
    kernel with
    t := Function.update kernel.t entry (some thread)
    forked := kernel.forked ++ [thread]
    threadNum := kernel.threadNum + 1
  }

/-- The loop of `ExecAll`: so many rounds from `i` on. -/
def execFrom : Nat → Int → Kernel → Except Fault Kernel
  | 0, _, kernel => .ok kernel
  | rounds + 1, i, kernel => do
      let entry ← entryAt i
      let info := kernel.execfileInfo entry
      let kernel ← kernel.exec info.filename info.threadPriority
      execFrom rounds (i + 1) kernel

/-- `ExecAll`, up to `Finish`. -/
def execAll (kernel : Kernel) : Except Fault Kernel :=
  execFrom kernel.execfileNum.toNat 1 kernel

/-- What `main` does with a command line. -/
def start (threadNum : Int) (argv : List String) : Except Fault Kernel := do
  let kernel ← new threadNum argv
  kernel.initializeKernel.execAll

end Kernel

-----------------------------------------------------------------------------------------
-- Options
-----------------------------------------------------------------------------------------

/-- An option with its arguments. -/
inductive CommandOption where
  | rs (seed : String)
  | s
  | ep (name priority : String)
  | e (name : String)
  | ee
  | ci (file : String)
  | co (file : String)
  | n (number : String)
  | m (number : String)
  /-- A word that is none of the options above. -/
  | other (word : String)

def optionWords : List String := ["-rs", "-s", "-ep", "-e", "-ee", "-ci", "-co", "-n", "-m"]

namespace CommandOption

/-- How an option is written. -/
def words : CommandOption → List String
  | .rs seed => ["-rs", seed]
  | .s => ["-s"]
  | .ep name priority => ["-ep", name, priority]
  | .e name => ["-e", name]
  | .ee => ["-ee"]
  | .ci file => ["-ci", file]
  | .co file => ["-co", file]
  | .n number => ["-n", number]
  | .m number => ["-m", number]
  | .other word => [word]

/-- Other words do not look like an option. -/
def Proper : CommandOption → Prop
  | .other word => word ∉ optionWords
  | _ => True

/-- The program that an option asks for, and its priority. -/
def program : CommandOption → Option (String × Int)
  | .e name => some (name, initPriority)
  | .ep name priority => some (name, atoi priority)
  | _ => none

/-- The entry of `ExecfileInfo` that an option with a program leaves. -/
def entry : CommandOption → Option Execfile
  | .e _ => some Execfile.new
  | .ep name priority => some { filename := some name, threadPriority := atoi priority }
  | _ => none

/-- What the constructor does for an option. -/
def apply (kernel : Kernel) : CommandOption → Except Fault Kernel
  | .rs seed => .ok { kernel with randomSeed := some (atoi seed), randomSlice := true }
  | .s => .ok { kernel with debugUserProg := true }
  | .ep name priority =>
      kernel.addExecfileInfo { filename := some name, threadPriority := atoi priority }
  | .e name => kernel.addExecfile (some name)
  | .ee => .ok { kernel with execExit := true }
  | .ci file => .ok { kernel with consoleIn := some file }
  | .co file => .ok { kernel with consoleOut := some file }
  | .n number => .ok { kernel with reliability := some number }
  | .m number => .ok { kernel with hostName := atoi number }
  | .other _ => .ok kernel

end CommandOption

/-- A command line with options in some order. -/
def commandLine (command : String) (options : List CommandOption) : List String :=
  command :: options.flatMap CommandOption.words

def programs (options : List CommandOption) : List (String × Int) :=
  options.filterMap CommandOption.program

def entries (options : List CommandOption) : List Execfile :=
  options.filterMap CommandOption.entry

/-- One thread is started for each program, in order and with its name and priority. -/
def StartsEach (threadNum : Int) (argv : List String) (programs : List (String × Int)) : Prop :=
  ∃ kernel,
    Kernel.start threadNum argv = .ok kernel
    ∧ kernel.forked.map (fun thread => (thread.name, thread.priority))
      = programs.map (fun (name, priority) => (some name, priority))

-----------------------------------------------------------------------------------------
-- Interpretation
-----------------------------------------------------------------------------------------

open CommandOption Kernel

variable {option : CommandOption} {options : List CommandOption} {kernel after : Kernel}

/-- The words of one option are taken together and have its effect, by cases on the option. -/
theorem interpret_words (proper : option.Proper) (rest : List String) (kernel : Kernel)
    : interpret (option.words ++ rest) kernel = option.apply kernel >>= interpret rest := by
  cases option with
  | other word =>
      simp only [Proper, optionWords, List.mem_cons, List.not_mem_nil, or_false, not_or] at proper
      obtain ⟨rs, s, ep, e, ee, ci, co, n, m⟩ := proper
      rw [words, List.singleton_append]
      unfold interpret
      rw [if_neg rs, if_neg s, if_neg ep, if_neg e, if_neg ee, if_neg ci, if_neg co, if_neg n,
        if_neg m]
      rfl
  | _ =>
      simp only [words, List.cons_append, List.nil_append]
      unfold interpret
      rfl

/-- The words of the options are read back as these options. -/
theorem interpret_options (proper : ∀ option ∈ options, option.Proper) (kernel : Kernel)
    : interpret (options.flatMap words) kernel = options.foldlM apply kernel := by
  induction options generalizing kernel with
  | nil => rfl
  | cons option rest ih =>
      rw [List.flatMap_cons, interpret_words (proper _ List.mem_cons_self), List.foldlM_cons]
      congr 1
      funext next
      exact ih (fun other member => proper _ (List.mem_cons_of_mem _ member)) next

-----------------------------------------------------------------------------------------
-- Entries
-----------------------------------------------------------------------------------------

variable {known : List Execfile} {entry : Fin 10} {index : Int}

/-- An index is an entry of the table when it is inside. -/
theorem entryAt_eq_ok_iff : entryAt index = .ok entry ↔ index = entry.val := by
  unfold entryAt
  split_ifs with inside
  · simp only [Except.ok.injEq, Fin.ext_iff]
    omega
  · simp only [false_iff]
    omega

theorem exists_entryAt (inside : 0 ≤ index ∧ index < 10) : ∃ entry, entryAt index = .ok entry :=
  ⟨_, dif_pos inside⟩

/-- The name that was added last has the last number. -/
theorem getD_append_singleton (list : List Execfile) (last default : Execfile) (index : Nat)
    : (list ++ [last]).getD index default
      = if index = list.length then last else list.getD index default := by
  rw [List.getD_eq_getElem?_getD, List.getD_eq_getElem?_getD]
  by_cases end_ : index = list.length
  · rw [if_pos end_, end_]
    simp
  · rw [if_neg end_]
    by_cases before : index < list.length
    · rw [List.getElem?_append_left before]
    · rw [List.getElem?_eq_none (by simp; omega), List.getElem?_eq_none (by omega)]

/-- The table holds the entries from place 1 on, and defaults around them. -/
structure Holds (kernel : Kernel) (known : List Execfile) : Prop where
  count : kernel.execfileNum = known.length
  info (entry : Fin 10)
    : kernel.execfileInfo entry = (Execfile.new :: known).getD entry.val Execfile.new

theorem blank_holds (threadNum : Int) : Holds (blank threadNum) [] where
  count := rfl
  info entry := by
    rw [blank, ← List.nil_append [Execfile.new], getD_append_singleton]
    split_ifs <;> rfl

/-- What is left when the next place in a table is found. -/
theorem exists_of_entryAt {α : Type} {next : Fin 10 → Except Fault α} {result : α}
    (returned : (entryAt index >>= next) = .ok result)
    : ∃ entry, index = entry.val ∧ next entry = .ok result := by
  cases found : entryAt index with
  | error fault =>
      rw [found] at returned
      exact nomatch returned
  | ok entry =>
      rw [found] at returned
      exact ⟨entry, entryAt_eq_ok_iff.mp found, returned⟩

/-- An option for a program with its priority is added to the table. -/
theorem Holds.addExecfileInfo (holds : Holds kernel known) {info : Execfile}
    (added : kernel.addExecfileInfo info = .ok after)
    : Holds after (known ++ [info])
      ∧ after.threadNum = kernel.threadNum
      ∧ after.forked = kernel.forked
      ∧ known.length < 9 := by
  obtain ⟨entry, place, added⟩ := exists_of_entryAt added
  obtain rfl := Except.ok.inj added
  rw [holds.count] at place
  have inside := entry.isLt
  refine ⟨⟨?_, ?_⟩, rfl, rfl, by omega⟩
  · simp [holds.count]
  · intro other
    rw [← List.cons_append, getD_append_singleton, List.length_cons]
    by_cases same : other = entry
    · rw [same, if_pos (by omega)]
      exact Function.update_self ..
    · have apart : other.val ≠ entry.val := fun equal => same (Fin.ext equal)
      rw [if_neg (by omega)]
      exact (Function.update_of_ne same ..).trans (holds.info other)

/-- An option for a program without a priority leaves the table as it is, and counts an entry. -/
theorem Holds.addExecfile (holds : Holds kernel known) {name : Option String}
    (added : kernel.addExecfile name = .ok after)
    : Holds after (known ++ [Execfile.new])
      ∧ after.threadNum = kernel.threadNum
      ∧ after.forked = kernel.forked
      ∧ known.length < 9 := by
  obtain ⟨entry, place, added⟩ := exists_of_entryAt added
  obtain rfl := Except.ok.inj added
  rw [holds.count] at place
  have inside := entry.isLt
  refine ⟨⟨?_, ?_⟩, rfl, rfl, by omega⟩
  · simp [holds.count]
  · intro other
    rw [← List.cons_append, getD_append_singleton]
    refine (holds.info other).trans ?_
    split_ifs with last
    · rw [last, List.getD_eq_getElem?_getD, List.getElem?_eq_none (Nat.le_refl _)]
      rfl
    · rfl

/-- Room in both tables is all that an option needs. -/
theorem exists_added (holds : Holds kernel known) (room : known.length < 9)
    : (∀ info, ∃ after, kernel.addExecfileInfo info = .ok after)
      ∧ ∀ name, ∃ after, kernel.addExecfile name = .ok after := by
  have count := holds.count
  obtain ⟨entry, found⟩ := @exists_entryAt (kernel.execfileNum + 1) (by omega)
  constructor
  · intro info
    rw [Kernel.addExecfileInfo, found]
    exact ⟨_, rfl⟩
  · intro name
    rw [Kernel.addExecfile, found]
    exact ⟨_, rfl⟩

theorem entries_append_singleton (options : List CommandOption) (option : CommandOption)
    : entries (options ++ [option]) = entries options ++ option.entry.toList := by
  rw [entries, List.filterMap_append, List.filterMap_cons]
  cases option.entry <;> rfl

/-- What the kernel has after some of the options. -/
structure Interpreted (threadNum : Int) (options : List CommandOption) (kernel : Kernel) : Prop where
  holds : Holds kernel (entries options)
  threadNum_eq : kernel.threadNum = threadNum
  forked_eq : kernel.forked = []
  fits : (entries options).length ≤ 9

theorem blank_interpreted (threadNum : Int) : Interpreted threadNum [] (blank threadNum) where
  holds := blank_holds threadNum
  threadNum_eq := rfl
  forked_eq := rfl
  fits := Nat.zero_le 9

variable {threadNum : Int}

/-- An option adds its entry. -/
theorem Interpreted.apply (interpreted : Interpreted threadNum options kernel)
    (applied : option.apply kernel = .ok after)
    : Interpreted threadNum (options ++ [option]) after := by
  obtain ⟨holds, rfl, noneForked, fits⟩ := interpreted
  cases option with
  | ep name priority =>
      obtain ⟨holds, threadNum, forked, room⟩ := holds.addExecfileInfo applied
      refine ⟨?_, threadNum, forked.trans noneForked, ?_⟩
      · rwa [entries_append_singleton]
      · rw [entries_append_singleton]
        simp [CommandOption.entry]
        omega
  | e name =>
      obtain ⟨holds, threadNum, forked, room⟩ := holds.addExecfile applied
      refine ⟨?_, threadNum, forked.trans noneForked, ?_⟩
      · rwa [entries_append_singleton]
      · rw [entries_append_singleton]
        simp [CommandOption.entry]
        omega
  | _ =>
      obtain rfl := Except.ok.inj applied
      refine ⟨?_, rfl, noneForked, ?_⟩
      · rw [entries_append_singleton]
        simp only [CommandOption.entry, Option.toList_none, List.append_nil]
        exact ⟨holds.count, holds.info⟩
      · rw [entries_append_singleton]
        simpa [CommandOption.entry] using fits

/-- The options that fail are those with no room for their entry. -/
theorem Interpreted.apply_fails_iff (interpreted : Interpreted threadNum options kernel)
    : (∃ error, option.apply kernel = .error error)
      ↔ 9 < (entries (options ++ [option])).length := by
  constructor
  · rintro ⟨error, failed⟩
    by_contra room
    rw [entries_append_singleton] at room
    cases option with
    | ep name priority =>
        simp [CommandOption.entry] at room
        obtain ⟨after, added⟩ := (exists_added interpreted.holds (by omega)).1
          { filename := some name, threadPriority := atoi priority }
        cases failed.symm.trans added
    | e name =>
        simp [CommandOption.entry] at room
        obtain ⟨after, added⟩ := (exists_added interpreted.holds (by omega)).2 (some name)
        cases failed.symm.trans added
    | _ => cases failed
  · intro full
    cases applied : option.apply kernel with
    | error error => exact ⟨error, rfl⟩
    | ok after => exact absurd (interpreted.apply applied).fits (Nat.not_le.mpr full)

/-- The constructor succeeds exactly when the entries of the options fit the tables. -/
theorem exists_interpreted_iff
    : (∃ kernel,
        options.foldlM CommandOption.apply (blank threadNum) = .ok kernel
        ∧ Interpreted threadNum options kernel)
      ↔ (entries options).length ≤ 9 := by
  constructor
  · rintro ⟨kernel, _, interpreted⟩
    exact interpreted.fits
  · intro fits
    have fails :=
      @Folds.foldlM_error_iff _ _ _ CommandOption.apply (Interpreted threadNum)
        (fun done option => 9 < (entries (done ++ [option])).length) []
        options _ Interpreted.apply Interpreted.apply_fails_iff (blank_interpreted threadNum)
    cases ran : options.foldlM CommandOption.apply (blank threadNum) with
    | ok kernel =>
        exact ⟨kernel, rfl,
          Folds.of_foldlM_ok Interpreted.apply (blank_interpreted threadNum) ran⟩
    | error error =>
        obtain ⟨before, option, rest, rfl, full⟩ := fails.mp ⟨error, ran⟩
        -- The entries only get more.
        have more : (entries (before ++ [option])).length
            ≤ (entries (before ++ option :: rest)).length := by
          rw [List.append_cons before option rest]
          generalize before ++ [option] = started
          rw [entries, entries, List.filterMap_append, List.length_append]
          exact Nat.le_add_right _ _
        exact absurd (Nat.lt_of_lt_of_le full more) (Nat.not_lt.mpr fits)

-----------------------------------------------------------------------------------------
-- Threads
-----------------------------------------------------------------------------------------

/-- The name and the priority of a thread. -/
def nameAndPriority (thread : Thread) : Option String × Int := (thread.name, thread.priority)

/-- The name and the priority of an entry. -/
def Execfile.asked (info : Execfile) : Option String × Int := (info.filename, info.threadPriority)

/-- A program that is started is one more thread. Witness: the table of ten threads has room for
it.
-/
theorem Holds.exec (holds : Holds kernel known) {name : Option String} {priority : Int}
    (made : kernel.exec name priority = .ok after)
    : Holds after known
      ∧ after.threadNum = kernel.threadNum + 1
      ∧ after.forked.map nameAndPriority
        = kernel.forked.map nameAndPriority ++ [(name, priority)]
      ∧ 0 ≤ kernel.threadNum
      ∧ kernel.threadNum < 10 := by
  obtain ⟨entry, place, made⟩ := exists_of_entryAt made
  obtain rfl := Except.ok.inj made
  have inside := entry.isLt
  refine ⟨⟨holds.count, holds.info⟩, rfl, ?_, by omega, by omega⟩
  rw [List.map_append]
  rfl

/-- So many rounds of `ExecAll` make a thread for each of the next entries, while there are numbers
for them.
-/
theorem Holds.execFrom (holds : Holds kernel known) {rounds i : Nat}
    (inside : i + rounds ≤ known.length)
    (started : Kernel.execFrom rounds (i + 1) kernel = .ok after)
    : after.forked.map nameAndPriority
        = kernel.forked.map nameAndPriority ++ ((known.drop i).take rounds).map Execfile.asked
      ∧ (rounds = 0 ∨ (0 ≤ kernel.threadNum ∧ kernel.threadNum + rounds ≤ 10)) := by
  induction rounds generalizing kernel i with
  | zero =>
      obtain rfl := Except.ok.inj started
      simp
  | succ rounds ih =>
      obtain ⟨entry, place, started⟩ := exists_of_entryAt started
      dsimp only at started
      have here : kernel.execfileInfo entry = known[i] := by
        have same : entry.val = i + 1 := by omega
        rw [holds.info, same, List.getD_cons_succ, List.getD_eq_getElem _ _ (by omega)]
      rw [here] at started
      cases made : kernel.exec known[i].filename known[i].threadPriority with
      | error fault =>
          rw [made] at started
          exact nomatch started
      | ok next =>
          rw [made] at started
          obtain ⟨nextHolds, threadNum, forked, low, high⟩ := holds.exec made
          obtain ⟨rest, numbers⟩ := ih nextHolds (by omega : i + 1 + rounds ≤ known.length) started
          have drop : known.drop i = known[i] :: known.drop (i + 1) :=
            List.drop_eq_getElem_cons (by omega)
          rw [rest, forked, List.append_assoc, drop, List.take_succ_cons, List.map_cons]
          refine ⟨rfl, ?_⟩
          omega

/-- Rounds with numbers for their threads have no fault. -/
theorem Holds.exists_execFrom (holds : Holds kernel known) (fits : known.length ≤ 9)
    {rounds i : Nat} (inside : i + rounds ≤ known.length)
    (numbers : rounds = 0 ∨ (0 ≤ kernel.threadNum ∧ kernel.threadNum + rounds ≤ 10))
    : ∃ after, Kernel.execFrom rounds (i + 1) kernel = .ok after := by
  induction rounds generalizing kernel i with
  | zero => exact ⟨kernel, rfl⟩
  | succ rounds ih =>
      obtain ⟨entry, found⟩ := @exists_entryAt (i + 1) (by omega)
      obtain ⟨slot, free⟩ := @exists_entryAt kernel.threadNum (by omega)
      have made (name : Option String) (priority : Int)
          : ∃ next, kernel.exec name priority = .ok next := by
        rw [Kernel.exec, free]
        exact ⟨_, rfl⟩
      obtain ⟨next, made⟩ :=
        made (kernel.execfileInfo entry).filename (kernel.execfileInfo entry).threadPriority
      obtain ⟨nextHolds, threadNum, _⟩ := holds.exec made
      obtain ⟨after, started⟩ := ih nextHolds (by omega : i + 1 + rounds ≤ known.length) (by omega)
      refine ⟨after, ?_⟩
      rw [Kernel.execFrom, found]
      change (kernel.exec _ _ >>= _) = _
      rw [made]
      exact started

-----------------------------------------------------------------------------------------
-- Command lines
-----------------------------------------------------------------------------------------

/-- No program is named without a priority, and the programs are few enough for the tables. -/
def Startable (threadNum : Int) (options : List CommandOption) : Prop :=
  (∀ name, .e name ∉ options)
  ∧ (entries options).length ≤ 9
  ∧ (entries options = [] ∨ (-1 ≤ threadNum ∧ threadNum + (entries options).length ≤ 9))

variable {command : String}

theorem start_commandLine (proper : ∀ option ∈ options, option.Proper)
    : start threadNum (commandLine command options)
      = options.foldlM CommandOption.apply (blank threadNum) >>= fun kernel =>
          kernel.initializeKernel.execAll := by
  rw [← interpret_options proper]
  rfl

theorem Holds.initializeKernel (holds : Holds kernel known)
    : Holds kernel.initializeKernel known ∧ kernel.execfileNum.toNat = known.length :=
  ⟨⟨holds.count, holds.info⟩, by rw [holds.count, Int.toNat_natCast]⟩

/-- A command line without a fault makes a thread for each entry. -/
theorem forked_of_start (proper : ∀ option ∈ options, option.Proper)
    (started : start threadNum (commandLine command options) = .ok after)
    : after.forked.map nameAndPriority = (entries options).map Execfile.asked
      ∧ (entries options).length ≤ 9
      ∧ (entries options = [] ∨ (-1 ≤ threadNum ∧ threadNum + (entries options).length ≤ 9)) := by
  rw [start_commandLine proper] at started
  cases ran : options.foldlM CommandOption.apply (blank threadNum) with
  | error fault =>
      rw [ran] at started
      exact nomatch started
  | ok kernel =>
      rw [ran] at started
      obtain ⟨holds, first, noneForked, fits⟩ :=
        Folds.of_foldlM_ok Interpreted.apply (blank_interpreted threadNum) ran
      rw [List.nil_append] at holds fits
      obtain ⟨ready, rounds⟩ := holds.initializeKernel
      change Kernel.execFrom kernel.execfileNum.toNat ((0 : Nat) + 1) kernel.initializeKernel = _
        at started
      rw [rounds] at started
      obtain ⟨forked, numbers⟩ := ready.execFrom (by omega) started
      change _ = kernel.forked.map nameAndPriority ++ _ at forked
      rw [noneForked, List.drop_zero, List.take_length] at forked
      refine ⟨forked, fits, ?_⟩
      rw [← List.length_eq_zero_iff]
      change _ ∨ (0 ≤ kernel.threadNum + 1 ∧ kernel.threadNum + 1 + _ ≤ 10) at numbers
      omega

/-- Few enough entries have no fault. -/
theorem exists_start (proper : ∀ option ∈ options, option.Proper)
    (fits : (entries options).length ≤ 9)
    (numbers
      : entries options = [] ∨ (-1 ≤ threadNum ∧ threadNum + (entries options).length ≤ 9))
    : ∃ after, start threadNum (commandLine command options) = .ok after := by
  obtain ⟨kernel, ran, holds, sameNum, _⟩ := exists_interpreted_iff.mpr fits
  obtain ⟨ready, rounds⟩ := holds.initializeKernel
  have first : kernel.initializeKernel.threadNum = threadNum + 1 :=
    congrArg (· + 1) sameNum
  rw [← List.length_eq_zero_iff] at numbers
  obtain ⟨after, started⟩ :=
    ready.exists_execFrom fits (by omega : 0 + (entries options).length ≤ _) (by omega)
  refine ⟨after, ?_⟩
  rw [start_commandLine proper, ran]
  change Kernel.execFrom kernel.execfileNum.toNat ((0 : Nat) + 1) kernel.initializeKernel = _
  rw [rounds, started]

/-- The entries ask for the programs when all of them have a priority: the others have no name. -/
theorem asked_entries_iff
    : (entries options).map Execfile.asked
        = (programs options).map (fun (name, priority) => (some name, priority))
      ↔ ∀ name, .e name ∉ options := by
  induction options with
  | nil => simp [entries, programs]
  | cons option rest ih =>
      unfold entries programs at ih ⊢
      cases option with
      | e name =>
          refine iff_of_false ?_ (fun none => none name List.mem_cons_self)
          simp [CommandOption.entry, CommandOption.program, Execfile.asked, Execfile.new]
      | ep name priority =>
          simpa [CommandOption.entry, CommandOption.program, Execfile.asked] using ih
      | _ =>
          rw [List.filterMap_cons_none rfl, List.filterMap_cons_none rfl, ih]
          simp

/-- The programs of a command line are started, each as a thread of its own, when all of them are
given with a priority and there are at most as many as the tables have room for.
-/
theorem startsEach_iff_startable (proper : ∀ option ∈ options, option.Proper)
    : StartsEach threadNum (commandLine command options) (programs options)
      ↔ Startable threadNum options := by
  constructor
  · rintro ⟨after, started, each⟩
    obtain ⟨forked, fits, numbers⟩ := forked_of_start proper started
    exact ⟨asked_entries_iff.mp (forked.symm.trans each), fits, numbers⟩
  · rintro ⟨prioritized, fits, numbers⟩
    obtain ⟨after, started⟩ := exists_start proper fits numbers
    exact ⟨after, started,
      (forked_of_start proper started).1.trans (asked_entries_iff.mpr prioritized)⟩

/-- Two programs with their priorities, among other options. -/
theorem startsEach_iff_startable_of_two
    : StartsEach 0 (commandLine "nachos" [.ep "test1" "40", .s, .other "-d", .ep "test2" "120"])
        (programs [.ep "test1" "40", .s, .other "-d", .ep "test2" "120"])
      ↔ Startable 0 [.ep "test1" "40", .s, .other "-d", .ep "test2" "120"] :=
  startsEach_iff_startable (by simp [Proper, optionWords])

/-- `nachos -e test1` starts a thread without a name. -/
theorem not_startsEach_of_e
    : ¬StartsEach 0 (commandLine "nachos" [.e "test1"]) (programs [.e "test1"]) := by
  rintro ⟨after, started, each⟩
  have forked := (forked_of_start (by simp [Proper]) started).1
  exact absurd (forked.symm.trans each) (by decide)

end Nachos.CommandLine
