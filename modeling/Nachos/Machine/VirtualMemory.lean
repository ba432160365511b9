import Nachos.Machine.Uniformity

/-! Virtual memory as a program sees it. Pages in distinct frames may be in any frames: two machines
whose page tables differ in their frames only, and whose bytes are the same at every virtual
address, do the same instruction after instruction.
-/

namespace Nachos.Mips
open Bytes UserProg Routines Routine

-----------------------------------------------------------------------------------------
-- Page tables and the memory behind them
-----------------------------------------------------------------------------------------

/-- The number of the frame of an entry. -/
def home (entry : TranslationEntry) : Nat := (CInt.unsigned entry.physicalPage).toNat

/-- What an entry says apart from its frame. -/
def flags (entry : TranslationEntry) : Bool × Bool × Bool × Bool :=
  (entry.valid, entry.readOnly, entry.use, entry.dirty)

/-- The pages that can be used are in frames of memory, no two in the same one. -/
structure Separate (table : List TranslationEntry) : Prop where
  inside
    : ∀ (vpn : Nat) entry, table[vpn]? = some entry → entry.valid = true
      → home entry < numPhysPages
  distinct
    : ∀ (vpn other : Nat) entry another, table[vpn]? = some entry → table[other]? = some another
      → entry.valid = true → another.valid = true → home entry = home another
      → vpn = other

/-- Two machines that show a program the same registers and the same virtual memory. -/
structure SameView (left right : Machine) : Prop where
  registers : left.registers = right.registers
  flags : left.pageTable.map flags = right.pageTable.map flags
  separate : Separate left.pageTable ∧ Separate right.pageTable
  bytes
    : ∀ (vpn : Nat) entry another,
        left.pageTable[vpn]? = some entry → right.pageTable[vpn]? = some another
        → entry.valid = true → ∀ offset < pageSize,
          left.mainMemory (home entry * pageSize + offset)
            = right.mainMemory (home another * pageSize + offset)

variable {left right machine : Machine} {table : List TranslationEntry} {addr : BitVec 32}
  {size vpn : Nat} {writing : Bool} {entry another : TranslationEntry}

/-- The relation looks at registers only as a whole, so it is uniform. -/
theorem uniform_sameView : Uniform SameView where
  registers both := both.registers
  set both register value :=
    {
      registers := by rw [Machine.set, Machine.set, both.registers]
      flags := both.flags
      separate := both.separate
      bytes := both.bytes
    }

/-- Setting the bits of an entry moves no page. -/
theorem Separate.touch (separate : Separate table) (found : table[vpn]? = some entry)
    (writing : Bool)
    : Separate (table.set vpn (entry.touch writing)) := by
  have before {other : Nat} {another : TranslationEntry}
      (there : (table.set vpn (entry.touch writing))[other]? = some another)
      : ∃ original, table[other]? = some original ∧ original.valid = another.valid
          ∧ home original = home another := by
    rw [List.getElem?_set] at there
    split at there
    · rename_i same
      subst same
      split at there
      · obtain rfl := Option.some.inj there
        exact ⟨entry, found, rfl, rfl⟩
      · cases there
    · exact ⟨another, there, rfl, rfl⟩
  constructor
  · intro other another there valid
    obtain ⟨original, found, sameValid, sameHome⟩ := before there
    exact sameHome ▸ separate.inside other original found (sameValid.trans valid)
  · intro first second one two foundOne foundTwo validOne validTwo same
    obtain ⟨original, found, sameValid, sameHome⟩ := before foundOne
    obtain ⟨original', found', sameValid', sameHome'⟩ := before foundTwo
    exact separate.distinct first second original original' found found'
      (sameValid.trans validOne) (sameValid'.trans validTwo)
      (sameHome.trans (same.trans sameHome'.symm))

/-- The entries of a page in both machines. -/
theorem SameView.found (both : SameView left right) (found : left.pageTable[vpn]? = some entry)
    : ∃ another, right.pageTable[vpn]? = some another ∧ Mips.flags entry = Mips.flags another := by
  have same := congrArg (fun (flags : List _) => flags[vpn]?) both.flags
  rw [List.getElem?_map, List.getElem?_map, found] at same
  cases there : right.pageTable[vpn]? with
  | none =>
      rw [there] at same
      cases same
  | some another =>
      rw [there] at same
      exact ⟨another, rfl, Option.some.inj same⟩

/-- An access sets the same bits in both machines. -/
theorem SameView.touch (both : SameView left right) (here : left.pageTable[vpn]? = some entry)
    (there : right.pageTable[vpn]? = some another) (same : Mips.flags entry = Mips.flags another)
    (writing : Bool)
    : SameView { left with pageTable := left.pageTable.set vpn (entry.touch writing) }
        { right with pageTable := right.pageTable.set vpn (another.touch writing) } where
  registers := both.registers
  flags := by
    obtain ⟨valid, rest⟩ := Prod.mk.inj same
    obtain ⟨readOnly, rest⟩ := Prod.mk.inj rest
    obtain ⟨_, dirty⟩ := Prod.mk.inj rest
    have touched : Mips.flags (entry.touch writing) = Mips.flags (another.touch writing) := by
      simp only [Mips.flags, TranslationEntry.touch, valid, readOnly, dirty]
    rw [List.map_set, List.map_set, both.flags, touched]
  separate := ⟨both.separate.1.touch here writing, both.separate.2.touch there writing⟩
  bytes := by
    intro page one two foundOne foundTwo valid
    dsimp only at foundOne foundTwo
    rw [List.getElem?_set] at foundOne foundTwo
    by_cases hit : vpn = page
    · subst hit
      have insideLeft := (List.getElem?_eq_some_iff.mp here).1
      have insideRight := (List.getElem?_eq_some_iff.mp there).1
      rw [if_pos rfl, if_pos insideLeft] at foundOne
      rw [if_pos rfl, if_pos insideRight] at foundTwo
      obtain rfl := Option.some.inj foundOne
      obtain rfl := Option.some.inj foundTwo
      exact both.bytes vpn entry another here there valid
    · rw [if_neg hit] at foundOne foundTwo
      exact both.bytes page one two foundOne foundTwo valid

-----------------------------------------------------------------------------------------
-- Accesses
-----------------------------------------------------------------------------------------

/-- The address is one of a page that can be used, in both machines. -/
structure Located (left right : Machine) (addr : BitVec 32) (size : Nat) (writing : Bool)
    (entry another : TranslationEntry)
    : Prop where
  here : left.pageTable[addr.toNat / pageSize]? = some entry
  there : right.pageTable[addr.toNat / pageSize]? = some another
  flags : Mips.flags entry = Mips.flags another
  valid : entry.valid = true
  fits : addr.toNat % pageSize + size ≤ pageSize
  left
    : translate left.pageTable addr.toInt size writing
      = .ok (.ok (home entry * pageSize + addr.toNat % pageSize,
          left.pageTable.set (addr.toNat / pageSize) (entry.touch writing)))
  right
    : translate right.pageTable addr.toInt size writing
      = .ok (.ok (home another * pageSize + addr.toNat % pageSize,
          right.pageTable.set (addr.toNat / pageSize) (another.touch writing)))

/-- A translation through an entry that allows the access. -/
theorem translate_of_entry
    (aligned : ¬((size = 4 ∧ addr.toNat % 4 ≠ 0) ∨ (size = 2 ∧ addr.toNat % 2 ≠ 0)))
    (found : table[addr.toNat / pageSize]? = some entry) (valid : entry.valid = true)
    (allowed : ¬(entry.readOnly = true ∧ writing = true)) (inside : home entry < numPhysPages)
    (fits : addr.toNat % pageSize + size ≤ pageSize)
    : translate table addr.toInt size writing
      = .ok (.ok (home entry * pageSize + addr.toNat % pageSize,
          table.set (addr.toNat / pageSize) (entry.touch writing))) := by
  refine translate_eq_iff.mpr ⟨aligned, entry, found, ⟨valid, allowed, ?_, rfl, ?_⟩, rfl⟩
  · unfold home at inside
    omega
  · have whole : (home entry + 1) * pageSize ≤ memorySize := Nat.mul_le_mul_right pageSize inside
    rw [Nat.succ_mul] at whole
    omega

/-- An address translates in both machines, or is refused in both for the same reason. -/
theorem SameView.translate (both : SameView left right) (sized : size = 1 ∨ size = 2 ∨ size = 4)
    (addr : BitVec 32) (writing : Bool)
    : (∃ which,
        UserProg.translate left.pageTable addr.toInt size writing = .ok (.error which)
        ∧ UserProg.translate right.pageTable addr.toInt size writing = .ok (.error which))
      ∨ ∃ entry another, Located left right addr size writing entry another := by
  by_cases aligned : (size = 4 ∧ addr.toNat % 4 ≠ 0) ∨ (size = 2 ∧ addr.toNat % 2 ≠ 0)
  · refine .inl ⟨.addressErrorException, ?_, ?_⟩ <;>
      rw [UserProg.translate, unsigned_toInt, if_pos aligned]
  have fits : addr.toNat % pageSize + size ≤ pageSize := by
    rw [pageSize_eq]
    omega
  cases found : left.pageTable[addr.toNat / pageSize]? with
  | none =>
      have missing : right.pageTable[addr.toNat / pageSize]? = none := by
        have length := congrArg List.length both.flags
        rw [List.length_map, List.length_map] at length
        rw [List.getElem?_eq_none_iff] at found ⊢
        omega
      refine .inl ⟨.addressErrorException, ?_, ?_⟩
      · rw [UserProg.translate, unsigned_toInt, if_neg aligned]
        dsimp only
        rw [found]
      · rw [UserProg.translate, unsigned_toInt, if_neg aligned]
        dsimp only
        rw [missing]
  | some entry =>
      obtain ⟨another, there, same⟩ := both.found found
      obtain ⟨sameValid, rest⟩ := Prod.mk.inj same
      obtain ⟨sameReadOnly, _⟩ := Prod.mk.inj rest
      cases valid : entry.valid with
      | false =>
          refine .inl ⟨.pageFaultException, ?_, ?_⟩
          · rw [UserProg.translate, unsigned_toInt, if_neg aligned]
            dsimp only
            rw [found]
            exact if_pos valid
          · rw [UserProg.translate, unsigned_toInt, if_neg aligned]
            dsimp only
            rw [there]
            exact if_pos (sameValid.symm.trans valid)
      | true =>
          by_cases refused : entry.readOnly = true ∧ writing = true
          · refine .inl ⟨.readOnlyException, ?_, ?_⟩
            · rw [UserProg.translate, unsigned_toInt, if_neg aligned]
              dsimp only
              rw [found]
              exact (if_neg (by rw [valid]; exact Bool.noConfusion)).trans (if_pos refused)
            · rw [UserProg.translate, unsigned_toInt, if_neg aligned]
              dsimp only
              rw [there]
              refine (if_neg (by rw [← sameValid, valid]; exact Bool.noConfusion)).trans (if_pos ?_)
              exact ⟨sameReadOnly.symm.trans refused.1, refused.2⟩
          · refine .inr ⟨entry, another, found, there, same, valid, fits, ?_, ?_⟩
            · exact translate_of_entry aligned found valid refused
                (both.separate.1.inside _ _ found valid) fits
            · have validToo := sameValid.symm.trans valid
              refine translate_of_entry aligned there validToo (fun again => refused ?_)
                (both.separate.2.inside _ _ there validToo) fits
              exact ⟨sameReadOnly.trans again.1, again.2⟩

/-- An access that is refused raises the exception. -/
theorem run_physicalAddress_refused {which : ExceptionType}
    (refused : translate machine.pageTable addr.toInt size writing = .ok (.error which))
    : (physicalAddress addr size writing).run machine
      = (raiseException (.memory which) addr : Routine Halt Machine Nat).run machine := by
  rw [physicalAddress, run_bind_ok (run_get machine), refused]

/-- Two accesses that are refused. -/
theorem SameView.refused (both : SameView left right) {which : ExceptionType}
    (here : UserProg.translate left.pageTable addr.toInt size writing = .ok (.error which))
    (there : UserProg.translate right.pageTable addr.toInt size writing = .ok (.error which))
    {α : Type} (next : Nat → Routine Halt Machine α)
    : Paired SameView ((physicalAddress addr size writing >>= next).run left)
        ((physicalAddress addr size writing >>= next).run right) := by
  have raised
      : Paired SameView ((physicalAddress addr size writing).run left)
          ((physicalAddress addr size writing).run right) := by
    rw [run_physicalAddress_refused here, run_physicalAddress_refused there]
    exact uniform_sameView.respects_raiseException _ _ left right both
  refine raised.bind_of (fun value after final returned _ _ => ?_)
  rw [run_physicalAddress_refused here] at returned
  exact absurd returned not_ok_of_raiseException

/-- A byte of an access. -/
theorem Located.byte (located : Located left right addr size writing entry another)
    (both : SameView left right) {i : Nat} (within : i < size)
    : left.mainMemory (home entry * pageSize + addr.toNat % pageSize + i)
      = right.mainMemory (home another * pageSize + addr.toNat % pageSize + i) := by
  have fits := located.fits
  rw [Nat.add_assoc, Nat.add_assoc]
  exact both.bytes _ entry another located.here located.there located.valid _ (by omega)

/-- A read finds the same bytes at the two homes of its page. Witness: the translation fails in
both or locates both.
-/
theorem sameView_readMem (addr : BitVec 32) (sized : size = 1 ∨ size = 2 ∨ size = 4)
    : Respects SameView (readMem addr size) := by
  intro left right both
  obtain ⟨which, here, there⟩ | ⟨entry, another, located⟩ := both.translate sized addr false
  · exact both.refused here there _
  have kept := both.touch located.here located.there located.flags false
  have same {i : Nat} (within : i < size) := located.byte both within
  have first := same (show 0 < size by omega)
  rw [Nat.add_zero, Nat.add_zero] at first
  rw [readMem, run_bind_ok (run_physicalAddress located.left),
    run_bind_ok (run_physicalAddress located.right)]
  obtain rfl | rfl | rfl := sized
  · exact ⟨congrArg (fun byte : Byte => Except.ok (byte.toBitVec.signExtend 32)) first, kept⟩
  · refine ⟨?_, kept⟩
    change Except.ok (((left.mainMemory (_ + 1)).toBitVec
      ++ (left.mainMemory _).toBitVec).setWidth 32) = _
    rw [first, same (by decide)]
    rfl
  · refine ⟨?_, kept⟩
    change Except.ok (wordAt left.mainMemory _) = _
    rw [wordAt, first, same (by decide), same (by decide), same (by decide)]
    rfl

/-- Where the bytes of an access to one page are among those of another. -/
theorem Separate.apart (separate : Separate table) {page offset count : Nat}
    (found : table[vpn]? = some entry) (valid : entry.valid = true)
    (there : table[page]? = some another) (validToo : another.valid = true)
    (different : vpn ≠ page) (fits : offset + count ≤ pageSize) {index : Nat}
    (inside : index < pageSize)
    : home another * pageSize + index < home entry * pageSize + offset
      ∨ home entry * pageSize + offset + count ≤ home another * pageSize + index := by
  have homes : home entry ≠ home another := fun same =>
    different (separate.distinct vpn page entry another found there valid validToo same)
  obtain below | above := Nat.lt_or_gt_of_ne homes
  · have whole := Nat.mul_le_mul_right pageSize (Nat.succ_le_of_lt below)
    rw [Nat.succ_mul] at whole
    omega
  · have whole := Nat.mul_le_mul_right pageSize (Nat.succ_le_of_lt above)
    rw [Nat.succ_mul] at whole
    omega

/-- A store of the same bytes into the two homes of a page keeps the view, by cases on the page
that is looked at.
-/
theorem SameView.blit (both : SameView left right) {offset count : Nat} (source : Buffer)
    (here : left.pageTable[vpn]? = some entry) (there : right.pageTable[vpn]? = some another)
    (valid : entry.valid = true) (fits : offset + count ≤ pageSize)
    : SameView
        {
          left with
          mainMemory := Bytes.blit left.mainMemory (home entry * pageSize + offset) source count
        }
        {
          right with
          mainMemory := Bytes.blit right.mainMemory (home another * pageSize + offset) source count
        } where
  registers := both.registers
  flags := both.flags
  separate := both.separate
  bytes := by
    intro page one two foundOne foundTwo validOne index inside
    obtain ⟨again, thereToo, same⟩ := both.found here
    obtain rfl := Option.some.inj (there.symm.trans thereToo)
    obtain ⟨twin, foundToo, sameOne⟩ := both.found foundOne
    obtain rfl := Option.some.inj (foundTwo.symm.trans foundToo)
    have validToo : another.valid = true := (Prod.mk.inj same).1.symm.trans valid
    have validTwo : two.valid = true := (Prod.mk.inj sameOne).1.symm.trans validOne
    have before := both.bytes page one two foundOne foundTwo validOne index inside
    dsimp only
    by_cases hit : vpn = page
    · subst hit
      obtain rfl := Option.some.inj (here.symm.trans foundOne)
      obtain rfl := Option.some.inj (there.symm.trans foundTwo)
      by_cases covered : offset ≤ index ∧ index < offset + count
      · rw [blit_inside _ _ (by omega) (by omega), blit_inside _ _ (by omega) (by omega)]
        congr 1
        omega
      · rw [blit_outside _ _ (by omega), blit_outside _ _ (by omega), before]
    · rw [blit_outside _ _
          (both.separate.1.apart here valid foundOne validOne hit fits inside),
        blit_outside _ _
          (both.separate.2.apart there validToo foundTwo validTwo hit fits inside), before]

/-- A store changes the same byte of the view. Witness: the translation fails in both or locates
both.
-/
theorem sameView_writeMem (addr : BitVec 32) (sized : size = 1 ∨ size = 2 ∨ size = 4)
    (value : BitVec 32)
    : Respects SameView (writeMem addr size value) := by
  intro left right both
  obtain ⟨which, here, there⟩ | ⟨entry, another, located⟩ := both.translate sized addr true
  · exact both.refused here there _
  have kept := both.touch located.here located.there located.flags true
  have here
      : (left.pageTable.set (addr.toNat / pageSize) (entry.touch true))[addr.toNat / pageSize]?
        = some (entry.touch true) :=
    List.getElem?_set_self (List.getElem?_eq_some_iff.mp located.here).1
  have there
      : (right.pageTable.set (addr.toNat / pageSize) (another.touch true))[addr.toNat / pageSize]?
        = some (another.touch true) :=
    List.getElem?_set_self (List.getElem?_eq_some_iff.mp located.there).1
  have stored := kept.blit
    (ofList [byteOf value 0, byteOf value 1, byteOf value 2, byteOf value 3]) here there
    located.valid located.fits
  rw [writeMem, run_bind_ok (run_physicalAddress located.left),
    run_bind_ok (run_physicalAddress located.right), run_bind_ok (run_get _),
    run_bind_ok (run_get _)]
  dsimp only
  rw [if_pos sized, if_pos sized]
  exact ⟨rfl, stored⟩

theorem accessible_sameView : Accessible SameView where
  toUniform := uniform_sameView
  readMem addr _ sized := sameView_readMem addr sized
  writeMem addr _ sized value := sameView_writeMem addr sized value

end Nachos.Mips
