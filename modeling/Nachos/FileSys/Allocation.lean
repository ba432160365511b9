import Nachos.FileSys.HeaderChain

/-! Allocating a header chain takes exactly the sectors of the file and succeeds exactly
when enough are clear; deallocating releases the data sectors of the chain.
-/

namespace Nachos.FileSys

open Bytes Routines

namespace FileHeader

variable {numBits : Nat}

/-- Data sectors and further headers of a file of `fileSize` bytes. -/
def sectorsNeeded (fileSize : Int) : Int :=
  (fileSize + 127) / sectorSize + max ((fileSize + 3583) / maxFileSize - 1) 0

theorem sectorsNeeded_of_small {fileSize : Int} (nonneg : 0 ≤ fileSize)
    (small : fileSize ≤ maxFileSize)
    : sectorsNeeded fileSize = (fileSize + 127) / sectorSize := by
  simp only [sectorsNeeded, sectorSize_eq, maxFileSize_eq] at *
  omega

/-- A block more of bytes needs a table of sectors and one header more. -/
theorem sectorsNeeded_of_large {fileSize : Int} (large : maxFileSize < fileSize)
    : sectorsNeeded fileSize = numDirect + 1 + sectorsNeeded (fileSize - maxFileSize) := by
  simp only [sectorsNeeded, sectorSize_eq, maxFileSize_eq, numDirect_eq] at *
  omega

theorem sectorsNeeded_nonneg {fileSize : Int} (nonneg : 0 ≤ fileSize)
    : 0 ≤ sectorsNeeded fileSize := by
  simp only [sectorsNeeded, sectorSize_eq, maxFileSize_eq]
  omega

/-- A well-formed chain has the sectors its size needs, by induction along the chain. -/
theorem WellFormed.sectorsNeeded_eq {header : FileHeader} (valid : header.WellFormed)
    : ((header.chain.length + header.sectors.length : Nat) : Int)
      = sectorsNeeded header.size := by
  induction header with
  | last block pointer =>
      have length := valid.sectors_length
      have nonneg := valid.size_nonneg
      rw [sectorsNeeded_of_small nonneg valid.2.2.2.2.1, length, chain, List.length_nil]
      simp only [sectorSize_eq]
      omega
  | link block next ih =>
      obtain ⟨_, _, full, _, positive, rest⟩ := id valid
      have total : (FileHeader.link block next).size - maxFileSize = next.size := by
        rw [size, full]
        omega
      have large : maxFileSize < (FileHeader.link block next).size := by omega
      rw [sectorsNeeded_of_large large, total, ← ih rest, chain, FileHeader.sectors,
        List.length_cons, List.length_append, valid.link_sectors_length]
      push_cast
      omega

/-- A file has no further headers exactly when it fits one block. -/
theorem WellFormed.chain_eq_nil_iff {header : FileHeader} (valid : header.WellFormed)
    : header.chain = [] ↔ header.size ≤ maxFileSize := by
  cases header with
  | last block pointer => simpa [chain, size] using valid.2.2.2.2.1
  | link block next =>
      obtain ⟨_, _, full, _, positive, _⟩ := valid
      simp only [chain, size, full, List.cons_ne_nil, false_iff]
      omega

-----------------------------------------------------------------------------------------
-- One block
-----------------------------------------------------------------------------------------

/-- The loop over data sectors takes one sector each time round, by induction on the count.
-/
theorem allocateSectors_of_room {count : Nat} {freeMap : Bitmap numBits}
    (room : count ≤ freeMap.numClear)
    : ∃ sectors after,
        allocateSectors count freeMap = .ok (sectors, after)
        ∧ sectors.length = count
        ∧ Bitmap.Takes freeMap after sectors := by
  induction count generalizing freeMap with
  | zero => exact ⟨[], freeMap, rfl, rfl, .refl freeMap⟩
  | succ count ih =>
      obtain ⟨sector, marked, found, nonneg, first⟩ := Bitmap.takes_findAndSet
        (show 0 < freeMap.numClear by omega)
      have left := first.count
      rw [List.length_singleton] at left
      obtain ⟨sectors, after, rest, length, takes⟩ := ih (show count ≤ marked.numClear by omega)
      refine ⟨sector :: sectors, after, ?_, by simp [length], first.append takes⟩
      simp only [allocateSectors, found, ge_iff_le, nonneg, if_true, rest]
      rfl

/-- A block lists the sectors it was made with. -/
theorem blockOf_sectors {numBytes count next : Int} {sectors : List Int}
    (length : sectors.length = count.toNat) (fits : count ≤ numDirect)
    : (blockOf numBytes count sectors next).sectors = sectors := by
  apply List.ext_getElem?
  intro index
  simp only [HeaderBlock.sectors, blockOf, ← length]
  by_cases listed : index < sectors.length
  · have inside : index < numDirect := by omega
    rw [List.getElem?_take_of_lt listed, Vector.getElem?_toList,
      Vector.getElem?_eq_getElem inside, Vector.getElem_ofFn, List.getD_eq_getElem _ _ listed,
      List.getElem?_eq_getElem listed]
  · rw [List.getElem?_eq_none (by simp; omega), List.getElem?_eq_none (by omega)]

/-- A block made of sectors of a bitmap fits its image. -/
theorem blockOf_fits {numBytes count next : Int} {sectors : List Int}
    (bits : numBits ≤ 2147483648)
    (inside : ∀ s ∈ sectors, 0 ≤ s ∧ s < numBits)
    (bytes : 0 ≤ numBytes ∧ numBytes ≤ maxFileSize)
    (sectorCount : 0 ≤ count ∧ count ≤ numDirect)
    (nextFits : CInt.InRange next)
    : (blockOf numBytes count sectors next).Fits := by
  simp only [maxFileSize_eq, numDirect_eq] at bytes sectorCount
  refine {
    numBytes := ⟨?_, ?_⟩
    numSectors := ⟨?_, ?_⟩
    dataSectors := ?_
    next := nextFits
  }
  · simp only [blockOf]; omega
  · simp only [blockOf]; omega
  · simp only [blockOf]; omega
  · simp only [blockOf]; omega
  · intro index bound
    simp only [blockOf, Vector.getElem_ofFn]
    by_cases listed : index < sectors.length
    · rw [List.getD_eq_getElem _ _ listed]
      have range := inside _ (List.getElem_mem listed)
      constructor <;> omega
    · rw [List.getD_eq_default _ _ (by omega)]
      constructor <;> omega

-----------------------------------------------------------------------------------------
-- Whole chains
-----------------------------------------------------------------------------------------

/-- What `allocate` answers for a nonnegative size: success exactly when enough sectors are
clear, and then a well-formed chain for that size whose sectors it took.
-/
structure Allocated (freeMap : Bitmap numBits) (fileSize : Int)
    (result : Bool × FileHeader × Bitmap numBits)
    : Prop where
  success_iff : result.1 = true ↔ sectorsNeeded fileSize ≤ freeMap.numClear
  valid : result.1 = true → result.2.1.WellFormed
  size : result.1 = true → result.2.1.size = fileSize
  takes
    : result.1 = true → Bitmap.Takes freeMap result.2.2 (result.2.1.chain ++ result.2.1.sectors)

theorem blockBytes_of_small {fileSize : Int} (nonneg : 0 ≤ fileSize)
    (small : fileSize ≤ maxFileSize)
    : blockBytes fileSize = fileSize := by
  have bound := small
  rw [maxFileSize_eq] at bound
  rw [blockBytes, CInt.unsigned_of_nonneg nonneg (by omega), if_pos small]

theorem blockBytes_of_large {fileSize : Int} (large : maxFileSize < fileSize)
    (fits : fileSize < 2147483648)
    : blockBytes fileSize = maxFileSize := by
  rw [blockBytes, CInt.unsigned_of_nonneg (by omega) fits, if_neg (by omega)]

/-- A size that fits one block. -/
theorem allocate_small {freeMap : Bitmap numBits} {fileSize : Int}
    (bits : numBits ≤ 2147483648) (nonneg : 0 ≤ fileSize) (small : fileSize ≤ maxFileSize)
    : ∃ result, allocate freeMap fileSize = .ok result ∧ Allocated freeMap fileSize result := by
  have count : CInt.divRoundUp fileSize sectorSize = (fileSize + 127) / sectorSize :=
    CInt.divRoundUp_of_nonneg nonneg (by decide)
  have rest : CInt.wrap (fileSize - fileSize) = 0 := by
    rw [Int.sub_self]
    rfl
  rw [allocate]
  simp only [blockBytes_of_small nonneg small, rest, count]
  have needed := sectorsNeeded_of_small nonneg small
  by_cases short : (freeMap.numClear : Int) < (fileSize + 127) / sectorSize
  · rw [if_pos short]
    refine ⟨_, rfl, ?_, by simp, by simp, by simp⟩
    rw [needed]
    simp only [Bool.false_eq_true, false_iff]
    omega
  · rw [if_neg short]
    have small' := small
    rw [maxFileSize_eq] at small'
    have range : 0 ≤ (fileSize + 127) / sectorSize ∧ (fileSize + 127) / sectorSize ≤ numDirect := by
      simp only [sectorSize_eq, numDirect_eq]
      omega
    obtain ⟨sectors, after, allocated, length, takes⟩ := allocateSectors_of_room
      (show ((fileSize + 127) / sectorSize).toNat ≤ freeMap.numClear by omega)
    have listed
        : (blockOf fileSize ((fileSize + 127) / sectorSize) sectors (-1)).sectors = sectors :=
      blockOf_sectors length range.2
    rw [allocated]
    refine ⟨(true, .last (blockOf fileSize _ sectors (-1)) 0, after), rfl, ?_, ?_, ?_, ?_⟩
    · rw [needed]
      simp only [true_iff]
      omega
    · intro _
      refine ⟨rfl, blockOf_fits bits takes.inside ⟨nonneg, small⟩ range ?_, rfl, nonneg,
        small, count.symm⟩
      constructor <;> omega
    · intro _
      rfl
    · intro _
      simpa only [chain, FileHeader.sectors, listed, List.nil_append] using takes

/-- A request for `fileSize` bytes that comes to `total` bytes and needs further headers,
given the answer for what is left.
-/
theorem allocate_large {freeMap : Bitmap numBits} {fileSize total : Int}
    (bits : numBits ≤ 2147483648) (large : maxFileSize < total)
    (block : blockBytes fileSize = maxFileSize)
    (rest : CInt.wrap (fileSize - maxFileSize) = total - maxFileSize)
    (deeper
      : ∀ linked : Bitmap numBits,
          ∃ result,
            allocate linked (total - maxFileSize) = .ok result
            ∧ Allocated linked (total - maxFileSize) result)
    : ∃ result, allocate freeMap fileSize = .ok result ∧ Allocated freeMap total result := by
  have count : CInt.divRoundUp maxFileSize sectorSize = numDirect := rfl
  have large' := large
  rw [maxFileSize_eq] at large'
  have needed := sectorsNeeded_of_large large
  have deeperNeeded : 0 ≤ sectorsNeeded (total - maxFileSize) :=
    sectorsNeeded_nonneg (by omega)
  rw [allocate]
  simp only [block, rest, count]
  by_cases short : (freeMap.numClear : Int) < numDirect
  · rw [if_pos short]
    refine ⟨_, rfl, ?_, by simp, by simp, by simp⟩
    simp only [Bool.false_eq_true, false_iff]
    omega
  rw [if_neg short]
  obtain ⟨sectors, filled, allocated, length, takes⟩ := allocateSectors_of_room
    (show (numDirect : Int).toNat ≤ freeMap.numClear by omega)
  have filledCount := takes.count
  rw [length] at filledCount
  rw [allocated]
  change ∃ result, (if 0 < total - (maxFileSize : Int) then _ else _) = _ ∧ _
  rw [if_pos (by omega)]
  by_cases full : filled.numClear = 0
  · simp only [Bitmap.findAndSet_of_full full, if_true]
    refine ⟨_, rfl, ?_, by simp, by simp, by simp⟩
    simp only [Bool.false_eq_true, false_iff]
    omega
  obtain ⟨next, linked, found, nextNonneg, takesNext⟩ := Bitmap.takes_findAndSet
    (show 0 < filled.numClear by omega)
  have linkedCount := takesNext.count
  rw [List.length_singleton] at linkedCount
  simp only [found, if_neg (show next ≠ -1 by omega)]
  obtain ⟨⟨success, tail, after⟩, allocatedTail, answer⟩ := deeper linked
  rw [allocatedTail]
  refine ⟨(success, .link (blockOf maxFileSize numDirect sectors next) tail, after), rfl, ?_, ?_,
    ?_, ?_⟩
  · rw [answer.success_iff]
    omega
  · intro succeeded
    have nextInside := takesNext.inside next (by simp)
    refine ⟨blockOf_fits bits takes.inside ⟨by omega, le_refl _⟩ ⟨by omega, le_refl _⟩ ?_, ?_, rfl,
      rfl, ?_, answer.valid succeeded⟩
    · constructor <;> omega
    · simp only [blockOf]
      omega
    · have size := answer.size succeeded
      simp only at size
      omega
  · intro succeeded
    have size := answer.size succeeded
    simp only [FileHeader.size, blockOf] at size ⊢
    omega
  · intro succeeded
    have listed : (blockOf maxFileSize numDirect sectors next).sectors = sectors :=
      blockOf_sectors length (le_refl _)
    have all := (takes.append takesNext).append (answer.takes succeeded)
    refine all.perm ?_
    change (sectors ++ [next] ++ (tail.chain ++ tail.sectors)).Perm
      ((next :: tail.chain) ++ ((blockOf maxFileSize numDirect sectors next).sectors ++ tail.sectors))
    rw [listed, List.append_assoc, ← List.append_assoc (next :: tail.chain)]
    change (sectors ++ ((next :: tail.chain) ++ tail.sectors)).Perm _
    rw [← List.append_assoc]
    exact List.perm_append_comm.append_right tail.sectors

/-- Allocation of a nonnegative size never faults, and is described by `Allocated`. The
induction follows the chain of headers: each takes a block's bytes off the size.
-/
theorem allocate_of_nonneg {freeMap : Bitmap numBits} {fileSize : Int}
    (bits : numBits ≤ 2147483648) (nonneg : 0 ≤ fileSize) (fits : fileSize < 2147483648)
    : ∃ result, allocate freeMap fileSize = .ok result ∧ Allocated freeMap fileSize result := by
  induction bytes : fileSize.toNat using Nat.strongRecOn generalizing fileSize freeMap with
  | ind bytes ih =>
      by_cases small : fileSize ≤ maxFileSize
      · exact allocate_small bits nonneg small
      · have large : (maxFileSize : Int) < fileSize := by omega
        have rest : CInt.wrap (fileSize - maxFileSize) = fileSize - maxFileSize :=
          CInt.wrap_of_lt (by omega) (by omega)
        refine allocate_large bits large (blockBytes_of_large large fits) rest (fun linked => ?_)
        rw [maxFileSize_eq] at large ⊢
        exact ih _ (by omega) (by omega) (by omega) rfl

/-- The bytes that a request for `fileSize` bytes comes to. The unsigned comparison turns a
negative size into one full block, and what is left is again compared as a signed number.
-/
def allocatedSize (fileSize : Int) : Int :=
  if 0 ≤ fileSize then fileSize
  else if CInt.wrap (fileSize - maxFileSize) ≤ 0 then maxFileSize
  else CInt.unsigned fileSize

theorem allocatedSize_of_nonneg {fileSize : Int} (nonneg : 0 ≤ fileSize)
    : allocatedSize fileSize = fileSize :=
  if_pos nonneg

/-- By cases on whether the size is negative, and on whether it wraps to one that is. -/
theorem allocatedSize_nonneg (fileSize : Int) : 0 ≤ allocatedSize fileSize := by
  unfold allocatedSize CInt.unsigned
  rw [maxFileSize_eq]
  split
  · assumption
  · split <;> omega

/-- A negative size is a large one to the unsigned comparison, so the first header is filled. -/
theorem blockBytes_of_negative {fileSize : Int} (negative : fileSize < 0)
    (fits : CInt.InRange fileSize)
    : blockBytes fileSize = maxFileSize := by
  have big : ¬CInt.unsigned fileSize ≤ maxFileSize := by
    unfold CInt.InRange at fits
    unfold CInt.unsigned
    rw [maxFileSize_eq]
    omega
  exact if_neg big

/-- Requests for the same block with nothing left are the same. -/
theorem allocate_congr {freeMap : Bitmap numBits} {left right : Int}
    (same : blockBytes left = blockBytes right)
    (leftEnds : CInt.wrap (left - blockBytes left) ≤ 0)
    (rightEnds : CInt.wrap (right - blockBytes right) ≤ 0)
    : allocate freeMap left = allocate freeMap right := by
  rw [allocate.eq_def freeMap left, allocate.eq_def freeMap right]
  simp only [same] at leftEnds ⊢
  simp only [if_neg (not_lt.mpr leftEnds), if_neg (not_lt.mpr rightEnds)]

/-- Allocation of any `int` never faults. -/
theorem allocate_spec {freeMap : Bitmap numBits} {fileSize : Int}
    (bits : numBits ≤ 2147483648) (fits : CInt.InRange fileSize)
    : ∃ result,
        allocate freeMap fileSize = .ok result
        ∧ Allocated freeMap (allocatedSize fileSize) result := by
  rcases le_or_gt 0 fileSize with nonneg | negative
  · rw [allocatedSize_of_nonneg nonneg]
    exact allocate_of_nonneg bits nonneg fits.2
  have block := blockBytes_of_negative negative fits
  unfold allocatedSize
  rw [if_neg (by omega)]
  split
  · rename_i ends
    have whole : blockBytes maxFileSize = maxFileSize :=
      blockBytes_of_small (by decide) (le_refl _)
    have same : allocate freeMap fileSize = allocate freeMap maxFileSize :=
      allocate_congr (block.trans whole.symm) (by rw [block]; exact ends) (by rw [whole]; decide)
    rw [same]
    exact allocate_of_nonneg bits (by decide) (by decide)
  · rename_i goesOn
    unfold CInt.InRange at fits
    unfold CInt.wrap at goesOn
    rw [maxFileSize_eq] at goesOn
    refine allocate_large bits ?_ block ?_ (fun linked => ?_)
    · rw [maxFileSize_eq, CInt.unsigned]
      omega
    · rw [maxFileSize_eq, CInt.unsigned, CInt.wrap]
      omega
    · refine allocate_of_nonneg bits ?_ ?_ <;> rw [maxFileSize_eq, CInt.unsigned] <;> omega

-----------------------------------------------------------------------------------------
-- Deallocation
-----------------------------------------------------------------------------------------

/-- Clearing distinct marked sectors releases them, by induction on the list. -/
theorem deallocateSectors_of_marked {sectors : List Int} {freeMap : Bitmap numBits}
    (distinct : sectors.Nodup)
    (inside : ∀ s ∈ sectors, 0 ≤ s ∧ s < numBits)
    (marked : ∀ s ∈ sectors, freeMap.testBit s.toNat = true)
    : ∃ after, deallocateSectors sectors freeMap = .ok after ∧ freeMap.Releases after sectors := by
  induction sectors generalizing freeMap with
  | nil => exact ⟨freeMap, rfl, by intro which; simp⟩
  | cons sector rest ih =>
      obtain ⟨fresh, restDistinct⟩ := List.nodup_cons.mp distinct
      have here := inside sector (by simp)
      have release := freeMap.releases_clearBit here
      obtain ⟨after, cleared, releases⟩ := @ih (freeMap.clearBit sector.toNat) restDistinct
        (fun s member => inside s (List.mem_cons_of_mem _ member)) (by
          intro s member
          have other : s ≠ sector := fun same => fresh (same ▸ member)
          have nonneg := (inside s (List.mem_cons_of_mem _ member)).1
          rw [release, Int.toNat_of_nonneg nonneg]
          simp [other, marked s (List.mem_cons_of_mem _ member)])
      refine ⟨after, ?_, release.append releases⟩
      have isMarked := marked sector (by simp)
      simp only [deallocateSectors, Bitmap.test_of_inside _ here, isMarked,
        Bitmap.clear_of_inside _ here]
      exact cleared

/-- The sectors of a block fit its array, by cases on whether it is the last one. -/
theorem WellFormed.listedSectors {header : FileHeader} (valid : header.WellFormed)
    : listedSectors header.block = .ok header.block.sectors := by
  refine if_pos ?_
  cases header with
  | last block pointer =>
      obtain ⟨_, _, _, nonneg, small, count⟩ := valid
      rw [CInt.divRoundUp_of_nonneg nonneg (by decide)] at count
      change block.numSectors ≤ numDirect
      rw [maxFileSize_eq] at small
      rw [count, sectorSize_eq, numDirect_eq]
      omega
  | link block next =>
      exact le_of_eq valid.2.2.2.1

/-- Deallocating a chain releases its data sectors and leaves the sectors of its further
headers marked, by induction on the chain.
-/
theorem deallocate_spec {header : FileHeader} {freeMap : Bitmap numBits}
    (valid : header.WellFormed) (distinct : header.sectors.Nodup)
    (inside : ∀ s ∈ header.sectors, 0 ≤ s ∧ s < numBits)
    (marked : ∀ s ∈ header.sectors, freeMap.testBit s.toNat = true)
    : ∃ after, header.deallocate freeMap = .ok after ∧ freeMap.Releases after header.sectors := by
  induction header generalizing freeMap with
  | last block pointer =>
      obtain ⟨after, cleared, releases⟩ := deallocateSectors_of_marked distinct inside marked
      refine ⟨after, ?_, releases⟩
      have listed : FileHeader.listedSectors block = .ok block.sectors := valid.listedSectors
      rw [sectors] at cleared
      simp only [deallocate, listed]
      change (do
        let cleared ← deallocateSectors block.sectors freeMap
        if block.nextFileHeaderSector ≠ -1 then .error (badPointer pointer)
        else .ok cleared) = _
      rw [cleared]
      exact if_neg (by simpa using valid.2.2.1)
  | link block next ih =>
      have listed : FileHeader.listedSectors block = .ok block.sectors := valid.listedSectors
      obtain ⟨_, linked, _, _, _, rest⟩ := valid
      obtain ⟨headDistinct, tailDistinct, apart⟩ := List.nodup_append.mp distinct
      obtain ⟨first, cleared, release⟩ := deallocateSectors_of_marked headDistinct
        (fun s member => inside s (List.mem_append_left _ member))
        (fun s member => marked s (List.mem_append_left _ member))
      obtain ⟨after, tailCleared, releases⟩ := @ih first rest tailDistinct
        (fun s member => inside s (List.mem_append_right _ member)) (by
          intro s member
          have other : s ∉ block.sectors := fun head => apart s head s member rfl
          have nonneg := (inside s (List.mem_append_right _ member)).1
          rw [release, Int.toNat_of_nonneg nonneg]
          simp [other, marked s (List.mem_append_right _ member)])
      refine ⟨after, ?_, release.append releases⟩
      simp only [deallocate, listed]
      change (do
        let cleared ← deallocateSectors block.sectors freeMap
        if block.nextFileHeaderSector ≠ -1 then next.deallocate cleared
        else .ok cleared) = _
      rw [cleared]
      exact (if_pos linked).trans tailCleared

end FileHeader

end Nachos.FileSys
