import Nachos.Fault
import Nachos.Lib.Outcome
import Nachos.Lib.WordRecords

/-! Packets on the wire and letters in them: `NetworkOutput::Send` puts a packet header in front
of what `PostOfficeOutput::Send` made of a mail header and data, and the receiving machine takes
both apart again.
-/

namespace Nachos.Network
open Bytes Outcome

/-- A `NetworkAddress`, the number of a machine. -/
abbrev Address := BitVec 32

structure PacketHeader where
  toHost : Address
  fromHost : Address
  /-- Bytes behind this header, `unsigned`. -/
  length : BitVec 32
  deriving DecidableEq

structure MailHeader where
  /-- An `int`. -/
  toBox : BitVec 32
  fromBox : BitVec 32
  /-- Bytes behind this header, `unsigned`. -/
  length : BitVec 32
  deriving DecidableEq

/-- `sizeof` of either header. -/
def headerSize : Nat := 12

def maxWireSize : Nat := 64

def maxPacketSize : Nat := maxWireSize - headerSize

def maxMailSize : Nat := maxPacketSize - headerSize

-----------------------------------------------------------------------------------------
-- Headers in memory
-----------------------------------------------------------------------------------------

def PacketHeader.words (header : PacketHeader) : List (BitVec 32) :=
  [header.toHost, header.fromHost, header.length]

/-- `*(PacketHeader *)buffer`. -/
def PacketHeader.read (buffer : Buffer) : PacketHeader where
  toHost := recordWord buffer 0
  fromHost := recordWord buffer 1
  length := recordWord buffer 2

def MailHeader.words (header : MailHeader) : List (BitVec 32) :=
  [header.toBox, header.fromBox, header.length]

/-- `*(MailHeader *)buffer`. -/
def MailHeader.read (buffer : Buffer) : MailHeader where
  toBox := recordWord buffer 0
  fromBox := recordWord buffer 1
  length := recordWord buffer 2

/-- What is behind a header. -/
def behind (buffer : Buffer) : Buffer := fun offset => buffer (headerSize + offset)

/-- The three words of a header, and behind them `count` bytes of data, written over a buffer. -/
def concatenate (buffer : Buffer) (words : List (BitVec 32)) (data : Buffer) (count : Nat)
    : Buffer :=
  blit (blit buffer 0 (recordBytes words) headerSize) headerSize data count

variable {buffer left right data : Buffer} {words : List (BitVec 32)} {count offset : Nat}

theorem concatenate_header (small : offset < headerSize)
    : concatenate buffer words data count offset = recordBytes words offset := by
  unfold concatenate
  rw [blit_outside _ _ (.inl small), blit_inside _ _ (Nat.zero_le _) (by omega), Nat.sub_zero]

theorem behind_concatenate (small : offset < count)
    : behind (concatenate buffer words data count) offset = data offset := by
  unfold behind concatenate
  rw [blit_inside _ _ (by omega) (by omega), Nat.add_sub_cancel_left]

/-- The packet header is read back from the front of the buffer, field by field. -/
theorem PacketHeader.read_concatenate (header : PacketHeader)
    : PacketHeader.read (concatenate buffer header.words data count) = header := by
  have stored : ∀ offset < 4 * header.words.length,
      concatenate buffer header.words data count offset = recordBytes header.words offset :=
    fun offset small => concatenate_header small
  unfold PacketHeader.read
  rw [@recordWord_of_bytes _ _ _ header.toHost stored rfl,
    @recordWord_of_bytes _ _ _ header.fromHost stored rfl,
    @recordWord_of_bytes _ _ _ header.length stored rfl]

/-- The mail header is read back from the front of the buffer, field by field. -/
theorem MailHeader.read_concatenate (header : MailHeader)
    : MailHeader.read (concatenate buffer header.words data count) = header := by
  have stored : ∀ offset < 4 * header.words.length,
      concatenate buffer header.words data count offset = recordBytes header.words offset :=
    fun offset small => concatenate_header small
  unfold MailHeader.read
  rw [@recordWord_of_bytes _ _ _ header.toBox stored rfl,
    @recordWord_of_bytes _ _ _ header.fromBox stored rfl,
    @recordWord_of_bytes _ _ _ header.length stored rfl]

/-- A mail header depends only on its bytes. -/
theorem MailHeader.read_congr (same : ∀ offset < headerSize, left offset = right offset)
    : MailHeader.read left = MailHeader.read right := by
  have word : ∀ index < 3, recordWord left index = recordWord right index := by
    intro index small
    refine recordWord_congr (fun offset inside => same offset ?_)
    unfold headerSize
    omega
  unfold MailHeader.read
  rw [word 0 (by decide), word 1 (by decide), word 2 (by decide)]

-----------------------------------------------------------------------------------------
-- Letters
-----------------------------------------------------------------------------------------

/-- A `Mail`, with as many bytes of its data as its header counts. -/
structure Mail where
  pktHdr : PacketHeader
  mailHdr : MailHeader
  data : List Byte
  deriving DecidableEq

/-- The constructor `Mail::Mail`. -/
def Mail.new (pktH : PacketHeader) (mailH : MailHeader) (msgData : Buffer) : Except Fault Mail := do
  require (mailH.length.toNat ≤ maxMailSize) .assertion
  return { pktHdr := pktH, mailHdr := mailH, data := (List.range mailH.length.toNat).map msgData }

/-- `PostOfficeOutput::Send` up to the lock: the header that it fills in and the contents of
`buffer`. What `new` returned for the buffer is a parameter.
-/
def letter (hostName : Address) (pktHdr : PacketHeader) (mailHdr : MailHeader)
    (data buffer : Buffer)
    : Except Fault (PacketHeader × Buffer) := do
  require (mailHdr.length.toNat ≤ maxMailSize) .assertion
  require (0 ≤ mailHdr.toBox.toInt) .assertion
  return (
    { pktHdr with fromHost := hostName, length := mailHdr.length + BitVec.ofNat 32 headerSize },
    concatenate buffer mailHdr.words data mailHdr.length.toNat)

/-- What the receiving machine reads out of a packet. -/
def Mail.read (pktHdr : PacketHeader) (buffer : Buffer) : Mail where
  pktHdr := pktHdr
  mailHdr := MailHeader.read buffer
  data := (List.range (MailHeader.read buffer).length.toNat).map (behind buffer)

/-- The letter that a call of `Send` with these arguments is about. -/
def Mail.sent (sender : Address) (pktHdr : PacketHeader) (mailHdr : MailHeader) (data : Buffer)
    : Mail where
  pktHdr :=
    {
      pktHdr with
      fromHost := sender
      length := mailHdr.length + BitVec.ofNat 32 headerSize
    }
  mailHdr := mailHdr
  data := (List.range mailHdr.length.toNat).map data

/-- A packet with a letter in it, for the given machine. -/
structure Addressed (hostName : Address) (pktHdr : PacketHeader) (buffer : Buffer) : Prop where
  toHost : pktHdr.toHost = hostName
  length : pktHdr.length.toNat = headerSize + (MailHeader.read buffer).length.toNat
  short : (MailHeader.read buffer).length.toNat ≤ maxMailSize
  toBox : 0 ≤ (MailHeader.read buffer).toBox.toInt

variable {hostName sender : Address} {pktHdr : PacketHeader} {mailHdr : MailHeader}

/-- A letter with its header fits a packet. -/
theorem Addressed.length_le (addressed : Addressed hostName pktHdr buffer)
    : pktHdr.length.toNat ≤ maxPacketSize := by
  have length := addressed.length
  have short := addressed.short
  unfold maxMailSize maxPacketSize at *
  unfold headerSize maxWireSize at *
  omega

theorem Addressed.length_ne (addressed : Addressed hostName pktHdr buffer)
    : pktHdr.length ≠ 0#32 := by
  intro zero
  have length := addressed.length
  rw [zero, headerSize, BitVec.toNat_ofNat] at length
  omega

/-- Copies of the bytes that a packet counts hold the same letter. -/
theorem Addressed.copy (addressed : Addressed hostName pktHdr left)
    (same : ∀ offset < pktHdr.length.toNat, right offset = left offset)
    : Addressed hostName pktHdr right ∧ Mail.read pktHdr right = Mail.read pktHdr left := by
  have length := addressed.length
  have header : MailHeader.read right = MailHeader.read left :=
    MailHeader.read_congr (fun offset small => same offset (by omega))
  refine ⟨⟨addressed.toHost, header ▸ length, header ▸ addressed.short, header ▸ addressed.toBox⟩,
    ?_⟩
  have bytes : (List.range (MailHeader.read left).length.toNat).map (behind right)
      = (List.range (MailHeader.read left).length.toNat).map (behind left) := by
    refine List.map_congr_left (fun offset inside => same _ ?_)
    have small := List.mem_range.mp inside
    omega
  unfold Mail.read
  rw [header, bytes]

/-- What `Send` hands to the network is a letter with the bytes it was given. -/
theorem addressed_of_letter (short : mailHdr.length.toNat ≤ maxMailSize)
    (proper : 0 ≤ mailHdr.toBox.toInt) (sender : Address) (pktHdr : PacketHeader)
    (data buffer : Buffer)
    : ∃ header contents, letter sender pktHdr mailHdr data buffer = .ok (header, contents)
      ∧ Addressed pktHdr.toHost header contents
      ∧ header.fromHost = sender
      ∧ Mail.read header contents = Mail.sent sender pktHdr mailHdr data := by
  have length : (mailHdr.length + BitVec.ofNat 32 headerSize).toNat
      = headerSize + mailHdr.length.toNat := by
    have small : mailHdr.length.toNat ≤ 40 := short
    rw [BitVec.toNat_add, BitVec.toNat_ofNat]
    unfold headerSize
    omega
  have header := @MailHeader.read_concatenate buffer data mailHdr.length.toNat mailHdr
  refine ⟨
    {
      pktHdr with
      fromHost := sender
      length := mailHdr.length + BitVec.ofNat 32 headerSize
    },
    concatenate buffer mailHdr.words data mailHdr.length.toNat, ?_, ⟨rfl, ?_, ?_, ?_⟩, rfl, ?_⟩
  · rw [letter, bind_ok (require_of short _), bind_ok (require_of proper _)]
    rfl
  · rw [header]
    exact length
  · rw [header]
    exact short
  · rw [header]
    exact proper
  · have bytes : (List.range mailHdr.length.toNat).map
          (behind (concatenate buffer mailHdr.words data mailHdr.length.toNat))
        = (List.range mailHdr.length.toNat).map data :=
      List.map_congr_left (fun offset inside => behind_concatenate (List.mem_range.mp inside))
    unfold Mail.read
    rw [header, bytes]
    rfl

end Nachos.Network
