import Weir.Lib.LittleEndian

/-!
# CRC-32 (IEEE 802.3), bit by bit

The reflected CRC-32 with polynomial `0xEDB88320`, register initialised and
finalised by complement. The incremental `Hasher` is the interface programs
use: bytes are absorbed in any number of `update` calls, and only their
concatenation matters (`Hasher.update_append`), so a checksum accumulated
while writing equals one computed over the finished file.
-/

namespace Weir.Lib

/-- One shift of the reflected CRC register. -/
def crcShift (c : UInt32) : UInt32 :=
  if c &&& 1 = 1 then (c >>> 1) ^^^ 0xEDB88320 else c >>> 1

/-- Absorb one byte: eight shifts. -/
def crcByte (c : UInt32) (b : UInt8) : UInt32 :=
  crcShift (crcShift (crcShift (crcShift (crcShift (crcShift (crcShift (crcShift
    (c ^^^ b.toUInt32))))))))

/-- An incremental CRC-32 computation. -/
structure Hasher where
  reg : UInt32
  deriving DecidableEq, Repr

def Hasher.new : Hasher := ⟨0xFFFFFFFF⟩

def Hasher.update (h : Hasher) (bs : Bytes) : Hasher := ⟨bs.foldl crcByte h.reg⟩

def Hasher.finalize (h : Hasher) : UInt32 := h.reg ^^^ 0xFFFFFFFF

/-- The CRC-32 of a byte string. -/
def crc32 (bs : Bytes) : UInt32 := (Hasher.new.update bs).finalize

/-- Absorbing two chunks is absorbing their concatenation. -/
theorem Hasher.update_append (h : Hasher) (a b : Bytes) :
    (h.update a).update b = h.update (a ++ b) := by
  simp only [Hasher.update, List.foldl_append]

-- The check value of the CRC-32/ISO-HDLC catalogue entry: the digits 1 to 9.
example : crc32 [0x31, 0x32, 0x33, 0x34, 0x35, 0x36, 0x37, 0x38, 0x39] = 0xCBF43926 := by
  decide +kernel

end Weir.Lib
