/-
# Checksums

The checksum of `libsylverant`, which the servers put beside data that they announce.
-/

namespace Sylverant.Servers

/-- One of the eight shifts that a byte goes through. -/
def crcShift (rv : UInt32) : UInt32 :=
  (0xEDB88320 &&& (-(rv &&& (1 : UInt32)))) ^^^ (rv >>> (1 : UInt32))

/-- One round of the loop in `sylverant_crc32`. -/
def crcByte (rv : UInt32) (byte : UInt8) : UInt32 :=
  let rv := rv ^^^ byte.toUInt32
  let rv := crcShift rv
  let rv := crcShift rv
  let rv := crcShift rv
  let rv := crcShift rv
  let rv := crcShift rv
  let rv := crcShift rv
  let rv := crcShift rv
  crcShift rv

/-- `sylverant_crc32` -/
def crc32 (data : List UInt8) : UInt32 := ~~~ data.foldl crcByte 0xFFFFFFFF

/-- The checksum of the nine digits is the one that every table of checksums gives. -/
example : crc32 [0x31, 0x32, 0x33, 0x34, 0x35, 0x36, 0x37, 0x38, 0x39] = 0xCBF43926 := by
  decide +kernel

end Sylverant.Servers
