import HysteriaCore.Lib.Bytes
import HysteriaCore.Lib.Words

/-!
# Packets and their headers (shared/Packets/WorldPacket.h, FlexiHeader.hpp, BlizzardHeader.hpp)

`MessageBlock` is what the sockets use of an `ACE_Message_Block`.
-/

namespace HysteriaCore.Net
open Lib

structure WorldPacket where
  opcode : Fin (2^16)
  contents : Bytes
  deriving DecidableEq

/-! ### Message blocks -/

/-- A buffer of `size` bytes with the bytes between its read and its write pointer; the read
pointer is at the base. -/
structure MessageBlock where
  size : ℕ
  data : Bytes
  deriving DecidableEq

namespace MessageBlock

def space (m : MessageBlock) : ℕ := m.size - m.data.length

def copy (m : MessageBlock) (b : Bytes) : MessageBlock :=
  if b.length ≤ m.space then { m with data := m.data ++ b } else m

def reset (m : MessageBlock) : MessageBlock := { m with data := [] }

def advance (m : MessageBlock) (n : ℕ) : MessageBlock := { m with data := m.data.drop n }

theorem copy_of_le {m : MessageBlock} {b : Bytes} (h : b.length ≤ m.space) :
    m.copy b = { m with data := m.data ++ b } := if_pos h

theorem copy_copy {m : MessageBlock} {a b : Bytes} (h : b.length + a.length ≤ m.space) :
    (m.copy a).copy b = { m with data := m.data ++ (a ++ b) } := by
  have ha : a.length ≤ m.space := by omega
  have hb : b.length ≤ (MessageBlock.mk m.size (m.data ++ a)).space := by
    simp only [space, List.length_append] at h ⊢
    omega
  rw [copy_of_le ha, copy_of_le hb, List.append_assoc]

end MessageBlock

/-! ### Headers -/

namespace Flexi

/-- `Flexi::ServerPktHeader`: the size big-endian, the opcode little-endian. -/
def serverPktHeader (size cmd : ℕ) : Bytes :=
  let size := u32 size
  [UInt8.ofNat (size / 2^24), UInt8.ofNat (size / 2^16), UInt8.ofNat (size / 2^8), UInt8.ofNat size,
    UInt8.ofNat cmd, UInt8.ofNat (cmd / 2^8)]

/-- `Flexi::ClientPktHeader` in place over received bytes, after `EndianConvertReverse` of
the size and `EndianConvert` of the opcode on a little-endian machine. -/
structure ClientPktHeader where
  size : ℕ
  cmd : Fin (2^16)
  deriving DecidableEq

def clientPktHeader : Bytes → Option ClientPktHeader
  | [b0, b1, b2, b3, c0, c1] =>
    some {
      size := b0.toNat * 2^24 + b1.toNat * 2^16 + b2.toNat * 2^8 + b3.toNat
      cmd := Fin.ofNat (2^16) (c0.toNat + c1.toNat * 2^8) }
  | _ => none

@[simp] theorem length_serverPktHeader (size cmd : ℕ) : (serverPktHeader size cmd).length = 6 := rfl

theorem clientPktHeader_serverPktHeader {size : ℕ} (hsize : size < 2^32) (cmd : Fin (2^16)) :
    clientPktHeader (serverPktHeader size cmd) = some { size, cmd } := by
  have hcmd := cmd.isLt
  have hs : size / 2^24 % 256 * 2^24 + size / 2^16 % 256 * 2^16 + size / 2^8 % 256 * 2^8 +
      size % 256 = size := by omega
  have hc : ((cmd : ℕ) % 256 + (cmd : ℕ) / 2^8 % 256 * 2^8) % 2^16 = cmd := by omega
  have hcmd' : Fin.ofNat (2^16) ((cmd : ℕ) % 256 + (cmd : ℕ) / 2^8 % 256 * 2^8) = cmd := Fin.ext hc
  simp only [serverPktHeader, clientPktHeader, u32_of_lt hsize, UInt8.toNat_ofNat']
  exact congrArg some (congr (congrArg ClientPktHeader.mk hs) hcmd')

end Flexi

namespace Blizzard

/-- `Blizzard::ServerPktHeader`: a size over 0x7FFF takes three bytes, the first marked. -/
def serverPktHeader (size cmd : ℕ) : Bytes :=
  let size := u32 size
  (if 0x7FFF < size then [UInt8.ofNat (0x80 ||| (size / 2^16 % 2^8))] else []) ++
    [UInt8.ofNat (size / 2^8), UInt8.ofNat size, UInt8.ofNat cmd, UInt8.ofNat (cmd / 2^8)]

end Blizzard

end HysteriaCore.Net
