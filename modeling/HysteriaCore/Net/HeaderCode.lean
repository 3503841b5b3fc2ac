import HysteriaCore.Net.ByteBuffer
import HysteriaCore.Net.Packet
import Mathlib.Data.List.Induction

/-!
# What the header of a packet to the client tells (BlizzardHeader.hpp, ByteBuffer.h)

The top bit of the first byte says whether the size has three bytes, which leaves 23
bits for the size. `ByteBuffer::append` has a limit of its own.
-/

namespace HysteriaCore.Net
open Lib

/-! ### What can be built -/

/-- Appended to an empty buffer piece by piece, the write position at the end. -/
inductive Built : Bytes → Prop where
  | empty : Built []
  | append {storage src next : Bytes} {wpos : ℕ} (h : Built storage)
      (happend : ByteBuffer.append storage storage.length src = some (next, wpos)) : Built next

theorem built_of_length_le {contents : Bytes} (h : contents.length ≤ 10000000) :
    Built contents := by
  induction contents using List.reverseRecOn with
  | nil => exact .empty
  | append_singleton init last ih =>
    rw [List.length_append, List.length_singleton] at h
    have hroom : init.length < 10000000 := by omega
    have hlast : [last].length ≠ 0 := by simp
    have happend := ByteBuffer.append_end init hroom hlast
    exact .append (ih (by omega)) happend

/-! ### The size in the header -/

namespace Blizzard

def sizeCode (size : ℕ) : ℕ := if 0x7FFF < size then 2^23 + size % 2^23 else size

theorem marked_byte {n : ℕ} (h : n < 2^8) : 0x80 ||| n = 2^7 + n % 2^7 := by
  have hall : ∀ n : Fin (2^8), 0x80 ||| (n : ℕ) = 2^7 + (n : ℕ) % 2^7 := by
    decide +kernel
  exact hall ⟨n, h⟩

theorem serverPktHeader_small {size : ℕ} (cmd : ℕ) (h : size ≤ 0x7FFF) :
    serverPktHeader size cmd =
      [UInt8.ofNat (size / 2^8), UInt8.ofNat size, UInt8.ofNat cmd, UInt8.ofNat (cmd / 2^8)] := by
  have hsize : u32 size = size := u32_of_lt (by omega)
  rw [serverPktHeader, hsize, if_neg (Nat.not_lt.mpr h), List.nil_append]

theorem serverPktHeader_large {size : ℕ} (cmd : ℕ) (h : 0x7FFF < size) (hwide : size < 2^32) :
    serverPktHeader size cmd =
      [UInt8.ofNat (2^7 + size / 2^16 % 2^7), UInt8.ofNat (size / 2^8), UInt8.ofNat size,
        UInt8.ofNat cmd, UInt8.ofNat (cmd / 2^8)] := by
  have hmark : size / 2^16 % 2^8 % 2^7 = size / 2^16 % 2^7 := by omega
  rw [serverPktHeader, u32_of_lt hwide, if_pos h, marked_byte (Nat.mod_lt _ (by decide)), hmark]
  rfl

theorem not_prefix_of_mark {small large : ℕ} (cmd cmd' : ℕ) (hs : small ≤ 0x7FFF)
    (hl : 0x7FFF < large) (hwide : large < 2^32) :
    ¬serverPktHeader small cmd <+: serverPktHeader large cmd' ∧
      ¬serverPktHeader large cmd' <+: serverPktHeader small cmd := by
  have hne : UInt8.ofNat (small / 2^8) ≠ UInt8.ofNat (2^7 + large / 2^16 % 2^7) := by
    intro h
    have hnat := congrArg UInt8.toNat h
    simp only [UInt8.toNat_ofNat'] at hnat
    omega
  rw [serverPktHeader_small cmd hs, serverPktHeader_large cmd' hl hwide]
  constructor
  · intro h
    exact hne (List.cons_prefix_cons.mp h).1
  · intro h
    exact hne (List.cons_prefix_cons.mp h).1.symm

theorem ofNat_eq_iff (a b : ℕ) : UInt8.ofNat a = UInt8.ofNat b ↔ a % 2^8 = b % 2^8 := by
  rw [← UInt8.toNat_inj, UInt8.toNat_ofNat', UInt8.toNat_ofNat']

theorem header_prefix_iff {size size' cmd cmd' : ℕ} (hsize : size < 2^32) (hsize' : size' < 2^32)
    (hcmd : cmd < 2^16) (hcmd' : cmd' < 2^16) :
    serverPktHeader size cmd <+: serverPktHeader size' cmd' ↔
      sizeCode size = sizeCode size' ∧ cmd = cmd' := by
  unfold sizeCode
  by_cases hs : 0x7FFF < size <;> by_cases hs' : 0x7FFF < size'
  · rw [serverPktHeader_large cmd hs hsize, serverPktHeader_large cmd' hs' hsize', if_pos hs,
      if_pos hs']
    simp only [List.cons_prefix_cons, List.prefix_rfl, and_true, ofNat_eq_iff]
    omega
  · refine iff_of_false (not_prefix_of_mark cmd' cmd (Nat.le_of_not_lt hs') hs hsize).2 ?_
    rw [if_pos hs, if_neg hs']
    omega
  · refine iff_of_false (not_prefix_of_mark cmd cmd' (Nat.le_of_not_lt hs) hs' hsize').1 ?_
    rw [if_neg hs, if_pos hs']
    omega
  · rw [serverPktHeader_small cmd (Nat.le_of_not_lt hs),
      serverPktHeader_small cmd' (Nat.le_of_not_lt hs'), if_neg hs, if_neg hs']
    simp only [List.cons_prefix_cons, List.prefix_rfl, and_true, ofNat_eq_iff]
    omega

end Blizzard

/-! ### Packets -/

def WorldPacket.clientHeader (p : WorldPacket) : Bytes :=
  Blizzard.serverPktHeader (p.contents.length + 2) p.opcode

def MarkHidden (n n' : ℕ) : Prop := 0x7FFF < n + 2 ∧ n' = n + 2^23

theorem header_decodable (p q : WorldPacket) (hp : p.contents.length ≤ 10000000)
    (hq : q.contents.length ≤ 10000000) :
    (p.clientHeader <+: q.clientHeader →
        p.contents.length = q.contents.length ∧ p.opcode = q.opcode) ↔
      ¬(p.opcode = q.opcode ∧ (MarkHidden p.contents.length q.contents.length ∨
        MarkHidden q.contents.length p.contents.length)) := by
  have hsize : p.contents.length + 2 < 2^32 := by omega
  have hsize' : q.contents.length + 2 < 2^32 := by omega
  have hcode := Blizzard.header_prefix_iff hsize hsize' p.opcode.isLt q.opcode.isLt
  rw [← WorldPacket.clientHeader, ← WorldPacket.clientHeader, Fin.val_inj] at hcode
  rw [hcode]
  by_cases hop : p.opcode = q.opcode
  · simp only [hop, and_true, true_and, Blizzard.sizeCode, MarkHidden]
    split_ifs <;> omega
  · simp [hop]

theorem header_decodable_small :
    ((⟨0xA9, [1]⟩ : WorldPacket).clientHeader <+: (⟨0xA9, [2]⟩ : WorldPacket).clientHeader →
        [1].length = [2].length ∧ (0xA9 : Fin (2^16)) = 0xA9) ↔
      ¬((0xA9 : Fin (2^16)) = 0xA9 ∧ (MarkHidden 1 1 ∨ MarkHidden 1 1)) :=
  header_decodable ⟨0xA9, [1]⟩ ⟨0xA9, [2]⟩ (by decide) (by decide)

theorem size_hidden_by_mark :
    ¬∀ p q : WorldPacket, Built p.contents → Built q.contents → p.contents.length ≤ 10000000 →
      q.contents.length ≤ 10000000 → p.clientHeader <+: q.clientHeader →
        p.contents.length = q.contents.length ∧ p.opcode = q.opcode := by
  intro h
  obtain ⟨short, hshort⟩ : ∃ contents : Bytes, contents.length = 32766 :=
    ⟨List.replicate 32766 0, List.length_replicate⟩
  obtain ⟨long, hlong⟩ : ∃ contents : Bytes, contents.length = 8421374 :=
    ⟨List.replicate 8421374 0, List.length_replicate⟩
  have hfits : short.length ≤ 10000000 := by omega
  have hfits' : long.length ≤ 10000000 := by omega
  have hheader : (⟨0xA9, short⟩ : WorldPacket).clientHeader <+:
      (⟨0xA9, long⟩ : WorldPacket).clientHeader := by
    rw [WorldPacket.clientHeader, WorldPacket.clientHeader, hshort, hlong]
    change Blizzard.serverPktHeader 32768 0xA9 <+: Blizzard.serverPktHeader 8421376 0xA9
    decide
  obtain ⟨hsame, _⟩ := h ⟨0xA9, short⟩ ⟨0xA9, long⟩ (built_of_length_le hfits)
    (built_of_length_le hfits') hfits hfits' hheader
  rw [hshort, hlong] at hsame
  exact absurd hsame (by decide)

end HysteriaCore.Net
