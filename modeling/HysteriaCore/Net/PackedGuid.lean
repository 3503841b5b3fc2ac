import HysteriaCore.Lib.Footprint
import HysteriaCore.Net.ByteBuffer
import Mathlib.Data.Nat.Bitwise
import Mathlib.Tactic.Ring

/-!
# Packed guids (shared/Packets/ByteBuffer.h)

The bytes of a guid that are not zero, behind a mask that tells their places. The writer
shifts the guid until nothing is left, the reader goes through the eight bits of the mask.
-/

namespace HysteriaCore.Net
open Lib

/-! ### The writer -/

def packLoop (guid i mask : ℕ) (bytes : Bytes) : ℕ × Bytes :=
  if guid = 0 then (mask, bytes)
  else if guid % 2^8 ≠ 0 then
    packLoop (guid / 2^8) (i + 1) (mask ||| 1 <<< i) (bytes ++ [UInt8.ofNat guid])
  else packLoop (guid / 2^8) (i + 1) mask bytes
termination_by guid
decreasing_by all_goals omega

def packGUID (guid : UInt64) : Bytes :=
  let packed := packLoop guid.toNat 0 0 []
  UInt8.ofNat packed.1 :: packed.2

def appendPackGUID (storage : Bytes) (wpos : ℕ) (guid : UInt64) : Option (Bytes × ℕ) :=
  ByteBuffer.append storage wpos (packGUID guid)

/-! ### The reader -/

def takeByte (b : ByteBuffer) : Traced ℕ (UInt8 × ByteBuffer) :=
  if b.storage.length < b.rpos + 1 then .throw
  else match b.readUInt8 with
    | none => .throw
    | some read => .reading [b.rpos] read

def unpackLoop (guidmark : UInt8) : ℕ → ℕ → ℕ → ByteBuffer → Traced ℕ (ℕ × ByteBuffer)
  | 0, _, guid, b => .pure (guid, b)
  | left + 1, i, guid, b =>
    if guidmark.toNat &&& 1 <<< i ≠ 0 then
      (takeByte b).bind fun bit =>
        unpackLoop guidmark left (i + 1) (guid ||| bit.1.toNat <<< (i * 8)) bit.2
    else unpackLoop guidmark left (i + 1) guid b

def readPackGUID (b : ByteBuffer) : Traced ℕ (ℕ × ByteBuffer) :=
  (takeByte b).bind fun guidmark => unpackLoop guidmark.1 8 0 0 guidmark.2

/-! ### What is read -/

variable {b : ByteBuffer}

theorem takeByte_nil (h : b.ahead = []) : takeByte b = .throw := by
  have hlen := congrArg List.length h
  simp only [ByteBuffer.ahead, List.length_drop, List.length_nil] at hlen
  rw [takeByte, if_pos (by omega)]

variable {rest : Bytes}

theorem takeByte_cons {x : UInt8} (h : b.ahead = x :: rest) : takeByte b = .reading [b.rpos] (x, b.skip 1) := by
  have hlen := congrArg List.length h
  simp only [ByteBuffer.ahead, List.length_drop, List.length_cons] at hlen
  rw [takeByte, if_neg (by omega), (ByteBuffer.readUInt8_eq h).1]

theorem takeByte_within (b : ByteBuffer) : (takeByte b).Within (· < b.storage.length) := by
  rw [takeByte]
  split
  · simp
  · rename_i hroom
    cases b.readUInt8 with
    | none => simp
    | some read =>
      rw [Traced.within_reading]
      intro i hi
      rw [List.mem_singleton.mp hi]
      omega

theorem and_shift_ne_zero (mask i : ℕ) : mask &&& 1 <<< i ≠ 0 ↔ mask.testBit i = true := by
  rw [Nat.one_shiftLeft, Nat.and_two_pow]
  cases mask.testBit i <;> simp

def bitsFrom (mask : UInt8) (i left : ℕ) : ℕ :=
  (List.range' i left).countP fun j => mask.toNat.testBit j

def popcount (mask : UInt8) : ℕ := bitsFrom mask 0 8

theorem bitsFrom_succ (mask : UInt8) (i left : ℕ) :
    bitsFrom mask i (left + 1) =
      bitsFrom mask (i + 1) left + if mask.toNat.testBit i = true then 1 else 0 := by
  rw [bitsFrom, List.range'_succ, List.countP_cons]
  rfl

theorem unpackLoop_consumes (mask : UInt8) (left i guid : ℕ) (b : ByteBuffer) :
    (b.ahead.length < bitsFrom mask i left ∧ (unpackLoop mask left i guid b).result = none) ∨
      (bitsFrom mask i left ≤ b.ahead.length ∧ ∃ value,
        (unpackLoop mask left i guid b).result = some (value, b.skip (bitsFrom mask i left))) := by
  induction left generalizing i guid b with
  | zero => exact .inr ⟨Nat.zero_le _, guid, rfl⟩
  | succ left ih =>
    rw [unpackLoop, bitsFrom_succ]
    by_cases hbit : mask.toNat.testBit i = true
    · rw [if_pos ((and_shift_ne_zero ..).mpr hbit), if_pos hbit]
      cases hahead : b.ahead with
      | nil =>
        rw [takeByte_nil hahead]
        exact .inl ⟨Nat.succ_pos _, rfl⟩
      | cons x rest =>
        rw [takeByte_cons hahead, List.length_cons]
        have hskip : (b.skip 1).ahead.length = rest.length := by
          rw [ByteBuffer.ahead_skip, hahead]
          rfl
        rcases ih (i + 1) (guid ||| x.toNat <<< (i * 8)) (b.skip 1) with
          ⟨hshort, hnone⟩ | ⟨henough, value, hsome⟩
        · refine .inl ⟨by omega, ?_⟩
          exact hnone
        · refine .inr ⟨by omega, value, ?_⟩
          rw [Nat.add_comm (bitsFrom mask (i + 1) left), ← ByteBuffer.skip_skip]
          exact hsome
    · rw [if_neg (mt (and_shift_ne_zero ..).mp hbit), if_neg hbit]
      exact ih (i + 1) guid b

theorem takeByte_some {read : UInt8 × ByteBuffer}
    (h : (takeByte b).result = some read) :
    ∃ rest, b.ahead = read.1 :: rest ∧ read.2 = b.skip 1 := by
  cases hahead : b.ahead with
  | nil =>
    rw [takeByte_nil hahead] at h
    cases h
  | cons x rest =>
    rw [takeByte_cons hahead] at h
    obtain rfl := Option.some.inj h
    exact ⟨rest, rfl, rfl⟩

theorem unpackLoop_within (mask : UInt8) (left i guid : ℕ) (b : ByteBuffer) :
    (unpackLoop mask left i guid b).Within (· < b.storage.length) := by
  induction left generalizing i guid b with
  | zero => simp [unpackLoop]
  | succ left ih =>
    rw [unpackLoop]
    split
    · refine (Traced.within_bind _ _).mpr ⟨takeByte_within b, fun bit hbit => ?_⟩
      obtain ⟨_, _, hskip⟩ := takeByte_some hbit
      rw [hskip]
      exact ih _ _ (b.skip 1)
    · exact ih _ _ b

theorem readPackGUID_consumes (b : ByteBuffer) :
    (readPackGUID b).Within (· < b.storage.length) ∧
      ((readPackGUID b).result = none ∨ ∃ mask rest guid, b.ahead = mask :: rest ∧
        (readPackGUID b).result = some (guid, b.skip (1 + popcount mask)) ∧
          b.rpos + (1 + popcount mask) ≤ b.storage.length) := by
  refine ⟨(Traced.within_bind _ _).mpr ⟨takeByte_within b, fun read hread => ?_⟩, ?_⟩
  · obtain ⟨_, _, hskip⟩ := takeByte_some hread
    rw [hskip]
    exact unpackLoop_within _ _ _ _ (b.skip 1)
  · cases hahead : b.ahead with
    | nil =>
      left
      rw [readPackGUID, takeByte_nil hahead]
      rfl
    | cons mask rest =>
      have hlen := congrArg List.length hahead
      simp only [ByteBuffer.ahead, List.length_drop, List.length_cons] at hlen
      rw [readPackGUID, takeByte_cons hahead, Traced.result_bind, Traced.result_reading,
        Option.bind_some]
      dsimp only
      rcases unpackLoop_consumes mask 8 0 0 (b.skip 1) with ⟨_, hnone⟩ | ⟨henough, guid, hsome⟩
      · exact .inl hnone
      · refine .inr ⟨mask, rest, guid, rfl, ?_, ?_⟩
        · rw [← ByteBuffer.skip_skip]
          exact hsome
        · rw [ByteBuffer.ahead_skip, hahead, List.drop_one, List.tail_cons] at henough
          rw [popcount]
          omega

/-! ### What is written -/

def packedParts (guid : ℕ) : ℕ × Bytes :=
  if guid = 0 then (0, [])
  else
    let rest := packedParts (guid / 2^8)
    if guid % 2^8 ≠ 0 then (2 * rest.1 + 1, UInt8.ofNat guid :: rest.2) else (2 * rest.1, rest.2)
termination_by guid
decreasing_by omega

theorem packedParts_nonzero {guid : ℕ} (h : guid % 2^8 ≠ 0) :
    packedParts guid = (2 * (packedParts (guid / 2^8)).1 + 1,
      UInt8.ofNat guid :: (packedParts (guid / 2^8)).2) := by
  have hguid : guid ≠ 0 := by
    rintro rfl
    exact h rfl
  rw [packedParts, if_neg hguid, if_pos h]

theorem packedParts_zero {guid : ℕ} (h : guid % 2^8 = 0) :
    packedParts guid = (2 * (packedParts (guid / 2^8)).1, (packedParts (guid / 2^8)).2) := by
  by_cases hguid : guid = 0
  · subst hguid
    rw [Nat.zero_div, packedParts, if_pos rfl]
    rfl
  · rw [packedParts, if_neg hguid, if_neg (not_not.mpr h)]

theorem packLoop_eq (guid i mask : ℕ) (bytes : Bytes) (hmask : mask < 2^i) :
    packLoop guid i mask bytes =
      (mask + 2^i * (packedParts guid).1, bytes ++ (packedParts guid).2) := by
  induction guid, i, mask, bytes using packLoop.induct with
  | case1 i mask bytes =>
    rw [packLoop, if_pos rfl, packedParts, if_pos rfl, Nat.mul_zero, Nat.add_zero, List.append_nil]
  | case2 guid i mask bytes hguid hbyte ih =>
    have hor : mask ||| 1 <<< i = mask + 2^i := by
      rw [Nat.one_shiftLeft, Nat.or_comm, Nat.add_comm]
      have hadd := Nat.two_pow_add_eq_or_of_lt hmask 1
      rw [Nat.mul_one] at hadd
      exact hadd.symm
    have hnext : mask + 2^i < 2^(i + 1) := by
      rw [pow_succ]
      omega
    rw [packLoop, if_neg hguid, if_pos hbyte, ih (by rw [hor]; exact hnext), hor,
      packedParts_nonzero hbyte, List.append_assoc, List.singleton_append]
    refine Prod.ext ?_ rfl
    simp only
    ring
  | case3 guid i mask bytes hguid hbyte ih =>
    rw [packLoop, if_neg hguid, if_neg hbyte, ih (hmask.trans (Nat.pow_lt_pow_right (by decide)
      (Nat.lt_succ_self i))), packedParts_zero (not_not.mp hbyte)]
    refine Prod.ext ?_ rfl
    simp only
    ring

theorem packedParts_bounds (n guid : ℕ) (h : guid < 2^(8 * n)) :
    (packedParts guid).1 < 2^n ∧ (packedParts guid).2.length ≤ n := by
  induction n generalizing guid with
  | zero =>
    obtain rfl : guid = 0 := by simpa using h
    rw [packedParts, if_pos rfl]
    simp
  | succ n ih =>
    have hrest : guid / 2^8 < 2^(8 * n) := by
      rw [Nat.div_lt_iff_lt_mul (by decide), ← pow_add]
      exact h
    obtain ⟨hmask, hlen⟩ := ih _ hrest
    rw [pow_succ]
    by_cases hbyte : guid % 2^8 = 0
    · rw [packedParts_zero hbyte]
      exact ⟨by dsimp only; omega, by dsimp only; omega⟩
    · rw [packedParts_nonzero hbyte, List.length_cons]
      exact ⟨by dsimp only; omega, by omega⟩

theorem unpackLoop_parts {mask : UInt8} {left i guid got : ℕ}
    (hguid : guid < 2^(8 * left)) (hmask : mask.toNat / 2^i = (packedParts guid).1)
    (hgot : got < 2^(i * 8)) (hahead : b.ahead = (packedParts guid).2 ++ rest) :
    (unpackLoop mask left i got b).result =
      some (got + 2^(i * 8) * guid, b.skip (packedParts guid).2.length) := by
  induction left generalizing i guid got b with
  | zero =>
    obtain rfl : guid = 0 := by simpa using hguid
    rw [packedParts, if_pos rfl, Nat.mul_zero]
    rfl
  | succ left ih =>
    have hbits : mask.toNat.testBit i = true ↔ (packedParts guid).1 % 2 = 1 := by
      rw [Nat.testBit_eq_decide_div_mod_eq, hmask, decide_eq_true_iff]
    have hguid' : guid / 2^8 < 2^(8 * left) := by
      rw [Nat.div_lt_iff_lt_mul (by decide), ← pow_add]
      exact hguid
    have hmask' : mask.toNat / 2^(i + 1) = (packedParts guid).1 / 2 := by
      rw [pow_succ, ← Nat.div_div_eq_div_mul, hmask]
    have hwidth : 2^((i + 1) * 8) = 2^(i * 8) * 2^8 := by
      rw [Nat.succ_mul, pow_add]
    have hdivmod := Nat.div_add_mod guid (2^8)
    rw [unpackLoop]
    by_cases hbyte : guid % 2^8 = 0
    · have hparts := packedParts_zero hbyte
      have hbit : ¬mask.toNat.testBit i = true := by
        rw [hbits, hparts]
        dsimp only
        omega
      have hnext := ih hguid' (by rw [hmask', hparts]; dsimp only; omega)
        (hgot.trans (Nat.pow_lt_pow_right (by decide) (by omega))) (by rw [hahead, hparts])
      rw [if_neg (mt (and_shift_ne_zero ..).mp hbit), hnext, hparts, hwidth, Nat.mul_assoc]
      congr 4
      omega
    · have hparts := packedParts_nonzero hbyte
      have hbit : mask.toNat.testBit i = true := by
        rw [hbits, hparts]
        dsimp only
        omega
      rw [hparts, List.cons_append] at hahead
      have hor : got ||| (UInt8.ofNat guid).toNat <<< (i * 8) = got + 2^(i * 8) * (guid % 2^8) := by
        have hadd := Nat.shiftLeft_add_eq_or_of_lt hgot (guid % 2^8)
        rw [Nat.shiftLeft_eq, Nat.mul_comm, Nat.add_comm] at hadd
        rw [UInt8.toNat_ofNat', Nat.or_comm, Nat.shiftLeft_eq, Nat.mul_comm (guid % 2^8), hadd]
      have hgot' : got + 2^(i * 8) * (guid % 2^8) < 2^((i + 1) * 8) := by
        have hlt : guid % 2^8 + 1 ≤ 2^8 := Nat.mod_lt _ (by decide)
        have hmul := Nat.mul_le_mul_left (2^(i * 8)) hlt
        rw [hwidth]
        rw [Nat.mul_add] at hmul
        omega
      have hnext := ih (b := b.skip 1) hguid' (by rw [hmask', hparts]; dsimp only; omega) hgot'
        (by rw [ByteBuffer.ahead_skip, hahead, List.drop_one, List.tail_cons])
      rw [if_pos ((and_shift_ne_zero ..).mpr hbit), takeByte_cons hahead, Traced.result_bind,
        Traced.result_reading, Option.bind_some]
      dsimp only
      rw [hor, hnext, hparts, ByteBuffer.skip_skip, List.length_cons, Nat.add_comm 1, hwidth,
        Nat.mul_assoc, Nat.add_assoc, ← Nat.mul_add]
      congr 4
      omega

theorem packGUID_eq (guid : UInt64) :
    packGUID guid = UInt8.ofNat (packedParts guid.toNat).1 :: (packedParts guid.toNat).2 := by
  rw [packGUID, packLoop_eq _ _ _ _ (by decide)]
  simp

theorem readPackGUID_packGUID {guid : UInt64}
    (h : b.ahead = packGUID guid ++ rest) :
    (readPackGUID b).result = some (guid.toNat, b.skip (packGUID guid).length) := by
  have hwide : guid.toNat < 2^(8 * 8) := guid.toNat_lt
  have hbounds := packedParts_bounds 8 guid.toNat hwide
  have hmask : (UInt8.ofNat (packedParts guid.toNat).1).toNat / 2^0 = (packedParts guid.toNat).1 := by
    rw [UInt8.toNat_ofNat', pow_zero, Nat.div_one, Nat.mod_eq_of_lt hbounds.1]
  rw [packGUID_eq, List.cons_append] at h
  have hahead : (b.skip 1).ahead = (packedParts guid.toNat).2 ++ rest := by
    rw [ByteBuffer.ahead_skip, h, List.drop_one, List.tail_cons]
  rw [readPackGUID, takeByte_cons h, Traced.result_bind, Traced.result_reading, Option.bind_some]
  dsimp only
  rw [unpackLoop_parts hwide hmask (by decide) hahead, packGUID_eq, ByteBuffer.skip_skip,
    List.length_cons, Nat.add_comm 1]
  simp

theorem length_packGUID (guid : UInt64) :
    1 ≤ (packGUID guid).length ∧ (packGUID guid).length ≤ 9 := by
  have hwide : guid.toNat < 2^(8 * 8) := guid.toNat_lt
  have hlen := (packedParts_bounds 8 guid.toNat hwide).2
  rw [packGUID_eq, List.length_cons]
  omega

/-- The guid is written, comes back from where it was written, and no read leaves the buffer. -/
theorem packed_guid_codec :
    (∀ (storage : Bytes) (wpos : ℕ) (guid : UInt64), storage.length < 10000000 →
      ∃ written newpos, appendPackGUID storage wpos guid = some (written, newpos)) ∧
    (∀ (storage : Bytes) (wpos : ℕ) (guid : UInt64) (written : Bytes) (newpos : ℕ),
      appendPackGUID storage wpos guid = some (written, newpos) →
        1 ≤ newpos - wpos ∧ newpos - wpos ≤ 9 ∧
          ∀ (contents : Bytes) (past : ℕ → UInt8), contents.take newpos = written.take newpos →
            (readPackGUID ⟨contents, wpos, past⟩).result =
              some (guid.toNat, ⟨contents, newpos, past⟩)) ∧
    ∀ b : ByteBuffer, (readPackGUID b).Within (· < b.storage.length) ∧
      ((readPackGUID b).result = none ∨ ∃ mask rest guid, b.ahead = mask :: rest ∧
        (readPackGUID b).result = some (guid, b.skip (1 + popcount mask)) ∧
          b.rpos + (1 + popcount mask) ≤ b.storage.length) := by
  refine ⟨?_, ?_, readPackGUID_consumes⟩
  · intro storage wpos guid hroom
    have hlen := length_packGUID guid
    exact ⟨_, _, by rw [appendPackGUID, ByteBuffer.append, if_neg (by omega), if_pos hroom]⟩
  intro storage wpos guid written newpos hwritten
  obtain ⟨rfl, before, after, rfl, hbefore⟩ := ByteBuffer.append_eq_some hwritten
  have hlen := length_packGUID guid
  refine ⟨by omega, by omega, fun contents past hsame => ?_⟩
  have hfront : (before ++ packGUID guid).length = wpos + (packGUID guid).length := by
    rw [List.length_append, hbefore]
  rw [List.take_left' hfront] at hsame
  have hahead : (ByteBuffer.mk contents wpos past).ahead =
      packGUID guid ++ contents.drop (wpos + (packGUID guid).length) := by
    rw [ByteBuffer.ahead]
    conv_lhs => rw [← List.take_append_drop (wpos + (packGUID guid).length) contents, hsame]
    rw [List.append_assoc, List.drop_left' hbefore]
  exact readPackGUID_packGUID hahead

theorem packed_guid_codec_hole :
    (readPackGUID ⟨packGUID 0xF000000000AB ++ [7], 0, fun _ => 0⟩).result =
      some (0xF000000000AB, ⟨packGUID 0xF000000000AB ++ [7], 3, fun _ => 0⟩) :=
  (packed_guid_codec.2.1 [] 0 0xF000000000AB [0x21, 0xAB, 0xF0] 3 (by decide +kernel)).2.2
    (packGUID 0xF000000000AB ++ [7]) (fun _ => 0) (by decide +kernel)

end HysteriaCore.Net
