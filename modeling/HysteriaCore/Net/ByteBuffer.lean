import HysteriaCore.Lib.Bytes
import Mathlib.Algebra.Ring.Nat

/-!
# Byte buffers (shared/Packets/ByteBuffer.h)

`read` checks the end of the storage and throws; `contents()` with an index of
the caller's own does not, so the memory behind the storage is part of the
model. `ahead` is what a reader still has before it, and `words` are the whole
32-bit words of a byte string, what a chain of `readUInt32` finds.
-/

namespace HysteriaCore.Net
open Lib

structure ByteBuffer where
  storage : Bytes
  rpos : ℕ
  past : ℕ → UInt8

namespace ByteBuffer

def byteAt (b : ByteBuffer) (i : ℕ) : UInt8 := b.storage.getD i (b.past i)

def skip (b : ByteBuffer) (n : ℕ) : ByteBuffer := { b with rpos := b.rpos + n }

def window (b : ByteBuffer) (n : ℕ) : Bytes := (List.range n).map fun i => b.byteAt (b.rpos + i)

def leNat : Bytes → ℕ
  | [] => 0
  | b :: rest => b.toNat + 256 * leNat rest

/-- `read<T>` for a `T` of `size` bytes; `none` is the `ByteBufferPositionException`. -/
def read (b : ByteBuffer) (size : ℕ) : Option (Bytes × ByteBuffer) :=
  if b.storage.length < b.rpos + size then none else some (b.window size, b.skip size)

def readUInt8 (b : ByteBuffer) : Option (UInt8 × ByteBuffer) :=
  (b.read 1).map fun (bytes, b) => (bytes.headD 0, b)

def readUInt16 (b : ByteBuffer) : Option (ℕ × ByteBuffer) :=
  (b.read 2).map fun (bytes, b) => (leNat bytes, b)

def readUInt32 (b : ByteBuffer) : Option (ℕ × ByteBuffer) :=
  (b.read 4).map fun (bytes, b) => (leNat bytes, b)

/-! ### The bytes ahead -/

def ahead (b : ByteBuffer) : Bytes := b.storage.drop b.rpos

def readCharacters : Bytes → Bytes × ℕ
  | [] => ([], 0)
  | c :: rest =>
    if c = 0 then ([], 1)
    else ((c :: (readCharacters rest).1), (readCharacters rest).2 + 1)

def readString (b : ByteBuffer) : Bytes × ByteBuffer :=
  ((readCharacters b.ahead).1, b.skip (readCharacters b.ahead).2)

@[simp] theorem ahead_skip (b : ByteBuffer) (n : ℕ) : (b.skip n).ahead = b.ahead.drop n := by
  simp [ahead, skip]

theorem skip_skip (b : ByteBuffer) (m n : ℕ) : (b.skip m).skip n = b.skip (m + n) := by
  simp [skip, Nat.add_assoc]

variable {b : ByteBuffer}

theorem window_eq_take {n : ℕ} (h : n ≤ b.ahead.length) : b.window n = b.ahead.take n := by
  apply List.ext_getElem
  · simp [window, h]
  · intro i h1 h2
    have hi : i < n := by simpa [window] using h1
    have hin : b.rpos + i < b.storage.length := by
      simp only [ahead, List.length_drop] at h
      omega
    simp [window, byteAt, ahead, List.getD_eq_getElem?_getD, hin]

theorem read_eq {n : ℕ} (h : n ≤ b.ahead.length) (hn : 0 < n) : b.read n = some (b.ahead.take n, b.skip n) := by
  have hin : b.rpos + n ≤ b.storage.length := by
    simp only [ahead, List.length_drop] at h
    omega
  rw [read, if_neg (by omega), window_eq_take h]

variable {rest : Bytes}

theorem readUInt8_eq {x : UInt8} (h : b.ahead = x :: rest) :
    b.readUInt8 = some (x, b.skip 1) ∧ (b.skip 1).ahead = rest := by
  have hlen : 1 ≤ b.ahead.length := by simp [h]
  constructor
  · simp [readUInt8, read_eq hlen, h]
  · simp [h]

theorem readUInt16_eq {x y : UInt8} (h : b.ahead = x :: y :: rest) :
    b.readUInt16 = some (leNat [x, y], b.skip 2) ∧ (b.skip 2).ahead = rest := by
  have hlen : 2 ≤ b.ahead.length := by simp [h]
  constructor
  · simp [readUInt16, read_eq hlen, h]
  · simp [h]

theorem readUInt32_eq {w x y z : UInt8}
    (h : b.ahead = w :: x :: y :: z :: rest) :
    b.readUInt32 = some (leNat [w, x, y, z], b.skip 4) ∧ (b.skip 4).ahead = rest := by
  have hlen : 4 ≤ b.ahead.length := by simp [h]
  constructor
  · simp [readUInt32, read_eq hlen, h]
  · simp [h]

/-! ### Writing -/

def resize (storage : Bytes) (size : ℕ) : Bytes :=
  storage ++ List.replicate (size - storage.length) 0

/-- `append` at `_wpos`: the storage and the write position after it; `none` is the exception
for an empty source or the failed `ASSERT`. -/
def append (storage : Bytes) (wpos : ℕ) (src : Bytes) : Option (Bytes × ℕ) :=
  if src.length = 0 then none
  else if storage.length < 10000000 then
    let newsize := wpos + src.length
    let storage := resize storage newsize
    some (storage.take wpos ++ src ++ storage.drop newsize, newsize)
  else none

theorem append_eq_some {storage src next : Bytes} {wpos newsize : ℕ}
    (h : append storage wpos src = some (next, newsize)) :
    newsize = wpos + src.length ∧
      ∃ before after, next = before ++ src ++ after ∧ before.length = wpos := by
  rw [append] at h
  split_ifs at h
  obtain ⟨rfl, rfl⟩ := Prod.mk.inj (Option.some.inj h)
  refine ⟨rfl, _, _, rfl, ?_⟩
  simp only [resize, List.length_take, List.length_append, List.length_replicate]
  omega

theorem append_end (storage : Bytes) {src : Bytes} (hroom : storage.length < 10000000)
    (hsrc : src.length ≠ 0) :
    append storage storage.length src = some (storage ++ src, storage.length + src.length) := by
  have hdrop : (resize storage (storage.length + src.length)).drop (storage.length + src.length) =
      [] := by
    apply List.drop_eq_nil_of_le
    simp only [resize, List.length_append, List.length_replicate]
    omega
  rw [append, if_neg hsrc, if_pos hroom]
  dsimp only
  rw [hdrop, resize, List.take_left, List.append_nil]

end ByteBuffer

/-! ### Little-endian 32-bit words -/

def le32 (n : ℕ) : Bytes :=
  [UInt8.ofNat n, UInt8.ofNat (n / 2^8), UInt8.ofNat (n / 2^16), UInt8.ofNat (n / 2^24)]

theorem leNat_le32 {n : ℕ} (h : n < 2^32) : ByteBuffer.leNat (le32 n) = n := by
  simp only [le32, ByteBuffer.leNat, UInt8.toNat_ofNat']
  omega

def words : Bytes → List ℕ
  | a :: b :: c :: d :: rest => ByteBuffer.leNat [a, b, c, d] :: words rest
  | _ => []

theorem words_flatMap_le32 {ws : List ℕ} (h : ∀ w ∈ ws, w < 2^32) : words (ws.flatMap le32) = ws := by
  induction ws with
  | nil => rfl
  | cons w ws ih =>
    have hw := leNat_le32 (h w List.mem_cons_self)
    have hws := ih fun x hx => h x (List.mem_cons_of_mem w hx)
    rw [List.flatMap_cons, le32, List.cons_append, List.cons_append, List.cons_append,
      List.cons_append, List.nil_append, words, hws]
    exact congrArg (· :: ws) hw

theorem length_flatMap_le32 (ws : List ℕ) : (ws.flatMap le32).length = 4 * ws.length := by
  induction ws with
  | nil => rfl
  | cons w ws ih =>
    rw [List.flatMap_cons, List.length_append, ih, List.length_cons]
    simp only [le32, List.length_cons, List.length_nil]
    omega

namespace ByteBuffer

theorem readUInt32_words (b : ByteBuffer) :
    (words b.ahead = [] ∧ b.readUInt32 = none) ∨
      ∃ w, b.readUInt32 = some (w, b.skip 4) ∧ words b.ahead = w :: words (b.skip 4).ahead := by
  match h : b.ahead with
  | [] | [_] | [_, _] | [_, _, _] =>
    refine .inl ⟨rfl, ?_⟩
    have hlen := congrArg List.length h
    simp only [ahead, List.length_drop, List.length_cons, List.length_nil] at hlen
    rw [readUInt32, read, if_pos (by omega)]
    rfl
  | x :: y :: z :: w :: rest =>
    obtain ⟨hread, hrest⟩ := readUInt32_eq h
    exact .inr ⟨_, hread, by rw [hrest, words]⟩

end ByteBuffer

end HysteriaCore.Net
