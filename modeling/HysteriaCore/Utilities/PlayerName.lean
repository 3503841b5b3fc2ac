import HysteriaCore.Utilities.Utf8

/-!
# Wide strings and the names of players

`Utf8toWStr` writes into an array of the caller: the model keeps each write with its index, in the
order of the writes, also those behind the array.
-/

namespace HysteriaCore.Utilities
open Lib Utf8

/-! ### Into the buffer -/

structure WStr where
  ok : Bool
  wsize : ℕ
  writes : List (ℕ × ℕ)
  deriving DecidableEq, Repr

def WStr.failed (wsize : ℕ) (writes : List (ℕ × ℕ)) : WStr :=
  ⟨false, 0, writes ++ if 0 < wsize then [(0, 0)] else []⟩

def written (us : List ℕ) : List (ℕ × ℕ) := us.zipIdx.map Prod.swap

def utf8toWStr (utf8str : Bytes) (wsize : ℕ) : WStr :=
  match distance utf8str with
  | none => .failed wsize []
  | some len =>
    if wsize < len then .failed wsize []
    else if (utf8to16 utf8str).2 then ⟨true, len, written (utf8to16 utf8str).1 ++ [(len, 0)]⟩
    else .failed len (written (utf8to16 utf8str).1)

/-- No write is behind the index `wsize`, and a size that is told is the number of units in front of
the terminator. -/
structure WStr.Fits (wsize : ℕ) (r : WStr) : Prop where
  inside : ∀ w ∈ r.writes, w.1 ≤ wsize
  told : r.ok = true → ∃ us : List ℕ, r.writes = written us ++ [(r.wsize, 0)] ∧ r.wsize = us.length

/-- Every code point of the text is in the basic plane, unless there are too many of them. -/
def Basic (utf8str : Bytes) (wsize : ℕ) : Prop :=
  ∀ cps, Decodes utf8str cps → cps.length ≤ wsize → ∀ cp ∈ cps, cp ≤ 0xffff

theorem written_length (us : List ℕ) : (written us).length = us.length := by
  rw [written, List.length_map, List.length_zipIdx]

theorem lt_of_mem_written {us : List ℕ} {w : ℕ × ℕ} (h : w ∈ written us) : w.1 < us.length := by
  obtain ⟨x, hx, rfl⟩ := List.mem_map.mp h
  have hlt := (List.mem_zipIdx hx).2.1
  rw [Nat.zero_add] at hlt
  exact hlt

theorem fits_failed (wsize : ℕ) : (WStr.failed wsize []).Fits wsize where
  inside := by
    intro w hw
    rw [WStr.failed, List.nil_append] at hw
    dsimp only at hw
    split at hw
    · rw [List.mem_singleton.mp hw]
      exact Nat.zero_le _
    · cases hw
  told h := by cases h

theorem utf8toWStr_none {utf8str : Bytes} (h : ∀ cps, ¬Decodes utf8str cps) (wsize : ℕ) :
    utf8toWStr utf8str wsize = .failed wsize [] := by
  rw [utf8toWStr]
  cases hdistance : distance utf8str with
  | none => rfl
  | some len =>
    obtain ⟨cps, hcps, -⟩ := distance_eq_some.mp hdistance
    exact absurd hcps (h cps)

variable {cps : List ℕ}

theorem utf8toWStr_some {utf8str : Bytes} (h : Decodes utf8str cps) (wsize : ℕ) :
    utf8toWStr utf8str wsize = if wsize < cps.length then .failed wsize []
      else ⟨true, cps.length, written (cps.flatMap units) ++ [(cps.length, 0)]⟩ := by
  rw [utf8toWStr, distance_eq_some.mpr ⟨cps, h, rfl⟩, utf8to16_eq h]
  rfl

theorem length_flatMap_units (cps : List ℕ) :
    (cps.flatMap units).length = cps.length + cps.countP fun cp => decide (0xffff < cp) := by
  induction cps with
  | nil => rfl
  | cons cp cps ih =>
    rw [List.flatMap_cons, List.length_append, ih, List.countP_cons, List.length_cons, units]
    by_cases hcp : 0xffff < cp
    · simp only [hcp, if_true, decide_true, List.length_cons, List.length_nil]
      omega
    · simp only [hcp, if_false, decide_false, Bool.false_eq_true, List.length_singleton]
      omega

theorem fits_iff (utf8str : Bytes) (wsize : ℕ) : (utf8toWStr utf8str wsize).Fits wsize ↔ Basic utf8str wsize := by
  by_cases hvalid : ∃ cps, Decodes utf8str cps
  · obtain ⟨cps, hcps⟩ := hvalid
    rw [utf8toWStr_some hcps]
    by_cases hroom : wsize < cps.length
    · rw [if_pos hroom]
      refine iff_of_true (fits_failed wsize) fun cps' hcps' hle => ?_
      rw [hcps'.unique hcps] at hle
      omega
    rw [if_neg hroom]
    have hbasic : Basic utf8str wsize ↔ (cps.flatMap units).length = cps.length := by
      rw [length_flatMap_units]
      constructor
      · intro h
        have hnone : (cps.countP fun cp => decide (0xffff < cp)) = 0 := by
          refine List.countP_eq_zero.mpr fun cp hcp hhigh => ?_
          have hle := h cps hcps (by omega) cp hcp
          have hlt := of_decide_eq_true hhigh
          omega
        omega
      · intro h cps' hcps' _ cp hcp
        rw [hcps'.unique hcps] at hcp
        have hnone : (cps.countP fun cp => decide (0xffff < cp)) = 0 := by omega
        exact Nat.not_lt.mp fun hlt => List.countP_eq_zero.mp hnone cp hcp (decide_eq_true hlt)
    rw [hbasic]
    constructor
    · intro h
      obtain ⟨us, hwrites, hsize⟩ := h.told rfl
      have hlength := congrArg List.length hwrites
      dsimp only at hlength hsize
      rw [List.length_append, List.length_append, written_length, written_length, ← hsize] at hlength
      exact Nat.add_right_cancel hlength
    · intro h
      refine ⟨fun w hw => ?_, fun _ => ⟨_, rfl, h.symm⟩⟩
      rcases List.mem_append.mp hw with hunit | hend
      · have hlt := lt_of_mem_written hunit
        omega
      · rw [List.mem_singleton.mp hend]
        exact Nat.not_lt.mp hroom
  · rw [not_exists] at hvalid
    rw [utf8toWStr_none hvalid]
    exact iff_of_true (fits_failed wsize) fun cps hcps => absurd hcps (hvalid cps)

/-! ### Names -/

def MAX_INTERNAL_PLAYER_NAME : ℕ := 15

def wcharToUpper (wchar : ℕ) : ℕ :=
  if 0x61 ≤ wchar ∧ wchar ≤ 0x7a then wchar % 2 ^ 16 - 0x20
  else if wchar = 0xdf then 0x1e9e
  else if 0xe0 ≤ wchar ∧ wchar ≤ 0xf6 then wchar % 2 ^ 16 - 0x20
  else if 0xf8 ≤ wchar ∧ wchar ≤ 0xfe then wchar % 2 ^ 16 - 0x20
  else if 0x101 ≤ wchar ∧ wchar ≤ 0x12f ∧ wchar % 2 = 1 then wchar % 2 ^ 16 - 0x1
  else if 0x430 ≤ wchar ∧ wchar ≤ 0x44f then wchar % 2 ^ 16 - 0x20
  else if wchar = 0x451 then 0x401
  else wchar

def wcharToLower (wchar : ℕ) : ℕ :=
  if 0x41 ≤ wchar ∧ wchar ≤ 0x5a then wchar % 2 ^ 16 + 0x20
  else if 0xc0 ≤ wchar ∧ wchar ≤ 0xd6 then wchar % 2 ^ 16 + 0x20
  else if 0xd8 ≤ wchar ∧ wchar ≤ 0xde then wchar % 2 ^ 16 + 0x20
  else if 0x100 ≤ wchar ∧ wchar ≤ 0x12e ∧ wchar % 2 = 0 then wchar % 2 ^ 16 + 0x1
  else if wchar = 0x1e9e then 0xdf
  else if wchar = 0x401 then 0x451
  else if 0x410 ≤ wchar ∧ wchar ≤ 0x42f then wchar % 2 ^ 16 + 0x20
  else wchar

def store (buf : ℕ → ℕ) (writes : List (ℕ × ℕ)) : ℕ → ℕ :=
  writes.foldl (fun buf w => Function.update buf w.1 w.2) buf

def wstrToUtf8 (wstr : ℕ → ℕ) (size : ℕ) : Option Bytes := utf16to8 ((List.range size).map wstr)

def lowerAt (buf : ℕ → ℕ) (i : ℕ) : ℕ → ℕ := Function.update buf i (wcharToLower (buf i))

/-- The name where `true` is returned; `past` is what the array on the stack holds before. -/
def normalizePlayerName (past : ℕ → ℕ) (name : Bytes) : Option Bytes :=
  if name = [] then none
  else
    let r := utf8toWStr name MAX_INTERNAL_PLAYER_NAME
    if r.ok = false then none
    else
      let buf := store past r.writes
      let buf := Function.update buf 0 (wcharToUpper (buf 0))
      wstrToUtf8 ((List.range' 1 (r.wsize - 1)).foldl lowerAt buf) r.wsize

def capitalized : List ℕ → List ℕ
  | [] => []
  | cp :: cps => wcharToUpper cp :: cps.map wcharToLower

theorem wcharToUpper_valid {cp : ℕ} (hvalid : isCodePointValid cp = true) (hbasic : cp ≤ 0xffff) :
    isCodePointValid (wcharToUpper cp) = true ∧ wcharToUpper cp ≤ 0xffff := by
  simp only [isCodePointValid, isSurrogate, decide_eq_true_eq, decide_eq_false_iff_not] at hvalid ⊢
  unfold wcharToUpper
  split_ifs <;> omega

theorem wcharToLower_valid {cp : ℕ} (hvalid : isCodePointValid cp = true) (hbasic : cp ≤ 0xffff) :
    isCodePointValid (wcharToLower cp) = true ∧ wcharToLower cp ≤ 0xffff := by
  simp only [isCodePointValid, isSurrogate, decide_eq_true_eq, decide_eq_false_iff_not] at hvalid ⊢
  unfold wcharToLower
  split_ifs <;> omega

theorem capitalized_valid (h : ∀ cp ∈ cps, isCodePointValid cp = true ∧ cp ≤ 0xffff) :
    ∀ cp ∈ capitalized cps, isCodePointValid cp = true ∧ cp ≤ 0xffff := by
  cases cps with
  | nil => exact fun _ h => absurd h List.not_mem_nil
  | cons first cps =>
    intro cp hcp
    rcases List.mem_cons.mp hcp with rfl | hlater
    · exact wcharToUpper_valid (h first List.mem_cons_self).1 (h first List.mem_cons_self).2
    · obtain ⟨cp', hcp', rfl⟩ := List.mem_map.mp hlater
      exact wcharToLower_valid (h cp' (List.mem_cons_of_mem _ hcp')).1 (h cp' (List.mem_cons_of_mem _ hcp')).2

theorem store_zipIdx (us : List ℕ) (k : ℕ) (buf : ℕ → ℕ) (i : ℕ) :
    store buf ((us.zipIdx k).map Prod.swap) i = if k ≤ i then (us[i - k]?).getD (buf i) else buf i := by
  induction us generalizing k buf with
  | nil => simp [store]
  | cons u us ih =>
    have hstep : store buf (((u :: us).zipIdx k).map Prod.swap) i =
        store (Function.update buf k u) ((us.zipIdx (k + 1)).map Prod.swap) i := rfl
    rw [hstep, ih]
    rcases Nat.lt_trichotomy i k with hlt | rfl | hgt
    · rw [if_neg (by omega), if_neg (by omega), Function.update_of_ne (by omega)]
    · rw [if_neg (by omega), if_pos le_rfl, Nat.sub_self, Function.update_self]
      rfl
    · have hsub : i - k = i - (k + 1) + 1 := by omega
      rw [if_pos (Nat.succ_le_of_lt hgt), if_pos (by omega), Function.update_of_ne (by omega), hsub, List.getElem?_cons_succ]

theorem foldl_lowerAt (n k : ℕ) (buf : ℕ → ℕ) (i : ℕ) :
    (List.range' k n).foldl lowerAt buf i = if k ≤ i ∧ i < k + n then wcharToLower (buf i) else buf i := by
  induction n generalizing k buf with
  | zero => rw [List.range'_zero, List.foldl_nil, if_neg (by omega)]
  | succ n ih =>
    rw [List.range'_succ, List.foldl_cons, ih]
    rcases Nat.lt_trichotomy i k with hlt | rfl | hgt
    · rw [if_neg (by omega), if_neg (by omega), lowerAt, Function.update_of_ne (by omega)]
    · rw [if_neg (by omega), if_pos (by omega), lowerAt, Function.update_self]
    · rw [lowerAt, Function.update_of_ne (by omega)]
      by_cases hin : i < k + 1 + n
      · rw [if_pos ⟨hgt, hin⟩, if_pos (by omega)]
      · rw [if_neg (by omega), if_neg (by omega)]

theorem flatMap_units (h : ∀ cp ∈ cps, cp ≤ 0xffff) : cps.flatMap units = cps := by
  induction cps with
  | nil => rfl
  | cons cp cps ih =>
    have hcp := h cp List.mem_cons_self
    rw [List.flatMap_cons, ih fun cp' hcp' => h cp' (List.mem_cons_of_mem cp hcp'), units, if_neg (by omega),
      Nat.mod_eq_of_lt (by omega), List.singleton_append]

theorem normalizePlayerName_eq (past : ℕ → ℕ) {name : Bytes} (hbasic : Basic name MAX_INTERNAL_PLAYER_NAME)
    (hcps : Decodes name cps) (hne : name ≠ []) (hroom : cps.length ≤ MAX_INTERNAL_PLAYER_NAME) :
    ∃ name', normalizePlayerName past name = some name' ∧ Decodes name' (capitalized cps) := by
  have hlow := hbasic cps hcps hroom
  obtain ⟨range, hrange, hdecodes⟩ := utf16to8_decodes (capitalized_valid fun cp hcp => ⟨hcps.valid cp hcp, hlow cp hcp⟩)
  refine ⟨range, ?_, hdecodes⟩
  cases hcps' : cps with
  | nil =>
    subst hcps'
    cases hcps
    exact absurd rfl hne
  | cons first rest =>
    have hstored : ∀ i < cps.length, store past (written cps ++ [(cps.length, 0)]) i = (cps[i]?).getD 0 := by
      intro i hi
      have hlast : store past (written cps ++ [(cps.length, 0)]) i = store past (written cps) i := by
        rw [store, List.foldl_append]
        exact Function.update_of_ne (Nat.ne_of_lt hi) _ _
      rw [hlast, written, store_zipIdx, if_pos (Nat.zero_le i), Nat.sub_zero, List.getElem?_eq_getElem hi]
      rfl
    rw [normalizePlayerName, if_neg hne, utf8toWStr_some hcps, if_neg (Nat.not_lt.mpr hroom), flatMap_units hlow]
    dsimp only
    rw [if_neg Bool.noConfusion, wstrToUtf8, ← hrange]
    congr 1
    rw [hcps'] at hstored ⊢
    have hlen : (first :: rest).length = rest.length + 1 := rfl
    rw [hlen] at hstored ⊢
    rw [List.range_succ_eq_map, List.map_cons, capitalized, Nat.add_sub_cancel]
    congr 1
    · rw [foldl_lowerAt, if_neg (by omega), Function.update_self, hstored 0 (Nat.succ_pos _)]
      rfl
    · refine List.ext_getElem (by simp) fun i hi hi' => ?_
      have hlt : i < rest.length := by simpa using hi'
      rw [List.getElem_map, List.getElem_map, List.getElem_map, List.getElem_range, foldl_lowerAt,
        if_pos (by omega), Function.update_of_ne (Nat.succ_ne_zero i), hstored _ (by omega),
        List.getElem?_cons_succ, List.getElem?_eq_getElem hlt]
      rfl

/-- The buffer is kept, and the size told is right, exactly when the text that fits is in the basic plane;
then a name comes back as it was, with its letters changed. -/
theorem utf8toWStr_fits_iff (utf8str : Bytes) (wsize : ℕ) :
    ((utf8toWStr utf8str wsize).Fits wsize ↔ Basic utf8str wsize) ∧
      (Basic utf8str MAX_INTERNAL_PLAYER_NAME → ∀ past name', normalizePlayerName past utf8str = some name' →
        ∃ cps, Decodes utf8str cps ∧ Decodes name' (capitalized cps)) := by
  refine ⟨fits_iff utf8str wsize, fun hbasic past name' hname => ?_⟩
  by_cases hvalid : ∃ cps, Decodes utf8str cps
  · obtain ⟨cps, hcps⟩ := hvalid
    have hne : utf8str ≠ [] := by
      rintro rfl
      cases hname
    by_cases hroom : cps.length ≤ MAX_INTERNAL_PLAYER_NAME
    · obtain ⟨range, hrange, hdecodes⟩ := normalizePlayerName_eq past hbasic hcps hne hroom
      rw [hrange] at hname
      exact ⟨cps, hcps, Option.some.inj hname ▸ hdecodes⟩
    · rw [normalizePlayerName, if_neg hne, utf8toWStr_some hcps, if_pos (Nat.lt_of_not_le hroom)] at hname
      cases hname
  · rw [not_exists] at hvalid
    rw [normalizePlayerName, utf8toWStr_none hvalid] at hname
    split at hname <;> cases hname

/-- Two characters beyond the basic plane take four units, two more than the array has room for; and in the
name of one such character and an `a` the `a` is cut off. -/
theorem utf8toWStr_overflows :
    ¬(∀ (utf8str : Bytes) (wsize : ℕ), (utf8toWStr utf8str wsize).Fits wsize) ∧
      (3, 57160) ∈ (utf8toWStr [0xf0, 0x90, 0x8d, 0x88, 0xf0, 0x90, 0x8d, 0x88] 2).writes ∧
      normalizePlayerName (fun _ => 0) [0xf0, 0x90, 0x8d, 0x88, 0x61] = some [0xf0, 0x90, 0x8d, 0x88] := by
  refine ⟨fun h => ?_, by decide +kernel, by decide +kernel⟩
  have hmem : (3, 57160) ∈ (utf8toWStr [0xf0, 0x90, 0x8d, 0x88, 0xf0, 0x90, 0x8d, 0x88] 2).writes := by
    decide +kernel
  have hle := (h [0xf0, 0x90, 0x8d, 0x88, 0xf0, 0x90, 0x8d, 0x88] 2).inside _ hmem
  exact absurd hle (by decide)

end HysteriaCore.Utilities
