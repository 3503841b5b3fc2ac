import HysteriaCore.Warden.Reads
import HysteriaCore.Warden.Evasion

/-!
# Reads inside the packet

`Fits` says of a packet, by its own bytes, that every raw read finds the bytes
it asks for. Where it does nothing behind the packet or a stored result is read,
and a packet that ends too early is left by the exception of a checked read.
-/

namespace HysteriaCore.Warden
open Lib Net WardenWin

/-! ### What a packet has to hold -/

/-- A result of zero is followed by the `n` bytes that are compared, and as many are stored. -/
def StoredFits (n numBytes : ℕ) (bytes : Bytes) : Prop :=
  ∀ rest, bytes = 0 :: rest → n ≤ rest.length ∧ n ≤ numBytes

def AnswerFits (check : WardenCheck) (numBytes : ℕ) (bytes : Bytes) : Prop :=
  match check.type with
  | .memCheck => StoredFits check.length.toNat numBytes bytes
  | .mpqCheck => StoredFits 20 numBytes bytes
  | .pageCheckA | .pageCheckB | .driverCheck | .moduleCheck => bytes ≠ []
  | .luaStrCheck => ∀ len rest, bytes = 0 :: len :: rest → len.toNat ≤ rest.length
  | .timingCheck | .procCheck | .unknown => True

variable {mgr : WardenCheckMgr}

def AnswersFit (resultSize : CheckId → ℕ) : List mgr.Known → Bytes → Prop
  | [], _ => True
  | id :: ids, bytes =>
    AnswerFits (mgr.row id) (resultSize id.1) bytes ∧
      ∀ passed rest, readAnswer (mgr.row id) bytes = some (passed, rest) →
        AnswersFit resultSize ids rest

/-- Behind a timing result that is not zero and the ticks, the answers to the checks fit. -/
def TimedAnswersFit (resultSize : CheckId → ℕ) (checks : List mgr.Known) (data : Bytes) : Prop :=
  ∀ timing t0 t1 t2 t3 answers, data = timing :: t0 :: t1 :: t2 :: t3 :: answers → timing ≠ 0 →
    AnswersFit resultSize checks answers

/-- An answer has the bytes its checksum is taken over, and the rest fits where this is valid. -/
def DataFits (sha1 : Bytes → Fin 5 → UInt32) (resultSize : CheckId → ℕ) (checks : List mgr.Known)
    (body : Bytes) : Prop :=
  ∀ l0 l1 c0 c1 c2 c3 data, body = l0 :: l1 :: c0 :: c1 :: c2 :: c3 :: data →
    ByteBuffer.leNat [l0, l1] ≤ data.length ∧
    (isValidCheckSum sha1 (ByteBuffer.leNat [c0, c1, c2, c3])
        (data.take (ByteBuffer.leNat [l0, l1])) = true →
      TimedAnswersFit resultSize checks data)

def Fits (sha1 : Bytes → Fin 5 → UInt32) (resultSize : CheckId → ℕ) (checks : List mgr.Known)
    (contents : Bytes) : Prop :=
  (∀ digest, contents = 4 :: digest → 20 ≤ digest.length) ∧
  ∀ body, contents = 2 :: body → DataFits sha1 resultSize checks body

def TooShort (sha1 : Bytes → Fin 5 → UInt32) (checks : List mgr.Known) (contents : Bytes) : Prop :=
  (∃ digest, contents = 4 :: digest ∧ digest.length < 20) ∨
  ∃ body, contents = 2 :: body ∧ judge sha1 checks body = none

def Rejected (run : Traced Access (List (Outcome mgr))) : Prop :=
  ∀ outcomes, run.result = some outcomes → ∃ o ∈ outcomes, o.IsPenalty

/-! ### Checked and raw reads -/

theorem inside_packet (buff : ByteBuffer) (n : ℕ) :
    (Access.packet buff.rpos n).Inside buff.storage ↔ n ≤ buff.ahead.length := by
  simp only [Access.Inside, ByteBuffer.ahead, List.length_drop]
  constructor
  · intro h
    cases n with
    | zero => omega
    | succ n =>
      have := h n (by omega)
      omega
  · intro h i hi
    omega

theorem inside_stored (contents : Bytes) (size count : ℕ) :
    (Access.stored size count).Inside contents ↔ count ≤ size := by
  simp only [Access.Inside]
  constructor
  · intro h
    cases count with
    | zero => omega
    | succ n => exact h n (by omega)
  · intro h i hi
    omega

variable {buff : ByteBuffer}

theorem read_eq_none {n : ℕ} (h : buff.ahead.length < n) : buff.read n = none := by
  simp only [ByteBuffer.ahead, List.length_drop] at h
  rw [ByteBuffer.read, if_pos (by omega)]

theorem ahead_of_read {n : ℕ} (h : buff.read n ≠ none) : n ≤ buff.ahead.length := by
  by_contra hshort
  exact h (read_eq_none (by omega))

variable {α : Type}

theorem within_checked {size : ℕ} (f : Bytes × ByteBuffer → α) :
    (checked size buff ((buff.read size).map f)).Within (Access.Inside buff.storage) := by
  cases hread : buff.read size with
  | none => exact Traced.within_throw
  | some read =>
    have hin := ahead_of_read (show buff.read size ≠ none by simp [hread])
    simpa [checked, inside_packet] using hin

@[simp] theorem within_takeUInt8 (buff : ByteBuffer) :
    (takeUInt8 buff).Within (Access.Inside buff.storage) := within_checked _

@[simp] theorem within_takeUInt16 (buff : ByteBuffer) :
    (takeUInt16 buff).Within (Access.Inside buff.storage) := within_checked _

@[simp] theorem within_takeUInt32 (buff : ByteBuffer) :
    (takeUInt32 buff).Within (Access.Inside buff.storage) := within_checked _

@[simp] theorem within_rawBytes (buff : ByteBuffer) (n : ℕ) :
    (rawBytes buff n).Within (Access.Inside buff.storage) ↔ n ≤ buff.ahead.length := by
  simp [rawBytes, inside_packet]

@[simp] theorem within_compareStored (check : WardenCheck) (numBytes : ℕ) (buff : ByteBuffer)
    (n : ℕ) : (compareStored check numBytes buff n).Within (Access.Inside buff.storage) ↔
      n ≤ buff.ahead.length ∧ n ≤ numBytes := by
  simp [compareStored, inside_packet, inside_stored]

theorem within_takeUInt8_bind (buff : ByteBuffer)
    {f : UInt8 × ByteBuffer → Traced Access α} :
    ((takeUInt8 buff).bind f).Within (Access.Inside buff.storage) ↔
      ∀ x rest, buff.ahead = x :: rest →
        (f (x, buff.skip 1)).Within (Access.Inside buff.storage) := by
  rw [Traced.within_bind, result_takeUInt8]
  cases hahead : buff.ahead with
  | nil => simp [ByteBuffer.readUInt8, read_eq_none, hahead]
  | cons x rest => simp [(ByteBuffer.readUInt8_eq hahead).1]

variable {f : ℕ × ByteBuffer → Traced Access α}

theorem within_takeUInt16_bind (buff : ByteBuffer)
    :
    ((takeUInt16 buff).bind f).Within (Access.Inside buff.storage) ↔
      ∀ x y rest, buff.ahead = x :: y :: rest →
        (f (ByteBuffer.leNat [x, y], buff.skip 2)).Within (Access.Inside buff.storage) := by
  rw [Traced.within_bind, result_takeUInt16]
  match hahead : buff.ahead with
  | [] | [_] => simp [ByteBuffer.readUInt16, read_eq_none, hahead]
  | x :: y :: rest => simp [(ByteBuffer.readUInt16_eq hahead).1]

theorem within_takeUInt32_bind (buff : ByteBuffer)
    :
    ((takeUInt32 buff).bind f).Within (Access.Inside buff.storage) ↔
      ∀ w x y z rest, buff.ahead = w :: x :: y :: z :: rest →
        (f (ByteBuffer.leNat [w, x, y, z], buff.skip 4)).Within (Access.Inside buff.storage) := by
  rw [Traced.within_bind, result_takeUInt32]
  match hahead : buff.ahead with
  | [] | [_] | [_, _] | [_, _, _] => simp [ByteBuffer.readUInt32, read_eq_none, hahead]
  | w :: x :: y :: z :: rest =>
    simp only [within_takeUInt32, (ByteBuffer.readUInt32_eq hahead).1, true_and, Option.some.injEq,
      forall_eq']
    constructor
    · rintro h _ _ _ _ _ ⟨⟩
      exact h
    · intro h
      exact h w x y z rest rfl

/-! ### The checks -/

variable {bytes : Bytes} {check : WardenCheck}

theorem within_stored {numBytes n : ℕ}
    (hahead : buff.ahead = bytes) :
    ((takeUInt8 buff).bind fun (result, buff) =>
      if result ≠ 0 then .pure (false, buff)
      else (compareStored check numBytes buff n).map fun same => (same, buff.skip n)).Within
        (Access.Inside buff.storage) ↔ StoredFits n numBytes bytes := by
  rw [within_takeUInt8_bind, hahead]
  have hcompare := within_compareStored check numBytes (buff.skip 1) n
  rw [ByteBuffer.ahead_skip, hahead] at hcompare
  constructor
  · intro h rest hbytes
    subst hbytes
    have hin := h 0 rest rfl
    simp only [ne_eq, not_true_eq_false, if_false, Traced.within_map] at hin
    exact hcompare.mp hin
  · intro h result rest hbytes
    subst hbytes
    by_cases hzero : result = 0
    · subst hzero
      simp only [ne_eq, not_true_eq_false, if_false, Traced.within_map]
      exact hcompare.mpr (h rest rfl)
    · simp [hzero]

theorem within_lua (hahead : buff.ahead = bytes) :
    ((takeUInt8 buff).bind fun (luaResult, buff) =>
      if luaResult ≠ 0 then .pure (false, buff)
      else (takeUInt8 buff).bind fun (luaStrLen, buff) =>
        (rawBytes buff luaStrLen.toNat).map fun _ => (true, buff.skip luaStrLen.toNat)).Within
        (Access.Inside buff.storage) ↔
      ∀ len rest, bytes = 0 :: len :: rest → len.toNat ≤ rest.length := by
  have hcopy : ∀ len : UInt8, ((rawBytes ((buff.skip 1).skip 1) len.toNat).map fun _ =>
      (true, ((buff.skip 1).skip 1).skip len.toNat)).Within (Access.Inside buff.storage) ↔
        len.toNat ≤ (bytes.drop 1).tail.length := by
    intro len
    have hraw := within_rawBytes ((buff.skip 1).skip 1) len.toNat
    rw [ByteBuffer.ahead_skip, ByteBuffer.ahead_skip, hahead, List.drop_one (l := bytes.drop 1)]
      at hraw
    exact hraw
  rw [within_takeUInt8_bind, hahead]
  constructor
  · intro h len rest hbytes
    subst hbytes
    have hstr := h 0 (len :: rest) rfl
    simp only [ne_eq, not_true_eq_false, if_false] at hstr
    have hlen := (within_takeUInt8_bind (buff.skip 1)).mp hstr len rest (by simp [hahead])
    exact (hcopy len).mp hlen
  · intro h result rest hbytes
    subst hbytes
    by_cases hzero : result = 0
    · subst hzero
      simp only [ne_eq, not_true_eq_false, if_false]
      refine (within_takeUInt8_bind (buff.skip 1)).mpr fun len str hstr => ?_
      rw [ByteBuffer.ahead_skip, hahead] at hstr
      have hrest : rest = len :: str := hstr
      subst hrest
      exact (hcopy len).mpr (h len str rfl)
    · simp [hzero]

theorem within_checkResult {numBytes : ℕ}
    (hahead : buff.ahead = bytes) :
    (checkResultTraced check numBytes buff).Within (Access.Inside buff.storage) ↔
      AnswerFits check numBytes bytes := by
  unfold checkResultTraced AnswerFits
  cases check.type with
  | memCheck => exact within_stored hahead
  | mpqCheck => exact within_stored hahead
  | luaStrCheck => exact within_lua hahead
  | pageCheckA | pageCheckB | driverCheck | moduleCheck =>
    rw [Traced.within_map, within_rawBytes, hahead, Nat.one_le_iff_ne_zero, Ne,
      List.length_eq_zero_iff]
  | timingCheck | procCheck | unknown => simp

theorem checkResult_storage {buff buff' : ByteBuffer} {passed : Bool}
    (h : checkResult check buff = some (passed, buff')) : buff'.storage = buff.storage := by
  have hread : ∀ {b b' : ByteBuffer} {x : UInt8}, b.readUInt8 = some (x, b') →
      b'.storage = b.storage := by
    intro b b' x hx
    obtain ⟨read, hread, heq⟩ := Option.map_eq_some_iff.mp hx
    unfold ByteBuffer.read at hread
    split at hread
    · cases hread
    · cases hread
      cases heq
      rfl
  cases ht : check.type with
  | memCheck | mpqCheck =>
    simp only [checkResult, ht] at h
    obtain ⟨⟨result, b⟩, hresult, h⟩ := Option.bind_eq_some_iff.mp h
    dsimp only at h
    rw [← hread hresult]
    split at h <;> cases h <;> rfl
  | luaStrCheck =>
    simp only [checkResult, ht] at h
    obtain ⟨⟨luaResult, b⟩, hlua, h⟩ := Option.bind_eq_some_iff.mp h
    dsimp only at h
    rw [← hread hlua]
    split at h
    · cases h
      rfl
    · obtain ⟨⟨luaStrLen, b'⟩, hlen, h⟩ := Option.bind_eq_some_iff.mp h
      rw [← hread hlen]
      cases h
      rfl
  | pageCheckA | pageCheckB | driverCheck | moduleCheck | timingCheck | procCheck | unknown =>
    simp only [checkResult, ht] at h
    cases h
    rfl

theorem checkResult_eq_none {numBytes : ℕ}
    (hahead : buff.ahead = bytes) (hfit : AnswerFits check numBytes bytes)
    (h : readAnswer check bytes = none) : checkResult check buff = none := by
  have hempty : ∀ {b : ByteBuffer}, b.ahead = [] → b.readUInt8 = none := by
    intro b hb
    simp [ByteBuffer.readUInt8, read_eq_none, hb]
  have hcompare : ∀ {n : ℕ} {rest : Bytes}, StoredFits n numBytes (0 :: rest) →
      compare check n rest ≠ none := by
    intro n rest hstored
    have hlen := (hstored rest rfl).1
    rw [compare, if_neg (by omega)]
    simp
  unfold readAnswer at h
  split at h
  case h_1 | h_2 | h_3 => cases h
  case h_4 h1 h2 h3 =>
    cases ht : check.type <;> simp_all [checkResult, AnswerFits]
  case h_5 result rest ht | h_6 result rest ht =>
    simp only [AnswerFits, ht] at hfit
    split at h
    · cases h
    · rename_i hzero
      obtain rfl := not_not.mp hzero
      exact absurd h (hcompare hfit)
  case h_7 result rest ht =>
    simp only [AnswerFits, ht] at hfit
    split at h
    · cases h
    · rename_i hzero
      obtain rfl := not_not.mp hzero
      obtain ⟨hread, hrest⟩ := ByteBuffer.readUInt8_eq hahead
      cases rest with
      | nil => simp [checkResult, ht, hread, hempty hrest]
      | cons len str =>
        have hlen := hfit len str rfl
        simp [Nat.not_lt.mpr hlen] at h
  case h_8 => cases h

variable {resultSize : CheckId → ℕ} {checks : List mgr.Known}

theorem within_checkResults
    (buff : ByteBuffer) {checkFailed : CheckId} (hahead : buff.ahead = bytes) :
    (checkResultsTraced resultSize checks buff checkFailed).Within (Access.Inside buff.storage) ↔
      AnswersFit resultSize checks bytes := by
  induction checks generalizing buff bytes checkFailed with
  | nil => simp [checkResultsTraced, AnswersFit]
  | cons id ids ih =>
    rw [checkResultsTraced, Traced.within_bind, within_checkResult hahead, AnswersFit,
      result_checkResultTraced]
    apply and_congr_right
    intro hfit
    cases hread : readAnswer (mgr.row id) bytes with
    | none => simp [checkResult_eq_none hahead hfit hread]
    | some answer =>
      obtain ⟨passed, rest⟩ := answer
      obtain ⟨buff', hcheck, hrest⟩ := checkResult_eq hahead hread
      have hstorage := checkResult_storage hcheck
      constructor
      · rintro h _ _ ⟨⟩
        have hnext := h _ hcheck
        rw [← hstorage] at hnext
        exact (ih _ hrest).mp hnext
      · intro h next hnext
        obtain rfl := Option.some.inj (hcheck.symm.trans hnext)
        rw [← hstorage]
        exact (ih _ hrest).mpr (h _ _ rfl)

theorem checkResults_eq_none
    (checkFailed : CheckId) (hahead : buff.ahead = bytes)
    (hfit : AnswersFit resultSize checks bytes) (h : wrongAnswers checks bytes = none) :
    checkResults checks buff checkFailed = none := by
  induction checks generalizing buff bytes checkFailed with
  | nil => cases h
  | cons id ids ih =>
    obtain ⟨hfirst, hnext⟩ := hfit
    cases hread : readAnswer (mgr.row id) bytes with
    | none => simp [checkResults, checkResult_eq_none hahead hfirst hread]
    | some answer =>
      obtain ⟨passed, rest⟩ := answer
      obtain ⟨buff', hcheck, hrest⟩ := checkResult_eq hahead hread
      have hwrong : wrongAnswers ids rest = none := by simpa [wrongAnswers, hread] using h
      rw [checkResults, hcheck]
      exact ih _ hrest (hnext _ _ hread) hwrong

/-! ### The packet -/

theorem within_handleAnswers
    {data : Bytes} (hahead : buff.ahead = data) :
    (handleAnswersTraced resultSize checks buff).Within (Access.Inside buff.storage) ↔
      TimedAnswersFit resultSize checks data := by
  unfold handleAnswersTraced TimedAnswersFit
  rw [within_takeUInt8_bind, hahead]
  have hchecks : ∀ {t0 t1 t2 t3 : UInt8} {answers : Bytes},
      data.drop 1 = t0 :: t1 :: t2 :: t3 :: answers →
      ((checkResultsTraced resultSize checks ((buff.skip 1).skip 4) 0).Within
        (Access.Inside buff.storage) ↔ AnswersFit resultSize checks answers) := by
    intro t0 t1 t2 t3 answers hdrop
    refine within_checkResults ((buff.skip 1).skip 4) ?_
    rw [ByteBuffer.ahead_skip, ByteBuffer.ahead_skip, hahead, hdrop]
    rfl
  constructor
  · intro h timing t0 t1 t2 t3 answers hdata htiming
    subst hdata
    have hafter := h timing _ rfl
    simp only [htiming, if_false] at hafter
    have hloop := (within_takeUInt32_bind (buff.skip 1)).mp hafter t0 t1 t2 t3 answers
      (by simp [hahead])
    exact (hchecks rfl).mp hloop
  · intro h timing rest hdata
    by_cases htiming : timing = 0
    · simp [htiming]
    · simp only [htiming, if_false]
      refine (within_takeUInt32_bind (buff.skip 1)).mpr fun t0 t1 t2 t3 answers hrest => ?_
      rw [ByteBuffer.ahead_skip, hahead, hdata] at hrest
      have hrest : rest = t0 :: t1 :: t2 :: t3 :: answers := hrest
      subst hrest
      exact (hchecks (by rw [hdata]; rfl)).mpr (h timing t0 t1 t2 t3 answers hdata htiming)

variable {sha1 : Bytes → Fin 5 → UInt32}

theorem within_handleData
    {body : Bytes} (hahead : buff.ahead = body) :
    (handleDataTraced sha1 resultSize checks buff).Within (Access.Inside buff.storage) ↔
      DataFits sha1 resultSize checks body := by
  unfold handleDataTraced DataFits
  rw [within_takeUInt16_bind, hahead]
  have hafter : ∀ {length checksum : ℕ} {data : Bytes}, ((buff.skip 2).skip 4).ahead = data →
      (((rawBytes ((buff.skip 2).skip 4) length).bind fun bytes =>
        if !isValidCheckSum sha1 checksum bytes then .pure [penalty none 0]
        else handleAnswersTraced resultSize checks ((buff.skip 2).skip 4)).Within
          (Access.Inside buff.storage) ↔
        length ≤ data.length ∧ (isValidCheckSum sha1 checksum (data.take length) = true →
          TimedAnswersFit resultSize checks data)) := by
    intro length checksum data hdata
    have hraw := within_rawBytes ((buff.skip 2).skip 4) length
    rw [hdata] at hraw
    rw [Traced.within_bind]
    refine (and_congr_left' hraw).trans (and_congr_right fun hlen => ?_)
    have hwindow : ((buff.skip 2).skip 4).window length = data.take length := by
      rw [ByteBuffer.window_eq_take (by rwa [hdata]), hdata]
    simp only [rawBytes, Traced.result_reading, Option.some.injEq, forall_eq', hwindow]
    cases isValidCheckSum sha1 checksum (data.take length) with
    | false => simp
    | true =>
      simp only [Bool.not_true, Bool.false_eq_true, if_false, true_implies]
      exact within_handleAnswers hdata
  constructor
  · intro h l0 l1 c0 c1 c2 c3 data hbody
    have hheader := (within_takeUInt32_bind (buff.skip 2)).mp (h l0 l1 _ hbody)
      c0 c1 c2 c3 data (by simp [hahead, hbody])
    exact (hafter (by simp [hahead, hbody])).mp hheader
  · intro h l0 l1 rest hbody
    refine (within_takeUInt32_bind (buff.skip 2)).mpr fun c0 c1 c2 c3 data hdata => ?_
    rw [ByteBuffer.ahead_skip, hahead, hbody] at hdata
    have hdata : rest = c0 :: c1 :: c2 :: c3 :: data := hdata
    subst hdata
    exact (hafter (by simp [hahead, hbody])).mpr (h l0 l1 c0 c1 c2 c3 data hbody)

theorem within_handleWardenDataOpcode (sha1 : Bytes → Fin 5 → UInt32) (resultSize : CheckId → ℕ)
    (checks : List mgr.Known) (contents : Bytes) (past : ℕ → UInt8) :
    (handleWardenDataOpcodeTraced sha1 resultSize checks contents past).Within
      (Access.Inside contents) ↔ Fits sha1 resultSize checks contents := by
  cases contents with
  | nil => simp [handleWardenDataOpcodeTraced, Fits]
  | cons opcode body =>
    let recvData : ByteBuffer := { storage := opcode :: body, rpos := 1, past }
    have hahead : recvData.ahead = body := rfl
    have hopcode : ∀ access ∈ [Access.packet 0 (opcode :: body).length, Access.packet 0 1],
        access.Inside (opcode :: body) := by
      simp [Access.Inside]
    rw [handleWardenDataOpcodeTraced, Traced.within_bind, Traced.within_reading,
      and_iff_right hopcode]
    simp only [Traced.result_reading, Option.some.injEq, forall_eq']
    split
    · simp [Fits]
    · simp [Fits]
    · refine (within_handleData hahead).trans ?_
      simp [Fits]
    · have hdigest := within_rawBytes recvData 20
      rw [hahead] at hdigest
      rw [handleHashResultTraced, Traced.within_map]
      refine hdigest.trans ?_
      simp [Fits]
    · simp_all [Fits]

theorem handleAnswers_eq_none
    {data : Bytes} (hahead : buff.ahead = data)
    (hfits : TimedAnswersFit resultSize checks data) (hzero : ∀ rest, data ≠ 0 :: rest)
    (h : ∀ timing t0 t1 t2 t3 answers, data = timing :: t0 :: t1 :: t2 :: t3 :: answers →
      wrongAnswers checks answers = none) :
    (handleAnswersTraced resultSize checks buff).result = none := by
  have hread : ∀ {b : ByteBuffer} {n : ℕ}, b.ahead.length < n → b.read n = none := read_eq_none
  match data with
  | [] => simp [handleAnswersTraced, ByteBuffer.readUInt8, hread, hahead]
  | [timing] | [timing, _] | [timing, _, _] | [timing, _, _, _] =>
    obtain ⟨h8, hrest⟩ := ByteBuffer.readUInt8_eq hahead
    have htiming : timing ≠ 0 := fun ht => hzero _ (by rw [ht])
    simp [handleAnswersTraced, h8, htiming, ByteBuffer.readUInt32, hread, hahead]
  | timing :: t0 :: t1 :: t2 :: t3 :: answers =>
    have htiming : timing ≠ 0 := fun ht => hzero _ (by rw [ht])
    obtain ⟨h8, hrest⟩ := ByteBuffer.readUInt8_eq hahead
    obtain ⟨h32, hanswers⟩ := ByteBuffer.readUInt32_eq hrest
    have hloop := checkResults_eq_none 0 hanswers
      (hfits timing t0 t1 t2 t3 answers rfl htiming) (h timing t0 t1 t2 t3 answers rfl)
    simp [handleAnswersTraced, h8, htiming, h32, result_checkResultsTraced, hloop]

theorem handleData_eq_none
    (buff : ByteBuffer) {body : Bytes} (hahead : buff.ahead = body)
    (hfits : DataFits sha1 resultSize checks body) (h : judge sha1 checks body = none) :
    (handleDataTraced sha1 resultSize checks buff).result = none := by
  have hread : ∀ {b : ByteBuffer} {n : ℕ}, b.ahead.length < n → b.read n = none := read_eq_none
  match body with
  | [] | [_] => simp [handleDataTraced, ByteBuffer.readUInt16, hread, hahead]
  | [l0, l1] | [l0, l1, _] | [l0, l1, _, _] | [l0, l1, _, _, _] =>
    obtain ⟨h16, hrest⟩ := ByteBuffer.readUInt16_eq hahead
    simp [handleDataTraced, h16, ByteBuffer.readUInt32, hread, hahead]
  | l0 :: l1 :: c0 :: c1 :: c2 :: c3 :: data =>
    obtain ⟨hlen, htimed⟩ := hfits l0 l1 c0 c1 c2 c3 data rfl
    obtain ⟨h16, hrest⟩ := ByteBuffer.readUInt16_eq hahead
    obtain ⟨h32, hdata⟩ := ByteBuffer.readUInt32_eq hrest
    have hwindow := ByteBuffer.window_eq_take (hdata.symm ▸ hlen)
    rw [hdata] at hwindow
    simp only [judge, Nat.not_lt.mpr hlen, if_false] at h
    cases hvalid : isValidCheckSum sha1 (ByteBuffer.leNat [c0, c1, c2, c3])
        (data.take (ByteBuffer.leNat [l0, l1])) with
    | false => simp [hvalid] at h
    | true =>
      have hanswers : (handleAnswersTraced resultSize checks ((buff.skip 2).skip 4)).result =
          none := by
        refine handleAnswers_eq_none hdata (htimed hvalid) ?_ ?_
        · intro rest hzero
          simp_all
        · intro timing t0 t1 t2 t3 answers hdata'
          by_cases htiming : timing = 0 <;> simp_all
      simp [handleDataTraced, h16, h32, rawBytes, hwindow, hvalid, hanswers]

theorem rejected_of_tooShort
    {contents : Bytes} {past : ℕ → UInt8}
    (hfits : Fits sha1 resultSize checks contents) (hshort : TooShort sha1 checks contents) :
    Rejected (handleWardenDataOpcodeTraced sha1 resultSize checks contents past) := by
  intro outcomes houtcomes
  obtain ⟨digest, rfl, hdigest⟩ | ⟨body, rfl, hjudge⟩ := hshort
  · have := hfits.1 digest rfl
    omega
  · have hnone := handleData_eq_none { storage := 2 :: body, rpos := 1, past } rfl
      (hfits.2 body rfl) hjudge
    rw [handleWardenDataOpcodeTraced, Traced.result_bind] at houtcomes
    exact absurd (houtcomes.symm.trans hnone) (by simp)

/-- A packet is read inside its end, and rejected where it is too short, exactly where its own
bytes and the stored results hold what the raw reads ask for. -/
theorem packet_read_inside (sha1 : Bytes → Fin 5 → UInt32) (resultSize : CheckId → ℕ)
    (checks : List mgr.Known) (contents : Bytes) (past : ℕ → UInt8) :
    ((handleWardenDataOpcodeTraced sha1 resultSize checks contents past).Within
        (Access.Inside contents) ∧
      (TooShort sha1 checks contents →
        Rejected (handleWardenDataOpcodeTraced sha1 resultSize checks contents past))) ↔
      Fits sha1 resultSize checks contents := by
  constructor
  · rintro ⟨hinside, _⟩
    exact (within_handleWardenDataOpcode sha1 resultSize checks contents past).mp hinside
  · intro hfits
    exact ⟨(within_handleWardenDataOpcode sha1 resultSize checks contents past).mpr hfits,
      rejected_of_tooShort hfits⟩

/-- The comparison of a hash result that is one byte long goes over the 20 bytes behind it. -/
theorem short_hash_overread :
    ¬∀ (sha1 : Bytes → Fin 5 → UInt32) (resultSize : CheckId → ℕ) (checks : List sampleMgr.Known)
      (contents : Bytes) (past : ℕ → UInt8),
      (handleWardenDataOpcodeTraced sha1 resultSize checks contents past).Within
        (Access.Inside contents) := by
  intro h
  have hread := h (fun _ _ => 0) (fun _ => 20) [] [4] (fun _ => 0) (.packet 1 20) (by decide)
  exact absurd (hread 0 (by decide)) (by decide)

end HysteriaCore.Warden
