import HysteriaCore.Warden.WardenWin

/-!
# What an answer to a request says

The format of a CHEAT_CHECKS_RESULT packet over its own bytes: `Expected` is
what a client without a finding sends for a check, `judge` reads a packet and
tells which checks it answered wrongly. `judge` is `none` where the packet ends
before what it has to hold; everywhere else `handleData` does what `judge` says.
-/

namespace HysteriaCore.Warden
open Lib Net WardenWin

/-! ### The format -/

inductive Expected (check : WardenCheck) : Bytes → Prop where
  | mem (h : check.type = .memCheck) : Expected check (0 :: check.expected check.length.toNat)
  | found (h : check.type ∈ [.pageCheckA, .pageCheckB, .driverCheck, .moduleCheck]) :
      Expected check [0xE9]
  | lua (h : check.type = .luaStrCheck) {len : UInt8} {str : Bytes} (hstr : str.length = len.toNat) :
      Expected check (0 :: len :: str)
  | mpq (h : check.type = .mpqCheck) : Expected check (0 :: check.expected 20)
  | unasked (h : check.type ∈ [.timingCheck, .procCheck, .unknown]) : Expected check []

def ExpectedAll : List WardenCheck → Bytes → Prop
  | [], _ => True
  | check :: checks, bytes =>
    ∃ answer rest, bytes = answer ++ rest ∧ Expected check answer ∧ ExpectedAll checks rest

/-- The packet answers the request: its checksum is valid, its timing result is not zero, and
every check has the expected answer. -/
def AnswersRequest (sha1 : Bytes → Fin 5 → UInt32) (checks : List WardenCheck)
    (contents : Bytes) : Prop :=
  ∃ l0 l1 c0 c1 c2 c3 timing t0 t1 t2 t3 answers,
    let data : Bytes := timing :: t0 :: t1 :: t2 :: t3 :: answers
    contents = 2 :: l0 :: l1 :: c0 :: c1 :: c2 :: c3 :: data ∧
    ByteBuffer.leNat [l0, l1] ≤ data.length ∧
    ByteBuffer.leNat [c0, c1, c2, c3] =
      (buildChecksum sha1 (data.take (ByteBuffer.leNat [l0, l1]))).toNat ∧
    timing ≠ 0 ∧ ExpectedAll checks answers

/-! ### Reading an answer -/

def compare (check : WardenCheck) (n : ℕ) (bytes : Bytes) : Option (Bool × Bytes) :=
  if bytes.length < n then none else some (bytes.take n == check.expected n, bytes.drop n)

def readAnswer (check : WardenCheck) (bytes : Bytes) : Option (Bool × Bytes) :=
  match check.type, bytes with
  | .timingCheck, _ | .procCheck, _ | .unknown, _ => some (true, bytes)
  | _, [] => none
  | .memCheck, result :: rest =>
    if result ≠ 0 then some (false, rest) else compare check check.length.toNat rest
  | .mpqCheck, result :: rest =>
    if result ≠ 0 then some (false, rest) else compare check 20 rest
  | .luaStrCheck, result :: rest =>
    if result ≠ 0 then some (false, rest)
    else match rest with
      | [] => none
      | len :: rest => if rest.length < len.toNat then none else some (true, rest.drop len.toNat)
  | _, byte :: rest => some (byte == 0xE9, rest)

variable {mgr : WardenCheckMgr}

def wrongAnswers : List mgr.Known → Bytes → Option (List mgr.Known)
  | [], _ => some []
  | id :: ids, bytes =>
    (readAnswer (mgr.row id) bytes).bind fun (passed, rest) =>
      (wrongAnswers ids rest).map fun wrong => if passed then wrong else id :: wrong

inductive Verdict (mgr : WardenCheckMgr) where
  | badChecksum
  | badTiming
  | answered (wrong : List mgr.Known)

def judge (sha1 : Bytes → Fin 5 → UInt32) (checks : List mgr.Known) :
    Bytes → Option (Verdict mgr)
  | l0 :: l1 :: c0 :: c1 :: c2 :: c3 :: data =>
    let length := ByteBuffer.leNat [l0, l1]
    if data.length < length then none
    else if !isValidCheckSum sha1 (ByteBuffer.leNat [c0, c1, c2, c3]) (data.take length) then
      some .badChecksum
    else match data with
      | [] => none
      | timing :: rest =>
        if timing = 0 then some .badTiming
        else match rest with
          | _ :: _ :: _ :: _ :: answers => (wrongAnswers checks answers).map .answered
          | _ => none
  | _ => none

/-! ### The answers that pass -/

variable {check : WardenCheck} {bytes rest : Bytes} {passed : Bool}

theorem compare_eq_some {n : ℕ}
    (h : compare check n bytes = some (passed, rest)) :
    n ≤ bytes.length ∧ rest = bytes.drop n ∧ (passed = true → bytes.take n = check.expected n) := by
  unfold compare at h
  split at h
  · cases h
  · simp only [Option.some.injEq, Prod.mk.injEq] at h
    obtain ⟨rfl, rfl⟩ := h
    refine ⟨by omega, rfl, fun hpass => ?_⟩
    simpa using hpass

theorem expected_of_readAnswer
    (h : readAnswer check bytes = some (true, rest)) :
    ∃ answer, bytes = answer ++ rest ∧ Expected check answer := by
  have hcompare : ∀ {n : ℕ} {tail : Bytes}, compare check n tail = some (true, rest) →
      (0 :: tail : Bytes) = (0 :: check.expected n) ++ rest := by
    intro n tail htail
    obtain ⟨_, rfl, htake⟩ := compare_eq_some htail
    rw [List.cons_append, ← htake rfl, List.take_append_drop]
  unfold readAnswer at h
  split at h
  case h_1 ht | h_2 ht | h_3 ht =>
    simp only [Option.some.injEq, Prod.mk.injEq, true_and] at h
    exact ⟨[], by simp [h], .unasked (by simp [ht])⟩
  case h_4 => cases h
  case h_5 ht =>
    split at h
    · simp at h
    · rename_i hzero
      obtain rfl := not_not.mp hzero
      exact ⟨_, hcompare h, .mem ht⟩
  case h_6 ht =>
    split at h
    · simp at h
    · rename_i hzero
      obtain rfl := not_not.mp hzero
      exact ⟨_, hcompare h, .mpq ht⟩
  case h_7 ht =>
    split at h
    · simp at h
    · rename_i hzero
      obtain rfl := not_not.mp hzero
      split at h
      · cases h
      · rename_i len tail
        split at h
        · cases h
        · rename_i hlen
          simp only [Option.some.injEq, Prod.mk.injEq, true_and] at h
          refine ⟨0 :: len :: tail.take len.toNat, ?_, .lua ht ?_⟩
          · rw [← h]
            simp
          · simp only [List.length_take]
            omega
  case h_8 byte tail h1 h2 h3 h4 h5 h6 h7 =>
    simp only [Option.some.injEq, Prod.mk.injEq, beq_iff_eq] at h
    obtain ⟨rfl, rfl⟩ := h
    refine ⟨[0xE9], rfl, .found ?_⟩
    cases ht : check.type <;> simp_all

variable {checks : List mgr.Known}

theorem expectedAll_of_wrongAnswers {bytes : Bytes}
    (h : wrongAnswers checks bytes = some []) : ExpectedAll (checks.map mgr.row) bytes := by
  induction checks generalizing bytes with
  | nil => trivial
  | cons id ids ih =>
    obtain ⟨⟨passed, rest⟩, hread, hrest⟩ := Option.bind_eq_some_iff.mp h
    obtain ⟨wrong, hwrong, hnil⟩ := Option.map_eq_some_iff.mp hrest
    cases passed with
    | false => simp at hnil
    | true =>
      obtain rfl : wrong = [] := by simpa using hnil
      obtain ⟨answer, rfl, hexp⟩ := expected_of_readAnswer hread
      exact ⟨answer, rest, rfl, hexp, ih hwrong⟩

inductive Judged (sha1 : Bytes → Fin 5 → UInt32) (checks : List mgr.Known) :
    Bytes → Verdict mgr → Prop where
  | badChecksum {l0 l1 c0 c1 c2 c3 : UInt8} {data : Bytes}
      (hlen : ByteBuffer.leNat [l0, l1] ≤ data.length)
      (hsum : isValidCheckSum sha1 (ByteBuffer.leNat [c0, c1, c2, c3])
        (data.take (ByteBuffer.leNat [l0, l1])) = false) :
      Judged sha1 checks (l0 :: l1 :: c0 :: c1 :: c2 :: c3 :: data) .badChecksum
  | badTiming {l0 l1 c0 c1 c2 c3 : UInt8} {rest : Bytes}
      (hlen : ByteBuffer.leNat [l0, l1] ≤ (0 :: rest).length)
      (hsum : isValidCheckSum sha1 (ByteBuffer.leNat [c0, c1, c2, c3])
        ((0 :: rest).take (ByteBuffer.leNat [l0, l1])) = true) :
      Judged sha1 checks (l0 :: l1 :: c0 :: c1 :: c2 :: c3 :: 0 :: rest) .badTiming
  | answered {l0 l1 c0 c1 c2 c3 timing t0 t1 t2 t3 : UInt8} {answers : Bytes}
      {wrong : List mgr.Known}
      (hlen : ByteBuffer.leNat [l0, l1] ≤ (timing :: t0 :: t1 :: t2 :: t3 :: answers).length)
      (hsum : isValidCheckSum sha1 (ByteBuffer.leNat [c0, c1, c2, c3])
        ((timing :: t0 :: t1 :: t2 :: t3 :: answers).take (ByteBuffer.leNat [l0, l1])) = true)
      (htiming : timing ≠ 0) (hwrong : wrongAnswers checks answers = some wrong) :
      Judged sha1 checks
        (l0 :: l1 :: c0 :: c1 :: c2 :: c3 :: timing :: t0 :: t1 :: t2 :: t3 :: answers)
        (.answered wrong)

variable {sha1 : Bytes → Fin 5 → UInt32} {body : Bytes}

theorem judged_of_judge {v : Verdict mgr} (h : judge sha1 checks body = some v) : Judged sha1 checks body v := by
  unfold judge at h
  split at h
  case h_2 => cases h
  case h_1 l0 l1 c0 c1 c2 c3 data =>
    dsimp only at h
    split at h
    · cases h
    · rename_i hlen
      have hlen := Nat.le_of_not_lt hlen
      split at h
      · rename_i hsum
        cases h
        exact .badChecksum hlen (by simpa using hsum)
      · rename_i hsum
        have hsum := Bool.of_not_eq_false (by simpa using hsum)
        split at h
        · cases h
        · rename_i timing rest
          split at h
          · rename_i htiming
            subst htiming
            cases h
            exact .badTiming hlen hsum
          · rename_i htiming
            split at h
            · obtain ⟨wrong, hwrong, rfl⟩ := Option.map_eq_some_iff.mp h
              exact .answered hlen hsum htiming hwrong
            · cases h

theorem answersRequest_of_judge
    (h : judge sha1 checks body = some (.answered [])) : AnswersRequest sha1 (checks.map mgr.row) (2 :: body) := by
  cases judged_of_judge h with
  | answered hlen hsum htiming hwrong =>
    have hvalid := of_decide_eq_true hsum
    exact ⟨_, _, _, _, _, _, _, _, _, _, _, _, rfl, hlen, hvalid, htiming,
      expectedAll_of_wrongAnswers hwrong⟩

/-! ### The handler reads what the packet says -/

variable {buff : ByteBuffer}

theorem window_eq_compare {n : ℕ}
    (hahead : buff.ahead = bytes) (h : compare check n bytes = some (passed, rest)) :
    (buff.window n == check.expected n) = passed ∧ (buff.skip n).ahead = rest := by
  unfold compare at h
  split at h
  · cases h
  · rename_i hlen
    simp only [Option.some.injEq, Prod.mk.injEq] at h
    obtain ⟨rfl, rfl⟩ := h
    have hin : n ≤ buff.ahead.length := by
      rw [hahead]
      omega
    rw [ByteBuffer.window_eq_take hin, ByteBuffer.ahead_skip, hahead]
    exact ⟨rfl, rfl⟩

theorem checkResult_eq
    (hahead : buff.ahead = bytes)
    (h : readAnswer check bytes = some (passed, rest)) :
    ∃ buff', checkResult check buff = some (passed, buff') ∧ buff'.ahead = rest := by
  unfold readAnswer at h
  split at h
  case h_1 ht | h_2 ht | h_3 ht =>
    simp only [Option.some.injEq, Prod.mk.injEq] at h
    obtain ⟨rfl, rfl⟩ := h
    exact ⟨buff, by simp [checkResult, ht], hahead⟩
  case h_4 => cases h
  case h_5 result tail ht | h_6 result tail ht =>
    obtain ⟨hread, htail⟩ := ByteBuffer.readUInt8_eq hahead
    split at h
    · rename_i hne
      simp only [Option.some.injEq, Prod.mk.injEq] at h
      obtain ⟨rfl, rfl⟩ := h
      exact ⟨buff.skip 1, by simp [checkResult, ht, hread, hne], htail⟩
    · rename_i hzero
      obtain ⟨hpass, hrest⟩ := window_eq_compare htail h
      exact ⟨_, by simp [checkResult, ht, hread, not_not.mp hzero, hpass], hrest⟩
  case h_7 result tail ht =>
    obtain ⟨hread, htail⟩ := ByteBuffer.readUInt8_eq hahead
    split at h
    · rename_i hne
      simp only [Option.some.injEq, Prod.mk.injEq] at h
      obtain ⟨rfl, rfl⟩ := h
      exact ⟨buff.skip 1, by simp [checkResult, ht, hread, hne], htail⟩
    · rename_i hzero
      split at h
      · cases h
      · rename_i len str
        split at h
        · cases h
        · simp only [Option.some.injEq, Prod.mk.injEq] at h
          obtain ⟨rfl, rfl⟩ := h
          obtain ⟨hlen, hstr⟩ := ByteBuffer.readUInt8_eq htail
          refine ⟨((buff.skip 1).skip 1).skip len.toNat, ?_, by rw [ByteBuffer.ahead_skip, hstr]⟩
          simp [checkResult, ht, hread, not_not.mp hzero, hlen]
  case h_8 byte tail _ _ _ _ _ _ =>
    simp only [Option.some.injEq, Prod.mk.injEq] at h
    obtain ⟨rfl, rfl⟩ := h
    have hwindow : buff.window 1 = [byte] := by
      rw [ByteBuffer.window_eq_take (by simp [hahead]), hahead]
      rfl
    refine ⟨buff.skip 1, ?_, by simp [hahead]⟩
    cases ht : check.type <;> simp_all [checkResult]

theorem checkResults_eq {bytes : Bytes}
    {wrong : List mgr.Known} (checkFailed : CheckId) (hahead : buff.ahead = bytes)
    (h : wrongAnswers checks bytes = some wrong) :
    checkResults checks buff checkFailed =
      some ((wrong.getLast?.map Subtype.val).getD checkFailed) := by
  induction checks generalizing buff bytes wrong checkFailed with
  | nil =>
    cases h
    rfl
  | cons id ids ih =>
    obtain ⟨⟨passed, rest⟩, hread, hrest⟩ := Option.bind_eq_some_iff.mp h
    obtain ⟨wrong', hwrong, rfl⟩ := Option.map_eq_some_iff.mp hrest
    obtain ⟨buff', hcheck, hahead'⟩ := checkResult_eq hahead hread
    simp only [checkResults, hcheck, Option.bind_some, ih _ hahead' hwrong]
    cases passed with
    | true => simp
    | false => cases wrong' <;> simp [List.getLast?_cons]

def Verdict.outcomes : Verdict mgr → List (Outcome mgr)
  | badChecksum | badTiming => [penalty none 0]
  | answered wrong =>
    match wrong.getLast? with
    | none => []
    | some last => if 0 < last.1 then [penalty (some (mgr.row last)) last.1] else []

theorem handleData_eq {w : WardenWin mgr}
    {v : Verdict mgr} (hahead : buff.ahead = body)
    (h : judge sha1 w.currentChecks body = some v) :
    (handleData sha1 w buff).2 = v.outcomes := by
  cases judged_of_judge h with
  | badChecksum hlen hsum =>
    obtain ⟨h16, hahead⟩ := ByteBuffer.readUInt16_eq hahead
    obtain ⟨h32, hahead⟩ := ByteBuffer.readUInt32_eq hahead
    have hwindow := ByteBuffer.window_eq_take (hahead ▸ hlen)
    simp only [handleData, h16, h32, hwindow, hahead, hsum]
    rfl
  | badTiming hlen hsum =>
    obtain ⟨h16, hahead⟩ := ByteBuffer.readUInt16_eq hahead
    obtain ⟨h32, hahead⟩ := ByteBuffer.readUInt32_eq hahead
    have hwindow := ByteBuffer.window_eq_take (hahead ▸ hlen)
    obtain ⟨h8, _⟩ := ByteBuffer.readUInt8_eq hahead
    simp only [handleData, h16, h32, hwindow, hahead, hsum, h8]
    rfl
  | @answered l0 l1 c0 c1 c2 c3 timing t0 t1 t2 t3 answers wrong hlen hsum htiming hwrong =>
    obtain ⟨h16, hahead⟩ := ByteBuffer.readUInt16_eq hahead
    obtain ⟨h32, hahead⟩ := ByteBuffer.readUInt32_eq hahead
    have hwindow := ByteBuffer.window_eq_take (hahead ▸ hlen)
    obtain ⟨h8, hrest⟩ := ByteBuffer.readUInt8_eq hahead
    obtain ⟨hticks, hanswers⟩ := ByteBuffer.readUInt32_eq hrest
    have hchecks := checkResults_eq 0 hanswers hwrong
    simp only [handleData, h16, h32, hwindow, hahead, hsum, h8, htiming, hticks, hchecks]
    cases hlast : wrong.getLast? with
    | none => simp [Verdict.outcomes, hlast]
    | some last => simp [Verdict.outcomes, hlast, mgr.getWardenDataById_known]

end HysteriaCore.Warden
