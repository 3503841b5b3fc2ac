import HysteriaCore.Lib.Footprint
import HysteriaCore.Warden.Answers

/-!
# What the handlers of a warden packet read

The handlers of `WardenWin` once more, with every range of bytes they hand to a
checked read, to the checksum, to `memcmp` or to `memcpy`. Reads through
`operator>>` test the end of the packet; the others take `contents()`, or the
array of the stored result, and a length from elsewhere.
-/

namespace HysteriaCore.Warden
open Lib Net

/-- A range of bytes that is read: of the packet, or the first `count` of a stored result of
`size` bytes. -/
inductive Access where
  | packet (offset count : ℕ)
  | stored (size count : ℕ)
  deriving DecidableEq

def Access.Inside (contents : Bytes) : Access → Prop
  | packet offset count => ∀ i < count, offset + i < contents.length
  | stored size count => ∀ i < count, i < size

namespace WardenWin

/-! ### Primitive reads -/

def checked {α : Type} (size : ℕ) (buff : ByteBuffer) (value : Option α) : Traced Access α :=
  match value with
  | none => .throw
  | some a => .reading [.packet buff.rpos size] a

def takeUInt8 (buff : ByteBuffer) : Traced Access (UInt8 × ByteBuffer) :=
  checked 1 buff buff.readUInt8

def takeUInt16 (buff : ByteBuffer) : Traced Access (ℕ × ByteBuffer) :=
  checked 2 buff buff.readUInt16

def takeUInt32 (buff : ByteBuffer) : Traced Access (ℕ × ByteBuffer) :=
  checked 4 buff buff.readUInt32

def rawBytes (buff : ByteBuffer) (n : ℕ) : Traced Access Bytes :=
  .reading [.packet buff.rpos n] (buff.window n)

def compareStored (check : WardenCheck) (numBytes : ℕ) (buff : ByteBuffer) (n : ℕ) :
    Traced Access Bool :=
  .reading [.packet buff.rpos n, .stored numBytes n] (buff.window n == check.expected n)

/-! ### The handlers -/

def checkResultTraced (check : WardenCheck) (numBytes : ℕ) (buff : ByteBuffer) :
    Traced Access (Bool × ByteBuffer) :=
  match check.type with
  | .memCheck =>
    (takeUInt8 buff).bind fun (memResult, buff) =>
      if memResult ≠ 0 then .pure (false, buff)
      else (compareStored check numBytes buff check.length.toNat).map
        fun same => (same, buff.skip check.length.toNat)
  | .pageCheckA | .pageCheckB | .driverCheck | .moduleCheck =>
    (rawBytes buff 1).map fun byte => (byte == [0xE9], buff.skip 1)
  | .luaStrCheck =>
    (takeUInt8 buff).bind fun (luaResult, buff) =>
      if luaResult ≠ 0 then .pure (false, buff)
      else (takeUInt8 buff).bind fun (luaStrLen, buff) =>
        -- nothing is copied of an empty string
        (rawBytes buff luaStrLen.toNat).map fun _ => (true, buff.skip luaStrLen.toNat)
  | .mpqCheck =>
    (takeUInt8 buff).bind fun (mpqResult, buff) =>
      if mpqResult ≠ 0 then .pure (false, buff)
      else (compareStored check numBytes buff 20).map fun same => (same, buff.skip 20)
  | .timingCheck | .procCheck | .unknown => .pure (true, buff)

variable {mgr : WardenCheckMgr}

def checkResultsTraced (resultSize : CheckId → ℕ) :
    List mgr.Known → ByteBuffer → CheckId → Traced Access CheckId
  | [], _, checkFailed => .pure checkFailed
  | id :: ids, buff, checkFailed =>
    (checkResultTraced (mgr.row id) (resultSize id.1) buff).bind fun (passed, buff) =>
      checkResultsTraced resultSize ids buff (if passed then checkFailed else id.1)

/-- `HandleData` once the checksum is valid: the timing result, and the checks. -/
def handleAnswersTraced (resultSize : CheckId → ℕ) (checks : List mgr.Known) (buff : ByteBuffer) :
    Traced Access (List (Outcome mgr)) :=
  (takeUInt8 buff).bind fun (result, buff) =>
    if result = 0 then .pure [penalty none 0]
    else (takeUInt32 buff).bind fun (_, buff) =>
      (checkResultsTraced resultSize checks buff 0).map fun checkFailed =>
        if 0 < checkFailed then
          [penalty (mgr.getWardenDataById checkFailed) checkFailed] else []

def handleDataTraced (sha1 : Bytes → Fin 5 → UInt32) (resultSize : CheckId → ℕ)
    (checks : List mgr.Known) (buff : ByteBuffer) : Traced Access (List (Outcome mgr)) :=
  (takeUInt16 buff).bind fun (length, buff) =>
  (takeUInt32 buff).bind fun (checksum, buff) =>
  (rawBytes buff length).bind fun data =>
    if !isValidCheckSum sha1 checksum data then .pure [penalty none 0]
    else handleAnswersTraced resultSize checks buff

def handleHashResultTraced (buff : ByteBuffer) : Traced Access (List (Outcome mgr)) :=
  (rawBytes { buff with rpos := 1 } 20).map fun digest =>
    (if digest ≠ clientKeySeedHash then [penalty none 0] else []) ++ [.moduleInitialize]

/-- `ClientSession::HandleWardenDataOpcode`; decrypting goes over the whole packet. -/
def handleWardenDataOpcodeTraced (sha1 : Bytes → Fin 5 → UInt32) (resultSize : CheckId → ℕ)
    (checks : List mgr.Known) (contents : Bytes) (past : ℕ → UInt8) :
    Traced Access (List (Outcome mgr)) :=
  match contents with
  | [] => .pure []
  | opcode :: _ =>
    (Traced.reading [.packet 0 contents.length, .packet 0 1] opcode).bind fun opcode =>
      let recvData : ByteBuffer := { storage := contents, rpos := 1, past }
      match opcode with
      | 0 => .pure [.moduleCache]
      | 1 => .pure [.hashRequest]
      | 2 => handleDataTraced sha1 resultSize checks recvData
      | 4 => handleHashResultTraced recvData
      | _ => .pure []

/-! ### The same results -/

@[simp] theorem result_checked {α : Type} (size : ℕ) (buff : ByteBuffer) (value : Option α) :
    (checked size buff value).result = value := by
  cases value <;> rfl

@[simp] theorem result_takeUInt8 (buff : ByteBuffer) : (takeUInt8 buff).result = buff.readUInt8 :=
  result_checked _ _ _

@[simp] theorem result_takeUInt16 (buff : ByteBuffer) : (takeUInt16 buff).result = buff.readUInt16 :=
  result_checked _ _ _

@[simp] theorem result_takeUInt32 (buff : ByteBuffer) : (takeUInt32 buff).result = buff.readUInt32 :=
  result_checked _ _ _

theorem result_checkResultTraced (check : WardenCheck) (numBytes : ℕ) (buff : ByteBuffer) :
    (checkResultTraced check numBytes buff).result = checkResult check buff := by
  unfold checkResultTraced checkResult
  cases check.type with
  | memCheck | mpqCheck =>
    simp only [Traced.result_bind, result_takeUInt8]
    congr 1
    funext read
    split <;> rfl
  | luaStrCheck =>
    simp only [Traced.result_bind, result_takeUInt8]
    congr 1
    funext read
    split
    · rfl
    · simp only [Traced.result_bind, result_takeUInt8]
      rfl
  | _ => rfl

theorem result_checkResultsTraced (resultSize : CheckId → ℕ) (checks : List mgr.Known)
    (buff : ByteBuffer) (checkFailed : CheckId) :
    (checkResultsTraced resultSize checks buff checkFailed).result =
      checkResults checks buff checkFailed := by
  induction checks generalizing buff checkFailed with
  | nil => rfl
  | cons id ids ih =>
    simp only [checkResultsTraced, checkResults, Traced.result_bind, result_checkResultTraced, ih]

theorem result_handleDataTraced (sha1 : Bytes → Fin 5 → UInt32) (resultSize : CheckId → ℕ)
    (w : WardenWin mgr) (buff : ByteBuffer) :
    (handleData sha1 w buff).2 =
      (handleDataTraced sha1 resultSize w.currentChecks buff).result.getD [] := by
  simp only [handleData, handleDataTraced, Traced.result_bind, result_takeUInt16,
    result_takeUInt32]
  cases buff.readUInt16 with
  | none => rfl
  | some header =>
    obtain ⟨length, buff⟩ := header
    cases hsum : buff.readUInt32 with
    | none => simp [hsum]
    | some sum =>
      obtain ⟨checksum, buff'⟩ := sum
      simp only [hsum, Option.bind_some, rawBytes, Traced.result_reading]
      by_cases hvalid : isValidCheckSum sha1 checksum (buff'.window length) = true
      · simp only [hvalid, Bool.not_true, Bool.false_eq_true, if_false, handleAnswersTraced,
          Traced.result_bind, result_takeUInt8]
        cases buff'.readUInt8 with
        | none => rfl
        | some timing =>
          obtain ⟨result, buff''⟩ := timing
          simp only [Option.bind_some]
          by_cases hzero : result = 0
          · simp [hzero]
          · simp only [hzero, if_false, Traced.result_bind, result_takeUInt32]
            cases buff''.readUInt32 with
            | none => rfl
            | some ticks =>
              simp only [Option.bind_some, Traced.result_map, result_checkResultsTraced]
              cases checkResults w.currentChecks ticks.2 0 <;> rfl
      · simp [hvalid]

theorem result_handleWardenDataOpcodeTraced (sha1 : Bytes → Fin 5 → UInt32)
    (resultSize : CheckId → ℕ) (w : WardenWin mgr) (contents : Bytes) (past : ℕ → UInt8)
    (now : BitVec 32) :
    (w.handleWardenDataOpcode sha1 { storage := contents, rpos := 0, past } now).2 =
      (handleWardenDataOpcodeTraced sha1 resultSize w.currentChecks contents past).result.getD
        [] := by
  cases contents with
  | nil => rfl
  | cons opcode body =>
    simp only [handleWardenDataOpcode, handleWardenDataOpcodeTraced, Traced.result_bind,
      Traced.result_reading, Option.bind_some]
    split
    · rfl
    · rfl
    · exact result_handleDataTraced sha1 resultSize w _
    · simp only [handleHashResult, handleHashResultTraced, rawBytes, Traced.result_map,
        Traced.result_reading, Option.map_some, Option.getD_some]
      split <;> simp_all
    · simp_all

end WardenWin

end HysteriaCore.Warden
