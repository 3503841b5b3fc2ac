import HysteriaCore.Net.ByteBuffer

/-!
# Warden checks and penalties (shade/Warden/WardenCheckMgr.h, Warden.cpp)

The check store as `LoadWardenChecks` and `LoadWardenOverrides` leave it. A
`Known` id has a row in the store, so that a lookup for it never gives `NULL`.
-/

namespace HysteriaCore.Warden
open Lib

abbrev CheckId := UInt16

inductive WardenActions where
  | log
  | kick
  | ban
  deriving DecidableEq

inductive WardenCheckType where
  | memCheck
  | pageCheckA
  | pageCheckB
  | mpqCheck
  | luaStrCheck
  | driverCheck
  | timingCheck
  | procCheck
  | moduleCheck
  | unknown
  deriving DecidableEq

/-- A row of both stores; `result` are the bytes at the array of its `WardenCheckResult`. -/
structure WardenCheck where
  type : WardenCheckType
  length : UInt8
  action : WardenActions
  result : ℕ → UInt8

def WardenCheck.expected (check : WardenCheck) (n : ℕ) : Bytes := (List.range n).map check.result

/-- The store and the id pools; 786 and 209 are asked for in every request. -/
structure WardenCheckMgr where
  checkStore : CheckId → Option WardenCheck
  memChecksIdPool : List {id : CheckId // (checkStore id).isSome}
  otherChecksIdPool : List {id : CheckId // (checkStore id).isSome}
  wpePro : (checkStore 786).isSome
  woWEmuHacker : (checkStore 209).isSome

namespace WardenCheckMgr

abbrev Known (mgr : WardenCheckMgr) : Type := {id : CheckId // (mgr.checkStore id).isSome}

def getWardenDataById (mgr : WardenCheckMgr) (id : CheckId) : Option WardenCheck :=
  mgr.checkStore id

def row (mgr : WardenCheckMgr) (id : mgr.Known) : WardenCheck := (mgr.checkStore id.1).get id.2

theorem getWardenDataById_known (mgr : WardenCheckMgr) (id : mgr.Known) :
    mgr.getWardenDataById id.1 = some (mgr.row id) := (Option.some_get id.2).symm

end WardenCheckMgr

/-! ### Checksums -/

def buildChecksum (sha1 : Bytes → Fin 5 → UInt32) (data : Bytes) : UInt32 :=
  (List.finRange 5).foldl (fun checkSum i => checkSum ^^^ sha1 data i) 0

def isValidCheckSum (sha1 : Bytes → Fin 5 → UInt32) (checksum : ℕ) (data : Bytes) : Bool :=
  checksum = (buildChecksum sha1 data).toNat

/-! ### Penalties -/

def failedCheckName (checkFailed : CheckId) : String :=
  match checkFailed with
  | 47 => " (FrameXML Signature Check)"
  | 51 => " (Lua DoString)"
  | 59 => " (Lua Protection Patch)"
  | 72 => " (Movement State related)"
  | 118 => " (Wall Climb)"
  | 121 => " (No Fall Damage Patch)"
  | 193 => " (Follow Unit Check)"
  | 209 => " (WoWEmuHacker Injection)"
  | 237 => " (AddChatMessage)"
  | 246 => " (Language Patch)"
  | 260 => " (Jump Momentum)"
  | 288 => " (Language Patch)"
  | 308 => " (SendChatMessage)"
  | 312 => " (Jump Physics)"
  | 314 => " (GetCharacterInfo)"
  | 329 => " (Wall Climb)"
  | 343 => " (Login Password Pointer)"
  | 349 => " (Language Patch)"
  | 712 => " (WS2_32.Send)"
  | 780 => " (Lua Protection Remover)"
  | 781 => " (Walk on Water Patch)"
  | 782 => " (Collision M2 Special)"
  | 783 => " (Collision M2 Regular)"
  | 784 => " (Collision WMD)"
  | 785 => " (Multi-Jump Patch)"
  | 786 => " (WPE PRO)"
  | 787 => " (rEdoX Packet Editor)"
  | _ => ""

def banReason (checkFailed : CheckId) : String :=
  "Anticheat violation" ++ failedCheckName checkFailed

inductive Outcome (mgr : WardenCheckMgr) where
  | moduleCache
  | hashRequest
  | moduleInitialize
  | cheatChecksRequest (checks : List mgr.Known)
  | logged (reason : String)
  | kicked
  | banned (reason : String)

def penalty {mgr : WardenCheckMgr} (check : Option WardenCheck) (checkFailed : CheckId) :
    Outcome mgr :=
  match (check.map WardenCheck.action).getD .kick with
  | .log => .logged (banReason checkFailed)
  | .kick => .kicked
  | .ban => .banned (banReason checkFailed)

namespace Outcome

variable {mgr : WardenCheckMgr}

def IsPenalty : Outcome mgr → Prop
  | logged _ | kicked | banned _ => True
  | _ => False

def IsRemoval : Outcome mgr → Prop
  | kicked | banned _ => True
  | _ => False

end Outcome

variable {mgr : WardenCheckMgr}

theorem isPenalty_penalty (check : Option WardenCheck) (checkFailed : CheckId) :
    (penalty check checkFailed : Outcome mgr).IsPenalty := by
  unfold penalty
  split <;> exact trivial

theorem isRemoval_penalty {check : WardenCheck} (h : check.action ≠ .log)
    (checkFailed : CheckId) : (penalty (some check) checkFailed : Outcome mgr).IsRemoval := by
  cases hact : check.action with
  | log => exact absurd hact h
  | kick => simp [penalty, hact, Outcome.IsRemoval]
  | ban => simp [penalty, hact, Outcome.IsRemoval]

theorem penalty_ne_request (check : Option WardenCheck) (checkFailed : CheckId)
    (checks : List mgr.Known) : penalty check checkFailed ≠ .cheatChecksRequest checks := by
  unfold penalty
  split <;> simp

end HysteriaCore.Warden
