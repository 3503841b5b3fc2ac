import HysteriaCore.Warden.Checks

/-!
# The warden of a session (shade/Warden/Warden.cpp, WardenWin.cpp)

Clocks and timers are 32-bit words. `HandlePacket` swallows the exception of a
read past the end of a packet, so a handler left by one keeps what it had
already done. `Session` records with each input the checks that were asked for
and what the server did.
-/

namespace HysteriaCore.Warden
open Lib Net

def getMSTimeDiff (oldMSTime newMSTime : BitVec 32) : BitVec 32 :=
  if newMSTime < oldMSTime then (0xFFFFFFFF#32 - oldMSTime) + newMSTime else newMSTime - oldMSTime

structure Config where
  numMemChecks : ℕ
  numOtherChecks : ℕ

structure WardenWin (mgr : WardenCheckMgr) where
  checkTimer : BitVec 32
  clientResponseTimer : BitVec 32
  dataSent : Bool
  previousTimestamp : BitVec 32
  initialized : Bool
  serverTicks : BitVec 32
  otherChecksTodo : List mgr.Known
  memChecksTodo : List mgr.Known
  currentChecks : List mgr.Known

def clientKeySeedHash : Bytes :=
  [0x56, 0x8C, 0x05, 0x4C, 0x78, 0x1A, 0x97, 0x2A, 0x60, 0x37,
   0xA2, 0x29, 0x0C, 0x22, 0xB5, 0x25, 0x71, 0xA0, 0x6F, 0x4E]

def popBack {α : Type*} : ℕ → List α → List α × List α
  | 0, todo => ([], todo)
  | n + 1, todo =>
    match todo.getLast? with
    | none => ([], [])
    | some id =>
      let (popped, rest) := popBack n todo.dropLast
      (id :: popped, rest)

namespace WardenWin

variable {mgr : WardenCheckMgr}

def initial (mgr : WardenCheckMgr) : WardenWin mgr where
  checkTimer := 10000
  clientResponseTimer := 0
  dataSent := false
  previousTimestamp := 0
  initialized := false
  serverTicks := 0
  otherChecksTodo := []
  memChecksTodo := []
  currentChecks := []

/-! ### Requests -/

/-- `RequestData`; WPE PRO and WoWEmuHacker are asked for every time. -/
def requestData (config : Config) (w : WardenWin mgr) (now : BitVec 32) :
    WardenWin mgr × List (Outcome mgr) :=
  let memChecksTodo := if w.memChecksTodo.isEmpty then mgr.memChecksIdPool else w.memChecksTodo
  let otherChecksTodo :=
    if w.otherChecksTodo.isEmpty then mgr.otherChecksIdPool else w.otherChecksTodo
  let mem := popBack config.numMemChecks memChecksTodo
  let other := popBack config.numOtherChecks otherChecksTodo
  let currentChecks := mem.1.filter (fun id => id.1 ≠ 786 ∧ id.1 ≠ 209) ++
    [⟨786, mgr.wpePro⟩, ⟨209, mgr.woWEmuHacker⟩] ++ other.1
  ({ w with
      serverTicks := now
      memChecksTodo := mem.2
      otherChecksTodo := other.2
      currentChecks
      dataSent := true }, [.cheatChecksRequest currentChecks])

def update (config : Config) (w : WardenWin mgr) (now : BitVec 32) :
    WardenWin mgr × List (Outcome mgr) :=
  if w.initialized then
    let diff := getMSTimeDiff w.previousTimestamp now
    let w := { w with previousTimestamp := now }
    if w.dataSent then
      if 60 * 1000#32 < w.clientResponseTimer then (w, [.kicked])
      else ({ w with clientResponseTimer := w.clientResponseTimer + diff }, [])
    else if w.checkTimer ≤ diff then requestData config w now
    else ({ w with checkTimer := w.checkTimer - diff }, [])
  else (w, [])

/-! ### Answers -/

/-- The case of the switch in `HandleData`: whether the check passed, and the buffer after it. -/
def checkResult (check : WardenCheck) (buff : ByteBuffer) : Option (Bool × ByteBuffer) :=
  match check.type with
  | .memCheck =>
    buff.readUInt8.bind fun (memResult, buff) =>
      if memResult ≠ 0 then some (false, buff)
      else some (buff.window check.length.toNat == check.expected check.length.toNat,
        buff.skip check.length.toNat)
  | .pageCheckA | .pageCheckB | .driverCheck | .moduleCheck =>
    some (buff.window 1 == [0xE9], buff.skip 1)
  | .luaStrCheck =>
    buff.readUInt8.bind fun (luaResult, buff) =>
      if luaResult ≠ 0 then some (false, buff)
      else buff.readUInt8.bind fun (luaStrLen, buff) => some (true, buff.skip luaStrLen.toNat)
  | .mpqCheck =>
    buff.readUInt8.bind fun (mpqResult, buff) =>
      if mpqResult ≠ 0 then some (false, buff)
      else some (buff.window 20 == check.expected 20, buff.skip 20)
  | .timingCheck | .procCheck | .unknown => some (true, buff)

def checkResults : List mgr.Known → ByteBuffer → CheckId → Option CheckId
  | [], _, checkFailed => some checkFailed
  | id :: ids, buff, checkFailed =>
    (checkResult (mgr.row id) buff).bind fun (passed, buff) =>
      checkResults ids buff (if passed then checkFailed else id.1)

def handleData (sha1 : Bytes → Fin 5 → UInt32) (w : WardenWin mgr) (buff : ByteBuffer) :
    WardenWin mgr × List (Outcome mgr) :=
  -- marked as answered before anything is read
  let w := { w with dataSent := false, clientResponseTimer := 0 }
  match buff.readUInt16 with
  | none => (w, [])
  | some (length, buff) =>
    match buff.readUInt32 with
    | none => (w, [])
    | some (checksum, buff) =>
      if !isValidCheckSum sha1 checksum (buff.window length) then (w, [penalty none 0])
      else match buff.readUInt8 with
        | none => (w, [])
        | some (result, buff) =>
          if result = 0 then (w, [penalty none 0])
          else match buff.readUInt32 with
            | none => (w, [])
            | some (_, buff) =>
              match checkResults w.currentChecks buff 0 with
              | none => (w, [])
              | some checkFailed =>
                let outcomes := if 0 < checkFailed then
                  [penalty (mgr.getWardenDataById checkFailed) checkFailed] else []
                ({ w with checkTimer := 1 * 1000 }, outcomes)

def handleHashResult (w : WardenWin mgr) (buff : ByteBuffer) (now : BitVec 32) :
    WardenWin mgr × List (Outcome mgr) :=
  if { buff with rpos := 1 }.window 20 ≠ clientKeySeedHash then (w, [penalty none 0])
  else ({ w with initialized := true, previousTimestamp := now }, [])

/-- `ClientSession::HandleWardenDataOpcode`, after the packet was decrypted. -/
def handleWardenDataOpcode (sha1 : Bytes → Fin 5 → UInt32) (w : WardenWin mgr)
    (recvData : ByteBuffer) (now : BitVec 32) : WardenWin mgr × List (Outcome mgr) :=
  match recvData.storage with
  | [] => (w, [])
  | opcode :: _ =>
    let recvData := { recvData with rpos := 1 }
    match opcode with
    | 0 => (w, [.moduleCache])
    | 1 => (w, [.hashRequest])
    | 2 => handleData sha1 w recvData
    | 4 =>
      let (w, outcomes) := handleHashResult w recvData now
      (w, outcomes ++ [.moduleInitialize])
    | _ => (w, [])

end WardenWin

/-! ### Sessions -/

inductive Input where
  | update (now : BitVec 32)
  | packet (contents : Bytes) (past : ℕ → UInt8) (now : BitVec 32)

/-- One input, the checks that were current when it came, and what it led to. -/
structure Turn (mgr : WardenCheckMgr) where
  checks : List mgr.Known
  input : Input
  outcomes : List (Outcome mgr)

structure Session (mgr : WardenCheckMgr) where
  warden : WardenWin mgr
  trace : List (Turn mgr)

section Session

variable {mgr : WardenCheckMgr} (sha1 : Bytes → Fin 5 → UInt32) (config : Config)

def respond (w : WardenWin mgr) : Input → WardenWin mgr × List (Outcome mgr)
  | .update now => w.update config now
  | .packet contents past now =>
    w.handleWardenDataOpcode sha1 { storage := contents, rpos := 0, past } now

def Session.turn (s : Session mgr) (input : Input) : Turn mgr where
  checks := s.warden.currentChecks
  input
  outcomes := (respond sha1 config s.warden input).2

def Session.next (s : Session mgr) (input : Input) : Session mgr where
  warden := (respond sha1 config s.warden input).1
  trace := s.trace ++ [s.turn sha1 config input]

def step (s : Session mgr) (input : Input) : Option (Session mgr) := some (s.next sha1 config input)

def Session.initial (mgr : WardenCheckMgr) : Session mgr := { warden := .initial mgr, trace := [] }

def Starts (s : Session mgr) : Prop := s = .initial mgr

end Session

end HysteriaCore.Warden
