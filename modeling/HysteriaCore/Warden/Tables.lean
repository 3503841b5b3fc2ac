import HysteriaCore.Auth.Crypto
import HysteriaCore.Lib.Footprint
import HysteriaCore.Lib.Runs
import HysteriaCore.Warden.WardenWin

/-!
# The warden tables (shade/Warden/WardenCheckMgr.cpp)

`CheckStore` is a vector with holes. A `Use` is a write to the temporary buffer
of 24 bytes, or a pointer that is followed; what comes after the use of an absent
entry is not defined, and the computation ends there. `hex2bn` is the number
that `BN_hex2bn` leaves in a new `BigNumber`.
-/

namespace HysteriaCore.Warden
open Lib Net

def WardenCheckType.ofUInt8 (type : UInt8) : WardenCheckType :=
  match type with
  | 0xF3 => .memCheck
  | 0xB2 => .pageCheckA
  | 0xBF => .pageCheckB
  | 0x98 => .mpqCheck
  | 0x8B => .luaStrCheck
  | 0x71 => .driverCheck
  | 0x57 => .timingCheck
  | 0x7E => .procCheck
  | 0xD9 => .moduleCheck
  | _ => .unknown

structure CheckRow where
  id : CheckId
  type : UInt8
  data : Bytes
  result : Bytes
  address : BitVec 32
  length : UInt8
  str : Bytes
  comment : Bytes

structure ActionRow where
  wardenId : CheckId
  action : UInt8

structure StoredCheck where
  type : UInt8
  data : ℕ
  address : BitVec 32
  length : UInt8
  str : Bytes
  comment : Bytes
  checkId : CheckId
  action : WardenActions

def StoredCheck.kind (check : StoredCheck) : WardenCheckType := .ofUInt8 check.type

structure CheckTables where
  checkStore : List (Option StoredCheck)
  checkResultStore : CheckId → Option ℕ
  memChecksIdPool : List CheckId
  otherChecksIdPool : List CheckId

inductive Use where
  | temp (count : ℕ)
  | entry (present : Bool)
  deriving DecidableEq

def Use.Safe : Use → Prop
  | temp count => count ≤ 24
  | entry present => present = true

def deref {α : Type} (pointer : Option α) : Traced Use α := ⟨[.entry pointer.isSome], pointer⟩

def fetch {α : Type} (value : Option α) : Traced Use α := ⟨[], value⟩

section Loading

variable (hex2bn : Bytes → ℕ)

def loadNumber (text : Bytes) : ℕ :=
  let n := hex2bn text
  let len := text.length / 2
  if Auth.numBytes n < len then
    Auth.setBinary (Auth.bnBytes n ++ List.replicate (len - Auth.numBytes n) 0).reverse
  else n

def hashedTypes : List WardenCheckType := [.pageCheckA, .pageCheckB, .driverCheck]

def tempWrites (row : CheckRow) : List Use :=
  if .ofUInt8 row.type ∈ hashedTypes ∧ Auth.numBytes (hex2bn row.data) < row.data.length / 2 then
    [.temp (row.data.length / 2)]
  else []

def CheckRow.check (row : CheckRow) : StoredCheck where
  type := row.type
  data := if .ofUInt8 row.type ∈ hashedTypes then loadNumber hex2bn row.data else 0
  address :=
    if .ofUInt8 row.type ∈ [.memCheck, .pageCheckA, .pageCheckB, WardenCheckType.procCheck] then
      row.address
    else 0
  length :=
    if .ofUInt8 row.type ∈ [.memCheck, .pageCheckA, .pageCheckB, WardenCheckType.procCheck] then
      row.length
    else 0
  str :=
    if .ofUInt8 row.type ∈
        [.memCheck, .mpqCheck, .luaStrCheck, .driverCheck, WardenCheckType.moduleCheck] then row.str
    else []
  comment := if row.comment = [] then ascii "Undocumented Check" else row.comment
  checkId := row.id
  action := .kick

def CheckTables.insert (t : CheckTables) (row : CheckRow) : CheckTables where
  checkStore := t.checkStore.set row.id.toNat (some (row.check hex2bn))
  checkResultStore :=
    if .ofUInt8 row.type ∈ [.mpqCheck, WardenCheckType.memCheck] then
      Function.update t.checkResultStore row.id (some (loadNumber hex2bn row.result))
    else t.checkResultStore
  memChecksIdPool :=
    if .ofUInt8 row.type ∈ [.memCheck, WardenCheckType.moduleCheck] then
      t.memChecksIdPool ++ [row.id]
    else t.memChecksIdPool
  otherChecksIdPool :=
    if .ofUInt8 row.type ∈ [.memCheck, WardenCheckType.moduleCheck] then t.otherChecksIdPool
    else t.otherChecksIdPool ++ [row.id]

def loadRows : List CheckRow → CheckTables → Traced Use CheckTables
  | [], t => .pure t
  | row :: rows, t =>
    (Traced.reading (tempWrites hex2bn row) (t.insert hex2bn row)).bind (loadRows rows)

def maxCheckId (rows : List CheckRow) : ℕ := (rows.map fun row => row.id.toNat).foldr max 0

def CheckTables.blank (maxCheckId : ℕ) : CheckTables where
  checkStore := List.replicate (maxCheckId + 1) none
  checkResultStore := fun _ => none
  memChecksIdPool := []
  otherChecksIdPool := []

/-- `LoadWardenChecks`. The result of the second query is followed without a test, and is
`NULL` for an empty table. -/
def loadWardenChecks (rows : List CheckRow) : Traced Use CheckTables :=
  (deref rows.head?).bind fun _ => loadRows hex2bn rows (.blank (maxCheckId rows))

def WardenActions.ofUInt8 (action : UInt8) : WardenActions :=
  match action with
  | 0 => .log
  | 1 => .kick
  | _ => .ban

def CheckTables.slot (t : CheckTables) (id : CheckId) : Option StoredCheck :=
  t.checkStore[id.toNat]?.join

def CheckTables.override (t : CheckTables) (row : ActionRow) : Traced Use CheckTables :=
  if 2 < row.action then .pure t
  -- an id equal to the size passes
  else if t.checkStore.length < row.wardenId.toNat then .pure t
  else (deref (t.slot row.wardenId)).map fun check =>
    { t with
      checkStore := t.checkStore.set row.wardenId.toNat
        (some { check with action := .ofUInt8 row.action }) }

def loadWardenOverrides : List ActionRow → CheckTables → Traced Use CheckTables
  | [], t => .pure t
  | row :: rows, t => (t.override row).bind (loadWardenOverrides rows)

def loadTables (rows : List CheckRow) (overrides : List ActionRow) : Traced Use CheckTables :=
  (loadWardenChecks hex2bn rows).bind (loadWardenOverrides overrides)

end Loading

/-! ### Lookups -/

namespace CheckTables

variable (t : CheckTables)

def getWardenDataById (id : CheckId) : Option StoredCheck :=
  if id.toNat < t.checkStore.length then t.slot id else none

def getWardenResultById (id : CheckId) : Option ℕ := t.checkResultStore id

end CheckTables

structure Asking where
  memChecksTodo : List CheckId
  otherChecksTodo : List CheckId
  currentChecks : List CheckId

def requestLookups (t : CheckTables) : List CheckId → Traced Use Unit
  | [] => .pure ()
  | id :: ids => (deref (t.getWardenDataById id)).bind fun _ => requestLookups t ids

/-- `RequestData`. The first loop over the other checks tests its pointer. -/
def CheckTables.requestData (t : CheckTables) (config : Config) (a : Asking) : Traced Use Asking :=
  let memChecksTodo := if a.memChecksTodo.isEmpty then t.memChecksIdPool else a.memChecksTodo
  let otherChecksTodo :=
    if a.otherChecksTodo.isEmpty then t.otherChecksIdPool else a.otherChecksTodo
  let mem := popBack config.numMemChecks memChecksTodo
  let other := popBack config.numOtherChecks otherChecksTodo
  let currentChecks := mem.1.filter (fun id => id ≠ 786 ∧ id ≠ 209) ++ [786, 209] ++ other.1
  (requestLookups t currentChecks).map fun _ =>
    { memChecksTodo := mem.2, otherChecksTodo := other.2, currentChecks }

def answerLookups (t : CheckTables) (id : CheckId) (buff : ByteBuffer) : Traced Use ByteBuffer :=
  (deref (t.getWardenDataById id)).bind fun rd =>
    match rd.kind with
    | .memCheck =>
      (fetch buff.readUInt8).bind fun (memResult, buff) =>
        if memResult ≠ 0 then .pure buff
        else (deref (t.getWardenResultById id)).map fun _ => buff.skip rd.length.toNat
    | .pageCheckA | .pageCheckB | .driverCheck | .moduleCheck => .pure (buff.skip 1)
    | .luaStrCheck =>
      (fetch buff.readUInt8).bind fun (luaResult, buff) =>
        if luaResult ≠ 0 then .pure buff
        else (fetch buff.readUInt8).map fun (luaStrLen, buff) => buff.skip luaStrLen.toNat
    | .mpqCheck =>
      (fetch buff.readUInt8).bind fun (mpqResult, buff) =>
        if mpqResult ≠ 0 then .pure buff
        else (deref (t.getWardenResultById id)).map fun _ => buff.skip 20
    | .timingCheck | .procCheck | .unknown => .pure buff

def answersLookups (t : CheckTables) : List CheckId → ByteBuffer → Traced Use Unit
  | [], _ => .pure ()
  | id :: ids, buff => (answerLookups t id buff).bind (answersLookups t ids)

def handleDataLookups (sha1 : Bytes → Fin 5 → UInt32) (t : CheckTables) (a : Asking)
    (buff : ByteBuffer) : Traced Use Unit :=
  (fetch buff.readUInt16).bind fun (length, buff) =>
  (fetch buff.readUInt32).bind fun (checksum, buff) =>
    if !isValidCheckSum sha1 checksum (buff.window length) then .pure ()
    else (fetch buff.readUInt8).bind fun (result, buff) =>
      if result = 0 then .pure ()
      else (fetch buff.readUInt32).bind fun (_, buff) => answersLookups t a.currentChecks buff

/-! ### Sessions -/

inductive TableEvent where
  | request (config : Config)
  | answer (buff : ByteBuffer)

def tableStep (t : CheckTables) (a : Asking) : TableEvent → Option Asking
  | .request config => (t.requestData config a).result
  | .answer _ => some a

def AsksNothing (a : Asking) : Prop := a = ⟨[], [], []⟩

end HysteriaCore.Warden
