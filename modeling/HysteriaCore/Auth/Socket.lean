import HysteriaCore.Auth.Crypto
import HysteriaCore.Lib.Runs

/-!
# One connection to the authserver (authserver/Server/AuthSocket.cpp)

The fields of `AuthSocket` and its command handlers. What a handler takes from elsewhere
(the login database, the clock, random numbers, the settings) comes with the command. The
patch commands and the addresses and population of a realm are left out: they touch nothing
that is modelled here.
-/

namespace HysteriaCore.Auth
open Lib

/-! ### Client builds (AuthCodes.cpp) -/

structure RealmBuildInfo where
  build : ℕ
  majorVersion : ℕ
  minorVersion : ℕ
  bugfixVersion : ℕ
  deriving DecidableEq, Repr

def postBcAcceptedClientBuilds : List RealmBuildInfo :=
  [⟨15595, 4, 3, 4⟩, ⟨14545, 4, 2, 2⟩, ⟨13623, 4, 0, 6⟩, ⟨13930, 3, 3, 5⟩, ⟨12340, 3, 3, 5⟩,
    ⟨11723, 3, 3, 3⟩, ⟨11403, 3, 3, 2⟩, ⟨11159, 3, 3, 0⟩, ⟨10505, 3, 2, 2⟩, ⟨9947, 3, 1, 3⟩,
    ⟨8606, 2, 4, 3⟩]

def preBcAcceptedClientBuilds : List RealmBuildInfo :=
  [⟨6141, 1, 12, 3⟩, ⟨6005, 1, 12, 2⟩, ⟨5875, 1, 12, 1⟩]

def isPostBCAcceptedClientBuild (build : ℕ) : Bool :=
  postBcAcceptedClientBuilds.any fun i => decide (i.build = build)

def isPreBCAcceptedClientBuild (build : ℕ) : Bool :=
  preBcAcceptedClientBuilds.any fun i => decide (i.build = build)

def isAcceptedClientBuild (build : ℕ) : Bool :=
  isPostBCAcceptedClientBuild build || isPreBCAcceptedClientBuild build

def getBuildInfo (build : ℕ) : Option RealmBuildInfo :=
  (postBcAcceptedClientBuilds ++ preBcAcceptedClientBuilds).find? fun i => decide (i.build = build)

def POST_BC_EXP_FLAG : ℕ := 2
def PRE_BC_EXP_FLAG : ℕ := 1
def NO_VALID_EXP_FLAG : ℕ := 0

def expversionOf (build : ℕ) : ℕ :=
  if isPostBCAcceptedClientBuild build then POST_BC_EXP_FLAG
  else if isPreBCAcceptedClientBuild build then PRE_BC_EXP_FLAG
  else NO_VALID_EXP_FLAG

/-! ### Command and result codes -/

def AUTH_LOGON_CHALLENGE : UInt8 := 0x00
def AUTH_LOGON_PROOF : UInt8 := 0x01
def AUTH_RECONNECT_CHALLENGE : UInt8 := 0x02
def AUTH_RECONNECT_PROOF : UInt8 := 0x03

def WOW_SUCCESS : UInt8 := 0x00
def WOW_FAIL_BANNED : UInt8 := 0x03
def WOW_FAIL_UNKNOWN_ACCOUNT : UInt8 := 0x04
def WOW_FAIL_VERSION_INVALID : UInt8 := 0x09
def WOW_FAIL_SUSPENDED : UInt8 := 0x0C
def WOW_FAIL_LOCKED_ENFORCED : UInt8 := 0x10

def SEC_PLAYER : ℕ := 0
def SEC_ADMINISTRATOR : ℕ := 3

def REALM_FLAG_OFFLINE : ℕ := 0x02
def REALM_FLAG_SPECIFYBUILD : ℕ := 0x04

def localeNames : List Bytes :=
  ["enUS", "koKR", "frFR", "deDE", "zhCN", "zhTW", "esES", "esMX", "ruRU"].map ascii

def getLocaleByName (name : Bytes) : ℕ :=
  if name ∈ localeNames then localeNames.idxOf name else 0

/-! ### What the commands read elsewhere -/

/-- A row of `account`, joined with the `gmlevel` of `account_access` (0 where there is
none). A NULL session key is read like the empty text. -/
structure AccountRow where
  shaPassHash : Bytes
  id : ℕ
  locked : ℕ
  lastIp : Bytes
  gmlevel : ℕ
  v : Bytes
  s : Bytes
  tokenKey : Bytes
  sessionkey : Bytes

/-- The answers of the login database. `banned` is the active row of `account_banned`,
`failedLogins` the id and the count that `LOGIN_SEL_FAILEDLOGINS` reads. -/
structure LoginDatabase where
  ipBanned : Bytes → Bool
  account : Bytes → Option AccountRow
  banned : ℕ → Option (ℕ × ℕ)
  failedLogins : Bytes → Option (ℕ × ℕ)
  numChars : ℕ → ℕ → ℕ

structure Realm where
  id : ℕ
  name : Bytes
  icon : ℕ
  flag : ℕ
  timezone : ℕ
  allowedSecurityLevel : ℕ
  gamebuild : ℕ

/-- What surrounds one command. `flooded` says that the address has an entry in
`LastLoginAttemptTimeForIP` from this second; `behind` are the bytes that lie behind the
array of `M`. -/
structure Env where
  db : LoginDatabase
  remoteAddress : Bytes
  time : ℕ
  flooded : Bool
  randS : Rand (32 * 8)
  randB : Rand (19 * 8)
  unk3 : Rand (16 * 8)
  randReconnect : Rand (16 * 8)
  behind : Vector UInt8 20
  maxWrongPassCount : ℕ
  wrongPassBanTime : ℕ
  wrongPassBanType : Bool
  realms : List Realm

/-- `sAuthLogonChallenge_C`. `i` is all that follows `I_len` in the packet. -/
structure AuthLogonChallenge_C where
  build : UInt16
  os : Vector UInt8 4
  country : Vector UInt8 4
  timezoneBias : Vector UInt8 4
  ip : Vector UInt8 4
  iLen : UInt8
  i : Bytes

def AuthLogonChallenge_C.login (ch : AuthLogonChallenge_C) : Bytes := cstr ch.i

def AuthLogonChallenge_C.osText (ch : AuthLogonChallenge_C) : Bytes :=
  cstr (ch.os.toList ++ ch.country.toList ++ ch.timezoneBias.toList ++ ch.ip.toList ++
    ch.iLen :: ch.i)

structure AuthLogonProof_C where
  a : Vector UInt8 32
  m1 : Vector UInt8 20
  securityFlags : UInt8
  token : Bytes

structure AuthReconnectProof_C where
  r1 : Vector UInt8 16
  r2 : Vector UInt8 20

/-- How much of a challenge has arrived: not the fixed part, not the length that the header
tells, or all of it. -/
inductive Received (α : Type) where
  | short
  | incomplete
  | full (packet : α)

structure RealmEntry where
  icon : ℕ
  lock : Bool
  flag : ℕ
  name : Bytes
  amountOfCharacters : ℕ
  timezone : ℕ
  deriving DecidableEq, Repr

inductive Effect where
  | send (pkt : Bytes)
  | shutdown
  | updVS (v s login : Bytes)
  | updLogonProof (sessionkey lastIp : Bytes) (locale : ℕ) (os login : Bytes)
  | updFailedLogins (login : Bytes)
  | insAccountAutoBanned (id banTime : ℕ)
  | insIpAutoBanned (address : Bytes) (banTime : ℕ)
  | sendRealmList (entries : List RealmEntry)
  deriving DecidableEq

/-! ### The connection -/

structure AuthSocket where
  v : ℕ
  s : ℕ
  b : ℕ
  bigB : ℕ
  k : ℕ
  reconnectProof : ℕ
  authed : Bool
  login : Bytes
  tokenKey : Bytes
  localizationName : Bytes
  os : Bytes
  build : ℕ
  expversion : ℕ
  accountSecurityLevel : ℕ
  deriving DecidableEq

def AuthSocket.new : AuthSocket :=
  ⟨0, 0, 0, 0, 0, 0, false, [], [], [], [], 0, 0, SEC_PLAYER⟩

def bigN : ℕ := 0x894B645E89E1535BBDAD5B8B290650530801B18EBFBF5E8FAB3C82872A3E9BB7
def g : ℕ := 7

/-- The value a handler returns, the connection after it and what it did. -/
structure Result where
  ok : Bool
  sock : AuthSocket
  effects : List Effect

/-! ### Logon challenge -/

def freshVS (C : Crypto) (e : Env) (rI : Bytes) : ℕ × ℕ :=
  let s := e.randS.val
  let i := (C.hex2bn rI).getD 0
  let mDigest :=
    if numBytes i ≤ 20 then bnBytes i ++ List.replicate (20 - numBytes i) 0
    else List.replicate 20 0
  let x := setBinary (C.sha1 (bnBytes s ++ mDigest.reverse))
  (modExp g x bigN, s)

/-- The numbers set into `v` and `s` for an account; `none` where a stored text is no
number and the old one stays. -/
def vsFields (C : Crypto) (e : Env) (row : AccountRow) : Option ℕ × Option ℕ :=
  if row.v.length ≠ 64 ∨ row.s.length ≠ 64 then
    (some (freshVS C e row.shaPassHash).1, some (freshVS C e row.shaPassHash).2)
  else (C.hex2bn row.v, C.hex2bn row.s)

def vsUpdate (C : Crypto) (e : Env) (row : AccountRow) (login : Bytes) : List Effect :=
  if row.v.length ≠ 64 ∨ row.s.length ≠ 64 then
    [.updVS (C.bn2hex (freshVS C e row.shaPassHash).1) (C.bn2hex (freshVS C e row.shaPassHash).2)
      login]
  else []

def checkAccount (db : LoginDatabase) (address login : Bytes) : Except UInt8 AccountRow :=
  if db.ipBanned address then .error WOW_FAIL_BANNED
  else
    match db.account login with
    | none => .error WOW_FAIL_UNKNOWN_ACCOUNT
    | some row =>
      if row.locked = 1 ∧ cstr row.lastIp ≠ cstr address then .error WOW_FAIL_LOCKED_ENFORCED
      else
        match db.banned row.id with
        | some (bandate, unbandate) =>
          .error (if bandate = unbandate then WOW_FAIL_BANNED else WOW_FAIL_SUSPENDED)
        | none => .ok row

def securityLevel (gmlevel : ℕ) : ℕ :=
  if gmlevel ≤ SEC_ADMINISTRATOR then gmlevel else SEC_ADMINISTRATOR

def acceptChallenge (C : Crypto) (e : Env) (ch : AuthLogonChallenge_C) (row : AccountRow)
    (a : AuthSocket) : AuthSocket × List Effect :=
  let v := (vsFields C e row).1.getD a.v
  let s := (vsFields C e row).2.getD a.s
  let b := e.randB.val
  let bigB := (v * 3 + modExp g b bigN) % bigN
  let code := if isAcceptedClientBuild a.build then WOW_SUCCESS else WOW_FAIL_VERSION_INVALID
  let flags : Bytes := if row.tokenKey = [] then [0] else [4, 1]
  let pkt := [AUTH_LOGON_CHALLENGE, 0, code] ++ asByteArray bigB 32 ++ [1] ++ bnBytes g ++ [32] ++
    asByteArray bigN 32 ++ bnBytes s ++ asByteArray e.unk3.val 16 ++ flags
  ({ a with
      v := v
      s := s
      b := b
      bigB := bigB
      tokenKey := row.tokenKey
      accountSecurityLevel := securityLevel row.gmlevel
      localizationName := ch.country.toList.reverse },
    vsUpdate C e row a.login ++ [.send pkt])

def AuthSocket.setVersion (a : AuthSocket) (ch : AuthLogonChallenge_C) : AuthSocket :=
  { a with
    build := ch.build.toNat
    expversion := expversionOf ch.build.toNat
    os := if 4 < ch.osText.length then ch.osText else ch.osText.reverse }

def handleLogonChallenge (C : Crypto) (e : Env) (ch : Received AuthLogonChallenge_C)
    (a : AuthSocket) : Result :=
  let a := { a with authed := false }
  match ch with
  | .short => ⟨false, a, []⟩
  | .incomplete =>
    if e.flooded then ⟨true, a, [.send [AUTH_LOGON_CHALLENGE, 0, WOW_FAIL_UNKNOWN_ACCOUNT]]⟩
    else ⟨false, a, []⟩
  | .full ch =>
    if e.flooded then ⟨true, a, [.send [AUTH_LOGON_CHALLENGE, 0, WOW_FAIL_UNKNOWN_ACCOUNT]]⟩
    else
      let a := { a with login := ch.login }.setVersion ch
      if 4 < ch.osText.length then ⟨false, a, []⟩
      else
        match checkAccount e.db e.remoteAddress ch.login with
        | .error code => ⟨true, a, [.send [AUTH_LOGON_CHALLENGE, 0, code]]⟩
        | .ok row =>
          let r := acceptChallenge C e ch row a
          ⟨true, r.1, r.2⟩

/-! ### Logon proof -/

def everySecond (t : Bytes) (first : ℕ) : Bytes :=
  (List.range 16).map fun i => t.getD (2 * i + first) 0

def sessionKey (C : Crypto) (a : AuthSocket) (bigA : ℕ) : ℕ :=
  let u := setBinary (C.sha1 (bnBytes bigA ++ bnBytes a.bigB))
  let secret := modExp (bigA * modExp a.v u bigN) a.b bigN
  let t := asByteArray secret 32
  let even := C.sha1 (everySecond t 0)
  let odd := C.sha1 (everySecond t 1)
  setBinary ((even.zip odd).flatMap fun p => [p.1, p.2])

def proofM (C : Crypto) (a : AuthSocket) (bigA : ℕ) : ℕ :=
  let t3 := setBinary (List.zipWith (· ^^^ ·) (C.sha1 (bnBytes bigN)) (C.sha1 (bnBytes g)))
  let t4 := C.sha1 a.login
  setBinary (C.sha1 (bnBytes t3 ++ t4 ++ bnBytes a.s ++ bnBytes bigA ++ bnBytes a.bigB ++
    bnBytes (sessionKey C a bigA)))

/-- The 20 bytes that `memcmp` reads at `M.AsByteArray()`: those of the number, and what
lies behind when it has fewer. -/
def expectedM1 (C : Crypto) (e : Env) (a : AuthSocket) (bigA : ℕ) : Bytes :=
  (bnBytes (proofM C a bigA) ++ e.behind.toList).take 20

def reachesKey (a : AuthSocket) (lp : AuthLogonProof_C) : Bool :=
  decide (a.expversion ≠ NO_VALID_EXP_FLAG ∧ setBinary lp.a.toList % bigN ≠ 0)

def matchesM1 (C : Crypto) (e : Env) (a : AuthSocket) (lp : AuthLogonProof_C) : Bool :=
  decide (expectedM1 C e a (setBinary lp.a.toList) = lp.m1.toList)

def tokenAccepted (C : Crypto) (e : Env) (a : AuthSocket) (lp : AuthLogonProof_C) : Bool :=
  decide (¬(lp.securityFlags &&& 4 ≠ 0 ∨ a.tokenKey ≠ []) ∨
    atoi lp.token = generateToken C a.tokenKey e.time)

def failedLogin (e : Env) (login : Bytes) : List Effect :=
  if 0 < e.maxWrongPassCount then
    .updFailedLogins login ::
      match e.db.failedLogins login with
      | none => []
      | some (id, count) =>
        if e.maxWrongPassCount ≤ count then
          if e.wrongPassBanType then [.insAccountAutoBanned id e.wrongPassBanTime]
          else [.insIpAutoBanned e.remoteAddress e.wrongPassBanTime]
        else []
  else []

def proofPacket (expversion : ℕ) (m2 : Bytes) : Bytes :=
  if expversion &&& POST_BC_EXP_FLAG ≠ 0 then
    [AUTH_LOGON_PROOF, 0] ++ m2 ++ littleEndian 4 0x00800000 ++ littleEndian 4 0 ++ littleEndian 2 0
  else [AUTH_LOGON_PROOF, 0] ++ m2 ++ littleEndian 4 0

/-- `_HandleLogonProof`. The session key goes to the database before the token check. -/
def handleLogonProof (C : Crypto) (e : Env) (lp : Option AuthLogonProof_C) (a : AuthSocket) :
    Result :=
  let a := { a with authed := false }
  match lp with
  | none => ⟨false, a, []⟩
  | some lp =>
    if reachesKey a lp = false then ⟨true, a, [.shutdown]⟩
    else
      let bigA := setBinary lp.a.toList
      let k := sessionKey C a bigA
      let m := proofM C a bigA
      if matchesM1 C e a lp then
        let write := Effect.updLogonProof (C.bn2hex k) e.remoteAddress
          (getLocaleByName a.localizationName) a.os a.login
        let m2 := C.sha1 (bnBytes bigA ++ bnBytes m ++ bnBytes k)
        if tokenAccepted C e a lp then
          ⟨true, { a with k := k, authed := true }, [write, .send (proofPacket a.expversion m2)]⟩
        else
          ⟨false, { a with k := k },
            [write, .send [AUTH_LOGON_PROOF, WOW_FAIL_UNKNOWN_ACCOUNT, 3, 0]]⟩
      else
        ⟨true, { a with k := k },
          .send [AUTH_LOGON_PROOF, WOW_FAIL_UNKNOWN_ACCOUNT, 3, 0] :: failedLogin e a.login⟩

/-! ### Reconnecting -/

def handleReconnectChallenge (C : Crypto) (e : Env) (ch : Received AuthLogonChallenge_C)
    (a : AuthSocket) : Result :=
  match ch with
  | .short => ⟨false, a, []⟩
  | .incomplete => ⟨false, a, []⟩
  | .full ch =>
    let a := { a with login := ch.login }
    match e.db.account ch.login with
    | none => ⟨false, a, [.shutdown]⟩
    | some row =>
      let a := a.setVersion ch
      if 4 < ch.osText.length then ⟨false, a, []⟩
      else
        ⟨true,
          { a with
            accountSecurityLevel := securityLevel row.gmlevel
            k := (C.hex2bn (cstr row.sessionkey)).getD a.k
            reconnectProof := e.randReconnect.val },
          [.send ([AUTH_RECONNECT_CHALLENGE, 0] ++ asByteArray e.randReconnect.val 16 ++
            List.replicate 16 0)]⟩

def expectedR2 (C : Crypto) (a : AuthSocket) (r1 : Bytes) : Bytes :=
  C.sha1 (a.login ++ bnBytes (setBinary r1) ++ bnBytes a.reconnectProof ++ bnBytes a.k)

def reconnectMatches (C : Crypto) (a : AuthSocket) (lp : AuthReconnectProof_C) : Bool :=
  decide ((a.login ≠ [] ∧ numBytes a.reconnectProof ≠ 0 ∧ numBytes a.k ≠ 0) ∧
    expectedR2 C a lp.r1.toList = lp.r2.toList)

def handleReconnectProof (C : Crypto) (lp : Option AuthReconnectProof_C) (a : AuthSocket) :
    Result :=
  let a := { a with authed := false }
  match lp with
  | none => ⟨false, a, []⟩
  | some lp =>
    if a.login = [] ∨ numBytes a.reconnectProof = 0 ∨ numBytes a.k = 0 then ⟨false, a, []⟩
    else if expectedR2 C a lp.r1.toList = lp.r2.toList then
      ⟨true, { a with authed := true }, [.send [AUTH_RECONNECT_PROOF, 0, 0, 0]]⟩
    else ⟨false, a, [.shutdown]⟩

/-! ### Realm list -/

def realmEntry (e : Env) (expversion build level id : ℕ) (realm : Realm) : Option RealmEntry :=
  let okBuild := decide ((expversion &&& POST_BC_EXP_FLAG ≠ 0 ∧ realm.gamebuild = build) ∨
    (expversion &&& PRE_BC_EXP_FLAG ≠ 0 ∧ isPreBCAcceptedClientBuild realm.gamebuild = false))
  let buildInfo := getBuildInfo realm.gamebuild
  if okBuild = false ∧ buildInfo = none then none
  else
    let flag := if okBuild then realm.flag else
      realm.flag ||| REALM_FLAG_OFFLINE ||| REALM_FLAG_SPECIFYBUILD
    let flag := if buildInfo = none then flag - (flag &&& REALM_FLAG_SPECIFYBUILD) else flag
    let name :=
      match buildInfo with
      | some info =>
        if expversion &&& PRE_BC_EXP_FLAG ≠ 0 ∧ flag &&& REALM_FLAG_SPECIFYBUILD ≠ 0 then
          realm.name ++ ascii " (" ++ decimal info.majorVersion ++ ascii "." ++
            decimal info.minorVersion ++ ascii "." ++ decimal info.bugfixVersion ++ ascii ")"
        else realm.name
      | none => realm.name
    some
      { icon := realm.icon
        lock := decide (level < realm.allowedSecurityLevel)
        flag := flag % 256
        name := name
        amountOfCharacters := e.db.numChars realm.id id
        timezone := realm.timezone }

def realmEntries (e : Env) (expversion build level id : ℕ) : List RealmEntry :=
  e.realms.filterMap (realmEntry e expversion build level id)

/-- `_HandleRealmList`; `received` says that the five bytes of the command are there. -/
def handleRealmList (e : Env) (received : Bool) (a : AuthSocket) : Result :=
  if received = false then ⟨false, a, []⟩
  else
    match e.db.account a.login with
    | none => ⟨false, a, [.shutdown]⟩
    | some row =>
      ⟨true, a,
        [.sendRealmList (realmEntries e a.expversion a.build a.accountSecurityLevel row.id)]⟩

/-! ### Commands -/

inductive Command where
  | logonChallenge (ch : Received AuthLogonChallenge_C)
  | logonProof (lp : Option AuthLogonProof_C)
  | reconnectChallenge (ch : Received AuthLogonChallenge_C)
  | reconnectProof (lp : Option AuthReconnectProof_C)
  | realmList (received : Bool)
  | unknown

/-- The handler that `table` gives to a command. The realm list is served to an
authenticated connection only. -/
def handle (C : Crypto) (e : Env) : Command → AuthSocket → Result
  | .logonChallenge ch, a => handleLogonChallenge C e ch a
  | .logonProof lp, a => handleLogonProof C e lp a
  | .reconnectChallenge ch, a => handleReconnectChallenge C e ch a
  | .reconnectProof lp, a => handleReconnectProof C lp a
  | .realmList received, a =>
    if a.authed then handleRealmList e received a else ⟨false, a, [.shutdown]⟩
  | .unknown, a => ⟨false, a, [.shutdown]⟩

end HysteriaCore.Auth
