import HysteriaCore.Chat.Channel
import HysteriaCore.Lib.Words

/-!
# Bans of the proxy (shade/Proxy/Proxy.cpp)

The five routines over the sessions of the proxy and the three ban tables. A
`NULL` player that is followed ends a routine; that is `none`. Statements that
were appended to a transaction or queued are carried out in their order. How the
database compares two texts, and matches one inside another, are parameters.
-/

namespace HysteriaCore.Bans
open Lib

abbrev AccountId := UInt32
abbrev LowGuid := UInt32

/-! ### State -/

structure Player where
  guid : LowGuid
  name : Bytes
  deriving DecidableEq

/-- A session and two of its flags; it has no player while it is queued or at the character
screen. -/
structure Session where
  account : AccountId
  player : Option Player
  flagKicked : Bool
  flagReconnect : Bool
  deriving DecidableEq

def Session.kickPlayer (s : Session) : Session :=
  { s with flagKicked := true, flagReconnect := false }

def Session.Kicked (s : Session) : Prop := s.flagKicked = true ∧ s.flagReconnect = false

instance (s : Session) : Decidable s.Kicked := inferInstanceAs (Decidable (_ ∧ _))

@[simp] theorem Session.kicked_kickPlayer (s : Session) : s.kickPlayer.Kicked := ⟨rfl, rfl⟩

structure BanRow where
  id : UInt32
  bandate : ℕ
  unbandate : ℕ
  bannedby : Bytes
  banreason : Bytes
  active : Bool
  deriving DecidableEq

structure IpBanRow where
  ip : Bytes
  bandate : ℕ
  unbandate : ℕ
  bannedby : Bytes
  banreason : Bytes
  deriving DecidableEq

/-- The sessions under their accounts, no player in two of them, and the ban tables. -/
structure Logon where
  sessions : KeyedList Session.account
  onePlayer : ∀ s ∈ sessions, ∀ s' ∈ sessions, ∀ p ∈ s.player, ∀ p' ∈ s'.player,
    p.guid = p'.guid → s.account = s'.account
  accountBanned : List BanRow
  characterBanned : List BanRow
  ipBanned : List IpBanRow

structure AccountRow where
  id : AccountId
  username : Bytes
  lastIp : Bytes

structure CharacterRow where
  guid : LowGuid
  name : Bytes
  account : AccountId

/-- Tables that are only read, and the comparisons `=` and `LIKE CONCAT('%', ?, '%')`. -/
structure Database where
  accounts : List AccountRow
  characters : List CharacterRow
  same : Bytes → Bytes → Bool
  like : Bytes → Bytes → Bool

inductive BanMode where
  | account
  | character
  | ip
  | unknown
  deriving DecidableEq

inductive BanReturn where
  | success
  | syntaxError
  | notFound
  deriving DecidableEq

namespace Database

variable (db : Database)

def accountsByName (name : Bytes) : List AccountId :=
  (db.accounts.filter fun row => db.same row.username name).map AccountRow.id

def accountsByIp (ip : Bytes) : List AccountId :=
  (db.accounts.filter fun row => db.same row.lastIp ip).map AccountRow.id

def charactersByName (name : Bytes) : List CharacterRow :=
  db.characters.filter fun row => db.same row.name name

def getId (name : Bytes) : AccountId := (db.accountsByName name).headD 0

/-- `CHAR_SEL_GUID_BY_NAME_FILTER`: the first row whose name matches around the text. -/
def guidByNameFilter (name : Bytes) : Option LowGuid :=
  (db.characters.find? fun row => db.like row.name name).map CharacterRow.guid

def resultAccounts (mode : BanMode) (nameOrIP : Bytes) : List AccountId :=
  match mode with
  | .ip => db.accountsByIp nameOrIP
  | .account => db.accountsByName nameOrIP
  | .character => (db.charactersByName nameOrIP).map CharacterRow.account
  | .unknown => []

end Database

def timeStringToSecs (timestring : Bytes) : ℕ := go timestring 0 0
where
  go : Bytes → ℕ → ℕ → ℕ
    | [], secs, _ => secs
    | c :: rest, secs, buffer =>
      if 48 ≤ c.toNat ∧ c.toNat ≤ 57 then go rest secs (u32 (u32 (buffer * 10) + (c.toNat - 48)))
      else
        match c with
        | 100 => go rest (u32 (secs + u32 (buffer * 86400))) 0
        | 104 => go rest (u32 (secs + u32 (buffer * 3600))) 0
        | 109 => go rest (u32 (secs + u32 (buffer * 60))) 0
        | 115 => go rest (u32 (secs + buffer)) 0
        | _ => 0

/-! ### The ban tables -/

def notBanned (id : UInt32) (rows : List BanRow) : List BanRow :=
  rows.map fun row => if row.id = id ∧ row.active then { row with active := false } else row

def ban (row : BanRow) (rows : List BanRow) : List BanRow := notBanned row.id rows ++ [row]

def activeBans (id : UInt32) (rows : List BanRow) : ℕ :=
  rows.countP fun row => row.id = id ∧ row.active

namespace Logon

variable (l : Logon)

def findSession (account : AccountId) : Option Session := l.sessions.find? account

def findPlayerByName (name : Bytes) : Option (Session × Player) :=
  l.sessions.rows.findSome? fun s =>
    (s.player.filter fun p => p.name.map Chat.tolower = (cstr name).map Chat.tolower).map
      fun p => (s, p)

theorem onePlayer_kick (account : AccountId) :
    ∀ s ∈ l.sessions.adjust account Session.kickPlayer (fun _ => rfl),
      ∀ s' ∈ l.sessions.adjust account Session.kickPlayer (fun _ => rfl),
        ∀ p ∈ s.player, ∀ p' ∈ s'.player, p.guid = p'.guid → s.account = s'.account := by
  have hsame : ∀ s ∈ l.sessions.adjust account Session.kickPlayer (fun _ => rfl),
      ∃ x ∈ l.sessions, x.player = s.player ∧ x.account = s.account := by
    intro s hs
    obtain ⟨x, hx, rfl⟩ := (l.sessions.mem_adjust _ _ _ s).mp hs
    refine ⟨x, hx, ?_⟩
    split <;> exact ⟨rfl, rfl⟩
  intro s hs s' hs' p hp p' hp' hguid
  obtain ⟨x, hx, hplayer, haccount⟩ := hsame s hs
  obtain ⟨x', hx', hplayer', haccount'⟩ := hsame s' hs'
  rw [← haccount, ← haccount']
  exact l.onePlayer x hx x' hx' p (hplayer ▸ hp) p' (hplayer' ▸ hp') hguid

def kick (account : AccountId) : Logon :=
  { l with
    sessions := l.sessions.adjust account Session.kickPlayer (fun _ => rfl)
    onePlayer := l.onePlayer_kick account }

/-! ### The routines -/

/-- The statements of the loop in `BanAccount`, none for the ban of an address. -/
def recordBan (mode : BanMode) (row : BanRow) : Logon :=
  if mode ≠ .ip then { l with accountBanned := ban row l.accountBanned } else l

def banAccounts (mode : BanMode) (row : AccountId → BanRow) (author : Bytes) :
    List AccountId → Logon → Option Logon
  | [], l => some l
  | account :: accounts, l =>
    let l := l.recordBan mode (row account)
    match l.findSession account with
    | none => banAccounts mode row author accounts l
    | some sess =>
      sess.player.bind fun player =>
        banAccounts mode row author accounts (if player.name ≠ author then l.kick account else l)

def banAccount (db : Database) (now : ℕ) (mode : BanMode)
    (nameOrIP duration reason author : Bytes) : Option (BanReturn × Logon) :=
  let unbandate := now + timeStringToSecs duration
  let row := fun account : AccountId => (⟨account, now, unbandate, author, reason, true⟩ : BanRow)
  let resultAccounts := db.resultAccounts mode nameOrIP
  match mode with
  | .unknown => some (.syntaxError, l)
  | .ip =>
    let l := { l with ipBanned := l.ipBanned ++ [⟨nameOrIP, now, unbandate, author, reason⟩] }
    (banAccounts mode row author resultAccounts l).map fun l => (.success, l)
  | .account | .character =>
    if resultAccounts = [] then some (.notFound, l)
    else (banAccounts mode row author resultAccounts l).map fun l => (.success, l)

def banAccountbyId (now : ℕ) (accountId : AccountId) (duration : ℤ) (reason author : Bytes) :
    BanReturn × Logon :=
  let row : BanRow := ⟨accountId, now, now + (duration % 2 ^ 32).toNat, author, reason, true⟩
  let l' := { l with accountBanned := ban row l.accountBanned }
  match (l.findSession accountId).bind Session.player with
  | some plr => (.success, if plr.name ≠ author then l'.kick accountId else l')
  | none => (.success, l')

/-- The account that `RemoveBanAccount` works on; `none` where it follows a `NULL` player. -/
def unbanAccount (db : Database) (mode : BanMode) (name : Bytes) : Option AccountId :=
  match mode with
  | .account => some (db.getId name)
  | .character => (l.findPlayerByName name).map fun found => found.1.account
  | .ip | .unknown => some 0

def removeBanAccount (db : Database) (mode : BanMode) (nameOrIP : Bytes) : Option (Bool × Logon) :=
  match mode with
  | .ip =>
    some (true, { l with ipBanned := l.ipBanned.filter fun row => !db.same row.ip nameOrIP })
  | mode =>
    (l.unbanAccount db mode nameOrIP).map fun account =>
      if account = 0 then (false, l)
      else (true, { l with accountBanned := notBanned account l.accountBanned })

def pickCharacter (db : Database) (name : Bytes) : Option LowGuid :=
  match l.findPlayerByName name with
  | some found => some found.2.guid
  | none => db.guidByNameFilter name

def banCharacter (db : Database) (now : ℕ) (name duration reason author : Bytes) :
    BanReturn × Logon :=
  match l.pickCharacter db name with
  | none => (.notFound, l)
  | some guid =>
    let row : BanRow := ⟨guid, now, now + timeStringToSecs duration, author, reason, true⟩
    let l' := { l with characterBanned := ban row l.characterBanned }
    match l.findPlayerByName name with
    | some found => (.success, l'.kick found.1.account)
    | none => (.success, l')

def removeBanCharacter (db : Database) (name : Bytes) : Bool × Logon :=
  match l.pickCharacter db name with
  | none => (false, l)
  | some guid =>
    if guid = 0 then (false, l)
    else (true, { l with characterBanned := notBanned guid l.characterBanned })

end Logon

/-! ### Calls -/

inductive Call where
  | banAccount (mode : BanMode) (nameOrIP duration reason author : Bytes)
  | banAccountbyId (accountId : AccountId) (duration : ℤ) (reason author : Bytes)
  | removeBanAccount (mode : BanMode) (nameOrIP : Bytes)
  | banCharacter (name duration reason author : Bytes)
  | removeBanCharacter (name : Bytes)

inductive Answer where
  | ban (result : BanReturn)
  | removed (result : Bool)
  deriving DecidableEq

def execute (db : Database) (l : Logon) : ℕ × Call → Option (Answer × Logon)
  | (now, .banAccount mode nameOrIP duration reason author) =>
    (l.banAccount db now mode nameOrIP duration reason author).map fun (r, l) => (.ban r, l)
  | (now, .banAccountbyId accountId duration reason author) =>
    let (r, l) := l.banAccountbyId now accountId duration reason author
    some (.ban r, l)
  | (_, .removeBanAccount mode nameOrIP) =>
    (l.removeBanAccount db mode nameOrIP).map fun (r, l) => (.removed r, l)
  | (now, .banCharacter name duration reason author) =>
    let (r, l) := l.banCharacter db now name duration reason author
    some (.ban r, l)
  | (_, .removeBanCharacter name) =>
    let (r, l) := l.removeBanCharacter db name
    some (.removed r, l)

def next (db : Database) (l : Logon) (call : ℕ × Call) : Logon :=
  ((execute db l call).map Prod.snd).getD l

end HysteriaCore.Bans
