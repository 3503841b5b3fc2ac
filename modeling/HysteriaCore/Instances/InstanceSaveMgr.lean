import HysteriaCore.Lib.KeyedList
import HysteriaCore.Lib.Words

/-!
# Instance saves and the binds to them

A save lists the players that are bound to it; a player has a bind for each map and difficulty. Saves are
deleted with the last player, unless their map is loaded or a loop over them holds the lock.
-/

namespace HysteriaCore.Instances
open Lib

structure InstanceSave where
  m_instanceid : ℕ
  m_mapid : ℕ
  m_difficulty : ℕ
  m_canReset : Bool
  m_playerList : List ℕ
deriving DecidableEq

/-- `InstancePlayerBind`, under the guid of the player, the difficulty and the map -/
structure Bind where
  guid : ℕ
  difficulty : ℕ
  mapid : ℕ
  save : ℕ
  perm : Bool
  extended : Bool
deriving DecidableEq

def Bind.key (b : Bind) : ℕ × ℕ × ℕ := (b.guid, b.difficulty, b.mapid)

/-- A delete of a save, with its list and the players whose binds refer to it at that moment -/
structure Deletion where
  instanceId : ℕ
  playerList : List ℕ
  bound : List ℕ
deriving DecidableEq

abbrev Saves := KeyedList InstanceSave.m_instanceid
abbrev Binds := KeyedList Bind.key

structure InstanceSaveManager where
  saves : Saves
  binds : Binds
  /-- the players with an entry in `playerBindStorage` -/
  storage : List ℕ
  lock_instLists : Bool
  deletions : List Deletion

structure MapStore where
  lookupEntry : ℕ → Option Bool
  /-- `GetMapDifficultyData` of a map and a difficulty -/
  hasMapDifficulty : ℕ → ℕ → Bool

def MapStore.downscaled (store : MapStore) (mapid difficulty : ℕ) : Option ℕ :=
  if store.hasMapDifficulty mapid difficulty then some difficulty
  else
    let lower := subU32 difficulty (if 1 < difficulty then 2 else 1)
    if store.hasMapDifficulty mapid lower then some lower
    else if store.hasMapDifficulty mapid (subU32 lower 1) then some (subU32 lower 1)
    else none

def fixedDifficulty (mapid difficulty : ℕ) : ℕ := if mapid = 631 ∨ mapid = 724 then difficulty % 2 else difficulty

namespace InstanceSave
variable (s : InstanceSave)

def addPlayer (guid : ℕ) : InstanceSave := { s with m_playerList := s.m_playerList ++ [guid] }

def removePlayer (guid : ℕ) : InstanceSave :=
  { s with m_playerList := s.m_playerList.filter fun g => decide (g ≠ guid) }

def lockReset (permanent : Bool) : InstanceSave := { s with m_canReset := s.m_canReset && !permanent }

@[simp] theorem addPlayer_id (guid : ℕ) : (s.addPlayer guid).m_instanceid = s.m_instanceid := rfl

@[simp] theorem removePlayer_id (guid : ℕ) : (s.removePlayer guid).m_instanceid = s.m_instanceid := rfl

@[simp] theorem lockReset_id (permanent : Bool) : (s.lockReset permanent).m_instanceid = s.m_instanceid := rfl

end InstanceSave

namespace InstanceSaveManager
variable (store : MapStore) (loaded : ℕ → Bool) (m : InstanceSaveManager)

def addInstanceSave (mapId instanceId difficulty : ℕ) : InstanceSaveManager :=
  match store.lookupEntry mapId with
  | none => m
  | some isRaid =>
    if instanceId = 0 ∨ (if isRaid then 4 else 3) ≤ difficulty then m
    else { m with saves := m.saves.put ⟨instanceId, mapId, fixedDifficulty mapId difficulty, true, []⟩ }

def delete (s : InstanceSave) : InstanceSaveManager :=
  { m with
    saves := m.saves.erase s.m_instanceid
    deletions := m.deletions ++ [⟨s.m_instanceid, s.m_playerList,
      (m.binds.rows.filter fun b => decide (b.save = s.m_instanceid)).map Bind.guid⟩] }

def deleteInstanceSaveIfNeeded (skipMapCheck : Bool) (instanceId : ℕ) : InstanceSaveManager :=
  match m.saves.find? instanceId with
  | none => m
  | some s =>
    if m.lock_instLists = false ∧ s.m_playerList = [] ∧ (skipMapCheck || !loaded instanceId) = true
    then m.delete s else m

def addPlayer (instanceId guid : ℕ) : InstanceSaveManager :=
  { m with saves := m.saves.adjust instanceId (fun s => s.addPlayer guid) fun s => s.addPlayer_id guid }

def removePlayer (instanceId guid : ℕ) : InstanceSaveManager :=
  deleteInstanceSaveIfNeeded loaded
    { m with saves := m.saves.adjust instanceId (fun s => s.removePlayer guid) fun s => s.removePlayer_id guid }
    false instanceId

def playerCreateBoundInstancesMaps (guid : ℕ) : InstanceSaveManager :=
  if guid ∈ m.storage then m else { m with storage := m.storage ++ [guid] }

def lockReset (instanceId : ℕ) (permanent : Bool) : InstanceSaveManager :=
  { m with saves := m.saves.adjust instanceId (fun s => s.lockReset permanent) fun s => s.lockReset_id permanent }

structure Row where
  guid : ℕ
  instance_ : ℕ
  permanent : Bool
  extended : Bool

def loadBind (r : Row) : InstanceSaveManager :=
  match m.saves.find? r.instance_ with
  | none => m
  | some s =>
    let m := m.playerCreateBoundInstancesMaps r.guid
    let bind (m : InstanceSaveManager) : InstanceSaveManager :=
      ({ m with binds := m.binds.put ⟨r.guid, s.m_difficulty, s.m_mapid, r.instance_, r.permanent, r.extended⟩ }.addPlayer
        r.instance_ r.guid).lockReset r.instance_ r.permanent
    match m.binds.find? (r.guid, s.m_difficulty, s.m_mapid) with
    | none => bind m
    | some b => if b.perm then m else bind (m.removePlayer loaded b.save r.guid)

def loadCharacterBinds (rows : List Row) : InstanceSaveManager :=
  { rows.foldl (loadBind loaded) { m with lock_instLists := true } with lock_instLists := false }

/-- Without an entry in the storage, without the save, and when a permanent bind would become a temporary
one, the server stops. -/
def playerBindToInstance (guid instanceId : ℕ) (permanent : Bool) : Option InstanceSaveManager :=
  match m.saves.find? instanceId with
  | none => none
  | some s =>
    if guid ∉ m.storage then none
    else
      match m.binds.find? (guid, s.m_difficulty, s.m_mapid) with
      | none =>
        let m := (m.addPlayer instanceId guid).lockReset instanceId permanent
        some { m with binds := m.binds.put ⟨guid, s.m_difficulty, s.m_mapid, instanceId, permanent, false⟩ }
      | some b =>
        if b.perm = true ∧ permanent = false then none
        else
          let extended := if instanceId ≠ b.save ∨ permanent ≠ b.perm then false else b.extended
          let m := if b.save ≠ instanceId
            then (m.removePlayer loaded b.save guid).addPlayer instanceId guid else m
          let m := m.lockReset instanceId permanent
          some { m with binds := m.binds.put ⟨guid, s.m_difficulty, s.m_mapid, instanceId, permanent, extended⟩ }

def playerUnbindInstance (guid mapid difficulty : ℕ) : Option InstanceSaveManager :=
  if guid ∉ m.storage then none
  else
    match m.binds.find? (guid, difficulty, mapid) with
    | none => some m
    | some b => some (removePlayer loaded { m with binds := m.binds.erase b.key } b.save guid)

def setExtended (key : ℕ × ℕ × ℕ) (extended : Bool) : InstanceSaveManager :=
  { m with binds := m.binds.adjust key (fun b => { b with extended := extended }) fun _ => rfl }

def playerUnbindInstanceNotExtended (guid mapid difficulty : ℕ) : Option InstanceSaveManager :=
  if guid ∉ m.storage then none
  else
    match m.binds.find? (guid, difficulty, mapid) with
    | none => some m
    | some b =>
      if b.extended then some (m.setExtended b.key false)
      else some (removePlayer loaded { m with binds := m.binds.erase b.key } b.save guid)

def playerGetBoundInstance (guid mapid difficulty : ℕ) : Option Bind :=
  match store.downscaled mapid (fixedDifficulty mapid difficulty) with
  | none => none
  | some d => m.binds.find? (guid, d, mapid)

def playerGetBoundInstances (guid difficulty : ℕ) : List Bind :=
  m.binds.rows.filter fun b => decide (b.guid = guid ∧ b.difficulty = difficulty)

def difficulties : List ℕ := [0, 1, 2, 3]

def copyBinds (source target : ℕ) : Option InstanceSaveManager :=
  if source = target then some m
  else difficulties.foldlM (fun m d => (m.playerGetBoundInstances source d).foldlM (fun m b =>
    if (m.playerGetBoundInstance store target b.mapid d).isNone then m.playerBindToInstance loaded target b.save false
    else some m) m) m

/-- There is no result when the list that the loop reads is of a save that is deleted. -/
def unbindAllFor (instanceId : ℕ) : ℕ → InstanceSaveManager → Option InstanceSaveManager
  | 0, _ => none
  | fuel + 1, m =>
    match m.saves.find? instanceId with
    | none => none
    | some s =>
      match s.m_playerList with
      | [] => some m
      | guid :: _ => (m.playerUnbindInstance loaded guid s.m_mapid s.m_difficulty).bind (unbindAllFor instanceId fuel)

/-- `_ResetSave`; what an unbinding takes off the list is the current entry. -/
def resetSave (instanceId : ℕ) : Option InstanceSaveManager :=
  match m.saves.find? instanceId with
  | none => some m
  | some s =>
    (s.m_playerList.foldlM
      (fun (m : InstanceSaveManager) guid => m.playerUnbindInstanceNotExtended loaded guid s.m_mapid s.m_difficulty)
      { m with lock_instLists := true }).map fun m =>
        let m := match m.saves.find? instanceId with
          | some s => if s.m_playerList = [] then m.delete s else m
          | none => m
        { m with lock_instLists := false }

def resetAll (mapid difficulty : ℕ) : Option InstanceSaveManager :=
  ((m.saves.rows.filter fun s => decide (s.m_mapid = mapid ∧ s.m_difficulty = difficulty)).map
    InstanceSave.m_instanceid).foldlM (fun m id => m.resetSave loaded id) m

end InstanceSaveManager

/-- Calls from outside; each with the maps that are loaded then. -/
inductive Call where
  | addInstanceSave (mapId instanceId difficulty : ℕ)
  | playerCreateBoundInstancesMaps (guid : ℕ)
  | playerBindToInstance (loaded : ℕ → Bool) (guid instanceId : ℕ) (permanent : Bool)
  | playerUnbindInstance (loaded : ℕ → Bool) (guid mapid difficulty : ℕ)
  | copyBinds (loaded : ℕ → Bool) (source target : ℕ)
  | unbindAllFor (loaded : ℕ → Bool) (instanceId fuel : ℕ)
  | deleteInstanceSaveIfNeeded (loaded : ℕ → Bool) (instanceId : ℕ) (skipMapCheck : Bool)
  | resetAll (loaded : ℕ → Bool) (mapid difficulty : ℕ)
  /-- of a player who wants to keep an instance, or no longer -/
  | setExtended (guid difficulty mapid : ℕ) (extended : Bool)

namespace InstanceSaveManager

def step (store : MapStore) (m : InstanceSaveManager) : Call → Option InstanceSaveManager
  | .addInstanceSave mapId instanceId difficulty =>
    if (m.saves.find? instanceId).isSome then none else some (m.addInstanceSave store mapId instanceId difficulty)
  | .playerCreateBoundInstancesMaps guid => some (m.playerCreateBoundInstancesMaps guid)
  | .playerBindToInstance loaded guid instanceId permanent =>
    m.playerBindToInstance loaded guid instanceId permanent
  | .playerUnbindInstance loaded guid mapid difficulty => m.playerUnbindInstance loaded guid mapid difficulty
  | .copyBinds loaded source target => m.copyBinds store loaded source target
  | .unbindAllFor loaded instanceId fuel => unbindAllFor loaded instanceId fuel m
  | .deleteInstanceSaveIfNeeded loaded instanceId skipMapCheck =>
    some (m.deleteInstanceSaveIfNeeded loaded skipMapCheck instanceId)
  | .resetAll loaded mapid difficulty => m.resetAll loaded mapid difficulty
  | .setExtended guid difficulty mapid extended => some (m.setExtended (guid, difficulty, mapid) extended)

/-- The save outlives that the player is taken off its list. -/
def Stays (loaded : ℕ → Bool) (m : InstanceSaveManager) (instanceId guid : ℕ) : Prop :=
  loaded instanceId = true ∨ ∃ s ∈ m.saves.find? instanceId, ∃ g ∈ s.m_playerList, g ≠ guid

instance (loaded : ℕ → Bool) (m : InstanceSaveManager) (instanceId guid : ℕ) : Decidable (m.Stays loaded instanceId guid) :=
  inferInstanceAs (Decidable (_ ∨ ∃ s ∈ _, _))

/-- A bind is moved only off a save that stays, and all players are unbound only where the save stays or
nobody is bound. -/
def Careful (store : MapStore) (m : InstanceSaveManager) : Call → Prop
  | .playerBindToInstance loaded guid instanceId _ => ∀ s ∈ m.saves.find? instanceId,
    ∀ b ∈ m.binds.find? (guid, s.m_difficulty, s.m_mapid), b.save = instanceId ∨ m.Stays loaded b.save guid
  | .copyBinds _ source target => ∀ b ∈ m.binds, b.guid = source →
    ∀ b' ∈ m.binds.find? (target, b.difficulty, b.mapid), b'.save = b.save ∨
      (m.playerGetBoundInstance store target b.mapid b.difficulty).isSome = true
  | .unbindAllFor loaded instanceId _ => ∃ s ∈ m.saves.find? instanceId,
    loaded instanceId = true ∨ s.m_playerList = []
  | _ => True

instance (store : MapStore) (m : InstanceSaveManager) : ∀ c, Decidable (m.Careful store c)
  | .playerBindToInstance loaded guid instanceId _ => inferInstanceAs (Decidable (∀ s ∈ m.saves.find? instanceId,
    ∀ b ∈ m.binds.find? (guid, s.m_difficulty, s.m_mapid), b.save = instanceId ∨ m.Stays loaded b.save guid))
  | .copyBinds _ source target => inferInstanceAs (Decidable (∀ b ∈ m.binds.rows, b.guid = source →
    ∀ b' ∈ m.binds.find? (target, b.difficulty, b.mapid), b'.save = b.save ∨
      (m.playerGetBoundInstance store target b.mapid b.difficulty).isSome = true))
  | .unbindAllFor loaded instanceId _ => inferInstanceAs (Decidable (∃ s ∈ m.saves.find? instanceId,
    loaded instanceId = true ∨ s.m_playerList = []))
  | .addInstanceSave .. | .playerCreateBoundInstancesMaps .. | .playerUnbindInstance ..
  | .deleteInstanceSaveIfNeeded .. | .resetAll .. | .setExtended .. => isTrue trivial

def loadInstanceSaves (store : MapStore) (rows : List (ℕ × ℕ × ℕ)) : InstanceSaveManager :=
  rows.foldl (fun m r => m.addInstanceSave store r.1 r.2.1 r.2.2) ⟨KeyedList.empty, KeyedList.empty, [], false, []⟩

def Loaded (store : MapStore) (m : InstanceSaveManager) : Prop :=
  ∃ saves : List (ℕ × ℕ × ℕ), (saves.map fun r => r.2.1).Nodup ∧
    ∃ loaded rows, m = (loadInstanceSaves store saves).loadCharacterBinds loaded rows

end InstanceSaveManager

end HysteriaCore.Instances
