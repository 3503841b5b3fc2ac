import HysteriaCore.Lib.KeyedList
import HysteriaCore.Lib.Runs

/-!
# The reputations of a player

`ReputationMgr` keeps the standing and the flags of every faction that has a place in the
reputation list, and four 8-bit counters: the visible factions, and the factions that honor,
revere and exalt the player.
-/

namespace HysteriaCore.Reputation
open Lib

structure FactionEntry where
  ID : ℕ
  reputationListID : ℤ
  BaseRepRaceMask : Fin 4 → UInt32
  BaseRepClassMask : Fin 4 → UInt32
  BaseRepValue : Fin 4 → Int32
  ReputationFlags : Fin 4 → UInt32
  team : ℕ
  spilloverMaxRankIn : ℕ

structure FactionTemplateEntry where
  faction : ℕ

def FACTION_FLAG_VISIBLE : UInt8 := 0x01
def FACTION_FLAG_AT_WAR : UInt8 := 0x02
def FACTION_FLAG_HIDDEN : UInt8 := 0x04
def FACTION_FLAG_INVISIBLE_FORCED : UInt8 := 0x08
def FACTION_FLAG_PEACE_FORCED : UInt8 := 0x10
def FACTION_FLAG_INACTIVE : UInt8 := 0x20
def FACTION_FLAG_SPECIAL : UInt8 := 0x80

structure FactionState where
  repListID : ℤ
  Standing : Int32
  Flags : UInt8
  needSend : Bool
  needSave : Bool
deriving DecidableEq

def hasFlag (flags mask : UInt8) : Bool := decide (flags &&& mask ≠ 0)

inductive ReputationRank where
  | hated | hostile | unfriendly | neutral | friendly | honored | revered | exalted
deriving DecidableEq

namespace ReputationRank

def value : ReputationRank → ℕ
  | hated => 0
  | hostile => 1
  | unfriendly => 2
  | neutral => 3
  | friendly => 4
  | honored => 5
  | revered => 6
  | exalted => 7

instance : LE ReputationRank := ⟨fun a b => a.value ≤ b.value⟩
instance : LT ReputationRank := ⟨fun a b => a.value < b.value⟩
instance (a b : ReputationRank) : Decidable (a ≤ b) := inferInstanceAs (Decidable (a.value ≤ b.value))
instance (a b : ReputationRank) : Decidable (a < b) := inferInstanceAs (Decidable (a.value < b.value))

end ReputationRank

def Reputation_Cap : Int32 := 42999
def Reputation_Bottom : Int32 := -42000

def PointsInRank : List (ReputationRank × ℤ) :=
  [(.exalted, 1000), (.revered, 21000), (.honored, 12000), (.friendly, 6000), (.neutral, 3000),
    (.unfriendly, 3000), (.hostile, 3000), (.hated, 36000)]

def rankBelow (standing : ℤ) : List (ReputationRank × ℤ) → ℤ → ReputationRank
  | [], _ => .hated
  | (rank, points) :: ranks, limit =>
    if limit - points ≤ standing then rank else rankBelow standing ranks (limit - points)

def ReputationToRank (standing : Int32) : ReputationRank :=
  rankBelow standing.toInt PointsInRank (Reputation_Cap.toInt + 1)

structure SpilloverFaction where
  faction : ℕ
  spill : Int32 → Int32
  rank : ℕ

/-- The factions, the race and class of the player, and the rates, which work on `float`. -/
structure Realm where
  sFactionStore : KeyedList FactionEntry.ID
  raceMask : UInt32
  classMask : UInt32
  repSpilloverTemplate : ℕ → Option (List SpilloverFaction)
  /-- `int32(floor(standing * RATE_REPUTATION_GAIN + 0.5f))` -/
  gain : Int32 → Int32
  spillsOut : FactionEntry → Bool
  spillOut : FactionEntry → Int32 → Int32
  /-- `int32(spillOverRepOut * spilloverRateIn)`, after the rate of the giving faction if it applies -/
  spillIn : Option FactionEntry → FactionEntry → Int32 → Int32

namespace Realm
variable (realm : Realm)

def lookupEntry (id : ℕ) : Option FactionEntry := realm.sFactionStore.find? id

def getFactionTeamList (team : ℕ) : Option (List ℕ) :=
  let flist := realm.sFactionStore.rows.filter fun e => decide (e.team ≠ 0 ∧ e.team = team)
  if flist = [] then none else some (flist.map FactionEntry.ID)

def baseIndex (e : FactionEntry) : Option (Fin 4) :=
  (List.finRange 4).find? fun i =>
    (decide (e.BaseRepRaceMask i &&& realm.raceMask ≠ 0) ||
      (decide (e.BaseRepRaceMask i = 0) && decide (e.BaseRepClassMask i ≠ 0))) &&
    (decide (e.BaseRepClassMask i &&& realm.classMask ≠ 0) || decide (e.BaseRepClassMask i = 0))

def getBaseReputation (e : FactionEntry) : Int32 :=
  match realm.baseIndex e with
  | some i => e.BaseRepValue i
  | none => 0

def getDefaultStateFlags (e : FactionEntry) : UInt32 :=
  match realm.baseIndex e with
  | some i => e.ReputationFlags i
  | none => 0

def getBaseRank (e : FactionEntry) : ReputationRank := ReputationToRank (realm.getBaseReputation e)

end Realm

namespace FactionState
variable (f : FactionState)

def setAtWar (atWar : Bool) : FactionState :=
  if atWar = true ∧ hasFlag f.Flags FACTION_FLAG_PEACE_FORCED = true then f
  else if hasFlag f.Flags FACTION_FLAG_AT_WAR = atWar then f
  else
    { f with
      Flags := if atWar then f.Flags ||| FACTION_FLAG_AT_WAR else f.Flags &&& ~~~FACTION_FLAG_AT_WAR
      needSend := true
      needSave := true }

def setInactive (inactive : Bool) : FactionState :=
  if inactive = true ∧ (hasFlag f.Flags (FACTION_FLAG_INVISIBLE_FORCED ||| FACTION_FLAG_HIDDEN) = true ∨
      hasFlag f.Flags FACTION_FLAG_VISIBLE = false) then f
  else if hasFlag f.Flags FACTION_FLAG_INACTIVE = inactive then f
  else
    { f with
      Flags := if inactive then f.Flags ||| FACTION_FLAG_INACTIVE else f.Flags &&& ~~~FACTION_FLAG_INACTIVE
      needSend := true
      needSave := true }

@[simp] theorem setAtWar_repListID (atWar : Bool) : (f.setAtWar atWar).repListID = f.repListID := by
  unfold setAtWar
  split
  · rfl
  · split <;> rfl

@[simp] theorem setInactive_repListID (inactive : Bool) : (f.setInactive inactive).repListID = f.repListID := by
  unfold setInactive
  split
  · rfl
  · split <;> rfl

def setVisible : FactionState :=
  { f with Flags := f.Flags ||| FACTION_FLAG_VISIBLE, needSend := true, needSave := true }

def setStanding (standing : Int32) : FactionState :=
  { f with Standing := standing, needSend := true, needSave := true }

theorem setVisible_repListID : f.setVisible.repListID = f.repListID := rfl

theorem setStanding_repListID (standing : Int32) : (f.setStanding standing).repListID = f.repListID := rfl

def canShow : Bool :=
  !(hasFlag f.Flags (FACTION_FLAG_INVISIBLE_FORCED ||| FACTION_FLAG_HIDDEN) &&
    !hasFlag f.Flags FACTION_FLAG_SPECIAL)

end FactionState

structure ReputationMgr where
  factions : KeyedList FactionState.repListID
  visibleFactionCount : UInt8
  honoredFactionCount : UInt8
  reveredFactionCount : UInt8
  exaltedFactionCount : UInt8
  sendFactionIncreased : Bool

def countRank (rank : ReputationRank) (count : UInt8) (oldRank newRank : ReputationRank) : UInt8 :=
  let count := if rank ≤ oldRank then count - 1 else count
  if rank ≤ newRank then count + 1 else count

namespace ReputationMgr
variable (realm : Realm) (m : ReputationMgr)

def updateRankCounters (oldRank newRank : ReputationRank) : ReputationMgr :=
  { m with
    honoredFactionCount := countRank .honored m.honoredFactionCount oldRank newRank
    reveredFactionCount := countRank .revered m.reveredFactionCount oldRank newRank
    exaltedFactionCount := countRank .exalted m.exaltedFactionCount oldRank newRank }

def initializeFaction (e : FactionEntry) : ReputationMgr :=
  if e.ID ≠ 0 ∧ 0 ≤ e.reputationListID then
    let flags := (realm.getDefaultStateFlags e).toUInt8
    { m.updateRankCounters .hostile (realm.getBaseRank e) with
      visibleFactionCount :=
        if hasFlag flags FACTION_FLAG_VISIBLE then m.visibleFactionCount + 1 else m.visibleFactionCount
      factions := m.factions.put ⟨e.reputationListID, 0, flags, true, true⟩ }
  else m

def Initialize : ReputationMgr :=
  realm.sFactionStore.rows.foldl (initializeFaction realm) ⟨KeyedList.empty, 0, 0, 0, 0, false⟩

def modifyState (id : ℤ) (g : FactionState → FactionState) (hg : ∀ f, (g f).repListID = f.repListID) :
    ReputationMgr := { m with factions := m.factions.adjust id g hg }

def getReputation (e : FactionEntry) : Int32 :=
  match (if 0 ≤ e.reputationListID then m.factions.find? e.reputationListID else none) with
  | some f => realm.getBaseReputation e + f.Standing
  | none => 0

def getRank (e : FactionEntry) : ReputationRank := ReputationToRank (m.getReputation realm e)

/-- `GetReputationRank` of the player, also for a faction that there is not -/
def getReputationRank (id : ℕ) : ReputationRank :=
  match realm.lookupEntry id with
  | some e => m.getRank realm e
  | none => ReputationToRank 0

def showState (id : ℤ) : ReputationMgr :=
  match m.factions.find? id with
  | none => m
  | some f =>
    if f.canShow = false ∨ hasFlag f.Flags FACTION_FLAG_VISIBLE = true then m
    else
      { m.modifyState id FactionState.setVisible FactionState.setVisible_repListID with
        visibleFactionCount := m.visibleFactionCount + 1 }

def setVisible (e : FactionEntry) : ReputationMgr :=
  if e.reputationListID < 0 then m else m.showState e.reputationListID

def setVisibleTemplate (t : FactionTemplateEntry) : ReputationMgr :=
  if t.faction = 0 then m
  else
    match realm.lookupEntry t.faction with
    | none => m
    | some e =>
      -- factions of the opposing team are never shown
      if e.BaseRepRaceMask 1 &&& realm.raceMask ≠ 0 ∧ e.BaseRepValue 1 = Reputation_Bottom then m
      else m.setVisible e

def setAtWar (id : ℤ) (on : Bool) : ReputationMgr :=
  match m.factions.find? id with
  | none => m
  | some f =>
    if hasFlag f.Flags (FACTION_FLAG_INVISIBLE_FORCED ||| FACTION_FLAG_HIDDEN) then m
    else m.modifyState id (fun f => f.setAtWar on) fun f => f.setAtWar_repListID on

def setInactive (id : ℤ) (on : Bool) : ReputationMgr :=
  m.modifyState id (fun f => f.setInactive on) fun f => f.setInactive_repListID on

def newStanding (e : FactionEntry) (f : FactionState) (standing : Int32) (incremental : Bool) : Int32 :=
  let standing := if incremental then realm.gain standing + (f.Standing + realm.getBaseReputation e) else standing
  if Reputation_Cap < standing then Reputation_Cap
  else if standing < Reputation_Bottom then Reputation_Bottom
  else standing

def setOneFactionReputation (e : FactionEntry) (standing : Int32) (incremental : Bool) : ReputationMgr × Bool :=
  match m.factions.find? e.reputationListID with
  | none => (m, false)
  | some f =>
    let base := realm.getBaseReputation e
    let standing := newStanding realm e f standing incremental
    let oldRank := ReputationToRank (f.Standing + base)
    let newRank := ReputationToRank standing
    let m := m.modifyState e.reputationListID (fun f => f.setStanding (standing - base))
      fun f => f.setStanding_repListID (standing - base)
    let m := m.showState e.reputationListID
    let m := if newRank ≤ .hostile then
      m.modifyState e.reputationListID (fun f => f.setAtWar true) fun f => f.setAtWar_repListID true else m
    let m := if oldRank < newRank then { m with sendFactionIncreased := true } else m
    (m.updateRankCounters oldRank newRank, true)

def sendState : ReputationMgr :=
  { m with
    factions := m.factions.mapRows (fun f => { f with needSend := false }) fun _ => rfl
    sendFactionIncreased := false }

def spillTemplate (standing : Int32) (incremental : Bool) (s : ReputationMgr × Bool) (t : SpilloverFaction) :
    ReputationMgr × Bool :=
  if t.faction ≠ 0 ∧ (s.1.getReputationRank realm t.faction).value ≤ t.rank then
    match realm.lookupEntry t.faction with
    | some e => ((s.1.setOneFactionReputation realm e (t.spill standing) incremental).1, s.2)
    | none => s
  else s

def spillSister (giver : Option FactionEntry) (id : ℕ) (standing : Int32) (incremental : Bool)
    (s : ReputationMgr × Bool) (sister : ℕ) : ReputationMgr × Bool :=
  match realm.lookupEntry sister with
  | none => s
  | some e =>
    if e.ID = id ∨ e.spilloverMaxRankIn < (s.1.getRank realm e).value then s
    else
      let rep := realm.spillIn giver e standing
      if rep ≠ 0 ∨ incremental = false then s.1.setOneFactionReputation realm e rep incremental else s

def spillTeam (e : FactionEntry) (standing : Int32) (incremental : Bool) : ReputationMgr × Bool :=
  match realm.getFactionTeamList e.ID with
  | some flist => flist.foldl (spillSister realm none e.ID standing incremental) (m, false)
  | none =>
    if e.team ≠ 0 ∧ realm.spillsOut e = true then
      match realm.lookupEntry e.team with
      | none => (m, false)
      | some parent =>
        if (m.factions.find? parent.reputationListID).any fun f => hasFlag f.Flags FACTION_FLAG_SPECIAL then
          ((m.setOneFactionReputation realm parent (realm.spillOut e standing) incremental).1, false)
        else
          match realm.getFactionTeamList e.team with
          | some flist => flist.foldl (spillSister realm (some e) e.ID standing incremental) (m, false)
          | none => (m, false)
    else (m, false)

def setReputation (e : FactionEntry) (standing : Int32) (incremental spillOverOnly : Bool) :
    ReputationMgr × Bool :=
  let s := match realm.repSpilloverTemplate e.ID with
    | some template => template.foldl (spillTemplate realm standing incremental) (m, false)
    | none => m.spillTeam realm e standing incremental
  match s.1.factions.find? e.reputationListID with
  | none => s
  | some _ =>
    let s := if spillOverOnly then s else s.1.setOneFactionReputation realm e standing incremental
    (s.1.sendState, s.2)

structure Row where
  faction : ℕ
  standing : Int32
  flags : UInt16

def touch (id : ℤ) : ReputationMgr :=
  if (m.factions.find? id).isSome then m else { m with factions := m.factions.put ⟨id, 0, 0, false, false⟩ }

def loadFlags (e : FactionEntry) (flags : UInt16) : ReputationMgr :=
  let id := e.reputationListID
  let m := if hasFlag flags.toUInt8 FACTION_FLAG_VISIBLE then m.showState id else m
  let m := if hasFlag flags.toUInt8 FACTION_FLAG_INACTIVE then m.setInactive id true else m
  let m :=
    if hasFlag flags.toUInt8 FACTION_FLAG_AT_WAR then
      -- not at war with friendly hidden factions
      let on := !hasFlag flags.toUInt8 FACTION_FLAG_HIDDEN || decide (m.getRank realm e < .neutral)
      m.modifyState id (fun f => f.setAtWar on) fun f => f.setAtWar_repListID on
    else if (m.factions.find? id).any fun f => hasFlag f.Flags FACTION_FLAG_VISIBLE then
      m.modifyState id (fun f => f.setAtWar false) fun f => f.setAtWar_repListID false
    else m
  let m := if m.getRank realm e ≤ .hostile then
    m.modifyState id (fun f => f.setAtWar true) fun f => f.setAtWar_repListID true else m
  m.modifyState id (fun f => if f.Flags.toUInt16 = flags then { f with needSend := false, needSave := false } else f)
    fun f => by split <;> rfl

def loadRow (row : Row) : ReputationMgr :=
  match realm.lookupEntry row.faction with
  | none => m
  | some e =>
    if 0 ≤ e.reputationListID then
      let m := (m.touch e.reputationListID).modifyState e.reputationListID
        (fun f => { f with Standing := row.standing }) fun _ => rfl
      let m := m.updateRankCounters (realm.getBaseRank e) (ReputationToRank (realm.getBaseReputation e + row.standing))
      m.loadFlags realm e row.flags
    else m

def loadFromDB (rows : List Row) : ReputationMgr := rows.foldl (loadRow realm) (Initialize realm)

end ReputationMgr

inductive Event where
  | loadFromDB (rows : List ReputationMgr.Row)
  | setReputation (faction : ℕ) (standing : Int32) (incremental spillOverOnly : Bool)
  | setOneFactionReputation (faction : ℕ) (standing : Int32) (incremental : Bool)
  | setVisible (faction : ℕ)
  | setVisibleTemplate (t : FactionTemplateEntry)
  | setAtWar (id : ℤ) (on : Bool)
  | setInactive (id : ℤ) (on : Bool)

def step (realm : Realm) (m : ReputationMgr) : Event → Option ReputationMgr
  | .loadFromDB rows => guarded (rows.map ReputationMgr.Row.faction).Nodup (ReputationMgr.loadFromDB realm rows)
  | .setReputation faction standing incremental spillOverOnly =>
    (realm.lookupEntry faction).map fun e => (m.setReputation realm e standing incremental spillOverOnly).1
  | .setOneFactionReputation faction standing incremental =>
    (realm.lookupEntry faction).map fun e => (m.setOneFactionReputation realm e standing incremental).1
  | .setVisible faction => (realm.lookupEntry faction).map m.setVisible
  | .setVisibleTemplate t => some (m.setVisibleTemplate realm t)
  | .setAtWar id on => some (m.setAtWar id on)
  | .setInactive id on => some (m.setInactive id on)

end HysteriaCore.Reputation
