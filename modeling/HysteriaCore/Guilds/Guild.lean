import HysteriaCore.Lib.KeyedList
import Mathlib.Data.UInt

/-!
# A guild: its ranks, its members and its leader

Ranks are a vector, and every member stores the index of his own. The leader is
stored as a guid and once more as the rank of a member. Rights are looked up
through the rank, so that a member whose rank does not exist has every right.
-/

namespace HysteriaCore.Guilds
open Lib

def guildRanksMinCount : ℕ := 5

def guildRanksMaxCount : ℕ := 10

def guildMaster : UInt8 := 0

def officer : UInt8 := 1

/-! ### `GuildRankRights` -/

def rightEmpty : UInt32 := 0x40

def rightInvite : UInt32 := rightEmpty ||| 0x10

def rightRemove : UInt32 := rightEmpty ||| 0x20

def rightPromote : UInt32 := rightEmpty ||| 0x80

def rightDemote : UInt32 := rightEmpty ||| 0x100

def rightGchat : UInt32 := rightEmpty ||| 0x1 ||| 0x2

def rightAll : UInt32 := 0x1DF1FF

structure RankInfo where
  id : UInt8
  rights : UInt32
deriving DecidableEq

structure Member where
  guid : ℕ
  name : String
  rank : UInt8
deriving DecidableEq

namespace Member
variable (m : Member)

def isRankNotLower (rankId : UInt8) : Bool := decide (m.rank ≤ rankId)

def changeRank (rank : UInt8) : Member := { m with rank }

end Member

structure Guild where
  id : ℕ
  leaderGuid : ℕ
  ranks : List RankInfo
  members : KeyedList Member.guid

namespace Guild
variable (g : Guild)

def getRanksSize : UInt8 := UInt8.ofNat g.ranks.length

def getLowestRankId : UInt8 := g.getRanksSize - 1

def getRankInfo (rankId : UInt8) : Option RankInfo :=
  if rankId < g.getRanksSize then g.ranks[rankId.toNat]? else none

def getRankRights (rankId : UInt8) : UInt32 := ((g.getRankInfo rankId).map fun r => r.rights).getD 0

def getMember (guid : ℕ) : Option Member := g.members.find? guid

def getMemberByName (name : String) : Option Member := g.members.rows.find? fun m => m.name = name

def hasRankRight (guid : ℕ) (right : UInt32) : Bool :=
  (g.getMember guid).any fun m => decide (g.getRankRights m.rank &&& right ≠ rightEmpty)

def isLeader (guid : ℕ) : Bool :=
  decide (guid = g.leaderGuid) || (g.getMember guid).any fun m => decide (m.rank = guildMaster)

def changeRank (guid : ℕ) (rank : UInt8) : Guild :=
  { g with members := g.members.adjust guid (fun m => m.changeRank rank) fun _ => rfl }

def setLeaderGUID (guid : ℕ) : Guild := { g with leaderGuid := guid }.changeRank guid guildMaster

/-- The member part of `AddMember`: the lowest rank, and in the place of an older entry. -/
def insertMember (guid : ℕ) (name : String) : Guild :=
  { g with members := g.members.put ⟨guid, name, g.getLowestRankId⟩ }

def eraseMember (guid : ℕ) : Guild := { g with members := g.members.erase guid }

def betterHeir (leader : ℕ) (best : Option Member) (m : Member) : Option Member :=
  if m.guid = leader then best
  else
    match best with
    | none => some m
    | some b => if m.rank < b.rank then some m else best

def heir (leader : ℕ) : Option Member := g.members.rows.foldl (betterHeir leader) none

/-- `DeleteMember`, without the disbanding and the player: none when nobody is left to lead. -/
def deleteMember (guid : ℕ) : Option Guild :=
  if g.leaderGuid = guid then
    (g.heir guid).map fun m => (g.setLeaderGUID m.guid).eraseMember guid
  else some (g.eraseMember guid)

def createRank (rights : UInt32) : Guild :=
  if guildRanksMaxCount ≤ g.getRanksSize.toNat then g
  else { g with ranks := g.ranks ++ [⟨g.getRanksSize, rights⟩] }

def createDefaultGuildRanks : Guild :=
  ((((g.createRank rightAll).createRank rightAll).createRank rightGchat).createRank rightGchat).createRank
    rightGchat

/-! ### Requests about ranks and the leader -/

def handleSetLeader (sender : ℕ) (name : String) : Guild :=
  if g.isLeader sender = false then g
  else
    match g.getMember sender, g.getMemberByName name with
    | some _, some new => (g.setLeaderGUID new.guid).changeRank sender officer
    | _, _ => g

def handleUpdateMemberRank (sender : ℕ) (name : String) (demote : Bool) : Guild :=
  if g.hasRankRight sender (if demote then rightDemote else rightPromote) = false then g
  else
    match g.getMemberByName name, g.getMember sender with
    | some m, some me =>
      if m.guid = sender then g
      else if demote then
        if m.isRankNotLower me.rank || decide (g.getLowestRankId ≤ m.rank) then g
        else g.changeRank m.guid (m.rank + 1)
      else if m.isRankNotLower (me.rank + 1) then g
      else g.changeRank m.guid (m.rank - 1)
    | _, _ => g

def changeMemberRank (guid : ℕ) (newRank : UInt8) : Guild :=
  if newRank ≤ g.getLowestRankId then g.changeRank guid newRank else g

def handleAddNewRank (sender : ℕ) : Guild :=
  if guildRanksMaxCount ≤ g.getRanksSize.toNat ∨ g.isLeader sender = false then g
  else g.createRank rightGchat

def mayRemoveRank (sender : ℕ) : Bool :=
  decide (guildRanksMinCount < g.getRanksSize.toNat) && decide (g.getLowestRankId < g.getRanksSize) &&
    g.isLeader sender

def handleRemoveLowestRank (sender : ℕ) : Guild :=
  if g.mayRemoveRank sender then { g with ranks := g.ranks.dropLast } else g

/-! ### Loading -/

/-- A row of the member table, joined with the character it is about. -/
structure MemberRow where
  guid : ℕ
  rank : UInt8
  name : String
  level : UInt8
  playerClass : UInt8

def MemberRow.checkStats (r : MemberRow) : Bool :=
  decide (1 ≤ r.level) && decide (1 ≤ r.playerClass) && decide (r.playerClass < 12)

def loadRank (id : UInt8) (rights : UInt32) : RankInfo :=
  ⟨id, if id = guildMaster then rights ||| rightAll else rights⟩

/-- The tables of one guild: its own row, its ranks and its members. -/
structure Tables where
  id : ℕ
  leaderGuid : ℕ
  ranks : List (UInt8 × UInt32)
  members : List MemberRow

def loadMember (members : KeyedList Member.guid) (r : MemberRow) : KeyedList Member.guid :=
  if r.checkStats then members.put ⟨r.guid, r.name, r.rank⟩ else members

def loadFromDB (t : Tables) : Guild where
  id := t.id
  leaderGuid := t.leaderGuid
  ranks := t.ranks.map fun r => loadRank r.1 r.2
  members := t.members.foldl loadMember KeyedList.empty

/-- The rank check of `Validate`: as many ranks as it counts, each with its own index. -/
def ranksAccepted : Bool :=
  decide (guildRanksMinCount ≤ g.getRanksSize.toNat) &&
    decide (g.getRanksSize.toNat ≤ guildRanksMaxCount) &&
    (List.range g.getRanksSize.toNat).all fun i => (g.ranks[i]?).any fun r => decide (r.id.toNat = i)

def repairRanks : Guild :=
  if g.ranksAccepted then g else { g with ranks := [] }.createDefaultGuildRanks

def repairMemberRanks : Guild :=
  { g with
    members := g.members.mapRows
      (fun m => if g.getRanksSize < m.rank then m.changeRank g.getLowestRankId else m)
      fun m => by split <;> rfl }

def repairLeader : Option Guild :=
  match g.getMember g.leaderGuid with
  | none => g.deleteMember g.leaderGuid
  | some m => if m.rank = guildMaster then some g else some (g.setLeaderGUID m.guid)

def repairMasters : Guild :=
  { g with
    members := g.members.mapRows
      (fun m => if m.rank = guildMaster ∧ m.guid ≠ g.leaderGuid then m.changeRank officer else m)
      fun m => by split <;> rfl }

def validate (allowMultipleGuildMaster : Bool) : Option Guild :=
  g.repairRanks.repairMemberRanks.repairLeader.map fun g =>
    if allowMultipleGuildMaster then g else g.repairMasters

end Guild

end HysteriaCore.Guilds
