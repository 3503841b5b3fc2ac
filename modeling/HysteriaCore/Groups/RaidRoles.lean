import HysteriaCore.Groups.Group
import HysteriaCore.Lib.Runs

/-!
# The flags of a raid's members and their rows (Group.cpp, GroupHandler.cpp)

A raid group that is not a battleground's, with the flags of its member slots, and the table
`group_member`. `LoadMemberFromDB` makes the slots again from the rows.
-/

namespace HysteriaCore.Groups.Raid
open Lib

def MEMBER_FLAG_ASSISTANT : UInt8 := 0x01
def MEMBER_FLAG_MAINTANK : UInt8 := 0x02
def MEMBER_FLAG_MAINASSIST : UInt8 := 0x04

def GROUP_ASSIGN_MAINTANK : UInt8 := 0
def GROUP_ASSIGN_MAINASSIST : UInt8 := 1

structure MemberSlot where
  guid : ℕ
  group : Fin 8
  flags : UInt8
  roles : UInt8
  deriving DecidableEq

structure Row where
  guid : ℕ
  memberGuid : ℕ
  memberFlags : UInt8
  subgroup : Fin 8
  roles : UInt8
  deriving DecidableEq

structure Group where
  guid : ℕ
  leaderGuid : ℕ
  isLFGGroup : Bool
  memberSlots : KeyedList MemberSlot.guid
  subGroupsCounts : SubGroupsCounts

structure World where
  group : Option Group
  groupMember : KeyedList Row.memberGuid

namespace MemberSlot

def has (m : MemberSlot) (flag : UInt8) : Bool := m.flags &&& flag ≠ 0

def toggle (flag : UInt8) (apply : Bool) (m : MemberSlot) : MemberSlot :=
  { m with flags := if apply then m.flags ||| flag else m.flags &&& ~~~flag }

theorem toggle_guid (flag : UInt8) (apply : Bool) (m : MemberSlot) : (m.toggle flag apply).guid = m.guid := rfl

def row (guid : ℕ) (m : MemberSlot) : Row := ⟨guid, m.guid, m.flags, m.group, m.roles⟩

end MemberSlot

namespace Group
variable (g : Group)

def isLeader (guid : ℕ) : Bool := g.leaderGuid = guid

def isAssistant (guid : ℕ) : Bool :=
  (g.memberSlots.find? guid).any fun m => m.has MEMBER_FLAG_ASSISTANT

def getMembersCount : ℕ := g.memberSlots.size

def removeUniqueGroupMemberFlag (flag : UInt8) : Group :=
  { g with
    memberSlots := g.memberSlots.mapRows (fun m => if m.has flag then m.toggle flag false else m)
      fun m => by split <;> rfl }

def ensureUnique (flag : UInt8) : Group :=
  if flag = MEMBER_FLAG_MAINASSIST ∨ flag = MEMBER_FLAG_MAINTANK then g.removeUniqueGroupMemberFlag flag else g

def adjustSlot (guid : ℕ) (f : MemberSlot → MemberSlot) (hf : ∀ m, (f m).guid = m.guid) : Group :=
  { g with memberSlots := g.memberSlots.adjust guid f hf }

end Group

def updMemberFlag (rows : KeyedList Row.memberGuid) (flags : UInt8) (guid : ℕ) : KeyedList Row.memberGuid :=
  rows.adjust guid ({ · with memberFlags := flags }) fun _ => rfl

def updMemberSubgroup (rows : KeyedList Row.memberGuid) (group : Fin 8) (guid : ℕ) : KeyedList Row.memberGuid :=
  rows.adjust guid ({ · with subgroup := group }) fun _ => rfl

def delMember (rows : KeyedList Row.memberGuid) (memberGuid guid : ℕ) : KeyedList Row.memberGuid :=
  rows.filter fun r => !(r.memberGuid = memberGuid && r.guid = guid)

def delMemberAll (rows : KeyedList Row.memberGuid) (guid : ℕ) : KeyedList Row.memberGuid :=
  rows.filter fun r => r.guid ≠ guid

namespace World
variable (w : World)

def setGroupMemberFlag (g : Group) (guid : ℕ) (apply : Bool) (flag : UInt8) : World :=
  match g.memberSlots.find? guid with
  | none => { w with group := some g }
  | some _ =>
    let g := (g.ensureUnique flag).adjustSlot guid (MemberSlot.toggle flag apply)
      (MemberSlot.toggle_guid flag apply)
    ⟨some g, (g.memberSlots.find? guid).elim w.groupMember fun m =>
      updMemberFlag w.groupMember m.flags guid⟩

def handlePartyAssignment (g : Group) (sender : ℕ) (assignment : UInt8) (apply : Bool) (guid : ℕ) : World :=
  if g.isLeader sender = false ∧ g.isAssistant sender = false then w
  else if assignment = GROUP_ASSIGN_MAINASSIST then
    w.setGroupMemberFlag (g.removeUniqueGroupMemberFlag MEMBER_FLAG_MAINASSIST) guid apply
      MEMBER_FLAG_MAINASSIST
  else if assignment = GROUP_ASSIGN_MAINTANK then
    w.setGroupMemberFlag (g.removeUniqueGroupMemberFlag MEMBER_FLAG_MAINTANK) guid apply MEMBER_FLAG_MAINTANK
  else w

def handleGroupAssistantLeader (g : Group) (sender guid : ℕ) (apply : Bool) : World :=
  if g.isLeader sender then w.setGroupMemberFlag g guid apply MEMBER_FLAG_ASSISTANT else w

def changeLeader (g : Group) (newLeaderGuid : ℕ) (online : ℕ → Bool) : World :=
  if (g.memberSlots.find? newLeaderGuid).isSome ∧ online newLeaderGuid = true then
    { w with group := some { g with
        leaderGuid := newLeaderGuid
        memberSlots := g.memberSlots.adjust newLeaderGuid (MemberSlot.toggle MEMBER_FLAG_ASSISTANT false)
          (MemberSlot.toggle_guid MEMBER_FLAG_ASSISTANT false) } }
  else { w with group := some g }

def changeMembersGroup (g : Group) (guid : ℕ) (group : Fin 8) : World :=
  match g.memberSlots.find? guid with
  | none => w
  | some m =>
    if m.group = group then w
    else
      { group := some { g with
          memberSlots := g.memberSlots.adjust guid ({ · with group := group }) fun _ => rfl
          subGroupsCounts := (g.subGroupsCounts.increase group).decrease m.group }
        groupMember := updMemberSubgroup w.groupMember group guid }

def addMember (g : Group) (guid : ℕ) : World :=
  match g.subGroupsCounts.firstFree with
  | none => w
  | some subGroup =>
    let member : MemberSlot := ⟨guid, subGroup, 0, 0⟩
    { group := some { g with
        memberSlots := g.memberSlots.put member
        subGroupsCounts := g.subGroupsCounts.increase subGroup }
      groupMember := w.groupMember.put (member.row g.guid) }

def disband (g : Group) : World := ⟨none, delMemberAll w.groupMember g.guid⟩

end World

/-- What `RemoveMember` asks: the method, who is online, how many players are linked to the group
afterwards, and whether the state of the dungeon ends a group of one. -/
structure Removal where
  kick : Bool
  online : ℕ → Bool
  linked : ℕ
  lfgEnds : Bool

namespace Group

def eraseSlot (g : Group) (guid : ℕ) : Group :=
  { g with
    memberSlots := g.memberSlots.erase guid
    subGroupsCounts := match g.memberSlots.find? guid with
      | none => g.subGroupsCounts
      | some m => g.subGroupsCounts.decrease m.group }

def newLeader (g : Group) (guid : ℕ) (online : ℕ → Bool) : Option MemberSlot :=
  if g.leaderGuid = guid then g.memberSlots.rows.find? fun m => online m.guid else none

def endsAfter (g : Group) (r : Removal) : Bool :=
  (g.isLFGGroup && g.getMembersCount = 1 && r.lfgEnds) || r.linked < (if g.isLFGGroup then 1 else 2)

end Group

namespace World
variable (w : World)

def pickLeader (g : Group) (guid : ℕ) (online : ℕ → Bool) : World :=
  match g.newLeader guid online with
  | none => { w with group := some g }
  | some m => w.changeLeader g m.guid online

def removeMember (g : Group) (guid : ℕ) (r : Removal) : World :=
  if g.isLFGGroup && r.kick then w
  else if (if g.isLFGGroup then 1 else 2) < g.getMembersCount then
    let w : World := { w with groupMember := delMember w.groupMember guid g.guid }
    let g := g.eraseSlot guid
    let w := w.pickLeader g guid r.online
    if g.endsAfter r then w.disband g else w
  else w.disband g

end World

inductive Event where
  | partyAssignment (sender : ℕ) (assignment : UInt8) (apply : Bool) (guid : ℕ)
  | assistantLeader (sender guid : ℕ) (apply : Bool)
  | changeLeader (guid : ℕ) (online : ℕ → Bool)
  | changeMembersGroup (guid : ℕ) (group : Fin 8)
  | addMember (guid : ℕ)
  | removeMember (guid : ℕ) (r : Removal)

def step (w : World) (e : Event) : Option World :=
  w.group.bind fun g =>
    match e with
    | .partyAssignment sender assignment apply guid =>
      some (w.handlePartyAssignment g sender assignment apply guid)
    | .assistantLeader sender guid apply => some (w.handleGroupAssistantLeader g sender guid apply)
    | .changeLeader guid online => some (w.changeLeader g guid online)
    | .changeMembersGroup guid group => some (w.changeMembersGroup g guid group)
    | .addMember guid => guarded (g.memberSlots.find? guid = none) (w.addMember g guid)
    | .removeMember guid r => some (w.removeMember g guid r)

/-- `LoadMemberFromDB` for a row that `LoadGroups` reads, with the slots so far and the table;
`known` is `GetPlayerNameByGUID`. -/
def loadMemberFromDB (known : ℕ → Bool) (guid : ℕ) (s : List MemberSlot × KeyedList Row.memberGuid) (r : Row) :
    List MemberSlot × KeyedList Row.memberGuid :=
  if r.guid ≠ guid then s  -- of another group
  else if known r.memberGuid then (s.1 ++ [⟨r.memberGuid, r.subgroup, r.memberFlags, r.roles⟩], s.2)
  else (s.1, delMember s.2 r.memberGuid guid)

end HysteriaCore.Groups.Raid
