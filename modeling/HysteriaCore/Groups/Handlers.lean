import HysteriaCore.Groups.Group
import HysteriaCore.Lib.Runs

/-!
# What clients do to groups

The handlers of the group packets, a player who comes and goes, and the deletion
of a character. A handler's refusals that have nothing to do with the group (a
spectator, an ignored player, the other faction) are a flag of its event, and
names are resolved to guids except where the code looks them up among the
members. Groups and the players' links to them are not loaded: both calls are
commented out in the code, so the run starts without groups and a player comes
online without a link.
-/

namespace HysteriaCore.Groups
open Lib

inductive Event where
  | login (guid : ℕ) (name : String) (object : ℕ)
  | logout (guid : ℕ) (normally : Bool)
  /-- into the raid of a battleground or battlefield -/
  | enterBattle (guid : ℕ)
  | leaveBattle (guid : ℕ)
  /-- `address`: where a new group is allocated, if one is needed -/
  | invite (guid : ℕ) (target : ℕ) (allowed : Bool) (address : ℕ)
  | accept (guid : ℕ) (spectator leaderSpectator : Bool)
  | decline (guid : ℕ)
  | uninviteGuid (guid : ℕ) (target : ℕ) (inBattleground : Bool)
  | uninvite (guid : ℕ) (membername : String) (inBattleground : Bool)
  | setLeader (guid : ℕ) (target : ℕ)
  | leave (guid : ℕ) (inBattleground : Bool)
  | raidConvert (guid : ℕ) (inBattleground : Bool)
  | changeSubGroup (guid : ℕ) (target : ℕ) (groupNr : UInt8)
  | swapSubGroup (guid : ℕ) (first second : ℕ)
  | assistantLeader (guid : ℕ) (target : ℕ) (apply : Bool)
  | deleteCharacter (guid : ℕ) (address : ℕ)

namespace World
variable (w : World)

def withGroup (guid : ℕ) (f : Player → Group → World) : World :=
  match w.players.find? guid with
  | none => w
  | some p =>
    match p.getGroup.bind w.groups.find? with
    | none => w
    | some g => f p g

/-- The group an invitation is for: the inviter's own, the one he is forming, or
a new one. -/
def inviteTo (inviter : Player) (target : ℕ) (address : ℕ) : World :=
  let forming := inviter.groupInvite.bind w.groups.find?
  match inviter.ownGroup.bind w.groups.find?, forming.filter fun g => g.isLeader inviter.guid with
  | some g, _ =>
    if (!g.isLeader inviter.guid && !g.isAssistant inviter.guid) || g.isFull then w
    else (w.addInvite g.address target).getD w
  | none, some g => (w.addInvite g.address target).getD w
  | none, none =>
    (({ w with groups := w.groups.put (Group.new address) }.addLeaderInvite address inviter.guid).bind
      fun w => w.addInvite address target).getD w

def handleGroupInvite (guid target : ℕ) (allowed : Bool) (address : ℕ) : World :=
  match w.players.find? guid, w.players.find? target with
  | some inviter, some player =>
    if guid = target ∨ allowed = false then w
    else if player.ownGroup.isSome ∨ player.groupInvite.isSome then w
    else w.inviteTo inviter target address
  | _, _ => w

def handleGroupAccept (guid : ℕ) (spectator leaderSpectator : Bool) : World :=
  match (w.players.find? guid).bind fun p => p.groupInvite with
  | none => w
  | some a =>
    let w := w.removeInvite a guid
    match w.groups.find? a with
    | none => w
    | some g =>
      if spectator || g.isLeader guid || g.isFull then w
      else if g.created then w.addMember a guid
      -- the group that forms is created with its leader first
      else if w.online g.leaderGuid = false ∨ leaderSpectator = true then w.removeAllInvites a
      else (((w.removeInvite a g.leaderGuid).create a g.leaderGuid)).addMember a guid

def canUninvite (p : Player) (g : Group) (inBattleground : Bool) : Bool :=
  (g.isLeader p.guid || g.isAssistant p.guid) && !inBattleground

/-- `GetInvited`, which goes over the pointers in order: there is no result when one to a player who is gone
comes before the player. -/
def getInvited (test : Player → Bool) : List ℕ → Option (Option Player)
  | [] => some none
  | o :: invitees =>
    match w.players.rows.find? fun p => p.object = o with
    | none => none
    | some p => if test p then some (some p) else getInvited test invitees

def uninviteInvited (g : Group) (test : Player → Bool) : World :=
  match w.getInvited test (g.invitees.insertionSort (· ≤ ·)) with
  | none => { w with intact := false }
  | some none => w
  | some (some p) => w.uninviteFromGroup p.guid

def handleGroupUninviteGuid (guid target : ℕ) (inBattleground : Bool) : World :=
  if target = guid then w
  else
    w.withGroup guid fun p g =>
      if canUninvite p g inBattleground = false ∨ g.isLeader target = true then w
      else if g.isMember target then w.removeMember g.address target
      else w.uninviteInvited g fun p => p.guid = target

def handleGroupUninvite (guid : ℕ) (membername : String) (inBattleground : Bool) : World :=
  w.withGroup guid fun p g =>
    if p.name = membername ∨ canUninvite p g inBattleground = false then w
    else
      match g.getMemberGUID membername with
      | some target => w.removeMember g.address target
      | none => w.uninviteInvited g fun p => p.name = membername

def handleGroupSetLeader (guid target : ℕ) : World :=
  w.withGroup guid fun _ g =>
    match w.players.find? target with
    | none => w
    | some player =>
      if g.isLeader guid = false ∨ player.getGroup ≠ some g.address ∨ target = guid then w
      else w.changeLeader g.address target

def handleGroupDisband (guid : ℕ) (inBattleground : Bool) : World :=
  w.withGroup guid fun _ g => if inBattleground then w else w.removeMember g.address guid

def handleGroupRaidConvert (guid : ℕ) (inBattleground : Bool) : World :=
  w.withGroup guid fun _ g =>
    if inBattleground = true ∨ g.isLeader guid = false ∨ g.getMembersCount < 2 then w
    else w.updGroup g.address (fun g => g.convertToRaid) fun _ => rfl

def changeMembersGroup (a target : ℕ) (s : Fin 8) : World :=
  w.updGroup a (fun g => g.changeMembersGroup target s) fun g => g.changeMembersGroup_address target s

def handleGroupChangeSubGroup (guid target : ℕ) (groupNr : UInt8) : World :=
  w.withGroup guid fun _ g =>
    if h : groupNr.toNat < maxRaidSubgroups then
      if (!g.isLeader guid && !g.isAssistant guid) || !g.hasFreeSlotSubGroup ⟨groupNr.toNat, h⟩ then w
      else w.changeMembersGroup g.address target ⟨groupNr.toNat, h⟩
    else w

/-- Unlike a change, a swap does not ask for a free slot. -/
def handleGroupSwapSubGroup (guid first second : ℕ) : World :=
  w.withGroup guid fun _ g =>
    if g.raid = false ∨ (!g.isLeader guid && !g.isAssistant guid) = true then w
    else
      match g.getMemberSlot first, g.getMemberSlot second with
      | some m, some m' =>
        (w.changeMembersGroup g.address first m'.group).changeMembersGroup g.address second m.group
      | _, _ => w

def handleGroupAssistantLeader (guid target : ℕ) (apply : Bool) : World :=
  w.withGroup guid fun _ g =>
    if g.isLeader guid = false then w
    else
      w.updGroup g.address (fun g => g.setGroupMemberFlag target apply) fun g =>
        g.setGroupMemberFlag_address target apply

/-- The group part of `LogoutPlayer`; with the object its links end. -/
def logoutPlayer (guid : ℕ) (normally : Bool) : World :=
  let w := w.uninviteFromGroup guid
  let w := w.withGroup guid fun _ g =>
    if g.raid = false ∧ normally = true then w.removeMember g.address guid else w
  { w with players := w.players.erase guid }

def enterBattle (guid : ℕ) : World :=
  w.updPlayer guid
    (fun p =>
      if p.group = some .battle then p else { p with originalGroup := p.getGroup, group := some .battle })
    fun p => by split <;> rfl

def leaveBattle (guid : ℕ) : World :=
  w.updPlayer guid
    (fun p =>
      if p.group = some .battle then
        { p with group := p.originalGroup.map .party, originalGroup := none }
      else p)
    fun p => by split <;> rfl

def next : Event → World
  | .login guid name object =>
    { w with players := w.players.put ⟨guid, name, object, none, none, none⟩ }
  | .logout guid normally => w.logoutPlayer guid normally
  | .enterBattle guid => w.enterBattle guid
  | .leaveBattle guid => w.leaveBattle guid
  | .invite guid target allowed address => w.handleGroupInvite guid target allowed address
  | .accept guid spectator leaderSpectator => w.handleGroupAccept guid spectator leaderSpectator
  | .decline guid => w.uninviteFromGroup guid
  | .uninviteGuid guid target inBattleground => w.handleGroupUninviteGuid guid target inBattleground
  | .uninvite guid membername inBattleground => w.handleGroupUninvite guid membername inBattleground
  | .setLeader guid target => w.handleGroupSetLeader guid target
  | .leave guid inBattleground => w.handleGroupDisband guid inBattleground
  | .raidConvert guid inBattleground => w.handleGroupRaidConvert guid inBattleground
  | .changeSubGroup guid target groupNr => w.handleGroupChangeSubGroup guid target groupNr
  | .swapSubGroup guid first second => w.handleGroupSwapSubGroup guid first second
  | .assistantLeader guid target apply => w.handleGroupAssistantLeader guid target apply
  | .deleteCharacter guid address => w.removeMember address guid

def InviteesOnline : Prop := ∀ g ∈ w.groups.rows, ∀ o ∈ g.invitees, ∃ p ∈ w.players.rows, p.object = o

def possible : Event → Prop
  | .login guid _ object =>
    w.online guid = false ∧ ∀ p ∈ w.players.rows, p.object ≠ object
  | .invite _ _ _ address => w.groups.find? address = none
  | .deleteCharacter guid _ => w.online guid = false
  | _ => True

instance : (e : Event) → Decidable (w.possible e)
  | .login _ _ _ => inferInstanceAs (Decidable (_ ∧ _))
  | .invite _ _ _ _ => inferInstanceAs (Decidable (_ = _))
  | .deleteCharacter _ _ => inferInstanceAs (Decidable (_ = _))
  | .logout _ _ | .enterBattle _ | .leaveBattle _ | .accept _ _ _ | .decline _ | .uninviteGuid _ _ _
  | .uninvite _ _ _ | .setLeader _ _ | .leave _ _ | .raidConvert _ _ | .changeSubGroup _ _ _
  | .swapSubGroup _ _ _ | .assistantLeader _ _ _ => .isTrue trivial

/-- Pointers to invitees are followed only while all of them are online, and a swap needs a free slot. -/
def Careful : Event → Prop
  | .logout _ _ | .accept _ _ _ | .decline _ | .uninviteGuid _ _ _ | .uninvite _ _ _ | .leave _ _
  | .deleteCharacter _ _ => w.InviteesOnline
  | .swapSubGroup guid first second => ∀ p ∈ w.players.find? guid, ∀ g ∈ p.getGroup.bind w.groups.find?,
    ∀ m ∈ g.getMemberSlot first, ∀ m' ∈ g.getMemberSlot second,
      m.group = m'.group ∨ g.hasFreeSlotSubGroup m'.group = true
  | _ => True

instance : Decidable w.InviteesOnline :=
  inferInstanceAs (Decidable (∀ g ∈ w.groups.rows, ∀ o ∈ g.invitees, ∃ p ∈ w.players.rows, p.object = o))

instance : (e : Event) → Decidable (w.Careful e)
  | .logout _ _ | .accept _ _ _ | .decline _ | .uninviteGuid _ _ _ | .uninvite _ _ _ | .leave _ _
  | .deleteCharacter _ _ => inferInstanceAs (Decidable w.InviteesOnline)
  | .swapSubGroup guid first second => inferInstanceAs (Decidable (∀ p ∈ w.players.find? guid,
    ∀ g ∈ p.getGroup.bind w.groups.find?, ∀ m ∈ g.getMemberSlot first, ∀ m' ∈ g.getMemberSlot second,
      m.group = m'.group ∨ g.hasFreeSlotSubGroup m'.group = true))
  | .login _ _ _ | .enterBattle _ | .leaveBattle _ | .invite _ _ _ _ | .setLeader _ _ | .raidConvert _ _
  | .changeSubGroup _ _ _ | .assistantLeader _ _ _ => .isTrue trivial

def empty : World := ⟨KeyedList.empty, KeyedList.empty, true⟩

end World

def Starts (w : World) : Prop := w = World.empty

def step (w : World) (e : Event) : Option World :=
  guarded (w.possible e ∧ (w.next e).intact = true) (w.next e)

end HysteriaCore.Groups
