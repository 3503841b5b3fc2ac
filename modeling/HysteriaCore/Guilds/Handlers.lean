import HysteriaCore.Guilds.Guild
import HysteriaCore.Lib.Runs

/-!
# The guilds of a node and the requests of their players

Membership is recorded three times: among the members of the guild, in the guild
id field of the player's object, and in the global data of all characters, from
which a player who logs in takes it.
-/

namespace HysteriaCore.Guilds
open Lib

structure Player where
  guid : ℕ
  name : String
  guildId : ℕ
  guildIdInvited : ℕ
deriving DecidableEq

structure World where
  players : KeyedList Player.guid
  guilds : KeyedList Guild.id
  /-- the guild id in the global data of a character -/
  storage : ℕ → ℕ

inductive Event where
  | login (guid : ℕ) (name : String)
  | logout (guid : ℕ)
  /-- `allowed`: not ignored, and of a faction that may join -/
  | invite (guid : ℕ) (name : String) (allowed : Bool)
  | accept (guid : ℕ) (allowed : Bool)
  | decline (guid : ℕ)
  | leave (guid : ℕ)
  | remove (guid : ℕ) (name : String)
  | disband (guid : ℕ)
  | setLeader (guid : ℕ) (name : String)
  | updateMemberRank (guid : ℕ) (name : String) (demote : Bool)
  | addNewRank (guid : ℕ)
  | removeLowestRank (guid : ℕ)
  /-- `AddMember` by a charter or a game master; the name is the character's in the database -/
  | addMember (guild : ℕ) (guid : ℕ) (name : String)
  /-- `DeleteMember` by a game master or with the character -/
  | deleteMember (guid : ℕ)
  /-- `ChangeMemberRank` by a game master -/
  | changeMemberRank (guid : ℕ) (newRank : UInt8)

namespace World
variable (w : World)

/-- `SetInGuild` for a player who is online, `UpdateGlobalPlayerGuild` for one who is not. -/
def setInGuild (guid guildId : ℕ) : World :=
  { w with
    players := w.players.adjust guid (fun p => { p with guildId }) fun _ => rfl
    storage := fun x => if x = guid then guildId else w.storage x }

def getGuildById (id : ℕ) : Option Guild := w.guilds.find? id

def putGuild (g : Guild) : World := { w with guilds := w.guilds.put g }

def disband (g : Guild) : World :=
  let w := g.members.rows.foldl (fun w m => w.setInGuild m.guid 0) w
  { w with guilds := w.guilds.erase g.id }

def deleteMember (g : Guild) (guid : ℕ) : World :=
  match g.deleteMember guid with
  | none => w.disband g
  | some g' => (w.putGuild g').setInGuild guid 0

/-- The guild id that `AddMember` looks at: the player's field, or the global data when he is offline. -/
def guildIdOf (guid : ℕ) : ℕ :=
  match w.players.find? guid with
  | some p => p.guildId
  | none => w.storage guid

def addMember (g : Guild) (guid : ℕ) (name : String) : World :=
  match w.players.find? guid with
  | some p =>
    if p.guildId ≠ 0 then w
    else
      let w := (w.putGuild (g.insertMember guid p.name)).setInGuild guid g.id
      { w with players := w.players.adjust guid (fun p => { p with guildIdInvited := 0 }) fun _ => rfl }
  | none =>
    if w.storage guid ≠ 0 then w else (w.putGuild (g.insertMember guid name)).setInGuild guid g.id

def guildOf (guid : ℕ) : Option Guild :=
  (w.players.find? guid).bind fun p => if p.guildId = 0 then none else w.getGuildById p.guildId

def withGuild (guid : ℕ) (f : Guild → World) : World :=
  match w.guildOf guid with
  | none => w
  | some g => f g

def login (guid : ℕ) (name : String) : World :=
  let guildId :=
    if (w.getGuildById (w.storage guid)).any fun g => (g.getMember guid).isSome then w.storage guid else 0
  ({ w with players := w.players.put ⟨guid, name, 0, 0⟩ } : World).setInGuild guid guildId

def handleInviteMember (guid : ℕ) (name : String) (allowed : Bool) : World :=
  w.withGuild guid fun g =>
    match w.players.rows.find? fun p => p.name = name with
    | none => w
    | some invitee =>
      if allowed = false ∨ invitee.guildId ≠ 0 ∨ invitee.guildIdInvited ≠ 0 ∨
          g.hasRankRight guid rightInvite = false then w
      else
        { w with
          players := w.players.adjust invitee.guid (fun p => { p with guildIdInvited := g.id }) fun _ => rfl }

def handleGuildAccept (guid : ℕ) (allowed : Bool) : World :=
  match w.players.find? guid with
  | none => w
  | some p =>
    if p.guildId ≠ 0 then w
    else
      match w.getGuildById p.guildIdInvited with
      | none => w
      | some g => if allowed then w.addMember g guid p.name else w

def handleGuildDecline (guid : ℕ) : World :=
  match w.players.find? guid with
  | none => w
  | some _ =>
    ({ w with
      players := w.players.adjust guid (fun p => { p with guildIdInvited := 0 }) fun _ => rfl } : World).setInGuild
      guid 0

def handleLeaveMember (guid : ℕ) : World :=
  w.withGuild guid fun g =>
    if g.isLeader guid then if 1 < g.members.size then w else w.disband g
    else w.deleteMember g guid

def handleRemoveMember (guid : ℕ) (name : String) : World :=
  w.withGuild guid fun g =>
    if g.hasRankRight guid rightRemove = false then w
    else
      match g.getMemberByName name, g.getMember guid with
      | some m, some me =>
        if m.rank = guildMaster || m.isRankNotLower me.rank then w else w.deleteMember g m.guid
      | _, _ => w

def handleDisband (guid : ℕ) : World :=
  w.withGuild guid fun g => if g.isLeader guid then w.disband g else w

def next : Event → World
  | .login guid name => w.login guid name
  | .logout guid => { w with players := w.players.erase guid }
  | .invite guid name allowed => w.handleInviteMember guid name allowed
  | .accept guid allowed => w.handleGuildAccept guid allowed
  | .decline guid => w.handleGuildDecline guid
  | .leave guid => w.handleLeaveMember guid
  | .remove guid name => w.handleRemoveMember guid name
  | .disband guid => w.handleDisband guid
  | .setLeader guid name => w.withGuild guid fun g => w.putGuild (g.handleSetLeader guid name)
  | .updateMemberRank guid name demote =>
    w.withGuild guid fun g => w.putGuild (g.handleUpdateMemberRank guid name demote)
  | .addNewRank guid => w.withGuild guid fun g => w.putGuild (g.handleAddNewRank guid)
  | .removeLowestRank guid => w.withGuild guid fun g => w.putGuild (g.handleRemoveLowestRank guid)
  | .addMember guild guid name =>
    match w.getGuildById guild with
    | none => w
    | some g => w.addMember g guid name
  | .deleteMember guid =>
    match w.getGuildById (w.storage guid) with
    | none => w
    | some g => w.deleteMember g guid
  | .changeMemberRank guid newRank =>
    match w.getGuildById (w.guildIdOf guid) with
    | none => w
    | some g => w.putGuild (g.changeMemberRank guid newRank)

def possible : Event → Prop
  | .login guid _ => w.players.find? guid = none
  | _ => True

instance : (e : Event) → Decidable (w.possible e)
  | .login _ _ => inferInstanceAs (Decidable (_ = _))
  | .logout _ | .invite _ _ _ | .accept _ _ | .decline _ | .leave _ | .remove _ _ | .disband _
  | .setLeader _ _ | .updateMemberRank _ _ _ | .addNewRank _ | .removeLowestRank _ | .addMember _ _ _
  | .deleteMember _ | .changeMemberRank _ _ => .isTrue trivial

end World

def World.Loaded (ok : Guild.Tables → Prop) (allowMultipleGuildMaster : Bool) (w : World) : Prop :=
  ∀ g ∈ w.guilds, ∃ t, ok t ∧ (Guild.loadFromDB t).validate allowMultipleGuildMaster = some g

def step (w : World) (e : Event) : Option World := guarded (w.possible e) (w.next e)

end HysteriaCore.Guilds
