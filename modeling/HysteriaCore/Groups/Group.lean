import HysteriaCore.Lib.KeyedList
import Mathlib.Data.UInt

/-!
# Groups and the players linked to them

The party and raid groups of one node. A group keeps its member slots, the
counters of its sub groups (allocated when it becomes a raid) and the players it
has invited; an online player is linked to his group, to the group he had before
he entered a battleground or battlefield raid, and to the group whose invitation
is pending. The raids of battlegrounds and battlefields are made by those
systems; of a player in one only that fact is kept.
-/

namespace HysteriaCore.Groups
open Lib

def maxGroupSize : ℕ := 5

def maxRaidSize : ℕ := 40

def maxRaidSubgroups : ℕ := 8

structure MemberSlot where
  guid : ℕ
  name : String
  group : Fin 8
  assistant : Bool
deriving DecidableEq

abbrev SubGroupsCounts := Fin 8 → UInt8

structure Group where
  /-- where the object lives; the players' links are pointers to it -/
  address : ℕ
  /-- `IsCreated`: a group gets its guid when the first invitation is accepted -/
  created : Bool
  leaderGuid : ℕ
  raid : Bool
  memberSlots : List MemberSlot
  subGroupsCounts : Option SubGroupsCounts
  invitees : List ℕ

namespace Group
variable (g : Group)

def new (address : ℕ) : Group :=
  { address, created := false, leaderGuid := 0, raid := false, memberSlots := [],
    subGroupsCounts := none, invitees := [] }

def isLeader (guid : ℕ) : Bool := decide (g.leaderGuid = guid)

def getMemberSlot (guid : ℕ) : Option MemberSlot := g.memberSlots.find? fun m => m.guid = guid

def isMember (guid : ℕ) : Bool := (g.getMemberSlot guid).isSome

def isAssistant (guid : ℕ) : Bool := (g.getMemberSlot guid).any fun m => m.assistant

def getMemberGUID (name : String) : Option ℕ :=
  (g.memberSlots.find? fun m => m.name = name).map fun m => m.guid

def getMembersCount : ℕ := g.memberSlots.length

def isFull : Bool :=
  if g.raid then decide (maxRaidSize ≤ g.getMembersCount)
  else decide (maxGroupSize ≤ g.getMembersCount)

def hasFreeSlotSubGroup (subgroup : Fin 8) : Bool :=
  g.subGroupsCounts.any fun c => decide ((c subgroup).toNat < maxGroupSize)

end Group

namespace SubGroupsCounts

def increase (c : SubGroupsCounts) (subgroup : Fin 8) : SubGroupsCounts :=
  fun s => if s = subgroup then c s + 1 else c s

def decrease (c : SubGroupsCounts) (subgroup : Fin 8) : SubGroupsCounts :=
  fun s => if s = subgroup then c s - 1 else c s

def firstFree (c : SubGroupsCounts) : Option (Fin 8) :=
  (List.finRange 8).find? fun s => decide ((c s).toNat < maxGroupSize)

end SubGroupsCounts

namespace Group
variable (g : Group)

def initRaidSubGroupsCounter : SubGroupsCounts :=
  g.memberSlots.foldl (fun c m => SubGroupsCounts.increase c m.group) fun _ => 0

def convertToRaid : Group :=
  { g with raid := true, subGroupsCounts := some g.initRaidSubGroupsCounter }

def subGroupForNew : Option (Fin 8) :=
  match g.subGroupsCounts with
  | none => some 0
  | some c => SubGroupsCounts.firstFree c

def pushSlot (guid : ℕ) (name : String) (subGroup : Fin 8) : Group :=
  { g with
    memberSlots := g.memberSlots ++ [⟨guid, name, subGroup, false⟩]
    subGroupsCounts := g.subGroupsCounts.map fun c => SubGroupsCounts.increase c subGroup }

def eraseSlot (guid : ℕ) : Group :=
  match g.getMemberSlot guid with
  | none => g
  | some m =>
    { g with
      memberSlots := g.memberSlots.eraseP fun m => m.guid = guid
      subGroupsCounts := g.subGroupsCounts.map fun c => SubGroupsCounts.decrease c m.group }

def setSlot (guid : ℕ) (f : MemberSlot → MemberSlot) : List MemberSlot → List MemberSlot
  | [] => []
  | m :: ms => if m.guid = guid then f m :: ms else m :: setSlot guid f ms

def changeMembersGroup (guid : ℕ) (group : Fin 8) : Group :=
  if g.raid = false then g
  else
    match g.getMemberSlot guid with
    | none => g
    | some m =>
      if m.group = group then g
      else
        { g with
          memberSlots := setSlot guid (fun m => { m with group }) g.memberSlots
          subGroupsCounts := g.subGroupsCounts.map fun c =>
            SubGroupsCounts.decrease (SubGroupsCounts.increase c group) m.group }

def setGroupMemberFlag (guid : ℕ) (apply : Bool) : Group :=
  if g.raid = false then g
  else { g with memberSlots := setSlot guid (fun m => { m with assistant := apply }) g.memberSlots }

end Group

inductive GroupLink where
  /-- the raid of a battleground or of a battlefield -/
  | battle
  | party (address : ℕ)
deriving DecidableEq

structure Player where
  guid : ℕ
  name : String
  /-- where the object lives; invitee lists are pointers to it -/
  object : ℕ
  group : Option GroupLink
  originalGroup : Option ℕ
  groupInvite : Option ℕ
deriving DecidableEq

namespace Player
variable (p : Player)

/-- `GetGroup`, or `GetOriginalGroup` when the group is a battleground's or a battlefield's. -/
def ownGroup : Option ℕ :=
  match p.group with
  | none => none
  | some .battle => p.originalGroup
  | some (.party a) => some a

def getGroup : Option ℕ :=
  match p.group with
  | some (.party a) => some a
  | _ => none

def links (a : ℕ) : ℕ :=
  (if p.group = some (.party a) then 1 else 0) + (if p.originalGroup = some a then 1 else 0)

def link (a : ℕ) : Player :=
  if p.group.isSome then { p with groupInvite := none, originalGroup := some a }
  else { p with groupInvite := none, group := some (.party a) }

def unlink (a : ℕ) : Player :=
  if p.originalGroup = some a then { p with originalGroup := none } else { p with group := none }

/-- `GroupRefManager` of a group that is deleted: what still refers to it is unlinked. -/
def forget (a : ℕ) : Player :=
  { p with
    group := if p.group = some (.party a) then none else p.group
    originalGroup := if p.originalGroup = some a then none else p.originalGroup }

end Player

structure World where
  players : KeyedList Player.guid
  groups : KeyedList Group.address
  /-- no pointer to a player who is gone has been followed; not data of the server -/
  intact : Bool

namespace World
variable (w : World)

def updPlayer (guid : ℕ) (f : Player → Player) (hf : ∀ p, (f p).guid = p.guid) : World :=
  { w with players := w.players.adjust guid f hf }

def updGroup (a : ℕ) (f : Group → Group) (hf : ∀ g, (f g).address = g.address) : World :=
  { w with groups := w.groups.adjust a f hf }

def online (guid : ℕ) : Bool := (w.players.find? guid).isSome

def memberMgrSize (a : ℕ) : ℕ := (w.players.rows.map fun p => p.links a).sum

/-- `RemoveInvite`: the caller's player may be invited by another group. -/
def removeInvite (a : ℕ) (guid : ℕ) : World :=
  match w.players.find? guid with
  | none => w
  | some p =>
    (w.updGroup a (fun g => { g with invitees := g.invitees.filter fun o => decide (o ≠ p.object) })
      fun _ => rfl).updPlayer guid (fun p => { p with groupInvite := none }) fun _ => rfl

def removeAllInvites (a : ℕ) : World :=
  match w.groups.find? a with
  | none => w
  | some g =>
    { w with
      players := w.players.mapRows
        (fun p => if p.object ∈ g.invitees then { p with groupInvite := none } else p)
        fun p => by split <;> rfl
      groups := w.groups.adjust a (fun g => { g with invitees := [] }) fun _ => rfl
      intact := w.intact && g.invitees.all fun o => w.players.rows.any fun p => decide (p.object = o) }

/-- `delete group`: the references to it become invalid with it. -/
def deleteGroup (a : ℕ) : World :=
  { w with
    players := w.players.mapRows (fun p => p.forget a) fun _ => rfl
    groups := w.groups.erase a }

end World

theorem Player.unlink_guid (p : Player) (a : ℕ) : (p.unlink a).guid = p.guid := by
  unfold unlink
  split <;> rfl

theorem Player.link_guid (p : Player) (a : ℕ) : (p.link a).guid = p.guid := by
  unfold link
  split <;> rfl

theorem Group.pushSlot_address (g : Group) (guid : ℕ) (name : String) (s : Fin 8) :
    (g.pushSlot guid name s).address = g.address := rfl

theorem Group.eraseSlot_address (g : Group) (guid : ℕ) : (g.eraseSlot guid).address = g.address := by
  unfold eraseSlot
  split <;> rfl

theorem Group.changeMembersGroup_address (g : Group) (guid : ℕ) (s : Fin 8) :
    (g.changeMembersGroup guid s).address = g.address := by
  unfold changeMembersGroup
  repeat' split
  all_goals rfl

theorem Group.setGroupMemberFlag_address (g : Group) (guid : ℕ) (apply : Bool) :
    (g.setGroupMemberFlag guid apply).address = g.address := by
  unfold setGroupMemberFlag
  split <;> rfl

namespace World
variable (w : World)

def addInvite (a : ℕ) (guid : ℕ) : Option World :=
  match w.players.find? guid with
  | none => none
  | some p =>
    if p.groupInvite.isSome ∨ p.ownGroup.isSome then none
    else
      some ((w.updGroup a (fun g => { g with invitees := g.invitees ++ [p.object] })
        fun _ => rfl).updPlayer guid (fun p => { p with groupInvite := some a }) fun _ => rfl)

def addLeaderInvite (a : ℕ) (guid : ℕ) : Option World :=
  (w.addInvite a guid).map fun w => w.updGroup a (fun g => { g with leaderGuid := guid }) fun _ => rfl

/-- `AddMember`: false and nothing done when a raid has no free sub group. -/
def addMember (a : ℕ) (guid : ℕ) : World :=
  match w.groups.find? a, w.players.find? guid with
  | some g, some p =>
    match g.subGroupForNew with
    | none => w
    | some s =>
      (w.updGroup a (fun g => g.pushSlot guid p.name s) fun g => g.pushSlot_address guid p.name s).updPlayer
        guid (fun p => p.link a) fun p => p.link_guid a
  | _, _ => w

def create (a : ℕ) (leader : ℕ) : World :=
  (w.updGroup a (fun g => { g with created := true, leaderGuid := leader }) fun _ => rfl).addMember a leader

def unlinkMembers (a : ℕ) (slots : List MemberSlot) : World :=
  slots.foldl (fun w m => w.updPlayer m.guid (fun p => p.unlink a) fun p => p.unlink_guid a) w

def disband (a : ℕ) : World :=
  match w.groups.find? a with
  | none => w
  | some g => ((w.unlinkMembers a g.memberSlots).removeAllInvites a).deleteGroup a

/-- `ChangeLeader`: not to somebody without a slot, nor to an offline player. -/
def changeLeader (a : ℕ) (guid : ℕ) : World :=
  match w.groups.find? a with
  | none => w
  | some g =>
    if g.isMember guid ∧ w.online guid then
      w.updGroup a
        (fun g => { g with
          leaderGuid := guid
          memberSlots := Group.setSlot guid (fun m => { m with assistant := false }) g.memberSlots })
        fun _ => rfl
    else w

def pickLeader (a : ℕ) (guid : ℕ) : World :=
  match w.groups.find? a with
  | none => w
  | some g =>
    if g.leaderGuid = guid then
      match g.memberSlots.find? fun m => w.online m.guid with
      | none => w
      | some m => w.changeLeader a m.guid
    else w

def dropMember (a : ℕ) (guid : ℕ) : World :=
  ((w.updPlayer guid (fun p => p.unlink a) fun p => p.unlink_guid a).updGroup a
    (fun g => g.eraseSlot guid) fun g => g.eraseSlot_address guid).pickLeader a guid

def removeMember (a : ℕ) (guid : ℕ) : World :=
  match w.groups.find? a with
  | none => w
  | some g =>
    if 2 < g.getMembersCount then
      let w' := w.dropMember a guid
      if w'.memberMgrSize a < 2 then w'.disband a else w'
    else w.disband a

def uninviteFromGroup (guid : ℕ) : World :=
  match (w.players.find? guid).bind fun p => p.groupInvite with
  | none => w
  | some a =>
    let w := w.removeInvite a guid
    match w.groups.find? a with
    | none => w
    | some g =>
      if g.getMembersCount ≤ 1 then
        if g.created then w.disband a else (w.removeAllInvites a).deleteGroup a
      else w

end World

/-! ### Member slots and their counters -/

namespace SubGroupsCounts
variable {c : SubGroupsCounts} {s t : Fin 8}

theorem increase_toNat (h : (c t).toNat < 255) :
    (c.increase t s).toNat = (c s).toNat + if t = s then 1 else 0 := by
  unfold increase
  by_cases hs : s = t
  · subst hs
    rw [if_pos rfl, if_pos rfl, UInt8.toNat_add]
    have h1 : (1 : UInt8).toNat = 1 := rfl
    omega
  · rw [if_neg hs, if_neg (Ne.symm hs)]
    omega

theorem decrease_toNat (h : 0 < (c t).toNat) :
    (c.decrease t s).toNat = (c s).toNat - if t = s then 1 else 0 := by
  unfold decrease
  by_cases hs : s = t
  · subst hs
    rw [if_pos rfl, if_pos rfl, UInt8.toNat_sub]
    have h1 : (1 : UInt8).toNat = 1 := rfl
    have hlt := (c s).toNat_lt
    omega
  · rw [if_neg hs, if_neg (Ne.symm hs)]
    omega

theorem firstFree_spec (h : c.firstFree = some s) : (c s).toNat < maxGroupSize := by
  have hs := List.find?_some h
  simpa using hs

end SubGroupsCounts

def membersIn (slots : List MemberSlot) (s : Fin 8) : ℕ := slots.countP fun m => m.group = s

def slotCount (slots : List MemberSlot) (guid : ℕ) : ℕ := slots.countP fun m => m.guid = guid

section Counts
variable (slots slots' : List MemberSlot) (m : MemberSlot) (s : Fin 8) (guid : ℕ)

theorem membersIn_append : membersIn (slots ++ slots') s = membersIn slots s + membersIn slots' s :=
  List.countP_append

theorem membersIn_cons : membersIn (m :: slots) s = membersIn slots s + if m.group = s then 1 else 0 := by
  simp [membersIn, List.countP_cons]

theorem membersIn_le_length : membersIn slots s ≤ slots.length := List.countP_le_length

theorem slotCount_append : slotCount (slots ++ slots') guid = slotCount slots guid + slotCount slots' guid :=
  List.countP_append

theorem slotCount_cons : slotCount (m :: slots) guid = slotCount slots guid + if m.guid = guid then 1 else 0 := by
  simp [slotCount, List.countP_cons]

theorem slotCount_pos : 0 < slotCount slots guid ↔ ∃ m ∈ slots, m.guid = guid := by
  simp [slotCount, List.countP_pos_iff]

end Counts

namespace Group
variable {g : Group} {guid : ℕ} {m : MemberSlot}

theorem split_of_getMemberSlot (h : g.getMemberSlot guid = some m) : m.guid = guid ∧
    ∃ l l', g.memberSlots = l ++ m :: l' ∧ (g.memberSlots.eraseP fun m => m.guid = guid) = l ++ l' ∧
      ∀ f, setSlot guid f g.memberSlots = l ++ f m :: l' := by
  obtain ⟨hm, l, l', hsplit, hbefore⟩ := List.find?_eq_some_iff_append.mp h
  have hguid : m.guid = guid := by simpa using hm
  have hbefore' : ∀ x ∈ l, x.guid ≠ guid := fun x hx => by simpa using hbefore x hx
  refine ⟨hguid, l, l', hsplit, ?_, fun f => ?_⟩
  · rw [hsplit, List.eraseP_append_right _ (fun x hx => by simpa using hbefore' x hx),
      List.eraseP_cons_of_pos (p := fun m : MemberSlot => decide (m.guid = guid)) hm]
  · rw [hsplit]
    clear hsplit hbefore
    induction l with
    | nil =>
      show (if m.guid = guid then f m :: l' else _) = _
      rw [if_pos hguid]
      rfl
    | cons x l ih =>
      have hne := hbefore' x List.mem_cons_self
      show (if x.guid = guid then _ else x :: setSlot guid f (l ++ m :: l')) = _
      rw [if_neg hne, ih fun y hy => hbefore' y (List.mem_cons_of_mem x hy)]
      rfl

theorem getMemberSlot_eq_none (h : g.getMemberSlot guid = none) : ∀ m ∈ g.memberSlots, m.guid ≠ guid := by
  intro m hm
  have hne := List.find?_eq_none.mp h m hm
  simpa using hne

variable {f : MemberSlot → MemberSlot}

theorem setSlot_map {β : Type*} (key : MemberSlot → β)
    (hf : ∀ m, key (f m) = key m) (guid : ℕ) (slots : List MemberSlot) :
    (setSlot guid f slots).map key = slots.map key := by
  induction slots with
  | nil => rfl
  | cons m slots ih =>
    show (if m.guid = guid then f m :: slots else m :: setSlot guid f slots).map key = _
    split
    · rw [List.map_cons, hf, List.map_cons]
    · rw [List.map_cons, ih, List.map_cons]

theorem setSlot_slotCount (hf : ∀ m, (f m).guid = m.guid) (guid guid' : ℕ)
    (slots : List MemberSlot) : slotCount (setSlot guid f slots) guid' = slotCount slots guid' := by
  have hcount (l : List MemberSlot) : slotCount l guid' = (l.map fun m => m.guid).countP fun x => x = guid' := by
    rw [List.countP_map]
    rfl
  rw [hcount, hcount, setSlot_map (fun m => m.guid) hf]

theorem setSlot_membersIn (hf : ∀ m, (f m).group = m.group) (guid : ℕ)
    (s : Fin 8) (slots : List MemberSlot) : membersIn (setSlot guid f slots) s = membersIn slots s := by
  have hcount (l : List MemberSlot) : membersIn l s = (l.map fun m => m.group).countP fun x => x = s := by
    rw [List.countP_map]
    rfl
  rw [hcount, hcount, setSlot_map (fun m => m.group) hf]

theorem foldl_increase (slots : List MemberSlot) (c : SubGroupsCounts)
    (h : ∀ s, (c s).toNat + membersIn slots s < 256) (s : Fin 8) :
    ((slots.foldl (fun c m => SubGroupsCounts.increase c m.group) c) s).toNat =
      (c s).toNat + membersIn slots s := by
  induction slots generalizing c with
  | nil => rfl
  | cons m slots ih =>
    have hm := h m.group
    rw [membersIn_cons, if_pos rfl] at hm
    have hinc (t : Fin 8) := SubGroupsCounts.increase_toNat (c := c) (t := m.group) (s := t) (by omega)
    have hrest : ∀ t, ((c.increase m.group) t).toNat + membersIn slots t < 256 := by
      intro t
      have ht := h t
      rw [membersIn_cons] at ht
      rw [hinc]
      omega
    rw [List.foldl_cons, ih _ hrest, hinc, membersIn_cons]
    omega

end Group

end HysteriaCore.Groups
