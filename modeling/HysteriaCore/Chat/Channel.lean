import HysteriaCore.Lib.Bytes
import HysteriaCore.Lib.KeyedList
import HysteriaCore.Lib.Runs
import Mathlib.Data.Finmap
import Mathlib.Data.Finset.Max

/-!
# Chat channels of the proxy (shade/Chat/Channel.cpp, Channel.h)

The members are a `std::map` from a GUID to a `PlayerInfo`, which holds the GUID once more;
`operator[]` makes a member where there is none. The packets to the members, the channel
list of a `Player` and the row in the database are not part of the model.
-/

namespace HysteriaCore.Chat
open Lib

structure Player where
  guid : ℕ
  name : Bytes
  security : ℕ
  team : ℕ

def SEC_PLAYER : ℕ := 0
def SEC_GAMEMASTER : ℕ := 2
def SEC_CONSOLE : ℕ := 4

def isGMAccount (gmlevel : ℕ) : Bool := decide (SEC_GAMEMASTER ≤ gmlevel ∧ gmlevel ≤ SEC_CONSOLE)

def tolower (c : UInt8) : UInt8 := if 0x41 ≤ c ∧ c ≤ 0x5A then c + 0x20 else c

structure Realm where
  players : KeyedList Player.guid
  restrictedLfgChannel : Bool
  allowTwoSideInteractionChannel : Bool

namespace Realm

def findPlayer (r : Realm) (guid : ℕ) : Option Player := r.players.find? guid

def findPlayerByName (r : Realm) (name : Bytes) : Option Player :=
  r.players.rows.find? fun p => name.map tolower = p.name.map tolower

def security (r : Realm) (guid : ℕ) : ℕ :=
  match r.findPlayer guid with
  | some player => player.security
  | none => SEC_PLAYER

end Realm

def MEMBER_FLAG_NONE : UInt8 := 0x00
def MEMBER_FLAG_OWNER : UInt8 := 0x01
def MEMBER_FLAG_MODERATOR : UInt8 := 0x02
def MEMBER_FLAG_MUTED : UInt8 := 0x08

structure PlayerInfo where
  player : ℕ
  flags : UInt8
  deriving DecidableEq

namespace PlayerInfo

def has (flag : UInt8) (i : PlayerInfo) : Bool := i.flags &&& flag != 0

def assign (flag : UInt8) (state : Bool) (i : PlayerInfo) : PlayerInfo :=
  { i with flags := if state then i.flags ||| flag else i.flags &&& ~~~flag }

def isOwner : PlayerInfo → Bool := has MEMBER_FLAG_OWNER
def isModerator : PlayerInfo → Bool := has MEMBER_FLAG_MODERATOR
def isMuted : PlayerInfo → Bool := has MEMBER_FLAG_MUTED
def setOwner : Bool → PlayerInfo → PlayerInfo := assign MEMBER_FLAG_OWNER
def setModerator : Bool → PlayerInfo → PlayerInfo := assign MEMBER_FLAG_MODERATOR
def setMuted : Bool → PlayerInfo → PlayerInfo := assign MEMBER_FLAG_MUTED

theorem has_assign {flag : UInt8} (hflag : flag ≠ 0) (state : Bool) (i : PlayerInfo) :
    (i.assign flag state).has flag = state := by
  cases state with
  | false =>
    show ((i.flags &&& ~~~flag) &&& flag != 0) = false
    rw [UInt8.and_assoc, UInt8.not_and_self, UInt8.and_zero]
    rfl
  | true =>
    show ((i.flags ||| flag) &&& flag != 0) = true
    have hor : (i.flags ||| flag) &&& flag = flag := by
      rw [← UInt8.toBitVec_inj, UInt8.toBitVec_and, UInt8.toBitVec_or]
      ext j hj
      simpa using fun h => .inr h
    rw [hor]
    simpa using hflag

theorem has_assign_of_disjoint {flag other : UInt8} (h : flag &&& other = 0) (state : Bool)
    (i : PlayerInfo) : (i.assign flag state).has other = i.has other := by
  have hbit : ∀ (j : ℕ) (hj : j < 8), flag.toBitVec[j] = true → other.toBitVec[j] = false := by
    intro j hj hf
    have hzero : (flag &&& other).toBitVec[j] = (0 : UInt8).toBitVec[j] := by rw [h]
    simpa [hf] using hzero
  have hflags : (i.assign flag state).flags &&& other = i.flags &&& other := by
    rw [← UInt8.toBitVec_inj]
    cases state with
    | false =>
      show ((i.flags &&& ~~~flag) &&& other).toBitVec = _
      ext j hj
      specialize hbit j hj
      cases hf : flag.toBitVec[j] <;> simp_all
    | true =>
      show ((i.flags ||| flag) &&& other).toBitVec = _
      ext j hj
      specialize hbit j hj
      cases hf : flag.toBitVec[j] <;> simp_all
  rw [has, hflags]
  rfl

section Flags
variable (b : Bool) (i : PlayerInfo)

@[simp] theorem isOwner_setOwner : (i.setOwner b).isOwner = b := has_assign (by decide) b i
@[simp] theorem isModerator_setModerator : (i.setModerator b).isModerator = b :=
  has_assign (by decide) b i

@[simp] theorem isModerator_setOwner : (i.setOwner b).isModerator = i.isModerator :=
  has_assign_of_disjoint (by decide) b i
@[simp] theorem isOwner_setModerator : (i.setModerator b).isOwner = i.isOwner :=
  has_assign_of_disjoint (by decide) b i
@[simp] theorem isOwner_setMuted : (i.setMuted b).isOwner = i.isOwner :=
  has_assign_of_disjoint (by decide) b i
@[simp] theorem isModerator_setMuted : (i.setMuted b).isModerator = i.isModerator :=
  has_assign_of_disjoint (by decide) b i

end Flags

end PlayerInfo

def CHANNEL_FLAG_LFG : UInt8 := 0x40

abbrev PlayerList := Finmap fun _ : ℕ => PlayerInfo

structure Channel where
  players : PlayerList
  banned : Finset ℕ
  announce : Bool
  ownership : Bool
  password : Bytes
  flags : UInt8
  channelId : ℕ
  ownerGUID : ℕ

namespace Channel

def isOn (c : Channel) (who : ℕ) : Bool := decide (who ∈ c.players)
def isBanned (c : Channel) (guid : ℕ) : Bool := decide (guid ∈ c.banned)
def isConstant (c : Channel) : Bool := c.channelId != 0
def hasFlag (c : Channel) (flag : UInt8) : Bool := c.flags &&& flag != 0

def info (c : Channel) (guid : ℕ) : PlayerInfo := (c.players.lookup guid).getD ⟨0, 0⟩

def edit (c : Channel) (guid : ℕ) (f : PlayerInfo → PlayerInfo) : Channel :=
  { c with players := c.players.insert guid (f (c.info guid)) }

def first (c : Channel) : Option PlayerInfo :=
  if h : c.players.keys.Nonempty then some (c.info (c.players.keys.min' h)) else none

/-- The first part of `SetOwner(guid, exclaim)`, which does not use `operator[]`. -/
def clearOwner (c : Channel) : Channel :=
  if c.ownerGUID ≠ 0 then
    match c.players.lookup c.ownerGUID with
    | some i => { c with players := c.players.insert c.ownerGUID (i.setOwner false) }
    | none => c
  else c

def setOwner (c : Channel) (guid : ℕ) : Channel :=
  let c := { c.clearOwner with ownerGUID := guid }
  if guid ≠ 0 then (c.edit guid (·.setModerator true)).edit guid (·.setOwner true) else c

def handOver (c : Channel) (newowner : ℕ) : Channel :=
  (c.edit newowner (·.setModerator true)).setOwner newowner

def enter (c : Channel) (p : ℕ) : Channel :=
  let c := { c with players := c.players.insert p ⟨p, MEMBER_FLAG_NONE⟩ }
  if c.isConstant then c
  else if c.ownerGUID = 0 ∧ c.ownership then (c.setOwner p).edit p (·.setModerator true)
  else c

def join (c : Channel) (r : Realm) (p : ℕ) (pass : Bytes) : Channel :=
  if c.isOn p then c
  else if c.isBanned p then c
  else if c.password ≠ [] ∧ pass ≠ c.password then c
  else if (r.findPlayer p).isSome ∧ c.hasFlag CHANNEL_FLAG_LFG ∧ r.restrictedLfgChannel then c
  else c.enter p

def leave (c : Channel) (p : ℕ) : Channel :=
  if !c.isOn p then c
  else
    let changeowner := (c.info p).isOwner
    let c := { c with players := c.players.erase p }
    if c.isConstant then c
    else if changeowner ∧ c.ownership then
      match c.first with
      | some i => c.handOver i.player
      | none => c
    else c

def mayModerate (c : Channel) (r : Realm) (p : ℕ) : Bool :=
  c.isOn p && ((c.info p).isModerator || isGMAccount (r.security p))

def kickTarget (c : Channel) (r : Realm) (good : ℕ) (badname : Bytes) : Option Player :=
  if !c.mayModerate r good then none
  else
    match r.findPlayerByName badname with
    | none => none
    | some bad =>
      if !c.isOn bad.guid then none
      else if !isGMAccount (r.security good) ∧ bad.guid = c.ownerGUID ∧ good ≠ c.ownerGUID then none
      else some bad

def evict (c : Channel) (good bad : ℕ) (ban : Bool) : Channel :=
  let changeowner := decide (c.ownerGUID = bad)
  let c := if ban && !c.isBanned bad then { c with banned := insert bad c.banned } else c
  let c := { c with players := c.players.erase bad }
  if changeowner ∧ c.ownership ∧ c.players.keys.Nonempty then c.handOver good else c

def kickOrBan (c : Channel) (r : Realm) (good : ℕ) (badname : Bytes) (ban : Bool) : Channel :=
  match c.kickTarget r good badname with
  | none => c
  | some bad => c.evict good bad.guid ban

def unBan (c : Channel) (r : Realm) (good : ℕ) (badname : Bytes) : Channel :=
  if !c.mayModerate r good then c
  else
    match r.findPlayerByName badname with
    | none => c
    | some bad =>
      if !c.isBanned bad.guid then c
      else { c with banned := c.banned.erase bad.guid }

def setPassword (c : Channel) (r : Realm) (p : ℕ) (pass : Bytes) : Channel :=
  if !c.mayModerate r p then c else { c with password := pass }

def setModerator (c : Channel) (p : ℕ) (set : Bool) : Channel :=
  if (c.info p).isModerator ≠ set then c.edit p (·.setModerator set) else c.edit p id

def setMute (c : Channel) (p : ℕ) (set : Bool) : Channel :=
  if (c.info p).isMuted ≠ set then c.edit p (·.setMuted set) else c.edit p id

def modeTarget (c : Channel) (r : Realm) (p : ℕ) (p2n : Bytes) (mod : Bool) : Option Player :=
  match r.findPlayer p with
  | none => none
  | some player =>
    if !c.mayModerate r p then none
    else
      match r.findPlayerByName p2n with
      | none => none
      | some newp =>
        if p = c.ownerGUID ∧ newp.guid = c.ownerGUID ∧ mod then none
        else if !c.isOn newp.guid then none
        -- a moderator from the other team only if both are GMs
        else if (!isGMAccount player.security || !isGMAccount newp.security) ∧
            player.team ≠ newp.team ∧ !r.allowTwoSideInteractionChannel then none
        else if c.ownerGUID = newp.guid ∧ c.ownerGUID ≠ p then none
        else some newp

def setMode (c : Channel) (r : Realm) (p : ℕ) (p2n : Bytes) (mod set : Bool) : Channel :=
  match c.modeTarget r p p2n mod with
  | none => c
  | some newp => if mod then c.setModerator newp.guid set else c.setMute newp.guid set

def ownerTarget (c : Channel) (r : Realm) (p : ℕ) (newname : Bytes) : Option Player :=
  match r.findPlayer p with
  | none => none
  | some player =>
    if !c.isOn p then none
    else if !isGMAccount player.security ∧ p ≠ c.ownerGUID then none
    else
      match r.findPlayerByName newname with
      | none => none
      | some newp =>
        if !c.isOn newp.guid then none
        else if newp.team ≠ player.team ∧ !r.allowTwoSideInteractionChannel then none
        else some newp

def setOwnerByName (c : Channel) (r : Realm) (p : ℕ) (newname : Bytes) : Channel :=
  match c.ownerTarget r p newname with
  | none => c
  | some newp => c.handOver newp.guid

def toggleAnnounce (c : Channel) (r : Realm) (p : ℕ) : Channel :=
  if !c.mayModerate r p then c else { c with announce := !c.announce }

inductive Call where
  | join (p : ℕ) (pass : Bytes)
  | leave (p : ℕ)
  | kickOrBan (good : ℕ) (badname : Bytes) (ban : Bool)
  | unBan (good : ℕ) (badname : Bytes)
  | password (p : ℕ) (pass : Bytes)
  | setMode (p : ℕ) (p2n : Bytes) (mod set : Bool)
  | setOwner (p : ℕ) (newname : Bytes)
  | announce (p : ℕ)

structure Event where
  realm : Realm
  call : Call

def step (c : Channel) (e : Event) : Option Channel :=
  match e.call with
  | .join p pass => guarded (p ≠ 0) (c.join e.realm p pass)
  | .leave p => some (c.leave p)
  | .kickOrBan good badname ban => some (c.kickOrBan e.realm good badname ban)
  | .unBan good badname => some (c.unBan e.realm good badname)
  | .password p pass => some (c.setPassword e.realm p pass)
  | .setMode p p2n mod set => some (c.setMode e.realm p p2n mod set)
  | .setOwner p newname => some (c.setOwnerByName e.realm p newname)
  | .announce p => some (c.toggleAnnounce e.realm p)

def fresh : Channel := ⟨∅, ∅, true, true, [], 0, 0, 0⟩

def Unused (c : Channel) : Prop := c.players = ∅ ∧ c.ownerGUID = 0

theorem fresh_unused : Unused fresh := ⟨rfl, rfl⟩

def twoOnline : Realm where
  players := ⟨[⟨1, ascii "Anna", SEC_PLAYER, 67⟩, ⟨2, ascii "Bert", SEC_PLAYER, 67⟩], by decide⟩
  restrictedLfgChannel := false
  allowTwoSideInteractionChannel := false

/-! ### What the operations do to the members -/

variable {c : Channel} {k : ℕ}

theorem isOn_iff : c.isOn k = true ↔ k ∈ c.players := decide_eq_true_iff

theorem isBanned_iff : c.isBanned k = true ↔ k ∈ c.banned :=
  decide_eq_true_iff

theorem info_of_lookup {i : PlayerInfo} (h : c.players.lookup k = some i) : c.info k = i := by
  rw [info, h]
  rfl

theorem info_of_notMem (h : k ∉ c.players) : c.info k = ⟨0, 0⟩ := by
  rw [info, Finmap.lookup_eq_none.mpr h]
  rfl

theorem lookup_edit_self (c : Channel) (g : ℕ) (f : PlayerInfo → PlayerInfo) :
    (c.edit g f).players.lookup g = some (f (c.info g)) := Finmap.lookup_insert _

theorem lookup_edit_ne (c : Channel) {g k : ℕ} (f : PlayerInfo → PlayerInfo) (h : k ≠ g) :
    (c.edit g f).players.lookup k = c.players.lookup k := Finmap.lookup_insert_of_ne _ h

@[simp] theorem info_edit_self (c : Channel) (g : ℕ) (f : PlayerInfo → PlayerInfo) :
    (c.edit g f).info g = f (c.info g) := info_of_lookup (c.lookup_edit_self g f)

theorem clearOwner_spec (c : Channel) :
    ∃ m, c.clearOwner = { c with players := m } ∧ ∀ k, m.lookup k =
      (c.players.lookup k).map fun i =>
        if c.ownerGUID ≠ 0 ∧ k = c.ownerGUID then i.setOwner false else i := by
  have hsame : ∀ k, (c.ownerGUID ≠ 0 → k = c.ownerGUID → c.players.lookup k = none) →
      c.players.lookup k = (c.players.lookup k).map fun i =>
        if c.ownerGUID ≠ 0 ∧ k = c.ownerGUID then i.setOwner false else i := by
    intro k hk
    cases hl : c.players.lookup k with
    | none => rfl
    | some i =>
      have hne : ¬ (c.ownerGUID ≠ 0 ∧ k = c.ownerGUID) := fun h => by simp [hk h.1 h.2] at hl
      rw [Option.map_some, if_neg hne]
  unfold clearOwner
  by_cases hzero : c.ownerGUID ≠ 0
  · rw [if_pos hzero]
    cases hl : c.players.lookup c.ownerGUID with
    | none => exact ⟨_, rfl, fun k => hsame k fun _ hk => hk ▸ hl⟩
    | some i =>
      refine ⟨_, rfl, fun k => ?_⟩
      by_cases hk : k = c.ownerGUID
      · rw [hk, Finmap.lookup_insert, hl, Option.map_some, if_pos ⟨hzero, rfl⟩]
      · rw [Finmap.lookup_insert_of_ne _ hk]
        exact hsame k fun _ h => absurd h hk
  · rw [if_neg hzero]
    exact ⟨_, rfl, fun k => hsame k fun h => absurd h hzero⟩

variable {g : ℕ}

theorem setOwner_spec (c : Channel) (hg : g ≠ 0) : ∃ m, c.setOwner g = { c with players := m, ownerGUID := g } ∧
      (∃ i, m.lookup g = some i ∧ i.player = (c.info g).player ∧ i.isOwner = true ∧
        i.isModerator = true) ∧
      ∀ k ≠ g, m.lookup k = (c.players.lookup k).map fun i =>
        if c.ownerGUID ≠ 0 ∧ k = c.ownerGUID then i.setOwner false else i := by
  obtain ⟨m, hclear, hlookup⟩ := c.clearOwner_spec
  unfold setOwner
  rw [hclear, if_pos hg]
  refine ⟨_, rfl, ⟨_, lookup_edit_self .., ?_, by simp, by simp⟩, fun k hk => ?_⟩
  · rw [info_edit_self]
    show (m.lookup g |>.getD ⟨0, 0⟩).player = ((c.players.lookup g).getD ⟨0, 0⟩).player
    rw [hlookup]
    cases c.players.lookup g with
    | none => rfl
    | some i =>
      show (if c.ownerGUID ≠ 0 ∧ g = c.ownerGUID then i.setOwner false else i).player = i.player
      split <;> rfl
  · exact ((lookup_edit_ne _ _ hk).trans (lookup_edit_ne _ _ hk)).trans (hlookup k)

theorem mem_setOwner (c : Channel) (hg : g ≠ 0) : g ∈ (c.setOwner g).players := by
  obtain ⟨m, heq, ⟨i, hi, -⟩, -⟩ := c.setOwner_spec hg
  rw [heq]
  exact Finmap.mem_of_lookup_eq_some hi

theorem lookup_handOver_of_notMem (hg : g ≠ 0) (h : g ∉ c.players) :
    ∃ i, (c.handOver g).players.lookup g = some i ∧ i.player = 0 := by
  obtain ⟨m, heq, ⟨i, hi, hplayer, -⟩, -⟩ := (c.edit g (·.setModerator true)).setOwner_spec hg
  refine ⟨i, ?_, ?_⟩
  · rw [handOver, heq]
    exact hi
  · rw [hplayer, info_edit_self, info_of_notMem h]
    rfl

theorem evict_eq (c : Channel) (good bad : ℕ) (ban : Bool) :
    c.evict good bad ban =
      let d : Channel := { c with
        players := c.players.erase bad
        banned := if ban then insert bad c.banned else c.banned }
      if c.ownerGUID = bad ∧ c.ownership = true ∧ d.players.keys.Nonempty then d.handOver good
      else d := by
  have hbanned : (if ban && !c.isBanned bad then { c with banned := insert bad c.banned } else c) =
      { c with banned := if ban then insert bad c.banned else c.banned } := by
    cases ban with
    | false => rfl
    | true =>
      by_cases hb : c.isBanned bad = true
      · rw [if_neg (by simp [hb]), if_pos rfl, Finset.insert_eq_self.mpr (isBanned_iff.mp hb)]
      · rw [if_pos (by simpa using hb), if_pos rfl]
  unfold evict
  dsimp only
  rw [hbanned]
  simp only [decide_eq_true_iff]

def Keyed (c : Channel) : Prop := ∀ k i, c.players.lookup k = some i → i.player = k ∧ k ≠ 0

theorem keyed_of_empty (h : c.players = ∅) : Keyed c := by
  intro k i hi
  rw [h, Finmap.lookup_empty] at hi
  cases hi

theorem Keyed.edit (h : Keyed c) (hg : g ∈ c.players)
    {f : PlayerInfo → PlayerInfo} (hplayer : ∀ i, (f i).player = i.player) : Keyed (c.edit g f) := by
  obtain ⟨j, hj⟩ := Finmap.mem_iff.mp hg
  intro k x hx
  by_cases hk : k = g
  · subst hk
    rw [lookup_edit_self, info_of_lookup hj] at hx
    cases hx
    rw [hplayer]
    exact h k j hj
  · rw [lookup_edit_ne _ _ hk] at hx
    exact h k x hx

theorem Keyed.setOwner (h : Keyed c) (hg : g ∈ c.players) : Keyed (c.setOwner g) := by
  obtain ⟨j, hj⟩ := Finmap.mem_iff.mp hg
  obtain ⟨hjplayer, hne⟩ := h g j hj
  obtain ⟨m, heq, ⟨i, hi, hplayer, -⟩, hother⟩ := c.setOwner_spec hne
  rw [heq]
  intro k x hx
  by_cases hk : k = g
  · subst hk
    cases hi.symm.trans hx
    rw [hplayer, info_of_lookup hj]
    exact ⟨hjplayer, hne⟩
  · obtain ⟨y, hy, hyx⟩ := Option.map_eq_some_iff.mp ((hother k hk).symm.trans hx)
    obtain ⟨hyplayer, hk0⟩ := h k y hy
    refine ⟨?_, hk0⟩
    rw [← hyx, ← hyplayer]
    split <;> rfl

variable {p : ℕ}

theorem Keyed.insert (h : Keyed c) (hp : p ≠ 0) :
    Keyed { c with players := c.players.insert p ⟨p, MEMBER_FLAG_NONE⟩ } := by
  intro k x hx
  by_cases hk : k = p
  · subst hk
    cases (Finmap.lookup_insert c.players).symm.trans hx
    exact ⟨rfl, hp⟩
  · exact h k x ((Finmap.lookup_insert_of_ne _ hk).symm.trans hx)

theorem lookup_of_erase {p k : ℕ} {x : PlayerInfo}
    (h : (c.players.erase p).lookup k = some x) : c.players.lookup k = some x := by
  by_cases hk : k = p
  · rw [hk, Finmap.lookup_erase] at h
    cases h
  · rwa [Finmap.lookup_erase_ne hk] at h

theorem Keyed.erase (h : Keyed c) (p : ℕ) :
    Keyed { c with players := c.players.erase p } := fun k x hx => h k x (lookup_of_erase hx)

def SelfEviction (c : Channel) (good bad : ℕ) : Prop :=
  bad = good ∧ c.ownerGUID = bad ∧ c.ownership = true ∧ (c.players.erase bad).keys.Nonempty

instance (c : Channel) (good bad : ℕ) : Decidable (c.SelfEviction good bad) :=
  inferInstanceAs (Decidable (_ ∧ _))

def Enters (c : Channel) (r : Realm) (p : ℕ) (pass : Bytes) : Prop :=
  p ∉ c.players ∧ p ∉ c.banned ∧ ¬ (c.password ≠ [] ∧ pass ≠ c.password) ∧
    ¬ ((r.findPlayer p).isSome ∧ c.hasFlag CHANNEL_FLAG_LFG ∧ r.restrictedLfgChannel)

instance (c : Channel) (r : Realm) (p : ℕ) (pass : Bytes) : Decidable (c.Enters r p pass) :=
  inferInstanceAs (Decidable (_ ∧ _))

variable {r : Realm}

theorem join_of_enters {pass : Bytes} (h : c.Enters r p pass) : c.join r p pass = c.enter p := by
  obtain ⟨hon, hbanned, hpass, hlfg⟩ := h
  unfold join
  rw [if_neg (mt isOn_iff.mp hon), if_neg (mt isBanned_iff.mp hbanned), if_neg hpass,
    if_neg hlfg]

theorem join_of_not_enters {pass : Bytes} (h : ¬ c.Enters r p pass) : c.join r p pass = c := by
  unfold join
  split_ifs with hon hbanned hpass hlfg
  · rfl
  · rfl
  · rfl
  · rfl
  · exact absurd ⟨mt isOn_iff.mpr hon, mt isBanned_iff.mpr hbanned, hpass, hlfg⟩ h

theorem kickTarget_spec {good : ℕ} {badname : Bytes} {bad : Player}
    (h : c.kickTarget r good badname = some bad) :
    good ∈ c.players ∧ bad.guid ∈ c.players ∧ r.findPlayerByName badname = some bad := by
  unfold kickTarget at h
  split at h
  · cases h
  · rename_i hmay
    cases hfind : r.findPlayerByName badname with
    | none => simp [hfind] at h
    | some b =>
      simp only [hfind] at h
      split_ifs at h with hon hguard
      cases h
      have hgood : c.isOn good = true := by
        simp only [mayModerate, Bool.not_eq_true', Bool.and_eq_false_iff, not_or] at hmay
        simpa using hmay.1
      exact ⟨isOn_iff.mp hgood, isOn_iff.mp (by simpa using hon), rfl⟩

theorem first_spec {i : PlayerInfo} (h : c.first = some i) : ∃ k, c.players.lookup k = some i := by
  unfold first at h
  split at h
  · rename_i hne
    have hmem : c.players.keys.min' hne ∈ c.players := Finmap.mem_keys.mp (Finset.min'_mem ..)
    obtain ⟨j, hj⟩ := Finmap.mem_iff.mp hmem
    rw [info_of_lookup hj] at h
    exact ⟨_, h ▸ hj⟩
  · cases h

theorem first_eq_none (h : c.first = none) : ¬ c.players.keys.Nonempty := by
  intro hne
  simp [first, hne] at h

theorem modeTarget_spec {p2n : Bytes} {mod : Bool} {newp : Player}
    (h : c.modeTarget r p p2n mod = some newp) :
    newp.guid ∈ c.players ∧ (mod = true → newp.guid ≠ c.ownerGUID) ∧
      (p ≠ c.ownerGUID → newp.guid ≠ c.ownerGUID) := by
  unfold modeTarget at h
  cases hplayer : r.findPlayer p with
  | none => simp [hplayer] at h
  | some player =>
    cases hfind : r.findPlayerByName p2n with
    | none => simp [hplayer, hfind] at h
    | some n =>
      simp only [hplayer, hfind] at h
      split_ifs at h with hmay hself hon hteam howner
      cases h
      have hother : p ≠ c.ownerGUID → newp.guid ≠ c.ownerGUID :=
        fun hp heq => howner ⟨heq.symm, Ne.symm hp⟩
      refine ⟨isOn_iff.mp (by simpa using hon), fun hmod heq => ?_, hother⟩
      by_cases hp : p = c.ownerGUID
      · exact hself ⟨hp, heq, hmod⟩
      · exact hother hp heq

theorem setMode_cases (c : Channel) (r : Realm) (p : ℕ) (p2n : Bytes) (mod set : Bool) :
    c.setMode r p p2n mod set = c ∨ ∃ g f, c.setMode r p p2n mod set = c.edit g f ∧
      g ∈ c.players ∧ (p ≠ c.ownerGUID → g ≠ c.ownerGUID) ∧
      (∀ i, (f i).player = i.player) ∧ (∀ i, (f i).isOwner = i.isOwner) ∧
      (g = c.ownerGUID → ∀ i, i.isModerator = true → (f i).isModerator = true) := by
  unfold Channel.setMode
  cases htarget : c.modeTarget r p p2n mod with
  | none => exact .inl rfl
  | some newp =>
    obtain ⟨hon, howner, hother⟩ := modeTarget_spec htarget
    refine .inr ?_
    dsimp only
    unfold Channel.setModerator Channel.setMute
    split_ifs with hmod
    · exact ⟨_, _, rfl, hon, hother, fun _ => rfl, PlayerInfo.isOwner_setModerator set,
        fun heq => absurd heq (howner hmod)⟩
    · exact ⟨_, _, rfl, hon, hother, fun _ => rfl, fun _ => rfl, fun _ _ hi => hi⟩
    · exact ⟨_, _, rfl, hon, hother, fun _ => rfl, PlayerInfo.isOwner_setMuted set,
        fun _ i hi => (PlayerInfo.isModerator_setMuted set i).trans hi⟩
    · exact ⟨_, _, rfl, hon, hother, fun _ => rfl, fun _ => rfl, fun _ _ hi => hi⟩

theorem ownerTarget_spec {newname : Bytes} {newp : Player}
    (h : c.ownerTarget r p newname = some newp) : newp.guid ∈ c.players := by
  unfold ownerTarget at h
  cases hplayer : r.findPlayer p with
  | none => simp [hplayer] at h
  | some player =>
    cases hfind : r.findPlayerByName newname with
    | none => simp [hplayer, hfind] at h
    | some n =>
      simp only [hplayer, hfind] at h
      split_ifs at h with hp howner hon hteam
      cases h
      exact isOn_iff.mp (by simpa using hon)

theorem unBan_eq (c : Channel) (r : Realm) (good : ℕ) (badname : Bytes) :
    ∃ b ⊆ c.banned, c.unBan r good badname = { c with banned := b } := by
  unfold unBan
  split
  · exact ⟨_, Finset.Subset.refl _, rfl⟩
  · cases r.findPlayerByName badname with
    | none => exact ⟨_, Finset.Subset.refl _, rfl⟩
    | some bad =>
      dsimp only
      split
      · exact ⟨_, Finset.Subset.refl _, rfl⟩
      · exact ⟨_, Finset.erase_subset .., rfl⟩

end Channel

end HysteriaCore.Chat
