import HysteriaCore.Guilds.Ranks

/-!
# Membership on both sides

The member lists of the guilds, the guild id fields of the players and the
global data say the same, request by request, as long as nobody who is in a
guild declines an invitation.
-/

namespace HysteriaCore.Guilds
open Lib

namespace Guild
variable {g g' : Guild}

def HasMember (g : Guild) (guid : ℕ) : Prop := ∃ m ∈ g.members, m.guid = guid

def SameMembers (g g' : Guild) : Prop := g'.id = g.id ∧ ∀ guid, g'.HasMember guid ↔ g.HasMember guid

theorem SameMembers.refl (g : Guild) : g.SameMembers g := ⟨rfl, fun _ => Iff.rfl⟩

theorem SameMembers.trans {g'' : Guild} (h : g.SameMembers g') (h' : g'.SameMembers g'') : g.SameMembers g'' :=
  ⟨h'.1.trans h.1, fun guid => (h'.2 guid).trans (h.2 guid)⟩

theorem changeRank_same (g : Guild) (guid : ℕ) (rank : UInt8) : g.SameMembers (g.changeRank guid rank) := by
  refine ⟨rfl, fun x => ⟨?_, ?_⟩⟩
  · rintro ⟨m, hm, rfl⟩
    obtain ⟨y, hy, rfl⟩ := mem_changeRank.mp hm
    refine ⟨y, hy, ?_⟩
    split <;> rfl
  · rintro ⟨m, hm, rfl⟩
    refine ⟨_, mem_changeRank.mpr ⟨m, hm, rfl⟩, ?_⟩
    split <;> rfl

theorem setLeaderGUID_same (g : Guild) (guid : ℕ) : g.SameMembers (g.setLeaderGUID guid) :=
  changeRank_same { g with leaderGuid := guid } guid guildMaster

theorem handleSetLeader_same (g : Guild) (sender : ℕ) (name : String) :
    g.SameMembers (g.handleSetLeader sender name) := by
  rcases g.handleSetLeader_cases sender name with heq | ⟨new, -, -, -, heq⟩
  · rw [heq]
    exact .refl g
  · rw [heq]
    exact (g.setLeaderGUID_same new.guid).trans (changeRank_same _ sender officer)

theorem handleUpdateMemberRank_same (g : Guild) (sender : ℕ) (name : String) (demote : Bool) :
    g.SameMembers (g.handleUpdateMemberRank sender name demote) := by
  rcases g.handleUpdateMemberRank_cases sender name demote with
    heq | ⟨m, -, -, -, -, -, ⟨-, -, heq⟩ | ⟨-, heq⟩⟩
  · rw [heq]
    exact .refl g
  · rw [heq]
    exact g.changeRank_same _ _
  · rw [heq]
    exact g.changeRank_same _ _

theorem changeMemberRank_same (g : Guild) (guid : ℕ) (newRank : UInt8) :
    g.SameMembers (g.changeMemberRank guid newRank) := by
  unfold changeMemberRank
  split
  · exact g.changeRank_same guid newRank
  · exact .refl g

theorem handleAddNewRank_same (g : Guild) (sender : ℕ) : g.SameMembers (g.handleAddNewRank sender) := by
  unfold handleAddNewRank createRank
  repeat' split
  all_goals exact ⟨rfl, fun _ => Iff.rfl⟩

theorem handleRemoveLowestRank_same (g : Guild) (sender : ℕ) :
    g.SameMembers (g.handleRemoveLowestRank sender) := by
  unfold handleRemoveLowestRank
  split
  · exact ⟨rfl, fun _ => Iff.rfl⟩
  · exact .refl g

theorem insertMember_hasMember (g : Guild) (guid : ℕ) (name : String) (x : ℕ) :
    (g.insertMember guid name).HasMember x ↔ x = guid ∨ g.HasMember x := by
  constructor
  · rintro ⟨m, hm, rfl⟩
    rcases (KeyedList.mem_put ..).mp hm with rfl | ⟨hm, -⟩
    · exact .inl rfl
    · exact .inr ⟨m, hm, rfl⟩
  · intro h
    by_cases hx : x = guid
    · exact ⟨_, (KeyedList.mem_put ..).mpr (.inl rfl), hx.symm⟩
    · obtain ⟨m, hm, hguid⟩ := h.resolve_left hx
      exact ⟨m, (KeyedList.mem_put ..).mpr (.inr ⟨hm, fun heq => hx (hguid.symm.trans heq)⟩), hguid⟩

theorem eraseMember_hasMember (g : Guild) (guid x : ℕ) :
    (g.eraseMember guid).HasMember x ↔ x ≠ guid ∧ g.HasMember x := by
  constructor
  · rintro ⟨m, hm, rfl⟩
    obtain ⟨hm, hne⟩ := (KeyedList.mem_erase ..).mp hm
    exact ⟨hne, m, hm, rfl⟩
  · rintro ⟨hne, m, hm, rfl⟩
    exact ⟨m, (KeyedList.mem_erase ..).mpr ⟨hm, hne⟩, rfl⟩

theorem deleteMember_hasMember {guid : ℕ} (h : g.deleteMember guid = some g') :
    g'.id = g.id ∧ ∀ x, g'.HasMember x ↔ x ≠ guid ∧ g.HasMember x := by
  unfold deleteMember at h
  split at h
  · obtain ⟨m, -, rfl⟩ := Option.map_eq_some_iff.mp h
    refine ⟨rfl, fun x => ?_⟩
    rw [eraseMember_hasMember, (g.setLeaderGUID_same m.guid).2]
  · rw [← Option.some.inj h]
    exact ⟨rfl, g.eraseMember_hasMember guid⟩

end Guild

def World.IsMember (w : World) (guid guildId : ℕ) : Prop :=
  ∃ g ∈ w.guilds, g.id = guildId ∧ g.HasMember guid

/-- The field of every online player is the guild in which he is a member, and
nobody is a member of two guilds. -/
structure World.Agrees (w : World) : Prop where
  players : ∀ p ∈ w.players, ∀ guildId, guildId ≠ 0 → (p.guildId = guildId ↔ w.IsMember p.guid guildId)
  unique : ∀ guid a b, w.IsMember guid a → w.IsMember guid b → a = b

structure World.Synced (w : World) : Prop where
  ids : ∀ g ∈ w.guilds, g.id ≠ 0
  storage : ∀ guid guildId, guildId ≠ 0 → (w.storage guid = guildId ↔ w.IsMember guid guildId)
  players : ∀ p ∈ w.players, p.guildId = w.storage p.guid

/-- Loaded guilds, nobody online yet, and global data that agrees with the members. -/
structure World.Starts (w : World) : Prop where
  nobody : ∀ p, p ∉ w.players
  ids : ∀ g ∈ w.guilds, g.id ≠ 0
  storage : ∀ guid guildId, guildId ≠ 0 → (w.storage guid = guildId ↔ w.IsMember guid guildId)

namespace World
variable {w : World} {g g' : Guild} {guid : ℕ}

theorem Starts.synced (h : w.Starts) : w.Synced := ⟨h.ids, h.storage, fun p hp => absurd hp (h.nobody p)⟩

theorem Synced.agrees (h : w.Synced) : w.Agrees := by
  refine ⟨fun p hp guildId hne => ?_, fun guid a b ha hb => ?_⟩
  · rw [h.players p hp]
    exact h.storage p.guid guildId hne
  · have hid : ∀ c, w.IsMember guid c → w.storage guid = c := by
      intro c hc
      obtain ⟨g, hg, rfl, hm⟩ := hc
      exact (h.storage guid g.id (h.ids g hg)).mpr ⟨g, hg, rfl, hm⟩
    exact (hid a ha).symm.trans (hid b hb)

/-! ### The players after an operation -/

theorem mem_setInGuild {x : ℕ} {p : Player} : p ∈ (w.setInGuild guid x).players ↔
    ∃ q ∈ w.players, (if q.guid = guid then { q with guildId := x } else q) = p :=
  w.players.mem_adjust guid (fun p => { p with guildId := x }) (fun _ => rfl) p

theorem mem_setInvited {x : ℕ} {p : Player} :
    p ∈ w.players.adjust guid (fun p => { p with guildIdInvited := x }) (fun _ => rfl) ↔
    ∃ q ∈ w.players, (if q.guid = guid then { q with guildIdInvited := x } else q) = p :=
  w.players.mem_adjust guid (fun p => { p with guildIdInvited := x }) (fun _ => rfl) p

theorem setInGuild_agree (h : ∀ p ∈ w.players, p.guildId = w.storage p.guid) (guid x : ℕ) :
    ∀ p ∈ (w.setInGuild guid x).players, p.guildId = (w.setInGuild guid x).storage p.guid := by
  intro p hp
  obtain ⟨q, hq, rfl⟩ := mem_setInGuild.mp hp
  show _ = if (if q.guid = guid then { q with guildId := x } else q).guid = guid then x else w.storage _
  by_cases hqg : q.guid = guid
  · simp only [if_pos hqg]
  · simp only [if_neg hqg]
    exact h q hq

/-! ### Who is a member after a guild has changed -/

theorem isMember_of_mem (hg : g ∈ w.guilds) : w.IsMember guid g.id ↔ g.HasMember guid := by
  constructor
  · rintro ⟨x, hx, hid, hm⟩
    rwa [w.guilds.eq_of_key_eq hx hg hid] at hm
  · exact fun hm => ⟨g, hg, rfl, hm⟩

theorem isMember_putGuild (w : World) (g : Guild) (guid a : ℕ) : (w.putGuild g).IsMember guid a ↔
    (a = g.id ∧ g.HasMember guid) ∨ (a ≠ g.id ∧ w.IsMember guid a) := by
  constructor
  · rintro ⟨x, hx, rfl, hm⟩
    rcases (w.guilds.mem_put g x).mp hx with rfl | ⟨hx, hne⟩
    · exact .inl ⟨rfl, hm⟩
    · exact .inr ⟨hne, x, hx, rfl, hm⟩
  · rintro (⟨rfl, hm⟩ | ⟨hne, x, hx, rfl, hm⟩)
    · exact ⟨g, (w.guilds.mem_put g g).mpr (.inl rfl), rfl, hm⟩
    · exact ⟨x, (w.guilds.mem_put g x).mpr (.inr ⟨hx, hne⟩), rfl, hm⟩

theorem isMember_disband (w : World) (g : Guild) (guid a : ℕ) :
    (w.disband g).IsMember guid a ↔ a ≠ g.id ∧ w.IsMember guid a := by
  constructor
  · rintro ⟨x, hx, rfl, hm⟩
    rw [disband_guilds] at hx
    obtain ⟨hx, hne⟩ := (w.guilds.mem_erase g.id x).mp hx
    exact ⟨hne, x, hx, rfl, hm⟩
  · rintro ⟨hne, x, hx, rfl, hm⟩
    refine ⟨x, ?_, rfl, hm⟩
    rw [disband_guilds]
    exact (w.guilds.mem_erase g.id x).mpr ⟨hx, hne⟩

theorem Synced.change (h : w.Synced) (hg : g ∈ w.guilds) (hid : g'.id = g.id) {x : ℕ}
    (hkeep : ∀ y, y ≠ guid → (g'.HasMember y ↔ g.HasMember y))
    (hself : ∀ a, a ≠ 0 → (x = a ↔ (w.putGuild g').IsMember guid a)) :
    ((w.putGuild g').setInGuild guid x).Synced := by
  refine ⟨fun y hy => ?_, fun y a ha => ?_, fun p hp => ?_⟩
  · rcases mem_putGuild hy with hy | rfl
    · exact h.ids y hy
    · exact hid ▸ h.ids g hg
  · show (if y = guid then x else w.storage y) = a ↔ (w.putGuild g').IsMember y a
    by_cases hy : y = guid
    · subst hy
      rw [if_pos rfl]
      exact hself a ha
    · rw [if_neg hy, h.storage y a ha, isMember_putGuild, hid, hkeep y hy]
      by_cases hag : a = g.id
      · subst hag
        rw [isMember_of_mem hg]
        simp
      · simp [hag]
  · exact setInGuild_agree (w := w.putGuild g') h.players guid x p hp

theorem Synced.putSame (h : w.Synced) (hg : g ∈ w.guilds) (hsame : g.SameMembers g') :
    (w.putGuild g').Synced := by
  refine ⟨fun y hy => ?_, fun y a ha => ?_, h.players⟩
  · rcases mem_putGuild hy with hy | rfl
    · exact h.ids y hy
    · exact hsame.1 ▸ h.ids g hg
  · show w.storage y = a ↔ _
    rw [h.storage y a ha, isMember_putGuild, hsame.1, hsame.2]
    by_cases hag : a = g.id
    · subst hag
      rw [isMember_of_mem hg]
      simp
    · simp [hag]

theorem Synced.samePlayers (h : w.Synced) {w' : World} (hguilds : w'.guilds = w.guilds)
    (hstorage : ∀ x, w'.storage x = w.storage x) (hplayers : ∀ p ∈ w'.players, p.guildId = w.storage p.guid) :
    w'.Synced := by
  refine ⟨hguilds ▸ h.ids, fun x a ha => ?_, fun p hp => ?_⟩
  · rw [hstorage, h.storage x a ha, IsMember, IsMember, hguilds]
  · rw [hstorage, hplayers p hp]

theorem Synced.setInvited (h : w.Synced) (guid x : ℕ) :
    ({ w with players := w.players.adjust guid (fun p => { p with guildIdInvited := x }) fun _ => rfl } :
      World).Synced := by
  refine ⟨h.ids, h.storage, fun p hp => ?_⟩
  obtain ⟨q, hq, rfl⟩ := mem_setInvited.mp hp
  by_cases hqg : q.guid = guid
  · simp only [if_pos hqg]
    exact h.players q hq
  · simp only [if_neg hqg]
    exact h.players q hq

/-! ### Members who come and go -/

theorem Synced.addMember (h : w.Synced) (hg : g ∈ w.guilds) (guid : ℕ) (name : String) :
    (w.addMember g guid name).Synced := by
  have hadd (hfree : w.storage guid = 0) (name : String) :
      ((w.putGuild (g.insertMember guid name)).setInGuild guid g.id).Synced := by
    have hid : (g.insertMember guid name).id = g.id := rfl
    refine h.change hg hid (fun y hy => ?_) fun a ha => ?_
    · rw [Guild.insertMember_hasMember]
      simp [hy]
    · rw [isMember_putGuild, hid, Guild.insertMember_hasMember, ← h.storage guid a ha, hfree]
      constructor
      · exact fun heq => .inl ⟨heq.symm, .inl rfl⟩
      · rintro (⟨heq, -⟩ | ⟨-, heq⟩)
        · exact heq.symm
        · exact absurd heq.symm ha
  unfold World.addMember
  cases hp : w.players.find? guid with
  | some p =>
    obtain ⟨hmem, hguid⟩ := (w.players.find?_eq_some_iff guid p).mp hp
    dsimp only
    split
    · exact h
    · rename_i hfree
      have hfree' : w.storage guid = 0 := by
        rw [← hguid, ← h.players p hmem]
        simpa using hfree
      exact (hadd hfree' p.name).setInvited guid 0
  | none =>
    dsimp only
    split
    · exact h
    · rename_i hfree
      exact hadd (by simpa using hfree) name

theorem foldl_setInGuild_storage (rows : List Member) (w : World) (x : ℕ) :
    (rows.foldl (fun w m => w.setInGuild m.guid 0) w).storage x =
      if ∃ m ∈ rows, m.guid = x then 0 else w.storage x := by
  induction rows generalizing w with
  | nil => simp
  | cons m rows ih =>
    rw [List.foldl_cons, ih]
    show (if ∃ m ∈ rows, m.guid = x then 0 else if x = m.guid then 0 else w.storage x) = _
    by_cases hrows : ∃ m ∈ rows, m.guid = x
    · obtain ⟨y, hy, hyx⟩ := hrows
      rw [if_pos ⟨y, hy, hyx⟩, if_pos ⟨y, List.mem_cons_of_mem m hy, hyx⟩]
    · rw [if_neg hrows]
      by_cases hm : x = m.guid
      · rw [if_pos hm, if_pos ⟨m, List.mem_cons_self, hm.symm⟩]
      · rw [if_neg hm, if_neg]
        rintro ⟨y, hy, hyx⟩
        rcases List.mem_cons.mp hy with rfl | hy
        · exact hm hyx.symm
        · exact hrows ⟨y, hy, hyx⟩

theorem foldl_setInGuild_players (rows : List Member) {w : World}
    (h : ∀ p ∈ w.players, p.guildId = w.storage p.guid) :
    ∀ p ∈ (rows.foldl (fun w m => w.setInGuild m.guid 0) w).players,
      p.guildId = (rows.foldl (fun w m => w.setInGuild m.guid 0) w).storage p.guid := by
  induction rows generalizing w with
  | nil => exact h
  | cons m rows ih => exact ih (setInGuild_agree h m.guid 0)

theorem Synced.disband (h : w.Synced) (hg : g ∈ w.guilds) : (w.disband g).Synced := by
  refine ⟨fun y hy => h.ids y (mem_disband hy), fun y a ha => ?_, foldl_setInGuild_players _ h.players⟩
  rw [isMember_disband]
  show (g.members.rows.foldl (fun w m => w.setInGuild m.guid 0) w).storage y = a ↔ _
  rw [foldl_setInGuild_storage, ← h.storage y a ha]
  by_cases hm : g.HasMember y
  · have hid : w.storage y = g.id := (h.storage y g.id (h.ids g hg)).mpr ((isMember_of_mem hg).mpr hm)
    have hm' : ∃ m ∈ g.members.rows, m.guid = y := hm
    rw [if_pos hm', hid]
    constructor
    · exact fun heq => absurd heq.symm ha
    · rintro ⟨hne, heq⟩
      exact absurd heq.symm hne
  · have hm' : ¬ ∃ m ∈ g.members.rows, m.guid = y := hm
    rw [if_neg hm']
    constructor
    · intro heq
      refine ⟨?_, heq⟩
      rintro rfl
      exact hm ((isMember_of_mem hg).mp ((h.storage y g.id ha).mp heq))
    · exact fun hand => hand.2

theorem Synced.deleteMember (h : w.Synced) (hg : g ∈ w.guilds) (hstorage : w.storage guid = g.id) :
    (w.deleteMember g guid).Synced := by
  unfold World.deleteMember
  cases hdel : g.deleteMember guid with
  | none => exact h.disband hg
  | some x =>
    obtain ⟨hid, hmem⟩ := Guild.deleteMember_hasMember hdel
    refine h.change hg hid (fun y hy => ?_) fun a ha => ?_
    · rw [hmem]
      simp [hy]
    · rw [isMember_putGuild, hmem, hid, ← h.storage guid a ha, hstorage]
      constructor
      · exact fun heq => absurd heq.symm ha
      · rintro (⟨-, hne, -⟩ | ⟨hne, heq⟩)
        · exact absurd rfl hne
        · exact absurd heq.symm hne

/-! ### Requests -/

theorem Synced.putHandled (h : w.Synced) {f : Guild → Guild} (hsame : ∀ g : Guild, g.SameMembers (f g)) :
    (w.withGuild guid fun g => w.putGuild (f g)).Synced :=
  withGuild_cases h fun g hg => h.putSame (guildOf_mem hg) (hsame g)

theorem Synced.storage_of_guildOf (h : w.Synced) (hg : w.guildOf guid = some g) : w.storage guid = g.id := by
  obtain ⟨p, hp, hbind⟩ := Option.bind_eq_some_iff.mp hg
  obtain ⟨hmem, hguid⟩ := (w.players.find?_eq_some_iff guid p).mp hp
  split at hbind
  · exact absurd hbind (by simp)
  · rw [← hguid, ← h.players p hmem]
    exact (getGuildById_mem hbind).2.symm

theorem Synced.storage_of_member (h : w.Synced) (hg : g ∈ w.guilds) {m : Member} (hm : m ∈ g.members) :
    w.storage m.guid = g.id :=
  (h.storage m.guid g.id (h.ids g hg)).mpr ((isMember_of_mem hg).mpr ⟨m, hm, rfl⟩)

theorem Synced.login_guildId (h : w.Synced) (guid : ℕ) :
    (if (w.getGuildById (w.storage guid)).any fun g => (g.getMember guid).isSome then w.storage guid else 0) =
      w.storage guid := by
  by_cases hzero : w.storage guid = 0
  · rw [hzero, ite_self]
  · obtain ⟨g, hg, hid, m, hm, hguid⟩ := (h.storage guid _ hzero).mp rfl
    have hfind : w.getGuildById (w.storage guid) = some g := (w.guilds.find?_eq_some_iff _ g).mpr ⟨hg, hid⟩
    have hmember : g.getMember guid = some m := (g.members.find?_eq_some_iff guid m).mpr ⟨hm, hguid⟩
    rw [if_pos]
    rw [hfind, Option.any_some, hmember, Option.isSome_some]

theorem Synced.login (h : w.Synced) (guid : ℕ) (name : String) : (w.login guid name).Synced := by
  unfold World.login
  rw [h.login_guildId guid]
  refine h.samePlayers rfl (fun x => ?_) fun p hp => ?_
  · show (if x = guid then w.storage guid else w.storage x) = w.storage x
    by_cases hx : x = guid
    · rw [if_pos hx, hx]
    · rw [if_neg hx]
  · obtain ⟨q, hq, rfl⟩ := mem_setInGuild.mp hp
    by_cases hqg : q.guid = guid
    · simp only [if_pos hqg]
      rw [hqg]
    · simp only [if_neg hqg]
      rcases (w.players.mem_put ⟨guid, name, 0, 0⟩ q).mp hq with rfl | ⟨hq, -⟩
      · exact absurd rfl hqg
      · exact h.players q hq

theorem Synced.logout (h : w.Synced) (guid : ℕ) :
    ({ w with players := w.players.erase guid } : World).Synced :=
  h.samePlayers rfl (fun _ => rfl) fun p hp => h.players p ((w.players.mem_erase guid p).mp hp).1

theorem Synced.handleInviteMember (h : w.Synced) (name : String) (allowed : Bool) :
    (w.handleInviteMember guid name allowed).Synced := by
  refine withGuild_cases h fun g _ => ?_
  split
  · exact h
  · split
    · exact h
    · exact h.setInvited _ g.id

theorem Synced.handleGuildAccept (h : w.Synced) (allowed : Bool) : (w.handleGuildAccept guid allowed).Synced := by
  unfold World.handleGuildAccept
  cases w.players.find? guid with
  | none => exact h
  | some p =>
    dsimp only
    split
    · exact h
    · cases hg : w.getGuildById p.guildIdInvited with
      | none => exact h
      | some g =>
        dsimp only
        split
        · exact h.addMember (getGuildById_mem hg).1 guid p.name
        · exact h

theorem Synced.handleGuildDecline (h : w.Synced) (hfree : ∀ p ∈ w.players.find? guid, p.guildId = 0) :
    (w.handleGuildDecline guid).Synced := by
  unfold World.handleGuildDecline
  cases hp : w.players.find? guid with
  | none => exact h
  | some p =>
    obtain ⟨hmem, hguid⟩ := (w.players.find?_eq_some_iff guid p).mp hp
    have hzero : w.storage guid = 0 := by
      rw [← hguid, ← h.players p hmem]
      exact hfree p hp
    have hinv := h.setInvited guid 0
    refine hinv.samePlayers rfl (fun x => ?_) fun q hq => ?_
    · show (if x = guid then 0 else w.storage x) = w.storage x
      by_cases hx : x = guid
      · rw [if_pos hx, hx, hzero]
      · rw [if_neg hx]
    · obtain ⟨y, hy, rfl⟩ := mem_setInGuild.mp hq
      by_cases hyg : y.guid = guid
      · simp only [if_pos hyg]
        rw [hyg]
        exact hzero.symm
      · simp only [if_neg hyg]
        exact hinv.players y hy

theorem Synced.handleLeaveMember (h : w.Synced) : (w.handleLeaveMember guid).Synced := by
  refine withGuild_cases h fun g hg => ?_
  split
  · split
    · exact h
    · exact h.disband (guildOf_mem hg)
  · exact h.deleteMember (guildOf_mem hg) (h.storage_of_guildOf hg)

theorem Synced.handleRemoveMember (h : w.Synced) (name : String) : (w.handleRemoveMember guid name).Synced := by
  refine withGuild_cases h fun g hg => ?_
  split
  · exact h
  · split
    · rename_i m me hm hme
      split
      · exact h
      · have hmem : m ∈ g.members := List.mem_of_find?_eq_some hm
        exact h.deleteMember (guildOf_mem hg) (h.storage_of_member (guildOf_mem hg) hmem)
    · exact h

theorem Synced.handleDisband (h : w.Synced) : (w.handleDisband guid).Synced := by
  refine withGuild_cases h fun g hg => ?_
  split
  · exact h.disband (guildOf_mem hg)
  · exact h

def KeepsMembership (w : World) : Event → Prop
  | .decline guid => ∀ p ∈ w.players.find? guid, p.guildId = 0
  | _ => True

instance (w : World) : (e : Event) → Decidable (KeepsMembership w e)
  | .decline guid => inferInstanceAs (Decidable (∀ p ∈ w.players.find? guid, p.guildId = 0))
  | .login _ _ | .logout _ | .invite _ _ _ | .accept _ _ | .leave _ | .remove _ _ | .disband _
  | .setLeader _ _ | .updateMemberRank _ _ _ | .addNewRank _ | .removeLowestRank _ | .addMember _ _ _
  | .deleteMember _ | .changeMemberRank _ _ => .isTrue trivial

theorem Synced.next (h : w.Synced) (e : Event) (hok : KeepsMembership w e) : (w.next e).Synced := by
  cases e with
  | login guid name => exact h.login guid name
  | logout guid => exact h.logout guid
  | invite guid name allowed => exact h.handleInviteMember name allowed
  | accept guid allowed => exact h.handleGuildAccept allowed
  | decline guid => exact h.handleGuildDecline hok
  | leave guid => exact h.handleLeaveMember
  | remove guid name => exact h.handleRemoveMember name
  | disband guid => exact h.handleDisband
  | setLeader guid name => exact h.putHandled fun g => g.handleSetLeader_same guid name
  | updateMemberRank guid name demote =>
    exact h.putHandled fun g => g.handleUpdateMemberRank_same guid name demote
  | addNewRank guid => exact h.putHandled fun g => g.handleAddNewRank_same guid
  | removeLowestRank guid => exact h.putHandled fun g => g.handleRemoveLowestRank_same guid
  | addMember guild guid name =>
    simp only [World.next]
    cases hg : w.getGuildById guild with
    | none => exact h
    | some g => exact h.addMember (getGuildById_mem hg).1 guid name
  | deleteMember guid =>
    simp only [World.next]
    cases hg : w.getGuildById (w.storage guid) with
    | none => exact h
    | some g => exact h.deleteMember (getGuildById_mem hg).1 (getGuildById_mem hg).2.symm
  | changeMemberRank guid newRank =>
    simp only [World.next]
    cases hg : w.getGuildById (w.guildIdOf guid) with
    | none => exact h
    | some g => exact h.putSame (getGuildById_mem hg).1 (g.changeMemberRank_same guid newRank)

/-- The two sides agree in every run in which nobody who is in a guild declines an invitation. -/
theorem agrees_of_reaches (h : Reaches step KeepsMembership Starts w) : w.Agrees := by
  refine (h.invariant (I := Synced) (fun _ => Starts.synced) fun s e t hs hok ht => ?_).agrees
  obtain ⟨-, rfl⟩ := guarded_eq_some.mp ht
  exact hs.next e hok

theorem sampleWorld_starts : sampleWorld.Starts := by
  have hmem : ∀ g ∈ sampleWorld.guilds, g = sampleGuild := by
    intro g hg
    rcases (KeyedList.mem_put ..).mp hg with rfl | ⟨hg, -⟩
    · rfl
    · exact absurd hg (by simp [KeyedList.mem_rows, KeyedList.empty])
  have hid : sampleGuild.id = 7 := by decide +kernel
  have hguids : sampleGuild.members.rows.map Member.guid = [1, 2] := by decide +kernel
  have hmember (guid : ℕ) : sampleGuild.HasMember guid ↔ guid = 1 ∨ guid = 2 := by
    rw [show sampleGuild.HasMember guid ↔ guid ∈ sampleGuild.members.rows.map Member.guid from
      List.mem_map.symm, hguids]
    simp
  have hsample : sampleGuild ∈ sampleWorld.guilds := (KeyedList.mem_put ..).mpr (.inl rfl)
  refine ⟨fun p hp => absurd hp (by simp [sampleWorld, KeyedList.mem_rows, KeyedList.empty]), fun g hg => ?_,
    fun guid a ha => ?_⟩
  · rw [hmem g hg, hid]
    decide
  · show (if guid = 1 ∨ guid = 2 then 7 else 0) = a ↔ _
    constructor
    · intro heq
      split at heq
      · rename_i hguid
        exact ⟨sampleGuild, hsample, hid.trans heq, (hmember guid).mpr hguid⟩
      · exact absurd heq.symm ha
    · rintro ⟨g, hg, rfl, hm⟩
      rw [hmem g hg] at hm ⊢
      rw [if_pos ((hmember guid).mp hm), hid]

theorem agrees_of_reaches_joined : ∃ w : World, (w.players.find? 3).isSome = true ∧ w.IsMember 3 7 ∧ w.Agrees := by
  obtain ⟨w, hw, hp⟩ := Reaches.exists_of_replay step KeepsMembership sampleWorld_starts
    [.login 1 "Ada", .login 3 "Cyd", .invite 1 "Cyd" true, .decline 3, .invite 1 "Cyd" true, .accept 3 true,
      .remove 1 "Bel"]
    (by decide +kernel)
    (fun w => (w.players.find? 3).isSome && w.guilds.rows.any fun g =>
      decide (g.id = 7) && g.members.rows.any fun m => decide (m.guid = 3))
    (by decide +kernel)
  simp only [Bool.and_eq_true, List.any_eq_true, decide_eq_true_eq] at hp
  obtain ⟨honline, g, hg, hid, hm⟩ := hp
  exact ⟨w, honline, ⟨g, hg, hid, hm⟩, agrees_of_reaches hw⟩

/-- A member declines: his field says that he is in no guild, and the guild still has him. -/
theorem not_agrees : ¬ ∀ w : World, Reaches step anyStep Starts w → w.Agrees := by
  intro h
  obtain ⟨w, hw, hp⟩ := Reaches.exists_of_replay step anyStep sampleWorld_starts
    [.login 2 "Bel", .decline 2] (replayOk_anyStep ..)
    (fun w => (w.players.rows.any fun p => decide (p.guid = 2) && decide (p.guildId = 0)) &&
      w.guilds.rows.any fun g => decide (g.id = 7) && g.members.rows.any fun m => decide (m.guid = 2))
    (by decide +kernel)
  simp only [Bool.and_eq_true, List.any_eq_true, decide_eq_true_eq] at hp
  obtain ⟨⟨p, hpmem, hguid, hzero⟩, g, hg, hid, hm⟩ := hp
  have hmember : w.IsMember p.guid 7 := ⟨g, hg, hid, hguid ▸ hm⟩
  have hfield := ((h w hw).players p hpmem 7 (by decide)).mpr hmember
  rw [hzero] at hfield
  exact absurd hfield (by decide)

end World

end HysteriaCore.Guilds
