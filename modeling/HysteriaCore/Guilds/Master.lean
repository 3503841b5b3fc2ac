import HysteriaCore.Guilds.Ranks

/-!
# One guild master

The leader is a guid in the guild and a rank of a member. The requests keep the
two together and the rank unique, except that a leader who names himself as the
new leader is made guild master first and officer second.
-/

namespace HysteriaCore.Guilds
open Lib

namespace Guild

def Mastered (g : Guild) : Prop :=
  ∃ m ∈ g.members, m.guid = g.leaderGuid ∧ m.rank = guildMaster ∧
    ∀ m' ∈ g.members, m'.rank = guildMaster → m'.guid = g.leaderGuid

/-- With the ranks small enough for one byte: the counted size, and every member's. -/
structure Ruled (g : Guild) : Prop where
  mastered : g.Mastered
  min : guildRanksMinCount ≤ g.getRanksSize.toNat
  max : g.getRanksSize.toNat ≤ guildRanksMaxCount
  ranks : ∀ m ∈ g.members, m.rank.toNat ≤ guildRanksMaxCount

variable {g g' : Guild} {guid : ℕ}

theorem lowest_toNat (hmin : guildRanksMinCount ≤ g.getRanksSize.toNat) :
    g.getLowestRankId.toNat = g.getRanksSize.toNat - 1 := by
  have h5 : guildRanksMinCount = 5 := rfl
  have h1 : (1 : UInt8).toNat = 1 := rfl
  have hlt := g.getRanksSize.toNat_lt
  unfold getLowestRankId
  rw [UInt8.toNat_sub]
  omega

theorem Mastered.isLeader_iff (h : g.Mastered) : g.isLeader guid = true ↔ guid = g.leaderGuid := by
  obtain ⟨m, hm, hguid, hrank, hunique⟩ := h
  constructor
  · intro hl
    simp only [isLeader, Bool.or_eq_true, decide_eq_true_eq] at hl
    rcases hl with hl | hl
    · exact hl
    · cases hme : g.getMember guid with
      | none => simp [hme] at hl
      | some me =>
        obtain ⟨hmem, hmeguid⟩ := (g.members.find?_eq_some_iff guid me).mp hme
        have hmerank : me.rank = guildMaster := by simpa [hme] using hl
        exact hmeguid.symm.trans (hunique me hmem hmerank)
  · rintro rfl
    simp [isLeader]

/-! ### The routines -/

theorem Ruled.changeRank (h : g.Ruled) {rank : UInt8} (hne : guid ≠ g.leaderGuid) (hzero : rank ≠ guildMaster)
    (hle : rank.toNat ≤ guildRanksMaxCount) : (g.changeRank guid rank).Ruled := by
  obtain ⟨m, hm, hguid, hrank, hunique⟩ := h.mastered
  refine ⟨⟨m, mem_changeRank.mpr ⟨m, hm, if_neg (hguid ▸ hne.symm)⟩, hguid, hrank, fun x hx => ?_⟩,
    h.min, h.max, fun x hx => ?_⟩
  · obtain ⟨y, hy, rfl⟩ := mem_changeRank.mp hx
    split
    · exact fun hr => absurd hr hzero
    · exact hunique y hy
  · obtain ⟨y, hy, rfl⟩ := mem_changeRank.mp hx
    split
    · exact hle
    · exact h.ranks y hy

theorem Ruled.replaceLeader (h : g.Ruled) {new : Member} (hnew : new ∈ g.members) {g' : Guild} (hsize : g'.getRanksSize = g.getRanksSize)
    (hleader : g'.leaderGuid = new.guid)
    (hmem : ∀ x ∈ g.members, x.guid = new.guid → x.changeRank guildMaster ∈ g'.members)
    (hold : ∀ x ∈ g'.members, x.guid = new.guid ∨ x.rank = officer ∨ x ∈ g.members ∧ x.guid ≠ g.leaderGuid)
    (hmaster : ∀ x ∈ g'.members, x.guid = new.guid → x.rank = guildMaster) : g'.Ruled := by
  obtain ⟨m, hm, hguid, hrank, hunique⟩ := h.mastered
  have hofficer : officer ≠ guildMaster := by decide
  refine ⟨⟨new.changeRank guildMaster, hmem new hnew rfl, hleader.symm, rfl, fun x hx hr => ?_⟩,
    hsize ▸ h.min, hsize ▸ h.max, fun x hx => ?_⟩
  · rcases hold x hx with hx' | hx' | ⟨hx', hxne⟩
    · exact hx'.trans hleader.symm
    · exact absurd (hx'.symm.trans hr) hofficer
    · exact absurd (hunique x hx' hr) hxne
  · rcases hold x hx with hx' | hx' | ⟨hx', -⟩
    · rw [hmaster x hx hx']
      exact Nat.zero_le _
    · rw [hx']
      decide
    · exact h.ranks x hx'

theorem Ruled.insertMember (h : g.Ruled) (hne : g.leaderGuid ≠ guid) (name : String) :
    (g.insertMember guid name).Ruled := by
  obtain ⟨m, hm, hguid, hrank, hunique⟩ := h.mastered
  have hlow := lowest_toNat h.min
  have hmin := h.min
  have hmax := h.max
  have h5 : guildRanksMinCount = 5 := rfl
  refine ⟨⟨m, (KeyedList.mem_put ..).mpr (.inr ⟨hm, hguid ▸ hne⟩), hguid, hrank, fun x hx hr => ?_⟩,
    h.min, h.max, fun x hx => ?_⟩
  · rcases (KeyedList.mem_put ..).mp hx with rfl | ⟨hx, -⟩
    · have hzero : g.getLowestRankId.toNat = 0 := congrArg UInt8.toNat hr
      omega
    · exact hunique x hx hr
  · rcases (KeyedList.mem_put ..).mp hx with rfl | ⟨hx, -⟩
    · show g.getLowestRankId.toNat ≤ _
      omega
    · exact h.ranks x hx

theorem Ruled.deleteMember (h : g.Ruled) (hg' : g.deleteMember guid = some g') : g'.Ruled := by
  obtain ⟨m, hm, hguid, hrank, hunique⟩ := h.mastered
  unfold Guild.deleteMember at hg'
  split at hg'
  · rename_i hleader
    obtain ⟨heir, hheir, rfl⟩ := Option.map_eq_some_iff.mp hg'
    obtain ⟨hmem, hne⟩ := heir_mem hheir
    have hfrom : ∀ x ∈ ((g.setLeaderGUID heir.guid).eraseMember guid).members,
        ∃ y ∈ g.members, (if y.guid = heir.guid then y.changeRank guildMaster else y) = x ∧ x.guid ≠ guid := by
      intro x hx
      obtain ⟨hx, hxne⟩ := (KeyedList.mem_erase ..).mp hx
      obtain ⟨y, hy, rfl⟩ := mem_changeRank.mp hx
      exact ⟨y, hy, rfl, hxne⟩
    refine h.replaceLeader hmem rfl rfl (fun x hx hxg => ?_) (fun x hx => ?_) fun x hx hxg => ?_
    · refine (KeyedList.mem_erase ..).mpr ⟨mem_changeRank.mpr ⟨x, hx, if_pos hxg⟩, ?_⟩
      exact hxg ▸ hne
    · obtain ⟨y, hy, rfl, hyne⟩ := hfrom x hx
      split
      · exact .inl ‹_›
      · rename_i hyh
        rw [if_neg hyh] at hyne
        exact .inr (.inr ⟨hy, hleader ▸ hyne⟩)
    · obtain ⟨y, hy, rfl, -⟩ := hfrom x hx
      split
      · rfl
      · rename_i hyh
        rw [if_neg hyh] at hxg
        exact absurd hxg hyh
  · rename_i hne
    rw [← Option.some.inj hg']
    refine ⟨⟨m, (KeyedList.mem_erase ..).mpr ⟨hm, hguid ▸ hne⟩, hguid, hrank, fun x hx => ?_⟩,
      h.min, h.max, fun x hx => ?_⟩
    · exact hunique x ((KeyedList.mem_erase ..).mp hx).1
    · exact h.ranks x ((KeyedList.mem_erase ..).mp hx).1

theorem Ruled.handleSetLeader (h : g.Ruled) {sender : ℕ} {name : String}
    (hother : g.isLeader sender = true → ∀ m ∈ g.getMemberByName name, m.guid ≠ sender) :
    (g.handleSetLeader sender name).Ruled := by
  rcases g.handleSetLeader_cases sender name with heq | ⟨new, hnew, hl, -, heq⟩
  · rwa [heq]
  · rw [heq]
    have hne : new.guid ≠ sender := hother hl new hnew
    have hsender : sender = g.leaderGuid := h.mastered.isLeader_iff.mp hl
    have hmem : new ∈ g.members := List.mem_of_find?_eq_some hnew
    have hfrom : ∀ x ∈ ((g.setLeaderGUID new.guid).changeRank sender officer).members, ∃ y ∈ g.members,
        x.guid = y.guid ∧ (y.guid = sender ∧ x.rank = officer ∨
          y.guid = new.guid ∧ x.rank = guildMaster ∨ y.guid ≠ sender ∧ y.guid ≠ new.guid ∧ x = y) := by
      intro x hx
      obtain ⟨z, hz, rfl⟩ := mem_changeRank.mp hx
      obtain ⟨y, hy, rfl⟩ := mem_changeRank.mp hz
      refine ⟨y, hy, ?_⟩
      by_cases hyn : y.guid = new.guid
      · have hys : (y.changeRank guildMaster).guid ≠ sender := fun heq => hne (hyn.symm.trans heq)
        rw [if_pos hyn, if_neg hys]
        exact ⟨rfl, .inr (.inl ⟨hyn, rfl⟩)⟩
      · rw [if_neg hyn]
        by_cases hys : y.guid = sender
        · rw [if_pos hys]
          exact ⟨rfl, .inl ⟨hys, rfl⟩⟩
        · rw [if_neg hys]
          exact ⟨rfl, .inr (.inr ⟨hys, hyn, rfl⟩)⟩
    refine h.replaceLeader hmem rfl rfl (fun x hx hxg => ?_) (fun x hx => ?_) fun x hx hxg => ?_
    · refine mem_changeRank.mpr ⟨x.changeRank guildMaster, mem_changeRank.mpr ⟨x, hx, if_pos hxg⟩, if_neg ?_⟩
      exact hxg ▸ hne
    · obtain ⟨y, hy, hxy, ⟨-, hr⟩ | ⟨hyn, -⟩ | ⟨hys, -, rfl⟩⟩ := hfrom x hx
      · exact .inr (.inl hr)
      · exact .inl (hxy.trans hyn)
      · exact .inr (.inr ⟨hy, hsender ▸ hys⟩)
    · obtain ⟨y, hy, hxy, ⟨hys, -⟩ | ⟨-, hr⟩ | ⟨-, hyn, rfl⟩⟩ := hfrom x hx
      · exact absurd (hxg.symm.trans (hxy.trans hys)) hne
      · exact hr
      · exact absurd hxg hyn

theorem Ruled.handleUpdateMemberRank (h : g.Ruled) (sender : ℕ) (name : String) (demote : Bool) :
    (g.handleUpdateMemberRank sender name demote).Ruled := by
  obtain ⟨l, hl, hlguid, hlrank, hunique⟩ := h.mastered
  have h10 : guildRanksMaxCount = 10 := rfl
  have h0 : guildMaster.toNat = 0 := rfl
  have h1 : (1 : UInt8).toNat = 1 := rfl
  have hlow := lowest_toNat h.min
  have hmax := h.max
  -- whoever is moved has a rank above zero, so he is not the leader
  have hother : ∀ m ∈ g.members, 0 < m.rank.toNat → m.guid ≠ g.leaderGuid := by
    intro m hm hpos hguid
    rw [g.members.eq_of_key_eq hm hl (hguid.trans hlguid.symm), hlrank] at hpos
    omega
  rcases g.handleUpdateMemberRank_cases sender name demote with
    heq | ⟨m, hm, me, hme, -, -, ⟨hme', hlow', heq⟩ | ⟨hhigh, heq⟩⟩
  · rwa [heq]
  · rw [heq]
    have hrank := h.ranks m hm
    have hlt := UInt8.lt_iff_toNat_lt.mp hme'
    have hlt' := UInt8.lt_iff_toNat_lt.mp hlow'
    have hnew : (m.rank + 1).toNat = m.rank.toNat + 1 := by
      rw [UInt8.toNat_add]
      omega
    refine h.changeRank (hother m hm (by omega)) (fun hzero => ?_) (by omega)
    rw [hzero] at hnew
    omega
  · rw [heq]
    have hrank := h.ranks m hm
    have hmerank := h.ranks me hme
    have hlt := UInt8.lt_iff_toNat_lt.mp hhigh
    rw [UInt8.toNat_add] at hlt
    have hnew : (m.rank - 1).toNat = m.rank.toNat - 1 := by
      rw [UInt8.toNat_sub]
      omega
    refine h.changeRank (hother m hm (by omega)) (fun hzero => ?_) (by omega)
    rw [hzero] at hnew
    omega

theorem Ruled.changeMemberRank (h : g.Ruled) {newRank : UInt8} (hne : guid ≠ g.leaderGuid)
    (hzero : newRank ≠ guildMaster) : (g.changeMemberRank guid newRank).Ruled := by
  unfold Guild.changeMemberRank
  split
  · rename_i hle
    have hlowest := UInt8.le_iff_toNat_le.mp hle
    rw [lowest_toNat h.min] at hlowest
    have hmax := h.max
    exact h.changeRank hne hzero (by omega)
  · exact h

theorem Ruled.of_ranks (h : g.Ruled) {ranks : List RankInfo}
    (hmin : guildRanksMinCount ≤ (UInt8.ofNat ranks.length).toNat)
    (hmax : (UInt8.ofNat ranks.length).toNat ≤ guildRanksMaxCount) : ({ g with ranks } : Guild).Ruled :=
  ⟨h.mastered, hmin, hmax, h.ranks⟩

theorem size_mod (ranks : List RankInfo) : (UInt8.ofNat ranks.length).toNat = ranks.length % 256 :=
  UInt8.toNat_ofNat'

theorem Ruled.handleAddNewRank (h : g.Ruled) (sender : ℕ) : (g.handleAddNewRank sender).Ruled := by
  unfold Guild.handleAddNewRank createRank
  split
  · exact h
  · split
    · exact h
    · rename_i hroom
      have hmin := h.min
      have hsize := size_mod g.ranks
      unfold getRanksSize at hroom hmin
      have h10 : guildRanksMaxCount = 10 := rfl
      refine h.of_ranks ?_ ?_
      · rw [size_mod, List.length_append, List.length_singleton]
        omega
      · rw [size_mod, List.length_append, List.length_singleton]
        omega

theorem Ruled.handleRemoveLowestRank (h : g.Ruled) (sender : ℕ) : (g.handleRemoveLowestRank sender).Ruled := by
  unfold Guild.handleRemoveLowestRank
  split
  · rename_i hmay
    simp only [mayRemoveRank, Bool.and_eq_true, decide_eq_true_eq] at hmay
    have hmin := hmay.1.1
    have hmax := h.max
    have hsize := size_mod g.ranks
    unfold getRanksSize at hmin hmax
    have h5 : guildRanksMinCount = 5 := rfl
    refine h.of_ranks ?_ ?_
    · rw [size_mod, List.length_dropLast]
      omega
    · rw [size_mod, List.length_dropLast]
      omega
  · exact h

/-! ### Loading -/

theorem repairRanks_size (g : Guild) : guildRanksMinCount ≤ g.repairRanks.getRanksSize.toNat ∧
    g.repairRanks.getRanksSize.toNat ≤ guildRanksMaxCount := by
  unfold repairRanks
  split
  · rename_i ha
    simp only [ranksAccepted, Bool.and_eq_true, decide_eq_true_eq] at ha
    exact ha.1
  · unfold getRanksSize
    rw [createDefaultGuildRanks_ranks rfl]
    decide

theorem repairMemberRanks_ranks (hmin : guildRanksMinCount ≤ g.getRanksSize.toNat)
    (hmax : g.getRanksSize.toNat ≤ guildRanksMaxCount) :
    ∀ m ∈ g.repairMemberRanks.members, m.rank.toNat ≤ guildRanksMaxCount := by
  have hlow := lowest_toNat hmin
  intro m hm
  obtain ⟨x, -, rfl⟩ := List.mem_map.mp hm
  split
  · show g.getLowestRankId.toNat ≤ _
    omega
  · rename_i hle
    rw [UInt8.lt_iff_toNat_lt] at hle
    omega

theorem repairLeader_led (h : ∀ m ∈ g.members, m.rank.toNat ≤ guildRanksMaxCount)
    (hg' : g.repairLeader = some g') : g'.ranks = g.ranks ∧
    (∃ m ∈ g'.members, m.guid = g'.leaderGuid ∧ m.rank = guildMaster) ∧
    ∀ m ∈ g'.members, m.rank.toNat ≤ guildRanksMaxCount := by
  have hset (x : ℕ) : ∀ m ∈ (g.setLeaderGUID x).members, m.rank.toNat ≤ guildRanksMaxCount := by
    intro m hm
    obtain ⟨y, hy, rfl⟩ := mem_changeRank.mp hm
    split
    · exact Nat.zero_le _
    · exact h y hy
  unfold repairLeader at hg'
  cases hm : g.getMember g.leaderGuid with
  | none =>
    rw [hm] at hg'
    unfold deleteMember at hg'
    rw [if_pos rfl] at hg'
    obtain ⟨heir, hheir, rfl⟩ := Option.map_eq_some_iff.mp hg'
    obtain ⟨hmem, hne⟩ := heir_mem hheir
    have hnew : heir.changeRank guildMaster ∈ (g.setLeaderGUID heir.guid).members :=
      mem_changeRank.mpr ⟨heir, hmem, if_pos rfl⟩
    refine ⟨rfl, ⟨_, (KeyedList.mem_erase ..).mpr ⟨hnew, hne⟩, rfl, rfl⟩, fun m hm => ?_⟩
    exact hset heir.guid m ((KeyedList.mem_erase ..).mp hm).1
  | some m =>
    rw [hm] at hg'
    obtain ⟨hmem, hguid⟩ := (g.members.find?_eq_some_iff g.leaderGuid m).mp hm
    dsimp only at hg'
    split at hg'
    · rename_i hmaster
      rw [← Option.some.inj hg']
      exact ⟨rfl, ⟨m, hmem, hguid, hmaster⟩, h⟩
    · rw [← Option.some.inj hg']
      exact ⟨rfl, ⟨_, mem_changeRank.mpr ⟨m, hmem, if_pos rfl⟩, rfl, rfl⟩, hset m.guid⟩

theorem validate_ruled (hg : g.validate false = some g') : g'.Ruled := by
  obtain ⟨g3, hg3, rfl⟩ := Option.map_eq_some_iff.mp hg
  obtain ⟨hmin, hmax⟩ := g.repairRanks_size
  obtain ⟨hranks, ⟨m, hm, hguid, hrank⟩, hle⟩ := repairLeader_led (repairMemberRanks_ranks hmin hmax) hg3
  have hsize : g3.getRanksSize = g.repairRanks.getRanksSize := by
    unfold getRanksSize
    rw [hranks]
    rfl
  have hofficer : officer ≠ guildMaster := by decide
  show (Guild.repairMasters g3).Ruled
  refine ⟨⟨m, List.mem_map.mpr ⟨m, hm, if_neg fun hne => hne.2 hguid⟩, hguid, hrank, fun x hx hr => ?_⟩,
    hsize ▸ hmin, hsize ▸ hmax, fun x hx => ?_⟩
  · obtain ⟨y, -, rfl⟩ := List.mem_map.mp hx
    split at hr
    · exact absurd hr hofficer
    · rename_i hkeep
      rw [if_neg hkeep]
      by_contra hne
      exact hkeep ⟨hr, hne⟩
  · obtain ⟨y, hy, rfl⟩ := List.mem_map.mp hx
    split
    · show officer.toNat ≤ guildRanksMaxCount
      decide
    · exact hle y hy

end Guild

namespace World
variable {w : World} {g : Guild}

/-- No leader names himself as the new leader, no leader is added to his own guild again (his guild
id field would have to be empty), and no game master changes a leader's rank or gives rank 0. -/
def KeepsMaster (w : World) : Event → Prop
  | .setLeader guid name => ∀ g ∈ w.guildOf guid, g.isLeader guid = true →
      ∀ m ∈ g.getMemberByName name, m.guid ≠ guid
  | .accept guid allowed => allowed = true → ∀ p ∈ w.players.find? guid, p.guildId = 0 →
      ∀ g ∈ w.getGuildById p.guildIdInvited, g.leaderGuid ≠ guid
  | .addMember guild guid _ => w.guildIdOf guid = 0 → ∀ g ∈ w.getGuildById guild, g.leaderGuid ≠ guid
  | .changeMemberRank guid newRank => newRank ≠ guildMaster ∧
      ∀ g ∈ w.getGuildById (w.guildIdOf guid), guid ≠ g.leaderGuid
  | _ => True

instance (w : World) : (e : Event) → Decidable (w.KeepsMaster e)
  | .setLeader _ _ => inferInstanceAs (Decidable (∀ _ ∈ _, _ → ∀ _ ∈ _, _))
  | .accept _ _ => inferInstanceAs (Decidable (_ → ∀ _ ∈ _, _ → ∀ _ ∈ _, _))
  | .addMember _ _ _ => inferInstanceAs (Decidable (_ → ∀ _ ∈ _, _))
  | .changeMemberRank _ _ => inferInstanceAs (Decidable (_ ∧ ∀ _ ∈ _, _))
  | .login _ _ | .logout _ | .invite _ _ _ | .decline _ | .leave _ | .remove _ _ | .disband _
  | .updateMemberRank _ _ _ | .addNewRank _ | .removeLowestRank _ | .deleteMember _ => .isTrue trivial

theorem GuildStep.ruled {e : Event} {g' : Guild} (hok : w.KeepsMaster e) (hstep : w.GuildStep e g g')
    (h : g.Ruled) : g'.Ruled := by
  cases hstep with
  | accept hp hfree hg => exact h.insertMember (hok rfl _ hp hfree _ hg) _
  | addMember hfree hg => exact h.insertMember (hok hfree _ hg) _
  | leave _ _ hg' => exact h.deleteMember hg'
  | remove _ _ _ _ _ hg' => exact h.deleteMember hg'
  | deleteMember _ hg' => exact h.deleteMember hg'
  | setLeader hg => exact h.handleSetLeader (hok g hg)
  | updateMemberRank => exact h.handleUpdateMemberRank _ _ _
  | addNewRank => exact h.handleAddNewRank _
  | removeLowestRank => exact h.handleRemoveLowestRank _
  | changeMemberRank hg => exact h.changeMemberRank (hok.2 g hg) hok.1

/-- Exactly one guild master, who is the leader, in every guild of every run in
which no leader names himself. -/
theorem mastered_of_reaches (h : Reaches step KeepsMaster (Loaded (fun _ => True) false) w)
    (hg : g ∈ w.guilds) : g.Mastered := by
  have hruled : ∀ g ∈ w.guilds, g.Ruled := by
    refine guilds_invariant (P := Guild.Ruled) (fun w hw g hg => ?_)
      (fun w e g g' hok hstep hr => hstep.ruled hok hr) h
    obtain ⟨t, -, hg⟩ := hw g hg
    exact Guild.validate_ruled hg
  exact (hruled g hg).mastered

theorem sampleWorld_loadedAny : sampleWorld.Loaded (fun _ => True) false :=
  sampleWorld_loaded (fun _ => True) trivial

theorem mastered_of_reaches_changed : ∃ w : World, ∃ g ∈ w.guilds, g.leaderGuid = 2 ∧ g.members.size = 1 ∧
    g.Mastered := by
  obtain ⟨w, hw, hp⟩ := Reaches.exists_of_replay step KeepsMaster sampleWorld_loadedAny
    [.login 1 "Ada", .setLeader 1 "Bel", .leave 1] (by decide +kernel)
    (fun w => w.guilds.rows.any fun g => decide (g.leaderGuid = 2) && decide (g.members.size = 1))
    (by decide +kernel)
  obtain ⟨g, hg, hprop⟩ := List.any_eq_true.mp hp
  simp only [Bool.and_eq_true, decide_eq_true_eq] at hprop
  exact ⟨w, g, hg, hprop.1, hprop.2, mastered_of_reaches hw hg⟩

theorem not_mastered : ¬ ∀ w : World, Reaches step anyStep (Loaded (fun _ => True) false) w →
    ∀ g ∈ w.guilds, g.Mastered := by
  intro h
  obtain ⟨w, hw, hp⟩ := Reaches.exists_of_replay step anyStep sampleWorld_loadedAny
    [.login 1 "Ada", .setLeader 1 "Ada"] (replayOk_anyStep ..)
    (fun w => w.guilds.rows.any fun g => g.members.rows.all fun m => decide (m.rank ≠ guildMaster))
    (by decide +kernel)
  obtain ⟨g, hg, hall⟩ := List.any_eq_true.mp hp
  obtain ⟨m, hm, -, hrank, -⟩ := h w hw g hg
  have hne := List.all_eq_true.mp hall m hm
  simp [hrank] at hne

end World

end HysteriaCore.Guilds
