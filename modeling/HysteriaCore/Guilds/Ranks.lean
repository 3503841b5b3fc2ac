import HysteriaCore.Guilds.Steps

/-!
# Ranks and the members who hold them

A rank id is an index into the vector of ranks. It stays one as long as a rank
is not removed while members hold it and no member is loaded with the number of
ranks as his rank.
-/

namespace HysteriaCore.Guilds
open Lib

variable {g' : Guild}

namespace Guild

/-- Every member's rank exists, rank i has id i, and there are five to ten ranks. -/
structure RanksValid (g : Guild) : Prop where
  ids : ∀ (i : ℕ) (r : RankInfo), g.ranks[i]? = some r → r.id.toNat = i
  min : guildRanksMinCount ≤ g.ranks.length
  max : g.ranks.length ≤ guildRanksMaxCount
  members : ∀ m ∈ g.members, m.rank.toNat < g.ranks.length

variable {g : Guild} {guid : ℕ}

theorem getRanksSize_toNat (h : g.ranks.length ≤ guildRanksMaxCount) :
    g.getRanksSize.toNat = g.ranks.length := by
  have hmax : guildRanksMaxCount = 10 := rfl
  have hmod : g.getRanksSize.toNat = g.ranks.length % 2 ^ 8 := UInt8.toNat_ofNat'
  omega

theorem getLowestRankId_toNat (h : g.RanksValid) : g.getLowestRankId.toNat = g.ranks.length - 1 := by
  have hsize := getRanksSize_toNat h.max
  have hmin := h.min
  have h5 : guildRanksMinCount = 5 := rfl
  have hmax := h.max
  have h10 : guildRanksMaxCount = 10 := rfl
  have h1 : (1 : UInt8).toNat = 1 := rfl
  unfold getLowestRankId
  rw [UInt8.toNat_sub]
  omega

/-! ### The routines -/

theorem RanksValid.of_members (h : g.RanksValid) (hranks : g'.ranks = g.ranks)
    (hmembers : ∀ m ∈ g'.members, m.rank.toNat < g.ranks.length) : g'.RanksValid := by
  refine ⟨?_, ?_, ?_, ?_⟩
  · rw [hranks]
    exact h.ids
  · rw [hranks]
    exact h.min
  · rw [hranks]
    exact h.max
  · rw [hranks]
    exact hmembers

theorem RanksValid.changeRank (h : g.RanksValid) {rank : UInt8} (hrank : rank.toNat < g.ranks.length)
    (guid : ℕ) : (g.changeRank guid rank).RanksValid := by
  refine h.of_members rfl fun m hm => ?_
  obtain ⟨x, hx, rfl⟩ := mem_changeRank.mp hm
  split
  · exact hrank
  · exact h.members x hx

theorem RanksValid.guildMaster_lt (h : g.RanksValid) : guildMaster.toNat < g.ranks.length := by
  have hmin := h.min
  have h5 : guildRanksMinCount = 5 := rfl
  have h0 : guildMaster.toNat = 0 := rfl
  omega

theorem RanksValid.setLeaderGUID (h : g.RanksValid) (guid : ℕ) : (g.setLeaderGUID guid).RanksValid := by
  have hled : RanksValid { g with leaderGuid := guid } := h.of_members rfl h.members
  exact hled.changeRank h.guildMaster_lt guid

theorem RanksValid.insertMember (h : g.RanksValid) (guid : ℕ) (name : String) :
    (g.insertMember guid name).RanksValid := by
  refine h.of_members rfl fun m hm => ?_
  rcases (KeyedList.mem_put ..).mp hm with rfl | ⟨hm, -⟩
  · have hmin := h.min
    have h5 : guildRanksMinCount = 5 := rfl
    show g.getLowestRankId.toNat < _
    rw [getLowestRankId_toNat h]
    omega
  · exact h.members m hm

theorem RanksValid.eraseMember (h : g.RanksValid) (guid : ℕ) : (g.eraseMember guid).RanksValid :=
  h.of_members rfl fun m hm => h.members m ((KeyedList.mem_erase ..).mp hm).1

theorem RanksValid.deleteMember (h : g.RanksValid) (hg' : g.deleteMember guid = some g') : g'.RanksValid := by
  unfold Guild.deleteMember at hg'
  split at hg'
  · obtain ⟨m, -, rfl⟩ := Option.map_eq_some_iff.mp hg'
    exact (h.setLeaderGUID m.guid).eraseMember guid
  · rw [← Option.some.inj hg']
    exact h.eraseMember guid

theorem RanksValid.handleSetLeader (h : g.RanksValid) (sender : ℕ) (name : String) :
    (g.handleSetLeader sender name).RanksValid := by
  rcases g.handleSetLeader_cases sender name with heq | ⟨new, -, -, -, heq⟩
  · rwa [heq]
  · rw [heq]
    have hmin := h.min
    have h5 : guildRanksMinCount = 5 := rfl
    have h1 : officer.toNat = 1 := rfl
    have hofficer : officer.toNat < g.ranks.length := by omega
    exact (h.setLeaderGUID new.guid).changeRank hofficer sender

theorem RanksValid.handleUpdateMemberRank (h : g.RanksValid) (sender : ℕ) (name : String) (demote : Bool) :
    (g.handleUpdateMemberRank sender name demote).RanksValid := by
  have hmax := h.max
  have h10 : guildRanksMaxCount = 10 := rfl
  have h1 : (1 : UInt8).toNat = 1 := rfl
  rcases g.handleUpdateMemberRank_cases sender name demote with
    heq | ⟨m, hm, me, -, -, -, ⟨-, hlow, heq⟩ | ⟨hhigh, heq⟩⟩
  · rwa [heq]
  · rw [heq]
    have hlow' := UInt8.lt_iff_toNat_lt.mp hlow
    rw [getLowestRankId_toNat h] at hlow'
    refine h.changeRank ?_ m.guid
    rw [UInt8.toNat_add]
    omega
  · rw [heq]
    have hlt := h.members m hm
    have hhigh' := UInt8.lt_iff_toNat_lt.mp hhigh
    refine h.changeRank ?_ m.guid
    rw [UInt8.toNat_sub]
    omega

theorem RanksValid.changeMemberRank (h : g.RanksValid) (guid : ℕ) (newRank : UInt8) :
    (g.changeMemberRank guid newRank).RanksValid := by
  unfold Guild.changeMemberRank
  split
  · rename_i hle
    have hlowest := UInt8.le_iff_toNat_le.mp hle
    rw [getLowestRankId_toNat h] at hlowest
    have hpos := h.guildMaster_lt
    exact h.changeRank (by omega) guid
  · exact h

theorem RanksValid.createRank (h : g.RanksValid) (rights : UInt32) : (g.createRank rights).RanksValid := by
  unfold Guild.createRank
  split
  · exact h
  · rename_i hroom
    have hsize := getRanksSize_toNat h.max
    have hmin := h.min
    refine ⟨fun i r hr => ?_, ?_, ?_, fun m hm => ?_⟩
    · rcases Nat.lt_trichotomy i g.ranks.length with hi | hi | hi
      · rw [List.getElem?_append_left hi] at hr
        exact h.ids i r hr
      · subst hi
        rw [List.getElem?_append_right le_rfl, Nat.sub_self] at hr
        rw [← Option.some.inj hr]
        exact hsize
      · have hnone : (g.ranks ++ [⟨g.getRanksSize, rights⟩])[i]? = none := by
          apply List.getElem?_eq_none
          rw [List.length_append, List.length_singleton]
          omega
        rw [hnone] at hr
        exact absurd hr (by simp)
    · show _ ≤ (g.ranks ++ [_]).length
      rw [List.length_append]
      omega
    · show (g.ranks ++ [_]).length ≤ _
      rw [List.length_append, List.length_singleton]
      omega
    · have hlt := h.members m hm
      show _ < (g.ranks ++ [_]).length
      rw [List.length_append]
      omega

theorem RanksValid.handleAddNewRank (h : g.RanksValid) (sender : ℕ) : (g.handleAddNewRank sender).RanksValid := by
  unfold Guild.handleAddNewRank
  split
  · exact h
  · exact h.createRank rightGchat

theorem RanksValid.handleRemoveLowestRank (h : g.RanksValid) (sender : ℕ)
    (hunused : g.mayRemoveRank sender = true → ∀ m ∈ g.members, m.rank ≠ g.getLowestRankId) :
    (g.handleRemoveLowestRank sender).RanksValid := by
  unfold Guild.handleRemoveLowestRank
  split
  · rename_i hmay
    have hmin : guildRanksMinCount < g.ranks.length := by
      simp only [mayRemoveRank, Bool.and_eq_true, decide_eq_true_eq, getRanksSize_toNat h.max] at hmay
      exact hmay.1.1
    have hmax := h.max
    refine ⟨fun i r hr => ?_, ?_, ?_, fun m hm => ?_⟩
    · rw [List.getElem?_dropLast] at hr
      split at hr
      · exact h.ids i r hr
      · exact absurd hr (by simp)
    · show _ ≤ g.ranks.dropLast.length
      rw [List.length_dropLast]
      omega
    · show g.ranks.dropLast.length ≤ _
      rw [List.length_dropLast]
      omega
    · have hlt := h.members m hm
      have hne : m.rank.toNat ≠ g.ranks.length - 1 := by
        rw [← getLowestRankId_toNat h]
        exact fun heq => hunused hmay m hm (UInt8.toNat_inj.mp heq)
      show _ < g.ranks.dropLast.length
      rw [List.length_dropLast]
      omega
  · exact h

/-! ### Loading -/

theorem createDefaultGuildRanks_ranks (h : g.ranks = []) : g.createDefaultGuildRanks.ranks =
    [⟨0, rightAll⟩, ⟨1, rightAll⟩, ⟨2, rightGchat⟩, ⟨3, rightGchat⟩, ⟨4, rightGchat⟩] := by
  obtain ⟨id, leaderGuid, ranks, members⟩ := g
  subst h
  rfl

namespace Tables
variable (t : Tables)

def rankCount : ℕ := if (loadFromDB t).ranksAccepted then t.ranks.length else guildRanksMinCount

/-- What keeps the loaded ranks valid: the row count is what one byte says it is,
and nobody's rank is the number of ranks, but for the leader and for a single
member who becomes the leader. -/
structure RanksFit : Prop where
  size : (loadFromDB t).ranksAccepted = true → t.ranks.length < 256
  members : ∀ m ∈ (loadFromDB t).members, m.rank.toNat = t.rankCount →
    m.guid = t.leaderGuid ∨ ∀ m' ∈ (loadFromDB t).members, m'.guid = m.guid

end Tables

variable {t : Tables}

theorem ranks_of_accepted (ha : g.ranksAccepted = true) (hlt : g.ranks.length < 256) :
    (∀ (i : ℕ) (r : RankInfo), g.ranks[i]? = some r → r.id.toNat = i) ∧
      guildRanksMinCount ≤ g.ranks.length ∧ g.ranks.length ≤ guildRanksMaxCount := by
  have hsize : g.getRanksSize.toNat = g.ranks.length := by
    have hmod : g.getRanksSize.toNat = g.ranks.length % 2 ^ 8 := UInt8.toNat_ofNat'
    omega
  simp only [ranksAccepted, Bool.and_eq_true, decide_eq_true_eq, hsize, List.all_eq_true] at ha
  obtain ⟨⟨hmin, hmax⟩, hids⟩ := ha
  refine ⟨fun i r hr => ?_, hmin, hmax⟩
  have hi : i < g.ranks.length := by
    by_contra hge
    rw [List.getElem?_eq_none (by omega)] at hr
    exact absurd hr (by simp)
  have hid := hids i (List.mem_range.mpr hi)
  rw [hr] at hid
  simpa using hid

theorem repairRanks_ranks (h : t.RanksFit) :
    (∀ (i : ℕ) (r : RankInfo), (loadFromDB t).repairRanks.ranks[i]? = some r → r.id.toNat = i) ∧
      guildRanksMinCount ≤ t.rankCount ∧ t.rankCount ≤ guildRanksMaxCount ∧
      (loadFromDB t).repairRanks.ranks.length = t.rankCount := by
  have hlength : (loadFromDB t).ranks.length = t.ranks.length := List.length_map _
  unfold Tables.rankCount repairRanks
  by_cases ha : (loadFromDB t).ranksAccepted = true
  · rw [if_pos ha, if_pos ha]
    obtain ⟨hids, hmin, hmax⟩ := ranks_of_accepted ha (hlength ▸ h.size ha)
    exact ⟨hids, hlength ▸ hmin, hlength ▸ hmax, hlength⟩
  · rw [if_neg ha, if_neg ha, createDefaultGuildRanks_ranks rfl]
    refine ⟨fun i r hr => ?_, le_rfl, by decide, rfl⟩
    match i, hr with
    | 0, hr | 1, hr | 2, hr | 3, hr | 4, hr =>
      rw [← Option.some.inj hr]
      rfl
    | _ + 5, hr => exact absurd hr (by simp)

theorem repairRanks_members (g : Guild) : g.repairRanks.members = g.members := by
  unfold repairRanks createDefaultGuildRanks
  split
  · rfl
  · unfold createRank
    repeat' split
    all_goals rfl

theorem repairRanks_leaderGuid (g : Guild) : g.repairRanks.leaderGuid = g.leaderGuid := by
  unfold repairRanks createDefaultGuildRanks
  split
  · rfl
  · unfold createRank
    repeat' split
    all_goals rfl

theorem foldl_betterHeir_mem (rows : List Member) (leader : ℕ) (best : Option Member) {m : Member}
    (h : rows.foldl (betterHeir leader) best = some m) : (m ∈ rows ∧ m.guid ≠ leader) ∨ best = some m := by
  induction rows generalizing best with
  | nil => exact .inr h
  | cons x rows ih =>
    rcases ih _ h with ⟨hm, hne⟩ | hbest
    · exact .inl ⟨List.mem_cons_of_mem x hm, hne⟩
    · unfold betterHeir at hbest
      split at hbest
      · exact .inr hbest
      · rename_i hne
        split at hbest
        · rw [← Option.some.inj hbest]
          exact .inl ⟨List.mem_cons_self, hne⟩
        · split at hbest
          · rw [← Option.some.inj hbest]
            exact .inl ⟨List.mem_cons_self, hne⟩
          · exact .inr hbest

theorem heir_mem {leader : ℕ} {m : Member} (h : g.heir leader = some m) :
    m ∈ g.members ∧ m.guid ≠ leader := by
  rcases foldl_betterHeir_mem _ leader none h with h | h
  · exact h
  · exact absurd h (by simp)

theorem repairLeader_spec {n : ℕ} (hpos : 0 < n)
    (h : ∀ m ∈ g.members, m.rank.toNat < n ∨ m.guid = g.leaderGuid ∨ ∀ m' ∈ g.members, m'.guid = m.guid)
    (hg' : g.repairLeader = some g') : g'.ranks = g.ranks ∧ ∀ m ∈ g'.members, m.rank.toNat < n := by
  have hzero : guildMaster.toNat = 0 := rfl
  unfold repairLeader at hg'
  cases hm : g.getMember g.leaderGuid with
  | none =>
    rw [hm] at hg'
    have habsent := (g.members.find?_eq_none_iff g.leaderGuid).mp hm
    unfold deleteMember at hg'
    rw [if_pos rfl] at hg'
    obtain ⟨heir, hheir, rfl⟩ := Option.map_eq_some_iff.mp hg'
    obtain ⟨hmem, -⟩ := heir_mem hheir
    refine ⟨rfl, fun x hx => ?_⟩
    obtain ⟨y, hy, rfl⟩ := mem_changeRank.mp ((KeyedList.mem_erase ..).mp hx).1
    split
    · show guildMaster.toNat < n
      omega
    · rename_i hne
      rcases h y hy with hlt | hlead | hsole
      · exact hlt
      · exact absurd hlead (habsent y hy)
      · exact absurd (hsole heir hmem).symm hne
  | some m =>
    rw [hm] at hg'
    obtain ⟨hmem, hguid⟩ := (g.members.find?_eq_some_iff g.leaderGuid m).mp hm
    dsimp only at hg'
    split at hg'
    · rename_i hmaster
      rw [← Option.some.inj hg']
      refine ⟨rfl, fun x hx => ?_⟩
      have hlead : x.guid = g.leaderGuid → x.rank.toNat < n := by
        intro hxg
        have hxm : x = m := g.members.eq_of_key_eq hx hmem (hxg.trans hguid.symm)
        rw [hxm, hmaster]
        omega
      rcases h x hx with hlt | hxg | hsole
      · exact hlt
      · exact hlead hxg
      · exact hlead ((hsole m hmem).symm.trans hguid)
    · rw [← Option.some.inj hg']
      refine ⟨rfl, fun x hx => ?_⟩
      obtain ⟨y, hy, rfl⟩ := mem_changeRank.mp hx
      split
      · show guildMaster.toNat < n
        omega
      · rename_i hne
        rcases h y hy with hlt | hxg | hsole
        · exact hlt
        · exact absurd (hxg.trans hguid.symm) hne
        · exact absurd (hsole m hmem).symm hne

theorem validate_ranksValid (h : t.RanksFit) {allow : Bool} (hg : (loadFromDB t).validate allow = some g) :
    g.RanksValid := by
  obtain ⟨hids, hmin, hmax, hlength⟩ := repairRanks_ranks h
  have h5 : guildRanksMinCount = 5 := rfl
  have h10 : guildRanksMaxCount = 10 := rfl
  have h1 : (1 : UInt8).toNat = 1 := rfl
  set g1 := (loadFromDB t).repairRanks with hg1
  have hmembers1 : g1.members = (loadFromDB t).members := repairRanks_members _
  have hleader1 : g1.leaderGuid = t.leaderGuid := repairRanks_leaderGuid _
  have hsize1 : g1.getRanksSize.toNat = t.rankCount := by
    rw [getRanksSize_toNat (by omega), hlength]
  have hlow1 : g1.getLowestRankId.toNat = t.rankCount - 1 := by
    unfold getLowestRankId
    rw [UInt8.toNat_sub]
    omega
  obtain ⟨g3, hg3, rfl⟩ := Option.map_eq_some_iff.mp hg
  have hrepair : ∀ m ∈ g1.repairMemberRanks.members, m.rank.toNat < t.rankCount ∨
      m.guid = g1.repairMemberRanks.leaderGuid ∨
      ∀ m' ∈ g1.repairMemberRanks.members, m'.guid = m.guid := by
    intro m hm
    obtain ⟨x, hx, rfl⟩ := List.mem_map.mp hm
    have hx' : x ∈ (loadFromDB t).members := hmembers1 ▸ hx
    split
    · left
      show g1.getLowestRankId.toNat < _
      omega
    · rename_i hle
      rw [UInt8.lt_iff_toNat_lt, hsize1] at hle
      rcases Nat.lt_or_ge x.rank.toNat t.rankCount with hlt | hge
      · exact .inl hlt
      · rcases h.members x hx' (by omega) with hlead | hsole
        · exact .inr (.inl (hlead.trans hleader1.symm))
        · refine .inr (.inr fun m' hm' => ?_)
          obtain ⟨y, hy, rfl⟩ := List.mem_map.mp hm'
          have hy' : y ∈ (loadFromDB t).members := hmembers1 ▸ hy
          split
          · exact hsole y hy'
          · exact hsole y hy'
  obtain ⟨hranks3, hmembers3⟩ := repairLeader_spec (n := t.rankCount) (by omega) hrepair hg3
  have hranks3' : g3.ranks = g1.ranks := hranks3
  have hvalid3 : g3.RanksValid :=
    ⟨hranks3' ▸ hids, by rw [hranks3', hlength]; exact hmin, by rw [hranks3', hlength]; exact hmax,
      by rw [hranks3', hlength]; exact hmembers3⟩
  split
  · exact hvalid3
  · refine hvalid3.of_members rfl fun m hm => ?_
    obtain ⟨x, hx, rfl⟩ := List.mem_map.mp hm
    split
    · have hofficer : officer.toNat = 1 := rfl
      show officer.toNat < g3.ranks.length
      have := hvalid3.min
      omega
    · exact hvalid3.members x hx

end Guild

namespace World
variable {w : World} {g : Guild}

def KeepsRanks (w : World) : Event → Prop
  | .removeLowestRank guid => ∀ g ∈ w.guildOf guid, g.mayRemoveRank guid = true →
      ∀ m ∈ g.members.rows, m.rank ≠ g.getLowestRankId
  | _ => True

instance (w : World) : (e : Event) → Decidable (w.KeepsRanks e)
  | .removeLowestRank _ => inferInstanceAs (Decidable (∀ _ ∈ _, _ → ∀ _ ∈ _, _))
  | .login _ _ | .logout _ | .invite _ _ _ | .accept _ _ | .decline _ | .leave _ | .remove _ _ | .disband _
  | .setLeader _ _ | .updateMemberRank _ _ _ | .addNewRank _ | .addMember _ _ _ | .deleteMember _
  | .changeMemberRank _ _ => .isTrue trivial

theorem GuildStep.ranksValid {e : Event} (hok : w.KeepsRanks e) (hstep : w.GuildStep e g g')
    (h : g.RanksValid) : g'.RanksValid := by
  cases hstep with
  | accept => exact h.insertMember _ _
  | addMember => exact h.insertMember _ _
  | leave _ _ hg' => exact h.deleteMember hg'
  | remove _ _ _ _ _ hg' => exact h.deleteMember hg'
  | deleteMember _ hg' => exact h.deleteMember hg'
  | setLeader => exact h.handleSetLeader _ _
  | updateMemberRank => exact h.handleUpdateMemberRank _ _ _
  | addNewRank => exact h.handleAddNewRank _
  | removeLowestRank hg => exact h.handleRemoveLowestRank _ (hok g hg)
  | changeMemberRank => exact h.changeMemberRank _ _

/-- Guild ranks stay valid in every run from tables that fit, as long as no rank
is removed while members hold it. -/
theorem ranksValid_of_reaches {allow : Bool}
    (h : Reaches step KeepsRanks (Loaded Guild.Tables.RanksFit allow) w) (hg : g ∈ w.guilds) :
    g.RanksValid := by
  refine guilds_invariant (P := Guild.RanksValid) (fun w hw g hg => ?_) (fun w e g g' hok hstep hv => ?_) h g hg
  · obtain ⟨t, ht, hg⟩ := hw g hg
    exact Guild.validate_ranksValid ht hg
  · exact hstep.ranksValid hok hv

end World

def sampleTables : Guild.Tables where
  id := 7
  leaderGuid := 1
  ranks := [(0, rightAll), (1, rightAll), (2, rightGchat), (3, rightGchat), (4, rightGchat), (5, rightGchat)]
  members := [⟨1, 0, "Ada", 80, 1⟩, ⟨2, 5, "Bel", 80, 4⟩]

def sampleGuild : Guild := ((Guild.loadFromDB sampleTables).validate false).getD (Guild.loadFromDB sampleTables)

theorem validate_sampleTables : (Guild.loadFromDB sampleTables).validate false = some sampleGuild := by
  have hsome : ((Guild.loadFromDB sampleTables).validate false).isSome = true := by decide +kernel
  obtain ⟨g, hg⟩ := Option.isSome_iff_exists.mp hsome
  rw [sampleGuild, hg]
  rfl

def sampleWorld : World where
  players := KeyedList.empty
  guilds := KeyedList.empty.put sampleGuild
  storage guid := if guid = 1 ∨ guid = 2 then 7 else 0

theorem sampleWorld_loaded (ok : Guild.Tables → Prop) (hok : ok sampleTables) : sampleWorld.Loaded ok false := by
  intro g hg
  rcases (KeyedList.mem_put ..).mp hg with rfl | ⟨hg, -⟩
  · exact ⟨sampleTables, hok, validate_sampleTables⟩
  · exact absurd hg (by simp [KeyedList.mem_rows, KeyedList.empty])

namespace World

/-- The lowest rank is added and removed, and a member is promoted and demoted. -/
theorem ranksValid_of_reaches_sample : ∃ w : World, ∃ g ∈ w.guilds, g.ranks.length = 6 ∧ g.members.size = 2 ∧
    g.RanksValid := by
  have hfit : sampleTables.RanksFit := by
    refine ⟨fun _ => by decide, fun m hm hrank => absurd hrank ?_⟩
    have hall : ∀ m ∈ (Guild.loadFromDB sampleTables).members.rows, m.rank.toNat ≠ sampleTables.rankCount := by
      decide +kernel
    exact hall m hm
  obtain ⟨w, hw, hp⟩ := Reaches.exists_of_replay step KeepsRanks (sampleWorld_loaded _ hfit)
    [.login 1 "Ada", .addNewRank 1, .updateMemberRank 1 "Bel" true, .updateMemberRank 1 "Bel" false,
      .removeLowestRank 1]
    (by decide +kernel)
    (fun w => w.guilds.rows.any fun g => decide (g.ranks.length = 6) && decide (g.members.size = 2))
    (by decide +kernel)
  obtain ⟨g, hg, hprop⟩ := List.any_eq_true.mp hp
  simp only [Bool.and_eq_true, decide_eq_true_eq] at hprop
  exact ⟨w, g, hg, hprop.1, hprop.2, ranksValid_of_reaches hw hg⟩

theorem not_ranksValid : ¬ ∀ w : World, Reaches step anyStep (Loaded (fun _ => True) false) w →
    ∀ g ∈ w.guilds, g.RanksValid := by
  intro h
  obtain ⟨w, hw, hp⟩ := Reaches.exists_of_replay step anyStep
    (sampleWorld_loaded (fun _ => True) trivial)
    [.login 1 "Ada", .removeLowestRank 1] (replayOk_anyStep ..)
    (fun w => w.guilds.rows.any fun g => g.members.rows.any fun m => decide (g.ranks.length ≤ m.rank.toNat))
    (by decide +kernel)
  obtain ⟨g, hg, hany⟩ := List.any_eq_true.mp hp
  obtain ⟨m, hm, hle⟩ := List.any_eq_true.mp hany
  have hlt := (h w hw g hg).members m hm
  simp only [decide_eq_true_eq] at hle
  omega

end World

end HysteriaCore.Guilds
