import HysteriaCore.Guilds.Handlers

/-!
# What a request can do to a guild

Every guild after a request is a guild from before it, or what one routine makes
of one; the invariants of guilds are cases on this.
-/

namespace HysteriaCore.Guilds
open Lib

namespace Guild
variable {g : Guild} {guid : ℕ}

theorem mem_changeRank {rank : UInt8} {m : Member} : m ∈ (g.changeRank guid rank).members ↔
    ∃ x ∈ g.members, (if x.guid = guid then x.changeRank rank else x) = m :=
  g.members.mem_adjust guid (fun m => m.changeRank rank) (fun _ => rfl) m

theorem handleSetLeader_cases (g : Guild) (sender : ℕ) (name : String) :
    g.handleSetLeader sender name = g ∨
    ∃ new, g.getMemberByName name = some new ∧ g.isLeader sender = true ∧
      (g.getMember sender).isSome = true ∧
      g.handleSetLeader sender name = (g.setLeaderGUID new.guid).changeRank sender officer := by
  unfold handleSetLeader
  cases hl : g.isLeader sender with
  | false => exact .inl (if_pos rfl)
  | true =>
    rw [if_neg (by simp)]
    cases hme : g.getMember sender with
    | none => exact .inl rfl
    | some me =>
      cases hnew : g.getMemberByName name with
      | none => exact .inl rfl
      | some new => exact .inr ⟨new, rfl, rfl, rfl, rfl⟩

theorem handleUpdateMemberRank_cases (g : Guild) (sender : ℕ) (name : String) (demote : Bool) :
    g.handleUpdateMemberRank sender name demote = g ∨
    ∃ m ∈ g.members, ∃ me ∈ g.members, m.guid ≠ sender ∧ me.guid = sender ∧
      (me.rank < m.rank ∧ m.rank < g.getLowestRankId ∧
        g.handleUpdateMemberRank sender name demote = g.changeRank m.guid (m.rank + 1) ∨
      me.rank + 1 < m.rank ∧
        g.handleUpdateMemberRank sender name demote = g.changeRank m.guid (m.rank - 1)) := by
  unfold handleUpdateMemberRank
  cases hr : g.hasRankRight sender (if demote then rightDemote else rightPromote) with
  | false => exact .inl (if_pos rfl)
  | true =>
    rw [if_neg (by simp)]
    cases hm : g.getMemberByName name with
    | none => exact .inl rfl
    | some m =>
      cases hme : g.getMember sender with
      | none => exact .inl rfl
      | some me =>
        have hmem : m ∈ g.members := List.mem_of_find?_eq_some hm
        obtain ⟨hmemMe, hguid⟩ := (g.members.find?_eq_some_iff sender me).mp hme
        dsimp only
        by_cases hself : m.guid = sender
        · exact .inl (if_pos hself)
        · rw [if_neg hself]
          cases demote with
          | true =>
            rw [if_pos rfl]
            by_cases hpass : (m.isRankNotLower me.rank || decide (g.getLowestRankId ≤ m.rank)) = true
            · exact .inl (if_pos hpass)
            · rw [if_neg hpass]
              simp only [Member.isRankNotLower, Bool.or_eq_true, decide_eq_true_eq, not_or,
                UInt8.not_le] at hpass
              exact .inr ⟨m, hmem, me, hmemMe, hself, hguid, .inl ⟨hpass.1, hpass.2, rfl⟩⟩
          | false =>
            rw [if_neg (by simp)]
            by_cases hpass : m.isRankNotLower (me.rank + 1) = true
            · exact .inl (if_pos hpass)
            · rw [if_neg hpass]
              simp only [Member.isRankNotLower, decide_eq_true_eq, UInt8.not_le] at hpass
              exact .inr ⟨m, hmem, me, hmemMe, hself, hguid, .inr ⟨hpass, rfl⟩⟩

end Guild

namespace World

/-- What an event makes of a guild that it changes and leaves in existence. -/
inductive GuildStep (w : World) : Event → Guild → Guild → Prop
  | accept {guid : ℕ} {p : Player} {g : Guild} (hp : w.players.find? guid = some p) (hfree : p.guildId = 0)
      (hg : w.getGuildById p.guildIdInvited = some g) :
      GuildStep w (.accept guid true) g (g.insertMember guid p.name)
  | addMember {guild guid : ℕ} {name name' : String} {g : Guild} (hfree : w.guildIdOf guid = 0)
      (hg : w.getGuildById guild = some g) :
      GuildStep w (.addMember guild guid name) g (g.insertMember guid name')
  | leave {guid : ℕ} {g g' : Guild} (hg : w.guildOf guid = some g) (hl : g.isLeader guid = false)
      (hg' : g.deleteMember guid = some g') : GuildStep w (.leave guid) g g'
  | remove {guid : ℕ} {name : String} {g g' : Guild} {m me : Member} (hg : w.guildOf guid = some g)
      (hm : g.getMemberByName name = some m) (hme : g.getMember guid = some me)
      (hlower : m.isRankNotLower me.rank = false) (hrank : m.rank ≠ guildMaster)
      (hg' : g.deleteMember m.guid = some g') : GuildStep w (.remove guid name) g g'
  | deleteMember {guid : ℕ} {g g' : Guild} (hg : w.getGuildById (w.storage guid) = some g)
      (hg' : g.deleteMember guid = some g') : GuildStep w (.deleteMember guid) g g'
  | setLeader {guid : ℕ} {name : String} {g : Guild} (hg : w.guildOf guid = some g) :
      GuildStep w (.setLeader guid name) g (g.handleSetLeader guid name)
  | updateMemberRank {guid : ℕ} {name : String} {demote : Bool} {g : Guild} (hg : w.guildOf guid = some g) :
      GuildStep w (.updateMemberRank guid name demote) g (g.handleUpdateMemberRank guid name demote)
  | addNewRank {guid : ℕ} {g : Guild} (hg : w.guildOf guid = some g) :
      GuildStep w (.addNewRank guid) g (g.handleAddNewRank guid)
  | removeLowestRank {guid : ℕ} {g : Guild} (hg : w.guildOf guid = some g) :
      GuildStep w (.removeLowestRank guid) g (g.handleRemoveLowestRank guid)
  | changeMemberRank {guid : ℕ} {newRank : UInt8} {g : Guild} (hg : w.getGuildById (w.guildIdOf guid) = some g) :
      GuildStep w (.changeMemberRank guid newRank) g (g.changeMemberRank guid newRank)

variable {w : World} {g g' : Guild} {guid : ℕ}

theorem getGuildById_mem {id : ℕ} (h : w.getGuildById id = some g) : g ∈ w.guilds ∧ g.id = id :=
  (w.guilds.find?_eq_some_iff id g).mp h

theorem guildOf_mem (h : w.guildOf guid = some g) : g ∈ w.guilds := by
  obtain ⟨p, -, hg⟩ := Option.bind_eq_some_iff.mp h
  split at hg
  · exact absurd hg (by simp)
  · exact (getGuildById_mem hg).1

theorem withGuild_cases {f : Guild → World} {P : World → Prop} (hsame : P w)
    (h : ∀ g, w.guildOf guid = some g → P (f g)) : P (w.withGuild guid f) := by
  unfold withGuild
  cases hg : w.guildOf guid with
  | none => exact hsame
  | some g => exact h g hg

/-! ### The guilds after the operations of a world -/

theorem mem_putGuild (h : g ∈ (w.putGuild g').guilds) : g ∈ w.guilds ∨ g = g' := by
  rcases (w.guilds.mem_put g' g).mp h with rfl | ⟨h, -⟩
  · exact .inr rfl
  · exact .inl h

theorem mem_withGuild_putGuild {f : Guild → Guild} (h : g' ∈ (w.withGuild guid fun g => w.putGuild (f g)).guilds) :
    g' ∈ w.guilds ∨ ∃ g, w.guildOf guid = some g ∧ g' = f g := by
  revert h
  refine withGuild_cases (P := fun w' => g' ∈ w'.guilds → _) (fun h => .inl h) fun g hg h => ?_
  exact (mem_putGuild h).imp_right fun heq => ⟨g, hg, heq⟩

theorem foldl_setInGuild_guilds (rows : List Member) (w : World) :
    (rows.foldl (fun w m => w.setInGuild m.guid 0) w).guilds = w.guilds := by
  induction rows generalizing w with
  | nil => rfl
  | cons m rows ih => exact ih _

theorem disband_guilds (w : World) (g : Guild) : (w.disband g).guilds = w.guilds.erase g.id := by
  unfold disband
  dsimp only
  rw [foldl_setInGuild_guilds]

theorem mem_disband (h : g ∈ (w.disband g').guilds) : g ∈ w.guilds := by
  rw [disband_guilds] at h
  exact ((w.guilds.mem_erase g'.id g).mp h).1

theorem mem_deleteMember (h : g ∈ (w.deleteMember g' guid).guilds) :
    g ∈ w.guilds ∨ g'.deleteMember guid = some g := by
  unfold deleteMember at h
  cases hdel : g'.deleteMember guid with
  | none =>
    rw [hdel] at h
    exact .inl (mem_disband h)
  | some x =>
    rw [hdel] at h
    rcases mem_putGuild h with h | rfl
    · exact .inl h
    · exact .inr rfl

theorem mem_addMember {name : String} (h : g ∈ (w.addMember g' guid name).guilds) :
    g ∈ w.guilds ∨ w.guildIdOf guid = 0 ∧
      ((∃ p, w.players.find? guid = some p ∧ g = g'.insertMember guid p.name) ∨
        g = g'.insertMember guid name) := by
  unfold addMember at h
  unfold guildIdOf
  cases hp : w.players.find? guid with
  | some p =>
    rw [hp] at h
    dsimp only at h ⊢
    split at h
    · exact .inl h
    · rename_i hfree
      rcases mem_putGuild (g := g) h with h | rfl
      · exact .inl h
      · exact .inr ⟨by simpa using hfree, .inl ⟨p, rfl, rfl⟩⟩
  | none =>
    rw [hp] at h
    dsimp only at h ⊢
    split at h
    · exact .inl h
    · rename_i hfree
      rcases mem_putGuild (g := g) h with h | rfl
      · exact .inl h
      · exact .inr ⟨by simpa using hfree, .inr rfl⟩

theorem next_guilds {e : Event} (h : g' ∈ (w.next e).guilds) :
    g' ∈ w.guilds ∨ ∃ g ∈ w.guilds, w.GuildStep e g g' := by
  cases e with
  | login guid name => exact .inl h
  | logout guid => exact .inl h
  | invite guid name allowed =>
    refine .inl ?_
    revert h
    refine withGuild_cases (P := fun w' => g' ∈ w'.guilds → g' ∈ w.guilds) (fun h => h) fun g _ => ?_
    split
    · exact fun h => h
    · split <;> exact fun h => h
  | accept guid allowed =>
    simp only [next, handleGuildAccept] at h
    cases hp : w.players.find? guid with
    | none =>
      rw [hp] at h
      exact .inl h
    | some p =>
      rw [hp] at h
      dsimp only at h
      split at h
      · exact .inl h
      · rename_i hfree
        cases hg : w.getGuildById p.guildIdInvited with
        | none =>
          rw [hg] at h
          exact .inl h
        | some g =>
          rw [hg] at h
          dsimp only at h
          cases allowed with
          | false => exact .inl h
          | true =>
            rw [if_pos rfl] at h
            have hstep := GuildStep.accept hp (by simpa using hfree) hg
            rcases mem_addMember h with h | ⟨-, ⟨q, hq, rfl⟩ | rfl⟩
            · exact .inl h
            · rw [hp] at hq
              rw [← Option.some.inj hq]
              exact .inr ⟨g, (getGuildById_mem hg).1, hstep⟩
            · exact .inr ⟨g, (getGuildById_mem hg).1, hstep⟩
  | decline guid =>
    refine .inl ?_
    simp only [next, handleGuildDecline] at h
    split at h <;> exact h
  | leave guid =>
    revert h
    refine withGuild_cases (P := fun w' => g' ∈ w'.guilds → _) (fun h => .inl h) fun g hg h => ?_
    split at h
    · split at h
      · exact .inl h
      · exact .inl (mem_disband h)
    · rename_i hl
      rcases mem_deleteMember h with h | hdel
      · exact .inl h
      · exact .inr ⟨g, guildOf_mem hg, .leave hg (by simpa using hl) hdel⟩
  | remove guid name =>
    revert h
    refine withGuild_cases (P := fun w' => g' ∈ w'.guilds → _) (fun h => .inl h) fun g hg h => ?_
    split at h
    · exact .inl h
    · split at h
      · rename_i m me hm hme
        split at h
        · exact .inl h
        · rename_i hpass
          simp only [Bool.or_eq_true, decide_eq_true_eq, not_or, Bool.not_eq_true] at hpass
          rcases mem_deleteMember h with h | hdel
          · exact .inl h
          · exact .inr ⟨g, guildOf_mem hg, .remove hg hm hme hpass.2 hpass.1 hdel⟩
      · exact .inl h
  | disband guid =>
    refine .inl ?_
    revert h
    refine withGuild_cases (P := fun w' => g' ∈ w'.guilds → g' ∈ w.guilds) (fun h => h) fun g _ h => ?_
    split at h
    · exact mem_disband h
    · exact h
  | setLeader guid name =>
    rcases mem_withGuild_putGuild h with h | ⟨g, hg, rfl⟩
    · exact .inl h
    · exact .inr ⟨g, guildOf_mem hg, .setLeader hg⟩
  | updateMemberRank guid name demote =>
    rcases mem_withGuild_putGuild h with h | ⟨g, hg, rfl⟩
    · exact .inl h
    · exact .inr ⟨g, guildOf_mem hg, .updateMemberRank hg⟩
  | addNewRank guid =>
    rcases mem_withGuild_putGuild h with h | ⟨g, hg, rfl⟩
    · exact .inl h
    · exact .inr ⟨g, guildOf_mem hg, .addNewRank hg⟩
  | removeLowestRank guid =>
    rcases mem_withGuild_putGuild h with h | ⟨g, hg, rfl⟩
    · exact .inl h
    · exact .inr ⟨g, guildOf_mem hg, .removeLowestRank hg⟩
  | addMember guild guid name =>
    simp only [next] at h
    cases hg : w.getGuildById guild with
    | none =>
      rw [hg] at h
      exact .inl h
    | some g =>
      rw [hg] at h
      rcases mem_addMember h with h | ⟨hfree, ⟨q, hq, rfl⟩ | rfl⟩
      · exact .inl h
      · exact .inr ⟨g, (getGuildById_mem hg).1, .addMember hfree hg⟩
      · exact .inr ⟨g, (getGuildById_mem hg).1, .addMember hfree hg⟩
  | deleteMember guid =>
    simp only [next] at h
    cases hg : w.getGuildById (w.storage guid) with
    | none =>
      rw [hg] at h
      exact .inl h
    | some g =>
      rw [hg] at h
      rcases mem_deleteMember h with h | hdel
      · exact .inl h
      · exact .inr ⟨g, (getGuildById_mem hg).1, .deleteMember hg hdel⟩
  | changeMemberRank guid newRank =>
    simp only [next] at h
    cases hg : w.getGuildById (w.guildIdOf guid) with
    | none =>
      rw [hg] at h
      exact .inl h
    | some g =>
      rw [hg] at h
      rcases mem_putGuild h with h | rfl
      · exact .inl h
      · exact .inr ⟨g, (getGuildById_mem hg).1, .changeMemberRank hg⟩

theorem guilds_invariant {ok : World → Event → Prop} {start : World → Prop} {P : Guild → Prop}
    (hstart : ∀ w, start w → ∀ g ∈ w.guilds, P g)
    (hstep : ∀ w e g g', ok w e → w.GuildStep e g g' → P g → P g')
    (h : Reaches step ok start w) : ∀ g ∈ w.guilds, P g := by
  refine h.invariant (I := fun w => ∀ g ∈ w.guilds, P g) hstart fun s e t hs hok ht => ?_
  obtain ⟨-, rfl⟩ := guarded_eq_some.mp ht
  intro g' hg'
  rcases next_guilds hg' with hg' | ⟨g, hg, hgs⟩
  · exact hs g' hg'
  · exact hstep s e g g' hok hgs (hs g hg)

end World

end HysteriaCore.Guilds
