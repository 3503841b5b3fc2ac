import HysteriaCore.Groups.Invitees

/-!
# Rosters from the first invitation to the last member

Every handler keeps the world sound; so does every run, whoever sends what and
whoever goes offline in between.
-/

namespace HysteriaCore.Groups
open Lib

namespace World
variable {w : World}

theorem Sound.withGroup (h : w.Sound none) (guid : ℕ) {f : Player → Group → World}
    (hf : ∀ p g, g ∈ w.groups → (f p g).Sound none) : (w.withGroup guid f).Sound none := by
  unfold World.withGroup
  cases hp : w.players.find? guid with
  | none => exact h
  | some p =>
    dsimp only
    cases hg : p.getGroup.bind w.groups.find? with
    | none => exact h
    | some g =>
      obtain ⟨a, -, ha⟩ := Option.bind_eq_some_iff.mp hg
      exact hf p g (find?_mem ha).1

/-! ### Invitations -/

theorem Sound.getD_addInvite (h : w.Sound none) (a guid : ℕ) : ((w.addInvite a guid).getD w).Sound none := by
  cases hw' : w.addInvite a guid with
  | none => exact h
  | some w' => exact h.addInvite hw'

theorem Sound.putNew (h : w.Sound none) {a : ℕ} (hfresh : w.groups.find? a = none) :
    ({ w with groups := w.groups.put (Group.new a) } : World).Sound none := by
  have hne := (w.groups.find?_eq_none_iff a).mp hfresh
  constructor
  · intro g hg
    rcases (w.groups.mem_put (Group.new a) g).mp hg with rfl | ⟨hg, -⟩
    · exact Group.new_counted a
    · exact h.counted g hg
  · intro g hg hc hb
    rcases (w.groups.mem_put (Group.new a) g).mp hg with rfl | ⟨hg, -⟩
    · exact Bool.noConfusion hc
    · exact h.led g hg hc hb
  · intro p hp x hpos
    obtain ⟨g, hg, haddr, hcount⟩ := h.linked p hp x hpos
    exact ⟨g, (w.groups.mem_put (Group.new a) g).mpr (.inr ⟨hg, hne g hg⟩), haddr, hcount⟩

variable {g : Group}

theorem addInvite_created {w' : World} {a guid : ℕ} (hw' : w.addInvite a guid = some w')
    (hg : g ∈ w'.groups) : ∃ x ∈ w.groups, x.address = g.address ∧ x.created = g.created := by
  unfold addInvite at hw'
  split at hw'
  · exact absurd hw' (by simp)
  · rename_i p _
    split at hw'
    · exact absurd hw' (by simp)
    · rw [← Option.some.inj hw'] at hg
      have hg' : g ∈ (w.updGroup a (fun g => { g with invitees := g.invitees ++ [p.object] })
        fun _ => rfl).groups := hg
      obtain ⟨x, hx, rfl⟩ := mem_updGroup.mp hg'
      refine ⟨x, hx, ?_⟩
      split <;> exact ⟨rfl, rfl⟩

theorem Sound.addLeaderInvite {w' : World} (h : w.Sound none) {a guid : ℕ}
    (hforming : ∀ g ∈ w.groups, g.address = a → g.created = false)
    (hw' : w.addLeaderInvite a guid = some w') : w'.Sound none := by
  obtain ⟨v, hv, rfl⟩ := Option.map_eq_some_iff.mp hw'
  have hv' := h.addInvite hv
  refine hv'.updGroup (f := fun g => { g with leaderGuid := guid }) (fun _ => rfl)
    (fun g hg _ => ⟨(hv'.counted g hg).forming, (hv'.counted g hg).party, (hv'.counted g hg).raid⟩)
    (fun g hg haddr hc _ => ?_) fun _ _ _ _ => le_rfl
  obtain ⟨x, hx, hxa, hxc⟩ := addInvite_created hv hg
  have hc' : g.created = true := hc
  rw [← hxc, hforming x hx (hxa.trans haddr)] at hc'
  exact Bool.noConfusion hc'

theorem Sound.inviteTo (h : w.Sound none) (inviter : Player) (target : ℕ) {a : ℕ}
    (hfresh : w.groups.find? a = none) : (w.inviteTo inviter target a).Sound none := by
  unfold World.inviteTo
  dsimp only
  split
  · split
    · exact h
    · exact h.getD_addInvite _ _
  · exact h.getD_addInvite _ _
  · have hnew := h.putNew hfresh
    cases hlead : ({ w with groups := w.groups.put (Group.new a) } : World).addLeaderInvite a inviter.guid with
    | none => exact h
    | some v =>
      have hv : v.Sound none := by
        refine hnew.addLeaderInvite (fun g hg haddr => ?_) hlead
        rcases (w.groups.mem_put (Group.new a) g).mp hg with rfl | ⟨-, hne⟩
        · rfl
        · exact absurd haddr hne
      rw [Option.bind_some]
      cases hw' : v.addInvite a target with
      | none => exact h
      | some v' => exact hv.addInvite hw'

theorem Sound.handleGroupInvite (h : w.Sound none) {guid target : ℕ} {allowed : Bool} {a : ℕ}
    (hfresh : w.groups.find? a = none) : (w.handleGroupInvite guid target allowed a).Sound none := by
  unfold World.handleGroupInvite
  split
  · split
    · exact h
    · split
      · exact h
      · exact h.inviteTo _ target hfresh
  · exact h

/-! ### Acceptance -/

theorem removeInvite_find? (w : World) (a guid : ℕ) (hg : w.groups.find? a = some g) :
    ∃ who, (w.removeInvite a guid).groups.find? a = some { g with invitees := who } := by
  unfold removeInvite
  split
  · exact ⟨g.invitees, hg⟩
  · rename_i p hp
    have hfind := w.find?_updGroup a
      (fun g => { g with invitees := g.invitees.filter fun o => decide (o ≠ p.object) }) fun _ => rfl
    rw [hg] at hfind
    exact ⟨g.invitees.filter fun o => decide (o ≠ p.object), hfind⟩

theorem removeInvite_online (w : World) (a guid x : ℕ) :
    (w.removeInvite a guid).online x = w.online x := by
  unfold removeInvite
  split
  · rfl
  · exact online_updPlayer w guid (fun p => { p with groupInvite := none }) (fun _ => rfl) x

theorem Sound.handleGroupAccept (h : w.Sound none) (guid : ℕ) (spectator leaderSpectator : Bool) :
    (w.handleGroupAccept guid spectator leaderSpectator).Sound none := by
  unfold World.handleGroupAccept
  split
  · exact h
  · rename_i a hinvite
    have h1 := h.removeInvite a guid
    dsimp only
    cases hg : (w.removeInvite a guid).groups.find? a with
    | none => exact h1
    | some g =>
      dsimp only
      split
      · exact h1
      · rename_i hopen
        have hroom : g.isFull = false := by
          simp only [Bool.or_eq_true, not_or, Bool.not_eq_true] at hopen
          exact hopen.2
        split
        · rename_i hcreated
          refine h1.addMember fun x hx hxa => ?_
          rw [eq_of_find? hg hx hxa]
          exact ⟨hcreated, hroom⟩
        · rename_i hforming
          have hforming' : g.created = false := by simpa using hforming
          split
          · exact h1.removeAllInvites a
          · rename_i honline
            have hon : (w.removeInvite a guid).online g.leaderGuid = true := by
              rw [not_or] at honline
              simpa using honline.1
            -- the leader leaves the invitees, founds the group, and the accepting player follows
            have h2 := h1.removeInvite a g.leaderGuid
            obtain ⟨who, hg2⟩ := (w.removeInvite a guid).removeInvite_find? a g.leaderGuid hg
            have hon2 := hon
            rw [← removeInvite_online _ a g.leaderGuid] at hon2
            have h3 := h2.create hg2 hforming' hon2
            obtain ⟨p, hp⟩ := exists_of_online hon2
            obtain ⟨hnil, hraid⟩ := (h1.counted g (find?_mem hg).1).forming hforming'
            refine h3.addMember fun x hx hxa => ?_
            rw [eq_of_find? (find?_create h2 hg2 hforming' hp) hx hxa]
            exact ⟨rfl, by simp [Group.isFull, Group.pushSlot, Group.getMembersCount, hnil, hraid, maxGroupSize]⟩

/-! ### The other packets -/

theorem Sound.changeLeader (h : w.Sound none) (a guid : ℕ) : (w.changeLeader a guid).Sound none := by
  cases hg : w.groups.find? a with
  | none => simpa [World.changeLeader, hg] using h
  | some g =>
    by_cases hc : g.isMember guid = true ∧ w.online guid = true
    · obtain ⟨m, hm⟩ := Option.isSome_iff_exists.mp hc.1
      obtain ⟨hguid, -⟩ := Group.split_of_getMemberSlot hm
      rw [← hguid] at hc ⊢
      exact changeLeader_led (h.weaken a) hg (List.mem_of_find?_eq_some hm) hc.2
    · unfold World.changeLeader
      rw [hg]
      dsimp only
      rwa [if_neg hc]

theorem Sound.uninviteInvited (h : w.Sound none) (g : Group) (test : Player → Bool) :
    (w.uninviteInvited g test).Sound none := by
  unfold World.uninviteInvited
  split
  · exact h.mark false
  · exact h
  · exact h.uninviteFromGroup _

theorem Sound.handleGroupUninviteGuid (h : w.Sound none) (guid target : ℕ) (inBattleground : Bool) :
    (w.handleGroupUninviteGuid guid target inBattleground).Sound none := by
  unfold World.handleGroupUninviteGuid
  split
  · exact h
  · refine h.withGroup guid fun p g _ => ?_
    split
    · exact h
    · split
      · exact h.removeMember g.address target
      · exact h.uninviteInvited g _

theorem Sound.handleGroupUninvite (h : w.Sound none) (guid : ℕ) (membername : String)
    (inBattleground : Bool) : (w.handleGroupUninvite guid membername inBattleground).Sound none := by
  refine h.withGroup guid fun p g _ => ?_
  split
  · exact h
  · split
    · exact h.removeMember g.address _
    · exact h.uninviteInvited g _

theorem Sound.handleGroupSetLeader (h : w.Sound none) (guid target : ℕ) :
    (w.handleGroupSetLeader guid target).Sound none := by
  refine h.withGroup guid fun p g _ => ?_
  split
  · exact h
  · split
    · exact h
    · exact h.changeLeader g.address target

theorem Sound.handleGroupDisband (h : w.Sound none) (guid : ℕ) (inBattleground : Bool) :
    (w.handleGroupDisband guid inBattleground).Sound none := by
  refine h.withGroup guid fun p g _ => ?_
  split
  · exact h
  · exact h.removeMember g.address guid

theorem Sound.handleGroupRaidConvert (h : w.Sound none) (guid : ℕ) (inBattleground : Bool) :
    (w.handleGroupRaidConvert guid inBattleground).Sound none := by
  refine h.withGroup guid fun p g hg => ?_
  split
  · exact h
  · rename_i hpass
    have hmembers : ¬ g.getMembersCount < 2 := fun hlt => hpass (.inr (.inr hlt))
    have hcreated : g.created = true := by
      by_contra hne
      have hnil := ((h.counted g hg).forming (by simpa using hne)).1
      exact hmembers (by simp [Group.getMembersCount, hnil])
    refine h.updGroup (f := fun g => g.convertToRaid) (fun _ => rfl) (fun x hx hxa => ?_)
      (fun x hx _ hc hne => h.led x hx hc (by simp)) fun _ _ _ _ => le_rfl
    rw [w.groups.eq_of_key_eq hx hg hxa]
    exact (h.counted g hg).convertToRaid hcreated

theorem Sound.changeMembersGroup (h : w.Sound none) (hg : g ∈ w.groups) (target : ℕ) {s : Fin 8}
    (hroom : ∀ m ∈ g.getMemberSlot target, m.group = s ∨ g.hasFreeSlotSubGroup s = true) :
    (w.changeMembersGroup g.address target s).Sound none := by
  have hslots (x : Group) := x.changeMembersGroup_slotCount target s
  refine h.updGroup (fun x => x.changeMembersGroup_address target s) (fun x hx hxa => ?_) (fun x hx _ hc _ => ?_)
    fun x _ _ guid => (hslots x guid).ge
  · rw [w.groups.eq_of_key_eq hx hg hxa]
    exact (h.counted g hg).changeMembersGroup target hroom
  · have hkeep : (x.changeMembersGroup target s).leaderGuid = x.leaderGuid ∧
        (x.changeMembersGroup target s).created = x.created := by
      rcases x.changeMembersGroup_cases target s with ⟨heq, -⟩ | ⟨-, m, -, -, heq⟩ <;> rw [heq] <;> exact ⟨rfl, rfl⟩
    have hled := h.led x hx (hkeep.2 ▸ hc) (by simp)
    unfold Group.Led at hled ⊢
    rwa [hslots, hkeep.1]

theorem Sound.handleGroupChangeSubGroup (h : w.Sound none) (guid target : ℕ) (groupNr : UInt8) :
    (w.handleGroupChangeSubGroup guid target groupNr).Sound none := by
  refine h.withGroup guid fun p g hg => ?_
  split
  · split
    · exact h
    · rename_i hpass
      refine h.changeMembersGroup hg target fun m _ => .inr ?_
      by_contra hne
      exact hpass (by simp [hne])
  · exact h

/-- The sub group of the first player has a free slot when the second one moves there. -/
theorem Sound.handleGroupSwapSubGroup (h : w.Sound none) {guid first second : ℕ}
    (hcareful : w.Careful (.swapSubGroup guid first second)) :
    (w.handleGroupSwapSubGroup guid first second).Sound none := by
  unfold World.handleGroupSwapSubGroup World.withGroup
  cases hp : w.players.find? guid with
  | none => exact h
  | some p =>
    dsimp only
    cases hbind : p.getGroup.bind w.groups.find? with
    | none => exact h
    | some g =>
      obtain ⟨a, -, ha⟩ := Option.bind_eq_some_iff.mp hbind
      have hg := (find?_mem ha).1
      dsimp only
      split
      · exact h
      · rename_i hpass
        have hraid : g.raid = true := by
          rw [not_or] at hpass
          simpa using hpass.1
        split
        next m m' hm hm' =>
          have hfirst := h.changeMembersGroup hg first (s := m'.group) fun x hx =>
            Option.some.inj (hm.symm.trans hx) ▸ hcareful p hp g hbind m hm m' hm'
          have hmoved : g.changeMembersGroup first m'.group ∈ (w.changeMembersGroup g.address first m'.group).groups :=
            w.groups.adjust_mem hg _ fun g => g.changeMembersGroup_address first m'.group
          have hsecond := hfirst.changeMembersGroup hmoved second (s := m.group) fun x hx => ?_
          · rwa [g.changeMembersGroup_address] at hsecond
          rcases g.changeMembersGroup_cases first m'.group with ⟨heq, hsame⟩ | ⟨-, x', hx', hne, heq⟩
          · rw [heq] at hx
            rw [← Option.some.inj (hm'.symm.trans hx)]
            exact .inl (hsame hraid m hm).symm
          · obtain rfl := Option.some.inj (hm.symm.trans hx')
            exact .inr ((h.counted g hg).hasFreeSlot_left (hfirst.counted _ hmoved) hraid hm hne)
        · exact h

theorem Sound.handleGroupAssistantLeader (h : w.Sound none) (guid target : ℕ) (apply : Bool) :
    (w.handleGroupAssistantLeader guid target apply).Sound none := by
  refine h.withGroup guid fun p g hg => ?_
  split
  · exact h
  · have hslots (x : Group) := x.setGroupMemberFlag_slotCount target apply
    refine h.updGroup (f := fun g => g.setGroupMemberFlag target apply)
      (fun x => x.setGroupMemberFlag_address target apply)
      (fun x hx _ => (h.counted x hx).setGroupMemberFlag target apply)
      (fun x hx _ hc hne => ?_) fun x _ _ guid' => (hslots x guid').ge
    have hkeep : (x.setGroupMemberFlag target apply).leaderGuid = x.leaderGuid ∧
        (x.setGroupMemberFlag target apply).created = x.created := by
      unfold Group.setGroupMemberFlag
      split <;> exact ⟨rfl, rfl⟩
    have hled := h.led x hx (hkeep.2 ▸ hc) (by simp)
    unfold Group.Led at hled ⊢
    rwa [hslots, hkeep.1]

/-! ### Players who come and go -/

theorem Sound.login (h : w.Sound none) (guid : ℕ) (name : String) (object : ℕ) :
    ({ w with players := w.players.put ⟨guid, name, object, none, none, none⟩ } : World).Sound none := by
  refine ⟨h.counted, h.led, fun p hp a hpos => ?_⟩
  rcases (w.players.mem_put _ p).mp hp with rfl | ⟨hp, -⟩
  · exact absurd hpos (by simp [Player.links])
  · exact h.linked p hp a hpos

theorem Sound.logoutPlayer (h : w.Sound none) (guid : ℕ) (normally : Bool) :
    (w.logoutPlayer guid normally).Sound none := by
  unfold World.logoutPlayer
  dsimp only
  have h1 := h.uninviteFromGroup guid
  have h2 : ((w.uninviteFromGroup guid).withGroup guid fun _ g =>
      if g.raid = false ∧ normally = true then (w.uninviteFromGroup guid).removeMember g.address guid
      else w.uninviteFromGroup guid).Sound none := by
    refine h1.withGroup guid fun _ g _ => ?_
    split
    · exact h1.removeMember g.address guid
    · exact h1
  exact h2.players _ fun p hp => ⟨p, ((KeyedList.mem_erase ..).mp hp).1, rfl, fun _ => le_rfl⟩

theorem Sound.enterBattle (h : w.Sound none) (guid : ℕ) : (w.enterBattle guid).Sound none := by
  refine h.updPlayer _ fun p a => ?_
  split
  · exact le_rfl
  · unfold Player.links Player.getGroup
    cases hg : p.group with
    | none => simp
    | some l => cases l <;> simp

theorem Sound.leaveBattle (h : w.Sound none) (guid : ℕ) : (w.leaveBattle guid).Sound none := by
  refine h.updPlayer _ fun p a => ?_
  split
  · rename_i hg
    unfold Player.links
    cases ho : p.originalGroup <;> simp [hg]
  · exact le_rfl

theorem Sound.next (h : w.Sound none) {e : Event} (hp : w.possible e) (hcareful : w.Careful e) :
    (w.next e).Sound none := by
  cases e with
  | login guid name object => exact h.login guid name object
  | logout guid normally => exact h.logoutPlayer guid normally
  | enterBattle guid => exact h.enterBattle guid
  | leaveBattle guid => exact h.leaveBattle guid
  | invite guid target allowed address => exact h.handleGroupInvite hp
  | accept guid spectator leaderSpectator => exact h.handleGroupAccept guid spectator leaderSpectator
  | decline guid => exact h.uninviteFromGroup guid
  | uninviteGuid guid target inBattleground => exact h.handleGroupUninviteGuid guid target inBattleground
  | uninvite guid membername inBattleground => exact h.handleGroupUninvite guid membername inBattleground
  | setLeader guid target => exact h.handleGroupSetLeader guid target
  | leave guid inBattleground => exact h.handleGroupDisband guid inBattleground
  | raidConvert guid inBattleground => exact h.handleGroupRaidConvert guid inBattleground
  | changeSubGroup guid target groupNr => exact h.handleGroupChangeSubGroup guid target groupNr
  | swapSubGroup guid first second => exact h.handleGroupSwapSubGroup hcareful
  | assistantLeader guid target apply => exact h.handleGroupAssistantLeader guid target apply
  | deleteCharacter guid address => exact h.removeMember address guid

theorem sound_of_reaches (h : Reaches step Careful Starts w) : w.Sound none ∧ w.intact = true := by
  refine h.invariant (I := fun w => w.Sound none ∧ w.intact = true) ?_ ?_
  · rintro s rfl
    exact ⟨Sound.empty, rfl⟩
  · intro s e t hs hcareful hstep
    obtain ⟨⟨hp, hintact⟩, rfl⟩ := guarded_eq_some.mp hstep
    exact ⟨hs.1.next hp hcareful, hintact⟩

theorem Sound.roster (h : w.Sound none) (hg : g ∈ w.groups) (hc : g.created = true) : g.Roster :=
  (h.counted g hg).roster (h.led g hg hc (by simp))

/-- Roster integrity, in every state of every run and for every group that has been created, also between
the two moves of a swap; and each further request is carried out. -/
theorem roster_of_reaches (h : Reaches step Careful Starts w) :
    (∀ g ∈ w.groups, g.created = true → g.Roster ∧
      ∀ guid s, g.hasFreeSlotSubGroup s = true → (g.changeMembersGroup guid s).Roster) ∧
    ∀ e, w.possible e → w.Careful e → ∃ w', step w e = some w' := by
  obtain ⟨hsound, hintact⟩ := sound_of_reaches h
  refine ⟨fun g hg hc => ⟨hsound.roster hg hc, fun guid s hfree => ?_⟩, fun e hp hcareful =>
    ⟨w.next e, guarded_eq_some.mpr ⟨⟨hp, intact_next hintact hcareful⟩, rfl⟩⟩⟩
  refine (hsound.changeMembersGroup hg guid fun m _ => .inr hfree).roster
    (w.groups.adjust_mem hg _ fun g => g.changeMembersGroup_address guid s) ?_
  rcases g.changeMembersGroup_cases guid s with ⟨heq, -⟩ | ⟨-, m, -, -, heq⟩ <;> rw [heq] <;> exact hc

/-- A raid of two, the second member moved to another sub group, after its leader
has gone offline and come back. -/
theorem roster_of_reaches_raid : ∃ w : World, ∃ g ∈ w.groups, g.created = true ∧ g.raid = true ∧
    g.memberSlots.length = 2 ∧ g.Roster := by
  have hstart : Starts World.empty := rfl
  obtain ⟨w, hw, hp⟩ := Reaches.exists_of_replay step Careful hstart
    [.login 1 "Ada" 11, .login 2 "Bel" 12, .invite 1 2 true 100, .accept 2 false false,
      .raidConvert 1 false, .changeSubGroup 1 2 3, .swapSubGroup 1 1 2, .logout 1 true, .login 1 "Ada" 13]
    (by decide +kernel)
    (fun w => w.groups.rows.any fun g => g.created && g.raid && decide (g.memberSlots.length = 2))
    (by decide +kernel)
  obtain ⟨g, hg, hprop⟩ := List.any_eq_true.mp hp
  simp only [Bool.and_eq_true, decide_eq_true_eq] at hprop
  exact ⟨w, g, hg, hprop.1.1, hprop.1.2, hprop.2, ((roster_of_reaches hw).1 g hg hprop.1.1).1⟩

/-- Player 1 is invited by 3 while he forms a group, whose foundation forgets the invitation; he and 3 go
offline, and the group of 3 follows its pointer to 1. In a raid of six, the first move of a swap puts a sixth
member into sub group 0. -/
theorem roster_lost : (∃ w : World, Reaches step anyStep Starts w ∧ w.possible (.logout 3 true) ∧
      step w (.logout 3 true) = none) ∧
    ∃ w : World, Reaches step anyStep Starts w ∧ ∃ g ∈ w.groups.rows, g.created = true ∧
      (g.changeMembersGroup 6 0).subGroupsCounts.any (fun c => decide ((c 0).toNat = 6)) = true := by
  have hstart : Starts World.empty := rfl
  constructor
  · obtain ⟨w, hw, hp⟩ := Reaches.exists_of_replay step anyStep hstart
      [.login 1 "Ada" 11, .login 2 "Bel" 12, .login 3 "Cal" 13, .invite 1 2 true 100, .accept 1 false false,
        .invite 3 1 true 101, .accept 2 false false, .logout 1 false]
      (replayOk_anyStep ..) (fun w => (step w (.logout 3 true)).isNone) (by decide +kernel)
    exact ⟨w, hw, trivial, Option.isNone_iff_eq_none.mp hp⟩
  · obtain ⟨w, hw, hp⟩ := Reaches.exists_of_replay step anyStep hstart
      ((List.range 7).map (fun n => .login n "" n) ++ [.invite 1 2 true 100, .accept 2 false false,
        .raidConvert 1 false] ++ [3, 4, 5, 6].flatMap fun n => [.invite 1 n true 101, .accept n false false])
      (replayOk_anyStep ..) (fun w => decide (∃ g ∈ w.groups.rows, g.created = true ∧
        (g.changeMembersGroup 6 0).subGroupsCounts.any (fun c => decide ((c 0).toNat = 6)) = true))
      (by decide +kernel)
    exact ⟨w, hw, of_decide_eq_true hp⟩

end World

end HysteriaCore.Groups
