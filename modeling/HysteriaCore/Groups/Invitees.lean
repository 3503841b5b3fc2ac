import HysteriaCore.Groups.Membership

/-!
# Pointers to the invited

While all invitees are online, whatever goes over them follows pointers to players who are there; and the
invitees stay online until a player leaves the world at the end of the request.
-/

namespace HysteriaCore.Groups
open Lib

structure World.Followable (w : World) : Prop where
  intact : w.intact = true
  online : w.InviteesOnline

namespace World
variable {w w' : World}

theorem Followable.of_le (h : w.Followable) (hintact : w'.intact = w.intact)
    (hgroups : ∀ g' ∈ w'.groups, ∃ g ∈ w.groups, ∀ o ∈ g'.invitees, o ∈ g.invitees)
    (hplayers : ∀ p ∈ w.players, ∃ p' ∈ w'.players, p'.object = p.object) : w'.Followable where
  intact := hintact.trans h.intact
  online := fun g' hg' o ho => by
    obtain ⟨g, hg, hle⟩ := hgroups g' hg'
    obtain ⟨p, hp, rfl⟩ := h.online g hg o (hle o ho)
    exact hplayers p hp

theorem Followable.updGroup (h : w.Followable) {a : ℕ} {f : Group → Group} (hf : ∀ g, (f g).address = g.address)
    (hle : ∀ g, ∀ o ∈ (f g).invitees, o ∈ g.invitees) : (w.updGroup a f hf).Followable := by
  refine h.of_le rfl (fun g' hg' => ?_) fun p hp => ⟨p, hp, rfl⟩
  obtain ⟨g, hg, rfl⟩ := mem_updGroup.mp hg'
  refine ⟨g, hg, fun o ho => ?_⟩
  split at ho
  · exact hle g o ho
  · exact ho

theorem Followable.updPlayer (h : w.Followable) {guid : ℕ} {k : Player → Player} (hk : ∀ p, (k p).guid = p.guid)
    (hobject : ∀ p, (k p).object = p.object) : (w.updPlayer guid k hk).Followable := by
  refine h.of_le rfl (fun g hg => ⟨g, hg, fun _ ho => ho⟩) fun p hp => ⟨_, mem_updPlayer.mpr ⟨p, hp, rfl⟩, ?_⟩
  split
  · exact hobject p
  · rfl

theorem Followable.removeInvite (h : w.Followable) (a guid : ℕ) : (w.removeInvite a guid).Followable := by
  unfold World.removeInvite
  split
  · exact h
  · exact (h.updGroup _ fun g o ho => (List.mem_filter.mp ho).1).updPlayer _ fun _ => rfl

theorem Followable.removeAllInvites (h : w.Followable) (a : ℕ) : (w.removeAllInvites a).Followable := by
  unfold World.removeAllInvites
  split
  · exact h
  next g hfind =>
    have hall : (g.invitees.all fun o => w.players.rows.any fun p => decide (p.object = o)) = true :=
      List.all_eq_true.mpr fun o ho => by
        obtain ⟨p, hp, hobject⟩ := h.online g (find?_mem hfind).1 o ho
        exact List.any_eq_true.mpr ⟨p, hp, decide_eq_true hobject⟩
    refine h.of_le (by rw [hall, Bool.and_true]) (fun g' hg' => ?_) fun p hp => ⟨_, List.mem_map_of_mem hp, ?_⟩
    · obtain ⟨x, hx, rfl⟩ := (w.groups.mem_adjust a (fun g => { g with invitees := [] }) (fun _ => rfl) g').mp hg'
      refine ⟨x, hx, fun o ho => ?_⟩
      split at ho
      · cases ho
      · exact ho
    · split <;> rfl

theorem Followable.deleteGroup (h : w.Followable) (a : ℕ) : (w.deleteGroup a).Followable :=
  h.of_le rfl (fun g hg => ⟨g, ((w.groups.mem_erase a g).mp hg).1, fun _ ho => ho⟩)
    fun _ hp => ⟨_, List.mem_map_of_mem hp, rfl⟩

theorem unlink_object (p : Player) (a : ℕ) : (p.unlink a).object = p.object := by
  unfold Player.unlink
  split <;> rfl

theorem Followable.disband (h : w.Followable) (a : ℕ) : (w.disband a).Followable := by
  unfold World.disband
  split
  · exact h
  next g _ =>
    have hunlinked : (w.unlinkMembers a g.memberSlots).Followable :=
      foldl_invariant (I := Followable) (fun w m hw => hw.updPlayer _ fun p => unlink_object p a) _ h
    exact (hunlinked.removeAllInvites a).deleteGroup a

theorem Followable.changeLeader (h : w.Followable) (a guid : ℕ) : (w.changeLeader a guid).Followable := by
  unfold World.changeLeader
  split
  · exact h
  · split
    · exact h.updGroup _ fun _ _ ho => ho
    · exact h

theorem Followable.removeMember (h : w.Followable) (a guid : ℕ) : (w.removeMember a guid).Followable := by
  have hdropped : (w.dropMember a guid).Followable := by
    have herased : ((w.updPlayer guid (fun p => p.unlink a) fun p => p.unlink_guid a).updGroup a
        (fun g => g.eraseSlot guid) fun g => g.eraseSlot_address guid).Followable :=
      (h.updPlayer _ fun p => unlink_object p a).updGroup _ fun g o ho => by
        unfold Group.eraseSlot at ho
        split at ho <;> exact ho
    unfold World.dropMember World.pickLeader
    split
    · exact herased
    · split
      · split
        · exact herased
        · exact herased.changeLeader a _
      · exact herased
  unfold World.removeMember
  split
  · exact h
  · dsimp only
    split
    · split
      · exact hdropped.disband a
      · exact hdropped
    · exact h.disband a

theorem Followable.uninviteFromGroup (h : w.Followable) (guid : ℕ) : (w.uninviteFromGroup guid).Followable := by
  unfold World.uninviteFromGroup
  split
  · exact h
  next a _ =>
    have hremoved := h.removeInvite a guid
    dsimp only
    split
    · exact hremoved
    · split
      · split
        · exact hremoved.disband a
        · exact (hremoved.removeAllInvites a).deleteGroup a
      · exact hremoved

theorem Followable.uninviteInvited (h : w.Followable) {g : Group} (hg : g ∈ w.groups) (test : Player → Bool) :
    (w.uninviteInvited g test).Followable := by
  have hfound : ∀ invitees, (∀ o ∈ invitees, o ∈ g.invitees) → w.getInvited test invitees ≠ none := by
    intro invitees hle
    induction invitees with
    | nil => nofun
    | cons o invitees ih =>
      rw [getInvited]
      split
      next hnone =>
        obtain ⟨p, hp, hobject⟩ := h.online g hg o (hle o List.mem_cons_self)
        exact absurd (decide_eq_true hobject) (List.find?_eq_none.mp hnone p hp)
      · split
        · nofun
        · exact ih fun o ho => hle o (List.mem_cons_of_mem _ ho)
  unfold World.uninviteInvited
  split
  next hnone => exact absurd hnone (hfound _ fun o ho => (List.mem_insertionSort (· ≤ ·)).mp ho)
  · exact h
  · exact h.uninviteFromGroup _

theorem Followable.addMember (h : w.Followable) (a guid : ℕ) : (w.addMember a guid).Followable := by
  unfold World.addMember
  split
  next p _ _ =>
    split
    · exact h
    next s _ =>
      refine (h.updGroup (f := fun g => g.pushSlot guid p.name s) (fun _ => rfl) fun _ _ ho => ho).updPlayer _ fun p => ?_
      unfold Player.link
      split <;> rfl
  · exact h

theorem Followable.handleGroupAccept (h : w.Followable) (guid : ℕ) (spectator leaderSpectator : Bool) :
    (w.handleGroupAccept guid spectator leaderSpectator).Followable := by
  unfold World.handleGroupAccept
  split
  · exact h
  next a _ =>
    have hremoved := h.removeInvite a guid
    dsimp only
    split
    · exact hremoved
    next g _ =>
      split
      · exact hremoved
      · split
        · exact hremoved.addMember a guid
        · split
          · exact hremoved.removeAllInvites a
          · have hready : ((w.removeInvite a guid).removeInvite a g.leaderGuid).Followable :=
              hremoved.removeInvite a g.leaderGuid
            have hcreated := hready.updGroup (a := a)
              (f := fun x => { x with created := true, leaderGuid := g.leaderGuid }) (fun _ => rfl) fun _ _ ho => ho
            exact (hcreated.addMember a g.leaderGuid).addMember a guid

variable {f : Player → Group → World}

theorem Followable.withGroup (h : w.Followable) (guid : ℕ)
    (hf : ∀ p, ∀ g ∈ w.groups, (f p g).Followable) : (w.withGroup guid f).Followable := by
  unfold World.withGroup
  split
  · exact h
  · split
    · exact h
    next p _ _ g hbind =>
      obtain ⟨a, -, ha⟩ := Option.bind_eq_some_iff.mp hbind
      exact hf p g (find?_mem ha).1

/-! ### What does not go over invitees -/

theorem intact_withGroup (guid : ℕ) (hf : ∀ p g, (f p g).intact = w.intact) :
    (w.withGroup guid f).intact = w.intact := by
  unfold World.withGroup
  repeat' split
  all_goals first | rfl | exact hf _ _

theorem intact_changeLeader (w : World) (a guid : ℕ) : (w.changeLeader a guid).intact = w.intact := by
  unfold World.changeLeader
  repeat' split
  all_goals rfl

theorem intact_addInvite {a guid : ℕ} (h : w.addInvite a guid = some w') : w'.intact = w.intact := by
  unfold World.addInvite at h
  split at h
  · cases h
  · split at h
    · cases h
    · obtain rfl := Option.some.inj h
      rfl

theorem intact_getD_addInvite (w : World) (a guid : ℕ) : ((w.addInvite a guid).getD w).intact = w.intact := by
  cases hadd : w.addInvite a guid with
  | none => rfl
  | some w' => exact intact_addInvite hadd

theorem intact_inviteTo (w : World) (inviter : Player) (target a : ℕ) :
    (w.inviteTo inviter target a).intact = w.intact := by
  unfold World.inviteTo
  dsimp only
  split
  · split
    · rfl
    · exact w.intact_getD_addInvite _ target
  · exact w.intact_getD_addInvite _ target
  · cases hlead : ({ w with groups := w.groups.put (Group.new a) } : World).addLeaderInvite a inviter.guid with
    | none => rfl
    | some v =>
      obtain ⟨u, hu, rfl⟩ := Option.map_eq_some_iff.mp hlead
      have hsame : u.intact = w.intact := intact_addInvite (w := { w with groups := w.groups.put (Group.new a) }) hu
      rw [Option.bind_some]
      cases hadd : World.addInvite _ a target with
      | none => rfl
      | some v' => exact (intact_addInvite hadd).trans hsame

theorem intact_handleGroupInvite (w : World) (guid target : ℕ) (allowed : Bool) (a : ℕ) :
    (w.handleGroupInvite guid target allowed a).intact = w.intact := by
  unfold World.handleGroupInvite
  repeat' split
  all_goals first | rfl | exact w.intact_inviteTo ..

/-- Whatever request comes while the condition holds follows no pointer to a player who is gone. -/
theorem intact_next (hintact : w.intact = true) {e : Event} (hcareful : w.Careful e) : (w.next e).intact = true := by
  have h (honline : w.InviteesOnline) : w.Followable := ⟨hintact, honline⟩
  cases e with
  | login guid name object => exact hintact
  | logout guid normally =>
    have hleft := (h hcareful).uninviteFromGroup guid
    refine (hleft.withGroup guid fun _ g _ => ?_).intact
    split
    · exact hleft.removeMember g.address guid
    · exact hleft
  | enterBattle guid => exact hintact
  | leaveBattle guid => exact hintact
  | invite guid target allowed address => exact (w.intact_handleGroupInvite ..).trans hintact
  | accept guid spectator leaderSpectator => exact ((h hcareful).handleGroupAccept ..).intact
  | decline guid => exact ((h hcareful).uninviteFromGroup guid).intact
  | uninviteGuid guid target inBattleground =>
    show (w.handleGroupUninviteGuid guid target inBattleground).intact = true
    unfold handleGroupUninviteGuid
    split
    · exact hintact
    · refine ((h hcareful).withGroup guid fun p g hg => ?_).intact
      split
      · exact h hcareful
      · split
        · exact (h hcareful).removeMember g.address target
        · exact (h hcareful).uninviteInvited hg _
  | uninvite guid membername inBattleground =>
    refine ((h hcareful).withGroup guid fun p g hg => ?_).intact
    split
    · exact h hcareful
    · split
      · exact (h hcareful).removeMember g.address _
      · exact (h hcareful).uninviteInvited hg _
  | setLeader guid target =>
    refine (intact_withGroup guid fun p g => ?_).trans hintact
    repeat' split
    all_goals first | rfl | exact w.intact_changeLeader _ _
  | leave guid inBattleground =>
    refine ((h hcareful).withGroup guid fun p g _ => ?_).intact
    split
    · exact h hcareful
    · exact (h hcareful).removeMember g.address guid
  | raidConvert guid inBattleground =>
    exact (intact_withGroup guid fun p g => by split <;> rfl).trans hintact
  | changeSubGroup guid target groupNr =>
    refine (intact_withGroup guid fun p g => ?_).trans hintact
    repeat' split
    all_goals rfl
  | swapSubGroup guid first second =>
    refine (intact_withGroup guid fun p g => ?_).trans hintact
    repeat' split
    all_goals rfl
  | assistantLeader guid target apply =>
    exact (intact_withGroup guid fun p g => by split <;> rfl).trans hintact
  | deleteCharacter guid address => exact ((h hcareful).removeMember address guid).intact

end World

end HysteriaCore.Groups
