import HysteriaCore.Dungeon.Compatibles

/-!
# Proposals

Whatever path a proposal was put together on, it stands for five different
players with a full set of roles, in a dungeon that all their entries selected.
-/

namespace HysteriaCore.Dungeon
open Lib

namespace LFGQueue

/-- A proposal is as it should be, over the data in the queue. The entries joined with the new guid
first and the others in order; each later player was tested against each earlier one. -/
structure SoundProposal (w : World) (q : LFGQueue) (newGuid : ℕ) (p : LfgProposal) : Prop where
  five : p.players.length = 5 ∧ (p.players.map Prod.fst).Nodup
  queued : ∀ g ∈ p.queues.guids, (q.queueDataStore.find? g).isSome
  members : ∀ x, x ∈ p.players.map Prod.fst ↔
    ∃ g ∈ p.queues.guids, x ∈ (q.rolesOf g).map Prod.fst
  dungeon : ∀ g ∈ p.queues.guids, p.dungeonId ∈ q.dungeonsOf g
  groups : p.queues.guids.countP w.isLfgGroup ≤ 1
  ignores : (newGuid :: p.queues.guids.erase newGuid).Pairwise fun a b =>
    ∀ x ∈ q.rolesOf a, ∀ y ∈ q.rolesOf b, w.hasIgnore y.1 x.1 = false
  roles : p.players.countP (fun x => x.2.role = PLAYER_ROLE_TANK) = 1 ∧
    p.players.countP (fun x => x.2.role = PLAYER_ROLE_HEALER) = 1 ∧
    p.players.countP (fun x => x.2.role = PLAYER_ROLE_DAMAGE) = 3
  selected : ∀ x ∈ p.players, ∃ g ∈ p.queues.guids, ∃ mask, (x.1, mask) ∈ q.rolesOf g ∧
    x.2.role &&& mask = x.2.role

/-! ### What a proposal is made of -/

structure Written (w : World) (strGuids : Lfg5Guids) (dungeons : Finset ℕ) (roles : RoleRows)
    (p : LfgProposal) : Prop where
  queues : p.queues = strGuids
  dungeon : p.dungeonId = selectRandom w.roll dungeons
  players : p.players.map (fun x => (x.1, x.2.role)) = roles

theorem propose_match (w : World) (q : LFGQueue) (check strGuids : Lfg5Guids) (scan : Scan)
    (dungeons : Finset ℕ) (roles : RoleRows) (found : Found)
    (h : (propose w q check strGuids scan dungeons roles found).compatibility = .isMatch) :
    ∃ p, (propose w q check strGuids scan dungeons roles found).proposal = some p ∧
      Written w strGuids dungeons roles p := by
  rw [propose] at h ⊢
  dsimp only at h ⊢
  split at h
  · cases h
  · rename_i hall
    rw [if_neg hall]
    refine ⟨_, rfl, rfl, rfl, ?_⟩
    rw [List.map_map]
    exact List.map_id _

variable {strGuids : Lfg5Guids} {w : World} {p : LfgProposal} {dungeons : Finset ℕ}

theorem Written.countP_eq
    {roles : RoleRows} (h : Written w strGuids dungeons roles p) (role : Role) :
    p.players.countP (fun x => x.2.role = role) = countRole role roles := by
  rw [countRole, ← h.players, List.countP_map]
  rfl

theorem Written.map_fst
    {roles : RoleRows} (h : Written w strGuids dungeons roles p) : p.players.map Prod.fst = roles.map Prod.fst := by
  rw [← h.players, List.map_map]
  rfl

variable {q : LFGQueue} {newGuid : ℕ} {l : List ℕ}

theorem Written.sound (hq : q.Ordered)
    (hstr : strGuids.Holds (l.orderedInsert (· ≤ ·) newGuid))
    (hteam : Team w q (newGuid :: l)) {selected : RoleRows}
    (hfull : Full q (newGuid :: l) selected dungeons)
    (hown : (checkGroupRoles (q.rolesOf newGuid)).1 ≠ 0)
    (hp : Written w strGuids dungeons (checkGroupRoles selected).2 p) :
    SoundProposal w q newGuid p := by
  have hguids : p.queues.guids = l.orderedInsert (· ≤ ·) newGuid := by rw [hp.queues, hstr.guids_eq]
  have hperm : p.queues.guids.Perm (newGuid :: l) := by
    rw [hguids]
    exact List.perm_orderedInsert _ newGuid l
  have herase : p.queues.guids.erase newGuid = l := by
    rw [hguids]
    exact List.erase_orderedInsert_of_notMem (hteam.notMem hq)
  have hlen : selected.length = 5 := by
    rw [hfull.perm.length_eq, List.length_flatMap]
    exact hfull.five
  have hpassed : (checkGroupRoles selected).1 ≠ 0 := by
    rcases hfull.passed with h | ⟨g, hg, hsel⟩
    · exact h
    · rw [hsel, ← (List.cons.inj hg).1]
      exact hown
  obtain ⟨hnarrow, hfits⟩ := checkGroupRoles_sound selected (.inl hlen.le) hpassed
  have hkeys : p.players.map Prod.fst = selected.map Prod.fst := hp.map_fst.trans hnarrow.map_fst
  have hmem : ∀ y, y ∈ selected ↔ ∃ g ∈ p.queues.guids, y ∈ q.rolesOf g := by
    intro y
    rw [hfull.perm.mem_iff, List.mem_flatMap]
    exact exists_congr fun g => and_congr_left fun _ => hperm.mem_iff.symm
  have hall := hfits.all
  have htanks := hfits.tanks
  have hhealers := hfits.healers
  have hdps := hfits.dps
  have hlen' : (checkGroupRoles selected).2.length = 5 := by
    have hmap := congrArg List.length hnarrow.map_fst
    rw [List.length_map, List.length_map] at hmap
    exact hmap.trans hlen
  simp only [LFG_TANKS_NEEDED, LFG_HEALERS_NEEDED, LFG_DPS_NEEDED] at htanks hhealers hdps
  refine ⟨⟨?_, ?_⟩, fun g hg => ?_, fun x => ?_, fun g hg => ?_, ?_, ?_, ⟨?_, ?_, ?_⟩, fun x hx => ?_⟩
  · have hmap := congrArg List.length hkeys
    rw [List.length_map, List.length_map] at hmap
    exact hmap.trans hlen
  · rw [hkeys]
    exact hfull.nodup
  · obtain ⟨d, hd⟩ := hteam.keyed g (hperm.mem_iff.mp hg)
    rw [hd]
    rfl
  · simp only [hkeys, List.mem_map, hmem]
    constructor
    · rintro ⟨y, ⟨g, hg, hy⟩, rfl⟩
      exact ⟨g, hg, y, hy, rfl⟩
    · rintro ⟨g, hg, y, hy, rfl⟩
      exact ⟨y, ⟨g, hg, hy⟩, rfl⟩
  · have hnonempty : dungeons.Nonempty := by
      rcases hfull.nonempty with h | ⟨a, ha, hd⟩
      · exact h
      · obtain ⟨d, hd'⟩ := hteam.keyed newGuid List.mem_cons_self
        have hcore : q.core newGuid = some (d.roles, d.dungeons) := by rw [core, hd', Option.map_some]
        rw [hd, ← (List.cons.inj ha).1, dungeonsOf_eq, hcore]
        exact Finset.nonempty_iff_ne_empty.mpr (hq.data newGuid _ _ hcore).2.2.2
    rw [hp.dungeon]
    exact hfull.common _ (selectRandom_mem w.roll hnonempty) g (hperm.mem_iff.mp hg)
  · rw [hperm.countP_eq]
    exact hteam.groups
  · rw [herase]
    exact hteam.apart.imp fun hab x hx y hy => (hab x hx y hy).2
  · rw [hp.countP_eq]
    omega
  · rw [hp.countP_eq]
    omega
  · rw [hp.countP_eq]
    omega
  · have hrow : (x.1, x.2.role) ∈ (checkGroupRoles selected).2 := by
      rw [← hp.players]
      exact List.mem_map.mpr ⟨x, hx, rfl⟩
    obtain ⟨mask, hmask, hand⟩ := hnarrow.exists_mask hrow
    obtain ⟨g, hg, hrole⟩ := (hmem (x.1, mask)).mp hmask
    exact ⟨g, hg, mask, hrole, hand⟩

/-! ### The walk only loses data -/

def Shrunk (q q' : LFGQueue) : Prop := ∀ g, q'.core g = none ∨ q'.core g = q.core g

theorem Shrunk.refl (q : LFGQueue) : q.Shrunk q := fun _ => .inr rfl

theorem Shrunk.trans {a b c : LFGQueue} (h : a.Shrunk b) (h' : b.Shrunk c) : a.Shrunk c := by
  intro g
  rcases h' g with hnone | hsame
  · exact .inl hnone
  · rw [hsame]
    exact h g

theorem shrunk_removeFromQueue (q : LFGQueue) (guid : ℕ) (keepData : Bool) :
    q.Shrunk (q.removeFromQueue guid keepData) := by
  intro g
  rw [core_removeFromQueue]
  split
  · exact .inl rfl
  · exact .inr rfl

theorem shrunk_removeAll (q : LFGQueue) {f : LFGQueue → ℕ → LFGQueue}
    (hf : ∀ q g, f q g = q ∨ ∃ keepData, f q g = q.removeFromQueue g keepData) (guids : List ℕ) :
    q.Shrunk (guids.foldl f q) := by
  refine foldl_invariant (I := fun q' => q.Shrunk q') (fun q' g hq => ?_) guids (Shrunk.refl q)
  rcases hf q' g with heq | ⟨keepData, heq⟩
  · rw [heq]
    exact hq
  · rw [heq]
    exact hq.trans (shrunk_removeFromQueue q' g keepData)

theorem shrunk_propose (w : World) (q : LFGQueue) (check strGuids : Lfg5Guids) (scan : Scan)
    (dungeons : Finset ℕ) (roles : RoleRows) (found : Found) :
    q.Shrunk (propose w q check strGuids scan dungeons roles found).queue := by
  have hasked : q.Shrunk (allQueued w check.guids q).1 := by
    refine shrunk_removeAll q (fun q g => ?_) check.guids
    split
    · exact .inl rfl
    · exact .inr ⟨false, rfl⟩
  rw [propose]
  dsimp only
  split
  · exact hasked
  · exact hasked.trans (shrunk_removeAll _ (fun q g => .inr ⟨true, rfl⟩) strGuids.guids)

variable {current : List (List ℕ)}

theorem Outcome.shrunk {guids : List ℕ}
    {r : Checked} (h : Outcome w q guids current strGuids r) : q.Shrunk r.queue := by
  cases h with
  | refused found hmatch hless => exact Shrunk.refl q
  | missing guid found => exact shrunk_removeFromQueue q guid false
  | kept roles found hteam hcur hsmall hcommon hsame => exact fun g => .inr (hsame.core g)
  | asked scan found hcheck hteam hfull => exact shrunk_propose w q _ _ scan _ _ found

theorem SoundProposal.of_shrunk {q q' : LFGQueue}
    (h : SoundProposal w q' newGuid p) (hs : q.Shrunk q') (hnew : newGuid ∈ p.queues.guids) :
    SoundProposal w q newGuid p := by
  have hcore : ∀ g ∈ p.queues.guids, q'.core g = q.core g ∧ (q.core g).isSome := by
    intro g hg
    have hsome : (q'.core g).isSome := by
      rw [core, Option.isSome_map]
      exact h.queued g hg
    rcases hs g with hnone | hsame
    · rw [hnone] at hsome
      cases hsome
    · exact ⟨hsame, hsame ▸ hsome⟩
  have hroles : ∀ g ∈ p.queues.guids, q'.rolesOf g = q.rolesOf g := by
    intro g hg
    rw [rolesOf_eq, rolesOf_eq, (hcore g hg).1]
  have hin : ∀ g ∈ newGuid :: p.queues.guids.erase newGuid, g ∈ p.queues.guids := by
    intro g hg
    rcases List.mem_cons.mp hg with rfl | hg
    · exact hnew
    · exact List.mem_of_mem_erase hg
  refine ⟨h.five, fun g hg => ?_, fun x => ?_, fun g hg => ?_, h.groups, ?_, h.roles, fun x hx => ?_⟩
  · have hsome := (hcore g hg).2
    rwa [core, Option.isSome_map] at hsome
  · refine (h.members x).trans (exists_congr fun g => and_congr_right fun hg => ?_)
    rw [hroles g hg]
  · have hdungeon := h.dungeon g hg
    rwa [dungeonsOf_eq, (hcore g hg).1, ← dungeonsOf_eq] at hdungeon
  · refine h.ignores.imp_of_mem fun ha hb hab => ?_
    rw [← hroles _ (hin _ ha), ← hroles _ (hin _ hb)]
    exact hab
  · obtain ⟨g, hg, mask, hmask, hand⟩ := h.selected x hx
    exact ⟨g, hg, mask, hroles g hg ▸ hmask, hand⟩

/-! ### Every match -/

theorem Outcome.sound (hq : q.Ordered)
    (hstr : strGuids.Holds (l.orderedInsert (· ≤ ·) newGuid))
    (hown : (q.core newGuid).isSome → (checkGroupRoles (q.rolesOf newGuid)).1 ≠ 0) {r : Checked}
    (h : Outcome w q (newGuid :: l) current strGuids r) (hmatch : r.compatibility = .isMatch) :
    ∃ p, r.proposal = some p ∧ SoundProposal w q newGuid p ∧ newGuid ∈ p.queues.guids := by
  cases h with
  | refused found hne hless => exact absurd hmatch hne
  | missing guid found => cases hmatch
  | kept roles found hteam hcur hsmall hcommon hsame => cases hmatch
  | asked scan found hcheck hteam hfull =>
    obtain ⟨p, hp, hwritten⟩ := propose_match w q _ _ scan _ _ found hmatch
    obtain ⟨d, hd⟩ := hteam.keyed newGuid List.mem_cons_self
    have hsome : (q.core newGuid).isSome := by
      rw [core, hd]
      rfl
    refine ⟨p, hp, hwritten.sound hq hstr hteam hfull (hown hsome), ?_⟩
    rw [hwritten.queues, hstr.guids_eq]
    exact (List.mem_orderedInsert _).mpr (.inl rfl)

section
variable {w : World} {q₀ : LFGQueue} {newGuid : ℕ} {current : List (List ℕ)}

def OwnRoles (q : LFGQueue) : Prop :=
  ∀ g, (q.queueDataStore.find? g).isSome → (checkGroupRoles (q.rolesOf g)).1 ≠ 0

theorem OwnRoles.of_shrunk {q q' : LFGQueue} (h : q.OwnRoles) (hs : q.Shrunk q') {g : ℕ}
    (hg : (q'.core g).isSome) : (checkGroupRoles (q'.rolesOf g)).1 ≠ 0 := by
  rcases hs g with hnone | hsame
  · rw [hnone] at hg
    cases hg
  · have hsome : (q.core g).isSome := hsame ▸ hg
    rw [core, Option.isSome_map] at hsome
    rw [rolesOf_eq, hsame, ← rolesOf_eq]
    exact h g hsome

theorem check_sound (hown : q₀.OwnRoles) (hs : q₀.Shrunk q) (hq : q.Ordered)
    (hne : newGuid ≠ 0) {e : Lfg5Guids} (hl : e.Holds l) (hlen : l.length ≤ 4)
    (found : Found) (hmatch : (checkCompatibility w q e newGuid found current).compatibility = .isMatch) :
    ∃ p, (checkCompatibility w q e newGuid found current).proposal = some p ∧
      SoundProposal w q₀ newGuid p := by
  have hout := checkCompatibility_outcome w q hl hlen hne found current
  have hstr := hl.noRoles.insert hlen hne
  obtain ⟨p, hp, hsound, hnew⟩ := hout.sound hq hstr (fun hg => hown.of_shrunk hs hg) hmatch
  exact ⟨p, hp, hsound.of_shrunk hs hnew⟩

theorem findLoop_sound {self : LfgCompatibility} (hself : self ≠ .isMatch) (hown : q₀.OwnRoles)
    (remaining pos : ℕ) (found : Found) (h : q.Walk newGuid current pos)
    (hs : q₀.Shrunk q)
    (hmatch : (findLoop w newGuid current self remaining pos q found).compatibility = .isMatch) :
    ∃ p, (findLoop w newGuid current self remaining pos q found).proposal = some p ∧
      SoundProposal w q₀ newGuid p := by
  induction remaining generalizing pos q found with
  | zero => exact absurd hmatch hself
  | succ remaining ih =>
    rw [findLoop] at hmatch ⊢
    cases he : q.compatibleList[pos]? with
    | none =>
      rw [he] at hmatch
      exact absurd hmatch hself
    | some e =>
      rw [he] at hmatch
      dsimp only at hmatch ⊢
      split at hmatch
      · rename_i hempty
        rw [if_pos hempty]
        exact ih pos found (h.eraseIdx (List.getElem?_eq_some_iff.mp he).1) hs hmatch
      · rename_i hempty
        rw [if_neg hempty]
        obtain ⟨l, hl, hp⟩ := h.entries e (List.mem_of_getElem? he)
        have hlen := hp.length_le h.toOrdered
        split at hmatch
        · rename_i hfound
          rw [if_pos hfound]
          exact check_sound hown hs h.toOrdered h.nonzero hl hlen found hfound
        · rename_i hfound
          rw [if_neg hfound]
          split at hmatch
          · exact absurd hmatch hself
          · rename_i hmask
            rw [if_neg hmask]
            have hout := checkCompatibility_outcome w q hl hlen h.nonzero found current
            exact ih (pos + 1) _ (h.check w he hempty found) (hs.trans hout.shrunk) hmatch

end

/-- Whenever `FindNewGroups` returns a match for a new guid of a reachable queue whose entries can
each fill their own roles, the proposal is sound. -/
theorem findNewGroups_sound (w : World) (q : LFGQueue) (h : q.Reachable) (hown : q.OwnRoles)
    (newGuid : ℕ) (hnew : newGuid ∈ q.newToQueueStore)
    (hmatch : (findNewGroups w (q.removeFromNewQueue newGuid) newGuid).compatibility = .isMatch) :
    ∃ p, (findNewGroups w (q.removeFromNewQueue newGuid) newGuid).proposal = some p ∧
      SoundProposal w q newGuid p := by
  have hne := h.valid.new newGuid hnew
  have hq := h.valid.removeFromNewQueue newGuid
  have hwalk := hq.walk hne
  have hs : q.Shrunk (q.removeFromNewQueue newGuid) := fun _ => .inr rfl
  have hempty : Lfg5Guids.none5.Holds [] := Lfg5Guids.holds_none5
  rw [findNewGroups] at hmatch ⊢
  dsimp only at hmatch ⊢
  split at hmatch
  · rename_i hcurrent
    rw [if_pos hcurrent]
    split at hmatch
    · rename_i hself
      rw [if_pos hself]
      exact check_sound hown hs hq.toOrdered hne hempty (by simp) _ hmatch
    · rename_i hself
      rw [if_neg hself]
      rw [not_not] at hself
      have hout := checkCompatibility_outcome w (q.removeFromNewQueue newGuid) hempty (by simp) hne
        ⟨0, 0⟩ (currentOf (q.removeFromNewQueue newGuid) newGuid)
      have hless : LfgCompatibility.withLessPlayers ≠ .isMatch := by decide
      exact findLoop_sound (hself ▸ hless) hown _ 0 _ (hwalk.self w hq.temp ⟨0, 0⟩)
        (hs.trans hout.shrunk) hmatch
  · rename_i hcurrent
    rw [if_neg hcurrent]
    exact findLoop_sound (by decide) hown _ 0 _ hwalk hs hmatch

theorem ownRoles_of_rows (h : ∀ d ∈ q.queueDataStore.rows, (checkGroupRoles d.roles).1 ≠ 0) : q.OwnRoles := by
  intro g hg
  obtain ⟨d, hd⟩ := Option.isSome_iff_exists.mp hg
  rw [rolesOf_of_find hd]
  exact h d ((KeyedList.find?_eq_some_iff _ _ _).mp hd).1

theorem findNewGroups_sound_party : ∃ (q : LFGQueue) (p : LfgProposal), q.Reachable ∧
    (findNewGroups quietWorld (q.removeFromNewQueue 5) 5).proposal = some p ∧
      SoundProposal quietWorld q 5 p := by
  have hstart : Starts initial := rfl
  obtain ⟨q, hq, h⟩ := Reaches.exists_of_replay LFGQueue.step anyStep hstart
    [.addQueueData 100 5 {7, 8} [(11, 10), (12, 12), (13, 12)] (by decide),
      joinAlone 4 PLAYER_ROLE_DAMAGE, joinAlone 5 PLAYER_ROLE_DAMAGE,
      .findGroups quietWorld, .findGroups quietWorld]
    (replayOk_anyStep ..) (fun q => decide (
      (∀ d ∈ q.queueDataStore.rows, (checkGroupRoles d.roles).1 ≠ 0) ∧ 5 ∈ q.newToQueueStore ∧
      (findNewGroups quietWorld (q.removeFromNewQueue 5) 5).compatibility = .isMatch))
    (by decide +kernel)
  obtain ⟨hrows, hnew, hmatch⟩ := of_decide_eq_true h
  obtain ⟨p, hp, hsound⟩ :=
    findNewGroups_sound quietWorld q hq (ownRoles_of_rows hrows) 5 hnew hmatch
  exact ⟨q, p, hq, hp, hsound⟩

end LFGQueue

end HysteriaCore.Dungeon
