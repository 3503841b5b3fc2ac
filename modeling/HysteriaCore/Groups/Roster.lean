import HysteriaCore.Groups.Group

/-!
# The roster of one group

A group that forms has no slots; a party has at most five, all in sub group 0; a
raid has counters that agree with its slots and stay at most five. Each routine
that changes the slots keeps this.
-/

namespace HysteriaCore.Groups
open Lib

def Agree (c : SubGroupsCounts) (slots : List MemberSlot) : Prop :=
  ∀ s, (c s).toNat = membersIn slots s ∧ membersIn slots s ≤ maxGroupSize

namespace Group

structure Counted (g : Group) : Prop where
  forming : g.created = false → g.memberSlots = [] ∧ g.raid = false
  party : g.raid = false → g.subGroupsCounts = none ∧ g.memberSlots.length ≤ maxGroupSize ∧
    ∀ m ∈ g.memberSlots, m.group = 0
  raid : g.raid = true → ∃ c, g.subGroupsCounts = some c ∧ Agree c g.memberSlots

def Led (g : Group) : Prop := 0 < slotCount g.memberSlots g.leaderGuid

structure Roster (g : Group) : Prop where
  leader : ∃ m ∈ g.memberSlots, m.guid = g.leaderGuid
  raid : g.raid = true → ∃ c, g.subGroupsCounts = some c ∧ ∀ s : Fin 8,
    (c s).toNat = g.memberSlots.countP (fun m => m.group = s) ∧ (c s).toNat ≤ maxGroupSize
  party : g.raid = false → g.memberSlots.length ≤ maxGroupSize ∧ ∀ m ∈ g.memberSlots, m.group = 0

variable {g : Group} {guid : ℕ}

theorem Counted.roster (h : g.Counted) (hled : g.Led) : g.Roster where
  leader := (slotCount_pos _ _).mp hled
  raid hr := by
    obtain ⟨c, hc, hagree⟩ := h.raid hr
    exact ⟨c, hc, fun s => ⟨(hagree s).1, (hagree s).1.trans_le (hagree s).2⟩⟩
  party hr := (h.party hr).2

theorem new_counted (address : ℕ) : (new address).Counted where
  forming _ := ⟨rfl, rfl⟩
  party _ := ⟨rfl, Nat.zero_le _, fun m hm => absurd hm (by simp [new])⟩
  raid h := Bool.noConfusion h

theorem Counted.of_setSlot (h : g.Counted) (f : MemberSlot → MemberSlot)
    (hf : ∀ m, (f m).group = m.group) (leader : ℕ) :
    ({ g with leaderGuid := leader, memberSlots := setSlot guid f g.memberSlots } : Group).Counted where
  forming hc := by
    obtain ⟨hnil, hraid⟩ := h.forming hc
    refine ⟨?_, hraid⟩
    show setSlot guid f g.memberSlots = []
    rw [hnil]
    rfl
  party hr := by
    obtain ⟨hnone, hlen, hzero⟩ := h.party hr
    have hmap := setSlot_map (fun m => m.group) hf guid g.memberSlots
    refine ⟨hnone, ?_, fun m hm => ?_⟩
    · have hlength := congrArg List.length hmap
      rw [List.length_map, List.length_map] at hlength
      show (setSlot guid f g.memberSlots).length ≤ _
      omega
    · have hmem : m.group ∈ g.memberSlots.map fun m => m.group := hmap ▸ List.mem_map_of_mem hm
      obtain ⟨m', hm', heq⟩ := List.mem_map.mp hmem
      exact heq ▸ hzero m' hm'
  raid hr := by
    obtain ⟨c, hc, hagree⟩ := h.raid hr
    refine ⟨c, hc, fun s => ?_⟩
    show (c s).toNat = membersIn (setSlot guid f g.memberSlots) s ∧ _
    rw [setSlot_membersIn hf]
    exact hagree s

/-! ### A new member -/

theorem subGroupForNew_party (h : g.Counted) (hr : g.raid = false) : g.subGroupForNew = some 0 := by
  unfold subGroupForNew
  rw [(h.party hr).1]

theorem Counted.pushSlot (h : g.Counted) (hcreated : g.created = true) (hroom : g.isFull = false)
    {s : Fin 8} (hs : g.subGroupForNew = some s) (guid : ℕ) (name : String) :
    (g.pushSlot guid name s).Counted where
  forming hc := by
    have hc' : g.created = false := hc
    simp [hcreated] at hc'
  party hr := by
    obtain ⟨hnone, -, hzero⟩ := h.party hr
    have hr' : g.raid = false := hr
    have hs0 : s = 0 := by
      rw [subGroupForNew_party h hr] at hs
      exact (Option.some.inj hs).symm
    have hlt : g.memberSlots.length < maxGroupSize := by
      simp only [isFull, hr', getMembersCount, Bool.false_eq_true, if_false] at hroom
      exact Nat.lt_of_not_le (of_decide_eq_false hroom)
    refine ⟨by simp [Group.pushSlot, hnone], ?_, fun m hm => ?_⟩
    · show (g.memberSlots ++ [_]).length ≤ _
      rw [List.length_append, List.length_singleton]
      omega
    · rcases List.mem_append.mp hm with hm | hm
      · exact hzero m hm
      · rw [List.mem_singleton.mp hm]
        exact hs0
  raid hr := by
    obtain ⟨c, hc, hagree⟩ := h.raid hr
    have hfree : (c s).toNat < maxGroupSize := by
      unfold subGroupForNew at hs
      rw [hc] at hs
      exact SubGroupsCounts.firstFree_spec hs
    have hmax : maxGroupSize = 5 := rfl
    refine ⟨c.increase s, by simp [Group.pushSlot, hc], fun t => ?_⟩
    have ht := hagree t
    have hinc := SubGroupsCounts.increase_toNat (c := c) (t := s) (s := t) (by omega)
    have hcount : membersIn (g.pushSlot guid name s).memberSlots t =
        membersIn g.memberSlots t + if s = t then 1 else 0 := by
      show membersIn (g.memberSlots ++ [_]) t = _
      rw [membersIn_append, membersIn_cons]
      simp [membersIn]
    rw [hcount, hinc]
    by_cases hst : s = t
    · subst hst
      rw [if_pos rfl]
      omega
    · rw [if_neg hst]
      omega

theorem pushSlot_slotCount (g : Group) (guid : ℕ) (name : String) (s : Fin 8) (guid' : ℕ) :
    slotCount (g.pushSlot guid name s).memberSlots guid' =
      slotCount g.memberSlots guid' + if guid = guid' then 1 else 0 := by
  show slotCount (g.memberSlots ++ [_]) guid' = _
  rw [slotCount_append, slotCount_cons]
  simp [slotCount]

/-! ### A member who goes -/

theorem Counted.eraseSlot (h : g.Counted) (guid : ℕ) : (g.eraseSlot guid).Counted := by
  cases hm : g.getMemberSlot guid with
  | none =>
    have hsame : g.eraseSlot guid = g := by
      unfold Group.eraseSlot
      rw [hm]
    rwa [hsame]
  | some m =>
    obtain ⟨-, l, l', hsplit, herase, -⟩ := split_of_getMemberSlot hm
    have heq : g.eraseSlot guid = { g with
        memberSlots := l ++ l'
        subGroupsCounts := g.subGroupsCounts.map fun c => SubGroupsCounts.decrease c m.group } := by
      unfold Group.eraseSlot
      rw [hm, ← herase]
    rw [heq]
    have hcount (s : Fin 8) : membersIn g.memberSlots s =
        membersIn (l ++ l') s + if m.group = s then 1 else 0 := by
      rw [hsplit, membersIn_append, membersIn_cons, membersIn_append]
      omega
    constructor
    · intro hc
      have hnil := (h.forming hc).1
      rw [hsplit] at hnil
      simp at hnil
    · intro hr
      obtain ⟨hnone, hlen, hzero⟩ := h.party hr
      refine ⟨by simp [hnone], ?_, fun x hx => hzero x ?_⟩
      · show (l ++ l').length ≤ _
        rw [hsplit] at hlen
        simp only [List.length_append, List.length_cons] at hlen ⊢
        omega
      · rw [hsplit]
        rcases List.mem_append.mp hx with hx | hx
        · exact List.mem_append_left _ hx
        · exact List.mem_append_right _ (List.mem_cons_of_mem m hx)
    · intro hr
      obtain ⟨c, hc, hagree⟩ := h.raid hr
      refine ⟨c.decrease m.group, by simp [hc], fun s => ?_⟩
      have hpos : 0 < (c m.group).toNat := by
        have hm' := hcount m.group
        rw [if_pos rfl] at hm'
        have := (hagree m.group).1
        omega
      have hs := hagree s
      have hdec := SubGroupsCounts.decrease_toNat (s := s) hpos
      have hsum := hcount s
      show ((c.decrease m.group) s).toNat = membersIn (l ++ l') s ∧ membersIn (l ++ l') s ≤ _
      omega

theorem eraseSlot_slotCount (g : Group) (guid guid' : ℕ) :
    slotCount (g.eraseSlot guid).memberSlots guid' =
      slotCount g.memberSlots guid' - if guid = guid' then 1 else 0 := by
  cases hm : g.getMemberSlot guid with
  | none =>
    have hsame : g.eraseSlot guid = g := by
      unfold eraseSlot
      rw [hm]
    have hnone : slotCount g.memberSlots guid = 0 := by
      have hnot := getMemberSlot_eq_none hm
      by_contra hne
      obtain ⟨m, hmem, heq⟩ := (slotCount_pos _ _).mp (Nat.pos_of_ne_zero hne)
      exact hnot m hmem heq
    rw [hsame]
    by_cases hguid : guid = guid'
    · subst hguid
      omega
    · rw [if_neg hguid]
      omega
  | some m =>
    obtain ⟨hguid, l, l', hsplit, herase, -⟩ := split_of_getMemberSlot hm
    have heq : (g.eraseSlot guid).memberSlots = l ++ l' := by
      unfold eraseSlot
      rw [hm, ← herase]
    rw [heq, hsplit, slotCount_append, slotCount_append, slotCount_cons, hguid]
    omega

theorem eraseSlot_leaderGuid (g : Group) (guid : ℕ) : (g.eraseSlot guid).leaderGuid = g.leaderGuid := by
  unfold eraseSlot
  split <;> rfl

theorem eraseSlot_created (g : Group) (guid : ℕ) : (g.eraseSlot guid).created = g.created := by
  unfold eraseSlot
  split <;> rfl

/-! ### Raids -/

theorem Counted.convertToRaid (h : g.Counted) (hcreated : g.created = true) : g.convertToRaid.Counted where
  forming hc := by
    have hc' : g.created = false := hc
    simp [hcreated] at hc'
  party hr := Bool.noConfusion hr
  raid _ := by
    have hmax : ∀ s, membersIn g.memberSlots s ≤ maxGroupSize := by
      intro s
      cases hr : g.raid with
      | false =>
        have hlen := (h.party hr).2.1
        have hle := membersIn_le_length g.memberSlots s
        omega
      | true =>
        obtain ⟨c, -, hagree⟩ := h.raid hr
        exact (hagree s).2
    have h5 : maxGroupSize = 5 := rfl
    refine ⟨g.initRaidSubGroupsCounter, rfl, fun s => ⟨?_, hmax s⟩⟩
    have hfold := foldl_increase g.memberSlots (fun _ => 0) (fun t => by
      have ht := hmax t
      have h0 : (0 : UInt8).toNat = 0 := rfl
      omega) s
    have h0 : (0 : UInt8).toNat = 0 := rfl
    rw [initRaidSubGroupsCounter, hfold, h0, Nat.zero_add]
    rfl

theorem membersIn_move {m : MemberSlot} (hm : g.getMemberSlot guid = some m) (s t : Fin 8) :
    membersIn (setSlot guid (fun m => { m with group := s }) g.memberSlots) t + (if m.group = t then 1 else 0) =
      membersIn g.memberSlots t + if s = t then 1 else 0 := by
  obtain ⟨-, l, l', hsplit, -, hset⟩ := split_of_getMemberSlot hm
  rw [hset, hsplit, membersIn_append, membersIn_append, membersIn_cons, membersIn_cons]
  show membersIn l t + (membersIn l' t + if s = t then 1 else 0) + _ = _
  omega

theorem changeMembersGroup_cases (g : Group) (guid : ℕ) (s : Fin 8) :
    (g.changeMembersGroup guid s = g ∧ (g.raid = true → ∀ m ∈ g.getMemberSlot guid, m.group = s)) ∨
      g.raid = true ∧ ∃ m ∈ g.getMemberSlot guid, m.group ≠ s ∧ g.changeMembersGroup guid s = { g with
        memberSlots := setSlot guid (fun m => { m with group := s }) g.memberSlots
        subGroupsCounts := g.subGroupsCounts.map fun c =>
          SubGroupsCounts.decrease (SubGroupsCounts.increase c s) m.group } := by
  unfold changeMembersGroup
  split
  next hraid => exact .inl ⟨rfl, fun h => absurd (hraid.symm.trans h) Bool.false_ne_true⟩
  next hraid =>
    split
    next hnone => exact .inl ⟨rfl, fun _ m hm => absurd (hnone.symm.trans hm) nofun⟩
    next m hm =>
      split
      next hsame => exact .inl ⟨rfl, fun _ m' hm' => Option.some.inj (hm.symm.trans hm') ▸ hsame⟩
      next hne => exact .inr ⟨by simpa using hraid, m, hm, hne, rfl⟩

theorem Counted.changeMembersGroup (h : g.Counted) (guid : ℕ) {s : Fin 8}
    (hroom : ∀ m ∈ g.getMemberSlot guid, m.group = s ∨ g.hasFreeSlotSubGroup s = true) :
    (g.changeMembersGroup guid s).Counted := by
  rcases g.changeMembersGroup_cases guid s with ⟨heq, -⟩ | ⟨hraid, m, hm, hne, heq⟩ <;> rw [heq]
  · exact h
  obtain ⟨c, hc, hagree⟩ := h.raid hraid
  have h5 : maxGroupSize = 5 := rfl
  have hroom : (c s).toNat < maxGroupSize := by
    simpa [hasFreeSlotSubGroup, hc] using (hroom m hm).resolve_left hne
  refine ⟨fun hcr => ?_, fun hr => absurd (hraid.symm.trans hr) nofun, fun _ =>
    ⟨(c.increase s).decrease m.group, by simp [hc], fun t => ?_⟩⟩
  · exact absurd (hraid.symm.trans (h.forming hcr).2) nofun
  have hcount := membersIn_move hm s
  have hsum := hcount t
  have hm' := hcount m.group
  have hagm := hagree m.group
  have hagt := hagree t
  have hinc (u : Fin 8) := SubGroupsCounts.increase_toNat (c := c) (t := s) (s := u) (by omega)
  rw [if_pos rfl, if_neg (Ne.symm hne)] at hm'
  have hpos : 0 < ((c.increase s) m.group).toNat := by
    have hu := hinc m.group
    rw [if_neg (Ne.symm hne)] at hu
    omega
  have hdec := SubGroupsCounts.decrease_toNat (s := t) hpos
  have hu := hinc t
  have hexcl : (if s = t then 1 else 0) + (if m.group = t then 1 else 0) ≤ 1 := by
    by_cases h1 : s = t
    · have h2 : m.group ≠ t := fun h => hne (h.trans h1.symm)
      rw [if_pos h1, if_neg h2]
    · rw [if_neg h1]
      split <;> omega
  have hful : (if s = t then 1 else 0) = 0 ∨ (c t).toNat < maxGroupSize := by
    by_cases h1 : s = t
    · exact .inr (h1 ▸ hroom)
    · exact .inl (if_neg h1)
  show (((c.increase s).decrease m.group) t).toNat =
    membersIn (setSlot guid (fun m => { m with group := s }) g.memberSlots) t ∧
    membersIn (setSlot guid (fun m => { m with group := s }) g.memberSlots) t ≤ maxGroupSize
  omega

theorem Counted.hasFreeSlot_left (h : g.Counted) {s : Fin 8} (hmoved : (g.changeMembersGroup guid s).Counted)
    (hraid : g.raid = true) {m : MemberSlot} (hm : g.getMemberSlot guid = some m) (hne : m.group ≠ s) :
    (g.changeMembersGroup guid s).hasFreeSlotSubGroup m.group = true := by
  rcases g.changeMembersGroup_cases guid s with ⟨-, hsame⟩ | ⟨-, m', hm', -, heq⟩
  · exact absurd (hsame hraid m hm) hne
  obtain ⟨c, hc, hagree⟩ := hmoved.raid (by rw [heq]; exact hraid)
  obtain ⟨c₀, -, hagree₀⟩ := h.raid hraid
  have hcount := membersIn_move hm s m.group
  have hle := (hagree₀ m.group).2
  have heq' := (hagree m.group).1
  rw [heq] at heq'
  rw [if_pos rfl, if_neg (Ne.symm hne)] at hcount
  rw [hasFreeSlotSubGroup, hc, Option.any_some]
  refine decide_eq_true (heq'.trans_lt ?_)
  show membersIn (setSlot guid (fun m => { m with group := s }) g.memberSlots) m.group < maxGroupSize
  omega

theorem Counted.setGroupMemberFlag (h : g.Counted) (guid : ℕ) (apply : Bool) :
    (g.setGroupMemberFlag guid apply).Counted := by
  unfold Group.setGroupMemberFlag
  split
  · exact h
  · exact h.of_setSlot (fun m => { m with assistant := apply }) (fun _ => rfl) g.leaderGuid

theorem changeMembersGroup_slotCount (g : Group) (guid : ℕ) (s : Fin 8) (guid' : ℕ) :
    slotCount (g.changeMembersGroup guid s).memberSlots guid' = slotCount g.memberSlots guid' := by
  rcases g.changeMembersGroup_cases guid s with ⟨heq, -⟩ | ⟨-, m, -, -, heq⟩ <;> rw [heq]
  exact setSlot_slotCount (f := fun m => { m with group := s }) (fun _ => rfl) guid guid' g.memberSlots

theorem setGroupMemberFlag_slotCount (g : Group) (guid : ℕ) (apply : Bool) (guid' : ℕ) :
    slotCount (g.setGroupMemberFlag guid apply).memberSlots guid' = slotCount g.memberSlots guid' := by
  unfold setGroupMemberFlag
  split
  · rfl
  · exact setSlot_slotCount (f := fun m => { m with assistant := apply }) (fun _ => rfl) guid guid'
      g.memberSlots

end Group

end HysteriaCore.Groups
