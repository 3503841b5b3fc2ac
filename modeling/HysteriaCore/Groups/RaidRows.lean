import HysteriaCore.Groups.RaidRoles

/-!
# A raid's slots against their rows

The main tank and the main assistant are one member each, in memory. Their flags are taken
from the members that had them, and the assistant's from a new leader, without a word to the table.
-/

namespace HysteriaCore.Groups.Raid
open Lib

/-! ### Flags -/

theorem and_or_distrib (a b c : UInt8) : a &&& (b ||| c) = a &&& b ||| a &&& c := by
  apply UInt8.toBitVec_inj.mp
  ext i hi
  simp [Bool.and_or_distrib_left]

namespace MemberSlot

variable {m : MemberSlot} {flag flag' : UInt8}

theorem has_eq_false : m.has flag = false ↔ m.flags &&& flag = 0 := by simp [has]

theorem toggle_of_not_has (h : m.has flag = false) : m.toggle flag false = m := by
  have hsplit : m.flags = m.flags &&& flag ||| m.flags &&& ~~~flag := by
    rw [← and_or_distrib, UInt8.or_not_self, UInt8.and_neg_one]
  rw [has_eq_false.mp h, UInt8.zero_or] at hsplit
  show { m with flags := m.flags &&& ~~~flag } = m
  rw [← hsplit]

theorem has_toggle_false : (m.toggle flag false).has flag = false := by
  rw [has_eq_false]
  show m.flags &&& ~~~flag &&& flag = 0
  rw [UInt8.and_assoc, UInt8.not_and_self, UInt8.and_zero]

theorem has_toggle_of_disjoint (h : flag &&& flag' = 0) (apply : Bool) :
    (m.toggle flag apply).has flag' = m.has flag' := by
  have hflags : (m.toggle flag apply).flags &&& flag' = m.flags &&& flag' := by
    cases apply with
    | true =>
      show (m.flags ||| flag) &&& flag' = m.flags &&& flag'
      rw [UInt8.and_comm, and_or_distrib, UInt8.and_comm flag' flag, h, UInt8.or_zero, UInt8.and_comm]
    | false =>
      have hsplit : flag' = flag' &&& flag ||| flag' &&& ~~~flag := by
        rw [← and_or_distrib, UInt8.or_not_self, UInt8.and_neg_one]
      rw [UInt8.and_comm flag' flag, h, UInt8.zero_or] at hsplit
      show m.flags &&& ~~~flag &&& flag' = m.flags &&& flag'
      rw [UInt8.and_assoc, UInt8.and_comm (~~~flag), ← hsplit]
  rw [has, has, hflags]

theorem toggle_false_eq_iff : m.toggle flag false = m ↔ m.has flag = false :=
  ⟨fun h => h ▸ has_toggle_false, toggle_of_not_has⟩

theorem row_inj {guid : ℕ} {m m' : MemberSlot} : m.row guid = m'.row guid ↔ m = m' := by
  constructor
  · intro h
    cases m
    cases m'
    simpa [row, and_assoc, and_left_comm, and_comm] using h
  · exact congrArg (row guid)

end MemberSlot

namespace Group

variable {g g' : Group} {rows rows' : KeyedList Row.memberGuid}

theorem find?_removeUnique (g : Group) (flag : UInt8) (k : ℕ) :
    (g.removeUniqueGroupMemberFlag flag).memberSlots.find? k =
      (g.memberSlots.find? k).map (MemberSlot.toggle flag false) := by
  have hclear : (fun m : MemberSlot => if m.has flag then m.toggle flag false else m) =
      MemberSlot.toggle flag false := by
    funext m
    cases h : m.has flag with
    | true => rfl
    | false => exact (MemberSlot.toggle_of_not_has h).symm
  rw [removeUniqueGroupMemberFlag, KeyedList.find?_mapRows, hclear]

/-- The table has a row for each slot, which says what the slot says, and no other row of the group. -/
def Agrees (g : Group) (rows : KeyedList Row.memberGuid) : Prop :=
  ∀ k, (rows.find? k).filter (fun r => r.guid = g.guid) = (g.memberSlots.find? k).map (MemberSlot.row g.guid)

def Unique (g : Group) : Prop :=
  ∀ flag, flag = MEMBER_FLAG_MAINTANK ∨ flag = MEMBER_FLAG_MAINASSIST →
    ∀ m ∈ g.memberSlots, ∀ m' ∈ g.memberSlots, m.has flag = true → m'.has flag = true → m = m'

variable {φ : ℕ → MemberSlot → MemberSlot}

theorem Unique.of_find (h : g.Unique)
    (hslots : ∀ k, g'.memberSlots.find? k = (g.memberSlots.find? k).map (φ k))
    (hhas : ∀ flag, flag = MEMBER_FLAG_MAINTANK ∨ flag = MEMBER_FLAG_MAINASSIST →
      (∃ guid, ∀ k m, (φ k m).has flag = true → k = guid) ∨
        ∀ k m, (φ k m).has flag = true → m.has flag = true) : g'.Unique := by
  have hback : ∀ m ∈ g'.memberSlots, ∃ n ∈ g.memberSlots, n.guid = m.guid ∧ φ m.guid n = m := by
    intro m hm
    have hfind := (g'.memberSlots.find?_eq_some_iff m.guid m).mpr ⟨hm, rfl⟩
    rw [hslots, Option.map_eq_some_iff] at hfind
    obtain ⟨n, hn, heq⟩ := hfind
    obtain ⟨hmem, hguid⟩ := (g.memberSlots.find?_eq_some_iff _ _).mp hn
    exact ⟨n, hmem, hguid, heq⟩
  intro flag hrole m hm m' hm' hhas₁ hhas₂
  obtain ⟨n, hn, hguid, heq⟩ := hback m hm
  obtain ⟨n', hn', hguid', heq'⟩ := hback m' hm'
  refine g'.memberSlots.eq_of_key_eq hm hm' ?_
  rcases hhas flag hrole with ⟨guid, honly⟩ | hless
  · rw [honly m.guid n (heq.symm ▸ hhas₁), honly m'.guid n' (heq'.symm ▸ hhas₂)]
  · have hone := h flag hrole n hn n' hn' (hless m.guid n (heq.symm ▸ hhas₁)) (hless m'.guid n' (heq'.symm ▸ hhas₂))
    rw [← hguid, ← hguid', hone]

theorem agrees_map_iff (h : g.Agrees rows) (g' : Group) {ψ : ℕ → Row → Row}
    (hguid : g'.guid = g.guid)
    (hslots : ∀ k, g'.memberSlots.find? k = (g.memberSlots.find? k).map (φ k))
    (hrows : ∀ k, rows'.find? k = (rows.find? k).map (ψ k)) (hψ : ∀ k r, (ψ k r).guid = r.guid) :
    g'.Agrees rows' ↔ ∀ k m, g.memberSlots.find? k = some m → ψ k (m.row g.guid) = (φ k m).row g.guid := by
  have hsides : ∀ k, (rows'.find? k).filter (fun r => r.guid = g'.guid) =
      ((g.memberSlots.find? k).map (MemberSlot.row g.guid)).map (ψ k) := by
    intro k
    rw [← h k, hrows, hguid]
    cases rows.find? k with
    | none => rfl
    | some r =>
      by_cases hr : r.guid = g.guid
      · simp [Option.filter, hr, hψ]
      · simp [Option.filter, hr, hψ]
  refine forall_congr' fun k => ?_
  rw [hsides, hslots, hguid]
  cases g.memberSlots.find? k with
  | none => simp
  | some m => simp

theorem mem_iff_find? {m : MemberSlot} : m ∈ g.memberSlots ↔ g.memberSlots.find? m.guid = some m := by
  rw [KeyedList.find?_eq_some_iff]
  exact ⟨fun hm => ⟨hm, rfl⟩, And.left⟩

theorem find?_adjustSlot (g : Group) (guid : ℕ) (f : MemberSlot → MemberSlot) (hf : ∀ m, (f m).guid = m.guid)
    (k : ℕ) : (g.adjustSlot guid f hf).memberSlots.find? k =
      (g.memberSlots.find? k).map fun m => if k = guid then f m else m :=
  g.memberSlots.find?_adjust guid k f hf

theorem agrees_upd_iff (h : g.Agrees rows) (g₀ : Group) {χ f : MemberSlot → MemberSlot} {guid : ℕ}
    {m : MemberSlot} (hχ : ∀ m, χ m = { m with flags := (χ m).flags })
    (hf : ∀ m, f m = { m with flags := (f m).flags }) (hkey : ∀ m, (f m).guid = m.guid)
    (hguid : g₀.guid = g.guid) (hslots : ∀ k, g₀.memberSlots.find? k = (g.memberSlots.find? k).map χ)
    (hm : g.memberSlots.find? guid = some m) :
    (g₀.adjustSlot guid f hkey).Agrees (updMemberFlag rows (f (χ m)).flags guid) ↔
      ∀ m' ∈ g.memberSlots, m'.guid ≠ guid → χ m' = m' := by
  rw [agrees_map_iff h (g₀.adjustSlot guid f hkey)
    (φ := fun k x => if k = guid then f (χ x) else χ x)
    (ψ := fun k r => if k = guid then { r with memberFlags := (f (χ m)).flags } else r) hguid ?_ ?_ ?_]
  · constructor
    · intro hall m' hm' hne
      have hrow := hall m'.guid m' (mem_iff_find?.mp hm')
      rw [if_neg hne, if_neg hne] at hrow
      exact (MemberSlot.row_inj.mp hrow).symm
    · intro hsame k x hx
      obtain ⟨hmem, rfl⟩ := (g.memberSlots.find?_eq_some_iff _ _).mp hx
      by_cases hk : x.guid = guid
      · subst hk
        obtain rfl := Option.some.inj (hx.symm.trans hm)
        rw [if_pos rfl, if_pos rfl, hf, hχ]
        rfl
      · rw [if_neg hk, if_neg hk, hsame x hmem hk]
  · intro k
    rw [find?_adjustSlot, hslots, Option.map_map]
    rfl
  · intro k
    rw [updMemberFlag, KeyedList.find?_adjust]
  · intro k r
    split <;> rfl

end Group

namespace World

variable {w : World} {g : Group}

theorem toggle_toggle_false (m : MemberSlot) (flag : UInt8) :
    (m.toggle flag false).toggle flag false = m.toggle flag false :=
  MemberSlot.toggle_of_not_has MemberSlot.has_toggle_false

theorem agrees_setAssistant (h : g.Agrees w.groupMember) (guid : ℕ) (apply : Bool) :
    ∃ g', (w.setGroupMemberFlag g guid apply MEMBER_FLAG_ASSISTANT).group = some g' ∧
      g'.Agrees (w.setGroupMemberFlag g guid apply MEMBER_FLAG_ASSISTANT).groupMember ∧
      ∀ k, g'.memberSlots.find? k = (g.memberSlots.find? k).map fun m =>
        if k = guid then m.toggle MEMBER_FLAG_ASSISTANT apply else m := by
  cases hm : g.memberSlots.find? guid with
  | none =>
    refine ⟨g, by simp only [setGroupMemberFlag, hm], by simpa only [setGroupMemberFlag, hm] using h, fun k => ?_⟩
    cases hk : g.memberSlots.find? k with
    | none => rfl
    | some m =>
      have hne : k ≠ guid := by
        rintro rfl
        rw [hm] at hk
        cases hk
      rw [Option.map_some, if_neg hne]
  | some m =>
    have hsame : g.ensureUnique MEMBER_FLAG_ASSISTANT = g := if_neg (by decide)
    have hfind : ∀ k, (g.adjustSlot guid (MemberSlot.toggle MEMBER_FLAG_ASSISTANT apply)
        (MemberSlot.toggle_guid _ apply)).memberSlots.find? k = (g.memberSlots.find? k).map fun m =>
          if k = guid then m.toggle MEMBER_FLAG_ASSISTANT apply else m := by
      intro k
      rw [Group.find?_adjustSlot]
    refine ⟨_, by simp only [setGroupMemberFlag, hm, hsame], ?_, hfind⟩
    simp only [setGroupMemberFlag, hm, hsame, hfind, Option.map_some, if_true, Option.elim_some]
    refine (Group.agrees_upd_iff h g (χ := id) (f := MemberSlot.toggle MEMBER_FLAG_ASSISTANT apply)
      (fun _ => rfl) (fun _ => rfl) _ rfl (fun k => ?_) hm).mpr fun _ _ _ => rfl
    rw [Option.map_id]
    rfl

theorem agrees_setUnique_iff (h : g.Agrees w.groupMember) (guid : ℕ) (apply : Bool) {flag : UInt8}
    (hflag : flag = MEMBER_FLAG_MAINTANK ∨ flag = MEMBER_FLAG_MAINASSIST) :
    ∃ g', (w.setGroupMemberFlag (g.removeUniqueGroupMemberFlag flag) guid apply flag).group = some g' ∧
      (g'.Agrees (w.setGroupMemberFlag (g.removeUniqueGroupMemberFlag flag) guid apply flag).groupMember ↔
        ∀ m ∈ g.memberSlots, m.guid ≠ guid → m.has flag = false) ∧
      ∀ k, g'.memberSlots.find? k = (g.memberSlots.find? k).map fun m =>
        if k = guid then (m.toggle flag false).toggle flag apply else m.toggle flag false := by
  have hclear := Group.find?_removeUnique g flag
  cases hm : g.memberSlots.find? guid with
  | none =>
    have hm' : (g.removeUniqueGroupMemberFlag flag).memberSlots.find? guid = none := by
      rw [hclear, hm]
      rfl
    have hne : ∀ {k m}, g.memberSlots.find? k = some m → k ≠ guid := by
      rintro k m hk rfl
      rw [hm] at hk
      cases hk
    refine ⟨g.removeUniqueGroupMemberFlag flag, by simp only [setGroupMemberFlag, hm'], ?_, fun k => ?_⟩
    · simp only [setGroupMemberFlag, hm']
      rw [Group.agrees_map_iff h (g.removeUniqueGroupMemberFlag flag)
        (φ := fun _ => MemberSlot.toggle flag false) (ψ := fun _ r => r) rfl hclear
        (fun _ => Option.map_id'.symm) fun _ _ => rfl]
      constructor
      · intro hall m hmem _
        have hrow := hall m.guid m (Group.mem_iff_find?.mp hmem)
        exact MemberSlot.toggle_false_eq_iff.mp (MemberSlot.row_inj.mp hrow).symm
      · intro hnone k m hk
        have hmem := ((g.memberSlots.find?_eq_some_iff _ _).mp hk)
        rw [MemberSlot.toggle_of_not_has (hnone m hmem.1 (hmem.2 ▸ hne hk))]
    · rw [hclear]
      cases hk : g.memberSlots.find? k with
      | none => rfl
      | some m => rw [Option.map_some, Option.map_some, if_neg (hne hk)]
  | some m =>
    have hm' : (g.removeUniqueGroupMemberFlag flag).memberSlots.find? guid = some (m.toggle flag false) := by
      rw [hclear, hm]
      rfl
    have hunique : (g.removeUniqueGroupMemberFlag flag).ensureUnique flag =
        (g.removeUniqueGroupMemberFlag flag).removeUniqueGroupMemberFlag flag := if_pos hflag.symm
    have htwice : ∀ k, ((g.removeUniqueGroupMemberFlag flag).removeUniqueGroupMemberFlag flag).memberSlots.find? k =
        (g.memberSlots.find? k).map (MemberSlot.toggle flag false) := by
      intro k
      rw [Group.find?_removeUnique, hclear, Option.map_map]
      exact congrArg (fun f => (g.memberSlots.find? k).map f) (funext fun m => toggle_toggle_false m flag)
    have hfind : ∀ k, (((g.removeUniqueGroupMemberFlag flag).removeUniqueGroupMemberFlag flag).adjustSlot guid
        (MemberSlot.toggle flag apply) (MemberSlot.toggle_guid flag apply)).memberSlots.find? k =
          (g.memberSlots.find? k).map fun m =>
            if k = guid then (m.toggle flag false).toggle flag apply else m.toggle flag false := by
      intro k
      rw [Group.find?_adjustSlot, htwice, Option.map_map]
      rfl
    refine ⟨_, by simp only [setGroupMemberFlag, hm', hunique], ?_, hfind⟩
    simp only [setGroupMemberFlag, hm', hunique, hfind, hm, Option.map_some, if_true, Option.elim_some]
    rw [Group.agrees_upd_iff h ((g.removeUniqueGroupMemberFlag flag).removeUniqueGroupMemberFlag flag)
      (χ := MemberSlot.toggle flag false) (f := MemberSlot.toggle flag apply) (fun _ => rfl) (fun _ => rfl)
      _ rfl htwice hm]
    refine forall₂_congr fun m' _ => imp_congr_right fun _ => MemberSlot.toggle_false_eq_iff

theorem agrees_changeLeader_iff (h : g.Agrees w.groupMember) (guid : ℕ) (online : ℕ → Bool) :
    ∃ g', (w.changeLeader g guid online).group = some g' ∧
      (g'.Agrees (w.changeLeader g guid online).groupMember ↔
        (online guid = true → ∀ m ∈ g.memberSlots.find? guid, m.has MEMBER_FLAG_ASSISTANT = false)) ∧
      ∃ apply : Bool, ∀ k, g'.memberSlots.find? k = (g.memberSlots.find? k).map fun m =>
        if k = guid ∧ apply = true then m.toggle MEMBER_FLAG_ASSISTANT false else m := by
  rw [changeLeader]
  by_cases hcan : (g.memberSlots.find? guid).isSome ∧ online guid = true
  · rw [if_pos hcan]
    refine ⟨_, rfl, ?_, true, fun k => ?_⟩
    · refine Iff.trans (Group.agrees_map_iff h _
        (φ := fun k m => if k = guid then m.toggle MEMBER_FLAG_ASSISTANT false else m) (ψ := fun _ r => r) rfl
        (fun k => g.memberSlots.find?_adjust guid k _ (MemberSlot.toggle_guid MEMBER_FLAG_ASSISTANT false))
        (fun _ => Option.map_id'.symm) fun _ _ => rfl) ?_
      constructor
      · intro hall _ m hm
        have hrow := hall guid m hm
        rw [if_pos rfl] at hrow
        exact MemberSlot.toggle_false_eq_iff.mp (MemberSlot.row_inj.mp hrow).symm
      · intro hnone k m hm
        by_cases hk : k = guid
        · rw [if_pos hk, MemberSlot.toggle_of_not_has (hnone hcan.2 m (hk ▸ hm))]
        · rw [if_neg hk]
    · simp only [and_true]
      exact KeyedList.find?_adjust ..
  · rw [if_neg hcan]
    refine ⟨g, rfl, ⟨fun _ honline m hm => absurd ⟨Option.isSome_of_mem hm, honline⟩ hcan, fun _ => h⟩, false,
      fun k => ?_⟩
    simp

theorem agrees_changeMembersGroup (hw : w.group = some g) (h : g.Agrees w.groupMember) (guid : ℕ)
    (group : Fin 8) : ∃ g', (w.changeMembersGroup g guid group).group = some g' ∧
      g'.Agrees (w.changeMembersGroup g guid group).groupMember ∧
      ∃ φ : ℕ → MemberSlot → MemberSlot, (∀ k m, (φ k m).flags = m.flags) ∧
        ∀ k, g'.memberSlots.find? k = (g.memberSlots.find? k).map (φ k) := by
  have hstay : ∃ φ : ℕ → MemberSlot → MemberSlot, (∀ k m, (φ k m).flags = m.flags) ∧
      ∀ k, g.memberSlots.find? k = (g.memberSlots.find? k).map (φ k) :=
    ⟨fun _ m => m, fun _ _ => rfl, fun _ => Option.map_id'.symm⟩
  rw [changeMembersGroup]
  cases hm : g.memberSlots.find? guid with
  | none => exact ⟨g, hw, h, hstay⟩
  | some m =>
    by_cases hsame : m.group = group
    · simp only [if_pos hsame]
      exact ⟨g, hw, h, hstay⟩
    · simp only [if_neg hsame]
      have hfind := fun k => g.memberSlots.find?_adjust guid k ({ · with group := group }) fun _ => rfl
      refine ⟨_, rfl, ?_, fun k m => if k = guid then { m with group := group } else m, ?_, hfind⟩
      · refine Iff.mpr (Group.agrees_map_iff h _ (φ := fun k m => if k = guid then { m with group := group } else m)
          (ψ := fun k r => if k = guid then { r with subgroup := group } else r) rfl hfind
          (fun k => w.groupMember.find?_adjust guid k ({ · with subgroup := group }) fun _ => rfl) ?_) ?_
        rotate_left
        · intro k m _
          by_cases hk : k = guid
          · rw [if_pos hk, if_pos hk]
            rfl
          · rw [if_neg hk, if_neg hk]
        · intro k r
          split <;> rfl
      · intro k m
        dsimp only
        split <;> rfl

theorem agrees_addMember (hw : w.group = some g) (h : g.Agrees w.groupMember) (hunique : g.Unique) (guid : ℕ) :
    ∃ g', (w.addMember g guid).group = some g' ∧ g'.Agrees (w.addMember g guid).groupMember ∧ g'.Unique := by
  rw [addMember]
  cases g.subGroupsCounts.firstFree with
  | none => exact ⟨g, hw, h, hunique⟩
  | some subGroup =>
    refine ⟨_, rfl, fun k => ?_, ?_⟩
    · show ((w.groupMember.put _).find? k).filter _ = ((g.memberSlots.put _).find? k).map _
      have hrow : (MemberSlot.row g.guid ⟨guid, subGroup, 0, 0⟩).memberGuid = guid := rfl
      rw [KeyedList.find?_put, KeyedList.find?_put, hrow]
      by_cases hk : guid = k
      · rw [if_pos hk, if_pos hk]
        simp [Option.filter, MemberSlot.row]
      · rw [if_neg hk, if_neg hk]
        exact h k
    · have hold : ∀ m ∈ g.memberSlots.put ⟨guid, subGroup, 0, 0⟩, ∀ flag, m.has flag = true →
          m ∈ g.memberSlots := by
        intro m hm flag hhas
        rcases (g.memberSlots.mem_put _ _).mp hm with rfl | ⟨hm, -⟩
        · rw [MemberSlot.has_eq_false.mpr UInt8.zero_and] at hhas
          cases hhas
        · exact hm
      intro flag hrole m hm m' hm' hhas hhas'
      exact hunique flag hrole m (hold m hm flag hhas) m' (hold m' hm' flag hhas') hhas hhas'

theorem agrees_eraseSlot (h : g.Agrees w.groupMember) (guid : ℕ) :
    (g.eraseSlot guid).Agrees (delMember w.groupMember guid g.guid) := by
  intro k
  show ((w.groupMember.filter _).find? k).filter _ = ((g.memberSlots.erase guid).find? k).map _
  rw [KeyedList.find?_filter, KeyedList.find?_erase, Option.filter_filter]
  by_cases hk : k = guid
  · rw [if_pos hk, Option.map_none, Option.filter_eq_none_iff]
    intro r hr
    have hkey := ((w.groupMember.find?_eq_some_iff _ _).mp hr).2
    rw [hk] at hkey
    by_cases hguid : r.guid = g.guid <;> simp [hkey, hguid, Group.eraseSlot]
  · rw [if_neg hk]
    refine Eq.trans ?_ (h k)
    cases hr : w.groupMember.find? k with
    | none => rfl
    | some r =>
      have hkey := ((w.groupMember.find?_eq_some_iff _ _).mp hr).2
      by_cases hguid : r.guid = g.guid <;> simp [Option.filter, hkey, hk, hguid, Group.eraseSlot]

theorem unique_eraseSlot (h : g.Unique) (guid : ℕ) : (g.eraseSlot guid).Unique := by
  intro flag hrole m hm m' hm'
  exact h flag hrole m ((g.memberSlots.mem_erase guid m).mp hm).1 m' ((g.memberSlots.mem_erase guid m').mp hm').1

/-! ### Steps and runs -/

def Agrees (w : World) : Prop := ∀ g ∈ w.group, g.Agrees w.groupMember

def Unique (w : World) : Prop := ∀ g ∈ w.group, g.Unique

def assigned (assignment : UInt8) : Option UInt8 :=
  if assignment = GROUP_ASSIGN_MAINASSIST then some MEMBER_FLAG_MAINASSIST
  else if assignment = GROUP_ASSIGN_MAINTANK then some MEMBER_FLAG_MAINTANK
  else none

theorem assigned_role {assignment flag : UInt8} (h : assigned assignment = some flag) :
    flag = MEMBER_FLAG_MAINTANK ∨ flag = MEMBER_FLAG_MAINASSIST := by
  unfold assigned at h
  split at h
  · exact .inr (Option.some.inj h).symm
  · split at h
    · exact .inl (Option.some.inj h).symm
    · cases h

theorem handlePartyAssignment_eq (sender : ℕ) (assignment : UInt8) (apply : Bool) (guid : ℕ) :
    w.handlePartyAssignment g sender assignment apply guid =
      if g.isLeader sender = false ∧ g.isAssistant sender = false then w
      else (assigned assignment).elim w fun flag =>
        w.setGroupMemberFlag (g.removeUniqueGroupMemberFlag flag) guid apply flag := by
  rw [handlePartyAssignment, assigned]
  split_ifs <;> rfl

def WritesAll (w : World) : Event → Prop
  | .partyAssignment sender assignment _ guid => ∀ g ∈ w.group,
    ¬ (g.isLeader sender = false ∧ g.isAssistant sender = false) → ∀ flag ∈ assigned assignment,
      ∀ m ∈ g.memberSlots, m.guid ≠ guid → m.has flag = false
  | .changeLeader guid online => ∀ g ∈ w.group, online guid = true →
    ∀ m ∈ g.memberSlots.find? guid, m.has MEMBER_FLAG_ASSISTANT = false
  | .removeMember guid r => ∀ g ∈ w.group, (g.isLFGGroup && r.kick) = false →
    (if g.isLFGGroup then 1 else 2) < g.getMembersCount → (g.eraseSlot guid).endsAfter r = false →
      ∀ m ∈ (g.eraseSlot guid).newLeader guid r.online, m.has MEMBER_FLAG_ASSISTANT = false
  | _ => True

theorem agrees_some {g' : Group} {t : World} (h : t.group = some g') : t.Agrees ↔ g'.Agrees t.groupMember := by
  simp [Agrees, h]

theorem unique_some {g' : Group} {t : World} (h : t.group = some g') : t.Unique ↔ g'.Unique := by
  simp [Unique, h]

theorem step_partyAssignment (hw : w.group = some g) (h : g.Agrees w.groupMember) (hu : g.Unique)
    (sender : ℕ) (assignment : UInt8) (apply : Bool) (guid : ℕ) :
    ((w.handlePartyAssignment g sender assignment apply guid).Agrees ↔
        w.WritesAll (.partyAssignment sender assignment apply guid)) ∧
      (w.handlePartyAssignment g sender assignment apply guid).Unique := by
  have hall : w.WritesAll (.partyAssignment sender assignment apply guid) ↔
      (¬ (g.isLeader sender = false ∧ g.isAssistant sender = false) → ∀ flag ∈ assigned assignment,
        ∀ m ∈ g.memberSlots, m.guid ≠ guid → m.has flag = false) := by
    simp [WritesAll, hw]
  rw [handlePartyAssignment_eq, hall]
  by_cases hmay : g.isLeader sender = false ∧ g.isAssistant sender = false
  · rw [if_pos hmay]
    exact ⟨⟨fun _ hno => absurd hmay hno, fun _ => (agrees_some hw).mpr h⟩, (unique_some hw).mpr hu⟩
  · rw [if_neg hmay]
    cases hflag : assigned assignment with
    | none =>
      refine ⟨⟨fun _ _ flag hnone => ?_, fun _ => (agrees_some hw).mpr h⟩, (unique_some hw).mpr hu⟩
      cases hnone
    | some flag =>
      have hrole := assigned_role hflag
      obtain ⟨g', hg', hagrees, hfind⟩ := agrees_setUnique_iff h guid apply hrole
      refine ⟨?_, (unique_some hg').mpr (hu.of_find hfind fun flag' hrole' => ?_)⟩
      · rw [Option.elim_some, agrees_some hg', hagrees]
        constructor
        · intro hnone _ flag' hflag'
          rw [← Option.some.inj hflag']
          exact hnone
        · intro hnone
          exact hnone hmay flag rfl
      · by_cases hsame : flag' = flag
        · -- the role in question is left with its new holder at most
          left
          refine ⟨guid, fun k m hhas => ?_⟩
          by_contra hne
          rw [if_neg hne, hsame, MemberSlot.has_toggle_false] at hhas
          cases hhas
        · right
          have hdisjoint : flag &&& flag' = 0 := by
            rcases hrole with rfl | rfl <;> rcases hrole' with rfl | rfl
            · exact absurd rfl hsame
            · rfl
            · rfl
            · exact absurd rfl hsame
          intro k m hhas
          split at hhas
          · rwa [MemberSlot.has_toggle_of_disjoint hdisjoint, MemberSlot.has_toggle_of_disjoint hdisjoint] at hhas
          · rwa [MemberSlot.has_toggle_of_disjoint hdisjoint] at hhas

theorem assistant_disjoint {flag : UInt8} (h : flag = MEMBER_FLAG_MAINTANK ∨ flag = MEMBER_FLAG_MAINASSIST) :
    MEMBER_FLAG_ASSISTANT &&& flag = 0 := by
  rcases h with rfl | rfl <;> rfl

theorem unique_changeLeader (hu : g.Unique) (h : g.Agrees w.groupMember) (guid : ℕ) (online : ℕ → Bool) :
    (w.changeLeader g guid online).Unique := by
  obtain ⟨g', hg', -, apply, hfind⟩ := agrees_changeLeader_iff h guid online
  refine (unique_some hg').mpr (hu.of_find hfind fun flag hrole => .inr fun k m hhas => ?_)
  split at hhas
  · rwa [MemberSlot.has_toggle_of_disjoint (assistant_disjoint hrole)] at hhas
  · exact hhas

theorem agrees_pickLeader_iff (h : g.Agrees w.groupMember) (hu : g.Unique) (guid : ℕ) (online : ℕ → Bool) :
    ((w.pickLeader g guid online).Agrees ↔
        ∀ m ∈ g.newLeader guid online, m.has MEMBER_FLAG_ASSISTANT = false) ∧
      (w.pickLeader g guid online).Unique := by
  rw [pickLeader]
  cases hnew : g.newLeader guid online with
  | none =>
    refine ⟨⟨fun _ m hm => ?_, fun _ => (agrees_some rfl).mpr h⟩, (unique_some rfl).mpr hu⟩
    cases hm
  | some m =>
    have hfound : g.memberSlots.rows.find? (fun m => online m.guid) = some m := by
      rw [Group.newLeader] at hnew
      split at hnew
      · exact hnew
      · cases hnew
    have honline : online m.guid = true := by simpa using List.find?_some hfound
    have hmem : g.memberSlots.find? m.guid = some m :=
      Group.mem_iff_find?.mp (List.mem_of_find?_eq_some hfound)
    obtain ⟨g', hg', hagrees, -⟩ := agrees_changeLeader_iff h m.guid online
    refine ⟨?_, unique_changeLeader hu h m.guid online⟩
    dsimp only
    rw [agrees_some hg', hagrees, hmem]
    simp [honline]

theorem step_removeMember (hw : w.group = some g) (h : g.Agrees w.groupMember) (hu : g.Unique)
    (guid : ℕ) (r : Removal) :
    ((w.removeMember g guid r).Agrees ↔ w.WritesAll (.removeMember guid r)) ∧
      (w.removeMember g guid r).Unique := by
  have hall : w.WritesAll (.removeMember guid r) ↔ ((g.isLFGGroup && r.kick) = false →
      (if g.isLFGGroup then 1 else 2) < g.getMembersCount → (g.eraseSlot guid).endsAfter r = false →
        ∀ m ∈ (g.eraseSlot guid).newLeader guid r.online, m.has MEMBER_FLAG_ASSISTANT = false) := by
    simp [WritesAll, hw]
  have hgone : ∀ v : World, ∀ g' : Group, (v.disband g').Agrees ∧ (v.disband g').Unique := by
    intro v g'
    refine ⟨fun _ hnone => ?_, fun _ hnone => ?_⟩ <;> cases hnone
  rw [removeMember, hall]
  by_cases hkick : (g.isLFGGroup && r.kick) = true
  · rw [if_pos hkick]
    refine ⟨⟨fun _ hno => ?_, fun _ => (agrees_some hw).mpr h⟩, (unique_some hw).mpr hu⟩
    rw [hkick] at hno
    cases hno
  · rw [if_neg hkick]
    by_cases hmany : (if g.isLFGGroup then 1 else 2) < g.getMembersCount
    · rw [if_pos hmany]
      dsimp only
      by_cases hends : (g.eraseSlot guid).endsAfter r = true
      · rw [if_pos hends]
        refine ⟨⟨fun _ _ _ hno => ?_, fun _ => (hgone _ _).1⟩, (hgone _ _).2⟩
        rw [hends] at hno
        cases hno
      · rw [if_neg hends]
        obtain ⟨hagrees, hunique⟩ := agrees_pickLeader_iff
          (w := { w with groupMember := delMember w.groupMember guid g.guid }) (agrees_eraseSlot h guid)
          (unique_eraseSlot hu guid) guid r.online
        rw [hagrees]
        simp only [Bool.not_eq_true] at hkick hends
        exact ⟨⟨fun hnone _ _ _ => hnone, fun hnone => hnone hkick hmany hends⟩, hunique⟩
    · rw [if_neg hmany]
      exact ⟨⟨fun _ _ hyes => absurd hyes hmany, fun _ => (hgone _ _).1⟩, (hgone _ _).2⟩

theorem step_spec {t : World} {e : Event} (h : w.Agrees) (hu : w.Unique) (hs : step w e = some t) :
    (t.Agrees ↔ w.WritesAll e) ∧ t.Unique := by
  obtain ⟨g, hw, hs⟩ := Option.bind_eq_some_iff.mp hs
  have hg := h g hw
  have hug := hu g hw
  cases e with
  | partyAssignment sender assignment apply guid =>
    obtain rfl := Option.some.inj hs
    exact step_partyAssignment hw hg hug sender assignment apply guid
  | assistantLeader sender guid apply =>
    obtain rfl := Option.some.inj hs
    rw [handleGroupAssistantLeader]
    by_cases hleader : g.isLeader sender = true
    · rw [if_pos hleader]
      obtain ⟨g', hg', hagrees, hfind⟩ := agrees_setAssistant hg guid apply
      refine ⟨⟨fun _ => trivial, fun _ => (agrees_some hg').mpr hagrees⟩, (unique_some hg').mpr ?_⟩
      refine hug.of_find hfind fun flag hrole => .inr fun k m hhas => ?_
      split at hhas
      · rwa [MemberSlot.has_toggle_of_disjoint (assistant_disjoint hrole)] at hhas
      · exact hhas
    · rw [if_neg hleader]
      exact ⟨⟨fun _ => trivial, fun _ => h⟩, hu⟩
  | changeLeader guid online =>
    obtain rfl := Option.some.inj hs
    obtain ⟨g', hg', hagrees, -⟩ := agrees_changeLeader_iff hg guid online
    refine ⟨?_, unique_changeLeader hug hg guid online⟩
    rw [agrees_some hg', hagrees]
    simp [WritesAll, hw]
  | changeMembersGroup guid group =>
    obtain rfl := Option.some.inj hs
    obtain ⟨g', hg', hagrees, φ, hflags, hfind⟩ := agrees_changeMembersGroup hw hg guid group
    refine ⟨⟨fun _ => trivial, fun _ => (agrees_some hg').mpr hagrees⟩, (unique_some hg').mpr ?_⟩
    refine hug.of_find hfind fun flag _ => .inr fun k m hhas => ?_
    rwa [MemberSlot.has, hflags] at hhas
  | addMember guid =>
    obtain ⟨-, rfl⟩ := guarded_eq_some.mp hs
    obtain ⟨g', hg', hagrees, hunique⟩ := agrees_addMember hw hg hug guid
    exact ⟨⟨fun _ => trivial, fun _ => (agrees_some hg').mpr hagrees⟩, (unique_some hg').mpr hunique⟩
  | removeMember guid r =>
    obtain rfl := Option.some.inj hs
    exact step_removeMember hw hg hug guid r

/-! ### Loading -/

def Row.slot (r : Row) : MemberSlot := ⟨r.memberGuid, r.subgroup, r.memberFlags, r.roles⟩

theorem perm_slots {rows : KeyedList Row.memberGuid} (h : g.Agrees rows) :
    ((rows.filter fun r => r.guid = g.guid).rows.map Row.slot).Perm g.memberSlots.rows := by
  have hrow : ∀ {r}, r ∈ rows.filter (fun r => r.guid = g.guid) ↔ ∃ m ∈ g.memberSlots, m.row g.guid = r := by
    intro r
    have hfind : r ∈ rows.filter (fun r => r.guid = g.guid) ↔
        ((g.memberSlots.find? r.memberGuid).map (MemberSlot.row g.guid)) = some r := by
      rw [← h, ← KeyedList.find?_filter, KeyedList.find?_eq_some_iff]
      exact ⟨fun hr => ⟨hr, rfl⟩, And.left⟩
    rw [hfind, Option.map_eq_some_iff]
    constructor
    · rintro ⟨m, hm, rfl⟩
      exact ⟨m, ((g.memberSlots.find?_eq_some_iff _ _).mp hm).1, rfl⟩
    · rintro ⟨m, hm, rfl⟩
      exact ⟨m, Group.mem_iff_find?.mp hm, rfl⟩
  have hslots : ((rows.filter fun r => r.guid = g.guid).rows.map Row.slot).Nodup := by
    refine List.Nodup.of_map MemberSlot.guid ?_
    rw [List.map_map]
    exact (rows.filter fun r => r.guid = g.guid).distinct
  refine (List.perm_ext_iff_of_nodup hslots g.memberSlots.nodup).mpr fun m => ?_
  rw [List.mem_map]
  constructor
  · rintro ⟨r, hr, rfl⟩
    obtain ⟨m, hm, rfl⟩ := hrow.mp hr
    exact hm
  · intro hm
    exact ⟨m.row g.guid, hrow.mpr ⟨m, hm, rfl⟩, rfl⟩

theorem loadMembers_eq {known : ℕ → Bool} {guid : ℕ} {result : List Row}
    (hknown : ∀ r ∈ result, r.guid = guid → known r.memberGuid = true) (slots : List MemberSlot)
    (rows : KeyedList Row.memberGuid) :
    result.foldl (loadMemberFromDB known guid) (slots, rows) =
      (slots ++ (result.filter fun r => r.guid = guid).map Row.slot, rows) := by
  induction result generalizing slots with
  | nil => simp
  | cons r result ih =>
    have hrest := fun slots => ih (fun x hx => hknown x (List.mem_cons_of_mem _ hx)) slots
    rw [List.foldl_cons, loadMemberFromDB]
    by_cases hguid : r.guid = guid
    · rw [if_neg (not_not.mpr hguid), if_pos (hknown r (List.mem_cons_self ..) hguid), hrest,
        List.filter_cons_of_pos (by simpa using hguid), List.map_cons, List.append_assoc]
      rfl
    · rw [if_pos hguid, hrest, List.filter_cons_of_neg (by simpa using hguid)]

/-- Whatever the order in which the query gives the rows, they are loaded as the slots in memory. -/
def Rebuilds (w : World) : Prop :=
  ∀ g ∈ w.group, ∀ (known : ℕ → Bool) (result : List Row), (∀ m ∈ g.memberSlots, known m.guid = true) →
    result.Perm w.groupMember.rows →
      (result.foldl (loadMemberFromDB known g.guid) ([], w.groupMember)).1.Perm g.memberSlots.rows

theorem Agrees.rebuilds (h : w.Agrees) : w.Rebuilds := by
  intro g hg known result hknown hresult
  have hperm := perm_slots (h g hg)
  have hall : ∀ r ∈ result, r.guid = g.guid → known r.memberGuid = true := by
    intro r hr hguid
    have hmem : r ∈ w.groupMember.filter fun r => r.guid = g.guid :=
      (KeyedList.mem_filter ..).mpr ⟨hresult.mem_iff.mp hr, by simpa using hguid⟩
    exact hknown _ (hperm.mem_iff.mp (List.mem_map_of_mem (f := Row.slot) hmem))
  rw [loadMembers_eq hall, List.nil_append]
  exact ((hresult.filter _).map Row.slot).trans hperm

def Started (w : World) : Prop := w.Agrees ∧ w.Unique

section Samples

def firstGroup : Fin 8 := ⟨0, Nat.zero_lt_succ 7⟩

def sampleSlots : KeyedList MemberSlot.guid :=
  ⟨[⟨1, firstGroup, 0, 0⟩, ⟨2, firstGroup, 0, 0⟩, ⟨3, firstGroup, 0, 0⟩], by decide⟩

def sampleRaid : World :=
  ⟨some ⟨7, 1, false, sampleSlots, fun s => if s = firstGroup then 3 else 0⟩,
    ⟨[⟨7, 1, 0, firstGroup, 0⟩, ⟨7, 2, 0, firstGroup, 0⟩, ⟨7, 3, 0, firstGroup, 0⟩], by decide⟩⟩

theorem sampleRaid_started : Started sampleRaid := by
  have hflags : ∀ m ∈ sampleSlots.rows, m.flags = 0 := by decide
  refine ⟨(agrees_some rfl).mpr fun k => ?_, (unique_some rfl).mpr fun flag _ m hm _ _ hhas => ?_⟩
  · by_cases h : k = 1 ∨ k = 2 ∨ k = 3
    · rcases h with rfl | rfl | rfl <;> rfl
    · simp only [not_or] at h
      simp [sampleRaid, sampleSlots, KeyedList.find?, Ne.symm h.1, Ne.symm h.2.1, Ne.symm h.2.2]
  · rw [MemberSlot.has_eq_false.mpr (by rw [hflags m hm, UInt8.zero_and])] at hhas
    cases hhas

instance (w : World) : ∀ e, Decidable (w.WritesAll e)
  | .partyAssignment sender assignment _ guid => inferInstanceAs (Decidable (∀ g ∈ w.group,
      ¬ (g.isLeader sender = false ∧ g.isAssistant sender = false) → ∀ flag ∈ assigned assignment,
        ∀ m ∈ g.memberSlots.rows, m.guid ≠ guid → m.has flag = false))
  | .changeLeader .. | .removeMember .. => inferInstanceAs (Decidable (∀ g ∈ w.group, _))
  | .assistantLeader .. | .changeMembersGroup .. | .addMember .. => isTrue trivial

def rowDiffers (guid : ℕ) (w : World) : Bool :=
  w.group.any fun g => decide ((w.groupMember.find? guid).filter (fun r => r.guid = g.guid) ≠
    (g.memberSlots.find? guid).map (MemberSlot.row g.guid))

end Samples

end World

end HysteriaCore.Groups.Raid
