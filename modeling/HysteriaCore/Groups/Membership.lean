import HysteriaCore.Groups.Integrity
import Mathlib.Algebra.BigOperators.Group.List.Basic

/-!
# Members who come and go

The operations that move players in and out of a group, each with what it needs,
and from them the handlers. The theorem is about every state that a run reaches.
-/

namespace HysteriaCore.Groups
open Lib

namespace World
variable {w : World} {but : Option ℕ} {a guid : ℕ}

variable {g : Group}

theorem find?_mem (h : w.groups.find? a = some g) : g ∈ w.groups ∧ g.address = a :=
  (w.groups.find?_eq_some_iff a g).mp h

theorem eq_of_find? {g x : Group} (h : w.groups.find? a = some g) (hx : x ∈ w.groups)
    (hxa : x.address = a) : x = g :=
  w.groups.eq_of_key_eq hx (find?_mem h).1 (hxa.trans (find?_mem h).2.symm)

theorem find?_updGroup (w : World) (a : ℕ) (f : Group → Group) (hf : ∀ g, (f g).address = g.address) :
    (w.updGroup a f hf).groups.find? a = (w.groups.find? a).map f := by
  show (w.groups.adjust a f hf).find? a = _
  rw [KeyedList.find?_adjust]
  simp

theorem online_of_mem {p : Player} (h : p ∈ w.players) : w.online p.guid = true := by
  unfold online
  rw [(w.players.find?_eq_some_iff p.guid p).mpr ⟨h, rfl⟩]
  rfl

theorem online_updPlayer (w : World) (guid : ℕ) (f : Player → Player) (hf : ∀ p, (f p).guid = p.guid)
    (x : ℕ) : (w.updPlayer guid f hf).online x = w.online x := by
  show ((w.players.adjust guid f hf).find? x).isSome = _
  rw [KeyedList.find?_adjust, Option.isSome_map]
  rfl

theorem exists_of_online (h : w.online guid = true) : ∃ p, w.players.find? guid = some p :=
  Option.isSome_iff_exists.mp h

/-! ### A new member -/

theorem addMember_eq {p : Player} {s : Fin 8} (hg : w.groups.find? a = some g)
    (hp : w.players.find? guid = some p) (hs : g.subGroupForNew = some s) :
    w.addMember a guid =
      (w.updGroup a (fun g => g.pushSlot guid p.name s) fun g => g.pushSlot_address guid p.name s).updPlayer
        guid (fun p => p.link a) fun p => p.link_guid a := by
  simp [addMember, hg, hp, hs]

theorem Sound.addMember (h : w.Sound but)
    (hroom : ∀ g ∈ w.groups, g.address = a → g.created = true ∧ g.isFull = false) :
    (w.addMember a guid).Sound but := by
  cases hg : w.groups.find? a with
  | none => simpa [World.addMember, hg] using h
  | some g =>
    cases hp : w.players.find? guid with
    | none => simpa [World.addMember, hg, hp] using h
    | some p =>
      cases hs : g.subGroupForNew with
      | none => simpa [World.addMember, hg, hp, hs] using h
      | some s =>
        rw [addMember_eq hg hp hs]
        obtain ⟨hmem, haddr⟩ := find?_mem hg
        obtain ⟨hcreated, hfull⟩ := hroom g hmem haddr
        subst haddr
        have hcount := g.pushSlot_slotCount guid p.name s
        refine h.updBoth hmem _ _ ((h.counted g hmem).pushSlot hcreated hfull hs guid p.name)
          (fun hc hne => ?_) (fun _ _ hne => hne) (fun x _ => ?_) (fun q hq => ?_)
          fun q _ hne => q.link_links_other hne
        · have hled := h.led g hmem hc hne
          show 0 < slotCount (g.pushSlot guid p.name s).memberSlots g.leaderGuid
          unfold Group.Led at hled
          rw [hcount]
          omega
        · rw [hcount]
          omega
        · have hlink := q.link_links_self g.address
          rw [hcount, if_pos rfl]
          omega

theorem find?_create {p : Player} (h : w.Sound but) (hg : w.groups.find? a = some g)
    (hforming : g.created = false) (hp : w.players.find? guid = some p) :
    (w.create a guid).groups.find? a =
      some (({ g with created := true, leaderGuid := guid } : Group).pushSlot guid p.name 0) := by
  obtain ⟨hmem, -⟩ := find?_mem hg
  have hraid := ((h.counted g hmem).forming hforming).2
  have hnone := ((h.counted g hmem).party hraid).1
  have hset := w.find?_updGroup a (fun g => { g with created := true, leaderGuid := guid }) fun _ => rfl
  rw [hg] at hset
  have hpush := find?_updGroup (w.updGroup a (fun g => { g with created := true, leaderGuid := guid })
    fun _ => rfl) a (fun g => g.pushSlot guid p.name 0) fun g => g.pushSlot_address guid p.name 0
  rw [hset] at hpush
  unfold create
  rw [addMember_eq hset hp (s := 0) (by unfold Group.subGroupForNew; rw [hnone])]
  exact hpush

theorem Sound.create (h : w.Sound none) (hg : w.groups.find? a = some g)
    (hforming : g.created = false) (hon : w.online guid = true) : (w.create a guid).Sound none := by
  obtain ⟨p, hp⟩ := exists_of_online hon
  obtain ⟨hmem, -⟩ := find?_mem hg
  obtain ⟨hnil, hraid⟩ := (h.counted g hmem).forming hforming
  have hset := w.find?_updGroup a (fun g => { g with created := true, leaderGuid := guid }) fun _ => rfl
  rw [hg] at hset
  have hready : (w.updGroup a (fun g => { g with created := true, leaderGuid := guid }) fun _ => rfl).Sound
      (some a) := by
    refine (h.weaken a).updGroup (f := fun g => { g with created := true, leaderGuid := guid })
      (fun _ => rfl) (fun x hx hxa => ?_) (fun _ _ _ _ hne => absurd rfl hne) fun _ _ _ _ => le_rfl
    rw [eq_of_find? hg hx hxa]
    exact ⟨fun hc => Bool.noConfusion hc, (h.counted g hmem).party, (h.counted g hmem).raid⟩
  have hmade : (w.create a guid).Sound (some a) := by
    refine hready.addMember fun x hx hxa => ?_
    rw [eq_of_find? hset hx hxa]
    exact ⟨rfl, by simp [Group.isFull, Group.getMembersCount, hnil, hraid, maxGroupSize]⟩
  refine hmade.of_led fun x hx hxa _ => ?_
  rw [eq_of_find? (find?_create h hg hforming hp) hx hxa]
  show 0 < slotCount _ guid
  rw [Group.pushSlot_slotCount, if_pos rfl]
  omega

/-! ### A member who goes -/

theorem changeLeader_led (hs : w.Sound (some a)) (hg : w.groups.find? a = some g)
    {m : MemberSlot} (hm : m ∈ g.memberSlots) (hon : w.online m.guid = true) :
    (w.changeLeader a m.guid).Sound none := by
  have hismember : g.isMember m.guid = true := by
    unfold Group.isMember Group.getMemberSlot
    rw [List.find?_isSome]
    exact ⟨m, hm, by simp⟩
  unfold World.changeLeader
  rw [hg]
  dsimp only
  rw [if_pos ⟨hismember, hon⟩]
  have hkeep (x : Group) (guid : ℕ) :
      slotCount (Group.setSlot m.guid (fun m => { m with assistant := false }) x.memberSlots) guid =
        slotCount x.memberSlots guid :=
    Group.setSlot_slotCount (f := fun m => { m with assistant := false }) (fun _ => rfl) m.guid guid
      x.memberSlots
  have hs' := hs.updGroup (a := a)
    (f := fun g => { g with
      leaderGuid := m.guid
      memberSlots := Group.setSlot m.guid (fun m => { m with assistant := false }) g.memberSlots })
    (fun _ => rfl)
    (fun x hx _ => (hs.counted x hx).of_setSlot (fun m => { m with assistant := false }) (fun _ => rfl) m.guid)
    (fun _ _ _ _ hne => absurd rfl hne) fun x _ _ guid => (hkeep x guid).ge
  refine hs'.of_led fun x hx hxa _ => ?_
  have hfind := w.find?_updGroup a
    (fun g => { g with
      leaderGuid := m.guid
      memberSlots := Group.setSlot m.guid (fun m => { m with assistant := false }) g.memberSlots })
    fun _ => rfl
  rw [hg] at hfind
  rw [eq_of_find? hfind hx hxa]
  show 0 < slotCount (Group.setSlot m.guid (fun m => { m with assistant := false }) g.memberSlots) m.guid
  rw [hkeep]
  exact (slotCount_pos _ _).mpr ⟨m, hm, rfl⟩

def Deserted (w : World) (a : ℕ) : Prop :=
  ∀ g ∈ w.groups, g.address = a → ∀ m ∈ g.memberSlots, w.online m.guid = false

theorem dropMember_sound (h : w.Sound none) (hg : w.groups.find? a = some g) (guid : ℕ) :
    (w.dropMember a guid).Sound none ∨
      (w.dropMember a guid).Sound (some a) ∧ (w.dropMember a guid).Deserted a := by
  obtain ⟨hmem, haddr⟩ := find?_mem hg
  subst haddr
  have hcount := g.eraseSlot_slotCount guid
  set w' := (w.updPlayer guid (fun p => p.unlink g.address) fun p => p.unlink_guid g.address).updGroup
    g.address (fun g => g.eraseSlot guid) fun g => g.eraseSlot_address guid with hw'
  have hgone : w'.Sound (some g.address) := by
    refine h.updBoth hmem (f := fun g => g.eraseSlot guid) (k := fun p => p.unlink g.address)
      (fun g => g.eraseSlot_address guid) (fun p => p.unlink_guid g.address)
      ((h.counted g hmem).eraseSlot guid) (fun _ hne => absurd rfl hne) (fun _ _ _ => by simp)
      (fun x hx => ?_) (fun q hq => ?_) fun q x _ => q.unlink_links g.address x
    · rw [hcount, if_neg (Ne.symm hx)]
      omega
    · have hle := q.unlink_links_self g.address
      rw [hcount, if_pos rfl]
      omega
  have hg' : w'.groups.find? g.address = some (g.eraseSlot guid) := by
    rw [hw', find?_updGroup]
    show (w.groups.find? g.address).map _ = _
    rw [hg]
    rfl
  show (w'.pickLeader g.address guid).Sound none ∨
    (w'.pickLeader g.address guid).Sound (some g.address) ∧ (w'.pickLeader g.address guid).Deserted g.address
  unfold pickLeader
  rw [hg']
  dsimp only
  by_cases hleader : (g.eraseSlot guid).leaderGuid = guid
  · rw [if_pos hleader]
    cases hfind : (g.eraseSlot guid).memberSlots.find? fun m => w'.online m.guid with
    | none =>
      refine .inr ⟨hgone, fun x hx hxa m hm => ?_⟩
      rw [eq_of_find? hg' hx hxa] at hm
      have hoff := List.find?_eq_none.mp hfind m hm
      simpa using hoff
    | some m =>
      have hon : w'.online m.guid = true := by simpa using List.find?_some hfind
      exact .inl (changeLeader_led hgone hg' (List.mem_of_find?_eq_some hfind) hon)
  · rw [if_neg hleader]
    refine .inl (hgone.of_led fun x hx hxa hc => ?_)
    rw [eq_of_find? hg' hx hxa] at hc ⊢
    have hled := h.led g hmem (by rwa [g.eraseSlot_created guid] at hc) (by simp)
    unfold Group.Led at hled ⊢
    rw [g.eraseSlot_leaderGuid guid] at hleader ⊢
    rw [hcount, if_neg (Ne.symm hleader)]
    omega

theorem Sound.not_deserted (h : w.Sound but) (hsize : 0 < w.memberMgrSize a) : ¬ w.Deserted a := by
  intro hdeserted
  have hzero : w.memberMgrSize a = 0 := by
    apply List.sum_eq_zero
    intro n hn
    obtain ⟨p, hp, rfl⟩ := List.mem_map.mp hn
    by_contra hne
    obtain ⟨g, hg, haddr, hcount⟩ := h.linked p hp a (Nat.pos_of_ne_zero hne)
    obtain ⟨m, hm, hguid⟩ := (slotCount_pos _ _).mp (lt_of_lt_of_le (Nat.pos_of_ne_zero hne) hcount)
    have hoff := hdeserted g hg haddr m hm
    rw [hguid, online_of_mem hp] at hoff
    exact Bool.noConfusion hoff
  omega

theorem Sound.removeMember (h : w.Sound none) (a guid : ℕ) : (w.removeMember a guid).Sound none := by
  unfold World.removeMember
  cases hg : w.groups.find? a with
  | none => exact h
  | some g =>
    dsimp only
    split
    · rcases dropMember_sound h hg guid with hs | ⟨hs, hdeserted⟩
      · split
        · exact (hs.weaken a).disband
        · exact hs
      · split
        · exact hs.disband
        · exact absurd hdeserted (hs.not_deserted (by omega))
    · exact (h.weaken a).disband

theorem Sound.uninviteFromGroup (h : w.Sound none) (guid : ℕ) : (w.uninviteFromGroup guid).Sound none := by
  unfold World.uninviteFromGroup
  split
  · exact h
  · rename_i a hinvite
    have h' := h.removeInvite a guid
    dsimp only
    split
    · exact h'
    · split
      · split
        · exact (h'.weaken a).disband
        · exact ((h'.weaken a).removeAllInvites a).deleteGroup
      · exact h'

end World

end HysteriaCore.Groups
