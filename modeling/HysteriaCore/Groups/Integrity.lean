import HysteriaCore.Groups.Handlers
import HysteriaCore.Groups.Roster

/-!
# Rosters and links over whole runs

Between the slots of a group and the players stands one fact: nobody who is
online holds more links to a group than he has slots in it. It makes the leader
safe: when a leader goes and none of the remaining members is online, nothing
refers to the group any more, so that it is disbanded.
-/

namespace HysteriaCore.Groups
open Lib

namespace Player

theorem unlink_links (p : Player) (a a' : ℕ) : (p.unlink a).links a' ≤ p.links a' := by
  unfold unlink links
  by_cases h : p.originalGroup = some a
  · rw [if_pos h]
    simp
  · rw [if_neg h]
    simp

theorem unlink_links_self (p : Player) (a : ℕ) : (p.unlink a).links a ≤ p.links a - 1 := by
  unfold unlink links
  by_cases h : p.originalGroup = some a
  · simp [h]
  · simp [h]

theorem link_links_self (p : Player) (a : ℕ) : (p.link a).links a ≤ p.links a + 1 := by
  unfold link links
  cases hg : p.group with
  | none => simp; omega
  | some l => simp

theorem link_links_other (p : Player) {a a' : ℕ} (h : a' ≠ a) : (p.link a).links a' ≤ p.links a' := by
  unfold link links
  cases hg : p.group with
  | none => simp [Ne.symm h]
  | some l => simp [Ne.symm h]

theorem forget_links_self (p : Player) (a : ℕ) : (p.forget a).links a = 0 := by
  unfold forget links
  by_cases hg : p.group = some (.party a)
  · by_cases ho : p.originalGroup = some a <;> simp [hg, ho]
  · by_cases ho : p.originalGroup = some a <;> simp [hg, ho]

theorem forget_links (p : Player) (a a' : ℕ) : (p.forget a).links a' ≤ p.links a' := by
  unfold forget links
  dsimp only
  have h1 : (if (if p.group = some (.party a) then none else p.group) = some (.party a') then 1 else 0) ≤
      if p.group = some (.party a') then 1 else 0 := by
    by_cases hg : p.group = some (.party a)
    · simp [hg]
    · rw [if_neg hg]
  have h2 : (if (if p.originalGroup = some a then none else p.originalGroup) = some a' then 1 else 0) ≤
      if p.originalGroup = some a' then 1 else 0 := by
    by_cases ho : p.originalGroup = some a
    · simp [ho]
    · rw [if_neg ho]
  omega

end Player

/-- Every roster counts, every created group but one that is being changed is
led, and the links of the players are covered by slots. -/
structure World.Sound (w : World) (but : Option ℕ) : Prop where
  counted : ∀ g ∈ w.groups, g.Counted
  led : ∀ g ∈ w.groups, g.created = true → some g.address ≠ but → g.Led
  linked : ∀ p ∈ w.players, ∀ a, 0 < p.links a →
    ∃ g ∈ w.groups, g.address = a ∧ p.links a ≤ slotCount g.memberSlots p.guid

namespace World
variable {w : World} {but : Option ℕ} {a guid : ℕ}

variable {f : Group → Group}

theorem mem_updGroup {h : ∀ g, (f g).address = g.address} {g' : Group} :
    g' ∈ (w.updGroup a f h).groups ↔ ∃ g ∈ w.groups, (if g.address = a then f g else g) = g' :=
  w.groups.mem_adjust a f h g'

theorem mem_updPlayer {f : Player → Player} {hf : ∀ p, (f p).guid = p.guid} {p' : Player} :
    p' ∈ (w.updPlayer guid f hf).players ↔ ∃ p ∈ w.players, (if p.guid = guid then f p else p) = p' :=
  w.players.mem_adjust guid f hf p'

theorem Sound.empty : World.empty.Sound none where
  counted _ hg := absurd hg (by simp [World.empty, KeyedList.mem_rows, KeyedList.empty])
  led _ hg := absurd hg (by simp [World.empty, KeyedList.mem_rows, KeyedList.empty])
  linked _ hp := absurd hp (by simp [World.empty, KeyedList.mem_rows, KeyedList.empty])

theorem Sound.weaken (h : w.Sound none) (a : ℕ) : w.Sound (some a) :=
  ⟨h.counted, fun g hg hc _ => h.led g hg hc (by simp), h.linked⟩

theorem Sound.of_led (h : w.Sound (some a))
    (hled : ∀ g ∈ w.groups, g.address = a → g.created = true → g.Led) : w.Sound none := by
  refine ⟨h.counted, fun g hg hc _ => ?_, h.linked⟩
  by_cases ha : g.address = a
  · exact hled g hg ha hc
  · exact h.led g hg hc (by simp [ha])

theorem Sound.mark (h : w.Sound but) (intact : Bool) : Sound { w with intact := intact } but :=
  ⟨h.counted, h.led, h.linked⟩

/-! ### Changes that touch players only -/

theorem Sound.players (h : w.Sound but) (t : KeyedList Player.guid)
    (ht : ∀ p' ∈ t, ∃ p ∈ w.players, p'.guid = p.guid ∧ ∀ a, p'.links a ≤ p.links a) :
    ({ w with players := t } : World).Sound but := by
  refine ⟨h.counted, h.led, fun p' hp' a hpos => ?_⟩
  obtain ⟨p, hp, hguid, hle⟩ := ht p' hp'
  have hle' := hle a
  obtain ⟨g, hg, haddr, hcount⟩ := h.linked p hp a (by omega)
  exact ⟨g, hg, haddr, by rw [hguid]; omega⟩

theorem Sound.updPlayer (h : w.Sound but) {f : Player → Player} (hf : ∀ p, (f p).guid = p.guid)
    (hle : ∀ p a, (f p).links a ≤ p.links a) : (w.updPlayer guid f hf).Sound but := by
  apply h.players
  intro p' hp'
  obtain ⟨p, hp, rfl⟩ := (w.players.mem_adjust guid f hf p').mp hp'
  refine ⟨p, hp, ?_, fun a => ?_⟩
  · split
    · exact hf p
    · rfl
  · split
    · exact hle p a
    · exact le_rfl

/-! ### Changes of one group -/

theorem Sound.updGroup (h : w.Sound but) (hf : ∀ g, (f g).address = g.address)
    (hcounted : ∀ g ∈ w.groups, g.address = a → (f g).Counted)
    (hled : ∀ g ∈ w.groups, g.address = a → (f g).created = true → some a ≠ but → (f g).Led)
    (hslots : ∀ g ∈ w.groups, g.address = a → ∀ guid,
      slotCount g.memberSlots guid ≤ slotCount (f g).memberSlots guid) :
    (w.updGroup a f hf).Sound but := by
  constructor
  · intro g' hg'
    obtain ⟨g, hg, rfl⟩ := mem_updGroup.mp hg'
    split
    · exact hcounted g hg ‹_›
    · exact h.counted g hg
  · intro g' hg'
    obtain ⟨g, hg, rfl⟩ := mem_updGroup.mp hg'
    split
    · rename_i haddr
      intro hc hne
      rw [hf, haddr] at hne
      exact hled g hg haddr hc hne
    · exact h.led g hg
  · intro p hp a' hpos
    obtain ⟨g, hg, haddr, hcount⟩ := h.linked p hp a' hpos
    refine ⟨_, mem_updGroup.mpr ⟨g, hg, rfl⟩, ?_, ?_⟩
    · split
      · rw [hf, haddr]
      · exact haddr
    · split
      · exact hcount.trans (hslots g hg ‹_› p.guid)
      · exact hcount

theorem Sound.setInvitees (h : w.Sound but) (a : ℕ) (who : Group → List ℕ) :
    (w.updGroup a (fun g => { g with invitees := who g }) fun _ => rfl).Sound but :=
  h.updGroup (f := fun g => { g with invitees := who g }) (fun _ => rfl)
    (fun g hg _ => ⟨(h.counted g hg).forming, (h.counted g hg).party, (h.counted g hg).raid⟩)
    (fun g hg haddr hc hne => h.led g hg hc (haddr ▸ hne)) fun _ _ _ _ => le_rfl

theorem Sound.updBoth {but' : Option ℕ} {g : Group} (h : w.Sound but) (hg : g ∈ w.groups)
    (hf : ∀ g, (f g).address = g.address)
    {k : Player → Player} (hk : ∀ p, (k p).guid = p.guid)
    (hcounted : (f g).Counted)
    (hled : (f g).created = true → some g.address ≠ but' → (f g).Led)
    (hbut : ∀ x, x ≠ g.address → some x ≠ but' → some x ≠ but)
    (hothers : ∀ x, x ≠ guid → slotCount g.memberSlots x ≤ slotCount (f g).memberSlots x)
    (hself : ∀ p : Player, p.links g.address ≤ slotCount g.memberSlots guid →
      (k p).links g.address ≤ slotCount (f g).memberSlots guid)
    (helse : ∀ p a', a' ≠ g.address → (k p).links a' ≤ p.links a') :
    ((w.updGroup g.address f hf).updPlayer guid k hk).Sound but' := by
  have hunique : ∀ g' ∈ w.groups, g'.address = g.address → g' = g := fun g' hg' haddr =>
    w.groups.eq_of_key_eq hg' hg haddr
  have hcover : ∀ p ∈ w.players, p.links g.address ≤ slotCount g.memberSlots p.guid := by
    intro p hp
    by_cases hpos : 0 < p.links g.address
    · obtain ⟨g', hg', haddr, hcount⟩ := h.linked p hp g.address hpos
      rwa [hunique g' hg' haddr] at hcount
    · omega
  have hnewg : f g ∈ (w.updGroup g.address f hf).groups := w.groups.adjust_mem hg f hf
  constructor
  · intro g' (hg' : g' ∈ (w.updGroup g.address f hf).groups)
    obtain ⟨x, hx, rfl⟩ := mem_updGroup.mp hg'
    split
    · rw [hunique x hx ‹_›]
      exact hcounted
    · exact h.counted x hx
  · intro g' (hg' : g' ∈ (w.updGroup g.address f hf).groups)
    obtain ⟨x, hx, rfl⟩ := mem_updGroup.mp hg'
    split
    · rw [hunique x hx ‹_›, hf]
      exact hled
    · rename_i hne
      exact fun hc hb => h.led x hx hc (hbut _ hne hb)
  · intro p' hp' a' hpos
    obtain ⟨p, hp, rfl⟩ := mem_updPlayer.mp hp'
    by_cases ha : a' = g.address
    · subst ha
      refine ⟨f g, hnewg, hf g, ?_⟩
      have hp1 := hcover p hp
      split
      · rename_i hguid
        rw [hk, hguid]
        exact hself p (hguid ▸ hp1)
      · rename_i hguid
        exact hp1.trans (hothers p.guid hguid)
    · have hle : (if p.guid = guid then k p else p).links a' ≤ p.links a' := by
        split
        · exact helse p a' ha
        · exact le_rfl
      obtain ⟨x, hx, haddr, hcount⟩ := h.linked p hp a' (by omega)
      have hx' : x ∈ (w.updGroup g.address f hf).groups := mem_updGroup.mpr ⟨x, hx, if_neg (haddr ▸ ha)⟩
      refine ⟨x, hx', haddr, ?_⟩
      have hguid : (if p.guid = guid then k p else p).guid = p.guid := by
        split
        · exact hk p
        · rfl
      rw [hguid]
      omega

/-! ### Invitations -/

theorem Sound.removeInvite (h : w.Sound but) (a guid : ℕ) : (w.removeInvite a guid).Sound but := by
  unfold World.removeInvite
  split
  · exact h
  · rename_i p hfind
    exact (h.setInvitees a fun g => g.invitees.filter fun o => decide (o ≠ p.object)).updPlayer
      (f := fun p => { p with groupInvite := none }) (fun _ => rfl) fun _ _ => le_rfl

theorem Sound.removeAllInvites (h : w.Sound but) (a : ℕ) : (w.removeAllInvites a).Sound but := by
  unfold World.removeAllInvites
  split
  · exact h
  · rename_i g hfind
    refine (Sound.players (h.setInvitees a fun _ => []) _ fun p' hp' => ?_).mark _
    obtain ⟨p, hp, rfl⟩ := List.mem_map.mp hp'
    refine ⟨p, hp, ?_, fun x => ?_⟩
    · split <;> rfl
    · split <;> exact le_rfl

theorem Sound.addInvite {w' : World} (h : w.Sound but) (hw' : w.addInvite a guid = some w') :
    w'.Sound but := by
  unfold World.addInvite at hw'
  split at hw'
  · exact absurd hw' (by simp)
  · rename_i p hfind
    split at hw'
    · exact absurd hw' (by simp)
    · rw [← Option.some.inj hw']
      exact (h.setInvitees a fun g => g.invitees ++ [p.object]).updPlayer
        (f := fun p => { p with groupInvite := some a }) (fun _ => rfl) fun _ _ => le_rfl

/-! ### The end of a group -/

theorem Sound.deleteGroup (h : w.Sound (some a)) : (w.deleteGroup a).Sound none := by
  have hkeep : ∀ g ∈ w.groups, g.address ≠ a → g ∈ (w.deleteGroup a).groups := fun g hg hne =>
    (w.groups.mem_erase a g).mpr ⟨hg, hne⟩
  constructor
  · intro g hg
    exact h.counted g ((w.groups.mem_erase a g).mp hg).1
  · intro g hg hc _
    obtain ⟨hg, hne⟩ := (w.groups.mem_erase a g).mp hg
    exact h.led g hg hc (by simp [hne])
  · intro p' hp' a' hpos
    obtain ⟨p, hp, rfl⟩ := List.mem_map.mp hp'
    have hne : a' ≠ a := by
      rintro rfl
      rw [Player.forget_links_self] at hpos
      omega
    have hle := p.forget_links a a'
    obtain ⟨g, hg, haddr, hcount⟩ := h.linked p hp a' (by omega)
    exact ⟨g, hkeep g hg (haddr ▸ hne), haddr, hle.trans hcount⟩

theorem Sound.unlinkMembers (h : w.Sound but) (a : ℕ) (slots : List MemberSlot) :
    (w.unlinkMembers a slots).Sound but := by
  unfold World.unlinkMembers
  induction slots generalizing w with
  | nil => exact h
  | cons m slots ih =>
    exact ih (h.updPlayer (fun p => p.unlink_guid a) fun p x => p.unlink_links a x)

theorem Sound.disband (h : w.Sound (some a)) : (w.disband a).Sound none := by
  unfold World.disband
  split
  · rename_i hnone
    apply h.of_led
    intro g hg haddr
    exact absurd haddr ((w.groups.find?_eq_none_iff a).mp hnone g hg)
  · exact ((h.unlinkMembers a _).removeAllInvites a).deleteGroup

end World

end HysteriaCore.Groups
