import HysteriaCore.Instances.InstanceSaveMgr
import HysteriaCore.Lib.Runs

/-!
# Binds and lists of players

A player is on the list of a save once if a bind of the player refers to it, and a bind refers to a save
that is there.
-/

namespace HysteriaCore.Instances
open Lib

structure Linked (saves : Saves) (binds : Binds) : Prop where
  nodup : ∀ s ∈ saves, s.m_playerList.Nodup
  listed : ∀ s ∈ saves, ∀ g, g ∈ s.m_playerList ↔ ∃ b ∈ binds, b.guid = g ∧ b.save = s.m_instanceid
  live : ∀ b ∈ binds, ∃ s ∈ saves, s.m_instanceid = b.save ∧ s.m_difficulty = b.difficulty ∧ s.m_mapid = b.mapid

section
variable {saves : Saves} {binds : Binds} {s : InstanceSave} {b : Bind}

theorem Linked.key_eq (h : Linked saves binds) (hs : s ∈ saves) (hb : b ∈ binds) (hsave : b.save = s.m_instanceid) :
    b.key = (b.guid, s.m_difficulty, s.m_mapid) := by
  obtain ⟨s', hs', hid, hdifficulty, hmap⟩ := h.live b hb
  obtain rfl := saves.eq_of_key_eq hs' hs (hid.trans hsave)
  rw [Bind.key, hdifficulty, hmap]

theorem Linked.eq_of_save (h : Linked saves binds) {b' : Bind} (hb : b ∈ binds) (hb' : b' ∈ binds)
    (hguid : b'.guid = b.guid) (hsave : b'.save = b.save) : b' = b := by
  obtain ⟨s, hs, hid, -⟩ := h.live b hb
  refine binds.eq_of_key_eq hb' hb ?_
  rw [h.key_eq hs hb hid.symm, h.key_eq hs hb' (hsave.trans hid.symm), hguid]

variable {f : InstanceSave → InstanceSave}

theorem Linked.of_adjust {binds' : Binds} (h : Linked saves binds) (id : ℕ)
    (hf : ∀ s, (f s).m_instanceid = s.m_instanceid) (hdifficulty : ∀ s, (f s).m_difficulty = s.m_difficulty)
    (hmap : ∀ s, (f s).m_mapid = s.m_mapid) (hnodup : ∀ s ∈ saves, s.m_instanceid = id → (f s).m_playerList.Nodup)
    (hlisted : ∀ s ∈ saves, s.m_instanceid = id → ∀ g, g ∈ (f s).m_playerList ↔
      ∃ b ∈ binds', b.guid = g ∧ b.save = id)
    (hothers : ∀ b, b.save ≠ id → (b ∈ binds' ↔ b ∈ binds))
    (hlive : ∀ b ∈ binds', ∃ s ∈ saves, s.m_instanceid = b.save ∧ s.m_difficulty = b.difficulty ∧ s.m_mapid = b.mapid) :
    Linked (saves.adjust id f hf) binds' where
  nodup := by
    intro s' hs'
    obtain ⟨s, hs, rfl⟩ := (saves.mem_adjust id f hf s').mp hs'
    by_cases hid : s.m_instanceid = id
    · rw [if_pos hid]
      exact hnodup s hs hid
    · rw [if_neg hid]
      exact h.nodup s hs
  listed := by
    intro s' hs' g
    obtain ⟨s, hs, rfl⟩ := (saves.mem_adjust id f hf s').mp hs'
    by_cases hid : s.m_instanceid = id
    · rw [if_pos hid, hf, hid]
      exact hlisted s hs hid g
    · rw [if_neg hid, h.listed s hs g]
      refine exists_congr fun b => ?_
      constructor
      · rintro ⟨hb, hguid, hsave⟩
        exact ⟨(hothers b fun heq => hid (hsave.symm.trans heq)).mpr hb, hguid, hsave⟩
      · rintro ⟨hb, hguid, hsave⟩
        exact ⟨(hothers b fun heq => hid (hsave.symm.trans heq)).mp hb, hguid, hsave⟩
  live := by
    intro b hb
    obtain ⟨s, hs, hid, hd, hm⟩ := hlive b hb
    refine ⟨if s.m_instanceid = id then f s else s, (saves.mem_adjust id f hf _).mpr ⟨s, hs, rfl⟩, ?_⟩
    split
    · rw [hf, hdifficulty, hmap]
      exact ⟨hid, hd, hm⟩
    · exact ⟨hid, hd, hm⟩

theorem Linked.unbind (h : Linked saves binds) (hb : b ∈ binds) :
    Linked (saves.adjust b.save (fun s => s.removePlayer b.guid) fun s => s.removePlayer_id b.guid)
      (binds.erase b.key) := by
  refine h.of_adjust b.save _ (fun _ => rfl) (fun _ => rfl) (fun s hs _ => (h.nodup s hs).filter _)
    (fun s hs hid g => ?_) (fun b' hne => ?_) fun b' hb' => h.live b' ((binds.mem_erase _ b').mp hb').1
  · rw [InstanceSave.removePlayer, List.mem_filter, h.listed s hs g, decide_eq_true_eq]
    constructor
    · rintro ⟨⟨b', hb', hguid, hsave⟩, hne⟩
      refine ⟨b', (binds.mem_erase _ b').mpr ⟨hb', fun hkey => hne ?_⟩, hguid, hsave.trans hid⟩
      exact hguid.symm.trans (congrArg Prod.fst hkey)
    · rintro ⟨b', hb', hguid, hsave⟩
      obtain ⟨hin, hkey⟩ := (binds.mem_erase _ b').mp hb'
      refine ⟨⟨b', hin, hguid, hsave.trans hid.symm⟩, fun heq => hkey ?_⟩
      rw [h.eq_of_save hb hin (hguid.trans heq) hsave]
  · rw [binds.mem_erase]
    refine ⟨fun hin => hin.1, fun hin => ⟨hin, fun hkey => hne ?_⟩⟩
    rw [binds.eq_of_key_eq hin hb hkey]

theorem Linked.delete (h : Linked saves binds) (hs : s ∈ saves) (hempty : s.m_playerList = []) :
    Linked (saves.erase s.m_instanceid) binds where
  nodup := fun s' hs' => h.nodup s' ((saves.mem_erase _ s').mp hs').1
  listed := fun s' hs' => h.listed s' ((saves.mem_erase _ s').mp hs').1
  live := by
    intro b hb
    obtain ⟨s', hs', hid, hrest⟩ := h.live b hb
    refine ⟨s', (saves.mem_erase _ s').mpr ⟨hs', fun heq => ?_⟩, hid, hrest⟩
    have hin := (h.listed s hs b.guid).mpr ⟨b, hb, rfl, hid.symm.trans heq⟩
    rw [hempty] at hin
    cases hin

theorem Linked.bind (h : Linked saves binds) (hs : s ∈ saves) (hsave : b.save = s.m_instanceid)
    (hkey : b.key = (b.guid, s.m_difficulty, s.m_mapid)) (hnew : binds.find? b.key = none) :
    Linked (saves.adjust b.save (fun s => s.addPlayer b.guid) fun s => s.addPlayer_id b.guid) (binds.put b) := by
  have hfree : ∀ b' ∈ binds, b'.key ≠ b.key := (binds.find?_eq_none_iff _).mp hnew
  have hnot : b.guid ∉ s.m_playerList := fun hin => by
    obtain ⟨b', hb', hguid, hsame⟩ := (h.listed s hs b.guid).mp hin
    refine hfree b' hb' ?_
    rw [h.key_eq hs hb' hsame, hkey, hguid]
  have hmem : ∀ b', b' ∈ binds.put b ↔ b' = b ∨ b' ∈ binds := fun b' => by
    rw [binds.mem_put]
    exact or_congr_right (and_iff_left_of_imp fun hb' => hfree b' hb')
  have hsame : ∀ s' ∈ saves, s'.m_instanceid = b.save → s' = s :=
    fun s' hs' hid => saves.eq_of_key_eq hs' hs (hid.trans hsave)
  refine h.of_adjust b.save _ (fun _ => rfl) (fun _ => rfl) (fun s' hs' hid => ?_) (fun s' hs' hid g => ?_)
    (fun b' hne => ?_) fun b' hb' => ?_
  · rw [hsame s' hs' hid, InstanceSave.addPlayer, List.nodup_append]
    refine ⟨h.nodup s hs, List.nodup_singleton _, fun g hg g' hg' => ?_⟩
    rw [List.mem_singleton.mp hg']
    exact ne_of_mem_of_not_mem hg hnot
  · rw [hsame s' hs' hid, InstanceSave.addPlayer, List.mem_append, List.mem_singleton, h.listed s hs g]
    constructor
    · rintro (⟨b', hb', hguid, hto⟩ | rfl)
      · exact ⟨b', (hmem b').mpr (.inr hb'), hguid, hto.trans hsave.symm⟩
      · exact ⟨b, (hmem b).mpr (.inl rfl), rfl, rfl⟩
    · rintro ⟨b', hb', hguid, hto⟩
      rcases (hmem b').mp hb' with rfl | hb'
      · exact .inr hguid.symm
      · exact .inl ⟨b', hb', hguid, hto.trans hsave⟩
  · rw [hmem]
    exact or_iff_right fun heq => hne (congrArg Bind.save heq)
  · rcases (hmem b').mp hb' with rfl | hb'
    · refine ⟨s, hs, hsave.symm, ?_⟩
      have hrest := congrArg Prod.snd hkey
      exact ⟨(congrArg Prod.fst hrest).symm, (congrArg Prod.snd hrest).symm⟩
    · exact h.live b' hb'

theorem Linked.mark (h : Linked saves binds) (id : ℕ)
    (hf : ∀ s, (f s).m_instanceid = s.m_instanceid) (hdifficulty : ∀ s, (f s).m_difficulty = s.m_difficulty)
    (hmap : ∀ s, (f s).m_mapid = s.m_mapid) (hlist : ∀ s, (f s).m_playerList = s.m_playerList) :
    Linked (saves.adjust id f hf) binds := by
  refine h.of_adjust id hf hdifficulty hmap (fun s hs _ => hlist s ▸ h.nodup s hs) (fun s hs hid g => ?_)
    (fun _ _ => Iff.rfl) h.live
  rw [hlist, ← hid]
  exact h.listed s hs g

theorem Linked.of_binds {binds' : Binds} (h : Linked saves binds)
    (hsame : ∀ g difficulty mapid save, (∃ b ∈ binds', b.key = (g, difficulty, mapid) ∧ b.save = save) ↔
      ∃ b ∈ binds, b.key = (g, difficulty, mapid) ∧ b.save = save) : Linked saves binds' where
  nodup := h.nodup
  listed := by
    intro s hs g
    rw [h.listed s hs g]
    constructor
    · rintro ⟨b, hb, rfl, hsave⟩
      obtain ⟨b', hb', hkey, hsave'⟩ := (hsame _ _ _ _).mpr ⟨b, hb, rfl, hsave⟩
      exact ⟨b', hb', congrArg Prod.fst hkey, hsave'⟩
    · rintro ⟨b, hb, rfl, hsave⟩
      obtain ⟨b', hb', hkey, hsave'⟩ := (hsame _ _ _ _).mp ⟨b, hb, rfl, hsave⟩
      exact ⟨b', hb', congrArg Prod.fst hkey, hsave'⟩
  live := by
    intro b hb
    obtain ⟨b', hb', hkey, hsave⟩ := (hsame _ _ _ _).mp ⟨b, hb, rfl, rfl⟩
    obtain ⟨s, hs, hid, hdifficulty, hmap⟩ := h.live b' hb'
    have hrest := congrArg Prod.snd hkey
    exact ⟨s, hs, hid.trans hsave, hdifficulty.trans (congrArg Prod.fst hrest), hmap.trans (congrArg Prod.snd hrest)⟩

theorem Linked.extend (h : Linked saves binds) (key : ℕ × ℕ × ℕ) (extended : Bool) :
    Linked saves (binds.adjust key (fun b => { b with extended := extended }) fun _ => rfl) := by
  refine h.of_binds fun g difficulty mapid save => ⟨?_, ?_⟩
  · rintro ⟨b, hb, hkey, hsave⟩
    obtain ⟨b', hb', rfl⟩ := (binds.mem_adjust ..).mp hb
    refine ⟨b', hb', ?_⟩
    split at hkey <;> split at hsave <;> exact ⟨hkey, hsave⟩
  · rintro ⟨b, hb, hkey, hsave⟩
    refine ⟨_, (binds.mem_adjust ..).mpr ⟨b, hb, rfl⟩, ?_⟩
    split <;> exact ⟨hkey, hsave⟩

theorem Linked.renew (h : Linked saves binds) {b' : Bind} (hb : b ∈ binds) (hkey : b'.key = b.key)
    (hsave : b'.save = b.save) : Linked saves (binds.put b') := by
  refine h.of_binds fun g difficulty mapid save => ⟨?_, ?_⟩
  · rintro ⟨c, hc, hckey, hcsave⟩
    rcases (binds.mem_put b' c).mp hc with rfl | ⟨hc, -⟩
    · exact ⟨b, hb, hkey.symm.trans hckey, hsave.symm.trans hcsave⟩
    · exact ⟨c, hc, hckey, hcsave⟩
  · rintro ⟨c, hc, hckey, hcsave⟩
    by_cases heq : c.key = b.key
    · obtain rfl := binds.eq_of_key_eq hc hb heq
      exact ⟨b', (binds.mem_put b' b').mpr (.inl rfl), hkey.trans hckey, hsave.trans hcsave⟩
    · exact ⟨c, (binds.mem_put b' c).mpr (.inr ⟨hc, fun hsame => heq (hsame.trans hkey)⟩), hckey, hcsave⟩

theorem Linked.add (h : Linked saves binds) (hnew : saves.find? s.m_instanceid = none)
    (hempty : s.m_playerList = []) : Linked (saves.put s) binds := by
  have hfree := (saves.find?_eq_none_iff _).mp hnew
  refine ⟨fun s' hs' => ?_, fun s' hs' g => ?_, fun b hb => ?_⟩
  · rcases (saves.mem_put s s').mp hs' with rfl | ⟨hs', -⟩
    · rw [hempty]
      exact List.nodup_nil
    · exact h.nodup s' hs'
  · rcases (saves.mem_put s s').mp hs' with rfl | ⟨hs', -⟩
    · rw [hempty]
      refine iff_of_false List.not_mem_nil ?_
      rintro ⟨b, hb, -, hsave⟩
      obtain ⟨s'', hs'', hid, -⟩ := h.live b hb
      exact hfree s'' hs'' (hid.trans hsave)
    · exact h.listed s' hs' g
  · obtain ⟨s', hs', hrest⟩ := h.live b hb
    exact ⟨s', (saves.mem_put s s').mpr (.inr ⟨hs', hfree s' hs'⟩), hrest⟩

end

namespace InstanceSaveManager
variable {store : MapStore} {loaded : ℕ → Bool} {m m' : InstanceSaveManager}

def Clean (m : InstanceSaveManager) : Prop := ∀ d ∈ m.deletions, d.playerList = [] ∧ d.bound = []

structure Sound (m : InstanceSaveManager) : Prop where
  linked : Linked m.saves m.binds
  stored : ∀ b ∈ m.binds, b.guid ∈ m.storage
  clean : m.Clean

/-! ### Deleting saves -/

theorem deleteInstanceSaveIfNeeded_cases (m : InstanceSaveManager) (loaded : ℕ → Bool) (skipMapCheck : Bool) (id : ℕ) :
    m.deleteInstanceSaveIfNeeded loaded skipMapCheck id = m ∨
      (m.lock_instLists = false ∧ (skipMapCheck || !loaded id) = true) ∧ ∃ s ∈ m.saves, s.m_instanceid = id ∧
        s.m_playerList = [] ∧ m.deleteInstanceSaveIfNeeded loaded skipMapCheck id = m.delete s := by
  rw [deleteInstanceSaveIfNeeded]
  split
  · exact .inl rfl
  next s hfind =>
    obtain ⟨hs, hid⟩ := (m.saves.find?_eq_some_iff id s).mp hfind
    split
    next hfree => exact .inr ⟨⟨hfree.1, hfree.2.2⟩, s, hs, hid, hfree.2.1, rfl⟩
    · exact .inl rfl

variable {s : InstanceSave}

theorem Sound.delete (h : m.Sound) (hs : s ∈ m.saves) (hempty : s.m_playerList = []) :
    (m.delete s).Sound where
  linked := h.linked.delete hs hempty
  stored := h.stored
  clean := fun d hd => by
    rcases List.mem_append.mp hd with hold | hnew
    · exact h.clean d hold
    · rw [List.mem_singleton.mp hnew]
      refine ⟨hempty, List.map_eq_nil_iff.mpr (List.filter_eq_nil_iff.mpr fun b hb hsave => ?_)⟩
      have hin := (h.linked.listed s hs b.guid).mpr ⟨b, hb, rfl, of_decide_eq_true hsave⟩
      rw [hempty] at hin
      cases hin

theorem Sound.deleteInstanceSaveIfNeeded (h : m.Sound) (skipMapCheck : Bool) (id : ℕ) :
    (m.deleteInstanceSaveIfNeeded loaded skipMapCheck id).Sound := by
  rcases m.deleteInstanceSaveIfNeeded_cases loaded skipMapCheck id with hsame | ⟨-, s, hs, -, hempty, heq⟩
  · rw [hsame]
    exact h
  · rw [heq]
    exact h.delete hs hempty

/-- Under the lock, and where the save stays, nothing is deleted. -/
theorem removePlayer_of_stays {id guid : ℕ} (hstays : m.lock_instLists = true ∨ m.Stays loaded id guid) :
    m.removePlayer loaded id guid =
      { m with saves := m.saves.adjust id (fun s => s.removePlayer guid) fun s => s.removePlayer_id guid } := by
  rw [InstanceSaveManager.removePlayer]
  rcases deleteInstanceSaveIfNeeded_cases _ loaded false id with heq | ⟨⟨hlock, hunloaded⟩, o, ho, hid, hempty, -⟩
  · exact heq
  exfalso
  rcases hstays with hlocked | hloaded | ⟨s, hfind, g, hg, hne⟩
  · exact Bool.false_ne_true (hlock.symm.trans hlocked)
  · rw [hloaded] at hunloaded
    cases hunloaded
  · obtain ⟨s', hs', rfl⟩ := (m.saves.mem_adjust id (fun s => s.removePlayer guid) (fun s => s.removePlayer_id guid) o).mp ho
    have hs : s' = s := by
      refine m.saves.eq_of_key_eq hs' ((m.saves.find?_eq_some_iff id s).mp hfind).1 ?_
      rw [((m.saves.find?_eq_some_iff id s).mp hfind).2, ← hid]
      split <;> rfl
    rw [hs, if_pos ((m.saves.find?_eq_some_iff id s).mp hfind).2] at hempty
    have hkept : g ∈ (s.removePlayer guid).m_playerList := List.mem_filter.mpr ⟨hg, decide_eq_true hne⟩
    rw [hempty] at hkept
    cases hkept

/-! ### Binds -/

variable {b : Bind}

theorem Sound.unbind (h : m.Sound) (hb : b ∈ m.binds) :
    (removePlayer loaded { m with binds := m.binds.erase b.key } b.save b.guid).Sound := by
  rw [InstanceSaveManager.removePlayer]
  have hunbound : Sound { m with
      saves := m.saves.adjust b.save (fun s => s.removePlayer b.guid) fun s => s.removePlayer_id b.guid
      binds := m.binds.erase b.key } :=
    ⟨h.linked.unbind hb, fun b' hb' => h.stored b' ((m.binds.mem_erase _ b').mp hb').1, h.clean⟩
  exact hunbound.deleteInstanceSaveIfNeeded false b.save

theorem put_erase (binds : Binds) (b : Bind) : (binds.erase b.key).put b = binds.put b := by
  have herase : ((binds.erase b.key).erase b.key).rows = (binds.erase b.key).rows :=
    (binds.erase b.key).erase_of_not_mem fun b' hb' => ((binds.mem_erase _ b').mp hb').2
  simp only [KeyedList.put, herase]

theorem Sound.bind (h : m.Sound) (hs : s ∈ m.saves) (hsave : b.save = s.m_instanceid)
    (hkey : b.key = (b.guid, s.m_difficulty, s.m_mapid)) (hnew : m.binds.find? b.key = none)
    (hstored : b.guid ∈ m.storage) (permanent : Bool) :
    Sound { (m.addPlayer b.save b.guid).lockReset b.save permanent with binds := m.binds.put b } where
  linked := (h.linked.bind hs hsave hkey hnew).mark b.save (fun s => s.lockReset_id permanent) (fun _ => rfl)
    (fun _ => rfl) fun _ => rfl
  stored := fun b' hb' => by
    rcases (m.binds.mem_put b b').mp hb' with rfl | ⟨hb', -⟩
    · exact hstored
    · exact h.stored b' hb'
  clean := h.clean

theorem Sound.renew (h : m.Sound) (hb : b ∈ m.binds) (b' : Bind) (hkey : b'.key = b.key)
    (hsave : b'.save = b.save) (permanent : Bool) :
    Sound { m.lockReset b'.save permanent with binds := m.binds.put b' } where
  linked := (h.linked.renew hb hkey hsave).mark b'.save (fun s => s.lockReset_id permanent) (fun _ => rfl)
    (fun _ => rfl) fun _ => rfl
  stored := fun c hc => by
    rcases (m.binds.mem_put b' c).mp hc with rfl | ⟨hc, -⟩
    · have hguid : c.guid = b.guid := congrArg Prod.fst hkey
      rw [hguid]
      exact h.stored b hb
    · exact h.stored c hc
  clean := h.clean

theorem Sound.rebind (h : m.Sound) (hs : s ∈ m.saves) (hb : b ∈ m.binds) (b' : Bind)
    (hsave : b'.save = s.m_instanceid) (hkey : b'.key = (b'.guid, s.m_difficulty, s.m_mapid)) (hsame : b'.key = b.key)
    (hstays : m.lock_instLists = true ∨ m.Stays loaded b.save b'.guid) (permanent : Bool) :
    Sound { ((m.removePlayer loaded b.save b'.guid).addPlayer b'.save b'.guid).lockReset
      b'.save permanent with binds := (m.removePlayer loaded b.save b'.guid).binds.put b' } := by
  have hguid : b'.guid = b.guid := congrArg Prod.fst hsame
  rw [removePlayer_of_stays hstays]
  obtain ⟨s₁, hs₁, hid₁, hkey₁⟩ : ∃ s₁ ∈ m.saves.adjust b.save (fun s => s.removePlayer b'.guid)
      fun s => s.removePlayer_id b'.guid, s₁.m_instanceid = s.m_instanceid ∧
        (s₁.m_difficulty, s₁.m_mapid) = (s.m_difficulty, s.m_mapid) := by
    refine ⟨_, (m.saves.mem_adjust _ _ (fun s => s.removePlayer_id b'.guid) _).mpr ⟨s, hs, rfl⟩, ?_⟩
    split <;> exact ⟨rfl, rfl⟩
  have hfree : (m.binds.erase b.key).find? b'.key = none := by rw [m.binds.find?_erase, if_pos hsame]
  have hunbound := h.linked.unbind hb
  simp only [← hguid] at hunbound
  have hbound := hunbound.bind hs₁ (hsave.trans hid₁.symm) (hkey₁ ▸ hkey) hfree
  rw [← hsame, put_erase] at hbound
  refine ⟨hbound.mark b'.save (fun s => s.lockReset_id permanent) (fun _ => rfl) (fun _ => rfl) fun _ => rfl,
    fun c hc => ?_, h.clean⟩
  rcases (m.binds.mem_put b' c).mp hc with rfl | ⟨hc, -⟩
  · exact hguid ▸ h.stored b hb
  · exact h.stored c hc

/-! ### Operations -/

theorem Sound.create (h : m.Sound) (guid : ℕ) :
    (m.playerCreateBoundInstancesMaps guid).Sound ∧ guid ∈ (m.playerCreateBoundInstancesMaps guid).storage := by
  rw [playerCreateBoundInstancesMaps]
  split
  next hin => exact ⟨h, hin⟩
  · exact ⟨⟨h.linked, fun b hb => List.mem_append_left _ (h.stored b hb), h.clean⟩,
      List.mem_append_right _ List.mem_cons_self⟩

theorem Sound.lock (h : m.Sound) (lock : Bool) : Sound { m with lock_instLists := lock } :=
  ⟨h.linked, h.stored, h.clean⟩

theorem playerCreateBoundInstancesMaps_same (m : InstanceSaveManager) (guid : ℕ) :
    (m.playerCreateBoundInstancesMaps guid).saves = m.saves ∧ (m.playerCreateBoundInstancesMaps guid).binds = m.binds ∧
      (m.playerCreateBoundInstancesMaps guid).lock_instLists = m.lock_instLists := by
  rw [playerCreateBoundInstancesMaps]
  split <;> exact ⟨rfl, rfl, rfl⟩

theorem Sound.loadBind (h : m.Sound) (hlock : m.lock_instLists = true) (r : Row) :
    (m.loadBind loaded r).Sound ∧ (m.loadBind loaded r).lock_instLists = true := by
  unfold InstanceSaveManager.loadBind
  split
  · exact ⟨h, hlock⟩
  next s hfind =>
    obtain ⟨hs, hid⟩ := (m.saves.find?_eq_some_iff _ s).mp hfind
    extract_lets m₁ bind
    obtain ⟨h₁, hstored⟩ := h.create r.guid
    obtain ⟨hsaves₁, hbinds₁, hlock₁⟩ := m.playerCreateBoundInstancesMaps_same r.guid
    have hs₁ : s ∈ m₁.saves := by rwa [show m₁.saves = m.saves from hsaves₁]
    have hlocked : m₁.lock_instLists = true := hlock₁.trans hlock
    split
    next hnone =>
      exact ⟨h₁.bind hs₁ (b := ⟨r.guid, s.m_difficulty, s.m_mapid, r.instance_, r.permanent, r.extended⟩) hid.symm rfl
        hnone hstored r.permanent, hlocked⟩
    next b hbind =>
      obtain ⟨hb, hkey⟩ := (m₁.binds.find?_eq_some_iff _ b).mp hbind
      split
      · exact ⟨h₁, hlocked⟩
      · exact ⟨h₁.rebind hs₁ hb ⟨r.guid, s.m_difficulty, s.m_mapid, r.instance_, r.permanent, r.extended⟩
          hid.symm rfl hkey.symm (.inl hlocked) r.permanent, by rw [removePlayer_of_stays (.inl hlocked)]; exact hlocked⟩

theorem Sound.loadCharacterBinds (h : m.Sound) (rows : List Row) : (m.loadCharacterBinds loaded rows).Sound := by
  have hboth : (rows.foldl (InstanceSaveManager.loadBind loaded) { m with lock_instLists := true }).Sound ∧
      (rows.foldl (InstanceSaveManager.loadBind loaded) { m with lock_instLists := true }).lock_instLists = true :=
    foldl_invariant (I := fun m : InstanceSaveManager => m.Sound ∧ m.lock_instLists = true) (fun m r hm => hm.1.loadBind hm.2 r) rows
      ⟨h.lock true, rfl⟩
  exact hboth.1.lock false

theorem playerBindToInstance_sound (h : m.Sound) {guid id : ℕ} {permanent : Bool}
    (hcareful : m.Careful store (.playerBindToInstance loaded guid id permanent))
    (hrun : m.playerBindToInstance loaded guid id permanent = some m') : m'.Sound := by
  rw [playerBindToInstance] at hrun
  split at hrun
  · cases hrun
  next s hfind =>
    have hmoves := hcareful s hfind
    obtain ⟨hs, rfl⟩ := (m.saves.find?_eq_some_iff id s).mp hfind
    split at hrun
    · cases hrun
    next hstored =>
      split at hrun
      next hnone =>
        obtain rfl := Option.some.inj hrun
        exact h.bind hs (b := ⟨guid, s.m_difficulty, s.m_mapid, s.m_instanceid, permanent, false⟩) rfl rfl hnone
          (not_not.mp hstored) permanent
      next b hbind =>
        obtain ⟨hb, hkey⟩ := (m.binds.find?_eq_some_iff _ b).mp hbind
        split at hrun
        · cases hrun
        · obtain rfl := Option.some.inj hrun
          by_cases hne : b.save ≠ s.m_instanceid
          · simp only [if_pos hne]
            exact h.rebind hs hb ⟨guid, s.m_difficulty, s.m_mapid, s.m_instanceid, permanent, _⟩ rfl rfl
              hkey.symm (.inr ((hmoves b hbind).resolve_left hne)) permanent
          · simp only [if_neg hne]
            exact h.renew hb ⟨guid, s.m_difficulty, s.m_mapid, s.m_instanceid, permanent, _⟩ hkey.symm
              (not_not.mp hne).symm permanent

theorem binds_removePlayer (m : InstanceSaveManager) (loaded : ℕ → Bool) (id guid : ℕ) :
    (m.removePlayer loaded id guid).binds = m.binds := by
  rw [InstanceSaveManager.removePlayer]
  rcases deleteInstanceSaveIfNeeded_cases _ loaded false id with heq | ⟨-, s, -, -, -, heq⟩
  · rw [heq]
  · rw [heq]
    rfl

theorem playerBindToInstance_binds {guid id : ℕ} {permanent : Bool}
    (hrun : m.playerBindToInstance loaded guid id permanent = some m') : ∃ s ∈ m.saves.find? id, ∃ extended,
      m'.binds = m.binds.put ⟨guid, s.m_difficulty, s.m_mapid, id, permanent, extended⟩ := by
  rw [playerBindToInstance] at hrun
  split at hrun
  · cases hrun
  next s hfind =>
    refine ⟨s, hfind, ?_⟩
    split at hrun
    · cases hrun
    · split at hrun
      · obtain rfl := Option.some.inj hrun
        exact ⟨false, rfl⟩
      next b _ =>
        split at hrun
        · cases hrun
        · obtain rfl := Option.some.inj hrun
          refine ⟨if id ≠ b.save ∨ permanent ≠ b.perm then false else b.extended, ?_⟩
          have hsame : (if b.save ≠ id then (m.removePlayer loaded b.save guid).addPlayer id guid else m).binds =
              m.binds := by
            split
            · exact m.binds_removePlayer loaded b.save guid
            · rfl
          exact congrArg (fun binds : Binds => binds.put _) hsame

variable {guid mapid difficulty : ℕ}

theorem playerUnbindInstance_sound (h : m.Sound)
    (hrun : m.playerUnbindInstance loaded guid mapid difficulty = some m') : m'.Sound := by
  rw [playerUnbindInstance] at hrun
  split at hrun
  · cases hrun
  · split at hrun
    · obtain rfl := Option.some.inj hrun
      exact h
    next b hbind =>
      obtain ⟨hb, hkey⟩ := (m.binds.find?_eq_some_iff _ b).mp hbind
      obtain rfl := Option.some.inj hrun
      have hguid : guid = b.guid := (congrArg Prod.fst hkey).symm
      rw [hguid]
      exact h.unbind hb

theorem Sound.setExtended (h : m.Sound) (key : ℕ × ℕ × ℕ) (extended : Bool) : (m.setExtended key extended).Sound where
  linked := h.linked.extend key extended
  stored := fun b hb => by
    replace hb : b ∈ m.binds.adjust key (fun b => { b with extended := extended }) fun _ => rfl := hb
    obtain ⟨b', hb', rfl⟩ := (m.binds.mem_adjust ..).mp hb
    split <;> exact h.stored b' hb'
  clean := h.clean

theorem playerUnbindInstanceNotExtended_sound (h : m.Sound)
    (hrun : m.playerUnbindInstanceNotExtended loaded guid mapid difficulty = some m') : m'.Sound := by
  rw [playerUnbindInstanceNotExtended] at hrun
  split at hrun
  · cases hrun
  · split at hrun
    · obtain rfl := Option.some.inj hrun
      exact h
    next b hbind =>
      obtain ⟨hb, hkey⟩ := (m.binds.find?_eq_some_iff _ b).mp hbind
      split at hrun
      · obtain rfl := Option.some.inj hrun
        exact h.setExtended b.key false
      · obtain rfl := Option.some.inj hrun
        have hguid : guid = b.guid := (congrArg Prod.fst hkey).symm
        rw [hguid]
        exact h.unbind hb

theorem copyBind_sound {source target : ℕ} (hne : source ≠ target) (h : m.Sound)
    (hcareful : m.Careful store (.copyBinds loaded source target)) (hb : b ∈ m.binds)
    (hsource : b.guid = source) (hnone : (m.playerGetBoundInstance store target b.mapid b.difficulty).isNone = true)
    (hrun : m.playerBindToInstance loaded target b.save false = some m') :
    (m'.Sound ∧ m'.Careful store (.copyBinds loaded source target)) ∧
      ∀ c, c.guid = source → (c ∈ m'.binds ↔ c ∈ m.binds) := by
  obtain ⟨s, hfind, extended, hbinds⟩ := playerBindToInstance_binds hrun
  obtain ⟨s', hs', hid, hdifficulty, hmap⟩ := h.linked.live b hb
  obtain rfl : s' = s := Option.some.inj (((m.saves.find?_eq_some_iff _ s').mpr ⟨hs', hid⟩).symm.trans hfind)
  rw [hdifficulty, hmap] at hbinds
  have hsaved : ∀ b' ∈ m.binds.find? (target, b.difficulty, b.mapid), b'.save = b.save := fun b' hb' =>
    (hcareful b hb hsource b' hb').resolve_right fun hsome => by
      rw [Option.isNone_iff_eq_none.mp hnone] at hsome
      cases hsome
  have hmem : ∀ c, c.guid = source → (c ∈ m'.binds ↔ c ∈ m.binds) := fun c hc => by
    rw [hbinds, m.binds.mem_put]
    constructor
    · rintro (rfl | hold)
      · exact absurd hc.symm hne
      · exact hold.1
    · exact fun hold => .inr ⟨hold, fun hkey => hne (hc.symm.trans (congrArg Prod.fst hkey))⟩
  have hmove : m.Careful store (.playerBindToInstance loaded target b.save false) := by
    intro s hs b' hb'
    obtain rfl := Option.some.inj (hfind.symm.trans hs)
    rw [hdifficulty, hmap] at hb'
    exact .inl (hsaved b' hb')
  refine ⟨⟨playerBindToInstance_sound h hmove hrun, fun c hc hcs c' hc' => ?_⟩, hmem⟩
  -- the target has the copied bind under the key of `b` now, and what it had under the others
  · rw [hbinds, m.binds.find?_put] at hc'
    have hcm := (hmem c hcs).mp hc
    split at hc'
    next hkey =>
      obtain rfl := Option.some.inj hc'
      have hsame : b = c := m.binds.eq_of_key_eq hb hcm
        (congrArg₂ Prod.mk (hsource.trans hcs.symm) (congrArg Prod.snd hkey))
      exact .inl (show b.save = c.save by rw [hsame])
    · refine (hcareful c hcm hcs c' hc').imp_right fun hsome => ?_
      rw [playerGetBoundInstance] at hsome ⊢
      split at hsome
      · cases hsome
      · rw [hbinds, m.binds.find?_put]
        split
        · rfl
        · exact hsome

theorem copyBinds_sound (h : m.Sound) {source target : ℕ}
    (hcareful : m.Careful store (.copyBinds loaded source target))
    (hrun : m.copyBinds store loaded source target = some m') : m'.Sound := by
  rw [copyBinds] at hrun
  split at hrun
  · obtain rfl := Option.some.inj hrun
    exact h
  next hne =>
    refine And.left (foldlM_invariant (I := fun m => m.Sound ∧ m.Careful store (.copyBinds loaded source target))
      (fun m d t hm hcopy => ?_) ⟨h, hcareful⟩ hrun)
    refine And.left (foldlM_invariant_mem (I := fun m' => (m'.Sound ∧ m'.Careful store (.copyBinds loaded source target)) ∧
      ∀ c, c.guid = source → (c ∈ m'.binds ↔ c ∈ m.binds)) (fun m₁ b hb t hm₁ hbind => ?_) ⟨hm, fun c _ => Iff.rfl⟩ hcopy)
    obtain ⟨hin, hkey⟩ := List.mem_filter.mp hb
    obtain ⟨hsource, rfl⟩ := of_decide_eq_true hkey
    split at hbind
    next hnone =>
      obtain ⟨hnext, hmem⟩ := copyBind_sound hne hm₁.1.1 hm₁.1.2 ((hm₁.2 b hsource).mpr hin) hsource hnone hbind
      exact ⟨hnext, fun c hc => (hmem c hc).trans (hm₁.2 c hc)⟩
    · obtain rfl := Option.some.inj hbind
      exact hm₁

theorem unbindAllFor_sound {id fuel : ℕ} (h : m.Sound) (hrun : unbindAllFor loaded id fuel m = some m') :
    m'.Sound := by
  induction fuel generalizing m with
  | zero => cases hrun
  | succ fuel ih =>
    rw [unbindAllFor] at hrun
    split at hrun
    · cases hrun
    · split at hrun
      · obtain rfl := Option.some.inj hrun
        exact h
      · obtain ⟨m₁, hfirst, hrest⟩ := Option.bind_eq_some_iff.mp hrun
        exact ih (playerUnbindInstance_sound h hfirst) hrest

theorem resetSave_sound (h : m.Sound) {id : ℕ} (hrun : m.resetSave loaded id = some m') : m'.Sound := by
  rw [resetSave] at hrun
  split at hrun
  · obtain rfl := Option.some.inj hrun
    exact h
  next s _ =>
    obtain ⟨m₁, hfold, rfl⟩ := Option.map_eq_some_iff.mp hrun
    have h₁ : m₁.Sound :=
      foldlM_invariant (I := Sound) (fun m g t hm hunbind => playerUnbindInstanceNotExtended_sound hm hunbind)
        (h.lock true) hfold
    refine Sound.lock ?_ false
    split
    next s hfind =>
      split
      next hempty => exact h₁.delete ((m₁.saves.find?_eq_some_iff id s).mp hfind).1 hempty
      · exact h₁
    · exact h₁

theorem Sound.addInstanceSave (h : m.Sound) {mapId instanceId difficulty : ℕ} (hnew : m.saves.find? instanceId = none) :
    (m.addInstanceSave store mapId instanceId difficulty).Sound := by
  rw [InstanceSaveManager.addInstanceSave]
  split
  · exact h
  next isRaid _ =>
    by_cases hwrong : instanceId = 0 ∨ (if isRaid then 4 else 3) ≤ difficulty
    · rw [if_pos hwrong]
      exact h
    · rw [if_neg hwrong]
      exact ⟨h.linked.add hnew rfl, h.stored, h.clean⟩

theorem find?_addInstanceSave (m : InstanceSaveManager) {mapId instanceId difficulty id : ℕ} (hne : id ≠ instanceId) :
    (m.addInstanceSave store mapId instanceId difficulty).saves.find? id = m.saves.find? id := by
  rw [InstanceSaveManager.addInstanceSave]
  split
  · rfl
  next isRaid _ =>
    by_cases hwrong : instanceId = 0 ∨ (if isRaid then 4 else 3) ≤ difficulty
    · rw [if_pos hwrong]
    · rw [if_neg hwrong]
      exact (m.saves.find?_put _ id).trans (if_neg hne.symm)

theorem sound_of_step (h : m.Sound) {c : Call} (hcareful : m.Careful store c) (hstep : m.step store c = some m') :
    m'.Sound := by
  cases c with
  | addInstanceSave mapId instanceId difficulty =>
    rw [step] at hstep
    split at hstep
    · cases hstep
    next hnew =>
      obtain rfl := Option.some.inj hstep
      exact h.addInstanceSave (by simpa using hnew)
  | playerCreateBoundInstancesMaps guid =>
    obtain rfl := Option.some.inj hstep
    exact (h.create guid).1
  | playerBindToInstance loaded guid instanceId permanent => exact playerBindToInstance_sound h hcareful hstep
  | playerUnbindInstance loaded guid mapid difficulty => exact playerUnbindInstance_sound h hstep
  | copyBinds loaded source target => exact copyBinds_sound h hcareful hstep
  | unbindAllFor loaded instanceId fuel => exact unbindAllFor_sound h hstep
  | deleteInstanceSaveIfNeeded loaded instanceId skipMapCheck =>
    obtain rfl := Option.some.inj hstep
    exact h.deleteInstanceSaveIfNeeded skipMapCheck instanceId
  | resetAll loaded mapid difficulty =>
    exact foldlM_invariant (I := Sound) (fun m id t hm hreset => resetSave_sound hm hreset) h hstep
  | setExtended guid difficulty mapid extended =>
    obtain rfl := Option.some.inj hstep
    exact h.setExtended _ extended

/-! ### The loop of `UnbindAllFor` -/

theorem playerUnbindInstance_front (h : m.Sound) {id : ℕ} (hloaded : loaded id = true)
    (hfind : m.saves.find? id = some s) {guid : ℕ} {rest : List ℕ} (hlist : s.m_playerList = guid :: rest) :
    ∃ m' s', m.playerUnbindInstance loaded guid s.m_mapid s.m_difficulty = some m' ∧
      m'.saves.find? id = some s' ∧ s'.m_playerList.length ≤ rest.length := by
  obtain ⟨hs, hid⟩ := (m.saves.find?_eq_some_iff id s).mp hfind
  have hin : guid ∈ s.m_playerList := hlist ▸ List.mem_cons_self
  obtain ⟨b, hb, hguid, hsave⟩ := (h.linked.listed s hs guid).mp hin
  have hkey : b.key = (guid, s.m_difficulty, s.m_mapid) := hguid ▸ h.linked.key_eq hs hb hsave
  have hbind : m.binds.find? (guid, s.m_difficulty, s.m_mapid) = some b :=
    (m.binds.find?_eq_some_iff _ b).mpr ⟨hb, hkey⟩
  have hstored : ¬guid ∉ m.storage := not_not.mpr (hguid ▸ h.stored b hb)
  have hto : b.save = id := hsave.trans hid
  refine ⟨_, s.removePlayer guid, by rw [playerUnbindInstance, if_neg hstored, hbind], ?_, ?_⟩
  · rw [removePlayer_of_stays (.inr (.inl (hto ▸ hloaded)))]
    refine (m.saves.find?_adjust _ _ _ fun s => s.removePlayer_id guid).trans ?_
    rw [hfind, Option.map_some, if_pos hto.symm]
  · rw [InstanceSave.removePlayer, hlist, List.filter_cons_of_neg (by simp)]
    exact List.length_filter_le ..

theorem exists_unbindAllFor (h : m.Sound) {id : ℕ} (hloaded : loaded id = true) (fuel : ℕ)
    (hfind : m.saves.find? id = some s) (hfuel : s.m_playerList.length ≤ fuel) :
    ∃ m', unbindAllFor loaded id (fuel + 1) m = some m' := by
  induction fuel generalizing m s with
  | zero =>
    refine ⟨m, ?_⟩
    rw [unbindAllFor, hfind]
    dsimp only
    rw [List.eq_nil_of_length_eq_zero (Nat.le_zero.mp hfuel)]
  | succ fuel ih =>
    rw [unbindAllFor, hfind]
    dsimp only
    split
    · exact ⟨m, rfl⟩
    next guid rest hlist =>
      obtain ⟨m₁, s₁, hfirst, hfind₁, hshorter⟩ := playerUnbindInstance_front h hloaded hfind hlist
      have hle : rest.length + 1 ≤ fuel + 1 := by rwa [hlist, List.length_cons] at hfuel
      rw [hfirst]
      exact ih (playerUnbindInstance_sound h hfirst) hfind₁ (hshorter.trans (Nat.le_of_succ_le_succ hle))

/-! ### Runs -/

theorem loadInstanceSaves_sound {saves : List (ℕ × ℕ × ℕ)} (hids : (saves.map fun r => r.2.1).Nodup) :
    (loadInstanceSaves store saves).Sound := by
  have hfold : ∀ (rows : List (ℕ × ℕ × ℕ)) (m : InstanceSaveManager), m.Sound → (rows.map fun r => r.2.1).Nodup →
      (∀ r ∈ rows, m.saves.find? r.2.1 = none) →
        (rows.foldl (fun m r => m.addInstanceSave store r.1 r.2.1 r.2.2) m).Sound := by
    intro rows
    induction rows with
    | nil => exact fun m hm _ _ => hm
    | cons r rows ih =>
      intro m hm hnodup hnew
      rw [List.map_cons, List.nodup_cons] at hnodup
      refine ih _ (hm.addInstanceSave (hnew r List.mem_cons_self)) hnodup.2 fun r' hr' => ?_
      have hne : r'.2.1 ≠ r.2.1 := fun heq => hnodup.1 (List.mem_map.mpr ⟨r', hr', heq⟩)
      exact (find?_addInstanceSave m hne).trans (hnew r' (List.mem_cons_of_mem _ hr'))
  refine hfold saves _ ⟨⟨?_, ?_, ?_⟩, ?_, ?_⟩ hids fun r _ => rfl
  · exact fun s hs => absurd hs List.not_mem_nil
  · exact fun s hs => absurd hs List.not_mem_nil
  · exact fun b hb => absurd hb List.not_mem_nil
  · exact fun b hb => absurd hb List.not_mem_nil
  · exact fun d hd => absurd hd List.not_mem_nil

/-- A player is on the list of a save once if the bind for its map and difficulty refers to it, and not at
all otherwise; every bind refers to a save that is there; a save is deleted with an empty list and without
binds; and unbinding all players ends. -/
theorem binds_of_reaches (h : Reaches (step store) (Careful store) (Loaded store) m) :
    (∀ s ∈ m.saves, ∀ g, s.m_playerList.count g =
      if (m.binds.find? (g, s.m_difficulty, s.m_mapid)).any (fun b => decide (b.save = s.m_instanceid)) then 1 else 0) ∧
    (∀ b ∈ m.binds, ∃ s, m.saves.find? b.save = some s ∧ s.m_instanceid = b.save ∧
      s.m_difficulty = b.difficulty ∧ s.m_mapid = b.mapid) ∧
    (∀ d ∈ m.deletions, d.playerList = [] ∧ d.bound = []) ∧
    ∀ loaded id, (∃ s ∈ m.saves.find? id, loaded id = true ∨ s.m_playerList = []) →
      ∃ fuel m', unbindAllFor loaded id fuel m = some m' := by
  have hsound : m.Sound := by
    refine h.invariant (fun m hm => ?_) fun m c m' hm hcareful hstep => sound_of_step hm hcareful hstep
    obtain ⟨saves, hids, loaded, rows, rfl⟩ := hm
    exact (loadInstanceSaves_sound hids).loadCharacterBinds rows
  refine ⟨fun s hs g => ?_, fun b hb => ?_, hsound.clean, ?_⟩
  · have hiff : (m.binds.find? (g, s.m_difficulty, s.m_mapid)).any (fun b => decide (b.save = s.m_instanceid)) = true ↔
        g ∈ s.m_playerList := by
      rw [hsound.linked.listed s hs g, Option.any_eq_true]
      constructor
      · rintro ⟨b, hfind, hsave⟩
        obtain ⟨hb, hkey⟩ := (m.binds.find?_eq_some_iff _ b).mp hfind
        exact ⟨b, hb, congrArg Prod.fst hkey, of_decide_eq_true hsave⟩
      · rintro ⟨b, hb, rfl, hsave⟩
        exact ⟨b, (m.binds.find?_eq_some_iff _ b).mpr ⟨hb, hsound.linked.key_eq hs hb hsave⟩, decide_eq_true hsave⟩
    by_cases hin : g ∈ s.m_playerList
    · rw [if_pos (hiff.mpr hin)]
      exact List.count_eq_one_of_mem (hsound.linked.nodup s hs) hin
    · rw [if_neg fun hany => hin (hiff.mp hany)]
      exact List.count_eq_zero_of_not_mem hin
  · obtain ⟨s, hs, hid, hrest⟩ := hsound.linked.live b hb
    exact ⟨s, (m.saves.find?_eq_some_iff _ s).mpr ⟨hs, hid⟩, hid, hrest⟩
  · rintro loaded id ⟨s, hfind, hloaded | hempty⟩
    · obtain ⟨m', hm'⟩ := exists_unbindAllFor hsound hloaded _ hfind le_rfl
      exact ⟨_, m', hm'⟩
    · refine ⟨1, m, ?_⟩
      rw [unbindAllFor, show m.saves.find? id = some s from hfind]
      dsimp only
      rw [hempty]

/-! ### A sample -/

def sampleStore : MapStore where
  lookupEntry mapid := if mapid = 631 then some true else if mapid = 33 then some false else none
  hasMapDifficulty mapid difficulty := decide ((mapid = 33 ∧ difficulty < 2) ∨ (mapid = 631 ∧ difficulty < 4))

def sampleSaves : List (ℕ × ℕ × ℕ) := [(33, 1, 0), (33, 2, 0), (631, 3, 3)]

def sampleLoaded (rows : List Row) : InstanceSaveManager :=
  (loadInstanceSaves sampleStore sampleSaves).loadCharacterBinds (fun _ => false) rows

theorem sampleLoaded_loaded (rows : List Row) : Loaded sampleStore (sampleLoaded rows) :=
  ⟨sampleSaves, by decide, fun _ => false, rows, rfl⟩

/-- The second row of player 10 for map 33 overrides the first; the reset of the raid keeps player 11; and
player 12 follows 10 and leaves the loaded map again. -/
theorem binds_of_reaches_sample : ∃ m, Reaches (step sampleStore) (Careful sampleStore) (Loaded sampleStore) m ∧
    m.saves.rows.map (fun s => (s.m_instanceid, s.m_playerList)) = [(1, []), (2, []), (3, [11])] ∧
    ∀ b ∈ m.binds, ∃ s, m.saves.find? b.save = some s ∧ s.m_instanceid = b.save ∧
      s.m_difficulty = b.difficulty ∧ s.m_mapid = b.mapid := by
  obtain ⟨m, hm, htest⟩ := Reaches.exists_of_replay (step sampleStore) (Careful sampleStore) (sampleLoaded_loaded
      [⟨10, 1, false, false⟩, ⟨10, 2, false, false⟩, ⟨10, 3, true, false⟩, ⟨11, 3, true, true⟩])
    [.resetAll (fun _ => false) 631 1, .playerCreateBoundInstancesMaps 12, .copyBinds (fun _ => false) 10 12,
      .unbindAllFor (fun _ => true) 2 3]
    (by decide +kernel)
    (fun m => decide (m.saves.rows.map (fun s => (s.m_instanceid, s.m_playerList)) =
      [(1, []), (2, []), (3, [11])]))
    (by decide +kernel)
  exact ⟨m, hm, of_decide_eq_true htest, (binds_of_reaches hm).2.1⟩

/-- Where nobody is in map 33, the loop of `UnbindAllFor` reads the list of save 1 after player 10 has left
it; and when the bind is moved instead, save 1 is deleted while the bind refers to it. -/
theorem deleted_while_bound :
    (∀ fuel, unbindAllFor (fun _ => false) 1 fuel (sampleLoaded [⟨10, 1, false, false⟩]) = none) ∧
    ∃ m, Reaches (step sampleStore) anyStep (Loaded sampleStore) m ∧ m.deletions = [⟨1, [], [10]⟩] := by
  refine ⟨fun fuel => ?_, ?_⟩
  · rcases fuel with - | - | fuel <;> rfl
  · obtain ⟨m, hm, htest⟩ := Reaches.exists_of_replay (step sampleStore) anyStep
      (sampleLoaded_loaded [⟨10, 1, false, false⟩])
      [.playerBindToInstance (fun _ => false) 10 2 false] (replayOk_anyStep ..)
      (fun m => decide (m.deletions = [⟨1, [], [10]⟩]))
      (by decide +kernel)
    exact ⟨m, hm, of_decide_eq_true htest⟩

end InstanceSaveManager

end HysteriaCore.Instances
