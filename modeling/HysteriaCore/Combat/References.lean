import HysteriaCore.Combat.ThreatManager
import Mathlib.Data.List.Perm.Basic

/-!
# The references of a threat manager

Every operation keeps one reference for a unit at most, on the list that its status says, and the
current victim on the online list.
-/

namespace HysteriaCore.Combat
open Lib

namespace ThreatManager
variable {env : Surroundings} {m m' : ThreatManager} {p : ℕ}

def refs (m : ThreatManager) : List ℕ := m.online ++ m.offline

def guid (m : ThreatManager) (p : ℕ) : ℕ := (m.ref p).iUnitGuid

structure Sound (m : ThreatManager) : Prop where
  guids : (m.refs.map m.guid).Nodup
  online : ∀ p ∈ m.online, (m.ref p).iOnline = true
  offline : ∀ p ∈ m.offline, (m.ref p).iOnline = false
  current : ∀ p ∈ m.iCurrentVictim, p ∈ m.online
  made : ∀ p ∈ m.refs, p < m.nextRef
  deleted : ∀ d ∈ m.deleted, d.ref < m.nextRef ∧ d.ref ∉ m.refs ∧
    (d.byClearing = true ↔ d.ref ∈ d.online ++ d.offline)

theorem Sound.nodup (h : m.Sound) : m.refs.Nodup := h.guids.of_map _

structure Grows (m m' : ThreatManager) : Prop where
  sound : m'.Sound
  keeps : ∀ p ∈ m.refs, p ∈ m'.refs

theorem Grows.trans {m'' : ThreatManager} (h : Grows m m') (h' : Grows m' m'') : Grows m m'' :=
  ⟨h'.sound, fun p hp => h'.keeps p (h.keeps p hp)⟩

theorem Sound.refl (h : m.Sound) : Grows m m := ⟨h, fun _ hp => hp⟩

theorem Sound.of_eq (h : m.Sound) (hguid : m'.guid = m.guid)
    (hflag : ∀ p, (m'.ref p).iOnline = (m.ref p).iOnline) (hnext : m'.nextRef = m.nextRef)
    (honline : m'.online = m.online) (hoffline : m'.offline = m.offline)
    (hcurrent : m'.iCurrentVictim = m.iCurrentVictim) (hdeleted : m'.deleted = m.deleted) : Grows m m' := by
  have hrefs : m'.refs = m.refs := by rw [refs, honline, hoffline, refs]
  refine ⟨⟨?_, ?_, ?_, ?_, ?_, ?_⟩, fun p hp => hrefs ▸ hp⟩
  · rw [hrefs, hguid]
    exact h.guids
  · rw [honline]
    exact fun p hp => (hflag p).trans (h.online p hp)
  · rw [hoffline]
    exact fun p hp => (hflag p).trans (h.offline p hp)
  · rw [hcurrent, honline]
    exact h.current
  · rw [hrefs, hnext]
    exact h.made
  · rw [hdeleted, hrefs, hnext]
    exact h.deleted

variable {r : HostileReference}

theorem guid_setRef (hguid : r.iUnitGuid = m.guid p) : (m.setRef p r).guid = m.guid := by
  funext q
  rw [guid]
  by_cases hq : q = p
  · rw [hq, setRef_self, hguid]
  · rw [setRef_of_ne m hq, guid]

theorem iOnline_setRef (honline : r.iOnline = (m.ref p).iOnline) (q : ℕ) :
    ((m.setRef p r).ref q).iOnline = (m.ref q).iOnline := by
  by_cases hq : q = p
  · rw [hq, setRef_self, honline]
  · rw [setRef_of_ne m hq]

theorem Sound.setRef (h : m.Sound) (hguid : r.iUnitGuid = m.guid p)
    (honline : r.iOnline = (m.ref p).iOnline) : Grows m (m.setRef p r) :=
  h.of_eq (guid_setRef hguid) (iOnline_setRef honline) rfl rfl rfl rfl rfl

theorem Sound.threatChange (h : m.Sound) (p : ℕ) (modThreat : ℚ) : Grows m (m.threatChange p modThreat) :=
  h.of_eq rfl (fun _ => rfl) rfl rfl rfl rfl rfl

/-! ### Changing lists -/

variable {l : List ℕ}

theorem perm_filter_ne (hl : l.Nodup) (hp : p ∈ l) : l.Perm (p :: l.filter fun q => decide (q ≠ p)) := by
  have herase := List.perm_cons_erase hp
  rw [hl.erase_eq_filter p] at herase
  refine herase.trans (List.Perm.of_eq (congrArg (p :: ·) (List.filter_congr fun q _ => ?_)))
  rw [Bool.eq_iff_iff]
  simp

theorem Sound.online_nodup (h : m.Sound) : m.online.Nodup := (List.nodup_append.mp h.nodup).1

theorem Sound.offline_nodup (h : m.Sound) : m.offline.Nodup := (List.nodup_append.mp h.nodup).2.1

theorem Sound.of_perm (h : m.Sound) (hguid : m'.guid = m.guid) (hrefs : m.refs.Perm m'.refs)
    (honline : ∀ p ∈ m'.online, (m'.ref p).iOnline = true)
    (hoffline : ∀ p ∈ m'.offline, (m'.ref p).iOnline = false)
    (hcurrent : ∀ p ∈ m'.iCurrentVictim, p ∈ m'.online) (hnext : m'.nextRef = m.nextRef)
    (hdeleted : m'.deleted = m.deleted) : Grows m m' := by
  refine ⟨⟨?_, honline, hoffline, hcurrent, ?_, ?_⟩, fun p hp => hrefs.mem_iff.mp hp⟩
  · rw [hguid]
    exact (hrefs.map m.guid).nodup_iff.mp h.guids
  · rw [hnext]
    exact fun p hp => h.made p (hrefs.mem_iff.mpr hp)
  · rw [hnext, hdeleted]
    intro d hd
    obtain ⟨hlt, hnot, hlog⟩ := h.deleted d hd
    exact ⟨hlt, fun hin => hnot (hrefs.mem_iff.mpr hin), hlog⟩

theorem mem_filter_ne {q : ℕ} (hq : q ∈ l.filter fun q => decide (q ≠ p)) : q ∈ l ∧ q ≠ p := by
  simpa using hq

theorem Sound.goOffline (h : m.Sound) (hp : p ∈ m.online) :
    Grows m ((m.setRef p { m.ref p with iOnline := false }).wentOffline p) := by
  have hperm := perm_filter_ne h.online_nodup hp
  refine h.of_perm (guid_setRef rfl) ?_ ?_ ?_ ?_ rfl rfl
  · show (m.online ++ m.offline).Perm ((m.online.filter fun q => decide (q ≠ p)) ++ (m.offline ++ [p]))
    refine (hperm.append_right m.offline).trans ?_
    rw [← List.append_assoc]
    exact (List.perm_append_singleton p _).symm
  · intro q hq
    obtain ⟨hq, hne⟩ := mem_filter_ne hq
    exact (congrArg HostileReference.iOnline (setRef_of_ne m hne _)).trans (h.online q hq)
  · intro q hq
    rcases List.mem_append.mp hq with hq | hq
    · have hne : q ≠ p := by
        rintro rfl
        exact (List.nodup_append.mp h.nodup).2.2 q hp q hq rfl
      exact (congrArg HostileReference.iOnline (setRef_of_ne m hne _)).trans (h.offline q hq)
    · rw [List.mem_singleton.mp hq]
      exact congrArg HostileReference.iOnline (setRef_self m p _)
  · intro q hq
    obtain ⟨hcurrent, hne⟩ := Option.mem_filter_iff.mp hq
    exact List.mem_filter.mpr ⟨h.current q hcurrent, hne⟩

theorem Sound.goOnline (h : m.Sound) (hp : p ∈ m.offline) :
    Grows m ((m.setRef p { m.ref p with iOnline := true }).wentOnline p) := by
  have hperm := perm_filter_ne h.offline_nodup hp
  refine h.of_perm (guid_setRef rfl) ?_ ?_ ?_ ?_ rfl rfl
  · show (m.online ++ m.offline).Perm ((m.online ++ [p]) ++ m.offline.filter fun q => decide (q ≠ p))
    refine (hperm.append_left m.online).trans ?_
    rw [List.append_assoc]
    rfl
  · intro q hq
    rcases List.mem_append.mp hq with hq | hq
    · have hne : q ≠ p := by
        rintro rfl
        exact (List.nodup_append.mp h.nodup).2.2 q hq q hp rfl
      exact (congrArg HostileReference.iOnline (setRef_of_ne m hne _)).trans (h.online q hq)
    · rw [List.mem_singleton.mp hq]
      exact congrArg HostileReference.iOnline (setRef_self m p _)
  · intro q hq
    obtain ⟨hq, hne⟩ := mem_filter_ne hq
    exact (congrArg HostileReference.iOnline (setRef_of_ne m hne _)).trans (h.offline q hq)
  · exact fun q hq => List.mem_append_left _ (h.current q hq)

theorem Sound.mem_online_iff (h : m.Sound) (hp : p ∈ m.refs) : p ∈ m.online ↔ (m.ref p).iOnline = true := by
  refine ⟨h.online p, fun hflag => ?_⟩
  rcases List.mem_append.mp hp with hon | hoff
  · exact hon
  · rw [h.offline p hoff] at hflag
    cases hflag

theorem Sound.setOnlineOfflineState (h : m.Sound) (hp : p ∈ m.refs) (isOnline : Bool) :
    Grows m (m.setOnlineOfflineState p isOnline) := by
  rw [ThreatManager.setOnlineOfflineState]
  split
  · exact h.refl
  next hne =>
    cases isOnline with
    | true =>
      have hoff : p ∈ m.offline := (List.mem_append.mp hp).resolve_left fun hon => hne (h.online p hon)
      exact h.goOnline hoff
    | false =>
      have hon : p ∈ m.online := (h.mem_online_iff hp).mpr (by simpa using hne)
      exact h.goOffline hon

theorem Sound.updateOnlineStatus (h : m.Sound) (hp : p ∈ m.refs) : Grows m (m.updateOnlineStatus env p) := by
  rw [ThreatManager.updateOnlineStatus]
  have hlinked := h.setRef (p := p) (r := { m.ref p with
    isValid := (m.ref p).isValid || env.found (m.ref p).iUnitGuid }) rfl rfl
  exact hlinked.trans (hlinked.sound.setOnlineOfflineState (hlinked.keeps p hp) _)

/-! ### Adding threat -/

theorem Sound.addOwnThreat (h : m.Sound) (hp : p ∈ m.refs) (modThreat : ℚ) :
    Grows m (m.addOwnThreat env p modThreat) := by
  unfold ThreatManager.addOwnThreat
  extract_lets r m₁ m₂
  have h₁ : Grows m m₁ := h.setRef rfl rfl
  have h₂ : Grows m m₂ := by
    rw [show m₂ = if _ then _ else _ from rfl]
    split
    · exact h₁
    · exact h₁.trans (h₁.sound.updateOnlineStatus (h₁.keeps p hp))
  split
  · exact h₂.trans (h₂.sound.threatChange p modThreat)
  · exact h₂

variable {victim : ℕ}

theorem getReferenceByTarget_mem {list : List ℕ} (h : m.getReferenceByTarget list victim = some p) :
    p ∈ list ∧ m.guid p = victim := by
  have hguid := List.find?_some h
  exact ⟨List.mem_of_find?_eq_some h, of_decide_eq_true hguid⟩

theorem find_mem (h : m.find victim = some p) : p ∈ m.refs ∧ m.guid p = victim := by
  rw [find, Option.or_eq_some_iff] at h
  rcases h with h | ⟨-, h⟩
  · exact ⟨List.mem_append_left _ (getReferenceByTarget_mem h).1, (getReferenceByTarget_mem h).2⟩
  · exact ⟨List.mem_append_right _ (getReferenceByTarget_mem h).1, (getReferenceByTarget_mem h).2⟩

theorem guid_ne_of_find (h : m.find victim = none) : ∀ p ∈ m.refs, m.guid p ≠ victim := by
  rw [find, Option.or_eq_none_iff] at h
  intro p hp
  rcases List.mem_append.mp hp with hon | hoff
  · exact fun heq => List.find?_eq_none.mp h.1 p hon (decide_eq_true heq)
  · exact fun heq => List.find?_eq_none.mp h.2 p hoff (decide_eq_true heq)

theorem ref_create_of_ne (h : p ≠ m.nextRef) : (m.create victim).ref p = m.ref p := by
  simp only [create, Function.update_of_ne h]

theorem ref_create_self (m : ThreatManager) (victim : ℕ) :
    (m.create victim).ref m.nextRef = ⟨victim, 0, 0, true, true⟩ := by
  simp only [create, Function.update_self]

theorem Sound.create (h : m.Sound) (hnew : ∀ p ∈ m.refs, m.guid p ≠ victim) :
    Grows m (m.create victim) ∧ m.nextRef ∈ (m.create victim).refs := by
  have hold : ∀ p ∈ m.refs, (m.create victim).ref p = m.ref p :=
    fun p hp => ref_create_of_ne (h.made p hp).ne
  have hperm : (m.create victim).refs.Perm (m.nextRef :: m.refs) := by
    show ((m.online ++ [m.nextRef]) ++ m.offline).Perm _
    rw [List.append_assoc]
    exact List.perm_middle
  have hguids : m.refs.map (m.create victim).guid = m.refs.map m.guid :=
    List.map_congr_left fun p hp => congrArg HostileReference.iUnitGuid (hold p hp)
  have hself : (m.create victim).guid m.nextRef = victim :=
    congrArg HostileReference.iUnitGuid (ref_create_self m victim)
  refine ⟨⟨⟨?_, ?_, ?_, ?_, ?_, ?_⟩, fun p hp => hperm.mem_iff.mpr (List.mem_cons_of_mem _ hp)⟩,
    hperm.mem_iff.mpr List.mem_cons_self⟩
  · rw [(hperm.map _).nodup_iff, List.map_cons, List.nodup_cons, hguids, hself]
    refine ⟨fun hin => ?_, h.guids⟩
    obtain ⟨p, hp, heq⟩ := List.mem_map.mp hin
    exact hnew p hp heq
  · intro p hp
    rcases List.mem_append.mp hp with hon | hlast
    · rw [hold p (List.mem_append_left _ hon)]
      exact h.online p hon
    · rw [List.mem_singleton.mp hlast, ref_create_self]
  · intro p hp
    rw [hold p (List.mem_append_right _ hp)]
    exact h.offline p hp
  · exact fun p hp => List.mem_append_left _ (h.current p hp)
  · intro p hp
    rcases List.mem_cons.mp (hperm.mem_iff.mp hp) with rfl | hp
    · exact Nat.lt_succ_self _
    · exact (h.made p hp).trans (Nat.lt_succ_self _)
  · intro d hd
    obtain ⟨hlt, hnot, hlog⟩ := h.deleted d hd
    refine ⟨hlt.trans (Nat.lt_succ_self _), fun hin => ?_, hlog⟩
    rcases List.mem_cons.mp (hperm.mem_iff.mp hin) with hnew | hin
    · exact hlt.ne hnew
    · exact hnot hin

theorem Sound.withReference (h : m.Sound) (victim : ℕ) {add : ThreatManager → ℕ → ThreatManager}
    (hadd : ∀ m p, Sound m → p ∈ m.refs → Grows m (add m p)) : Grows m (m.withReference env victim add) := by
  rw [ThreatManager.withReference]
  split
  next p hfind => exact hadd m p h (find_mem hfind).1
  next hfind =>
    obtain ⟨hcreated, hin⟩ := h.create (guid_ne_of_find hfind)
    have hadded := hadd _ _ hcreated.sound hin
    split
    · exact (hcreated.trans hadded).trans (hadded.sound.setOnlineOfflineState (hadded.keeps _ hin) false)
    · exact hcreated.trans hadded

theorem Sound.addThreat (h : m.Sound) (hp : p ∈ m.refs) (owners : List ℕ) (modThreat : ℚ) :
    Grows m (addThreat env owners m p modThreat) := by
  induction owners generalizing m p modThreat with
  | nil => exact h.addOwnThreat hp modThreat
  | cons owner owners ih =>
    rw [ThreatManager.addThreat]
    have hown : Grows m (m.addOwnThreat env p modThreat) := h.addOwnThreat hp modThreat
    split
    · exact hown.trans (hown.sound.withReference owner fun m q hm hq => ih hm hq 0)
    · exact hown

theorem Sound.addRefThreat (h : m.Sound) (hp : p ∈ m.refs) (modThreat : ℚ) :
    Grows m (m.addRefThreat env p modThreat) := h.addThreat hp _ modThreat

theorem Sound.addUnitThreat (h : m.Sound) (victim : ℕ) (threat : ℚ) : Grows m (m.addUnitThreat env victim threat) :=
  h.withReference victim fun _ _ hm hq => hm.addThreat hq _ threat

theorem Sound.doAddThreat (h : m.Sound) (victim : ℕ) (threat : ℚ) : Grows m (m.doAddThreat env victim threat) := by
  unfold ThreatManager.doAddThreat
  split
  next redirectTarget percent isValidProcess _ =>
    extract_lets m₁
    have h₁ : Grows m m₁ := by
      rw [show m₁ = if _ then _ else _ from rfl]
      split
      · exact h.addUnitThreat redirectTarget _
      · exact h.refl
    exact h₁.trans (h₁.sound.addUnitThreat victim _)
  · exact h.addUnitThreat victim threat

theorem Sound.addThreatPercent (h : m.Sound) (hp : p ∈ m.refs) (percent : ℤ) :
    Grows m (m.addThreatPercent env p percent) := by
  rw [ThreatManager.addThreatPercent]
  split
  · exact h.refl
  · exact h.addRefThreat hp _

theorem Sound.addTempThreat (h : m.Sound) (hp : p ∈ m.refs) (threat : ℚ) :
    Grows m (m.addTempThreat env p threat) := by
  rw [ThreatManager.addTempThreat]
  have hset := h.setRef (p := p) (r := { m.ref p with iTempThreatModifier := threat }) rfl rfl
  split
  · exact hset.trans (hset.sound.addRefThreat (hset.keeps p hp) threat)
  · exact hset

theorem Sound.resetTempThreat (h : m.Sound) (hp : p ∈ m.refs) : Grows m (m.resetTempThreat env p) := by
  rw [ThreatManager.resetTempThreat]
  split
  · have hback : Grows m (m.addRefThreat env p (-(m.ref p).iTempThreatModifier)) := h.addRefThreat hp _
    exact hback.trans (hback.sound.setRef rfl rfl)
  · exact h.refl

/-! ### The other operations -/

theorem Sound.resetFrom (h : m.Sound) {fuel i : ℕ} (hrun : resetFrom env fuel i m = some m') : Grows m m' := by
  induction fuel generalizing m i with
  | zero => cases hrun
  | succ fuel ih =>
    rw [ThreatManager.resetFrom] at hrun
    split at hrun
    · obtain rfl := Option.some.inj hrun
      exact h.refl
    next p hget =>
      have hp : p ∈ m.refs := List.mem_append_left _ (List.mem_of_getElem? hget)
      have hfirst : Grows m (m.addRefThreat env p (0 - m.threat p)) := h.addRefThreat hp _
      exact hfirst.trans (ih hfirst.sound hrun)

theorem Sound.dirty (h : m.Sound) (dirty : Bool) : Sound { m with iDirty := dirty } :=
  ⟨h.guids, h.online, h.offline, h.current, h.made, h.deleted⟩

theorem Sound.resetAllAggro (h : m.Sound) {fuel : ℕ} (hrun : m.resetAllAggro env fuel = some m') : m'.Sound := by
  rw [ThreatManager.resetAllAggro] at hrun
  split at hrun
  · obtain rfl := Option.some.inj hrun
    exact h
  · obtain ⟨m₁, hfrom, rfl⟩ := Option.map_eq_some_iff.mp hrun
    exact (h.resetFrom hfrom).sound.dirty true

theorem iOnline_setOnlineOfflineState (m : ThreatManager) (p : ℕ) (isOnline : Bool) :
    ((m.setOnlineOfflineState p isOnline).ref p).iOnline = isOnline := by
  rw [ThreatManager.setOnlineOfflineState]
  split
  next heq => exact heq
  · cases isOnline with
    | true => exact congrArg HostileReference.iOnline (setRef_self m p _)
    | false => exact congrArg HostileReference.iOnline (setRef_self m p _)

theorem Sound.removeFromList (h : m.Sound) (hflag : (m.ref p).iOnline = false) :
    (m.removeFromList p).Sound ∧ p ∉ (m.removeFromList p).refs := by
  have hoff : p ∉ m.online := fun hon => by
    rw [h.online p hon] at hflag
    cases hflag
  have hsub : (m.online ++ m.offline.filter fun q => decide (q ≠ p)).Sublist m.refs :=
    (List.Sublist.refl _).append List.filter_sublist
  unfold ThreatManager.removeFromList
  extract_lets m₁
  rw [if_neg (show ¬(m₁.ref p).iOnline = true by rw [show m₁.ref = m.ref from rfl, hflag]; exact Bool.false_ne_true)]
  refine ⟨⟨h.guids.sublist (hsub.map _), h.online, fun q hq => ?_, fun q hq => ?_, fun q hq => ?_, fun q hq => ?_⟩, ?_⟩
  · exact h.offline q (mem_filter_ne hq).1
  · exact h.current q (Option.mem_filter_iff.mp hq).1
  · exact h.made q (hsub.subset hq)
  · obtain ⟨hlt, hnot, hlog⟩ := h.deleted q hq
    exact ⟨hlt, fun hin => hnot (hsub.subset hin), hlog⟩
  · intro hin
    rcases List.mem_append.mp hin with hon | hrest
    · exact hoff hon
    · exact (mem_filter_ne hrest).2 rfl

theorem Sound.removeReference (h : m.Sound) (hp : p ∈ m.refs) :
    (m.removeReference p).Sound ∧ p ∉ (m.removeReference p).refs ∧ (m.removeReference p).deleted = m.deleted ∧
      (m.removeReference p).nextRef = m.nextRef := by
  have hoff : Grows m (m.setOnlineOfflineState p false) := h.setOnlineOfflineState hp false
  have hcut := hoff.sound.setRef (p := p)
    (r := { (m.setOnlineOfflineState p false).ref p with isValid := false }) rfl rfl
  have hflag := (iOnline_setRef (m := m.setOnlineOfflineState p false) (p := p)
    (r := { (m.setOnlineOfflineState p false).ref p with isValid := false }) rfl p).trans
      (iOnline_setOnlineOfflineState m p false)
  obtain ⟨hsound, hgone⟩ := hcut.sound.removeFromList hflag
  have hsame : (m.setOnlineOfflineState p false).deleted = m.deleted ∧
      (m.setOnlineOfflineState p false).nextRef = m.nextRef := by
    rw [ThreatManager.setOnlineOfflineState]
    split <;> exact ⟨rfl, rfl⟩
  refine ⟨hsound, hgone, ?_, ?_⟩
  · rw [← hsame.1, ThreatManager.removeReference, ThreatManager.removeFromList]
    split <;> rfl
  · rw [← hsame.2, ThreatManager.removeReference, ThreatManager.removeFromList]
    split <;> rfl

theorem linked_mem (h : m.linked victim = some p) : p ∈ m.refs := List.mem_of_find?_eq_some h

theorem Sound.deleteReference (h : m.Sound) (victim : ℕ) : (m.deleteReference victim).Sound := by
  rw [ThreatManager.deleteReference]
  split
  next p hlinked =>
    obtain ⟨hsound, hgone, hdeleted, hnext⟩ := h.removeReference (linked_mem hlinked)
    refine ⟨hsound.guids, hsound.online, hsound.offline, hsound.current, hsound.made, fun q hq => ?_⟩
    rcases List.mem_append.mp hq with hold | hnow
    · exact hsound.deleted q (hdeleted.symm ▸ hold)
    · rw [List.mem_singleton.mp hnow]
      refine ⟨hnext.symm ▸ h.made p (linked_mem hlinked), hgone, ?_⟩
      exact iff_of_false Bool.false_ne_true hgone
  · exact h

theorem Sound.clearReferences (h : m.Sound) : m.clearReferences.Sound where
  guids := List.nodup_nil
  online := fun p hp => by cases hp
  offline := fun p hp => by cases hp
  current := fun p hp => by cases hp
  made := fun p hp => by cases hp
  deleted := by
    intro d hd
    rcases List.mem_append.mp hd with hd | hoff
    · rcases List.mem_append.mp hd with hold | hon
      · exact ⟨(h.deleted d hold).1, List.not_mem_nil, (h.deleted d hold).2.2⟩
      · obtain ⟨p, hp, rfl⟩ := List.mem_map.mp hon
        exact ⟨h.made p (List.mem_append_left _ hp), List.not_mem_nil, iff_of_true rfl (List.mem_append_left _ hp)⟩
    · obtain ⟨p, hp, rfl⟩ := List.mem_map.mp hoff
      exact ⟨h.made p (List.mem_append_right _ hp), List.not_mem_nil, iff_of_true rfl hp⟩

theorem update_online_perm (m : ThreatManager) : m.update.online.Perm m.online := by
  show (if m.iDirty then _ else _ : List ℕ).Perm m.online
  split
  · exact List.perm_insertionSort ..
  · exact .refl _

theorem Sound.update (h : m.Sound) : Grows m m.update := by
  have hperm := update_online_perm m
  exact h.of_perm rfl (hperm.symm.append_right m.offline) (fun p hp => h.online p (hperm.mem_iff.mp hp)) h.offline
    (fun p hp => hperm.mem_iff.mpr (h.current p hp)) rfl rfl

theorem scan_mem {sight : Sight} {current : Option ℕ} {second : Bool}
    (h : m.scan sight current second l = .found p) : p ∈ l ∨ p ∈ current := by
  induction l with
  | nil => cases h
  | cons q l ih =>
    have htail : m.scan sight current second l = .found p → p ∈ q :: l ∨ p ∈ current :=
      fun hscan => (ih hscan).imp_left (List.mem_cons_of_mem q)
    have hhead : ThreatManager.Scan.found q = .found p → p ∈ q :: l ∨ p ∈ current := by
      rintro ⟨⟩
      exact .inl List.mem_cons_self
    unfold scan at h
    dsimp only at h
    split at h
    · split at h
      · cases h
      · exact htail h
    · split at h
      · split at h
        · exact hhead h
        · split at h
          · exact hhead h
          · split at h
            · exact hhead h
            · split at h
              · split at h
                · exact hhead h
                · exact htail h
              · cases h
                exact .inr rfl
      · exact htail h

theorem selectNextVictim_mem (h : m.Sound) {sight : Sight} (hp : m.selectNextVictim sight = some p) :
    p ∈ m.online := by
  have hfound : ∀ {second}, m.scan sight (m.iCurrentVictim.filter fun v =>
      sight.acceptable (m.ref v).iUnitGuid && !sight.immune (m.ref v).iUnitGuid) second m.online = .found p →
        p ∈ m.online := by
    intro second hscan
    rcases scan_mem hscan with hin | hcurrent
    · exact hin
    · exact h.current p (Option.mem_filter_iff.mp hcurrent).1
  unfold selectNextVictim at hp
  dsimp only at hp
  split at hp
  · obtain rfl := Option.some.inj hp
    exact hfound ‹_›
  · cases hp
  · split at hp
    · obtain rfl := Option.some.inj hp
      exact hfound ‹_›
    · cases hp

theorem Sound.getHostilTarget (h : m.Sound) (sight : Sight) : (m.getHostilTarget sight).Sound := by
  have hupdate := h.update.sound
  exact ⟨hupdate.guids, hupdate.online, hupdate.offline, fun p hp =>
    selectNextVictim_mem (m := m.update) hupdate hp, hupdate.made,
    hupdate.deleted⟩

variable {op : ℕ → ThreatManager}

theorem Sound.atLinked (h : m.Sound) (victim : ℕ)
    (hop : ∀ p ∈ m.refs, (op p).Sound) : (m.atLinked victim op).Sound := by
  rw [ThreatManager.atLinked]
  split
  next p hlinked => exact hop p (linked_mem hlinked)
  · exact h

theorem Sound.of_getReferenceByTarget (h : m.Sound) {list : List ℕ} (hlist : ∀ p ∈ list, p ∈ m.refs)
    (hop : ∀ p ∈ m.refs, (op p).Sound) :
    (match m.getReferenceByTarget list victim with
      | some p => op p
      | none => m).Sound := by
  split
  next p hget => exact hop p (hlist p (getReferenceByTarget_mem hget).1)
  · exact h

theorem sound_of_step (h : m.Sound) {e : Event} (hstep : m.step e = some m') : m'.Sound := by
  have honline : ∀ p ∈ m.online, p ∈ m.refs := fun p hp => List.mem_append_left _ hp
  cases e with
  | resetAllAggro env fuel => exact h.resetAllAggro hstep
  | doAddThreat env victim threat =>
    obtain rfl := Option.some.inj hstep
    exact (h.doAddThreat victim threat).sound
  | modifyThreatPercent env victim percent =>
    obtain rfl := Option.some.inj hstep
    exact h.of_getReferenceByTarget honline fun p hp => (h.addThreatPercent hp percent).sound
  | tauntApply env taunter =>
    obtain rfl := Option.some.inj hstep
    rw [ThreatManager.tauntApply]
    split
    next v p _ hget =>
      split
      · exact (h.addTempThreat (honline p (getReferenceByTarget_mem hget).1) _).sound
      · exact h
    · exact h
  | tauntFadeOut env taunter =>
    obtain rfl := Option.some.inj hstep
    exact h.of_getReferenceByTarget honline fun p hp => (h.resetTempThreat hp).sound
  | addTempThreat env victim threat =>
    obtain rfl := Option.some.inj hstep
    refine h.atLinked victim fun p hp => ?_
    split
    · exact (h.addTempThreat hp threat).sound
    · exact h
  | resetTempThreat env victim =>
    obtain rfl := Option.some.inj hstep
    exact h.atLinked victim fun p hp => (h.resetTempThreat hp).sound
  | addThreatPercent env victim percent =>
    obtain rfl := Option.some.inj hstep
    exact h.atLinked victim fun p hp => (h.addThreatPercent hp percent).sound
  | setOnlineOfflineState victim isOnline =>
    obtain rfl := Option.some.inj hstep
    exact h.atLinked victim fun p hp => (h.setOnlineOfflineState hp isOnline).sound
  | updateOnlineStatus env victim =>
    obtain rfl := Option.some.inj hstep
    exact h.atLinked victim fun p hp => (h.updateOnlineStatus hp).sound
  | deleteReference victim =>
    obtain rfl := Option.some.inj hstep
    exact h.deleteReference victim
  | clearReferences =>
    obtain rfl := Option.some.inj hstep
    exact h.clearReferences
  | setCurrentVictim victim =>
    rw [step] at hstep
    split at hstep
    next p hget =>
      obtain rfl := Option.some.inj hstep
      refine ⟨h.guids, h.online, h.offline, fun q hq => ?_, h.made, h.deleted⟩
      obtain rfl := Option.some.inj hq
      exact (getReferenceByTarget_mem hget).1
    · obtain rfl := Option.some.inj hstep
      exact h
  | getHostilTarget sight =>
    obtain rfl := Option.some.inj hstep
    exact h.getHostilTarget sight

theorem initial_sound : initial.Sound := by
  refine ⟨List.nodup_nil, ?_, ?_, ?_, ?_, ?_⟩ <;> intro p hp <;> cases hp

/-- One reference for a unit at most, on the list of its status; the current victim is on the online
list; and what is deleted is on no list at that moment, unless the lists are being cleared. -/
theorem consistent_of_reaches (h : Reaches step anyStep (Eq initial) m) :
    ((m.online ++ m.offline).map m.guid).Nodup ∧
      (∀ p ∈ m.online ++ m.offline, p ∈ m.online ↔ (m.ref p).iOnline = true) ∧
      (∀ p ∈ m.iCurrentVictim, p ∈ m.online) ∧
      (∀ p ∈ m.online ++ m.offline, p ∉ (m.removeReference p).online ++ (m.removeReference p).offline) ∧
      ∀ d ∈ m.deleted, d.ref ∉ m.online ++ m.offline ∧
        (d.byClearing = true ↔ d.ref ∈ d.online ++ d.offline) := by
  have hsound : m.Sound := by
    refine h.invariant (fun m hm => ?_) fun m e m' hm _ hstep => sound_of_step hm hstep
    subst hm
    exact initial_sound
  exact ⟨hsound.guids, fun p hp => hsound.mem_online_iff hp, hsound.current,
    fun p hp => (hsound.removeReference hp).2.1, fun d hd => (hsound.deleted d hd).2⟩

def sampleEnv (accessible : ℕ → Bool) : Surroundings where
  owners victim := if victim = 2 then [1] else []
  found _ := true
  accessible := accessible
  isGameMaster _ := false
  redirect _ := none

def sampleSight : Sight := ⟨fun _ => true, fun _ => false, fun _ => false, fun _ => true⟩

/-- The owner of an attacking pet comes back online; another unit is removed. -/
theorem consistent_of_reaches_sample : ∃ m, Reaches step anyStep (Eq initial) m ∧
    m.online = [0, 1] ∧ m.offline = [] ∧ m.deleted.map Deletion.ref = [2] ∧ m.iCurrentVictim = some 0 ∧
    ∀ d ∈ m.deleted, d.ref ∉ m.online ++ m.offline ∧ (d.byClearing = true ↔ d.ref ∈ d.online ++ d.offline) := by
  obtain ⟨m, hm, htest⟩ := Reaches.exists_of_replay step anyStep (rfl : initial = _)
    [.doAddThreat (sampleEnv fun _ => true) 2 10, .setOnlineOfflineState 1 false,
      .doAddThreat (sampleEnv fun _ => true) 3 5, .getHostilTarget sampleSight,
      .doAddThreat (sampleEnv fun _ => true) 2 1, .deleteReference 3]
    (replayOk_anyStep ..)
    (fun m => decide (m.online = [0, 1] ∧ m.offline = [] ∧ m.deleted.map Deletion.ref = [2] ∧
      m.iCurrentVictim = some 0))
    (by decide +kernel)
  obtain ⟨honline, hoffline, hdeleted, hcurrent⟩ := of_decide_eq_true htest
  exact ⟨m, hm, honline, hoffline, hdeleted, hcurrent, (consistent_of_reaches hm).2.2.2.2⟩

/-- An enemy is on the online list when clearing deletes the reference to it. -/
theorem deleted_on_list : ∃ m, Reaches step anyStep (Eq initial) m ∧
    ∃ d ∈ m.deleted, d.ref ∈ d.online := by
  obtain ⟨m, hm, htest⟩ := Reaches.exists_of_replay step anyStep (rfl : initial = _)
    [.doAddThreat (sampleEnv fun _ => true) 2 10, .clearReferences] (replayOk_anyStep ..)
    (fun m => decide (∃ d ∈ m.deleted, d.ref ∈ d.online)) (by decide +kernel)
  exact ⟨m, hm, of_decide_eq_true htest⟩

end ThreatManager

end HysteriaCore.Combat
