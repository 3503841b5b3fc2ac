import HysteriaCore.Reputation.ReputationMgr

/-!
# The counters of the reputations

Every operation keeps the four counters at the numbers of faction states they stand for, as far as
8 bits go.
-/

namespace HysteriaCore.Reputation
open Lib

def FactionState.visible (f : FactionState) : Bool := hasFlag f.Flags FACTION_FLAG_VISIBLE

def Realm.ListIDsDistinct (realm : Realm) : Prop :=
  ∀ e ∈ realm.sFactionStore, ∀ e' ∈ realm.sFactionStore, 0 ≤ e.reputationListID →
    e.reputationListID = e'.reputationListID → e = e'

def Realm.rankOf (realm : Realm) (f : FactionState) : ReputationRank :=
  match realm.sFactionStore.rows.find? fun e => decide (e.reputationListID = f.repListID) with
  | some e => ReputationToRank (realm.getBaseReputation e + f.Standing)
  | none => .hated

def Realm.hasRank (realm : Realm) (rank : ReputationRank) (f : FactionState) : Bool :=
  decide (rank ≤ realm.rankOf f)

structure ReputationMgr.Counts (realm : Realm) (m : ReputationMgr) : Prop where
  visible : m.visibleFactionCount.toNat = m.factions.rows.countP FactionState.visible % 256
  honored : m.honoredFactionCount.toNat = m.factions.rows.countP (realm.hasRank .honored) % 256
  revered : m.reveredFactionCount.toNat = m.factions.rows.countP (realm.hasRank .revered) % 256
  exalted : m.exaltedFactionCount.toNat = m.factions.rows.countP (realm.hasRank .exalted) % 256

/-! ### Flags and ranks -/

theorem hasFlag_or (flags a b : UInt8) (h : a &&& b = 0) : hasFlag (flags ||| a) b = hasFlag flags b := by
  have heq : (flags ||| a) &&& b = flags &&& b := by
    refine UInt8.toBitVec_inj.mp ?_
    have hzero : a.toBitVec &&& b.toBitVec = 0 := UInt8.toBitVec_inj.mpr h
    rw [UInt8.toBitVec_and, UInt8.toBitVec_or, BitVec.and_or_distrib_right, hzero, UInt8.toBitVec_and]
    exact BitVec.or_zero
  rw [hasFlag, hasFlag, heq]

theorem hasFlag_clear (flags a b : UInt8) (h : ~~~a &&& b = b) : hasFlag (flags &&& ~~~a) b = hasFlag flags b := by
  rw [hasFlag, hasFlag, UInt8.and_assoc, h]

theorem hasFlag_or_self (flags : UInt8) : hasFlag (flags ||| FACTION_FLAG_VISIBLE) FACTION_FLAG_VISIBLE = true := by
  refine decide_eq_true fun h => ?_
  have hbits := congrArg UInt8.toBitVec h
  rw [UInt8.toBitVec_and, UInt8.toBitVec_or, BitVec.and_or_distrib_right] at hbits
  have hbit := congrArg (BitVec.getLsbD · 0) hbits
  simp [FACTION_FLAG_VISIBLE] at hbit

namespace FactionState
variable (f : FactionState)

theorem setAtWar_visible (on : Bool) : (f.setAtWar on).visible = f.visible := by
  rw [setAtWar]
  split
  · rfl
  · split
    · rfl
    · cases on with
      | true => exact hasFlag_or _ _ _ (by decide)
      | false => exact hasFlag_clear _ _ _ (by decide)

theorem setAtWar_standing (on : Bool) : (f.setAtWar on).Standing = f.Standing := by
  rw [setAtWar]
  split
  · rfl
  · split <;> rfl

theorem setInactive_visible (on : Bool) : (f.setInactive on).visible = f.visible := by
  rw [setInactive]
  split
  · rfl
  · split
    · rfl
    · cases on with
      | true => exact hasFlag_or _ _ _ (by decide)
      | false => exact hasFlag_clear _ _ _ (by decide)

theorem setInactive_standing (on : Bool) : (f.setInactive on).Standing = f.Standing := by
  rw [setInactive]
  split
  · rfl
  · split <;> rfl

end FactionState

variable {e : FactionEntry}

variable {oldRank newRank : ReputationRank}

section Ranks
variable {realm : Realm}

theorem rankOf_eq (hlist : realm.ListIDsDistinct) (he : e ∈ realm.sFactionStore)
    (hnonneg : 0 ≤ e.reputationListID) {f : FactionState} (hf : f.repListID = e.reputationListID) :
    realm.rankOf f = ReputationToRank (realm.getBaseReputation e + f.Standing) := by
  rw [Realm.rankOf]
  cases hfind : realm.sFactionStore.rows.find? fun e => decide (e.reputationListID = f.repListID) with
  | none =>
    have hnot := List.find?_eq_none.mp hfind e he
    simp [hf] at hnot
  | some e' =>
    have heq := List.find?_some hfind
    have hsame : e.reputationListID = e'.reputationListID := by
      rw [← hf]
      exact (of_decide_eq_true heq).symm
    rw [hlist e he e' (List.mem_of_find?_eq_some hfind) hnonneg hsame]

theorem hasRank_congr {f g : FactionState} (hid : g.repListID = f.repListID) (hstanding : g.Standing = f.Standing)
    (rank : ReputationRank) : realm.hasRank rank g = realm.hasRank rank f := by
  rw [Realm.hasRank, Realm.hasRank, Realm.rankOf, Realm.rankOf, hid, hstanding]

theorem countRank_toNat {rank : ReputationRank} {count : UInt8} {n n' : ℕ}
    (h : count.toNat = n % 256)
    (hn : n' + (if rank ≤ oldRank then 1 else 0) = n + if rank ≤ newRank then 1 else 0) :
    (countRank rank count oldRank newRank).toNat = n' % 256 := by
  rw [countRank]
  have hone : (1 : UInt8).toNat = 1 := rfl
  by_cases hold : rank ≤ oldRank
  · rw [if_pos hold] at hn ⊢
    split at hn
    · rw [if_pos ‹_›, UInt8.toNat_add, UInt8.toNat_sub, hone]
      omega
    · rw [if_neg ‹_›, UInt8.toNat_sub, hone]
      omega
  · rw [if_neg hold] at hn ⊢
    split at hn
    · rw [if_pos ‹_›, UInt8.toNat_add, hone]
      omega
    · rw [if_neg ‹_›]
      omega

end Ranks

/-! ### One faction state changes -/

namespace ReputationMgr
variable {realm : Realm} {m : ReputationMgr}

structure Sound (realm : Realm) (m : ReputationMgr) : Prop extends Counts realm m where
  nonneg : ∀ f ∈ m.factions, 0 ≤ f.repListID

theorem Sound.of_eq {m' : ReputationMgr} (h : m.Sound realm) (hfactions : m'.factions = m.factions)
    (hvisible : m'.visibleFactionCount = m.visibleFactionCount)
    (hhonored : m'.honoredFactionCount = m.honoredFactionCount)
    (hrevered : m'.reveredFactionCount = m.reveredFactionCount)
    (hexalted : m'.exaltedFactionCount = m.exaltedFactionCount) : m'.Sound realm where
  visible := by rw [hvisible, hfactions]; exact h.visible
  honored := by rw [hhonored, hfactions]; exact h.honored
  revered := by rw [hrevered, hfactions]; exact h.revered
  exalted := by rw [hexalted, hfactions]; exact h.exalted
  nonneg := by rw [hfactions]; exact h.nonneg

theorem nonneg_modifyState (h : ∀ f ∈ m.factions, 0 ≤ f.repListID) (id : ℤ) (g : FactionState → FactionState)
    (hg : ∀ f, (g f).repListID = f.repListID) : ∀ f ∈ (m.modifyState id g hg).factions, 0 ≤ f.repListID := by
  intro f hf
  obtain ⟨f', hf', rfl⟩ := (m.factions.mem_adjust id g hg f).mp hf
  have hold := h f' hf'
  split
  · rw [hg]
    exact hold
  · exact hold

variable {g : FactionState → FactionState}

theorem countRank_modifyState (id : ℤ) (hg : ∀ f, (g f).repListID = f.repListID)
    (hstanding : ∀ f, (g f).Standing = f.Standing) (rank : ReputationRank) :
    m.factions.rows.countP (realm.hasRank rank) =
      (m.modifyState id g hg).factions.rows.countP (realm.hasRank rank) :=
  (m.factions.countP_adjust_same _ id g hg fun f => hasRank_congr (hg f) (hstanding f) rank).symm

theorem Sound.modifyState (h : m.Sound realm) (id : ℤ)
    (hg : ∀ f, (g f).repListID = f.repListID) (hvisible : ∀ f, (g f).visible = f.visible)
    (hstanding : ∀ f, (g f).Standing = f.Standing) : (m.modifyState id g hg).Sound realm where
  visible := h.visible.trans (congrArg (· % 256) (m.factions.countP_adjust_same _ id g hg hvisible).symm)
  honored := h.honored.trans (congrArg (· % 256) (countRank_modifyState id hg hstanding _))
  revered := h.revered.trans (congrArg (· % 256) (countRank_modifyState id hg hstanding _))
  exalted := h.exalted.trans (congrArg (· % 256) (countRank_modifyState id hg hstanding _))
  nonneg := nonneg_modifyState h.nonneg id g hg

theorem Sound.setAtWar (h : m.Sound realm) (id : ℤ) (on : Bool) : (m.setAtWar id on).Sound realm := by
  rw [ReputationMgr.setAtWar]
  split
  · exact h
  · split
    · exact h
    · exact h.modifyState id _ (fun f => f.setAtWar_visible on) fun f => f.setAtWar_standing on

theorem Sound.setInactive (h : m.Sound realm) (id : ℤ) (on : Bool) : (m.setInactive id on).Sound realm :=
  h.modifyState id _ (fun f => f.setInactive_visible on) fun f => f.setInactive_standing on

theorem Sound.showState (h : m.Sound realm) (id : ℤ) : (m.showState id).Sound realm := by
  rw [ReputationMgr.showState]
  split
  · exact h
  next f hfind =>
    split
    · exact h
    next hshow =>
      obtain ⟨hf, rfl⟩ := (m.factions.find?_eq_some_iff _ f).mp hfind
      have hhidden : f.visible = false := Bool.eq_false_of_not_eq_true (not_or.mp hshow).2
      have hcount := m.factions.countP_adjust FactionState.visible hf FactionState.setVisible fun _ => rfl
      have hshown : f.setVisible.visible = true := hasFlag_or_self f.Flags
      rw [hhidden, hshown, if_neg Bool.false_ne_true, if_pos rfl] at hcount
      have hone : (1 : UInt8).toNat = 1 := rfl
      have hvisible := h.visible
      have hrank : ∀ rank, m.factions.rows.countP (realm.hasRank rank) =
          (m.modifyState f.repListID FactionState.setVisible fun _ => rfl).factions.rows.countP (realm.hasRank rank) :=
        countRank_modifyState f.repListID (g := FactionState.setVisible) (fun _ => rfl) fun _ => rfl
      exact
        { visible := by
            show (m.visibleFactionCount + 1).toNat =
              (m.factions.adjust f.repListID FactionState.setVisible fun _ => rfl).rows.countP _ % 256
            rw [UInt8.toNat_add, hone]
            omega
          honored := h.honored.trans (congrArg (· % 256) (hrank _))
          revered := h.revered.trans (congrArg (· % 256) (hrank _))
          exalted := h.exalted.trans (congrArg (· % 256) (hrank _))
          nonneg := nonneg_modifyState h.nonneg f.repListID FactionState.setVisible fun _ => rfl }

theorem Sound.setStanding (h : m.Sound realm) {f : FactionState} (hf : f ∈ m.factions)
    (hg : ∀ f, (g f).repListID = f.repListID)
    (hvisible : ∀ f, (g f).visible = f.visible)
    (hold : realm.rankOf f = oldRank) (hnew : realm.rankOf (g f) = newRank) :
    ((m.modifyState f.repListID g hg).updateRankCounters oldRank newRank).Sound realm := by
  have hcount : ∀ rank, (m.factions.adjust f.repListID g hg).rows.countP (realm.hasRank rank) +
      (if rank ≤ oldRank then 1 else 0) =
        m.factions.rows.countP (realm.hasRank rank) + if rank ≤ newRank then 1 else 0 := by
    intro rank
    have hsum := m.factions.countP_adjust (realm.hasRank rank) hf g hg
    rw [Realm.hasRank, Realm.hasRank, hold, hnew] at hsum
    simpa only [decide_eq_true_eq] using hsum
  exact
    { visible := h.visible.trans (congrArg (· % 256) (m.factions.countP_adjust_same _ _ g hg hvisible).symm)
      honored := countRank_toNat h.honored (hcount _)
      revered := countRank_toNat h.revered (hcount _)
      exalted := countRank_toNat h.exalted (hcount _)
      nonneg := nonneg_modifyState h.nonneg f.repListID g hg }

theorem showState_updateRankCounters (id : ℤ) (oldRank newRank : ReputationRank) :
    (m.showState id).updateRankCounters oldRank newRank = (m.updateRankCounters oldRank newRank).showState id := by
  unfold ReputationMgr.showState updateRankCounters
  dsimp only
  split
  · rfl
  · split <;> rfl

theorem Sound.setOneFactionReputation (hlist : realm.ListIDsDistinct) (h : m.Sound realm)
    (he : e ∈ realm.sFactionStore) (standing : Int32) (incremental : Bool) :
    (m.setOneFactionReputation realm e standing incremental).1.Sound realm := by
  unfold ReputationMgr.setOneFactionReputation
  split
  · exact h
  next f hfind =>
    obtain ⟨hf, hid⟩ := (m.factions.find?_eq_some_iff _ f).mp hfind
    have hnonneg : 0 ≤ e.reputationListID := hid ▸ h.nonneg f hf
    dsimp only
    obtain ⟨new, hnew⟩ : ∃ new, new = newStanding realm e f standing incremental := ⟨_, rfl⟩
    rw [← hnew]
    have hold : realm.rankOf f = ReputationToRank (f.Standing + realm.getBaseReputation e) := by
      rw [rankOf_eq hlist he hnonneg hid, Int32.add_comm]
    have hnewRank : realm.rankOf (f.setStanding (new - realm.getBaseReputation e)) = ReputationToRank new := by
      rw [rankOf_eq hlist he hnonneg (show (f.setStanding _).repListID = _ from hid), Int32.add_comm]
      exact congrArg ReputationToRank (Int32.sub_add_cancel new _)
    have hset := h.setStanding hf (g := fun f => f.setStanding (new - realm.getBaseReputation e))
      (fun _ => rfl) (fun _ => rfl) hold hnewRank
    rw [hid] at hset
    have hshown := hset.showState e.reputationListID
    have hwar := hshown.modifyState e.reputationListID (fun f => f.setAtWar_repListID true)
      (fun f => f.setAtWar_visible true) fun f => f.setAtWar_standing true
    rw [← showState_updateRankCounters] at hshown hwar
    split
    · split
      · exact hwar.of_eq rfl rfl rfl rfl rfl
      · exact hshown.of_eq rfl rfl rfl rfl rfl
    · split
      · exact hwar.of_eq rfl rfl rfl rfl rfl
      · exact hshown

theorem Sound.setVisible (h : m.Sound realm) (e : FactionEntry) : (m.setVisible e).Sound realm := by
  rw [ReputationMgr.setVisible]
  split
  · exact h
  · exact h.showState e.reputationListID

theorem Sound.setVisibleTemplate (h : m.Sound realm) (t : FactionTemplateEntry) :
    (m.setVisibleTemplate realm t).Sound realm := by
  rw [ReputationMgr.setVisibleTemplate]
  split
  · exact h
  · split
    · exact h
    · split
      · exact h
      · exact h.setVisible _

/-! ### Spillover -/

theorem Sound.sendState (h : m.Sound realm) : m.sendState.Sound realm where
  visible := by
    show _ = (m.factions.rows.map _).countP _ % 256
    rw [List.countP_map]
    exact h.visible
  honored := by
    show _ = (m.factions.rows.map _).countP _ % 256
    rw [List.countP_map]
    exact h.honored
  revered := by
    show _ = (m.factions.rows.map _).countP _ % 256
    rw [List.countP_map]
    exact h.revered
  exalted := by
    show _ = (m.factions.rows.map _).countP _ % 256
    rw [List.countP_map]
    exact h.exalted
  nonneg := by
    intro f hf
    obtain ⟨f', hf', rfl⟩ := List.mem_map.mp hf
    exact h.nonneg f' hf'

theorem lookupEntry_mem {id : ℕ} (h : realm.lookupEntry id = some e) : e ∈ realm.sFactionStore :=
  ((realm.sFactionStore.find?_eq_some_iff id e).mp h).1

variable {s : ReputationMgr × Bool}

theorem Sound.spillTemplate (hlist : realm.ListIDsDistinct) (h : s.1.Sound realm)
    (standing : Int32) (incremental : Bool) (t : SpilloverFaction) :
    (ReputationMgr.spillTemplate realm standing incremental s t).1.Sound realm := by
  rw [ReputationMgr.spillTemplate]
  split
  · split
    next e hlookup => exact h.setOneFactionReputation hlist (lookupEntry_mem hlookup) _ _
    · exact h
  · exact h

theorem Sound.spillSister (hlist : realm.ListIDsDistinct) (h : s.1.Sound realm)
    (giver : Option FactionEntry) (id : ℕ) (standing : Int32) (incremental : Bool) (sister : ℕ) :
    (ReputationMgr.spillSister realm giver id standing incremental s sister).1.Sound realm := by
  unfold ReputationMgr.spillSister
  split
  · exact h
  next e hlookup =>
    split
    · exact h
    · dsimp only
      split
      · exact h.setOneFactionReputation hlist (lookupEntry_mem hlookup) _ _
      · exact h

theorem Sound.spillTeam (hlist : realm.ListIDsDistinct) (h : m.Sound realm) (e : FactionEntry)
    (standing : Int32) (incremental : Bool) : (m.spillTeam realm e standing incremental).1.Sound realm := by
  have hsisters : ∀ giver (flist : List ℕ),
      (flist.foldl (ReputationMgr.spillSister realm giver e.ID standing incremental) (m, false)).1.Sound realm :=
    fun giver flist => foldl_invariant (I := fun s : ReputationMgr × Bool => s.1.Sound realm)
      (fun s sister hs => hs.spillSister hlist giver e.ID standing incremental sister) flist h
  rw [ReputationMgr.spillTeam]
  split
  · exact hsisters _ _
  · split
    · split
      · exact h
      next parent hlookup =>
        split
        · exact h.setOneFactionReputation hlist (lookupEntry_mem hlookup) _ _
        · split
          · exact hsisters _ _
          · exact h
    · exact h

def spillover (realm : Realm) (m : ReputationMgr) (e : FactionEntry) (standing : Int32) (incremental : Bool) :
    ReputationMgr × Bool :=
  match realm.repSpilloverTemplate e.ID with
  | some template => template.foldl (spillTemplate realm standing incremental) (m, false)
  | none => m.spillTeam realm e standing incremental

theorem Sound.spillover (hlist : realm.ListIDsDistinct) (h : m.Sound realm) (e : FactionEntry)
    (standing : Int32) (incremental : Bool) : (ReputationMgr.spillover realm m e standing incremental).1.Sound realm := by
  rw [ReputationMgr.spillover]
  split
  next template _ =>
    exact foldl_invariant (I := fun s : ReputationMgr × Bool => s.1.Sound realm)
      (fun s t hs => hs.spillTemplate hlist standing incremental t) template h
  · exact h.spillTeam hlist e standing incremental

theorem Sound.setReputation (hlist : realm.ListIDsDistinct) (h : m.Sound realm)
    (he : e ∈ realm.sFactionStore) (standing : Int32) (incremental spillOverOnly : Bool) :
    (m.setReputation realm e standing incremental spillOverOnly).1.Sound realm := by
  have hspill := h.spillover hlist e standing incremental
  unfold ReputationMgr.setReputation
  dsimp only
  split
  · exact hspill
  · split
    · exact hspill.sendState
    · exact (hspill.setOneFactionReputation hlist he standing incremental).sendState

/-! ### Loading -/

theorem find?_modifyState_of_ne {id id' : ℤ} (hne : id' ≠ id) (g : FactionState → FactionState)
    (hg : ∀ f, (g f).repListID = f.repListID) :
    (m.modifyState id g hg).factions.find? id' = m.factions.find? id' := by
  rw [ReputationMgr.modifyState, m.factions.find?_adjust id id' g hg]
  cases m.factions.find? id' with
  | none => rfl
  | some f => rw [Option.map_some, if_neg hne]

theorem find?_modifyState_self (id : ℤ) (g : FactionState → FactionState)
    (hg : ∀ f, (g f).repListID = f.repListID) :
    (m.modifyState id g hg).factions.find? id = (m.factions.find? id).map g := by
  rw [ReputationMgr.modifyState, m.factions.find?_adjust id id g hg]
  cases m.factions.find? id with
  | none => rfl
  | some f => rw [Option.map_some, Option.map_some, if_pos rfl]

theorem isSome_modifyState (id id' : ℤ) (g : FactionState → FactionState)
    (hg : ∀ f, (g f).repListID = f.repListID) :
    ((m.modifyState id g hg).factions.find? id').isSome = (m.factions.find? id').isSome := by
  rw [ReputationMgr.modifyState, m.factions.find?_adjust id id' g hg, Option.isSome_map]

/-- A change under one key only: the others are as before, and no element goes or comes. -/
structure OnlyAt (id : ℤ) (m m' : ReputationMgr) : Prop where
  others : ∀ id', id' ≠ id → m'.factions.find? id' = m.factions.find? id'
  keys : ∀ id', (m'.factions.find? id').isSome = (m.factions.find? id').isSome

theorem OnlyAt.refl (id : ℤ) (m : ReputationMgr) : OnlyAt id m m := ⟨fun _ _ => rfl, fun _ => rfl⟩

theorem OnlyAt.trans {id : ℤ} {m₁ m₂ m₃ : ReputationMgr} (h : OnlyAt id m₁ m₂) (h' : OnlyAt id m₂ m₃) :
    OnlyAt id m₁ m₃ where
  others id' hne := (h'.others id' hne).trans (h.others id' hne)
  keys id' := (h'.keys id').trans (h.keys id')

theorem OnlyAt.modifyState (id : ℤ) (g : FactionState → FactionState) (hg : ∀ f, (g f).repListID = f.repListID) :
    OnlyAt id m (m.modifyState id g hg) :=
  ⟨fun _ hne => find?_modifyState_of_ne hne g hg, fun id' => isSome_modifyState id id' g hg⟩

theorem OnlyAt.showState (id : ℤ) : OnlyAt id m (m.showState id) := by
  rw [ReputationMgr.showState]
  split
  · exact .refl id m
  · split
    · exact .refl id m
    · have h : OnlyAt id m (m.modifyState id FactionState.setVisible fun _ => rfl) := .modifyState id _ _
      exact ⟨h.others, h.keys⟩

theorem OnlyAt.loadFlags (realm : Realm) (m : ReputationMgr) (e : FactionEntry) (flags : UInt16) :
    OnlyAt e.reputationListID m (m.loadFlags realm e flags) := by
  unfold ReputationMgr.loadFlags
  extract_lets id m₁ m₂ on m₃ m₄
  have h₁ : OnlyAt id m m₁ := by
    rw [show m₁ = if _ then _ else _ from rfl]
    split
    · exact .showState id
    · exact .refl id m
  have h₂ : OnlyAt id m m₂ := by
    rw [show m₂ = if _ then _ else _ from rfl]
    split
    · exact h₁.trans (.modifyState id _ _)
    · exact h₁
  have h₃ : OnlyAt id m m₃ := by
    rw [show m₃ = if _ then _ else _ from rfl]
    split
    · exact h₂.trans (.modifyState id _ _)
    · split
      · exact h₂.trans (.modifyState id _ _)
      · exact h₂
  have h₄ : OnlyAt id m m₄ := by
    rw [show m₄ = if _ then _ else _ from rfl]
    split
    · exact h₃.trans (.modifyState id _ _)
    · exact h₃
  exact h₄.trans (.modifyState id _ _)

theorem OnlyAt.setRow (realm : Realm) (m : ReputationMgr) (e : FactionEntry) (row : Row) :
    OnlyAt e.reputationListID m
      ((((m.modifyState e.reputationListID (fun f => { f with Standing := row.standing }) fun _ => rfl).updateRankCounters
        (realm.getBaseRank e) (ReputationToRank (realm.getBaseReputation e + row.standing))).loadFlags realm e
        row.flags)) := by
  have hset : OnlyAt e.reputationListID m
      (m.modifyState e.reputationListID (fun f => { f with Standing := row.standing }) fun _ => rfl) := .modifyState _ _ _
  have hload := OnlyAt.loadFlags realm ((m.modifyState e.reputationListID
    (fun f => { f with Standing := row.standing }) fun _ => rfl).updateRankCounters (realm.getBaseRank e)
      (ReputationToRank (realm.getBaseReputation e + row.standing))) e row.flags
  exact hset.trans ⟨hload.others, hload.keys⟩

theorem Sound.loadFlags (h : m.Sound realm) (e : FactionEntry) (flags : UInt16) :
    (m.loadFlags realm e flags).Sound realm := by
  unfold ReputationMgr.loadFlags
  extract_lets id m₁ m₂ on m₃ m₄
  have h₁ : m₁.Sound realm := by
    rw [show m₁ = if _ then _ else _ from rfl]
    split
    · exact h.showState id
    · exact h
  have h₂ : m₂.Sound realm := by
    rw [show m₂ = if _ then _ else _ from rfl]
    split
    · exact h₁.setInactive id true
    · exact h₁
  have hwar : ∀ {m' : ReputationMgr}, m'.Sound realm → ∀ on,
      (m'.modifyState id (fun f => f.setAtWar on) fun f => f.setAtWar_repListID on).Sound realm :=
    fun h' on => h'.modifyState id _ (fun f => f.setAtWar_visible on) fun f => f.setAtWar_standing on
  have h₃ : m₃.Sound realm := by
    rw [show m₃ = if _ then _ else _ from rfl]
    split
    · exact hwar h₂ _
    · split
      · exact hwar h₂ false
      · exact h₂
  have h₄ : m₄.Sound realm := by
    rw [show m₄ = if _ then _ else _ from rfl]
    split
    · exact hwar h₃ true
    · exact h₃
  refine h₄.modifyState id _ (fun f => ?_) fun f => ?_
  · split <;> rfl
  · split <;> rfl

/-- While rows are read: every faction has its state, and those of the rows to come are at 0. -/
structure Loading (realm : Realm) (rows : List Row) (m : ReputationMgr) : Prop where
  sound : m.Sound realm
  states : ∀ e ∈ realm.sFactionStore, 0 ≤ e.reputationListID →
    (m.factions.find? e.reputationListID).isSome = true
  fresh : ∀ row ∈ rows, ∀ e, realm.lookupEntry row.faction = some e → 0 ≤ e.reputationListID →
    ∀ f, m.factions.find? e.reputationListID = some f → f.Standing = 0

variable {rows : List Row}

theorem Loading.loadRow (hlist : realm.ListIDsDistinct) {row : Row}
    (hrow : row.faction ∉ rows.map Row.faction) (h : m.Loading realm (row :: rows)) :
    (m.loadRow realm row).Loading realm rows := by
  have hrest : m.Loading realm rows := ⟨h.sound, h.states, fun r hr => h.fresh r (List.mem_cons_of_mem _ hr)⟩
  unfold ReputationMgr.loadRow
  split
  · exact hrest
  next e hlookup =>
    split
    next hnonneg =>
      have he := lookupEntry_mem hlookup
      have hsome := h.states e he hnonneg
      obtain ⟨f, hfind⟩ := Option.isSome_iff_exists.mp hsome
      obtain ⟨hf, hid⟩ := (m.factions.find?_eq_some_iff _ f).mp hfind
      have hzero := h.fresh row List.mem_cons_self e hlookup hnonneg f hfind
      rw [touch, if_pos hsome]
      dsimp only
      -- the base rank is the rank of the state before the row
      have hold : realm.rankOf f = realm.getBaseRank e := by
        rw [rankOf_eq hlist he hnonneg hid, hzero, Int32.add_zero]
        rfl
      have hnew : realm.rankOf { f with Standing := row.standing } =
          ReputationToRank (realm.getBaseReputation e + row.standing) :=
        rankOf_eq hlist he hnonneg (show FactionState.repListID { f with Standing := row.standing } = _ from hid)
      have hset := h.sound.setStanding hf (g := fun f => { f with Standing := row.standing })
        (fun _ => rfl) (fun _ => rfl) hold hnew
      rw [hid] at hset
      have hall := OnlyAt.setRow realm m e row
      refine ⟨hset.loadFlags e row.flags, fun e' he' hnonneg' => (hall.keys _).trans (h.states e' he' hnonneg'), ?_⟩
      intro r hr e' hlookup' hnonneg' f' hfind'
      refine h.fresh r (List.mem_cons_of_mem _ hr) e' hlookup' hnonneg' f' ?_
      rw [← hall.others]
      · exact hfind'
      · intro heq
        have hsame := hlist e' (lookupEntry_mem hlookup') e he hnonneg' heq
        have hfaction := ((realm.sFactionStore.find?_eq_some_iff _ e).mp hlookup).2
        have hfaction' := ((realm.sFactionStore.find?_eq_some_iff _ e').mp hlookup').2
        rw [hsame, hfaction] at hfaction'
        exact hrow (hfaction' ▸ List.mem_map_of_mem hr)
    · exact hrest

theorem Loading.loadRows (hlist : realm.ListIDsDistinct)
    (hrows : (rows.map Row.faction).Nodup) (h : m.Loading realm rows) :
    (rows.foldl (ReputationMgr.loadRow realm) m).Sound realm := by
  induction rows generalizing m with
  | nil => exact h.sound
  | cons row rows ih =>
    rw [List.map_cons, List.nodup_cons] at hrows
    exact ih hrows.2 (h.loadRow hlist hrows.1)

def startState (realm : Realm) (e : FactionEntry) : FactionState :=
  ⟨e.reputationListID, 0, (realm.getDefaultStateFlags e).toUInt8, true, true⟩

/-- After the first factions of the store: they have a state at 0, and nothing else has one. -/
structure Initializing (realm : Realm) (done : List FactionEntry) (m : ReputationMgr) : Prop where
  sound : m.Sound realm
  states : ∀ e ∈ done, 0 ≤ e.reputationListID → ∃ f ∈ m.factions, f.repListID = e.reputationListID
  fresh : ∀ f ∈ m.factions, f.Standing = 0 ∧ ∃ e ∈ done, e.reputationListID = f.repListID

theorem Initializing.next (hlist : realm.ListIDsDistinct) (hids : ∀ e ∈ realm.sFactionStore, e.ID ≠ 0)
    {done : List FactionEntry} {todo : List FactionEntry}
    (hrows : done ++ e :: todo = realm.sFactionStore.rows) (h : m.Initializing realm done) :
    (m.initializeFaction realm e).Initializing realm (done ++ [e]) := by
  have he : e ∈ realm.sFactionStore := by
    show e ∈ realm.sFactionStore.rows
    rw [← hrows]
    exact List.mem_append_right _ List.mem_cons_self
  unfold initializeFaction
  by_cases hnonneg : 0 ≤ e.reputationListID
  · rw [if_pos ⟨hids e he, hnonneg⟩]
    obtain ⟨f, hf⟩ : ∃ f, f = startState realm e := ⟨_, rfl⟩
    have hid : f.repListID = e.reputationListID := by
      rw [hf]
      rfl
    have hnew : ∀ f' ∈ m.factions, f'.repListID ≠ f.repListID := by
      intro f' hf' heq
      obtain ⟨-, e', he', hid'⟩ := h.fresh f' hf'
      have hmem : e' ∈ realm.sFactionStore.rows := hrows ▸ List.mem_append_left _ he'
      have hsame := hlist e he e' hmem hnonneg (hid.symm.trans (heq.symm.trans hid'.symm))
      have hnodup := realm.sFactionStore.nodup
      rw [← hrows] at hnodup
      exact (List.nodup_append.mp hnodup).2.2 e' he' e List.mem_cons_self hsame.symm
    have hrank : realm.rankOf f = realm.getBaseRank e := by
      rw [rankOf_eq hlist he hnonneg hid, hf]
      exact congrArg ReputationToRank (Int32.add_zero _)
    have hcount : ∀ {rank count}, ReputationRank.hostile < rank →
        count.toNat = m.factions.rows.countP (realm.hasRank rank) % 256 →
        (countRank rank count .hostile (realm.getBaseRank e)).toNat =
          (m.factions.put f).rows.countP (realm.hasRank rank) % 256 := by
      intro rank count hlt hcount
      refine countRank_toNat hcount ?_
      rw [m.factions.countP_put_of_new _ hnew, Realm.hasRank, hrank, if_neg (show ¬rank ≤ .hostile from Nat.not_le_of_lt hlt)]
      simp only [decide_eq_true_eq, Nat.add_zero]
    have hstart : (⟨e.reputationListID, 0, (realm.getDefaultStateFlags e).toUInt8, true, true⟩ : FactionState) = f :=
      hf.symm
    dsimp only
    rw [hstart]
    refine ⟨⟨⟨?_, hcount (by decide) h.sound.honored, hcount (by decide) h.sound.revered,
      hcount (by decide) h.sound.exalted⟩, ?_⟩, ?_, ?_⟩
    · have hvisible := h.sound.visible
      have hone : (1 : UInt8).toNat = 1 := rfl
      rw [m.factions.countP_put_of_new _ hnew, show f.visible = hasFlag (realm.getDefaultStateFlags e).toUInt8
        FACTION_FLAG_VISIBLE by rw [hf]; rfl]
      split
      · rw [UInt8.toNat_add, hone]
        omega
      · exact hvisible
    · intro f' hf'
      rcases (m.factions.mem_put f f').mp hf' with rfl | ⟨hold, -⟩
      · exact hid ▸ hnonneg
      · exact h.sound.nonneg f' hold
    · intro e' he' hnonneg'
      rcases List.mem_append.mp he' with hdone | hnow
      · obtain ⟨f', hf', hid'⟩ := h.states e' hdone hnonneg'
        exact ⟨f', (m.factions.mem_put f f').mpr (.inr ⟨hf', hnew f' hf'⟩), hid'⟩
      · rw [List.mem_singleton.mp hnow]
        exact ⟨f, (m.factions.mem_put f f).mpr (.inl rfl), hid⟩
    · intro f' hf'
      rcases (m.factions.mem_put f f').mp hf' with rfl | ⟨hold, -⟩
      · exact ⟨congrArg FactionState.Standing hf, e, List.mem_append_right _ List.mem_cons_self, hid.symm⟩
      · obtain ⟨hzero, e', he', hid'⟩ := h.fresh f' hold
        exact ⟨hzero, e', List.mem_append_left _ he', hid'⟩
  · rw [if_neg fun hboth => hnonneg hboth.2]
    refine ⟨h.sound, fun e' he' hnonneg' => ?_, fun f hf => ?_⟩
    · rcases List.mem_append.mp he' with hdone | hnow
      · exact h.states e' hdone hnonneg'
      · rw [List.mem_singleton.mp hnow] at hnonneg'
        exact absurd hnonneg' hnonneg
    · obtain ⟨hzero, e', he', hid'⟩ := h.fresh f hf
      exact ⟨hzero, e', List.mem_append_left _ he', hid'⟩

theorem Initializing.all (hlist : realm.ListIDsDistinct) (hids : ∀ e ∈ realm.sFactionStore, e.ID ≠ 0)
    {done todo : List FactionEntry} (hrows : done ++ todo = realm.sFactionStore.rows)
    (h : m.Initializing realm done) :
    (todo.foldl (initializeFaction realm) m).Initializing realm realm.sFactionStore.rows := by
  induction todo generalizing done m with
  | nil =>
    rw [List.append_nil] at hrows
    exact hrows ▸ h
  | cons e todo ih => exact ih (by rw [List.append_assoc]; exact hrows) (h.next hlist hids hrows)

theorem initialize_initializing (hlist : realm.ListIDsDistinct) (hids : ∀ e ∈ realm.sFactionStore, e.ID ≠ 0) :
    (Initialize realm).Initializing realm realm.sFactionStore.rows := by
  refine Initializing.all hlist hids (List.nil_append _) ⟨⟨⟨rfl, rfl, rfl, rfl⟩, ?_⟩, ?_, ?_⟩
  · intro f hf
    cases hf
  · intro e he
    cases he
  · intro f hf
    cases hf

theorem foldl_initializeFaction_rows {todo : List FactionEntry}
    (hplaces : ∀ e ∈ todo, e.ID ≠ 0 ∧ 0 ≤ e.reputationListID)
    (hdistinct : (todo.map FactionEntry.reputationListID).Nodup)
    (hnew : ∀ f ∈ m.factions, ∀ e ∈ todo, f.repListID ≠ e.reputationListID) :
    (todo.foldl (initializeFaction realm) m).factions.rows = m.factions.rows ++ todo.map (startState realm) := by
  induction todo generalizing m with
  | nil => exact (List.append_nil _).symm
  | cons e todo ih =>
    rw [List.map_cons, List.nodup_cons] at hdistinct
    have hput : (m.initializeFaction realm e).factions = m.factions.put (startState realm e) := by
      rw [initializeFaction, if_pos (hplaces e List.mem_cons_self)]
      rfl
    have hrows : (m.factions.put (startState realm e)).rows = m.factions.rows ++ [startState realm e] :=
      m.factions.rows_put_of_new fun f hf => hnew f hf e List.mem_cons_self
    rw [List.foldl_cons, ih (fun e' he' => hplaces e' (List.mem_cons_of_mem _ he')) hdistinct.2, hput, hrows,
      List.append_assoc]
    · rfl
    · intro f hf e' he'
      rw [hput] at hf
      rcases (m.factions.mem_put _ f).mp hf with rfl | ⟨hold, -⟩
      · exact fun heq => hdistinct.1 (List.mem_map.mpr ⟨e', he', heq.symm⟩)
      · exact hnew f hold e' (List.mem_cons_of_mem _ he')

theorem Initializing.loading (h : m.Initializing realm realm.sFactionStore.rows) (rows : List Row) :
    m.Loading realm rows where
  sound := h.sound
  states e he hnonneg := by
    obtain ⟨f, hf, hid⟩ := h.states e he hnonneg
    exact Option.isSome_iff_exists.mpr ⟨f, (m.factions.find?_eq_some_iff _ f).mpr ⟨hf, hid⟩⟩
  fresh row _ e _ _ f hfind := (h.fresh f ((m.factions.find?_eq_some_iff _ f).mp hfind).1).1

theorem loadFromDB_sound (hlist : realm.ListIDsDistinct) (hids : ∀ e ∈ realm.sFactionStore, e.ID ≠ 0)
    (hrows : (rows.map Row.faction).Nodup) : (loadFromDB realm rows).Sound realm :=
  ((initialize_initializing hlist hids).loading rows).loadRows hlist hrows

/-! ### Runs -/

theorem sound_of_step (hlist : realm.ListIDsDistinct) (hids : ∀ e ∈ realm.sFactionStore, e.ID ≠ 0)
    (h : m.Sound realm) {event : Event} {m' : ReputationMgr} (hstep : step realm m event = some m') :
    m'.Sound realm := by
  cases event with
  | loadFromDB rows =>
    obtain ⟨hrows, rfl⟩ := guarded_eq_some.mp hstep
    exact loadFromDB_sound hlist hids hrows
  | setReputation faction standing incremental spillOverOnly =>
    obtain ⟨e, hlookup, rfl⟩ := Option.map_eq_some_iff.mp hstep
    exact h.setReputation hlist (lookupEntry_mem hlookup) standing incremental spillOverOnly
  | setOneFactionReputation faction standing incremental =>
    obtain ⟨e, hlookup, rfl⟩ := Option.map_eq_some_iff.mp hstep
    exact h.setOneFactionReputation hlist (lookupEntry_mem hlookup) standing incremental
  | setVisible faction =>
    obtain ⟨e, hlookup, rfl⟩ := Option.map_eq_some_iff.mp hstep
    exact h.setVisible e
  | setVisibleTemplate t =>
    obtain rfl := Option.some.inj hstep
    exact h.setVisibleTemplate t
  | setAtWar id on =>
    obtain rfl := Option.some.inj hstep
    exact h.setAtWar id on
  | setInactive id on =>
    obtain rfl := Option.some.inj hstep
    exact h.setInactive id on

theorem newStanding_bounds (e : FactionEntry) (f : FactionState) (standing : Int32) (incremental : Bool) :
    Reputation_Bottom ≤ newStanding realm e f standing incremental ∧
      newStanding realm e f standing incremental ≤ Reputation_Cap := by
  unfold newStanding
  extract_lets new
  split
  · exact ⟨by decide, by decide⟩
  next hcap =>
    split
    · exact ⟨by decide, by decide⟩
    next hbottom => exact ⟨Int32.not_lt.mp hbottom, Int32.not_lt.mp hcap⟩

theorem standing_modifyState {id : ℤ}
    (hg : ∀ f, (g f).repListID = f.repListID) (hstanding : ∀ f, (g f).Standing = f.Standing) {s : Int32}
    (h : ∀ f ∈ m.factions.find? id, f.Standing = s) :
    ∀ f ∈ (m.modifyState id g hg).factions.find? id, f.Standing = s := by
  intro f hf
  rw [find?_modifyState_self] at hf
  obtain ⟨f', hf', rfl⟩ := Option.mem_map.mp hf
  rw [hstanding]
  exact h f' hf'

theorem standing_setOneFactionReputation {standing : Int32} {incremental : Bool}
    {f f' : FactionState} (hf : m.factions.find? e.reputationListID = some f)
    (hf' : (m.setOneFactionReputation realm e standing incremental).1.factions.find? e.reputationListID = some f') :
    f'.Standing = newStanding realm e f standing incremental - realm.getBaseReputation e := by
  unfold ReputationMgr.setOneFactionReputation at hf'
  rw [hf] at hf'
  dsimp only at hf'
  obtain ⟨new, hnew⟩ : ∃ new, new = newStanding realm e f standing incremental - realm.getBaseReputation e :=
    ⟨_, rfl⟩
  rw [← hnew] at hf' ⊢
  have hset : ∀ f ∈ (m.modifyState e.reputationListID (fun f => f.setStanding new)
      fun f => f.setStanding_repListID new).factions.find? e.reputationListID, f.Standing = new := by
    intro f hf
    rw [find?_modifyState_self] at hf
    obtain ⟨f'', -, rfl⟩ := Option.mem_map.mp hf
    rfl
  have hshown : ∀ f ∈ ((m.modifyState e.reputationListID (fun f => f.setStanding new)
      fun f => f.setStanding_repListID new).showState e.reputationListID).factions.find? e.reputationListID, f.Standing = new := by
    rw [ReputationMgr.showState]
    split
    · exact hset
    · split
      · exact hset
      · exact standing_modifyState FactionState.setVisible_repListID (fun _ => rfl) hset
  have hwar := standing_modifyState (fun f => f.setAtWar_repListID true)
    (fun f => f.setAtWar_standing true) hshown
  split at hf'
  · split at hf'
    · exact hwar f' hf'
    · exact hshown f' hf'
  · split at hf'
    · exact hwar f' hf'
    · exact hshown f' hf'

/-- In every run the counters are the numbers they stand for, modulo 256, and a reputation that has been
set is within the bounds. -/
theorem counts_of_reaches (hlist : realm.ListIDsDistinct) (hids : ∀ e ∈ realm.sFactionStore, e.ID ≠ 0)
    (h : Reaches (step realm) anyStep (Eq (Initialize realm)) m) :
    m.Counts realm ∧ ∀ (n : ReputationMgr) (e : FactionEntry) (standing : Int32) (incremental : Bool),
      ∀ f ∈ (n.setOneFactionReputation realm e standing incremental).1.factions.find? e.reputationListID,
        Reputation_Bottom ≤ realm.getBaseReputation e + f.Standing ∧
          realm.getBaseReputation e + f.Standing ≤ Reputation_Cap := by
  constructor
  · have hsound : m.Sound realm := by
      refine h.invariant (fun m hm => ?_) fun m event m' hm _ hstep => sound_of_step hlist hids hm hstep
      subst hm
      exact (initialize_initializing hlist hids).sound
    exact hsound.toCounts
  · intro n e standing incremental f' hf'
    cases hf : n.factions.find? e.reputationListID with
    | none =>
      unfold ReputationMgr.setOneFactionReputation at hf'
      rw [hf] at hf'
      rw [hf] at hf'
      cases hf'
    | some f =>
      rw [standing_setOneFactionReputation hf hf', Int32.add_comm, Int32.sub_add_cancel]
      exact newStanding_bounds e f standing incremental

end ReputationMgr

/-! ### Small realms -/

def sampleEntry (id : ℕ) (base : Int32) : FactionEntry :=
  ⟨id, id, fun _ => 1, fun _ => 0, fun _ => base, fun _ => 1, 0, 7⟩

def sampleRealm (factions : KeyedList FactionEntry.ID) : Realm where
  sFactionStore := factions
  raceMask := 1
  classMask := 1
  repSpilloverTemplate _ := none
  gain standing := standing
  spillsOut _ := false
  spillOut _ standing := standing
  spillIn _ _ standing := standing

def twoFactions : Realm :=
  sampleRealm ⟨[⟨1, 0, fun _ => 1, fun _ => 0, fun _ => -42000, fun _ => 0, 0, 7⟩, sampleEntry 2 10000], by decide⟩

theorem twoFactions_distinct : twoFactions.ListIDsDistinct := by
  have hrows : ∀ e ∈ twoFactions.sFactionStore.rows, ∀ e' ∈ twoFactions.sFactionStore.rows,
      e.reputationListID = e'.reputationListID → e.ID = e'.ID := by decide
  exact fun e he e' he' _ heq => twoFactions.sFactionStore.eq_of_key_eq he he' (hrows e he e' he' heq)

theorem counts_of_reaches_twoFactions : ∃ m, Reaches (step twoFactions) anyStep
    (Eq (ReputationMgr.Initialize twoFactions)) m ∧ m.exaltedFactionCount = 1 ∧ m.visibleFactionCount = 2 ∧
    m.Counts twoFactions := by
  obtain ⟨m, hm, htest⟩ := Reaches.exists_of_replay (step twoFactions) anyStep
    (rfl : ReputationMgr.Initialize twoFactions = _)
    [.loadFromDB [⟨2, 5000, 1⟩, ⟨1, 0, 0⟩], .setReputation 2 30000 true false, .setOneFactionReputation 1 (-50000) false]
    (replayOk_anyStep ..) (fun m => decide (m.exaltedFactionCount = 1 ∧ m.visibleFactionCount = 2))
    (by decide +kernel)
  obtain ⟨hexalted, hvisible⟩ := of_decide_eq_true htest
  exact ⟨m, hm, hexalted, hvisible,
    (ReputationMgr.counts_of_reaches twoFactions_distinct (by decide : ∀ e ∈ twoFactions.sFactionStore.rows, _) hm).1⟩

def crowd : KeyedList FactionEntry.ID where
  rows := (List.range 256).map fun i => sampleEntry (i + 1) 0
  distinct := by
    rw [List.map_map]
    exact List.nodup_range.map fun i j hij => Nat.succ.inj hij

theorem crowd_mem (he : e ∈ crowd) : ∃ i, sampleEntry (i + 1) 0 = e := by
  obtain ⟨i, -, hi⟩ := List.mem_map.mp he
  exact ⟨i, hi⟩

theorem crowd_visible : (ReputationMgr.Initialize (sampleRealm crowd)).factions.rows.countP FactionState.visible = 256 := by
  rw [ReputationMgr.Initialize, ReputationMgr.foldl_initializeFaction_rows]
  · show (crowd.rows.map _).countP _ = 256
    rw [List.countP_eq_length.mpr, List.length_map]
    · exact (List.length_map _).trans List.length_range
    · intro f hf
      obtain ⟨e, he, rfl⟩ := List.mem_map.mp hf
      obtain ⟨i, rfl⟩ := crowd_mem he
      have hflags : (sampleRealm crowd).getDefaultStateFlags (sampleEntry (i + 1) 0) = 1 := by
        simp [Realm.getDefaultStateFlags, Realm.baseIndex, sampleEntry, sampleRealm, List.finRange]
      rw [FactionState.visible, ReputationMgr.startState, hflags]
      exact (by decide : hasFlag (UInt32.toUInt8 1) FACTION_FLAG_VISIBLE = true)
  · intro e he
    obtain ⟨i, rfl⟩ := crowd_mem he
    exact ⟨Nat.succ_ne_zero i, Int.natCast_nonneg _⟩
  · show (((List.range 256).map fun i => sampleEntry (i + 1) 0).map FactionEntry.reputationListID).Nodup
    rw [List.map_map]
    exact List.nodup_range.map fun i j hij => Nat.succ.inj (Int.ofNat.inj hij)
  · intro f hf
    cases hf

theorem crowd_counts : (ReputationMgr.Initialize (sampleRealm crowd)).Counts (sampleRealm crowd) := by
  refine (ReputationMgr.initialize_initializing (fun e he e' he' _ heq => ?_) fun e he => ?_).sound.toCounts
  · obtain ⟨i, rfl⟩ := crowd_mem he
    obtain ⟨j, rfl⟩ := crowd_mem he'
    rw [Int.ofNat.inj heq]
  · obtain ⟨i, rfl⟩ := crowd_mem he
    exact Nat.succ_ne_zero i

/-- 256 factions are more than a counter holds; a faction 0 is counted by no one. -/
theorem counters_wrap : (∃ factions : KeyedList FactionEntry.ID,
      (ReputationMgr.Initialize (sampleRealm factions)).visibleFactionCount = 0 ∧
      (ReputationMgr.Initialize (sampleRealm factions)).factions.rows.countP FactionState.visible = 256) ∧
    ∃ factions : KeyedList FactionEntry.ID,
      (ReputationMgr.loadFromDB (sampleRealm factions) [⟨0, 0, 0⟩]).honoredFactionCount = 0 ∧
      (ReputationMgr.loadFromDB (sampleRealm factions) [⟨0, 0, 0⟩]).factions.rows.countP
        ((sampleRealm factions).hasRank .honored) = 1 :=
  ⟨⟨crowd, UInt8.toNat_inj.mp (crowd_counts.visible.trans (by rw [crowd_visible]; rfl)), crowd_visible⟩,
    ⟨⟨[sampleEntry 0 10000], by decide⟩, by decide +kernel⟩⟩

end HysteriaCore.Reputation
