import HysteriaCore.Reputation.Flags

/-!
# Logging out and in again

`SaveToDB` writes a row for every faction state that has changed since its row, and `LoadFromDB`
builds the states anew from the defaults of the factions and the rows.
-/

namespace HysteriaCore.Reputation
open Lib

/-- The `ID` of a faction state: `Initialize` keeps the last faction of the place. -/
def Realm.factionID (realm : Realm) (f : FactionState) : ℕ :=
  match (realm.sFactionStore.rows.filter fun e =>
      decide (e.ID ≠ 0 ∧ e.reputationListID = f.repListID)).getLast? with
  | some e => e.ID
  | none => 0

/-- The reputations of a player in memory, and the rows of character_reputation. -/
structure SavedReputation where
  mgr : ReputationMgr
  rows : KeyedList ReputationMgr.Row.faction

namespace SavedReputation
variable (realm : Realm) (w : SavedReputation)

def rowOf (f : FactionState) : ReputationMgr.Row := ⟨realm.factionID f % 2^16, f.Standing, f.Flags.toUInt16⟩

def saveRow (rows : KeyedList ReputationMgr.Row.faction) (f : FactionState) : KeyedList ReputationMgr.Row.faction :=
  if f.needSave then rows.put (rowOf realm f) else rows

def saveToDB : SavedReputation :=
  ⟨{ w.mgr with factions := w.mgr.factions.mapRows (fun f => { f with needSave := false }) fun _ => rfl },
    w.mgr.factions.rows.foldl (saveRow realm) w.rows⟩

inductive Event where
  | loadFromDB (rows : KeyedList ReputationMgr.Row.faction)
  | saveToDB
  | setOneFactionReputation (faction : ℕ) (standing : Int32) (incremental : Bool)
  | setAtWar (id : ℤ) (on : Bool)
  | setInactive (id : ℤ) (on : Bool)

def step (w : SavedReputation) : Event → Option SavedReputation
  | .loadFromDB rows => some ⟨ReputationMgr.loadFromDB realm rows.rows, rows⟩
  | .saveToDB => some (w.saveToDB realm)
  | .setOneFactionReputation faction standing incremental =>
    (realm.lookupEntry faction).map fun e =>
      { w with mgr := (w.mgr.setOneFactionReputation realm e standing incremental).1 }
  | .setAtWar id on => some { w with mgr := w.mgr.setAtWar id on }
  | .setInactive id on => some { w with mgr := w.mgr.setInactive id on }

def Started (w : SavedReputation) : Prop := w.mgr = ReputationMgr.Initialize realm

/-- What `SaveToDB` writes, `LoadFromDB` reads back as the same standings and flags. -/
def SurvivesRelog : Prop :=
  ∀ f ∈ w.mgr.factions, ∃ g, (ReputationMgr.loadFromDB realm (w.saveToDB realm).rows.rows).factions.find? f.repListID = some g ∧
    g.Standing = f.Standing ∧ g.Flags = f.Flags

end SavedReputation

/-! ### One faction while rows are read -/

namespace ReputationMgr
variable {realm : Realm} {m : ReputationMgr} {id : ℤ} {e : FactionEntry} {f : FactionState}

theorem modifyState_at (h : m.factions.find? id = some f) (g : FactionState → FactionState)
    (hg : ∀ f, (g f).repListID = f.repListID) : (m.modifyState id g hg).factions.find? id = some (g f) := by
  rw [find?_modifyState_self, h, Option.map_some]

theorem showState_at (h : m.factions.find? id = some f) : (m.showState id).factions.find? id = some f.shown := by
  unfold showState FactionState.shown
  rw [h]
  dsimp only
  split
  · exact h.trans (congrArg some (if_pos ‹_›).symm)
  · exact (modifyState_at h FactionState.setVisible FactionState.setVisible_repListID).trans
      (congrArg some (if_neg ‹_›).symm)

theorem getRank_at (hnonneg : 0 ≤ e.reputationListID) (h : m.factions.find? e.reputationListID = some f) :
    m.getRank realm e = ReputationToRank (realm.getBaseReputation e + f.Standing) := by
  rw [getRank, getReputation, if_pos hnonneg, h]

theorem loadFlags_at (hnonneg : 0 ≤ e.reputationListID) (h : m.factions.find? e.reputationListID = some f)
    (flags : UInt16) : (m.loadFlags realm e flags).factions.find? e.reputationListID =
      some (f.loaded (ReputationToRank (realm.getBaseReputation e + f.Standing)) flags) := by
  unfold ReputationMgr.loadFlags FactionState.loaded FactionState.merged
  obtain ⟨rank, hrank⟩ : ∃ rank, rank = ReputationToRank (realm.getBaseReputation e + f.Standing) := ⟨_, rfl⟩
  rw [← hrank]
  extract_lets id m₁ m₂ on m₃ m₄ f₁ f₂ f₃ f₄
  have h₁ : m₁.factions.find? id = some f₁ ∧ f₁.Standing = f.Standing := by
    rw [show m₁ = if _ then _ else _ from rfl, show f₁ = if _ then _ else _ from rfl]
    split
    · exact ⟨showState_at h, (FactionState.shown_spec f).1.1⟩
    · exact ⟨h, rfl⟩
  have h₂ : m₂.factions.find? id = some f₂ ∧ f₂.Standing = f.Standing := by
    rw [show m₂ = if _ then _ else _ from rfl, show f₂ = if _ then _ else _ from rfl]
    split
    · exact ⟨modifyState_at h₁.1 _ _, (FactionState.setInactive_standing f₁ true).trans h₁.2⟩
    · exact h₁
  have hwar : ∀ {m' : ReputationMgr} {f' : FactionState}, m'.factions.find? id = some f' ∧ f'.Standing = f.Standing →
      ∀ on, (m'.modifyState id (fun f => f.setAtWar on) fun f => f.setAtWar_repListID on).factions.find? id =
        some (f'.setAtWar on) ∧ (f'.setAtWar on).Standing = f.Standing :=
    fun h' on => ⟨modifyState_at h'.1 _ _, (FactionState.setAtWar_standing _ on).trans h'.2⟩
  have hranked : ∀ {m' : ReputationMgr} {f' : FactionState}, m'.factions.find? id = some f' ∧ f'.Standing = f.Standing →
      m'.getRank realm e = rank := fun h' => (getRank_at hnonneg h'.1).trans (by rw [h'.2, hrank])
  have h₃ : m₃.factions.find? id = some f₃ ∧ f₃.Standing = f.Standing := by
    rw [show m₃ = if _ then _ else _ from rfl, show f₃ = if _ then _ else _ from rfl, h₂.1, Option.any_some,
      show on = (!hasFlag flags.toUInt8 FACTION_FLAG_HIDDEN || decide (m₂.getRank realm e < .neutral)) from rfl,
      hranked h₂]
    split
    · exact hwar h₂ _
    · show (if f₂.visible = true then _ else m₂).factions.find? id = some (if f₂.visible = true then _ else f₂) ∧
        (if f₂.visible = true then f₂.setAtWar false else f₂).Standing = f.Standing
      split
      · exact hwar h₂ false
      · exact h₂
  have h₄ : m₄.factions.find? id = some f₄ ∧ f₄.Standing = f.Standing := by
    rw [show m₄ = if _ then _ else _ from rfl, show f₄ = if _ then _ else _ from rfl, hranked h₃]
    split
    · exact hwar h₃ true
    · exact h₃
  exact modifyState_at h₄.1 _ _

def restored (realm : Realm) (e : FactionEntry) (f : FactionState) : Option Row → FactionState
  | none => f
  | some row => FactionState.loaded { f with Standing := row.standing }
      (ReputationToRank (realm.getBaseReputation e + row.standing)) row.flags

theorem restored_standing (e : FactionEntry) (f : FactionState) (row : Row) :
    (restored realm e f (some row)).Standing = row.standing :=
  (FactionState.alike_loaded { f with Standing := row.standing } _ row.flags).1

theorem loadRow_eq {row : Row} (hlookup : realm.lookupEntry row.faction = some e) (hnonneg : 0 ≤ e.reputationListID)
    (hsome : (m.factions.find? e.reputationListID).isSome = true) : m.loadRow realm row =
      ((m.modifyState e.reputationListID (fun f => { f with Standing := row.standing }) fun _ => rfl).updateRankCounters
        (realm.getBaseRank e) (ReputationToRank (realm.getBaseReputation e + row.standing))).loadFlags realm e row.flags := by
  rw [loadRow, hlookup]
  dsimp only
  rw [if_pos hnonneg, touch, if_pos hsome]

theorem loadRow_at {row : Row} (hlookup : realm.lookupEntry row.faction = some e) (hnonneg : 0 ≤ e.reputationListID)
    (h : m.factions.find? e.reputationListID = some f) :
    (m.loadRow realm row).factions.find? e.reputationListID = some (restored realm e f (some row)) := by
  rw [loadRow_eq hlookup hnonneg (h ▸ rfl)]
  have hset : ((m.modifyState e.reputationListID (fun f => { f with Standing := row.standing })
      fun _ => rfl).updateRankCounters (realm.getBaseRank e)
        (ReputationToRank (realm.getBaseReputation e + row.standing))).factions.find? e.reputationListID =
          some { f with Standing := row.standing } :=
    modifyState_at h (fun f => { f with Standing := row.standing }) fun _ => rfl
  exact loadFlags_at hnonneg hset row.flags

def States (realm : Realm) (m : ReputationMgr) : Prop :=
  ∀ e ∈ realm.sFactionStore, 0 ≤ e.reputationListID → (m.factions.find? e.reputationListID).isSome = true

theorem onlyAt_loadRow (hstates : m.States realm) (row : Row) :
    m.loadRow realm row = m ∨ ∃ e, realm.lookupEntry row.faction = some e ∧ 0 ≤ e.reputationListID ∧
      OnlyAt e.reputationListID m (m.loadRow realm row) := by
  cases hlookup : realm.lookupEntry row.faction with
  | none =>
    left
    rw [loadRow, hlookup]
  | some e =>
    by_cases hnonneg : 0 ≤ e.reputationListID
    · right
      refine ⟨e, rfl, hnonneg, ?_⟩
      rw [loadRow_eq hlookup hnonneg (hstates e (lookupEntry_mem hlookup) hnonneg)]
      exact .setRow realm m e row
    · left
      rw [loadRow, hlookup]
      exact if_neg hnonneg

theorem keys_loadRow (hstates : m.States realm) (row : Row) (id : ℤ) :
    ((m.loadRow realm row).factions.find? id).isSome = (m.factions.find? id).isSome := by
  cases onlyAt_loadRow hstates row with
  | inl hsame => rw [hsame]
  | inr honly =>
    obtain ⟨_, _, _, honly⟩ := honly
    exact honly.keys id

theorem States.loadRow (hstates : m.States realm) (row : Row) : (m.loadRow realm row).States realm :=
  fun e he hnonneg => (keys_loadRow hstates row _).trans (hstates e he hnonneg)

theorem loadRow_other (hlist : realm.ListIDsDistinct) (hstates : m.States realm) (he : e ∈ realm.sFactionStore)
    {row : Row} (hrow : row.faction ≠ e.ID) :
    (m.loadRow realm row).factions.find? e.reputationListID = m.factions.find? e.reputationListID := by
  cases onlyAt_loadRow hstates row with
  | inl hsame => rw [hsame]
  | inr honly =>
    obtain ⟨e', hlookup, hnonneg', honly⟩ := honly
    obtain ⟨he', hid⟩ := (realm.sFactionStore.find?_eq_some_iff _ e').mp hlookup
    refine honly.others _ fun heq => hrow ?_
    rw [← hid, hlist e' he' e he hnonneg' heq.symm]

theorem lookupEntry_self (he : e ∈ realm.sFactionStore) : realm.lookupEntry e.ID = some e :=
  (realm.sFactionStore.find?_eq_some_iff _ e).mpr ⟨he, rfl⟩

theorem loadRows_at (hlist : realm.ListIDsDistinct) (he : e ∈ realm.sFactionStore) (hnonneg : 0 ≤ e.reputationListID)
    {rows : List Row} (hrows : (rows.map Row.faction).Nodup) (hstates : m.States realm)
    (h : m.factions.find? e.reputationListID = some f) :
    (rows.foldl (loadRow realm) m).factions.find? e.reputationListID =
      some (restored realm e f (rows.find? fun row => decide (row.faction = e.ID))) := by
  induction rows generalizing m f with
  | nil => exact h
  | cons row rows ih =>
    rw [List.map_cons, List.nodup_cons] at hrows
    rw [List.foldl_cons, List.find?_cons]
    by_cases hrow : row.faction = e.ID
    · have hlookup : realm.lookupEntry row.faction = some e := hrow ▸ lookupEntry_self he
      rw [ih hrows.2 (hstates.loadRow row) (loadRow_at hlookup hnonneg h), decide_eq_true hrow]
      have hnone : rows.find? (fun row => decide (row.faction = e.ID)) = none := by
        refine List.find?_eq_none.mpr fun r hr hdec => hrows.1 ?_
        rw [hrow, ← of_decide_eq_true hdec]
        exact List.mem_map_of_mem hr
      rw [hnone]
      rfl
    · rw [decide_eq_false hrow]
      exact ih hrows.2 (hstates.loadRow row) ((loadRow_other hlist hstates he hrow).trans h)

theorem keys_loadRows (hstates : m.States realm) (rows : List Row) (id : ℤ) :
    ((rows.foldl (loadRow realm) m).factions.find? id).isSome = (m.factions.find? id).isSome := by
  induction rows generalizing m with
  | nil => rfl
  | cons row rows ih => exact (ih (hstates.loadRow row)).trans (keys_loadRow hstates row id)

/-! ### The states after `Initialize` and `LoadFromDB` -/

def Owned (realm : Realm) (m : ReputationMgr) : Prop :=
  ∀ id, (m.factions.find? id).isSome = true → ∃ e ∈ realm.sFactionStore, 0 ≤ e.reputationListID ∧ e.reputationListID = id

theorem initialize_started : ∀ f ∈ (Initialize realm).factions,
    ∃ e ∈ realm.sFactionStore, 0 ≤ e.reputationListID ∧ f = startState realm e := by
  have hfold : ∀ (todo : List FactionEntry) (m : ReputationMgr), (∀ e ∈ todo, e ∈ realm.sFactionStore) →
      (∀ f ∈ m.factions, ∃ e ∈ realm.sFactionStore, 0 ≤ e.reputationListID ∧ f = startState realm e) →
      ∀ f ∈ (todo.foldl (initializeFaction realm) m).factions,
        ∃ e ∈ realm.sFactionStore, 0 ≤ e.reputationListID ∧ f = startState realm e := by
    intro todo
    induction todo with
    | nil => exact fun m _ hm => hm
    | cons e todo ih =>
      intro m htodo hm
      refine ih _ (fun e' he' => htodo e' (List.mem_cons_of_mem _ he')) fun f hf => ?_
      unfold initializeFaction at hf
      split at hf
      · rename_i hplace
        cases (m.factions.mem_put _ f).mp hf with
        | inl hnew => exact ⟨e, htodo e List.mem_cons_self, hplace.2, hnew⟩
        | inr hold => exact hm f hold.1
      · exact hm f hf
  exact hfold realm.sFactionStore.rows _ (fun _ he => he) fun f hf => nomatch hf

section Distinct
variable (hlist : realm.ListIDsDistinct) (hids : ∀ e ∈ realm.sFactionStore, e.ID ≠ 0)
include hlist hids

theorem initialize_states : (Initialize realm).States realm := by
  intro e he hnonneg
  obtain ⟨f, hf, hid⟩ := (initialize_initializing hlist hids).states e he hnonneg
  exact Option.isSome_iff_exists.mpr ⟨f, ((Initialize realm).factions.find?_eq_some_iff _ f).mpr ⟨hf, hid⟩⟩

theorem initialize_at (he : e ∈ realm.sFactionStore) (hnonneg : 0 ≤ e.reputationListID) :
    (Initialize realm).factions.find? e.reputationListID = some (startState realm e) := by
  obtain ⟨f, hf⟩ := Option.isSome_iff_exists.mp (initialize_states hlist hids e he hnonneg)
  obtain ⟨hmem, hid⟩ := ((Initialize realm).factions.find?_eq_some_iff _ f).mp hf
  obtain ⟨e', he', _, rfl⟩ := initialize_started f hmem
  rw [hf, hlist e he e' he' hnonneg hid.symm]

theorem loadFromDB_at (he : e ∈ realm.sFactionStore) (hnonneg : 0 ≤ e.reputationListID)
    (rows : KeyedList Row.faction) : (loadFromDB realm rows.rows).factions.find? e.reputationListID =
      some (restored realm e (startState realm e) (rows.find? e.ID)) :=
  loadRows_at hlist he hnonneg rows.distinct (initialize_states hlist hids) (initialize_at hlist hids he hnonneg)

theorem states_loadFromDB (rows : List Row) : (loadFromDB realm rows).States realm :=
  fun e he hnonneg => (keys_loadRows (initialize_states hlist hids) rows _).trans
    (initialize_states hlist hids e he hnonneg)

theorem owned_loadFromDB (rows : List Row) : (loadFromDB realm rows).Owned realm := by
  intro id hsome
  rw [loadFromDB, keys_loadRows (initialize_states hlist hids)] at hsome
  obtain ⟨f, hf⟩ := Option.isSome_iff_exists.mp hsome
  obtain ⟨hmem, rfl⟩ := ((Initialize realm).factions.find?_eq_some_iff _ f).mp hf
  obtain ⟨e, he, hnonneg, rfl⟩ := initialize_started f hmem
  exact ⟨e, he, hnonneg, rfl⟩

end Distinct

end ReputationMgr

namespace SavedReputation
variable {realm : Realm} {w w' : SavedReputation} {e : FactionEntry} {f : FactionState}

/-! ### Between a save and the next change -/

/-- A state that needs no save has its values in its row, and every state is made by the setters. -/
structure Kept (realm : Realm) (w : SavedReputation) : Prop where
  states : w.mgr.States realm
  owned : w.mgr.Owned realm
  derived : ∀ e ∈ realm.sFactionStore, 0 ≤ e.reputationListID → ∀ f, w.mgr.factions.find? e.reputationListID = some f →
    FactionState.Derived (ReputationMgr.startState realm e) f
  saved : ∀ e ∈ realm.sFactionStore, 0 ≤ e.reputationListID → ∀ f, w.mgr.factions.find? e.reputationListID = some f →
    f.needSave = false → ∃ row, w.rows.find? e.ID = some row ∧ row.standing = f.Standing ∧ row.flags = f.Flags.toUInt16

structure Changes (id : ℤ) (m m' : ReputationMgr) : Prop where
  only : ReputationMgr.OnlyAt id m m'
  touches : ∀ f, m.factions.find? id = some f → ∃ g, m'.factions.find? id = some g ∧ FactionState.Touches f g

variable {id : ℤ} {m m' m'' : ReputationMgr}

theorem Changes.refl (id : ℤ) (m : ReputationMgr) : Changes id m m := ⟨.refl id m, fun f hf => ⟨f, hf, .refl f⟩⟩

theorem Changes.trans (h : Changes id m m') (h' : Changes id m' m'') : Changes id m m'' := by
  refine ⟨h.only.trans h'.only, fun f hf => ?_⟩
  obtain ⟨g, hg, hfg⟩ := h.touches f hf
  obtain ⟨k, hk, hgk⟩ := h'.touches g hg
  exact ⟨k, hk, hfg.trans hgk⟩

theorem Changes.modifyState {g : FactionState → FactionState} (hg : ∀ f, (g f).repListID = f.repListID)
    (htouches : ∀ f, FactionState.Touches f (g f)) : Changes id m (m.modifyState id g hg) :=
  ⟨.modifyState id g hg, fun f hf => ⟨g f, ReputationMgr.modifyState_at hf g hg, htouches f⟩⟩

theorem Changes.showState : Changes id m (m.showState id) :=
  ⟨.showState id, fun f hf => ⟨f.shown, ReputationMgr.showState_at hf, FactionState.touches_shown f⟩⟩

theorem Changes.of_factions (h : Changes id m m') (hsame : m''.factions = m'.factions) : Changes id m m'' := by
  obtain ⟨⟨hothers, hkeys⟩, htouches⟩ := h
  rw [← hsame] at hothers hkeys htouches
  exact ⟨⟨hothers, hkeys⟩, htouches⟩

theorem Changes.setOneFactionReputation (e : FactionEntry) (standing : Int32) (incremental : Bool) :
    Changes e.reputationListID m (m.setOneFactionReputation realm e standing incremental).1 := by
  unfold ReputationMgr.setOneFactionReputation
  split
  · exact .refl _ m
  · extract_lets base new oldRank newRank m₁ m₂ m₃ m₄
    have h₂ : Changes e.reputationListID m m₂ :=
      (Changes.modifyState _ fun f => FactionState.touches_setStanding f _).trans .showState
    have h₃ : Changes e.reputationListID m m₃ := by
      rw [show m₃ = if _ then _ else _ from rfl]
      split
      · exact h₂.trans (.modifyState _ fun f => FactionState.touches_setAtWar f true)
      · exact h₂
    have h₄ : m₄.factions = m₃.factions := by
      rw [show m₄ = if _ then _ else _ from rfl]
      split <;> rfl
    exact h₃.of_factions h₄

theorem Changes.setAtWar (id : ℤ) (on : Bool) : Changes id m (m.setAtWar id on) := by
  unfold ReputationMgr.setAtWar
  split
  · exact .refl id m
  · split
    · exact .refl id m
    · exact .modifyState _ fun f => FactionState.touches_setAtWar f on

theorem Changes.setInactive (id : ℤ) (on : Bool) : Changes id m (m.setInactive id on) :=
  .modifyState _ fun f => FactionState.touches_setInactive f on

theorem Changes.touches_at (h : Changes id m m') {id' : ℤ} {g : FactionState} (hg : m'.factions.find? id' = some g) :
    ∃ f, m.factions.find? id' = some f ∧ FactionState.Touches f g := by
  by_cases hid : id' = id
  · subst hid
    have hsome : (m.factions.find? id').isSome = true := by rw [← h.only.keys, hg, Option.isSome_some]
    obtain ⟨f, hf⟩ := Option.isSome_iff_exists.mp hsome
    obtain ⟨g', hg', htouches⟩ := h.touches f hf
    obtain rfl := Option.some.inj (hg'.symm.trans hg)
    exact ⟨f, hf, htouches⟩
  · exact ⟨g, (h.only.others id' hid).symm.trans hg, .refl g⟩

theorem Kept.change (hw : Kept realm w) (h : Changes id w.mgr m') : Kept realm { w with mgr := m' } where
  states e he hnonneg := (h.only.keys _).trans (hw.states e he hnonneg)
  owned id' hsome := hw.owned id' ((h.only.keys id').symm.trans hsome)
  derived e he hnonneg g hg := by
    obtain ⟨f, hf, htouches⟩ := h.touches_at hg
    exact htouches.derived _ (hw.derived e he hnonneg f hf)
  saved e he hnonneg g hg hsave := by
    obtain ⟨f, hf, htouches⟩ := h.touches_at hg
    obtain ⟨hold, hstanding, hflags⟩ := htouches.unsaved hsave
    obtain ⟨row, hrow, hsame⟩ := hw.saved e he hnonneg f hf hold
    rw [hstanding, hflags]
    exact ⟨row, hrow, hsame⟩

section Distinct
variable (hlist : realm.ListIDsDistinct) (hids : ∀ e ∈ realm.sFactionStore, e.ID ≠ 0)
include hlist hids

theorem Kept.started (hw : w.Started realm) : Kept realm w where
  states := hw ▸ ReputationMgr.initialize_states hlist hids
  owned := by
    rw [hw]
    exact ReputationMgr.owned_loadFromDB hlist hids []
  derived e he hnonneg f hf := by
    rw [hw, ReputationMgr.initialize_at hlist hids he hnonneg] at hf
    obtain rfl := Option.some.inj hf
    exact .refl _
  saved e he hnonneg f hf hsave := by
    rw [hw, ReputationMgr.initialize_at hlist hids he hnonneg] at hf
    obtain rfl := Option.some.inj hf
    exact nomatch hsave

theorem Kept.loadFromDB (rows : KeyedList ReputationMgr.Row.faction) :
    Kept realm ⟨ReputationMgr.loadFromDB realm rows.rows, rows⟩ where
  states := ReputationMgr.states_loadFromDB hlist hids rows.rows
  owned := ReputationMgr.owned_loadFromDB hlist hids rows.rows
  derived e he hnonneg f hf := by
    rw [ReputationMgr.loadFromDB_at hlist hids he hnonneg] at hf
    obtain rfl := Option.some.inj hf
    have hstart := FactionState.Derived.refl (ReputationMgr.startState realm e)
    cases rows.find? e.ID with
    | none => exact hstart
    | some row =>
      have hset : FactionState.Derived (ReputationMgr.startState realm e)
          { ReputationMgr.startState realm e with Standing := row.standing } := hstart.congr rfl
      exact hset.loaded _ row.flags
  saved e he hnonneg f hf hsave := by
    rw [ReputationMgr.loadFromDB_at hlist hids he hnonneg] at hf
    obtain rfl := Option.some.inj hf
    cases hrow : rows.find? e.ID with
    | none =>
      rw [hrow] at hsave
      exact nomatch hsave
    | some row =>
      rw [hrow] at hsave
      exact ⟨row, rfl, (ReputationMgr.restored_standing e _ row).symm, (FactionState.loaded_saved rfl hsave).symm⟩

/-! ### Saving -/

theorem factionID_eq (he : e ∈ realm.sFactionStore) (hnonneg : 0 ≤ e.reputationListID)
    (hf : f.repListID = e.reputationListID) : realm.factionID f = e.ID := by
  unfold Realm.factionID
  rw [hf]
  obtain ⟨found, hfound⟩ : ∃ found, found = (realm.sFactionStore.rows.filter fun e' =>
    decide (e'.ID ≠ 0 ∧ e'.reputationListID = e.reputationListID)).getLast? := ⟨_, rfl⟩
  rw [← hfound]
  cases found with
  | none =>
    have hmem : e ∈ realm.sFactionStore.rows.filter fun e' =>
        decide (e'.ID ≠ 0 ∧ e'.reputationListID = e.reputationListID) :=
      List.mem_filter.mpr ⟨he, decide_eq_true ⟨hids e he, rfl⟩⟩
    rw [List.getLast?_eq_none_iff.mp hfound.symm] at hmem
    exact nomatch hmem
  | some e' =>
    obtain ⟨he', hsame⟩ := List.mem_filter.mp (List.mem_of_getLast? hfound.symm)
    rw [hlist e he e' he' hnonneg (of_decide_eq_true hsame).2.symm]

end Distinct

theorem saveRows_other {fs : List FactionState} {k : ℕ} (h : ∀ f ∈ fs, (rowOf realm f).faction ≠ k)
    (rows : KeyedList ReputationMgr.Row.faction) : (fs.foldl (saveRow realm) rows).find? k = rows.find? k := by
  induction fs generalizing rows with
  | nil => rfl
  | cons f fs ih =>
    rw [List.foldl_cons, ih fun f' hf' => h f' (List.mem_cons_of_mem _ hf')]
    unfold saveRow
    split
    · rw [rows.find?_put, if_neg fun heq => h f List.mem_cons_self heq]
    · rfl

theorem saveRows_self {fs : List FactionState} (hfs : (fs.map fun f => (rowOf realm f).faction).Nodup) (hf : f ∈ fs)
    (rows : KeyedList ReputationMgr.Row.faction) : (fs.foldl (saveRow realm) rows).find? (rowOf realm f).faction =
      if f.needSave then some (rowOf realm f) else rows.find? (rowOf realm f).faction := by
  induction fs generalizing rows with
  | nil => exact nomatch hf
  | cons g fs ih =>
    rw [List.map_cons, List.nodup_cons] at hfs
    rw [List.foldl_cons]
    cases List.mem_cons.mp hf with
    | inl hhead =>
      subst hhead
      rw [saveRows_other fun f' hf' heq => hfs.1 (List.mem_map.mpr ⟨f', hf', heq⟩)]
      unfold saveRow
      split
      · rw [rows.find?_put, if_pos rfl]
      · rfl
    | inr htail =>
      have hne : (rowOf realm g).faction ≠ (rowOf realm f).faction :=
        fun heq => hfs.1 (List.mem_map.mpr ⟨f, htail, heq.symm⟩)
      rw [ih hfs.2 htail]
      unfold saveRow
      split
      · rfl
      · split
        · rw [rows.find?_put, if_neg hne]
        · rfl

section Distinct
variable (hlist : realm.ListIDsDistinct) (hids : ∀ e ∈ realm.sFactionStore, e.ID ≠ 0 ∧ e.ID < 2^16)
include hlist hids

theorem rowOf_faction (he : e ∈ realm.sFactionStore) (hnonneg : 0 ≤ e.reputationListID)
    (hf : f.repListID = e.reputationListID) : (rowOf realm f).faction = e.ID := by
  show realm.factionID f % 2^16 = e.ID
  rw [factionID_eq hlist (fun e he => (hids e he).1) he hnonneg hf, Nat.mod_eq_of_lt (hids e he).2]

theorem Kept.rows_nodup (hw : Kept realm w) : (w.mgr.factions.rows.map fun f => (rowOf realm f).faction).Nodup := by
  refine List.Nodup.map_on (fun f hf g hg heq => ?_) w.mgr.factions.nodup
  have howner : ∀ f ∈ w.mgr.factions, ∃ e ∈ realm.sFactionStore, 0 ≤ e.reputationListID ∧
      e.reputationListID = f.repListID := fun f hf =>
    hw.owned f.repListID (Option.isSome_iff_exists.mpr ⟨f, (w.mgr.factions.find?_eq_some_iff _ f).mpr ⟨hf, rfl⟩⟩)
  obtain ⟨e, he, hnonneg, hid⟩ := howner f hf
  obtain ⟨e', he', hnonneg', hid'⟩ := howner g hg
  rw [rowOf_faction hlist hids he hnonneg hid.symm, rowOf_faction hlist hids he' hnonneg' hid'.symm] at heq
  obtain rfl := realm.sFactionStore.eq_of_key_eq he he' heq
  exact w.mgr.factions.eq_of_key_eq hf hg (hid.symm.trans hid')

theorem Kept.saved_row (hw : Kept realm w) (he : e ∈ realm.sFactionStore) (hnonneg : 0 ≤ e.reputationListID)
    (hf : w.mgr.factions.find? e.reputationListID = some f) :
    ∃ row, (w.saveToDB realm).rows.find? e.ID = some row ∧ row.standing = f.Standing ∧
      row.flags = f.Flags.toUInt16 := by
  obtain ⟨hmem, hid⟩ := (w.mgr.factions.find?_eq_some_iff _ f).mp hf
  have hself := saveRows_self (hw.rows_nodup hlist hids) hmem w.rows
  rw [rowOf_faction hlist hids he hnonneg hid] at hself
  cases hsave : f.needSave with
  | true =>
    rw [hsave, if_pos rfl] at hself
    exact ⟨rowOf realm f, hself, rfl, rfl⟩
  | false =>
    rw [hsave, if_neg Bool.false_ne_true] at hself
    obtain ⟨row, hrow, hsame⟩ := hw.saved e he hnonneg f hf hsave
    exact ⟨row, hself.trans hrow, hsame⟩

theorem Kept.saveToDB (hw : Kept realm w) : Kept realm (w.saveToDB realm) := by
  have hfind : ∀ id, (w.saveToDB realm).mgr.factions.find? id =
      (w.mgr.factions.find? id).map fun f => { f with needSave := false } :=
    fun id => w.mgr.factions.find?_mapRows id (fun f => { f with needSave := false }) fun _ => rfl
  refine ⟨fun e he hnonneg => ?_, fun id hsome => ?_, fun e he hnonneg f hf => ?_, fun e he hnonneg f hf _ => ?_⟩
  · rw [hfind, Option.isSome_map]
    exact hw.states e he hnonneg
  · rw [hfind, Option.isSome_map] at hsome
    exact hw.owned id hsome
  · rw [hfind] at hf
    obtain ⟨g, hg, rfl⟩ := Option.map_eq_some_iff.mp hf
    exact (hw.derived e he hnonneg g hg).congr rfl
  · rw [hfind] at hf
    obtain ⟨g, hg, rfl⟩ := Option.map_eq_some_iff.mp hf
    obtain ⟨row, hrow, hsame⟩ := hw.saved_row hlist hids he hnonneg hg
    exact ⟨row, hrow, hsame⟩

theorem Kept.step (hw : Kept realm w) {event : Event} (hstep : step realm w event = some w') : Kept realm w' := by
  cases event with
  | loadFromDB rows =>
    obtain rfl := Option.some.inj hstep
    exact Kept.loadFromDB hlist (fun e he => (hids e he).1) rows
  | saveToDB =>
    obtain rfl := Option.some.inj hstep
    exact hw.saveToDB hlist hids
  | setOneFactionReputation faction standing incremental =>
    obtain ⟨e, _, rfl⟩ := Option.map_eq_some_iff.mp hstep
    exact hw.change (.setOneFactionReputation e standing incremental)
  | setAtWar id on =>
    obtain rfl := Option.some.inj hstep
    exact hw.change (.setAtWar id on)
  | setInactive id on =>
    obtain rfl := Option.some.inj hstep
    exact hw.change (.setInactive id on)

theorem kept_of_reaches (h : Reaches (step realm) anyStep (Started realm) w) : Kept realm w :=
  h.invariant (fun _ hstart => .started hlist (fun e he => (hids e he).1) hstart)
    fun _ _ _ hw _ hstep => hw.step hlist hids hstep

end Distinct

def AllReturn (realm : Realm) (w : SavedReputation) : Prop :=
  ∀ e ∈ realm.sFactionStore, 0 ≤ e.reputationListID → ∀ f ∈ w.mgr.factions.find? e.reputationListID,
    FactionState.Returns (ReputationToRank (realm.getBaseReputation e + f.Standing)) (ReputationMgr.startState realm e) f

/-- In every run the standings and the flags survive a relog exactly when all states return. -/
theorem survivesRelog_iff (hlist : realm.ListIDsDistinct) (hids : ∀ e ∈ realm.sFactionStore, e.ID ≠ 0 ∧ e.ID < 2^16)
    (h : Reaches (step realm) anyStep (Started realm) w) : w.SurvivesRelog realm ↔ AllReturn realm w := by
  have hw := kept_of_reaches hlist hids h
  have hload : ∀ e ∈ realm.sFactionStore, 0 ≤ e.reputationListID → ∀ f, w.mgr.factions.find? e.reputationListID = some f →
      ∃ g, (ReputationMgr.loadFromDB realm (w.saveToDB realm).rows.rows).factions.find? e.reputationListID = some g ∧
        g.Standing = f.Standing ∧ (g.Flags = f.Flags ↔ FactionState.Returns
          (ReputationToRank (realm.getBaseReputation e + f.Standing)) (ReputationMgr.startState realm e) f) := by
    intro e he hnonneg f hf
    obtain ⟨row, hrow, hstanding, hflags⟩ := hw.saved_row hlist hids he hnonneg hf
    have hat := ReputationMgr.loadFromDB_at hlist (fun e he => (hids e he).1) he hnonneg (w.saveToDB realm).rows
    rw [hrow] at hat
    refine ⟨_, hat, (ReputationMgr.restored_standing e _ row).trans hstanding, ?_⟩
    -- the standing of the default state is of no account for its flags
    obtain ⟨d, hd⟩ : ∃ d, d = { ReputationMgr.startState realm e with Standing := f.Standing } := ⟨_, rfl⟩
    have hderived : FactionState.Derived d f := by
      obtain ⟨hfixed, hseen, hvisible, hinactive, hwar⟩ := hw.derived e he hnonneg f hf
      exact hd ▸ ⟨hfixed, hseen, hvisible, hinactive, hwar⟩
    have hreturns : FactionState.Returns (ReputationToRank (realm.getBaseReputation e + f.Standing)) d f ↔
        FactionState.Returns (ReputationToRank (realm.getBaseReputation e + f.Standing))
          (ReputationMgr.startState realm e) f := by
      subst hd
      exact ⟨fun h => ⟨h.inactive, h.atWar, h.atPeace⟩, fun h => ⟨h.inactive, h.atWar, h.atPeace⟩⟩
    rw [ReputationMgr.restored, hstanding, hflags, ← hd, ← hreturns]
    exact hderived.loaded_iff _
  constructor
  · intro hsurvives e he hnonneg f hf
    obtain ⟨hmem, hid⟩ := (w.mgr.factions.find?_eq_some_iff _ f).mp hf
    obtain ⟨g, hg, _, hiff⟩ := hload e he hnonneg f hf
    obtain ⟨g', hg', _, hflags⟩ := hsurvives f hmem
    rw [hid] at hg'
    obtain rfl := Option.some.inj (hg'.symm.trans hg)
    exact hiff.mp hflags
  · intro hreturn f hmem
    have hf := (w.mgr.factions.find?_eq_some_iff f.repListID f).mpr ⟨hmem, rfl⟩
    obtain ⟨e, he, hnonneg, hid⟩ := hw.owned f.repListID (Option.isSome_iff_exists.mpr ⟨f, hf⟩)
    rw [← hid] at hf ⊢
    obtain ⟨g, hg, hstanding, hiff⟩ := hload e he hnonneg f hf
    exact ⟨g, hg, hstanding, hiff.mpr (hreturn e he hnonneg f hf)⟩

def twoVisible : Realm := sampleRealm ⟨[sampleEntry 1 0, sampleEntry 2 10000], by decide⟩

theorem twoVisible_distinct : twoVisible.ListIDsDistinct := by
  have hrows : ∀ e ∈ twoVisible.sFactionStore.rows, ∀ e' ∈ twoVisible.sFactionStore.rows,
      e.reputationListID = e'.reputationListID → e.ID = e'.ID := by decide
  exact fun e he e' he' _ heq => twoVisible.sFactionStore.eq_of_key_eq he he' (hrows e he e' he' heq)

def newPlayer : SavedReputation := ⟨ReputationMgr.Initialize twoVisible, KeyedList.empty⟩

theorem newPlayer_started : newPlayer.Started twoVisible := rfl

theorem survivesRelog_newPlayer : ∃ w, Reaches (step twoVisible) anyStep (Started twoVisible) w ∧
    w.SurvivesRelog twoVisible := by
  obtain ⟨w, hw, htest⟩ := Reaches.exists_of_replay (step twoVisible) anyStep newPlayer_started
    [.setOneFactionReputation 1 (-7000) false, .setInactive 2 true, .saveToDB, .setAtWar 2 true,
      .setOneFactionReputation 1 500 true]
    (replayOk_anyStep ..)
    (fun w => decide (∀ e ∈ twoVisible.sFactionStore.rows, 0 ≤ e.reputationListID →
      ∀ f ∈ w.mgr.factions.find? e.reputationListID, FactionState.Returns
        (ReputationToRank (twoVisible.getBaseReputation e + f.Standing)) (ReputationMgr.startState twoVisible e) f))
    (by decide +kernel)
  have hall := of_decide_eq_true htest
  exact ⟨w, hw, (survivesRelog_iff twoVisible_distinct
    (by decide : ∀ e ∈ twoVisible.sFactionStore.rows, e.ID ≠ 0 ∧ e.ID < 2^16) hw).mpr hall⟩

/-- A player who makes peace with a faction that hates him is at war with it again after a relog. -/
theorem peace_lost : ¬ ∀ (realm : Realm) (w : SavedReputation), realm.ListIDsDistinct →
    (∀ e ∈ realm.sFactionStore, e.ID ≠ 0 ∧ e.ID < 2^16) → Reaches (step realm) anyStep (Started realm) w →
    w.SurvivesRelog realm := by
  intro h
  obtain ⟨w, hw, htest⟩ := Reaches.exists_of_replay (step twoVisible) anyStep newPlayer_started
    [.setOneFactionReputation 1 (-7000) false, .setAtWar 1 false] (replayOk_anyStep ..)
    (fun w => decide ((w.mgr.factions.find? 1).map FactionState.Flags = some 1 ∧
      ((ReputationMgr.loadFromDB twoVisible (w.saveToDB twoVisible).rows.rows).factions.find? 1).map
        FactionState.Flags = some 3))
    (by decide +kernel)
  obtain ⟨hbefore, hafter⟩ := of_decide_eq_true htest
  obtain ⟨f, hf, hflags⟩ := Option.map_eq_some_iff.mp hbefore
  obtain ⟨hmem, hid⟩ := (w.mgr.factions.find?_eq_some_iff 1 f).mp hf
  obtain ⟨g, hg, _, hsame⟩ := h twoVisible w twoVisible_distinct
    (by decide : ∀ e ∈ twoVisible.sFactionStore.rows, e.ID ≠ 0 ∧ e.ID < 2^16) hw f hmem
  rw [hid] at hg
  rw [hg, Option.map_some, hsame, hflags] at hafter
  exact absurd hafter (by decide)

end SavedReputation

end HysteriaCore.Reputation
