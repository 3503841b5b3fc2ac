import HysteriaCore.Dungeon.Check
import Mathlib.Data.List.Find

/-!
# The list of compatibles

Every entry that is not cleared names a different set of queued guids with less
than five players and a dungeon in common. What a walk adds is an entry of the
list with the new guid; the list itself can only shrink meanwhile.
-/

namespace HysteriaCore.Dungeon
open Lib

namespace LFGQueue

/-! ### Removing a guid -/

theorem core_forget (store : KeyedList LfgQueueData.guid) (guid g : ℕ) :
    ((store.mapRows (forgetBest guid) (forgetBest_guid guid)).find? g).map
        (fun d => (d.roles, d.dungeons)) =
      (store.find? g).map fun d => (d.roles, d.dungeons) := by
  rw [KeyedList.find?_mapRows, Option.map_map]
  congr 1
  funext d
  rw [Function.comp_apply, forgetBest]
  split <;> rfl

theorem core_removeFromQueue (q : LFGQueue) (guid g : ℕ) (keepData : Bool) :
    (q.removeFromQueue guid keepData).core g =
      if keepData = false ∧ g = guid then none else q.core g := by
  cases keepData with
  | true => exact core_forget q.queueDataStore guid g
  | false =>
    by_cases hg : g = guid
    · simp [core, removeFromQueue, KeyedList.find?_erase, hg]
    · have hforget := core_forget q.queueDataStore guid g
      simpa [core, removeFromQueue, removeFromCompatibles, removeFromNewQueue,
        KeyedList.find?_erase, hg] using hforget

/-! ### Combinations that are possible -/

/-- A combination that `CompatibleList` may hold, over the stored roles and dungeons. -/
structure Possible (core : ℕ → Option (RoleRows × Finset ℕ)) (l : List ℕ) : Prop where
  sorted : l.Pairwise (· < ·)
  keyed : ∀ g ∈ l, (core g).isSome
  small : (l.map fun g => ((core g).elim [] (·.1)).length).sum < MAXGROUPSIZE
  common : ∃ x, ∀ g ∈ l, x ∈ (core g).elim ∅ (·.2)

theorem possible_nil (core : ℕ → Option (RoleRows × Finset ℕ)) : Possible core [] :=
  ⟨List.Pairwise.nil, by simp, by simp [MAXGROUPSIZE], 0, by simp⟩

variable {l : List ℕ}

theorem Possible.of_core {core core' : ℕ → Option (RoleRows × Finset ℕ)}
    (h : Possible core l) (hcore : ∀ g ∈ l, core' g = core g) : Possible core' l := by
  obtain ⟨x, hx⟩ := h.common
  refine ⟨h.sorted, fun g hg => ?_, ?_, x, fun g hg => ?_⟩
  · rw [hcore g hg]
    exact h.keyed g hg
  · rw [List.map_congr_left fun g hg => by rw [hcore g hg]]
    exact h.small
  · rw [hcore g hg]
    exact hx g hg

def live (entries : List Lfg5Guids) : List (List ℕ) :=
  (entries.map Lfg5Guids.guids).filter fun l => l ≠ []

theorem mem_live {entries : List Lfg5Guids} : l ∈ live entries ↔ l ≠ [] ∧ ∃ e ∈ entries, e.guids = l := by
  simp [live, and_comm]

theorem live_sublist {a b : List Lfg5Guids} (h : a.Sublist b) : (live a).Sublist (live b) :=
  (h.map _).filter _

theorem live_append (a b : List Lfg5Guids) : live (a ++ b) = live a ++ live b := by
  simp [live]

theorem live_filter_empty (entries : List Lfg5Guids) :
    (live (entries.filter fun e => !e.empty)).Sublist (live entries) :=
  live_sublist List.filter_sublist

theorem live_map_sublist {f : Lfg5Guids → Lfg5Guids}
    (hf : ∀ e, (f e).guids = e.guids ∨ (f e).guids = []) (entries : List Lfg5Guids) :
    (live (entries.map f)).Sublist (live entries) := by
  induction entries with
  | nil => exact List.Sublist.refl _
  | cons e entries ih =>
    have hcons : ∀ (e : Lfg5Guids) (es : List Lfg5Guids), live (e :: es) = live [e] ++ live es :=
      fun e es => live_append [e] es
    rw [List.map_cons, hcons, hcons e]
    refine List.Sublist.append ?_ ih
    rcases hf e with h | h
    · simp [live, h]
    · simp [live, h]

theorem guids_clear (e : Lfg5Guids) : e.clear.guids = [] := (Lfg5Guids.holds_clear e).guids_eq

def clearIf (guid : ℕ) (e : Lfg5Guids) : Lfg5Guids := if e.hasGuid guid then e.clear else e

theorem clearIf_cases (guid : ℕ) (e : Lfg5Guids) :
    (clearIf guid e).guids = e.guids ∨ (clearIf guid e).guids = [] := by
  rw [clearIf]
  split
  · exact .inr (guids_clear e)
  · exact .inl rfl

/-! ### The invariant -/

structure Ordered (q : LFGQueue) : Prop where
  data : ∀ g roles dungeons, q.core g = some (roles, dungeons) →
    g ≠ 0 ∧ roles ≠ [] ∧ roles.length ≤ MAXGROUPSIZE ∧ dungeons ≠ ∅
  new : ∀ g ∈ q.newToQueueStore, g ≠ 0
  entries : ∀ e ∈ q.compatibleList, ∃ l, e.Holds l ∧ Possible q.core l
  distinct : (live q.compatibleList).Nodup

structure Valid (q : LFGQueue) : Prop extends Ordered q where
  temp : q.compatibleTempList = []

variable {q q' : LFGQueue}

theorem Ordered.of_same (h : q.Ordered) (hcore : ∀ g, q'.core g = q.core g)
    (hlist : q'.compatibleList = q.compatibleList) (hnew : ∀ g ∈ q'.newToQueueStore, g ≠ 0) :
    q'.Ordered := by
  refine ⟨fun g roles dungeons hg => h.data g roles dungeons ((hcore g).symm.trans hg), hnew, ?_, ?_⟩
  · intro e he
    obtain ⟨l, hl, hp⟩ := h.entries e (hlist ▸ he)
    exact ⟨l, hl, hp.of_core fun g _ => hcore g⟩
  · rw [hlist]
    exact h.distinct

theorem Ordered.remove (h : q.Ordered) (guid : ℕ)
    (hcore : ∀ g, q'.core g = q.core g ∨ (g = guid ∧ q'.core g = none))
    (hlist : q'.compatibleList = q.compatibleList.map (clearIf guid))
    (hnew : ∀ g ∈ q'.newToQueueStore, g ∈ q.newToQueueStore) : q'.Ordered := by
  refine ⟨fun g roles dungeons hg => ?_, fun g hg => h.new g (hnew g hg), ?_, ?_⟩
  · rcases hcore g with hsame | ⟨-, hnone⟩
    · exact h.data g roles dungeons (hsame.symm.trans hg)
    · cases hnone.symm.trans hg
  · intro e' he'
    rw [hlist] at he'
    obtain ⟨e, he, rfl⟩ := List.mem_map.mp he'
    obtain ⟨l, hl, hp⟩ := h.entries e he
    rw [clearIf]
    split
    · exact ⟨[], e.holds_clear, possible_nil _⟩
    · rename_i hout
      refine ⟨l, hl, hp.of_core fun g hg => ?_⟩
      rcases hcore g with hsame | ⟨rfl, -⟩
      · exact hsame
      · have hzero : g ≠ 0 := fun h0 => hl.nonzero (h0 ▸ hg)
        exact absurd ((hl.hasGuid_iff hzero).mpr hg) hout
  · rw [hlist]
    exact h.distinct.sublist (live_map_sublist (clearIf_cases guid) _)

variable {q : LFGQueue}

theorem Ordered.removeFromQueue (h : q.Ordered) (guid : ℕ) (keepData : Bool) :
    (q.removeFromQueue guid keepData).Ordered := by
  refine h.remove guid (fun g => ?_) rfl fun g hg => (List.mem_filter.mp hg).1
  rw [core_removeFromQueue]
  split
  · rename_i hg
    exact .inr ⟨hg.2, rfl⟩
  · exact .inl rfl

/-! ### The walk -/

/-- The invariant of the walk for `newGuid`, at position `pos`. A waiting combination without the
new guid is none of the entries still to come, so that none of them can produce it again. -/
structure Walk (q : LFGQueue) (newGuid : ℕ) (current : List (List ℕ)) (pos : ℕ) : Prop
    extends Ordered q where
  nonzero : newGuid ≠ 0
  known : ∀ e ∈ q.compatibleList, newGuid ∈ e.guids → e.raw ∈ current
  temps : ∀ e ∈ q.compatibleTempList, ∃ l, e.Holds l ∧ Possible q.core l ∧ newGuid ∈ l ∧
    e.raw ∉ current ∧ l.erase newGuid ∉ live (q.compatibleList.drop pos)
  distinctTemps : (q.compatibleTempList.map Lfg5Guids.guids).Nodup

variable {current : List (List ℕ)} {newGuid : ℕ}

variable {pos pos' : ℕ}

theorem Walk.advance
    (h : q.Walk newGuid current pos)
    (hsub : (q.compatibleList.drop pos').Sublist (q.compatibleList.drop pos)) :
    q.Walk newGuid current pos' := by
  refine ⟨h.toOrdered, h.nonzero, h.known, fun e he => ?_, h.distinctTemps⟩
  obtain ⟨l, hl, hp, hmem, hcur, hlive⟩ := h.temps e he
  exact ⟨l, hl, hp, hmem, hcur, fun hm => hlive ((live_sublist hsub).subset hm)⟩

theorem drop_succ_sublist {α : Type*} (l : List α) (n : ℕ) : (l.drop (n + 1)).Sublist (l.drop n) := by
  rw [← List.drop_drop]
  exact List.drop_sublist _ _

variable {pos : ℕ}

theorem Walk.of_same
    (h : q.Walk newGuid current pos) (hcore : ∀ g, q'.core g = q.core g)
    (hlist : q'.compatibleList = q.compatibleList)
    (htemp : q'.compatibleTempList = q.compatibleTempList)
    (hnew : q'.newToQueueStore = q.newToQueueStore) : q'.Walk newGuid current pos := by
  refine ⟨h.toOrdered.of_same hcore hlist (hnew ▸ h.new), h.nonzero, hlist ▸ h.known, ?_, ?_⟩
  · intro e he
    obtain ⟨l, hl, hp, hrest⟩ := h.temps e (htemp ▸ he)
    exact ⟨l, hl, hp.of_core fun g _ => hcore g, hlist ▸ hrest⟩
  · rw [htemp]
    exact h.distinctTemps

theorem Walk.removeFromQueue
    (h : q.Walk newGuid current pos) (guid : ℕ) (keepData : Bool) :
    (q.removeFromQueue guid keepData).Walk newGuid current pos := by
  have hlist : (q.removeFromQueue guid keepData).compatibleList =
      q.compatibleList.map (clearIf guid) := rfl
  have htemp : (q.removeFromQueue guid keepData).compatibleTempList =
      q.compatibleTempList.filter fun e => !e.hasGuid guid := rfl
  refine ⟨h.toOrdered.removeFromQueue guid keepData, h.nonzero, ?_, ?_, ?_⟩
  · intro e' he' hmem
    rw [hlist] at he'
    obtain ⟨e, he, rfl⟩ := List.mem_map.mp he'
    rw [clearIf] at hmem ⊢
    split at hmem
    · rw [guids_clear] at hmem
      cases hmem
    · rename_i hout
      rw [if_neg hout]
      exact h.known e he hmem
  · intro e he
    rw [htemp] at he
    obtain ⟨he, hout⟩ := List.mem_filter.mp he
    obtain ⟨l, hl, hp, hmem, hcur, hlive⟩ := h.temps e he
    refine ⟨l, hl, hp.of_core fun g hg => ?_, hmem, hcur, fun hm => hlive ?_⟩
    · rw [core_removeFromQueue, if_neg]
      rintro ⟨-, rfl⟩
      have hzero : g ≠ 0 := fun h0 => hl.nonzero (h0 ▸ hg)
      simp [(hl.hasGuid_iff hzero).mpr hg] at hout
    · rw [hlist, ← List.map_drop] at hm
      exact (live_map_sublist (clearIf_cases guid) _).subset hm
  · rw [htemp]
    exact h.distinctTemps.sublist (List.filter_sublist.map _)

theorem Walk.removeAll
    (h : q.Walk newGuid current pos) {f : LFGQueue → ℕ → LFGQueue}
    (hf : ∀ q g, f q g = q ∨ ∃ keepData, f q g = q.removeFromQueue g keepData) (guids : List ℕ) :
    (guids.foldl f q).Walk newGuid current pos := by
  refine foldl_invariant (I := fun q => Walk q newGuid current pos) (fun q g hq => ?_) guids h
  rcases hf q g with heq | ⟨keepData, heq⟩
  · rw [heq]
    exact hq
  · rw [heq]
    exact hq.removeFromQueue g keepData

theorem Walk.eraseIdx
    (h : q.Walk newGuid current pos) (hpos : pos < q.compatibleList.length) :
    Walk { q with compatibleList := q.compatibleList.eraseIdx pos } newGuid current pos := by
  have hsub := List.eraseIdx_sublist q.compatibleList pos
  refine ⟨⟨h.data, h.new, fun e he => h.entries e (hsub.subset he),
    h.distinct.sublist (live_sublist hsub)⟩, h.nonzero,
    fun e he => h.known e (hsub.subset he), fun e he => ?_, h.distinctTemps⟩
  obtain ⟨l, hl, hp, hmem, hcur, hlive⟩ := h.temps e he
  refine ⟨l, hl, hp, hmem, hcur, fun hm => hlive ?_⟩
  have hdrop : ((q.compatibleList.eraseIdx pos).drop pos).Sublist (q.compatibleList.drop pos) := by
    have htake : (q.compatibleList.take pos).length = pos := List.length_take_of_le hpos.le
    rw [List.eraseIdx_eq_take_drop_succ, List.drop_append, htake, Nat.sub_self, List.drop_zero,
      List.drop_eq_nil_of_le (by omega), List.nil_append]
    exact drop_succ_sublist _ _
  exact (live_sublist hdrop).subset hm

theorem Walk.add
    (h : q.Walk newGuid current pos)
    (hsub : (q.compatibleList.drop pos').Sublist (q.compatibleList.drop pos)) {key : Lfg5Guids}
    (hkey : key.Holds (l.orderedInsert (· ≤ ·) newGuid))
    (hp : Possible q.core (l.orderedInsert (· ≤ ·) newGuid)) (hout : newGuid ∉ l)
    (hcur : key.raw ∉ current) (hnow : l ∉ live (q.compatibleList.drop pos'))
    (hold : q.compatibleTempList = [] ∨ l ∈ live (q.compatibleList.drop pos)) :
    (q.addToCompatibles key).Walk newGuid current pos' := by
  have herase : (l.orderedInsert (· ≤ ·) newGuid).erase newGuid = l :=
    List.erase_orderedInsert_of_notMem hout
  refine ⟨⟨h.data, h.new, h.entries, h.distinct⟩, h.nonzero, h.known, fun e he => ?_, ?_⟩
  · rcases List.mem_append.mp he with he | he
    · exact (h.advance hsub).temps e he
    · rw [List.mem_singleton] at he
      subst he
      refine ⟨_, hkey, hp, (List.mem_orderedInsert _).mpr (.inl rfl), hcur, ?_⟩
      rw [herase]
      exact hnow
  · show ((q.compatibleTempList ++ [key]).map Lfg5Guids.guids).Nodup
    rw [List.map_append, List.map_singleton, ← List.concat_eq_append]
    refine h.distinctTemps.concat fun hm => ?_
    obtain ⟨e, he, heq⟩ := List.mem_map.mp hm
    rcases hold with hnone | hlive
    · rw [hnone] at he
      cases he
    · obtain ⟨m, hm, -, -, -, hmlive⟩ := h.temps e he
      rw [hm.guids_eq, hkey.guids_eq] at heq
      rw [heq, herase] at hmlive
      exact hmlive hlive

/-! ### One check -/

theorem Ordered.length_le (h : q.Ordered) (hkeyed : ∀ g ∈ l, (q.core g).isSome) : l.length ≤ q.playersOf l := by
  induction l with
  | nil => exact Nat.le_refl _
  | cons g l ih =>
    obtain ⟨hg, hl⟩ := List.forall_mem_cons.mp hkeyed
    obtain ⟨⟨roles, dungeons⟩, hcore⟩ := Option.isSome_iff_exists.mp hg
    have hpos : 0 < (q.rolesOf g).length := by
      rw [rolesOf_eq, hcore]
      exact List.length_pos_iff.mpr (h.data g roles dungeons hcore).2.1
    have hrec := ih hl
    rw [playersOf_cons, List.length_cons]
    omega

theorem playersOf_eq (q : LFGQueue) (l : List ℕ) :
    q.playersOf l = (l.map fun g => ((q.core g).elim [] (·.1)).length).sum := by
  simp only [playersOf, rolesOf_eq]

theorem Possible.length_le (hq : q.Ordered) (h : Possible q.core l) : l.length ≤ 4 := by
  have hle := hq.length_le h.keyed
  have hsmall := h.small
  rw [← playersOf_eq, MAXGROUPSIZE] at hsmall
  omega

variable {w : World}

theorem Team.notMem (hq : q.Ordered) {g : ℕ} (h : Team w q (g :: l)) : g ∉ l := by
  intro hm
  obtain ⟨d, hd⟩ := h.keyed g List.mem_cons_self
  have hcore : q.core g = some (d.roles, d.dungeons) := by rw [core, hd, Option.map_some]
  obtain ⟨p, hp⟩ := List.exists_mem_of_ne_nil _ (hq.data g _ _ hcore).2.1
  rw [← rolesOf_of_find hd] at hp
  exact ((List.pairwise_cons.mp h.apart).1 g hm p hp p hp).1 rfl

theorem Team.possible (hq : q.Ordered) {g : ℕ}
    (h : Team w q (g :: l)) (hsmall : q.playersOf (g :: l) < MAXGROUPSIZE)
    (hcommon : (g :: l).length ≠ 1 → ∃ x, ∀ a ∈ g :: l, x ∈ q.dungeonsOf a)
    (hsorted : l.Pairwise (· < ·)) : Possible q.core (l.orderedInsert (· ≤ ·) g) := by
  have hperm := List.perm_orderedInsert (· ≤ ·) g l
  have hdata : ∀ a ∈ g :: l, ∃ roles dungeons, q.core a = some (roles, dungeons) := by
    intro a ha
    obtain ⟨d, hd⟩ := h.keyed a ha
    exact ⟨d.roles, d.dungeons, by rw [core, hd, Option.map_some]⟩
  have hshared : ∃ x, ∀ a ∈ g :: l, x ∈ q.dungeonsOf a := by
    by_cases hone : l = []
    · obtain ⟨roles, dungeons, hcore⟩ := hdata g List.mem_cons_self
      obtain ⟨x, hx⟩ := Finset.nonempty_iff_ne_empty.mpr (hq.data g _ _ hcore).2.2.2
      refine ⟨x, fun a ha => ?_⟩
      rw [hone, List.mem_singleton] at ha
      rw [ha, dungeonsOf_eq, hcore]
      exact hx
    · apply hcommon
      have hpos := List.length_pos_iff.mpr hone
      rw [List.length_cons]
      omega
  obtain ⟨x, hx⟩ := hshared
  refine ⟨?_, fun a ha => ?_, ?_, x, fun a ha => ?_⟩
  · have hle : (l.orderedInsert (· ≤ ·) g).Pairwise (· ≤ ·) :=
      (hsorted.imp fun hlt => Nat.le_of_lt hlt).orderedInsert g l
    have hnodup : (l.orderedInsert (· ≤ ·) g).Nodup := by
      rw [hperm.nodup_iff, List.nodup_cons]
      exact ⟨h.notMem hq, hsorted.imp fun hlt => Nat.ne_of_lt hlt⟩
    exact hle.imp₂ (fun _ _ hab hne => lt_of_le_of_ne hab hne) hnodup
  · obtain ⟨roles, dungeons, hcore⟩ := hdata a (hperm.mem_iff.mp ha)
    rw [hcore]
    rfl
  · rw [← playersOf_eq, playersOf, (hperm.map _).sum_eq]
    exact hsmall
  · rw [← dungeonsOf_eq]
    exact hx a (hperm.mem_iff.mp ha)

theorem Walk.allQueued
    (h : q.Walk newGuid current pos) (w : World) (guids : List ℕ) :
    (allQueued w guids q).1.Walk newGuid current pos := by
  refine h.removeAll (fun q g => ?_) guids
  split
  · exact .inl rfl
  · exact .inr ⟨false, rfl⟩

theorem Walk.propose
    (h : q.Walk newGuid current pos) (w : World) (check strGuids : Lfg5Guids) (scan : Scan)
    (dungeons : Finset ℕ) (roles : RoleRows) (found : Found) :
    (propose w q check strGuids scan dungeons roles found).queue.Walk newGuid current pos := by
  have hasked := h.allQueued w check.guids
  rw [LFGQueue.propose]
  dsimp only
  split
  · exact hasked
  · exact hasked.removeAll (fun q g => .inr ⟨true, rfl⟩) strGuids.guids

theorem Walk.outcome
    (h : q.Walk newGuid current pos)
    (hsub : (q.compatibleList.drop pos').Sublist (q.compatibleList.drop pos))
    {e : Lfg5Guids} (hl : e.Holds l) (hp : Possible q.core l)
    (hnow : l ∉ live (q.compatibleList.drop pos'))
    (hold : q.compatibleTempList = [] ∨ l ∈ live (q.compatibleList.drop pos)) {r : Checked}
    (hr : Outcome w q (newGuid :: l) current (e.noRoles.insert newGuid) r) :
    r.queue.Walk newGuid current pos' := by
  have hwalk := h.advance hsub
  cases hr with
  | refused found hmatch hless => exact hwalk
  | missing guid found => exact hwalk.removeFromQueue guid false
  | kept roles found hteam hcur hsmall hcommon hsame =>
    have hkey := (hl.noRoles.insert (hp.length_le h.toOrdered) h.nonzero).addRoles roles
    have hposs := hteam.possible h.toOrdered hsmall hcommon hp.sorted
    have hq' := h.of_same hsame.core hsame.list hsame.temp hsame.new
    refine hq'.add ?_ hkey (hposs.of_core fun g _ => hsame.core g) (hteam.notMem h.toOrdered) hcur ?_ ?_
    · rwa [hsame.list]
    · rwa [hsame.list]
    · rwa [hsame.temp, hsame.list]
  | asked scan found hcheck hteam hfull => exact hwalk.propose w _ _ scan _ _ found

theorem Walk.check
    (h : q.Walk newGuid current pos) (w : World) {e : Lfg5Guids}
    (he : q.compatibleList[pos]? = some e) (hne : e.empty ≠ true) (found : Found) :
    (checkCompatibility w q e newGuid found current).queue.Walk newGuid current (pos + 1) := by
  obtain ⟨l, hl, hp⟩ := h.entries e (List.mem_of_getElem? he)
  obtain ⟨hpos, hget⟩ := List.getElem?_eq_some_iff.mp he
  have hl0 : l ≠ [] := fun h0 => hne (hl.empty_iff.mpr h0)
  -- the entry is the first of those still to come, and no other has its guids
  have hlive : live (q.compatibleList.drop pos) = l :: live (q.compatibleList.drop (pos + 1)) := by
    rw [List.drop_eq_getElem_cons hpos, hget, ← List.singleton_append, live_append]
    simp [live, hl.guids_eq, hl0]
  have hnodup := h.distinct.sublist (live_sublist (List.drop_sublist pos q.compatibleList))
  rw [hlive, List.nodup_cons] at hnodup
  refine h.outcome (drop_succ_sublist _ pos) hl hp hnodup.1 (.inr ?_)
    (checkCompatibility_outcome w q hl (hp.length_le h.toOrdered) h.nonzero found current)
  rw [hlive]
  exact List.mem_cons_self

/-! ### FindGroups -/

theorem Walk.findLoop (w : World) (self : LfgCompatibility)
    (remaining pos : ℕ) (found : Found) (h : q.Walk newGuid current pos) :
    ∃ pos', (findLoop w newGuid current self remaining pos q found).queue.Walk newGuid current pos' := by
  induction remaining generalizing pos q found with
  | zero => exact ⟨pos, h⟩
  | succ remaining ih =>
    rw [LFGQueue.findLoop]
    cases he : q.compatibleList[pos]? with
    | none => exact ⟨pos, h⟩
    | some e =>
      dsimp only
      split
      · exact ih pos found (h.eraseIdx (List.getElem?_eq_some_iff.mp he).1)
      · rename_i hne
        have hcheck := h.check w he hne found
        split
        · exact ⟨pos + 1, hcheck⟩
        · split
          · exact ⟨pos + 1, hcheck⟩
          · exact ih (pos + 1) _ hcheck

def currentOf (q : LFGQueue) (newGuid : ℕ) : List (List ℕ) :=
  (q.compatibleList.filter (·.hasGuid newGuid)).map (·.raw)

theorem Valid.walk (h : q.Valid) (hnew : newGuid ≠ 0) : q.Walk newGuid (q.currentOf newGuid) 0 := by
  refine ⟨h.toOrdered, hnew, fun e he hmem => ?_, ?_, ?_⟩
  · obtain ⟨l, hl, -⟩ := h.entries e he
    rw [hl.guids_eq] at hmem
    exact List.mem_map.mpr ⟨e, List.mem_filter.mpr ⟨he, (hl.hasGuid_iff hnew).mpr hmem⟩, rfl⟩
  · rw [h.temp]
    simp
  · rw [h.temp]
    exact List.nodup_nil

theorem Walk.self (w : World)
    (h : q.Walk newGuid current 0) (htemp : q.compatibleTempList = []) (found : Found) :
    (checkCompatibility w q .none5 newGuid found current).queue.Walk newGuid current 0 := by
  refine h.outcome (List.Sublist.refl _) Lfg5Guids.holds_none5 (possible_nil _) ?_ (.inl htemp)
    (checkCompatibility_outcome w q Lfg5Guids.holds_none5 (by simp) h.nonzero found current)
  exact fun hm => (mem_live.mp hm).1 rfl

theorem Valid.findNewGroups (h : q.Valid) (w : World)
    (hnew : newGuid ≠ 0) :
    ∃ pos, (findNewGroups w q newGuid).queue.Walk newGuid (q.currentOf newGuid) pos := by
  have hwalk := h.walk hnew
  rw [LFGQueue.findNewGroups]
  dsimp only
  split
  · have hself := hwalk.self w h.temp ⟨0, 0⟩
    split
    · exact ⟨0, hself⟩
    · exact hself.findLoop w _ _ 0 _
  · exact hwalk.findLoop w _ _ 0 _

theorem Walk.splice
    (h : q.Walk newGuid current pos) {entries : List Lfg5Guids}
    (hentries : entries.Perm (q.compatibleList ++ q.compatibleTempList)) :
    Valid { q with compatibleList := entries, compatibleTempList := [] } := by
  refine ⟨⟨h.data, h.new, fun e he => ?_, ?_⟩, rfl⟩
  · rcases List.mem_append.mp (hentries.mem_iff.mp he) with he | he
    · exact h.entries e he
    · obtain ⟨l, hl, hp, -⟩ := h.temps e he
      exact ⟨l, hl, hp⟩
  · have hlive : (live entries).Perm (live q.compatibleList ++ live q.compatibleTempList) := by
      rw [← live_append]
      exact (hentries.map _).filter _
    rw [hlive.nodup_iff]
    refine h.distinct.append (h.distinctTemps.sublist List.filter_sublist) fun l hl hl' => ?_
    -- a waiting combination was not in the list when the walk began
    obtain ⟨-, e, he, hel⟩ := mem_live.mp hl
    obtain ⟨-, t, ht, htl⟩ := mem_live.mp hl'
    obtain ⟨m, hm, -, hmem, hcur, -⟩ := h.temps t ht
    obtain ⟨n, hn, -⟩ := h.entries e he
    have hnm : n = m := by rw [← hn.guids_eq, ← hm.guids_eq, hel, htl]
    refine hcur ?_
    rw [← (hn.raw_inj hm).mpr hnm]
    refine h.known e he ?_
    rw [hn.guids_eq, hnm]
    exact hmem

theorem Valid.removeFromNewQueue (h : q.Valid) (guid : ℕ) : (q.removeFromNewQueue guid).Valid :=
  ⟨⟨h.data, fun g hg => h.new g (List.mem_filter.mp hg).1, h.entries, h.distinct⟩, h.temp⟩

theorem Valid.findGroups (h : q.Valid) (w : World) : (q.findGroups w).Valid := by
  rw [LFGQueue.findGroups]
  cases hnew : q.newToQueueStore with
  | nil => exact h
  | cons newGuid rest =>
    have hne : newGuid ≠ 0 := h.new newGuid (hnew ▸ List.mem_cons_self)
    obtain ⟨pos, hwalk⟩ := (h.removeFromNewQueue newGuid).findNewGroups w hne
    apply hwalk.splice
    split
    · exact List.perm_append_comm
    · exact List.Perm.refl _

/-! ### The other calls -/

theorem Valid.of_same (h : q.Valid) (hsame : q.Same q') : q'.Valid := by
  refine ⟨h.toOrdered.of_same hsame.core hsame.list ?_, hsame.temp.trans h.temp⟩
  rw [hsame.new]
  exact h.new

theorem Valid.addToQueue (h : q.Valid) (guid : ℕ) (failedProposal : Bool) :
    (q.addToQueue guid failedProposal).Valid := by
  rw [LFGQueue.addToQueue]
  cases hd : q.queueDataStore.find? guid with
  | none => exact h
  | some d =>
    have hcore : q.core guid = some (d.roles, d.dungeons) := by rw [core, hd, Option.map_some]
    have hne := (h.data guid _ _ hcore).1
    dsimp only
    rw [addToNewQueue]
    split
    · refine ⟨⟨h.data, fun g hg => ?_, h.entries, h.distinct⟩, h.temp⟩
      rcases List.mem_cons.mp hg with rfl | hg
      · exact hne
      · exact h.new g hg
    · refine ⟨⟨h.data, fun g hg => ?_, h.entries, h.distinct⟩, h.temp⟩
      rcases List.mem_append.mp hg with hg | hg
      · exact h.new g hg
      · rw [List.mem_singleton.mp hg]
        exact hne

theorem Valid.addQueueData (h : q.Valid) {guid joinTime : ℕ} {dungeons : Finset ℕ}
    {roles : RoleRows} (sorted : roles.Pairwise (·.1 < ·.1)) (hne : guid ≠ 0)
    (hfresh : q.queueDataStore.find? guid = none) (hroles : roles ≠ [])
    (hlen : roles.length ≤ MAXGROUPSIZE) (hdungeons : dungeons ≠ ∅) :
    (q.addQueueData guid joinTime dungeons roles sorted).Valid := by
  rw [LFGQueue.addQueueData]
  apply Valid.addToQueue
  refine ⟨⟨fun g r ds hg => ?_, h.new, fun e he => ?_, h.distinct⟩, h.temp⟩
  · rw [core, KeyedList.find?_put] at hg
    split at hg
    · rename_i heq
      cases hg
      exact ⟨heq ▸ hne, hroles, hlen, hdungeons⟩
    · exact h.data g r ds hg
  · obtain ⟨l, hl, hp⟩ := h.entries e he
    refine ⟨l, hl, hp.of_core fun g hg => ?_⟩
    rw [core, KeyedList.find?_put, if_neg, core]
    rintro rfl
    have hkeyed := hp.keyed guid hg
    rw [core, hfresh] at hkeyed
    cases hkeyed

theorem Valid.removeFromQueue (h : q.Valid) (guid : ℕ) (keepData : Bool) :
    (q.removeFromQueue guid keepData).Valid := by
  refine ⟨h.toOrdered.removeFromQueue guid keepData, ?_⟩
  show q.compatibleTempList.filter _ = []
  rw [h.temp, List.filter_nil]

theorem Valid.expire (h : q.Valid) (guid : ℕ) : ((q.eraseData guid).removeFromQueue guid false).Valid := by
  refine ⟨h.toOrdered.remove guid (fun g => ?_) rfl fun g hg => (List.mem_filter.mp hg).1, ?_⟩
  · rw [core_removeFromQueue]
    by_cases hg : g = guid
    · exact .inr ⟨hg, if_pos ⟨rfl, hg⟩⟩
    · rw [if_neg fun hc => hg hc.2]
      exact .inl (by simp [core, eraseData, KeyedList.find?_erase, hg])
  · show q.compatibleTempList.filter _ = []
    rw [h.temp, List.filter_nil]

theorem same_updateBest (q : LFGQueue) (guid : ℕ) (entries : List Lfg5Guids) :
    q.Same (entries.foldl (fun q e => q.updateBestCompatibleInQueue guid e) q) :=
  foldl_invariant (I := fun q' => q.Same q')
    (fun q' e h => h.trans (same_adjust q' guid _ (updateBest_same e))) entries (Same.refl q)

theorem Valid.refreshData (h : q.Valid) (w : World) (guid : ℕ) (d : LfgQueueData) :
    (q.refreshData w guid d).Valid := by
  have hbest : (q.findBestCompatibleInQueue guid).1.Valid := h.of_same (same_updateBest q guid _)
  rw [LFGQueue.refreshData]
  dsimp only
  split
  · split
    · have hstamp := same_adjust (q.findBestCompatibleInQueue guid).1 guid
        (f := stampRefresh w.now) (fun _ => rfl) fun _ => ⟨rfl, rfl⟩
      exact (hbest.of_same hstamp).addToQueue guid false
    · exact hbest
  · exact h

theorem Valid.leave (h : q.Valid) (w : World) (guid : ℕ) : (leaveAllLfgQueues w (q.eraseData guid) guid).Valid := by
  have hexpire := h.expire guid
  rw [leaveAllLfgQueues]
  dsimp only
  split
  · exact hexpire
  · split
    · exact hexpire.removeFromQueue _ false
    · exact hexpire

theorem Valid.expireOrRefresh (h : q.Valid) {guids : List ℕ}
    (hrun : expireOrRefresh w guids q = some q') : q'.Valid := by
  induction guids generalizing q with
  | nil =>
    obtain rfl := Option.some.inj hrun
    exact h
  | cons guid rest ih =>
    rw [LFGQueue.expireOrRefresh] at hrun
    split at hrun
    · exact ih h hrun
    · split at hrun
      · dsimp only at hrun
        split at hrun
        · exact ih (h.leave w guid) hrun
        · cases hrun
      · exact ih (h.refreshData w guid _) hrun

theorem Valid.refreshStatus (h : q.Valid) (guid : ℕ) : (q.refreshStatus guid).Valid := by
  rw [LFGQueue.refreshStatus]
  cases q.queueDataStore.find? guid with
  | none => exact h
  | some d =>
    dsimp only
    split
    · exact h.of_same (same_updateBest q guid _)
    · exact h

theorem Valid.updateQueueTimers (h : q.Valid) {diff : ℕ}
    (hrun : q.updateQueueTimers w diff = some q') : q'.Valid := by
  rw [LFGQueue.updateQueueTimers] at hrun
  generalize decide (LFG_QUEUEUPDATE_INTERVAL < q.queueStatusTimer) = sendQueueStatus at hrun
  have hsweep : ∀ timer, Valid { q with
      queueStatusTimer := timer
      compatibleList := q.compatibleList.filter fun e => !e.empty } :=
    fun timer => ⟨⟨h.data, h.new, fun e he => h.entries e (List.mem_filter.mp he).1,
      h.distinct.sublist (live_filter_empty _)⟩, h.temp⟩
  dsimp only at hrun
  split at hrun
  · obtain rfl := Option.some.inj hrun
    exact foldl_invariant (fun q guid hq => hq.refreshStatus guid) _ (hsweep _)
  · exact (hsweep _).expireOrRefresh hrun

theorem valid_initial : initial.Valid := by
  refine ⟨⟨fun g roles dungeons hg => ?_, by simp [initial], by simp [initial], ?_⟩, rfl⟩
  · cases hg
  · exact List.nodup_nil

theorem Valid.step {c : Call} (h : q.Valid) (hs : q.step c = some q') : q'.Valid := by
  cases c with
  | addQueueData guid joinTime dungeons roles sorted =>
    obtain ⟨⟨hne, hfresh, hroles, hlen, hdungeons⟩, rfl⟩ := guarded_eq_some.mp hs
    exact h.addQueueData sorted hne hfresh hroles hlen hdungeons
  | addToQueue guid failedProposal =>
    cases hs
    exact h.addToQueue guid failedProposal
  | removeFromQueue guid keepData =>
    cases hs
    exact h.removeFromQueue guid keepData
  | findGroups w =>
    cases hs
    exact h.findGroups w
  | updateQueueTimers w diff => exact h.updateQueueTimers hs

theorem Reachable.valid (h : q.Reachable) : q.Valid := by
  refine Reaches.invariant (I := Valid) (fun q h0 => ?_) (fun q c q' hq _ hs => hq.step hs) h
  rw [show q = initial from h0]
  exact valid_initial

theorem Possible.eq_of_toFinset {c : ℕ → Option (RoleRows × Finset ℕ)} {l m : List ℕ}
    (hl : Possible c l) (hm : Possible c m) (h : l.toFinset = m.toFinset) : l = m := by
  have hne : ∀ {k : List ℕ}, Possible c k → k.Nodup := fun hk => hk.sorted.imp fun h => Nat.ne_of_lt h
  exact (List.perm_of_nodup_nodup_toFinset_eq (hne hl) (hne hm) h).eq_of_pairwise'
    hl.sorted hm.sorted

theorem Ordered.live_eq (h : q.Ordered) :
    live q.compatibleList = (q.compatibleList.filter fun e => !e.empty).map Lfg5Guids.guids := by
  rw [live, List.filter_map]
  congr 1
  refine List.filter_congr fun e he => ?_
  obtain ⟨l, hl, -⟩ := h.entries e he
  cases hempty : e.empty with
  | true => simp [hl.guids_eq, hl.empty_iff.mp hempty]
  | false =>
    have hl0 : l ≠ [] := fun h0 => by simp [hl.empty_iff.mpr h0] at hempty
    simp [hl.guids_eq, hl0]

/-! ### Entries that expire -/

/-- Whose entry `LeaveAllLfgQueues` removes beside that of `guid`. -/
def leavesWith (w : World) (guid : ℕ) : List ℕ :=
  if w.isGroupGuid guid = true ∨ w.groupOf guid = 0 then [] else [w.groupOf guid]

/-- Going over the queued guids in order, and striking out the group of each expired player: it is not the
next guid that is left. -/
def groupNotNext (w : World) (expired : ℕ → Bool) : List ℕ → List ℕ → Bool
  | _, [] => true
  | struck, guid :: rest =>
    if guid ∈ struck then groupNotNext w expired struck rest
    else if expired guid then
      (rest.find? (· ∉ struck)).all (· ∉ leavesWith w guid) &&
        groupNotNext w expired (leavesWith w guid ++ struck) rest
    else groupNotNext w expired struck rest

def joined (q : LFGQueue) (guid : ℕ) : Option ℕ := (q.queueDataStore.find? guid).map (·.joinTime)

def isExpired (w : World) (joinTime : Option ℕ) : Bool := joinTime.any fun t => decide (t + 2 * HOUR < w.now)

/-- The status of the queue is sent, and nothing expires; or the group of an expired player is not the next
entry. -/
def KeepsNext (w : World) (q : LFGQueue) : Prop :=
  LFG_QUEUEUPDATE_INTERVAL < q.queueStatusTimer ∨
    groupNotNext w (fun guid => isExpired w (q.joined guid)) []
      ((q.queueDataStore.rows.map (·.guid)).insertionSort (· ≤ ·)) = true

theorem joined_removeFromQueue (q : LFGQueue) (guid g : ℕ) :
    (q.removeFromQueue guid false).joined g = if g = guid then none else q.joined g := by
  have hstore : (q.removeFromQueue guid false).queueDataStore =
      (q.queueDataStore.mapRows (forgetBest guid) (forgetBest_guid guid)).erase guid := rfl
  rw [joined, hstore, KeyedList.find?_erase]
  split
  · rfl
  · rw [KeyedList.find?_mapRows, Option.map_map, joined]
    refine congrArg (Option.map · _) (funext fun d => ?_)
    rw [Function.comp_apply, forgetBest]
    split <;> rfl

theorem joined_eraseData (q : LFGQueue) (guid g : ℕ) :
    (q.eraseData guid).joined g = if g = guid then none else q.joined g := by
  rw [joined, eraseData, KeyedList.find?_erase]
  split <;> rfl

theorem joined_leave (w : World) (q : LFGQueue) {guid g : ℕ} (hne : g ≠ guid) :
    (leaveAllLfgQueues w (q.eraseData guid) guid).joined g = if g ∈ leavesWith w guid then none else q.joined g := by
  have hfirst : ((q.eraseData guid).removeFromQueue guid false).joined g = q.joined g := by
    rw [joined_removeFromQueue, if_neg hne, joined_eraseData, if_neg hne]
  rw [leaveAllLfgQueues]
  dsimp only
  by_cases hgroup : w.isGroupGuid guid = true
  · have halone : leavesWith w guid = [] := if_pos (.inl hgroup)
    rw [if_pos hgroup, halone, if_neg List.not_mem_nil, hfirst]
  rw [if_neg hgroup]
  by_cases hzero : w.groupOf guid = 0
  · have halone : leavesWith w guid = [] := if_pos (.inr hzero)
    rw [if_neg (not_not.mpr hzero), halone, if_neg List.not_mem_nil, hfirst]
  · have hboth : leavesWith w guid = [w.groupOf guid] := if_neg (not_or.mpr ⟨hgroup, hzero⟩)
    rw [if_pos hzero, hboth, joined_removeFromQueue, hfirst]
    simp only [List.mem_singleton]

theorem joined_adjust (q : LFGQueue) (guid : ℕ) {f : LfgQueueData → LfgQueueData} (hf : ∀ d, (f d).guid = d.guid)
    (hjoin : ∀ d, (f d).joinTime = d.joinTime) :
    joined { q with queueDataStore := q.queueDataStore.adjust guid f hf } = q.joined := by
  funext g
  rw [joined, KeyedList.find?_adjust, Option.map_map, joined]
  refine congrArg (Option.map · _) (funext fun d => ?_)
  rw [Function.comp_apply]
  split
  · exact hjoin d
  · rfl

theorem joined_addToQueue (q : LFGQueue) (guid : ℕ) : (q.addToQueue guid false).joined = q.joined := by
  rw [LFGQueue.addToQueue]
  split <;> rfl

theorem joined_refreshData (w : World) (q : LFGQueue) (guid : ℕ) (d : LfgQueueData) :
    (q.refreshData w guid d).joined = q.joined := by
  have hbest : (q.findBestCompatibleInQueue guid).1.joined = q.joined :=
    foldl_invariant (I := fun q' : LFGQueue => q'.joined = q.joined) (fun q' key hq' => by
      refine (joined_adjust q' guid (updateBest_guid key) fun d => ?_).trans hq'
      rw [updateBest]
      split <;> rfl) _ rfl
  rw [refreshData]
  dsimp only
  split
  · split
    · have hstamp := joined_adjust (q.findBestCompatibleInQueue guid).1 guid
        (f := stampRefresh w.now) (fun _ => rfl) fun _ => rfl
      exact (joined_addToQueue _ guid).trans (hstamp.trans hbest)
    · exact hbest
  · rfl

theorem queued_eq (q : LFGQueue) (guid : ℕ) : q.queued guid = (q.joined guid).isSome := by
  rw [queued, joined, Option.isSome_map]

/-- The induction is over the guids to come; those that are struck out are the ones that have left. -/
theorem isSome_expireOrRefresh {start : ℕ → Option ℕ} {guids struck : List ℕ}
    (hnodup : guids.Nodup) (hstart : ∀ g ∈ guids, (start g).isSome = true)
    (hq : ∀ g ∈ guids, q.joined g = if g ∈ struck then none else start g) :
    (expireOrRefresh w guids q).isSome = groupNotNext w (fun g => isExpired w (start g)) struck guids := by
  induction guids generalizing q struck with
  | nil => rfl
  | cons guid rest ih =>
    obtain ⟨hnot, hnodup⟩ := List.nodup_cons.mp hnodup
    have hstart' : ∀ g ∈ rest, (start g).isSome = true := fun g hg => hstart g (List.mem_cons_of_mem guid hg)
    have hq' : ∀ g ∈ rest, q.joined g = if g ∈ struck then none else start g :=
      fun g hg => hq g (List.mem_cons_of_mem guid hg)
    have hhead := hq guid List.mem_cons_self
    rw [groupNotNext, expireOrRefresh]
    by_cases hin : guid ∈ struck
    · rw [if_pos hin, joined, Option.map_eq_none_iff] at hhead
      rw [if_pos hin, hhead]
      exact ih hnodup hstart' hq'
    rw [if_neg hin, joined] at hhead
    rw [if_neg hin]
    cases hfind : q.queueDataStore.find? guid with
    | none =>
      have hsome := hstart guid List.mem_cons_self
      rw [← hhead, hfind] at hsome
      cases hsome
    | some d =>
      rw [hfind, Option.map_some] at hhead
      have hexpired : isExpired w (start guid) = decide (d.joinTime + 2 * HOUR < w.now) := by rw [← hhead]; rfl
      dsimp only
      rw [hexpired]
      by_cases hold : d.joinTime + 2 * HOUR < w.now
      · rw [if_pos hold, if_pos (decide_eq_true hold)]
        have hleft : ∀ g ∈ rest, (leaveAllLfgQueues w (q.eraseData guid) guid).joined g =
            if g ∈ leavesWith w guid ++ struck then none else start g := fun g hg => by
          rw [joined_leave w q (ne_of_mem_of_not_mem hg hnot), hq' g hg]
          by_cases hleaves : g ∈ leavesWith w guid
          · rw [if_pos hleaves, if_pos (List.mem_append_left _ hleaves)]
          · rw [if_neg hleaves]
            exact if_congr (by rw [List.mem_append, or_iff_right hleaves]) rfl rfl
        have hnext : rest.find? (q.eraseData guid).queued = rest.find? (· ∉ struck) :=
          List.find?_congr fun g hg => by
            rw [queued_eq, joined_eraseData, if_neg (ne_of_mem_of_not_mem hg hnot), hq' g hg]
            split <;> simp [*]
        have hstays : (rest.find? (· ∉ struck)).all (leaveAllLfgQueues w (q.eraseData guid) guid).queued =
            (rest.find? (· ∉ struck)).all (· ∉ leavesWith w guid) := by
          cases hfound : rest.find? (· ∉ struck) with
          | none => rfl
          | some next =>
            have hmem := List.mem_of_find?_eq_some hfound
            have hfree : next ∉ struck := by simpa using List.find?_some hfound
            rw [Option.all_some, Option.all_some, queued_eq, hleft next hmem]
            split <;> simp_all
        rw [hnext, hstays]
        split
        next hall =>
          rw [hall, Bool.true_and]
          exact ih hnodup hstart' hleft
        next hall => rw [Bool.not_eq_true _ |>.mp hall, Bool.false_and]; rfl
      · rw [if_neg hold, if_neg (by simpa using hold)]
        exact ih hnodup hstart' fun g hg => by rw [joined_refreshData]; exact hq' g hg

theorem isSome_updateQueueTimers (q : LFGQueue) (w : World) (diff : ℕ) :
    (q.updateQueueTimers w diff).isSome = true ↔ q.KeepsNext w := by
  have hperm := List.perm_insertionSort (· ≤ ·) (q.queueDataStore.rows.map (·.guid))
  rw [LFGQueue.updateQueueTimers, KeepsNext]
  dsimp only
  by_cases hsend : LFG_QUEUEUPDATE_INTERVAL < q.queueStatusTimer
  · rw [if_pos (decide_eq_true hsend)]
    exact iff_of_true rfl (.inl hsend)
  · rw [if_neg (by simpa using hsend), or_iff_right hsend]
    refine iff_of_eq (congrArg (· = true) (isSome_expireOrRefresh
      (hperm.nodup_iff.mpr q.queueDataStore.distinct) (fun g hg => show (q.joined g).isSome = true from ?_)
      fun g _ => (if_neg List.not_mem_nil).symm))
    obtain ⟨d, hd, rfl⟩ := List.mem_map.mp (hperm.mem_iff.mp hg)
    rw [joined, (q.queueDataStore.find?_eq_some_iff _ d).mpr ⟨hd, rfl⟩]
    rfl

/-- In every reachable state the entries of `CompatibleList` that are not cleared have different
guid sets, and each is packed from the left, sorted, made of queued guids with less than five
players together, and has a dungeon that all of them selected; and the timers can be updated unless the
group of an expired player is the next entry. -/
theorem reachable_compatibles (q : LFGQueue) (h : q.Reachable) :
    (((q.compatibleList.filter fun e => !e.empty).Pairwise
      fun e e' => e.guids.toFinset ≠ e'.guids.toFinset) ∧
    ∀ e ∈ q.compatibleList, ∃ l, l.length ≤ 5 ∧ e.raw = l ++ List.replicate (5 - l.length) 0 ∧
      0 ∉ l ∧ l.Pairwise (· < ·) ∧ (∀ g ∈ l, (q.queueDataStore.find? g).isSome) ∧
      q.playersOf l < MAXGROUPSIZE ∧ ∃ x, ∀ g ∈ l, x ∈ q.dungeonsOf g) ∧
    ∀ w diff, (q.step (.updateQueueTimers w diff)).isSome = true ↔ q.KeepsNext w := by
  have hq := h.valid
  refine ⟨⟨?_, fun e he => ?_⟩, q.isSome_updateQueueTimers⟩
  · have hmap : ((q.compatibleList.filter fun e => !e.empty).map Lfg5Guids.guids).Nodup := by
      rw [← hq.live_eq]
      exact hq.distinct
    refine (List.pairwise_map.mp hmap).imp_of_mem fun {e e'} he he' hne heq => hne ?_
    obtain ⟨l, hl, hp⟩ := hq.entries e (List.mem_filter.mp he).1
    obtain ⟨m, hm, hp'⟩ := hq.entries e' (List.mem_filter.mp he').1
    rw [hl.guids_eq, hm.guids_eq] at heq ⊢
    exact hp.eq_of_toFinset hp' heq
  · obtain ⟨l, hl, hp⟩ := hq.entries e he
    obtain ⟨x, hx⟩ := hp.common
    refine ⟨l, hl.length, hl.raw_eq, hl.nonzero, hp.sorted, fun g hg => ?_, ?_, x, fun g hg => ?_⟩
    · have hkeyed := hp.keyed g hg
      rwa [core, Option.isSome_map] at hkeyed
    · rw [playersOf_eq]
      exact hp.small
    · rw [dungeonsOf_eq]
      exact hx g hg

def quietWorld : World where
  isGroupGuid _ := false
  isLfgGroup _ := false
  hasIgnore _ _ := false
  isQueued _ := true
  ownQueue _ := true
  wasInDungeon _ := false
  groupOf _ := 0
  now := 50
  roll := 0
  coin _ := false

def joinAlone (guid : ℕ) (role : Role) : Call :=
  .addQueueData guid 5 {7} [(guid, role)] (List.pairwise_singleton _ _)

theorem reachable_compatibles_three : ∃ q : LFGQueue, q.Reachable ∧
    q.compatibleList.map (·.raw) = [[3, 0, 0, 0, 0], [3, 4, 0, 0, 0], [4, 0, 0, 0, 0]] ∧
    ∀ e ∈ q.compatibleList, ∃ l, e.raw = l ++ List.replicate (5 - l.length) 0 ∧
      q.playersOf l < MAXGROUPSIZE := by
  have hstart : Starts initial := rfl
  obtain ⟨q, hq, h⟩ := Reaches.exists_of_replay LFGQueue.step anyStep hstart
    [joinAlone 4 PLAYER_ROLE_TANK, joinAlone 2 PLAYER_ROLE_HEALER, joinAlone 3 PLAYER_ROLE_DAMAGE,
      .findGroups quietWorld, .findGroups quietWorld, .removeFromQueue 2 false, .addToQueue 3 true,
      .findGroups quietWorld, .updateQueueTimers quietWorld 10]
    (replayOk_anyStep ..) (fun q => decide (q.compatibleList.map (·.raw) =
      [[3, 0, 0, 0, 0], [3, 4, 0, 0, 0], [4, 0, 0, 0, 0]])) (by decide +kernel)
  refine ⟨q, hq, of_decide_eq_true h, fun e he => ?_⟩
  obtain ⟨l, -, hraw, -, -, -, hsmall, -⟩ := (reachable_compatibles q hq).1.2 e he
  exact ⟨l, hraw, hsmall⟩

def laterWorld : World :=
  { quietWorld with
    isGroupGuid := fun g => decide (g = 100)
    groupOf := fun g => if g = 4 then 100 else 0
    now := 7300 }

/-- Player 4 and her group 100 are queued for two hours; the entry of the group is removed with hers. -/
theorem next_entry_removed : ∃ q : LFGQueue, q.Reachable ∧
    q.step (.updateQueueTimers laterWorld 10) = none := by
  have hstart : Starts initial := rfl
  obtain ⟨q, hq, h⟩ := Reaches.exists_of_replay LFGQueue.step anyStep hstart
    [joinAlone 4 PLAYER_ROLE_TANK, joinAlone 100 PLAYER_ROLE_HEALER] (replayOk_anyStep ..)
    (fun q => (q.step (.updateQueueTimers laterWorld 10)).isNone) (by decide +kernel)
  exact ⟨q, hq, Option.isNone_iff_eq_none.mp h⟩

end LFGQueue

end HysteriaCore.Dungeon
