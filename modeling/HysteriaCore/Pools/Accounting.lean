import HysteriaCore.Pools.PoolMgr
import HysteriaCore.Lib.Counting
import HysteriaCore.Lib.Runs

/-!
# The counters of the pools

The counter of a pool is the number of its members that are active. An activation keeps this if the object
has not been active and the pool, where it is itself a member of a pool, has been; a removal, if the object
has been active and leaves no active members behind.
-/

namespace HysteriaCore.Pools
open Lib

namespace ActivePoolData
variable (d : ActivePoolData) (k k' : Kind) (guid guid' p q n : ℕ)

theorem isActiveObject_iff (hk : k ≠ .pool) : d.isActiveObject k guid = true ↔ guid ∈ d.spawned k := by
  cases k with
  | pool => exact absurd rfl hk
  | creature => exact decide_eq_true_iff
  | gameobject => exact decide_eq_true_iff
  | quest => exact decide_eq_true_iff

theorem spawned_insert (hk : k ≠ .pool) : (d.insert k guid).spawned =
    Function.update d.spawned k ((d.spawned k).insert guid) := by
  cases k with
  | pool => exact absurd rfl hk
  | creature => rfl
  | gameobject => rfl
  | quest => rfl

theorem spawned_erase (hk : k ≠ .pool) : (d.erase k guid).spawned =
    Function.update d.spawned k ((d.spawned k).filter fun g => decide (g ≠ guid)) := by
  cases k with
  | pool => exact absurd rfl hk
  | creature => rfl
  | gameobject => rfl
  | quest => rfl

theorem spawnedPools_insert (h : ¬(k = .pool ∧ q = guid)) : (d.insert k guid).spawnedPools q = d.spawnedPools q := by
  cases k with
  | pool => exact Function.update_of_ne (fun heq => h ⟨rfl, heq⟩) _ _
  | creature => rfl
  | gameobject => rfl
  | quest => rfl

theorem spawnedPools_erase (h : ¬(k = .pool ∧ q = guid)) : (d.erase k guid).spawnedPools q = d.spawnedPools q := by
  cases k with
  | pool => exact Function.update_of_ne (fun heq => h ⟨rfl, heq⟩) _ _
  | creature => rfl
  | gameobject => rfl
  | quest => rfl

theorem isActiveObject_insert : (d.insert k guid).isActiveObject k' guid' = true ↔
    k' = k ∧ guid' = guid ∨ d.isActiveObject k' guid' = true := by
  by_cases hpool : k' = .pool
  · subst hpool
    show ((d.insert k guid).spawnedPools guid').isSome = true ↔ _ ∨ (d.spawnedPools guid').isSome = true
    by_cases hsame : k = .pool ∧ guid' = guid
    · obtain ⟨rfl, rfl⟩ := hsame
      refine iff_of_true ?_ (.inl ⟨rfl, rfl⟩)
      exact congrArg Option.isSome (Function.update_self guid' (some 0) d.spawnedPools)
    · rw [d.spawnedPools_insert k guid guid' hsame]
      exact (or_iff_right fun h => hsame ⟨h.1.symm, h.2⟩).symm
  · rw [isActiveObject_iff _ _ _ hpool, isActiveObject_iff _ _ _ hpool]
    by_cases hk : k' = k
    · subst hk
      rw [spawned_insert _ _ _ hpool, Function.update_self, List.mem_insert_iff, and_iff_right rfl]
    · rw [or_iff_right fun h => hk h.1]
      cases k with
      | pool => rfl
      | creature => exact Iff.of_eq (congrArg (guid' ∈ ·) (Function.update_of_ne hk _ _))
      | gameobject => exact Iff.of_eq (congrArg (guid' ∈ ·) (Function.update_of_ne hk _ _))
      | quest => exact Iff.of_eq (congrArg (guid' ∈ ·) (Function.update_of_ne hk _ _))

theorem isActiveObject_erase : (d.erase k guid).isActiveObject k' guid' = true ↔
    ¬(k' = k ∧ guid' = guid) ∧ d.isActiveObject k' guid' = true := by
  by_cases hpool : k' = .pool
  · subst hpool
    show ((d.erase k guid).spawnedPools guid').isSome = true ↔ _ ∧ (d.spawnedPools guid').isSome = true
    by_cases hsame : k = .pool ∧ guid' = guid
    · obtain ⟨rfl, rfl⟩ := hsame
      refine iff_of_false ?_ fun h => h.1 ⟨rfl, rfl⟩
      rw [show (d.erase .pool guid').spawnedPools guid' = none from Function.update_self _ _ _]
      exact Bool.false_ne_true
    · rw [d.spawnedPools_erase k guid guid' hsame]
      exact (and_iff_right fun h => hsame ⟨h.1.symm, h.2⟩).symm
  · rw [isActiveObject_iff _ _ _ hpool, isActiveObject_iff _ _ _ hpool]
    by_cases hk : k' = k
    · subst hk
      rw [spawned_erase _ _ _ hpool, Function.update_self, List.mem_filter, decide_eq_true_iff, and_comm]
      simp
    · rw [and_iff_right fun h => hk h.1]
      cases k with
      | pool => rfl
      | creature => exact Iff.of_eq (congrArg (guid' ∈ ·) (Function.update_of_ne hk _ _))
      | gameobject => exact Iff.of_eq (congrArg (guid' ∈ ·) (Function.update_of_ne hk _ _))
      | quest => exact Iff.of_eq (congrArg (guid' ∈ ·) (Function.update_of_ne hk _ _))

theorem isActiveObject_setCount : (d.setCount p n).isActiveObject k guid = true ↔
    k = .pool ∧ guid = p ∨ d.isActiveObject k guid = true := by
  cases k with
  | pool =>
    show (Function.update d.spawnedPools p (some n) guid).isSome = true ↔ _ ∨ (d.spawnedPools guid).isSome = true
    by_cases hg : guid = p
    · subst hg
      rw [Function.update_self]
      exact iff_of_true rfl (.inl ⟨rfl, rfl⟩)
    · rw [Function.update_of_ne hg]
      exact (or_iff_right fun h => hg h.2).symm
  | creature => exact (or_iff_right fun h => nomatch h.1).symm
  | gameobject => exact (or_iff_right fun h => nomatch h.1).symm
  | quest => exact (or_iff_right fun h => nomatch h.1).symm

theorem getActiveObjectCount_setCount_self : (d.setCount p n).getActiveObjectCount p = n := by
  simp only [getActiveObjectCount, setCount, Function.update_self, Option.getD_some]

theorem isActiveObject_activateObject : (d.activateObject k guid p).isActiveObject k' guid' = true ↔
    k' = .pool ∧ guid' = p ∨ k' = k ∧ guid' = guid ∨ d.isActiveObject k' guid' = true := by
  rw [← d.isActiveObject_insert k k' guid guid']
  exact isActiveObject_setCount { d.insert k guid with activations := d.activations ++ [(k, guid, p)] } k' guid' p _

theorem isActiveObject_removeObject : (d.removeObject k guid p).isActiveObject k' guid' = true ↔
    k' = .pool ∧ guid' = p ∨ ¬(k' = k ∧ guid' = guid) ∧ d.isActiveObject k' guid' = true := by
  rw [← d.isActiveObject_erase k k' guid guid']
  exact isActiveObject_setCount (d.erase k guid) k' guid' p _

theorem spawnedPools_activateObject (hp : q ≠ p) (h : ¬(k = .pool ∧ q = guid)) :
    (d.activateObject k guid p).spawnedPools q = d.spawnedPools q :=
  (Function.update_of_ne hp _ _).trans (d.spawnedPools_insert k guid q h)

theorem spawnedPools_removeObject (hp : q ≠ p) (h : ¬(k = .pool ∧ q = guid)) :
    (d.removeObject k guid p).spawnedPools q = d.spawnedPools q :=
  (Function.update_of_ne hp _ _).trans (d.spawnedPools_erase k guid q h)

theorem getActiveObjectCount_activateObject (hinactive : d.isActiveObject k guid = false) (hne : k = .pool → p ≠ guid) :
    (d.activateObject k guid p).getActiveObjectCount q = d.getActiveObjectCount q + if q = p then 1 else 0 := by
  by_cases hq : q = p
  · subst hq
    have hsame : (d.insert k guid).spawnedPools q = d.spawnedPools q :=
      d.spawnedPools_insert k guid q fun h => hne h.1 h.2
    rw [if_pos rfl, activateObject]
    dsimp only
    rw [getActiveObjectCount_setCount_self, getActiveObjectCount, getActiveObjectCount]
    dsimp only
    rw [hsame]
  · rw [if_neg hq, getActiveObjectCount, getActiveObjectCount]
    by_cases hself : k = .pool ∧ q = guid
    · obtain ⟨rfl, rfl⟩ := hself
      have hnone : d.spawnedPools q = none := Option.isNone_iff_eq_none.mp (Option.isSome_eq_false_iff.mp hinactive)
      have hzero : (d.activateObject .pool q p).spawnedPools q = some 0 :=
        (Function.update_of_ne hq _ _).trans (Function.update_self _ _ _)
      rw [hnone, hzero]
      rfl
    · rw [d.spawnedPools_activateObject k guid p q hq hself, Nat.add_zero]

theorem getActiveObjectCount_removeObject (hempty : k = .pool → d.getActiveObjectCount guid = 0)
    (hne : k = .pool → p ≠ guid) :
    (d.removeObject k guid p).getActiveObjectCount q = d.getActiveObjectCount q - if q = p then 1 else 0 := by
  by_cases hq : q = p
  · subst hq
    have hsame : (d.erase k guid).spawnedPools q = d.spawnedPools q :=
      d.spawnedPools_erase k guid q fun h => hne h.1 h.2
    rw [if_pos rfl, removeObject, getActiveObjectCount_setCount_self, getActiveObjectCount, getActiveObjectCount, hsame]
  · rw [if_neg hq, Nat.sub_zero]
    by_cases hself : k = .pool ∧ q = guid
    · obtain ⟨rfl, rfl⟩ := hself
      have hnone : (d.removeObject .pool q p).spawnedPools q = none :=
        (Function.update_of_ne hq _ _).trans (Function.update_self _ _ _)
      rw [hempty rfl, getActiveObjectCount, hnone]
      rfl
    · rw [getActiveObjectCount, getActiveObjectCount, d.spawnedPools_removeObject k guid p q hq hself]

end ActivePoolData

variable {T : Tables} {d d' : ActivePoolData} {k : Kind} {p : ℕ}

def activeMembers (T : Tables) (d : ActivePoolData) (p : ℕ) : ℕ :=
  T.rows.countP fun r => decide (r.pool = p) && d.isActiveObject r.kind r.guid

structure Exact (T : Tables) (d : ActivePoolData) : Prop where
  counted : ∀ p, d.getActiveObjectCount p = activeMembers T d p
  member : ∀ a ∈ d.activations, ∃ r ∈ T.rows, (r.kind, r.guid, r.pool) = a

def Ready (T : Tables) (d : ActivePoolData) (p : ℕ) : Prop :=
  ∀ r ∈ T.rows, r.kind = .pool → r.guid = p → (d.spawnedPools p).isSome = true

instance : Decidable (Ready T d p) := inferInstanceAs (Decidable (∀ r ∈ T.rows, _))

namespace Tables

theorem Member.rank_lt (o : T.Member .pool p) : T.rank o.guid < T.rank p := by
  have hranked := T.ranked o.1 o.2.1 o.2.2.1
  rwa [o.2.2.2] at hranked

theorem Member.ne_pool (o : T.Member k p) (hk : k = .pool) : p ≠ o.guid := by
  subst hk
  intro heq
  have hlt := o.rank_lt
  rw [← heq] at hlt
  exact lt_irrefl _ hlt

theorem mem_objects (o : T.Member k p) : o ∈ T.objects k p := by
  have hmem : o.1 ∈ T.rows.filter fun r => decide (r.kind = k ∧ r.pool = p) :=
    List.mem_filter.mpr ⟨o.2.1, decide_eq_true o.2.2⟩
  exact List.mem_map.mpr ⟨⟨o.1, hmem⟩, List.mem_attach _ _, rfl⟩

theorem objects_perm : (T.equalChanced k p ++ T.explicitlyChanced k p).Perm (T.objects k p) :=
  List.perm_append_comm.trans (List.filter_append_perm _ _)

theorem guids_nodup : ((T.objects k p).map Member.guid).Nodup := by
  have hdistinct : ((T.rows.filter fun r => decide (r.kind = k ∧ r.pool = p)).map fun r => (r.kind, r.guid)).Nodup :=
    T.distinct.sublist (List.filter_sublist.map _)
  have hpairs : (T.objects k p).map (fun o => (o.1.kind, o.1.guid))
      = (T.rows.filter fun r => decide (r.kind = k ∧ r.pool = p)).map fun r => (r.kind, r.guid) := by
    rw [objects, List.map_map]
    exact List.attach_map_val (f := fun r : Row => (r.kind, r.guid))
  rw [← hpairs] at hdistinct
  have hsnd : (T.objects k p).map (fun o => (o.1.kind, o.1.guid)) = ((T.objects k p).map Member.guid).map (Prod.mk k) := by
    rw [List.map_map]
    exact List.map_congr_left fun o _ => by simp [Member.guid, o.2.2.1]
  rw [hsnd] at hdistinct
  exact hdistinct.of_map _

end Tables

theorem inactive_removeObject (o : T.Member k p) : (d.removeObject k o.guid p).isActiveObject k o.guid = false := by
  rw [Bool.eq_false_iff, Ne, d.isActiveObject_removeObject]
  rintro (⟨hk, hp⟩ | ⟨hne, -⟩)
  · exact o.ne_pool hk hp.symm
  · exact hne ⟨rfl, rfl⟩

namespace Exact

theorem count_pos (h : Exact T d) (o : T.Member k p) (hactive : d.isActiveObject k o.guid = true) :
    0 < d.getActiveObjectCount p := by
  rw [h.counted, activeMembers, List.countP_pos_iff]
  refine ⟨o.1, o.2.1, ?_⟩
  rw [o.2.2.1, o.2.2.2, decide_eq_true rfl]
  exact hactive

theorem pool_active (h : Exact T d) (o : T.Member k p) (hactive : d.isActiveObject k o.guid = true) :
    (d.spawnedPools p).isSome = true := by
  have hpos := h.count_pos o hactive
  rw [ActivePoolData.getActiveObjectCount] at hpos
  cases hcount : d.spawnedPools p with
  | none => simp [hcount] at hpos
  | some n => rfl

theorem count_eq_zero (h : Exact T d) (hall : ∀ k, ∀ o : T.Member k p, d.isActiveObject k o.guid = false) :
    d.getActiveObjectCount p = 0 := by
  rw [h.counted, activeMembers, List.countP_eq_zero]
  intro r hr
  by_cases hpool : r.pool = p
  · have hinactive : d.isActiveObject r.kind r.guid = false := hall r.kind ⟨r, hr, rfl, hpool⟩
    simp [hinactive]
  · simp [hpool]

theorem activeMembers_switch (o : T.Member k p)
    (hother : ∀ r ∈ T.rows, ¬(r.kind = k ∧ r.guid = o.guid) → d'.isActiveObject r.kind r.guid = d.isActiveObject r.kind r.guid)
    (q : ℕ) :
    activeMembers T d' q + (if q = p ∧ d.isActiveObject k o.guid = true then 1 else 0) =
      activeMembers T d q + if q = p ∧ d'.isActiveObject k o.guid = true then 1 else 0 := by
  have hswitch := countP_switch T.distinct o.2.1
    (p := fun r => decide (r.pool = q) && d.isActiveObject r.kind r.guid)
    (q := fun r => decide (r.pool = q) && d'.isActiveObject r.kind r.guid) fun r hr hne => by
      rw [hother r hr fun h => hne (by rw [h.1, h.2, o.2.2.1]; rfl)]
  rw [o.2.2.1, o.2.2.2] at hswitch
  simp only [Bool.and_eq_true, decide_eq_true_iff, @eq_comm _ p q] at hswitch
  exact hswitch

theorem activate (h : Exact T d) (o : T.Member k p) (hinactive : d.isActiveObject k o.guid = false)
    (hready : Ready T d p) : Exact T (d.activateObject k o.guid p) where
  counted := fun q => by
    have hother : ∀ r ∈ T.rows, ¬(r.kind = k ∧ r.guid = o.guid) →
        (d.activateObject k o.guid p).isActiveObject r.kind r.guid = d.isActiveObject r.kind r.guid := by
      intro r hr hne
      rw [Bool.eq_iff_iff, d.isActiveObject_activateObject]
      constructor
      · rintro (⟨hk, hp⟩ | hsame | hactive)
        · rw [hk]
          exact hp ▸ hready r hr hk hp
        · exact absurd hsame hne
        · exact hactive
      · exact fun hactive => .inr (.inr hactive)
    have hactive : (d.activateObject k o.guid p).isActiveObject k o.guid = true :=
      (d.isActiveObject_activateObject k k o.guid o.guid p).mpr (.inr (.inl ⟨rfl, rfl⟩))
    have hswitch := activeMembers_switch o hother q
    rw [hinactive, hactive] at hswitch
    simp only [Bool.false_eq_true, and_false, if_false, Nat.add_zero, and_true] at hswitch
    rw [d.getActiveObjectCount_activateObject k o.guid p q hinactive o.ne_pool, h.counted, hswitch]
  member := fun a ha => by
    have hlog : (d.activateObject k o.guid p).activations = d.activations ++ [(k, o.guid, p)] := rfl
    rw [hlog] at ha
    rcases List.mem_append.mp ha with ha | ha
    · exact h.member a ha
    · obtain rfl := List.mem_singleton.mp ha
      exact ⟨o.1, o.2.1, by rw [o.2.2.1, o.2.2.2]; rfl⟩

theorem remove (h : Exact T d) (o : T.Member k p) (hactive : d.isActiveObject k o.guid = true)
    (hempty : k = .pool → d.getActiveObjectCount o.guid = 0) : Exact T (d.removeObject k o.guid p) where
  counted := fun q => by
    have hother : ∀ r ∈ T.rows, ¬(r.kind = k ∧ r.guid = o.guid) →
        (d.removeObject k o.guid p).isActiveObject r.kind r.guid = d.isActiveObject r.kind r.guid := by
      intro r hr hne
      rw [Bool.eq_iff_iff, d.isActiveObject_removeObject]
      constructor
      · rintro (⟨hk, hp⟩ | ⟨-, hstill⟩)
        · rw [hk, hp]
          exact h.pool_active o hactive
        · exact hstill
      · exact fun hstill => .inr ⟨hne, hstill⟩
    have hremoved := inactive_removeObject (d := d) o
    have hswitch := activeMembers_switch o hother q
    rw [hactive, hremoved] at hswitch
    simp only [Bool.false_eq_true, and_false, if_false, Nat.add_zero, and_true] at hswitch
    rw [d.getActiveObjectCount_removeObject k o.guid p q hempty o.ne_pool, h.counted]
    omega
  member := by
    have hlog : (d.removeObject k o.guid p).activations = d.activations := by
      cases k <;> rfl
    rw [hlog]
    exact h.member

end Exact

/-! ### Despawning -/

/-- What despawning members of `p` leaves: pools of higher rank are not touched. -/
structure Despawned (T : Tables) (p : ℕ) (d d' : ActivePoolData) : Prop where
  exact : Exact T d'
  le : ∀ q, d'.getActiveObjectCount q ≤ d.getActiveObjectCount q
  frame : ∀ q, T.rank p < T.rank q → d'.spawnedPools q = d.spawnedPools q
  self : (d.spawnedPools p).isSome = true → (d'.spawnedPools p).isSome = true
  fewer : ∀ k g, d'.isActiveObject k g = true → d.isActiveObject k g = true

theorem Despawned.refl (h : Exact T d) : Despawned T p d d :=
  ⟨h, fun _ => le_rfl, fun _ _ => rfl, fun h => h, fun _ _ h => h⟩

theorem Despawned.trans {d'' : ActivePoolData} (h : Despawned T p d d') (h' : Despawned T p d' d'') :
    Despawned T p d d'' where
  exact := h'.exact
  le := fun q => (h'.le q).trans (h.le q)
  frame := fun q hq => (h'.frame q hq).trans (h.frame q hq)
  self := fun hp => h'.self (h.self hp)
  fewer := fun k g hg => h.fewer k g (h'.fewer k g hg)

/-- A member whose own members have been despawned, and which is still active. -/
structure Emptied (o : T.Member k p) (d d' : ActivePoolData) : Prop where
  exact : Exact T d'
  le : ∀ q, d'.getActiveObjectCount q ≤ d.getActiveObjectCount q
  frame : ∀ q, T.rank p ≤ T.rank q → d'.spawnedPools q = d.spawnedPools q
  fewer : ∀ k g, d'.isActiveObject k g = true → d.isActiveObject k g = true
  active : d'.isActiveObject k o.guid = true
  empty : k = .pool → d'.getActiveObjectCount o.guid = 0

variable {o : T.Member k p}

theorem Emptied.refl (hk : k ≠ .pool) (h : Exact T d) (hactive : d.isActiveObject k o.guid = true) :
    Emptied o d d := ⟨h, fun _ => le_rfl, fun _ _ => rfl, fun _ _ h => h, hactive, fun heq => absurd heq hk⟩

theorem Emptied.of_despawned {o : T.Member .pool p} (h : Despawned T o.guid d d')
    (hactive : d.isActiveObject .pool o.guid = true) (hzero : d'.getActiveObjectCount o.guid = 0) : Emptied o d d' :=
  ⟨h.exact, h.le, fun q hq => h.frame q (o.rank_lt.trans_le hq), h.fewer, h.self hactive, fun _ => hzero⟩

theorem Emptied.remove (h : Emptied o d d') : Despawned T p d (d'.removeObject k o.guid p) where
  exact := h.exact.remove o h.active h.empty
  le := fun q => by
    rw [d'.getActiveObjectCount_removeObject k o.guid p q h.empty o.ne_pool]
    exact (Nat.sub_le _ _).trans (h.le q)
  frame := fun q hq => by
    have hself : ¬(k = .pool ∧ q = o.guid) := by
      rintro ⟨rfl, rfl⟩
      exact absurd hq o.rank_lt.not_gt
    rw [d'.spawnedPools_removeObject k o.guid p q (fun heq => absurd hq (heq ▸ lt_irrefl _)) hself]
    exact h.frame q hq.le
  self := fun _ => (d'.isActiveObject_removeObject k .pool o.guid p p).mpr (.inl ⟨rfl, rfl⟩)
  fewer := fun k' g hg => by
    rcases (d'.isActiveObject_removeObject k k' o.guid g p).mp hg with ⟨rfl, rfl⟩ | ⟨-, hg⟩
    · have hpool := h.exact.pool_active o h.active
      rwa [h.frame g le_rfl] at hpool
    · exact h.fewer k' g hg

namespace PoolMgr
variable {m : PoolMgr} {despawn1 : T.Member k p → PoolMgr → PoolMgr}

def Empties (despawn1 : T.Member k p → PoolMgr → PoolMgr) : Prop :=
  ∀ o m, Exact T m.data → m.data.isActiveObject k o.guid = true → Emptied o m.data (despawn1 o m).data

theorem empties_plain (hk : k ≠ .pool) : Empties fun (_ : T.Member k p) m => m :=
  fun _ _ h hactive => .refl hk h hactive

theorem despawnTurn_spec (hempties : Empties despawn1) (h : Exact T m.data) (guid : ℕ) (o : T.Member k p) :
    Despawned T p m.data (despawnTurn T k p despawn1 guid m o).data := by
  unfold despawnTurn
  split
  next hdespawns => exact (hempties o m h hdespawns.1).remove
  · exact .refl h

theorem foldl_despawnTurn_spec (hempties : Empties despawn1) (h : Exact T m.data) (guid : ℕ) (os : List (T.Member k p)) :
    Despawned T p m.data (os.foldl (despawnTurn T k p despawn1 guid) m).data := by
  induction os generalizing m with
  | nil => exact .refl h
  | cons o os ih =>
    have hturn := despawnTurn_spec hempties h guid o
    exact hturn.trans (ih hturn.exact)

theorem despawnObject_spec (hempties : Empties despawn1) (h : Exact T m.data) (guid : ℕ) :
    Despawned T p m.data (despawnObject T k p despawn1 guid m).data := foldl_despawnTurn_spec hempties h guid _

theorem foldl_despawnTurn_inactive (hempties : Empties despawn1) (os : List (T.Member k p)) (h : Exact T m.data)
    (ho : o ∈ os) : (os.foldl (despawnTurn T k p despawn1 0) m).data.isActiveObject k o.guid = false := by
  induction os generalizing m with
  | nil => exact absurd ho List.not_mem_nil
  | cons o' os ih =>
    have hturn := despawnTurn_spec hempties h 0 o'
    rcases List.mem_cons.mp ho with rfl | ho
    · have hrest := foldl_despawnTurn_spec hempties hturn.exact 0 os
      have hinactive : (despawnTurn T k p despawn1 0 m o).data.isActiveObject k o.guid = false := by
        unfold despawnTurn
        split
        · exact inactive_removeObject o
        next hnot => exact Bool.eq_false_iff.mpr fun hactive => hnot ⟨hactive, .inl rfl⟩
      exact Bool.eq_false_iff.mpr fun hactive => Bool.eq_false_iff.mp hinactive (hrest.fewer k _ hactive)
    · exact ih hturn.exact ho

theorem despawnObject_inactive (hempties : Empties despawn1) (h : Exact T m.data) (o : T.Member k p) :
    (despawnObject T k p despawn1 0 m).data.isActiveObject k o.guid = false :=
  foldl_despawnTurn_inactive hempties _ h (Tables.objects_perm.mem_iff.mpr (Tables.mem_objects o))

theorem foldl_despawnTurn_skip {guid : ℕ} (hguid : guid ≠ 0) (os : List (T.Member k p)) (h : ∀ o ∈ os, o.guid ≠ guid) :
    os.foldl (despawnTurn T k p despawn1 guid) m = m := by
  induction os with
  | nil => rfl
  | cons o os ih =>
    have hskip : despawnTurn T k p despawn1 guid m o = m :=
      if_neg fun hdespawns => hdespawns.2.elim hguid (h o List.mem_cons_self)
    rw [List.foldl_cons, hskip]
    exact ih fun o' ho' => h o' (List.mem_cons_of_mem _ ho')

theorem despawnObject_trigger (o : T.Member k p) (hguid : o.guid ≠ 0)
    (hactive : m.data.isActiveObject k o.guid = true) :
    despawnObject T k p despawn1 o.guid m = (despawn1 o m).remove k o.guid p := by
  have hnodup := (Tables.objects_perm.map Tables.Member.guid).nodup_iff.mpr (Tables.guids_nodup (T := T) (k := k) (p := p))
  obtain ⟨s, t, hsplit⟩ := List.append_of_mem (Tables.objects_perm.mem_iff.mpr (Tables.mem_objects o))
  rw [hsplit, List.map_append, List.map_cons, List.nodup_middle, List.nodup_cons, List.mem_append] at hnodup
  have hturn : despawnTurn T k p despawn1 o.guid m o = (despawn1 o m).remove k o.guid p := if_pos ⟨hactive, .inr rfl⟩
  rw [despawnObject, hsplit, List.foldl_append, List.foldl_cons,
    foldl_despawnTurn_skip hguid s fun o' ho' heq => hnodup.1 (.inl (heq ▸ List.mem_map_of_mem ho')), hturn,
    foldl_despawnTurn_skip hguid t fun o' ho' heq => hnodup.1 (.inr (heq ▸ List.mem_map_of_mem ho'))]

theorem foldl_despawnTurn_frame (hk : k ≠ .pool) (guid : ℕ) (os : List (T.Member k p)) {q : ℕ} (hq : q ≠ p) :
    (os.foldl (despawnTurn T k p (fun _ m => m) guid) m).data.spawnedPools q = m.data.spawnedPools q := by
  induction os generalizing m with
  | nil => rfl
  | cons o os ih =>
    rw [List.foldl_cons, ih]
    unfold despawnTurn
    split
    · exact m.data.spawnedPools_removeObject k o.guid p q hq fun h => hk h.1
    · rfl

theorem despawnPool_spec (h : Exact T m.data) :
    Despawned T p m.data (despawnPool T p m).data ∧ (despawnPool T p m).data.getActiveObjectCount p = 0 := by
  induction hrank : T.rank p using Nat.strong_induction_on generalizing p m with
  | _ rank ih =>
    subst hrank
    have hpools : Empties fun (o : T.Member .pool p) m => despawnPool T o.guid m := by
      intro o m hm hactive
      obtain ⟨hdespawned, hzero⟩ := ih (T.rank o.guid) o.rank_lt hm rfl
      exact .of_despawned hdespawned hactive hzero
    rw [despawnPool]
    have hcreatures : Empties fun (_ : T.Member .creature p) m => m := empties_plain (by decide)
    have hgameobjects : Empties fun (_ : T.Member .gameobject p) m => m := empties_plain (by decide)
    have hquests : Empties fun (_ : T.Member .quest p) m => m := empties_plain (by decide)
    have h₁ := despawnObject_spec hcreatures h 0
    have h₂ := despawnObject_spec hgameobjects h₁.exact 0
    have h₃ := despawnObject_spec hpools h₂.exact 0
    have h₄ := despawnObject_spec hquests h₃.exact 0
    refine ⟨((h₁.trans h₂).trans h₃).trans h₄, h₄.exact.count_eq_zero fun k o => ?_⟩
    -- what has been despawned stays despawned
    cases k with
    | creature =>
      have hinactive := despawnObject_inactive hcreatures h o
      exact Bool.eq_false_iff.mpr fun hactive =>
        Bool.eq_false_iff.mp hinactive (((h₂.trans h₃).trans h₄).fewer _ _ hactive)
    | gameobject =>
      have hinactive := despawnObject_inactive hgameobjects h₁.exact o
      exact Bool.eq_false_iff.mpr fun hactive => Bool.eq_false_iff.mp hinactive ((h₃.trans h₄).fewer _ _ hactive)
    | pool =>
      have hinactive := despawnObject_inactive hpools h₂.exact o
      exact Bool.eq_false_iff.mpr fun hactive => Bool.eq_false_iff.mp hinactive (h₄.fewer _ _ hactive)
    | quest => exact despawnObject_inactive hquests h₃.exact o

end PoolMgr

end HysteriaCore.Pools
