import HysteriaCore.Pools.Accounting

/-!
# Spawning within the limits

The loop of `SpawnObject` has as many turns as the pool has places, and one more for the object that
triggers it, whose place is given away with the first activation. The quests of a pool are replaced as a
whole; the quests for a second round are drawn from those that were active in any pool.
-/

namespace HysteriaCore.Pools
open Lib

variable {T : Tables} {d d' : ActivePoolData} {k : Kind} {p : ℕ}

/-- What spawning members of `p` leaves: the counters are within the limits or have not grown. -/
structure Spawned (T : Tables) (p : ℕ) (d d' : ActivePoolData) : Prop where
  exact : Exact T d'
  bounded : ∀ q, d'.getActiveObjectCount q ≤ T.maxLimit q ∨ d'.getActiveObjectCount q ≤ d.getActiveObjectCount q
  frame : ∀ q, T.rank p < T.rank q → d'.spawnedPools q = d.spawnedPools q

def Keeps (d d' : ActivePoolData) : Prop :=
  ∀ q, (d.spawnedPools q).isSome = true → (d'.spawnedPools q).isSome = true

theorem Spawned.refl (h : Exact T d) : Spawned T p d d := ⟨h, fun _ => .inr le_rfl, fun _ _ => rfl⟩

theorem Spawned.trans {d'' : ActivePoolData} (h : Spawned T p d d') (h' : Spawned T p d' d'') : Spawned T p d d'' where
  exact := h'.exact
  bounded := fun q => by
    have hfirst := h.bounded q
    have hsecond := h'.bounded q
    omega
  frame := fun q hq => (h'.frame q hq).trans (h.frame q hq)

theorem Spawned.le (h : Spawned T p d d') {q : ℕ} (hle : d.getActiveObjectCount q ≤ T.maxLimit q) :
    d'.getActiveObjectCount q ≤ T.maxLimit q := (h.bounded q).elim id fun hq => hq.trans hle

theorem Ready.of_keeps (h : Ready T d p) (hkeeps : Keeps d d') : Ready T d' p :=
  fun r hr hk hp => hkeeps p (h r hr hk hp)

theorem keeps_activateObject (k : Kind) (guid p : ℕ) : Keeps d (d.activateObject k guid p) :=
  fun q hq => (d.isActiveObject_activateObject k .pool guid q p).mpr (.inr (.inr hq))

namespace PoolMgr
variable {dice : ℕ → Roll} {m m' : PoolMgr}

/-! ### Quests -/

structure Filled (T : Tables) (p : ℕ) (d d' : ActivePoolData) : Prop where
  exact : Exact T d'
  others : ∀ q, q ≠ p → d'.spawnedPools q = d.spawnedPools q
  self : (d.spawnedPools p).isSome = true → (d'.spawnedPools p).isSome = true
  within : d'.getActiveObjectCount p ≤ T.maxLimit p

theorem Filled.spawned (h : Filled T p d d') : Spawned T p d d' where
  exact := h.exact
  bounded := fun q => by
    by_cases hq : q = p
    · exact .inl (hq ▸ h.within)
    · refine .inr (le_of_eq ?_)
      rw [ActivePoolData.getActiveObjectCount, ActivePoolData.getActiveObjectCount, h.others q hq]
  frame := fun q hq => h.others q fun heq => absurd hq (heq ▸ lt_irrefl _)

theorem Filled.keeps (h : Filled T p d d') : Keeps d d' := by
  intro q hq
  by_cases heq : q = p
  · subst heq
    exact h.self hq
  · rw [h.others q heq]
    exact hq

theorem Filled.trans {d'' : ActivePoolData} (h' : Filled T p d' d'') (hothers : ∀ q, q ≠ p → d'.spawnedPools q = d.spawnedPools q)
    (hself : (d.spawnedPools p).isSome = true → (d'.spawnedPools p).isSome = true) : Filled T p d d'' :=
  ⟨h'.exact, fun q hq => (h'.others q hq).trans (hothers q hq), fun hp => h'.self (hself hp), h'.within⟩

def LoadOk (T : Tables) (p : ℕ) : ℕ → List ℕ → PoolMgr → Prop
  | _, [], _ => True
  | limit, questId :: rows, m =>
    ((∃ o ∈ T.objects .quest p, o.guid = questId) ∧ m.data.isActiveObject .quest questId = false ∧
      m.data.getActiveObjectCount p < T.maxLimit p) ∧
    (subU32 limit 1 ≠ 0 → LoadOk T p (subU32 limit 1) rows (m.activate .quest questId p))

instance LoadOk.decidable (T : Tables) (p : ℕ) : ∀ limit rows m, Decidable (LoadOk T p limit rows m)
  | _, [], _ => isTrue trivial
  | limit, questId :: rows, m =>
    have := LoadOk.decidable T p (subU32 limit 1) rows (m.activate .quest questId p)
    inferInstanceAs (Decidable (_ ∧ (_ → _)))

/-- The pool is active if it is a child pool; what is read back can be activated; and otherwise there is a
place, and either there are enough quests that are not active or the active ones are all of this pool. -/
def QuestsOk (T : Tables) (p triggerFrom : ℕ) (m : PoolMgr) : Prop :=
  Ready T m.data p ∧
    if triggerFrom = 0 ∧ m.saved p ≠ [] then LoadOk T p (T.maxLimit p) (m.saved p) m
    else 0 < T.maxLimit p ∧ (T.maxLimit p ≤ (newQuests T p m).length ∨
      ∀ questId ∈ m.data.spawned .quest, ∃ o ∈ T.objects .quest p, o.guid = questId)

instance (T : Tables) (p triggerFrom : ℕ) (m : PoolMgr) : Decidable (QuestsOk T p triggerFrom m) :=
  inferInstanceAs (Decidable (_ ∧ ite _ _ _))

theorem loadQuests_spec (rows : List ℕ) {limit : ℕ} (h : Exact T m.data) (hready : Ready T m.data p)
    (hle : m.data.getActiveObjectCount p ≤ T.maxLimit p) (hok : LoadOk T p limit rows m) :
    Filled T p m.data (loadQuests p limit rows m).data := by
  induction rows generalizing limit m with
  | nil => exact ⟨h, fun _ _ => rfl, fun hp => hp, hle⟩
  | cons questId rows ih =>
    obtain ⟨⟨⟨o, -, rfl⟩, hinactive, hplace⟩, hrest⟩ := hok
    have hactivated : Exact T (m.activate .quest o.guid p).data := h.activate o hinactive hready
    have hcount := m.data.getActiveObjectCount_activateObject .quest o.guid p p hinactive o.ne_pool
    rw [if_pos rfl] at hcount
    have hothers : ∀ q, q ≠ p → (m.activate .quest o.guid p).data.spawnedPools q = m.data.spawnedPools q :=
      fun q hq => m.data.spawnedPools_activateObject .quest o.guid p q hq fun heq => nomatch heq.1
    have hkeeps : Keeps m.data (m.activate .quest o.guid p).data := keeps_activateObject _ _ _
    have hwithin : (m.activate .quest o.guid p).data.getActiveObjectCount p ≤ T.maxLimit p := hcount ▸ hplace
    rw [loadQuests]
    split
    next hmore => exact (ih hactivated (hready.of_keeps hkeeps) hwithin (hrest hmore)).trans hothers (hkeeps p)
    · exact ⟨hactivated, hothers, hkeeps p, hwithin⟩

theorem select_mem {guids : List ℕ} (h : guids ≠ []) (m : PoolMgr) : select dice guids m ∈ guids := by
  have hlt : (dice m.rolled).index % guids.length < guids.length :=
    Nat.mod_lt _ (List.length_pos_iff.mpr h)
  rw [select, List.getElem?_eq_getElem hlt, Option.getD_some]
  exact List.getElem_mem hlt

theorem recycle_spec (dice : ℕ → Roll) (limit left : ℕ) {newQuests currentQuests : List ℕ} (hleft : currentQuests.length = left)
    (hnodup : newQuests.Nodup) (m : PoolMgr) :
    (recycle dice limit left newQuests currentQuests m).1.Nodup ∧
    (∀ questId ∈ (recycle dice limit left newQuests currentQuests m).1, questId ∈ newQuests ∨ questId ∈ currentQuests) ∧
    (recycle dice limit left newQuests currentQuests m).2.data = m.data := by
  induction left generalizing newQuests currentQuests m with
  | zero => exact ⟨hnodup, fun _ h => .inl h, rfl⟩
  | succ left ih =>
    have hne : currentQuests ≠ [] := List.ne_nil_of_length_eq_add_one hleft
    have hmem : select dice currentQuests m ∈ currentQuests := select_mem hne m
    have hin : ∀ questId ∈ newQuests.insert (select dice currentQuests m),
        questId ∈ newQuests ∨ questId ∈ currentQuests := by
      intro questId hq
      rcases List.mem_insert_iff.mp hq with rfl | hq
      · exact .inr hmem
      · exact .inl hq
    rw [recycle]
    split
    · have hlength : (currentQuests.erase (select dice currentQuests m)).length = left := by
        rw [List.length_erase_of_mem hmem, hleft, Nat.add_sub_cancel]
      obtain ⟨hnodup', hsub, hdata⟩ := ih hlength (hnodup.insert (a := select dice currentQuests m)) m.roll
      refine ⟨hnodup', fun questId hq => ?_, hdata⟩
      rcases hsub questId hq with hq | hq
      · exact hin questId hq
      · exact .inr (List.mem_of_mem_erase hq)
    · exact ⟨hnodup.insert, hin, rfl⟩

theorem activateQuests_spec (left : ℕ) {limit : ℕ} {newQuests : List ℕ} (h : Exact T m.data) (hready : Ready T m.data p)
    (hleft : newQuests.length = left) (hnodup : newQuests.Nodup)
    (hmembers : ∀ questId ∈ newQuests, (∃ o : T.Member .quest p, o.guid = questId) ∧
      m.data.isActiveObject .quest questId = false)
    (hpos : 0 < limit) (hroom : m.data.getActiveObjectCount p + limit ≤ T.maxLimit p) :
    Filled T p m.data (activateQuests dice p left limit newQuests m).data := by
  induction left generalizing limit newQuests m with
  | zero => exact ⟨h, fun _ _ => rfl, fun hp => hp, by rw [activateQuests]; omega⟩
  | succ left ih =>
    have hmem : select dice newQuests m ∈ newQuests := select_mem (List.ne_nil_of_length_eq_add_one hleft) m
    obtain ⟨⟨o, ho⟩, hinactive⟩ := hmembers _ hmem
    rw [← ho] at hmem hinactive
    rw [activateQuests, ← ho]
    have hactivated : Exact T (m.roll.activate .quest o.guid p).data := h.activate o hinactive hready
    have hcount := m.data.getActiveObjectCount_activateObject .quest o.guid p p hinactive o.ne_pool
    rw [if_pos rfl] at hcount
    have hothers : ∀ q, q ≠ p → (m.roll.activate .quest o.guid p).data.spawnedPools q = m.data.spawnedPools q :=
      fun q hq => m.data.spawnedPools_activateObject .quest o.guid p q hq fun heq => nomatch heq.1
    have hkeeps : Keeps m.data (m.roll.activate .quest o.guid p).data := keeps_activateObject _ _ _
    have hsame : (m.roll.activate .quest o.guid p).data.getActiveObjectCount p = m.data.getActiveObjectCount p + 1 := hcount
    have hlimit := T.limit p
    have hless : subU32 limit 1 = limit - 1 := subU32_of_le hpos (by omega)
    rw [hless]
    split
    next hmore =>
      have hlength : (newQuests.erase o.guid).length = left := by
        rw [List.length_erase_of_mem hmem, hleft, Nat.add_sub_cancel]
      refine (ih hactivated (hready.of_keeps hkeeps) hlength (hnodup.erase _) ?_ (by omega) (by omega)).trans hothers (hkeeps p)
      intro questId hq
      have hne : questId ≠ o.guid := fun heq => (hnodup.not_mem_erase (heq ▸ hq : o.guid ∈ _))
      refine ⟨(hmembers questId (List.mem_of_mem_erase hq)).1, Bool.eq_false_iff.mpr fun hactive => ?_⟩
      rcases (m.data.isActiveObject_activateObject .quest .quest o.guid questId p).mp hactive with heq | heq | hbefore
      · nomatch heq.1
      · exact hne heq.2
      · exact Bool.eq_false_iff.mp (hmembers questId (List.mem_of_mem_erase hq)).2 hbefore
    · exact ⟨hactivated, hothers, hkeeps p, by omega⟩

theorem count_eq_zero_of_quests (h : Exact T d) (o : T.Member .quest p)
    (hquests : ∀ o : T.Member .quest p, d.isActiveObject .quest o.guid = false) : d.getActiveObjectCount p = 0 := by
  refine h.count_eq_zero fun k o' => ?_
  have hkind : k = .quest := by
    have hone := T.oneKind o'.1 o'.2.1 o.1 o.2.1 (o'.2.2.2.trans o.2.2.2.symm)
    rwa [o'.2.2.1, o.2.2.1] at hone
  subst hkind
  exact hquests o'

variable {triggerFrom : ℕ}

theorem spawnQuests_spec (o : T.Member .quest p) (h : Exact T m.data)
    (hle : m.data.getActiveObjectCount p ≤ T.maxLimit p) (hok : QuestsOk T p triggerFrom m) :
    Filled T p m.data (spawnQuests T dice p (T.maxLimit p) triggerFrom m).data := by
  obtain ⟨hready, hok⟩ := hok
  unfold spawnQuests
  split
  next hload =>
    rw [if_pos hload] at hok
    exact loadQuests_spec _ h hready hle hok
  next hload =>
    rw [if_neg hload] at hok
    obtain ⟨hpos, henough⟩ := hok
    extract_lets currentQuests newQuests₀ m₁
    have hquests : Empties fun (_ : T.Member .quest p) m => m := empties_plain (by decide)
    have hdespawned : Despawned T p m.data m₁.data := despawnObject_spec hquests h 0
    have hothers : ∀ q, q ≠ p → m₁.data.spawnedPools q = m.data.spawnedPools q :=
      fun q hq => foldl_despawnTurn_frame (by decide) 0 _ hq
    have hinactive : ∀ o : T.Member .quest p, m₁.data.isActiveObject .quest o.guid = false :=
      fun o => despawnObject_inactive hquests h o
    have hzero := count_eq_zero_of_quests hdespawned.exact o hinactive
    have hready₁ : Ready T m₁.data p := fun r hr hk hp => hdespawned.self (hready r hr hk hp)
    have hnew : newQuests₀.Nodup := by
      have hsub := List.filter_sublist (p := fun o : T.Member .quest p => !decide (o.1.chance ≠ 0 ∧ T.maxLimit p = 1))
        (l := T.objects .quest p)
      exact (Tables.guids_nodup.sublist (hsub.map _)).filter _
    have hmembers : ∀ questId ∈ newQuests₀, ∃ o : T.Member .quest p, o.guid = questId := by
      intro questId hq
      obtain ⟨o, -, rfl⟩ := List.mem_map.mp (List.mem_filter.mp hq).1
      exact ⟨o, rfl⟩
    -- what is drawn a second time is of the pool
    obtain ⟨drawn, m₂, hdrawn⟩ : ∃ drawn m₂, (if newQuests₀.length < T.maxLimit p ∧ currentQuests ≠ [] then
        recycle dice (T.maxLimit p) currentQuests.length newQuests₀ currentQuests m₁ else (newQuests₀, m₁)) = (drawn, m₂) :=
      ⟨_, _, rfl⟩
    have hspec : drawn.Nodup ∧ (∀ questId ∈ drawn, ∃ o : T.Member .quest p, o.guid = questId) ∧ m₂.data = m₁.data := by
      split at hdrawn
      next hrecycle =>
        obtain ⟨hnodup, hsub, hdata⟩ := recycle_spec dice (T.maxLimit p) currentQuests.length rfl hnew m₁
        rw [hdrawn] at hnodup hsub hdata
        refine ⟨hnodup, fun questId hq => (hsub questId hq).elim (hmembers questId) fun hcurrent => ?_, hdata⟩
        obtain ⟨o, -, ho⟩ := henough.resolve_left (not_le.mpr hrecycle.1) questId hcurrent
        exact ⟨o, ho⟩
      · obtain ⟨rfl, rfl⟩ := Prod.mk.inj hdrawn
        exact ⟨hnew, hmembers, rfl⟩
    obtain ⟨hnodup, hdrawnMembers, hdata⟩ := hspec
    rw [hdrawn]
    dsimp only
    have hfilled : Filled T p m₁.data (activateQuests dice p drawn.length (T.maxLimit p) drawn m₂).data := by
      rw [← hdata] at hdespawned hready₁ hzero hinactive ⊢
      refine activateQuests_spec _ hdespawned.exact hready₁ rfl hnodup (fun questId hq => ?_) hpos (by omega)
      obtain ⟨o, rfl⟩ := hdrawnMembers questId hq
      exact ⟨⟨o, rfl⟩, hinactive o⟩
    split
    · have hkept : Filled T p m₁.data m₁.data := ⟨hdespawned.exact, fun _ _ => rfl, fun hp => hp, by omega⟩
      rw [hdata]
      exact hkept.trans hothers hdespawned.self
    · split
      · exact hfilled.trans hothers hdespawned.self
      · exact hfilled.trans hothers hdespawned.self

/-! ### The loop of SpawnObject -/

/-- A member that has been activated and whose own members have been spawned. -/
structure Populated (o : T.Member k p) (d d' : ActivePoolData) : Prop where
  exact : Exact T d'
  bounded : ∀ q, d'.getActiveObjectCount q ≤ T.maxLimit q ∨ d'.getActiveObjectCount q ≤ d.getActiveObjectCount q
  frame : ∀ q, T.rank p ≤ T.rank q → d'.spawnedPools q = d.spawnedPools q
  keeps : Keeps d d'
  more : ∀ g, d.isActiveObject k g = true → d'.isActiveObject k g = true

theorem Populated.of_spawned {o : T.Member .pool p} (h : Spawned T o.guid d d') (hkeeps : Keeps d d') :
    Populated o d d' :=
  ⟨h.exact, h.bounded, fun q hq => h.frame q (o.rank_lt.trans_le hq), hkeeps, fun g hg => hkeeps g hg⟩

def Populates (spawn1 : T.Member k p → PoolMgr → PoolMgr) (ok : T.Member k p → PoolMgr → Prop) : Prop :=
  ∀ o m, Exact T m.data → (k = .pool → m.data.getActiveObjectCount o.guid = 0) → ok o m →
    Populated o m.data (spawn1 o m).data

theorem populates_plain (ok : T.Member k p → PoolMgr → Prop) : Populates (fun _ m => m) ok :=
  fun _ _ h _ _ => ⟨h, fun _ => .inr le_rfl, fun _ _ => rfl, fun _ hq => hq, fun _ hg => hg⟩

/-- A pool that gets a member is active if it is a child pool, and so on for the pools that are spawned. -/
def TurnOk (T : Tables) (dice : ℕ → Roll) (k : Kind) (p : ℕ) (ok : T.Member k p → PoolMgr → Prop) (x : Spawning) : Prop :=
  ∀ obj ∈ rollOne T dice k p x.triggerFrom x.m, obj.guid ≠ x.lastDespawned → obj.guid ≠ x.triggerFrom →
    Ready T x.m.data p ∧ ok obj (x.m.roll.activate k obj.guid p)

theorem rollExplicitly_eligible {eligible : T.Member k p → Bool} {os : List (T.Member k p)} {roll : ℚ}
    {o : T.Member k p} (h : rollExplicitly T k p eligible roll os = some o) : eligible o = true := by
  induction os generalizing roll with
  | nil => nomatch h
  | cons o' os ih =>
    rw [rollExplicitly] at h
    split at h
    next hhit =>
      obtain rfl := Option.some.inj h
      exact hhit.2
    · exact ih h

theorem rollOne_eligible {o : T.Member k p} (h : rollOne T dice k p triggerFrom m = some o)
    (hne : o.guid ≠ triggerFrom) : m.data.isActiveObject k o.guid = false := by
  have heligible : (decide (o.guid = triggerFrom) || !m.data.isActiveObject k o.guid) = true := by
    rcases Option.or_eq_some_iff.mp h with h | ⟨-, h⟩
    · exact rollExplicitly_eligible h
    · exact (Option.filter_eq_some_iff.mp h).2
  simpa [hne] using heligible

structure Turning (T : Tables) (k : Kind) (p : ℕ) (d : ActivePoolData) (triggerFrom : ℕ) (x : Spawning) (n : ℕ) : Prop where
  exact : Exact T x.m.data
  bounded : ∀ q, x.m.data.getActiveObjectCount q ≤ T.maxLimit q ∨
    x.m.data.getActiveObjectCount q ≤ d.getActiveObjectCount q
  frame : ∀ q, T.rank p < T.rank q → x.m.data.spawnedPools q = d.spawnedPools q
  room : x.m.data.getActiveObjectCount p + n ≤ T.maxLimit p + if x.triggerFrom ≠ 0 then 1 else 0
  triggered : x.triggerFrom ≠ 0 → x.triggerFrom = triggerFrom ∧
    ∃ o : T.Member k p, o.guid = x.triggerFrom ∧ x.m.data.isActiveObject k o.guid = true
  keeps : triggerFrom = 0 → Keeps d x.m.data

section Loop
variable {spawn1 despawn1 : T.Member k p → PoolMgr → PoolMgr} {ok : T.Member k p → PoolMgr → Prop}
  {triggerFrom n : ℕ} {x : Spawning}

theorem count_eq_zero_of_inactive {q : ℕ} (h : d.isActiveObject .pool q = false) : d.getActiveObjectCount q = 0 := by
  have hnone : d.spawnedPools q = none := Option.isNone_iff_eq_none.mp (Option.isSome_eq_false_iff.mp h)
  rw [ActivePoolData.getActiveObjectCount, hnone]
  rfl

theorem Turning.skip (h : Turning T k p d triggerFrom x (n + 1)) {m : PoolMgr} (hm : m.data = x.m.data) :
    Turning T k p d triggerFrom { x with m } n := by
  obtain ⟨hexact, hbounded, hframe, hroom, htriggered, hkeeps⟩ := h
  rw [← hm] at hexact hbounded hframe hroom htriggered hkeeps
  exact ⟨hexact, hbounded, hframe, by dsimp only; omega, htriggered, hkeeps⟩

theorem Turning.respawn (h : Turning T k p d triggerFrom x (n + 1)) (htrigger : x.triggerFrom ≠ 0) {m : PoolMgr}
    (hm : m.data = x.m.data) : Turning T k p d triggerFrom { x with m, triggerFrom := 0 } n := by
  obtain ⟨hexact, hbounded, hframe, hroom, htriggered, hkeeps⟩ := h
  rw [if_pos htrigger] at hroom
  rw [← hm] at hexact hbounded hframe hroom hkeeps
  exact ⟨hexact, hbounded, hframe, by simp only [ne_eq, not_true_eq_false, if_false]; omega,
    fun hne => absurd rfl hne, hkeeps⟩

theorem Turning.turn (h : Turning T k p d triggerFrom x (n + 1)) (hpopulates : Populates spawn1 ok)
    (hempties : Empties despawn1) (hok : TurnOk T dice k p ok x) :
    Turning T k p d triggerFrom (spawnTurn T dice k p spawn1 despawn1 x) n := by
  unfold spawnTurn
  split
  · exact h.skip rfl
  next obj hroll =>
    by_cases hlast : obj.guid = x.lastDespawned
    · rw [if_pos hlast]
      exact h.skip rfl
    rw [if_neg hlast]
    by_cases hself : obj.guid = x.triggerFrom
    · rw [if_pos hself]
      by_cases htrigger : x.triggerFrom = 0
      · have hskip := h.skip (m := x.m.roll) rfl
        have hsame : ({ x with m := x.m.roll, triggerFrom := 0 } : Spawning) = { x with m := x.m.roll } := by
          rw [← htrigger]
        rw [hsame]
        exact hskip
      · exact h.respawn htrigger rfl
    rw [if_neg hself]
    obtain ⟨hready, hchild⟩ := hok obj hroll hlast hself
    have hinactive := rollOne_eligible hroll hself
    have hactivated : Exact T (x.m.roll.activate k obj.guid p).data := h.exact.activate obj hinactive hready
    have hcount : ∀ q, (x.m.roll.activate k obj.guid p).data.getActiveObjectCount q
        = x.m.data.getActiveObjectCount q + if q = p then 1 else 0 := fun q =>
      x.m.data.getActiveObjectCount_activateObject k obj.guid p q hinactive obj.ne_pool
    have hnone : k = .pool → (x.m.roll.activate k obj.guid p).data.getActiveObjectCount obj.guid = 0 := by
      intro hk
      subst hk
      rw [hcount, if_neg (obj.ne_pool rfl).symm, count_eq_zero_of_inactive hinactive]
    have hpopulated := hpopulates obj _ hactivated hnone hchild
    generalize spawn1 obj (x.m.roll.activate k obj.guid p) = m₂ at hpopulated ⊢
    have hp : m₂.data.getActiveObjectCount p = x.m.data.getActiveObjectCount p + 1 := by
      rw [ActivePoolData.getActiveObjectCount, hpopulated.frame p le_rfl]
      exact (hcount p).trans (by rw [if_pos rfl])
    have hbounded : ∀ q, q ≠ p → m₂.data.getActiveObjectCount q ≤ T.maxLimit q ∨
        m₂.data.getActiveObjectCount q ≤ d.getActiveObjectCount q := by
      intro q hq
      have hspawned := hpopulated.bounded q
      have hbefore := h.bounded q
      rw [hcount q, if_neg hq] at hspawned
      omega
    have hframe : ∀ q, T.rank p < T.rank q → m₂.data.spawnedPools q = d.spawnedPools q := by
      intro q hq
      have hself : ¬(k = .pool ∧ q = obj.guid) := by
        rintro ⟨rfl, rfl⟩
        exact absurd hq obj.rank_lt.not_gt
      have hne : q ≠ p := fun heq => absurd hq (heq ▸ lt_irrefl _)
      rw [hpopulated.frame q hq.le, ← h.frame q hq]
      exact x.m.data.spawnedPools_activateObject k obj.guid p q hne hself
    have hroom := h.room
    by_cases htrigger : x.triggerFrom ≠ 0
    · rw [if_pos htrigger] at hroom ⊢
      obtain ⟨hfrom, o, ho, hactive⟩ := h.triggered htrigger
      have hactive₂ : m₂.data.isActiveObject k o.guid = true := hpopulated.more _
        ((x.m.data.isActiveObject_activateObject k k obj.guid o.guid p).mpr (.inr (.inr hactive)))
      have hdespawn : despawnObject T k p despawn1 x.triggerFrom m₂ = (despawn1 o m₂).remove k o.guid p := by
        rw [← ho]
        exact despawnObject_trigger o (ho ▸ htrigger) hactive₂
      have hemptied := hempties o m₂ hpopulated.exact hactive₂
      have hremoved := hemptied.remove
      have hless : ((despawn1 o m₂).data.removeObject k o.guid p).getActiveObjectCount p
          = m₂.data.getActiveObjectCount p - 1 := by
        rw [ActivePoolData.getActiveObjectCount_removeObject _ k o.guid p p hemptied.empty o.ne_pool, if_pos rfl,
          ActivePoolData.getActiveObjectCount, hemptied.frame p le_rfl]
        rfl
      rw [hdespawn]
      refine ⟨hremoved.exact, fun q => ?_, fun q hq => (hremoved.frame q hq).trans (hframe q hq), ?_,
        fun hne => absurd rfl hne, fun hzero => absurd (hfrom.trans hzero) htrigger⟩
      · by_cases hq : q = p
        · have hbefore := h.bounded p
          have hsame : ((despawn1 o m₂).remove k o.guid p).data.getActiveObjectCount q
              = x.m.data.getActiveObjectCount p := by
            rw [hq]
            exact hless.trans (by omega)
          rw [hsame, hq]
          exact hbefore
        · have hle := hremoved.le q
          have hbefore := hbounded q hq
          show ((despawn1 o m₂).data.removeObject k o.guid p).getActiveObjectCount q ≤ _ ∨
            ((despawn1 o m₂).data.removeObject k o.guid p).getActiveObjectCount q ≤ _
          omega
      · show ((despawn1 o m₂).data.removeObject k o.guid p).getActiveObjectCount p + n ≤ T.maxLimit p + 0
        omega
    · rw [if_neg htrigger] at hroom ⊢
      refine ⟨hpopulated.exact, fun q => ?_, hframe, ?_, fun hne => absurd hne htrigger, fun hzero q hq => ?_⟩
      · by_cases hq : q = p
        · subst hq
          exact .inl (by dsimp only; omega)
        · exact hbounded q hq
      · rw [if_neg htrigger]
        dsimp only
        omega
      · exact hpopulated.keeps q (keeps_activateObject k obj.guid p q (h.keeps hzero q hq))

def TurnsOk (dice : ℕ → Roll) (spawn1 despawn1 : T.Member k p → PoolMgr → PoolMgr)
    (ok : T.Member k p → PoolMgr → Prop) : ℕ → Spawning → Prop
  | 0, _ => True
  | n + 1, x => TurnOk T dice k p ok x ∧ TurnsOk dice spawn1 despawn1 ok n (spawnTurn T dice k p spawn1 despawn1 x)

theorem Turning.loop (hpopulates : Populates spawn1 ok) (hempties : Empties despawn1)
    (h : Turning T k p d triggerFrom x n) (hok : TurnsOk dice spawn1 despawn1 ok n x) :
    Spawned T p d (spawnTurns T dice k p spawn1 despawn1 n x).data ∧
      (triggerFrom = 0 → Keeps d (spawnTurns T dice k p spawn1 despawn1 n x).data) := by
  induction n generalizing x with
  | zero => exact ⟨⟨h.exact, h.bounded, h.frame⟩, h.keeps⟩
  | succ n ih => exact ih (h.turn hpopulates hempties hok.1) hok.2

theorem turns_le (triggerFrom : ℕ) (hle : m.data.getActiveObjectCount p ≤ T.maxLimit p) :
    m.data.getActiveObjectCount p + turns p (T.maxLimit p) triggerFrom m
      ≤ T.maxLimit p + if triggerFrom ≠ 0 then 1 else 0 := by
  have hless : subU32 (T.maxLimit p) (m.data.getActiveObjectCount p) = T.maxLimit p - m.data.getActiveObjectCount p :=
    subU32_of_le hle (T.limit p)
  have hnarrow := toInt32_natCast_le (T.maxLimit p - m.data.getActiveObjectCount p)
  unfold turns
  rw [hless]
  split <;> omega

theorem spawnObject_spec (hpopulates : Populates spawn1 ok) (hempties : Empties despawn1) (h : Exact T m.data)
    (hle : m.data.getActiveObjectCount p ≤ T.maxLimit p)
    (htrigger : triggerFrom = 0 ∨ ∃ o : T.Member k p, o.guid = triggerFrom ∧ m.data.isActiveObject k o.guid = true)
    (hok : TurnsOk dice spawn1 despawn1 ok (turns p (T.maxLimit p) triggerFrom m) ⟨m, triggerFrom, 0⟩) :
    Spawned T p m.data (spawnObject T dice k p spawn1 despawn1 (T.maxLimit p) triggerFrom m).data ∧
      (triggerFrom = 0 → Keeps m.data (spawnObject T dice k p spawn1 despawn1 (T.maxLimit p) triggerFrom m).data) := by
  have hstart : Turning T k p m.data triggerFrom ⟨m, triggerFrom, 0⟩ (turns p (T.maxLimit p) triggerFrom m) :=
    ⟨h, fun _ => .inr le_rfl, fun _ _ => rfl, turns_le triggerFrom hle,
      fun hne => ⟨rfl, htrigger.resolve_left hne⟩, fun _ _ hq => hq⟩
  exact hstart.loop hpopulates hempties hok

end Loop

/-! ### Pools in pools -/

def GroupOk (T : Tables) (dice : ℕ → Roll) (p : ℕ) (childOk : T.Member .pool p → PoolMgr → Prop) (k : Kind)
    (triggerFrom : ℕ) (m : PoolMgr) : Prop :=
  (T.objects k p).isEmpty = false →
    match k with
    | .quest => QuestsOk T p triggerFrom m
    | .pool =>
      TurnsOk dice (fun o m => spawnPool T dice o.guid m) (fun o m => despawnPool T o.guid m) childOk
        (turns p (T.maxLimit p) triggerFrom m) ⟨m, triggerFrom, 0⟩
    | k =>
      TurnsOk dice (fun (_ : T.Member k p) m => m) (fun _ m => m) (fun _ _ => True)
        (turns p (T.maxLimit p) triggerFrom m) ⟨m, triggerFrom, 0⟩

instance (ok : T.Member k p → PoolMgr → Prop) [∀ o m, Decidable (ok o m)] (x : Spawning) :
    Decidable (TurnOk T dice k p ok x) :=
  match h : rollOne T dice k p x.triggerFrom x.m with
  | none => isTrue fun obj hobj => by rw [h] at hobj; nomatch hobj
  | some obj => decidable_of_iff (obj.guid ≠ x.lastDespawned → obj.guid ≠ x.triggerFrom →
      Ready T x.m.data p ∧ ok obj (x.m.roll.activate k obj.guid p)) (by simp [TurnOk, h])

instance TurnsOk.decidable (spawn1 despawn1 : T.Member k p → PoolMgr → PoolMgr) (ok : T.Member k p → PoolMgr → Prop)
    [∀ o m, Decidable (ok o m)] : ∀ n x, Decidable (TurnsOk dice spawn1 despawn1 ok n x)
  | 0, _ => isTrue trivial
  | n + 1, x =>
    have := TurnsOk.decidable spawn1 despawn1 ok n (spawnTurn T dice k p spawn1 despawn1 x)
    inferInstanceAs (Decidable (_ ∧ _))

instance (childOk : T.Member .pool p → PoolMgr → Prop) [∀ o m, Decidable (childOk o m)] (triggerFrom : ℕ) :
    ∀ (k : Kind) (m : PoolMgr), Decidable (GroupOk T dice p childOk k triggerFrom m)
  | .quest, m => inferInstanceAs (Decidable (_ → QuestsOk T p triggerFrom m))
  | .pool, _ => inferInstanceAs (Decidable (_ → TurnsOk dice _ _ childOk _ _))
  | .creature, _ => inferInstanceAs (Decidable (_ → TurnsOk dice _ _ _ _ _))
  | .gameobject, _ => inferInstanceAs (Decidable (_ → TurnsOk dice _ _ _ _ _))

def spawnOk (T : Tables) (dice : ℕ → Roll) (p : ℕ) (m : PoolMgr) : Bool :=
  let m₁ := spawnGroupFrom T dice .pool p 0 m
  let m₂ := spawnGroupFrom T dice .gameobject p 0 m₁
  let m₃ := spawnGroupFrom T dice .creature p 0 m₂
  decide (GroupOk T dice p (fun o m => spawnOk T dice o.guid m = true) .pool 0 m) &&
    decide (GroupOk T dice p (fun o m => spawnOk T dice o.guid m = true) .gameobject 0 m₁) &&
    decide (GroupOk T dice p (fun o m => spawnOk T dice o.guid m = true) .creature 0 m₂) &&
    decide (GroupOk T dice p (fun o m => spawnOk T dice o.guid m = true) .quest 0 m₃)
termination_by T.rank p
decreasing_by
  all_goals exact o.rank_lt

section Group
variable {spawnChild : T.Member .pool p → PoolMgr → PoolMgr} {childOk : T.Member .pool p → PoolMgr → Prop}

theorem empties_despawnPool : Empties fun (o : T.Member .pool p) m => despawnPool T o.guid m := by
  intro o m hm hactive
  obtain ⟨hdespawned, hzero⟩ := despawnPool_spec (p := o.guid) hm
  exact .of_despawned hdespawned hactive hzero

theorem spawnGroup_spec (hchild : Populates (fun o m => spawnPool T dice o.guid m) childOk)
    (h : Exact T m.data) (hle : m.data.getActiveObjectCount p ≤ T.maxLimit p)
    (htrigger : k = .quest ∨ triggerFrom = 0 ∨
      ∃ o : T.Member k p, o.guid = triggerFrom ∧ m.data.isActiveObject k o.guid = true)
    (hok : GroupOk T dice p childOk k triggerFrom m) :
    Spawned T p m.data (spawnGroupFrom T dice k p triggerFrom m).data ∧
      (triggerFrom = 0 → Keeps m.data (spawnGroupFrom T dice k p triggerFrom m).data) := by
  unfold spawnGroupFrom spawnGroup
  split
  · exact ⟨.refl h, fun _ _ hq => hq⟩
  next hmembers =>
    have hturns := hok (Bool.eq_false_iff.mpr hmembers)
    cases k with
    | creature =>
      exact spawnObject_spec (populates_plain _) (empties_plain (by decide)) h hle (htrigger.resolve_left (by decide)) hturns
    | gameobject =>
      exact spawnObject_spec (populates_plain _) (empties_plain (by decide)) h hle (htrigger.resolve_left (by decide)) hturns
    | pool => exact spawnObject_spec hchild empties_despawnPool h hle (htrigger.resolve_left (by decide)) hturns
    | quest =>
      obtain ⟨o, rest, ho⟩ := List.exists_cons_of_ne_nil fun hnil : T.objects .quest p = [] =>
        hmembers (List.isEmpty_iff.mpr hnil)
      have hfilled : Filled T p m.data (spawnQuests T dice p (T.maxLimit p) triggerFrom m).data :=
        spawnQuests_spec o h hle hturns
      exact ⟨hfilled.spawned, fun _ => hfilled.keeps⟩

end Group

theorem spawnPool_spec (h : Exact T m.data) (hle : m.data.getActiveObjectCount p ≤ T.maxLimit p)
    (hok : spawnOk T dice p m = true) :
    Spawned T p m.data (spawnPool T dice p m).data ∧ Keeps m.data (spawnPool T dice p m).data := by
  induction hrank : T.rank p using Nat.strong_induction_on generalizing p m with
  | _ rank ih =>
    subst hrank
    have hchild : Populates (fun o m => spawnPool T dice o.guid m)
        (fun (o : T.Member .pool p) m => spawnOk T dice o.guid m = true) := by
      intro o m hm hzero hok
      obtain ⟨hspawned, hkeeps⟩ := ih (T.rank o.guid) o.rank_lt hm (by rw [hzero rfl]; exact Nat.zero_le _) hok rfl
      exact .of_spawned hspawned hkeeps
    rw [spawnOk] at hok
    simp only [Bool.and_eq_true, decide_eq_true_iff] at hok
    obtain ⟨⟨⟨hpools, hgameobjects⟩, hcreatures⟩, hquests⟩ := hok
    rw [spawnPool]
    obtain ⟨h₁, hkeeps₁⟩ := spawnGroup_spec hchild h hle (.inr (.inl rfl)) hpools
    obtain ⟨h₂, hkeeps₂⟩ := spawnGroup_spec hchild h₁.exact (h₁.le hle) (.inr (.inl rfl)) hgameobjects
    obtain ⟨h₃, hkeeps₃⟩ := spawnGroup_spec hchild h₂.exact (h₂.le (h₁.le hle)) (.inr (.inl rfl)) hcreatures
    obtain ⟨h₄, hkeeps₄⟩ := spawnGroup_spec hchild h₃.exact (h₃.le (h₂.le (h₁.le hle))) (.inl rfl) hquests
    exact ⟨((h₁.trans h₂).trans h₃).trans h₄,
      fun q hq => hkeeps₄ rfl q (hkeeps₃ rfl q (hkeeps₂ rfl q (hkeeps₁ rfl q hq)))⟩

theorem populates_spawnPool : Populates (fun o m => spawnPool T dice o.guid m)
    fun (o : T.Member .pool p) m => spawnOk T dice o.guid m = true := by
  intro o m hm hzero hok
  obtain ⟨hspawned, hkeeps⟩ := spawnPool_spec hm (by rw [hzero rfl]; exact Nat.zero_le _) hok
  exact .of_spawned hspawned hkeeps

/-! ### Every run -/

/-- The group that `UpdatePool` spawns. A child pool is updated while it is active. -/
def UpdateOk (T : Tables) (dice : ℕ → Roll) (k : Kind) (p guid : ℕ) (m : PoolMgr) : Prop :=
  if T.motherPool p ≠ 0 then
    (m.data.spawnedPools p).isSome = true ∧
      GroupOk T dice (T.motherPool p) (fun o m => spawnOk T dice o.guid m = true) .pool p m
  else GroupOk T dice p (fun o m => spawnOk T dice o.guid m = true) k guid m

instance (k : Kind) (p guid : ℕ) (m : PoolMgr) : Decidable (UpdateOk T dice k p guid m) :=
  inferInstanceAs (Decidable (ite _ _ _))

/-- The groups that a change of the quests spawns, each in the state in which its turn comes. -/
def ChangeOk (T : Tables) (dice : ℕ → Roll) (skips : QuestTemplate → Bool) (m : PoolMgr) : Prop :=
  along (fun m p => updatePool T dice .quest p 1 m) (fun m p => UpdateOk T dice .quest p 1 m) (questPools T skips) m

instance (skips : QuestTemplate → Bool) (m : PoolMgr) : Decidable (ChangeOk T dice skips m) :=
  inferInstanceAs (Decidable (along _ _ _ _))

def KeepsPools (T : Tables) (dice : ℕ → Roll) (m : PoolMgr) : Call → Prop
  | .spawnPool p => spawnOk T dice p m = true
  | .despawnPool _ => True
  | .updatePool k p guid => UpdateOk T dice k p guid m
  | .changeDailyQuests => ChangeOk T dice QuestTemplate.isWeekly m
  | .changeWeeklyQuests => ChangeOk T dice QuestTemplate.isDaily m

instance (m : PoolMgr) : ∀ call, Decidable (KeepsPools T dice m call)
  | .spawnPool _ => inferInstanceAs (Decidable (_ = true))
  | .despawnPool _ => isTrue trivial
  | .updatePool k p guid => inferInstanceAs (Decidable (UpdateOk T dice k p guid m))
  | .changeDailyQuests => inferInstanceAs (Decidable (ChangeOk T dice _ m))
  | .changeWeeklyQuests => inferInstanceAs (Decidable (ChangeOk T dice _ m))

structure Sound (T : Tables) (d : ActivePoolData) : Prop where
  exact : Exact T d
  within : ∀ p, d.getActiveObjectCount p ≤ T.maxLimit p

theorem Sound.spawned (h : Sound T d) (hspawned : Spawned T p d d') : Sound T d' :=
  ⟨hspawned.exact, fun q => hspawned.le (h.within q)⟩

theorem motherPool_member (h : T.motherPool p ≠ 0) : ∃ o : T.Member .pool (T.motherPool p), o.guid = p := by
  unfold Tables.motherPool at h ⊢
  cases hfind : T.rows.find? fun r => decide (r.kind = .pool ∧ r.guid = p) with
  | none =>
    rw [hfind] at h
    exact absurd rfl h
  | some r =>
    have htest := List.find?_some hfind
    obtain ⟨hk, hg⟩ := of_decide_eq_true htest
    exact ⟨⟨r, List.mem_of_find?_eq_some hfind, hk, rfl⟩, hg⟩

theorem updatePool_sound (h : Sound T m.data) {guid : ℕ}
    (htrigger : k = .quest ∨ ∃ o : T.Member k p, o.guid = guid ∧ m.data.isActiveObject k o.guid = true)
    (hok : UpdateOk T dice k p guid m) : Sound T (updatePool T dice k p guid m).data := by
  unfold UpdateOk at hok
  unfold updatePool
  split
  next hmother =>
    rw [if_pos hmother] at hok
    obtain ⟨o, ho⟩ := motherPool_member hmother
    have hactive : m.data.isActiveObject .pool o.guid = true := by
      rw [ho]
      exact hok.1
    exact h.spawned (spawnGroup_spec populates_spawnPool h.exact (h.within _) (.inr (.inr ⟨o, ho, hactive⟩)) hok.2).1
  next hmother =>
    rw [if_neg hmother] at hok
    exact h.spawned (spawnGroup_spec populates_spawnPool h.exact (h.within _) (htrigger.imp_right .inr) hok).1

theorem changeQuests_sound (h : Sound T m.data) {skips : QuestTemplate → Bool} (hok : ChangeOk T dice skips m) :
    Sound T (changeQuests T dice skips m).data :=
  along.invariant (I := fun m => Sound T m.data) (fun _ _ hm hok => updatePool_sound hm (.inl rfl) hok) h hok

theorem sound_of_step (h : Sound T m.data) {call : Call} (hok : KeepsPools T dice m call)
    (hstep : step T dice m call = some m') : Sound T m'.data := by
  cases call with
  | spawnPool p =>
    obtain rfl := Option.some.inj hstep
    exact h.spawned (spawnPool_spec h.exact (h.within p) hok).1
  | despawnPool p =>
    obtain rfl := Option.some.inj hstep
    have hdespawned := (despawnPool_spec (p := p) h.exact).1
    exact ⟨hdespawned.exact, fun q => (hdespawned.le q).trans (h.within q)⟩
  | updatePool k p guid =>
    rw [step] at hstep
    split at hstep
    next htrigger =>
      obtain rfl := Option.some.inj hstep
      obtain ⟨hmember, hactive⟩ := htrigger
      obtain ⟨o, -, ho⟩ := List.any_eq_true.mp hmember
      have hguid : o.guid = guid := of_decide_eq_true ho
      exact updatePool_sound h (.inr ⟨o, hguid, hguid ▸ hactive⟩) hok
    · nomatch hstep
  | changeDailyQuests =>
    obtain rfl := Option.some.inj hstep
    exact changeQuests_sound h hok
  | changeWeeklyQuests =>
    obtain rfl := Option.some.inj hstep
    exact changeQuests_sound h hok

theorem Starts.sound (h : Starts m) : Sound T m.data := by
  rw [Starts] at h
  rw [h]
  refine ⟨⟨fun q => ?_, fun a ha => nomatch ha⟩, fun q => Nat.zero_le _⟩
  refine (List.countP_eq_zero.mpr fun r _ => ?_).symm
  cases hk : r.kind <;> simp [ActivePoolData.isActiveObject]

/-- The counter of a pool is the number of its members that are active, it is within the limit, and every
object that has been activated is a member of the pool for which it has been. -/
theorem accounting_of_reaches (h : Reaches (step T dice) (KeepsPools T dice) Starts m) :
    (∀ p, m.data.getActiveObjectCount p = activeMembers T m.data p) ∧
    (∀ p, m.data.getActiveObjectCount p ≤ T.maxLimit p) ∧
    ∀ a ∈ m.data.activations, ∃ r ∈ T.rows, (r.kind, r.guid, r.pool) = a := by
  have hsound : Sound T m.data :=
    h.invariant (fun _ hm => hm.sound) fun _ _ _ hm hok hstep => sound_of_step hm hok hstep
  exact ⟨hsound.exact.counted, hsound.within, hsound.exact.member⟩

def sampleTables : Tables where
  maxPoolId := 4
  maxLimit p := if p = 3 then 1 else 2
  rows := [⟨.pool, 1, 3, 40⟩, ⟨.pool, 2, 3, 60⟩, ⟨.creature, 11, 1, 0⟩, ⟨.creature, 12, 1, 0⟩, ⟨.creature, 13, 1, 0⟩,
    ⟨.creature, 21, 2, 0⟩, ⟨.quest, 31, 4, 0⟩, ⟨.quest, 32, 4, 0⟩, ⟨.quest, 33, 4, 0⟩]
  questTemplate _ := some ⟨true, false⟩
  rank p := if p = 3 then 1 else 0
  limit p := by split <;> decide
  distinct := by decide
  oneKind := by simp
  ranked := by simp
  questChance := by simp

def noneSpawned : PoolMgr := ⟨⟨fun _ => [], fun _ => none, []⟩, fun _ => [], 0⟩

theorem noneSpawned_starts : Starts noneSpawned := rfl

def sampleDice (n : ℕ) : Roll := ⟨(25 * n % 100 : ℕ), n⟩

theorem accounting_of_reaches_sample : ∃ m, Reaches (step sampleTables sampleDice)
      (KeepsPools sampleTables sampleDice) Starts m ∧
    m.data.spawned .creature = [21] ∧ m.data.spawned .quest = [33, 32] ∧
    m.data.getActiveObjectCount 3 = activeMembers sampleTables m.data 3 := by
  obtain ⟨m, hm, htest⟩ := Reaches.exists_of_replay (step sampleTables sampleDice)
    (KeepsPools sampleTables sampleDice) noneSpawned_starts
    [.spawnPool 3, .updatePool .creature 1 12, .spawnPool 4, .changeDailyQuests] (by decide +kernel)
    (fun m => decide (m.data.spawned .creature = [21] ∧ m.data.spawned .quest = [33, 32])) (by decide +kernel)
  obtain ⟨hcreatures, hquests⟩ := of_decide_eq_true htest
  exact ⟨m, hm, hcreatures, hquests, (accounting_of_reaches hm).1 3⟩

def twoQuestPools : Tables where
  maxPoolId := 2
  maxLimit _ := 1
  rows := [⟨.quest, 11, 1, 0⟩, ⟨.quest, 21, 2, 0⟩]
  questTemplate _ := some ⟨true, false⟩
  rank _ := 0
  limit _ := by decide
  distinct := by decide
  oneKind := by simp
  ranked := by simp
  questChance := by simp

theorem quest_of_other_pool : ∃ m, Reaches (step twoQuestPools fun _ => ⟨0, 0⟩) anyStep Starts m ∧
    m.data.activations = [(.quest, 11, 1), (.quest, 21, 2), (.quest, 21, 1), (.quest, 21, 2)] ∧
    m.data.getActiveObjectCount 1 = 1 ∧ activeMembers twoQuestPools m.data 1 = 0 := by
  obtain ⟨m, hm, htest⟩ := Reaches.exists_of_replay (step twoQuestPools fun _ => ⟨0, 0⟩) anyStep
    noneSpawned_starts [.spawnPool 1, .spawnPool 2, .changeDailyQuests] (replayOk_anyStep ..)
    (fun m => decide (m.data.activations = [(.quest, 11, 1), (.quest, 21, 2), (.quest, 21, 1), (.quest, 21, 2)] ∧
      m.data.getActiveObjectCount 1 = 1 ∧ activeMembers twoQuestPools m.data 1 = 0)) (by decide +kernel)
  exact ⟨m, hm, of_decide_eq_true htest⟩

end PoolMgr

end HysteriaCore.Pools
