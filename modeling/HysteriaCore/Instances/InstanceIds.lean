import Mathlib.Algebra.Ring.Nat
import Mathlib.Data.List.Nodup
import Mathlib.Order.Basic

/-!
# Instance ids (game/Maps/MapManager.cpp)

The ids of the saved instances are marked in a vector of bits. A cursor goes up through the ids that
are not marked; what it gives out is never marked.
-/

namespace HysteriaCore.Instances

def instanceIdOverflow : ℕ := 0xFFFFFFFF

structure MapManager where
  instanceIds : List Bool
  nextInstanceId : ℕ
deriving DecidableEq

namespace MapManager

/-- `InitInstanceIds` with the `MAX(id)` that the query returns; `maxId + 1` is a `uint32`. -/
def initInstanceIds (maxId : ℕ) : MapManager := ⟨List.replicate ((maxId + 1) % 2 ^ 32) false, 1⟩

variable (m : MapManager)

/-- `RegisterInstanceId`; `none` is a write past the end of the vector. -/
def registerInstanceId (instanceId : ℕ) : Option MapManager :=
  if instanceId < m.instanceIds.length then
    some
      { instanceIds := m.instanceIds.set instanceId true
        nextInstanceId :=
          if m.nextInstanceId = instanceId then (m.nextInstanceId + 1) % 2 ^ 32 else m.nextInstanceId }
  else none

def skipUsed (instanceIds : List Bool) (next : ℕ) : ℕ :=
  if next < instanceIdOverflow then
    if next + 1 < instanceIds.length ∧ instanceIds[next + 1]? = some true then skipUsed instanceIds (next + 1)
    else next + 1
  else next
termination_by instanceIdOverflow - next

def generateInstanceId : ℕ × MapManager :=
  (m.nextInstanceId, { m with nextInstanceId := skipUsed m.instanceIds m.nextInstanceId })

def load (ids : List ℕ) : Option MapManager :=
  ids.foldlM (fun m id => m.registerInstanceId id) (initInstanceIds (ids.foldr max 0))

/-- What `n` calls of `GenerateInstanceId` return as long as there is no overflow. -/
def generated : ℕ → MapManager → List ℕ
  | 0, _ => []
  | n + 1, m =>
    if m.nextInstanceId = instanceIdOverflow then []
    else m.generateInstanceId.1 :: generated n m.generateInstanceId.2

/-- The loader stays within the vector, and no id comes twice, from the loader or a call. -/
def NeverReused (ids : List ℕ) : Prop := ∃ m, load ids = some m ∧ ∀ n, (ids ++ generated n m).Nodup

/-! ### Loading -/

/-- The ids that are loaded so far are marked, and the cursor is not at one of them. -/
structure Registered (size : ℕ) (ids : List ℕ) (m : MapManager) : Prop where
  size : m.instanceIds.length = size
  marked : ∀ id ∈ ids, m.instanceIds[id]? = some true
  free : m.nextInstanceId ∉ ids
  bound : m.nextInstanceId ≤ instanceIdOverflow

variable {m : MapManager} {size : ℕ} {ids rest : List ℕ}

theorem Registered.registerInstanceId (h : m.Registered size ids) {id : ℕ} (hid : id < size)
    (hlimit : id + 1 < 2 ^ 32) (hlast : ∀ i ∈ ids, i < id) :
    ∃ m', m.registerInstanceId id = some m' ∧ m'.Registered size (ids ++ [id]) := by
  have hin : id < m.instanceIds.length := h.size.symm ▸ hid
  refine ⟨_, if_pos hin, ?_, fun i hi => ?_, ?_, ?_⟩
  · rw [List.length_set]
    exact h.size
  · dsimp only
    by_cases hsame : id = i
    · subst hsame
      exact List.getElem?_set_self hin
    · rw [List.getElem?_set_ne hsame]
      exact h.marked i ((List.mem_append.mp hi).resolve_right fun hlast => hsame (List.mem_singleton.mp hlast).symm)
  · dsimp only
    intro hmem
    rcases List.mem_append.mp hmem with hold | hnew
    · by_cases hcursor : m.nextInstanceId = id
      · rw [if_pos hcursor, hcursor, Nat.mod_eq_of_lt hlimit] at hold
        have hlt := hlast _ hold
        omega
      · rw [if_neg hcursor] at hold
        exact h.free hold
    · have hnew := List.mem_singleton.mp hnew
      by_cases hcursor : m.nextInstanceId = id
      · rw [if_pos hcursor, hcursor, Nat.mod_eq_of_lt hlimit] at hnew
        omega
      · rw [if_neg hcursor] at hnew
        exact hcursor hnew
  · dsimp only
    split
    next hcursor =>
      rw [hcursor, Nat.mod_eq_of_lt hlimit, instanceIdOverflow]
      omega
    · exact h.bound

theorem Registered.loadRest (h : m.Registered size ids) (hrest : ∀ id ∈ rest, id < size ∧ id + 1 < 2 ^ 32)
    (horder : (ids ++ rest).Pairwise (· < ·)) :
    ∃ m', rest.foldlM (fun m id => m.registerInstanceId id) m = some m' ∧ m'.Registered size (ids ++ rest) := by
  induction rest generalizing m ids with
  | nil => exact ⟨m, rfl, by rwa [List.append_nil]⟩
  | cons id rest ih =>
    have hlast : ∀ i ∈ ids, i < id := fun i hi =>
      (List.pairwise_append.mp horder).2.2 i hi id (List.mem_cons_self ..)
    obtain ⟨hid, hlimit⟩ := hrest id (List.mem_cons_self ..)
    obtain ⟨m', hregister, hm'⟩ := h.registerInstanceId hid hlimit hlast
    have horder' : ((ids ++ [id]) ++ rest).Pairwise (· < ·) := by rwa [List.append_assoc]
    obtain ⟨m'', hload, hm''⟩ := ih hm' (fun i hi => hrest i (List.mem_cons_of_mem _ hi)) horder'
    refine ⟨m'', ?_, by rwa [List.append_assoc] at hm''⟩
    rw [List.foldlM_cons, hregister]
    exact hload

theorem le_foldr_max {id : ℕ} (h : id ∈ ids) : id ≤ ids.foldr max 0 := by
  induction ids with
  | nil => exact absurd h List.not_mem_nil
  | cons i ids ih =>
    rw [List.foldr_cons]
    rcases List.mem_cons.mp h with rfl | hmem
    · exact Nat.le_max_left ..
    · exact Nat.le_trans (ih hmem) (Nat.le_max_right ..)

theorem foldr_max_le {bound : ℕ} (h : ∀ id ∈ ids, id ≤ bound) : ids.foldr max 0 ≤ bound := by
  induction ids with
  | nil => exact Nat.zero_le _
  | cons i ids ih =>
    rw [List.foldr_cons]
    exact Nat.max_le.mpr ⟨h i (List.mem_cons_self ..), ih fun id hid => h id (List.mem_cons_of_mem _ hid)⟩

/-! ### Calls -/

theorem skipUsed_le (instanceIds : List Bool) {next : ℕ} (h : next ≤ instanceIdOverflow) :
    skipUsed instanceIds next ≤ instanceIdOverflow := by
  induction next using skipUsed.induct instanceIds with
  | case1 next hlt hused ih =>
    rw [skipUsed, if_pos hlt, if_pos hused]
    exact ih (by omega)
  | case2 next hlt hfree =>
    rw [skipUsed, if_pos hlt, if_neg hfree]
    omega
  | case3 next hnot =>
    rw [skipUsed, if_neg hnot]
    exact h

theorem skipUsed_spec (instanceIds : List Bool) {next : ℕ} (h : next < instanceIdOverflow) :
    next < skipUsed instanceIds next ∧
      (skipUsed instanceIds next < instanceIdOverflow → instanceIds[skipUsed instanceIds next]? ≠ some true) := by
  induction next using skipUsed.induct instanceIds with
  | case1 next hlt hused ih =>
    rw [skipUsed, if_pos hlt, if_pos hused]
    by_cases hmore : next + 1 < instanceIdOverflow
    · obtain ⟨hup, hfree⟩ := ih hmore
      exact ⟨by omega, hfree⟩
    · rw [skipUsed, if_neg hmore]
      exact ⟨by omega, fun hnot => absurd hnot hmore⟩
  | case2 next hlt hfree =>
    rw [skipUsed, if_pos hlt, if_neg hfree]
    refine ⟨by omega, fun _ hmarked => hfree ⟨?_, hmarked⟩⟩
    exact (List.getElem?_eq_some_iff.mp hmarked).1
  | case3 next hnot => exact absurd h hnot

theorem generated_spec (hmarked : ∀ id ∈ ids, m.instanceIds[id]? = some true)
    (hfree : m.nextInstanceId ≠ instanceIdOverflow → m.nextInstanceId ∉ ids)
    (hle : m.nextInstanceId ≤ instanceIdOverflow) (n : ℕ) :
    (generated n m).Nodup ∧ ∀ id ∈ generated n m, m.nextInstanceId ≤ id ∧ id ∉ ids := by
  induction n generalizing m with
  | zero => exact ⟨List.nodup_nil, fun id hid => absurd hid List.not_mem_nil⟩
  | succ n ih =>
    rw [generated]
    by_cases hover : m.nextInstanceId = instanceIdOverflow
    · rw [if_pos hover]
      exact ⟨List.nodup_nil, fun id hid => absurd hid List.not_mem_nil⟩
    · rw [if_neg hover]
      have hlt : m.nextInstanceId < instanceIdOverflow := by omega
      obtain ⟨hup, hunmarked⟩ := skipUsed_spec m.instanceIds hlt
      have hle' := skipUsed_le m.instanceIds hle
      have hfree' : skipUsed m.instanceIds m.nextInstanceId ≠ instanceIdOverflow →
          skipUsed m.instanceIds m.nextInstanceId ∉ ids :=
        fun hne hmem => hunmarked (by omega) (hmarked _ hmem)
      obtain ⟨hnodup, hlater⟩ := ih (m := m.generateInstanceId.2) hmarked hfree' hle'
      refine ⟨List.nodup_cons.mpr ⟨fun hagain => ?_, hnodup⟩, fun id hid => ?_⟩
      · have hbeyond : skipUsed m.instanceIds m.nextInstanceId ≤ m.nextInstanceId := (hlater _ hagain).1
        omega
      · rcases List.mem_cons.mp hid with rfl | hrest
        · exact ⟨Nat.le_refl _, hfree hover⟩
        · obtain ⟨hbeyond, hnot⟩ := hlater id hrest
          exact ⟨Nat.le_trans (Nat.le_of_lt hup) hbeyond, hnot⟩

/-! ### Loading and then calls -/

theorem load_registered (horder : ids.Pairwise (· < ·)) (hids : ∀ id ∈ ids, id < instanceIdOverflow) :
    ∃ m, load ids = some m ∧ m.Registered (ids.foldr max 0 + 1) ids := by
  have hmax : ids.foldr max 0 + 1 < 2 ^ 32 := by
    have hle : ids.foldr max 0 ≤ instanceIdOverflow - 1 := foldr_max_le fun id hid => by
      have := hids id hid
      omega
    rw [instanceIdOverflow] at hle
    omega
  have hinit : (initInstanceIds (ids.foldr max 0)).Registered (ids.foldr max 0 + 1) [] := by
    have hfirst : 1 ≤ instanceIdOverflow := by decide
    refine ⟨?_, fun id hid => absurd hid List.not_mem_nil, List.not_mem_nil, hfirst⟩
    rw [initInstanceIds, List.length_replicate, Nat.mod_eq_of_lt hmax]
  exact hinit.loadRest (fun id hid => by
    have hlt := hids id hid
    have hle := le_foldr_max hid
    rw [instanceIdOverflow] at hlt
    omega) horder

theorem load_of_overflow (hids : ∀ id ∈ ids, id < 2 ^ 32) (h : instanceIdOverflow ∈ ids) : load ids = none := by
  have hmax : ids.foldr max 0 = instanceIdOverflow :=
    Nat.le_antisymm (foldr_max_le fun id hid => by
      have := hids id hid
      rw [instanceIdOverflow]
      omega) (le_foldr_max h)
  have hsize : (initInstanceIds (ids.foldr max 0)).instanceIds.length = 0 := by
    rw [hmax]
    rfl
  cases ids with
  | nil => exact absurd h List.not_mem_nil
  | cons id rest =>
    have hregister : (initInstanceIds ((id :: rest).foldr max 0)).registerInstanceId id = none :=
      if_neg (by omega)
    rw [load, List.foldlM_cons, hregister]
    rfl

/-- No id comes twice, and the loader stays within its vector, exactly when no saved instance has the
greatest id. -/
theorem neverReused_iff (horder : ids.Pairwise (· < ·)) (hids : ∀ id ∈ ids, 1 ≤ id ∧ id < 2 ^ 32) :
    NeverReused ids ↔ instanceIdOverflow ∉ ids := by
  constructor
  · intro h hover
    obtain ⟨m, hload, _⟩ := h
    rw [load_of_overflow (fun id hid => (hids id hid).2) hover] at hload
    exact nomatch hload
  · intro hnot
    have hlt : ∀ id ∈ ids, id < instanceIdOverflow := fun id hid => by
      have hne : id ≠ instanceIdOverflow := fun heq => hnot (heq ▸ hid)
      have := (hids id hid).2
      rw [instanceIdOverflow] at hne ⊢
      omega
    obtain ⟨m, hload, hm⟩ := load_registered horder hlt
    refine ⟨m, hload, fun n => ?_⟩
    obtain ⟨hnodup, hnew⟩ := generated_spec hm.marked (fun _ => hm.free) hm.bound n
    refine List.nodup_append.mpr ⟨horder.imp Nat.ne_of_lt, hnodup, fun id hid id' hid' heq => ?_⟩
    exact (hnew id' hid').2 (heq ▸ hid)

theorem neverReused_gaps : ∃ m, load [1, 2, 5, 6, 9] = some m ∧ generated 6 m = [3, 4, 7, 8, 10, 11] ∧
    NeverReused [1, 2, 5, 6, 9] := by
  refine ⟨⟨[false, true, true, false, false, true, true, false, false, true], 3⟩, by decide, ?_,
    (neverReused_iff (by decide) (by decide)).mpr (by decide)⟩
  simp [generated, generateInstanceId, skipUsed, instanceIdOverflow]

/-- A saved instance with the greatest id is marked past the end of an empty vector. -/
theorem greatest_id_outside : ¬ ∀ ids : List ℕ, ids.Pairwise (· < ·) → (∀ id ∈ ids, 1 ≤ id ∧ id < 2 ^ 32) →
    NeverReused ids := by
  intro h
  obtain ⟨m, hload, _⟩ := h [4294967295] (by decide) (by decide)
  exact nomatch hload.symm.trans (rfl : load [4294967295] = none)

end MapManager

end HysteriaCore.Instances
