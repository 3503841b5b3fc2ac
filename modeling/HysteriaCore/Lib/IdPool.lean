import HysteriaCore.Lib.Words
import Mathlib.Data.List.Nodup
import Mathlib.Data.List.Perm.Basic

/-!
# A pool of ids

The highest id that was given out, and a queue of ids that came back. The highest id does not
join the queue when it comes back: the bound goes down by one.
-/

namespace HysteriaCore.Lib

structure IdPool where
  maxId : ℕ
  freeIds : List ℕ

namespace IdPool

def take (p : IdPool) : ℕ × IdPool :=
  match p.freeIds with
  | [] => (p.maxId + 1, ⟨p.maxId + 1, []⟩)
  | id :: ids => (id, ⟨p.maxId, ids⟩)

def release (p : IdPool) (id : ℕ) : IdPool :=
  if id = p.maxId then ⟨p.maxId - 1, p.freeIds⟩ else ⟨p.maxId, p.freeIds ++ [id]⟩

def ofIds (ids : List ℕ) : IdPool where
  maxId := ids.foldl max 0
  freeIds := (List.range' 1 (ids.foldl max 0 - 1)).filter fun id => decide (id ∉ ids)

/-- The ids in use and the free ones are different, from 1 to the maximum. -/
structure Serves (p : IdPool) (live : List ℕ) : Prop where
  nodup : (live ++ p.freeIds).Nodup
  bounds : ∀ id ∈ live ++ p.freeIds, 1 ≤ id ∧ id ≤ p.maxId

variable {p : IdPool} {live live' : List ℕ}

theorem Serves.live_nodup (h : p.Serves live) : live.Nodup := (List.nodup_append.mp h.nodup).1

theorem Serves.perm (h : p.Serves live) (hperm : live.Perm live') : p.Serves live' where
  nodup := (hperm.append_right p.freeIds).nodup_iff.mp h.nodup
  bounds id hid := h.bounds id ((hperm.append_right p.freeIds).mem_iff.mpr hid)

theorem Serves.sublist (h : p.Serves live) (hsub : live'.Sublist live) : p.Serves live' where
  nodup := h.nodup.sublist (hsub.append_right p.freeIds)
  bounds id hid := h.bounds id ((hsub.append_right p.freeIds).subset hid)

theorem Serves.take (h : p.Serves live) : p.take.1 ∉ live ∧ p.take.2.Serves (p.take.1 :: live) := by
  obtain ⟨maxId, freeIds⟩ := p
  cases freeIds with
  | nil =>
    have hnew : maxId + 1 ∉ live := by
      intro hin
      have hle := (h.bounds _ (List.mem_append_left _ hin)).2
      dsimp only at hle
      omega
    refine ⟨hnew, ?_, fun id hid => ?_⟩
    · show ((maxId + 1) :: live ++ []).Nodup
      rw [List.append_nil, List.nodup_cons]
      exact ⟨hnew, h.live_nodup⟩
    · have hcases : id = maxId + 1 ∨ id ∈ live := by simpa [IdPool.take] using hid
      show 1 ≤ id ∧ id ≤ maxId + 1
      rcases hcases with rfl | hin
      · omega
      · have hbounds := h.bounds id (List.mem_append_left _ hin)
        dsimp only at hbounds
        omega
  | cons id ids =>
    have hperm : (live ++ id :: ids).Perm (id :: live ++ ids) := List.perm_middle
    refine ⟨fun hin => ?_, hperm.nodup_iff.mp h.nodup, fun i hi => h.bounds i (hperm.mem_iff.mpr hi)⟩
    exact (List.nodup_append.mp h.nodup).2.2 id hin id List.mem_cons_self rfl

theorem Serves.release {id : ℕ} (h : p.Serves (id :: live)) : (p.release id).Serves live := by
  have hrest : id ∉ live ++ p.freeIds ∧ (live ++ p.freeIds).Nodup := List.nodup_cons.mp h.nodup
  rw [IdPool.release]
  split
  next hmax =>
    refine ⟨hrest.2, fun i hi => ?_⟩
    have hbounds := h.bounds i (List.mem_cons_of_mem _ hi)
    have hne : i ≠ id := fun heq => hrest.1 (heq ▸ hi)
    show 1 ≤ i ∧ i ≤ p.maxId - 1
    omega
  next =>
    have hperm : (live ++ (p.freeIds ++ [id])).Perm (id :: live ++ p.freeIds) := by
      rw [← List.append_assoc]
      exact List.perm_append_singleton id (live ++ p.freeIds)
    exact ⟨hperm.nodup_iff.mpr h.nodup, fun i hi => h.bounds i (hperm.mem_iff.mp hi)⟩

theorem Serves.releaseAll {ids : List ℕ} (h : p.Serves (ids ++ live)) :
    (ids.foldl IdPool.release p).Serves live := by
  induction ids generalizing p with
  | nil => exact h
  | cons id ids ih => exact ih h.release

theorem serves_ofIds {ids : List ℕ} (hids : ids.Nodup) (hpos : ∀ id ∈ ids, 1 ≤ id) : (ofIds ids).Serves ids where
  nodup := by
    refine List.nodup_append.mpr ⟨hids, List.Nodup.filter _ List.nodup_range', fun id hid id' hid' heq => ?_⟩
    have hnot := (List.mem_filter.mp hid').2
    exact of_decide_eq_true hnot (heq ▸ hid)
  bounds id hid := by
    rcases List.mem_append.mp hid with hin | hfree
    · exact ⟨hpos id hin, (le_foldl_max ids 0).2 id hin⟩
    · have hrange := List.mem_range'_1.mp (List.mem_filter.mp hfree).1
      show 1 ≤ id ∧ id ≤ ids.foldl max 0
      omega

end IdPool

end HysteriaCore.Lib
