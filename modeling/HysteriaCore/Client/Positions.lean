import HysteriaCore.Client.SessionMgr

/-!
# The queue positions that clients are told

Only the sessions behind the one that leaves are told a new place, or all that are left when the first one
is admitted. What each was told last stays its place as long as nobody is put into the queue twice.
-/

namespace HysteriaCore.Client
open Lib

def lastTold : List (ClientSession × ℕ) → ClientSession → Option ℕ
  | [], _ => none
  | (q, position) :: rest, s => (lastTold rest s).or (if q = s then some position else none)

theorem lastTold_append (told more : List (ClientSession × ℕ)) (s : ClientSession) :
    lastTold (told ++ more) s = (lastTold more s).or (lastTold told s) := by
  induction told with
  | nil => exact (Option.or_none).symm
  | cons entry rest ih =>
    rw [List.cons_append, lastTold, ih, lastTold, Option.or_assoc]

variable {s : ClientSession} {queue : List ClientSession}

theorem lastTold_tellFrom_of_notMem (h : s ∉ queue) :
    ∀ position, lastTold (SessionMgr.tellFrom position queue) s = none := by
  induction queue with
  | nil => exact fun _ => rfl
  | cons q rest ih =>
    intro position
    obtain ⟨hne, hrest⟩ := not_or.mp fun hor => h (List.mem_cons.mpr hor)
    rw [SessionMgr.tellFrom, lastTold, ih hrest, if_neg fun heq => hne heq.symm]
    rfl

theorem lastTold_tellFrom (h : s ∈ queue) (hnodup : queue.Nodup) :
    ∀ position, lastTold (SessionMgr.tellFrom position queue) s = some (position + queue.idxOf s) := by
  induction queue with
  | nil => exact absurd h List.not_mem_nil
  | cons q rest ih =>
    intro position
    obtain ⟨hfresh, hrest⟩ := List.nodup_cons.mp hnodup
    rw [SessionMgr.tellFrom, lastTold]
    by_cases heq : q = s
    · subst heq
      rw [lastTold_tellFrom_of_notMem hfresh, if_pos rfl, List.idxOf_cons_self]
      rfl
    · have hmem : s ∈ rest := (List.mem_cons.mp h).resolve_left fun hs => heq hs.symm
      rw [ih hmem hrest, if_neg heq, List.idxOf_cons_ne _ heq, Option.or_none]
      congr 1
      omega

structure Told (m : SessionMgr) : Prop where
  nodup : m.queuedPlayer.Nodup
  exact : ∀ s ∈ m.queuedPlayer, lastTold m.told s = some (m.getQueuePos s)

variable {m : SessionMgr}

theorem getQueuePos_of_mem (h : s ∈ m.queuedPlayer) : m.getQueuePos s = m.queuedPlayer.idxOf s + 1 := if_pos h

theorem Told.add (h : Told m) (hfresh : s ∉ m.queuedPlayer) :
    Told (m.addQueuedPlayer s) where
  nodup := List.nodup_append.mpr ⟨h.nodup, List.nodup_singleton s, fun a ha b hb heq =>
    hfresh (List.mem_singleton.mp hb ▸ heq ▸ ha)⟩
  exact := by
    intro q hq
    have hqueue : (m.addQueuedPlayer s).queuedPlayer = m.queuedPlayer ++ [s] := rfl
    have htold : (m.addQueuedPlayer s).told = m.told ++ [(s, (m.addQueuedPlayer s).getQueuePos s)] := rfl
    rw [htold, lastTold_append]
    by_cases heq : s = q
    · subst heq
      rw [lastTold, if_pos rfl]
      rfl
    · have hold : q ∈ m.queuedPlayer :=
        (List.mem_append.mp hq).resolve_right fun hs => heq (List.mem_singleton.mp hs).symm
      have hnone : lastTold [(s, (m.addQueuedPlayer s).getQueuePos s)] q = none := by
        rw [lastTold, if_neg heq]
        rfl
      rw [hnone, Option.none_or, h.exact q hold, getQueuePos_of_mem hq, getQueuePos_of_mem hold, hqueue,
        List.idxOf_append_of_mem hold]

/-! ### Removing -/

inductive Removed (limit : ℕ) (m : SessionMgr) (s : ClientSession) (m' : SessionMgr) : Prop where
  | empty (herase : m.queuedPlayer.erase s = []) (hqueue : m'.queuedPlayer = []) (htold : m'.told = m.told)
  | admitted (head : ClientSession) (herase : m.queuedPlayer.erase s = head :: m'.queuedPlayer)
      (htold : m'.told = m.told ++ (head, 0) :: SessionMgr.tellFrom 1 m'.queuedPlayer)
  | kept (hqueue : m'.queuedPlayer = m.queuedPlayer.erase s)
      (htold : m'.told = m.told ++ SessionMgr.tellFrom (m.queuedPlayer.idxOf s + 1)
        ((m.queuedPlayer.erase s).drop (m.queuedPlayer.idxOf s)))

theorem removed (limit : ℕ) (m : SessionMgr) (s : ClientSession) :
    Removed limit m s (m.removeQueuedPlayer limit s).2 := by
  unfold SessionMgr.removeQueuedPlayer
  simp only
  cases herase : m.queuedPlayer.erase s with
  | nil => exact .empty herase rfl rfl
  | cons head rest =>
    simp only
    generalize (if decide (s ∈ m.queuedPlayer) = false ∧ m.getActiveSessionCount ≠ 0 then m.getActiveSessionCount - 1
      else m.getActiveSessionCount) = sessions
    by_cases hlimit : limit = 0 ∨ sessions < limit
    · rw [if_pos hlimit]
      exact .admitted head herase rfl
    · rw [if_neg hlimit]
      exact .kept herase.symm (by rw [herase])

theorem idxOf_erase (hnodup : queue.Nodup) {s q : ClientSession} (hq : q ∈ queue.erase s) :
    (q ∉ (queue.erase s).drop (queue.idxOf s) ∧ (queue.erase s).idxOf q = queue.idxOf q) ∨
      (q ∈ (queue.erase s).drop (queue.idxOf s) ∧
        (queue.erase s).idxOf q = queue.idxOf s + ((queue.erase s).drop (queue.idxOf s)).idxOf q) := by
  by_cases hs : s ∈ queue
  · obtain ⟨before, behind, rfl, hfresh⟩ := List.eq_append_cons_of_mem hs
    have herase : (before ++ s :: behind).erase s = before ++ behind := by
      rw [List.erase_append_right _ hfresh, List.erase_cons_head]
    have hplace : (before ++ s :: behind).idxOf s = before.length := by
      rw [List.idxOf_append_of_notMem hfresh, List.idxOf_cons_self, Nat.add_zero]
    rw [herase, hplace, List.drop_left]
    rw [herase] at hq
    rcases List.mem_append.mp hq with hbefore | hbehind
    · refine .inl ⟨fun hbehind => ?_, ?_⟩
      · exact (List.nodup_append.mp hnodup).2.2 q hbefore q (List.mem_cons_of_mem _ hbehind) rfl
      · rw [List.idxOf_append_of_mem hbefore, List.idxOf_append_of_mem hbefore]
    · have hnot : q ∉ before := fun hbefore =>
        (List.nodup_append.mp hnodup).2.2 q hbefore q (List.mem_cons_of_mem _ hbehind) rfl
      exact .inr ⟨hbehind, List.idxOf_append_of_notMem hnot⟩
  · have hlen : (queue.erase s).drop (queue.idxOf s) = [] := by
      rw [List.erase_of_not_mem hs, List.idxOf_eq_length hs, List.drop_length]
    rw [hlen, List.erase_of_not_mem hs]
    exact .inl ⟨List.not_mem_nil, rfl⟩

theorem Told.remove (h : Told m) (limit : ℕ) (s : ClientSession) :
    Told (m.removeQueuedPlayer limit s).2 ∧ ∀ q ∈ m.queuedPlayer, q ≠ s →
      q ∉ (m.removeQueuedPlayer limit s).2.queuedPlayer →
      lastTold (m.removeQueuedPlayer limit s).2.told q = some 0 := by
  have hnodup : (m.queuedPlayer.erase s).Nodup := h.nodup.erase s
  have hmem : ∀ q ∈ m.queuedPlayer, q ≠ s → q ∈ m.queuedPlayer.erase s := fun q hq hne =>
    (List.mem_erase_of_ne hne).mpr hq
  cases removed limit m s with
  | empty herase hqueue htold =>
    refine ⟨⟨by rw [hqueue]; exact List.nodup_nil, fun q hq => ?_⟩, fun q hq hne _ => ?_⟩
    · rw [hqueue] at hq
      exact absurd hq List.not_mem_nil
    · have hleft := hmem q hq hne
      rw [herase] at hleft
      exact absurd hleft List.not_mem_nil
  | admitted head herase htold =>
    rw [herase] at hnodup hmem
    obtain ⟨hfresh, hrest⟩ := List.nodup_cons.mp hnodup
    refine ⟨⟨hrest, fun q hq => ?_⟩, fun q hq hne hgone => ?_⟩
    · rw [htold, lastTold_append, lastTold, lastTold_tellFrom hq hrest, getQueuePos_of_mem hq, Nat.add_comm]
      rfl
    · obtain rfl := (List.mem_cons.mp (hmem q hq hne)).resolve_right hgone
      rw [htold, lastTold_append, lastTold, lastTold_tellFrom_of_notMem hfresh, if_pos rfl]
      rfl
  | kept hqueue htold =>
    refine ⟨⟨by rw [hqueue]; exact hnodup, fun q hq => ?_⟩, fun q hq hne hgone => ?_⟩
    · have hq' := hq
      rw [hqueue] at hq'
      have hold : q ∈ m.queuedPlayer := List.mem_of_mem_erase hq'
      rw [htold, lastTold_append, getQueuePos_of_mem hq, hqueue]
      rcases idxOf_erase h.nodup hq' with ⟨hbefore, hsame⟩ | ⟨hbehind, hmoved⟩
      · rw [lastTold_tellFrom_of_notMem hbefore, Option.none_or, h.exact q hold, getQueuePos_of_mem hold, hsame]
      · rw [lastTold_tellFrom hbehind (hnodup.sublist (List.drop_sublist _ _)), hmoved, Option.some_or]
        congr 1
        omega
    · rw [hqueue] at hgone
      exact absurd (hmem q hq hne) hgone

/-! ### Runs -/

/-- A call, or any change of the rest of the manager between two calls. -/
inductive QueueCall where
  | add (s : ClientSession)
  | remove (limit : ℕ) (s : ClientSession)
  | other (m : SessionMgr)

def queueCall (m : SessionMgr) : QueueCall → Option SessionMgr
  | .add s => some (m.addQueuedPlayer s)
  | .remove limit s => some (m.removeQueuedPlayer limit s).2
  | .other m' => some { m' with queuedPlayer := m.queuedPlayer, told := m.told }

def AddsOnce (m : SessionMgr) : QueueCall → Prop
  | .add s => s ∉ m.queuedPlayer
  | _ => True

def EmptyQueue (m : SessionMgr) : Prop := m.queuedPlayer = []

theorem Told.step {m m' : SessionMgr} {call : QueueCall} (h : Told m) (hok : AddsOnce m call)
    (hs : queueCall m call = some m') : Told m' := by
  cases call with
  | add s =>
    obtain rfl := Option.some.inj hs
    exact h.add hok
  | remove limit s =>
    obtain rfl := Option.some.inj hs
    exact (h.remove limit s).1
  | other m1 =>
    obtain rfl := Option.some.inj hs
    exact ⟨h.nodup, h.exact⟩

/-- After every call each queued session was told its place last, and each session that leaves the queue without
being removed from it was told 0. -/
theorem positions_told {m : SessionMgr} (h : Reaches queueCall AddsOnce EmptyQueue m) :
    (∀ s ∈ m.queuedPlayer, lastTold m.told s = some (m.getQueuePos s)) ∧
      ∀ (limit : ℕ) (s : ClientSession), ∀ q ∈ m.queuedPlayer, q ≠ s →
        q ∉ (m.removeQueuedPlayer limit s).2.queuedPlayer →
        lastTold (m.removeQueuedPlayer limit s).2.told q = some 0 := by
  have hstart : ∀ m, EmptyQueue m → Told m := by
    intro m hempty
    refine ⟨by rw [hempty]; exact List.nodup_nil, fun s hs => ?_⟩
    rw [hempty] at hs
    exact absurd hs List.not_mem_nil
  have htold : Told m := h.invariant hstart fun _ _ _ hold hok hs => hold.step hok hs
  exact ⟨htold.exact, fun limit s => (htold.remove limit s).2⟩

def newMgr : SessionMgr := ⟨[], .empty, [], [], 0, 0, fun _ => ⟨0, [], [], false⟩, 0⟩

theorem accountId_pos : 0 < 2 ^ 32 := Nat.two_pow_pos 32

def waiting (n : ℕ) : ClientSession := ⟨n, ⟨0, accountId_pos⟩, SEC_PLAYER⟩

/-- Three sessions wait, the second one leaves and the first one is admitted. -/
theorem positions_told_three : ∃ m, Reaches queueCall AddsOnce EmptyQueue m ∧ m.queuedPlayer = [waiting 3] ∧
    lastTold m.told (waiting 3) = some 1 := by
  have hok : replayOk queueCall AddsOnce newMgr
      [.add (waiting 1), .add (waiting 2), .add (waiting 3), .remove 0 (waiting 2)] := by
    refine ⟨List.not_mem_nil, ?_⟩
    rintro _ ⟨⟩
    refine ⟨(by decide : waiting 2 ∉ [waiting 1]), ?_⟩
    rintro _ ⟨⟩
    exact ⟨(by decide : waiting 3 ∉ [waiting 1, waiting 2]), fun _ _ => ⟨trivial, fun _ _ => trivial⟩⟩
  obtain ⟨m, hm, hqueue⟩ := Reaches.exists_of_replay queueCall AddsOnce (show EmptyQueue newMgr from rfl) _ hok
    (fun m => decide (m.queuedPlayer = [waiting 3])) (by decide +kernel)
  have hq := of_decide_eq_true hqueue
  have hpos : m.getQueuePos (waiting 3) = 1 := by
    unfold SessionMgr.getQueuePos
    rw [hq]
    decide
  refine ⟨m, hm, hq, ?_⟩
  rw [(positions_told hm).1 _ (by rw [hq]; exact List.mem_singleton_self _), hpos]

/-- A session that was queued twice is told the place of its second entry when one between them leaves. -/
theorem position_wrong_twice : ¬ ∀ m, Reaches queueCall anyStep EmptyQueue m →
    ∀ s ∈ m.queuedPlayer, lastTold m.told s = some (m.getQueuePos s) := by
  intro hall
  obtain ⟨m, hm, hwrong⟩ := Reaches.exists_of_replay queueCall anyStep (show EmptyQueue newMgr from rfl)
    [.add (waiting 1), .add (waiting 2), .add (waiting 1),
      .other { newMgr with sessions := KeyedList.empty.put (waiting 1) }, .remove 1 (waiting 2)]
    (replayOk_anyStep _ _ _)
    (fun m => decide (waiting 1 ∈ m.queuedPlayer ∧ lastTold m.told (waiting 1) ≠ some (m.getQueuePos (waiting 1))))
    (by decide +kernel)
  obtain ⟨hqueued, hne⟩ := of_decide_eq_true hwrong
  exact hne (hall m hm _ hqueued)

end HysteriaCore.Client
