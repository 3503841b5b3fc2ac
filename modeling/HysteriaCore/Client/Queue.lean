import HysteriaCore.Client.SessionMgr

/-!
# The login queue

Validity: whoever waits in the queue is the session stored under its account, once.
Progress: nobody waits while fewer than `playerLimit` sessions play. `AddSession_` keeps
both; the loop of `Update`, which never calls `RemoveQueuedPlayer`, keeps them only as long
as that call would have had nothing to do.
-/

namespace HysteriaCore.Client
open Lib

/-! ### What the routines do to the two tables -/

theorem removeQueuedPlayer_sessions (limit : ℕ) (m : SessionMgr) (s : ClientSession) :
    (m.removeQueuedPlayer limit s).2.sessions = m.sessions := by
  unfold SessionMgr.removeQueuedPlayer
  simp only []
  split
  · split_ifs <;> rfl
  · rfl

theorem removeQueuedPlayer_found (limit : ℕ) (m : SessionMgr) (s : ClientSession) :
    (m.removeQueuedPlayer limit s).1 = decide (s ∈ m.queuedPlayer) := by
  unfold SessionMgr.removeQueuedPlayer
  simp only []
  split
  · split_ifs <;> rfl
  · rfl

def SessionMgr.playersWithout (m : SessionMgr) (s : ClientSession) : ℕ :=
  if s ∉ m.queuedPlayer ∧ m.getActiveSessionCount ≠ 0 then m.getActiveSessionCount - 1
  else m.getActiveSessionCount

theorem removeQueuedPlayer_queue (limit : ℕ) (m : SessionMgr) (s : ClientSession) :
    (m.removeQueuedPlayer limit s).2.queuedPlayer =
      if limit = 0 ∨ m.playersWithout s < limit then (m.queuedPlayer.erase s).tail
      else m.queuedPlayer.erase s := by
  unfold SessionMgr.removeQueuedPlayer SessionMgr.playersWithout
  simp only [decide_eq_false_iff_not]
  split
  · rename_i head rest hq
    split_ifs <;> simp [hq]
  · rename_i hq
    simp [hq]

theorem addSession_sessions (c : Config) (m : SessionMgr) (s : ClientSession) :
    (m.addSession_ c s).sessions = m.sessions.put s := by
  have hold : (m.removeOld c s).2.sessions = m.sessions := by
    unfold SessionMgr.removeOld
    split
    · exact removeQueuedPlayer_sessions ..
    · rfl
  have hstore : ((m.removeOld c s).2.store c s).sessions = m.sessions.put s := by
    rw [SessionMgr.store]
    exact congrArg (·.put s) hold
  unfold SessionMgr.addSession_
  simp only []
  split_ifs <;> exact hstore

def SessionMgr.sessionsWith (c : Config) (m : SessionMgr) (s : ClientSession) : ℕ :=
  if (m.removeOld c s).1 then u32 (u32 (m.sessions.put s).size + (2^32 - 1))
  else u32 (m.sessions.put s).size

theorem addSession_queue (c : Config) (m : SessionMgr) (s : ClientSession) :
    (m.addSession_ c s).queuedPlayer =
      if 0 < c.playerLimit ∧ c.playerLimit ≤ m.sessionsWith c s ∧ s.security = SEC_PLAYER then
        (m.removeOld c s).2.queuedPlayer ++ [s]
      else (m.removeOld c s).2.queuedPlayer := by
  have hsize : ((m.removeOld c s).2.store c s).getActiveAndQueuedSessionCount =
      u32 (m.sessions.put s).size := by
    have hs := addSession_sessions c m s
    unfold SessionMgr.addSession_ at hs
    simp only [] at hs
    split_ifs at hs <;> exact congrArg (fun l => u32 (KeyedList.size l)) hs
  unfold SessionMgr.addSession_ SessionMgr.sessionsWith
  simp only [hsize]
  split_ifs <;> rfl

/-! ### What a step does to the two tables -/

def Phase.rest : Phase → List ClientSession
  | .updating rest => rest
  | .spreading rest => rest
  | _ => []

/-- Only `AddSession_` and the removals of `Update` change the tables; the loops visit
stored sessions. -/
inductive TableStep (c : Config) (t : State) : Event → State → Prop where
  | addNext {t' : State} (s : ClientSession) (m : SessionMgr) (hs : m.sessions = t.mgr.sessions)
      (hq : m.queuedPlayer = t.mgr.queuedPlayer)
      (hs' : t'.mgr.sessions = (m.addSession_ c s).sessions)
      (hq' : t'.mgr.queuedPlayer = (m.addSession_ c s).queuedPlayer) (hp : t'.phase.rest = []) :
      TableStep c t .addNext t'
  | remove {t' : State} (s : ClientSession) (hr : s ∈ t.phase.rest)
      (hs' : t'.mgr.sessions = t.mgr.sessions.erase s.accountId)
      (hq' : t'.mgr.queuedPlayer = t.mgr.queuedPlayer)
      (hp : t'.phase.rest = t.phase.rest.erase s) : TableStep c t (.updateSingle s false) t'
  | other {t' : State} {e : Event} (hs' : t'.mgr.sessions = t.mgr.sessions)
      (hq' : t'.mgr.queuedPlayer = t.mgr.queuedPlayer)
      (hp : t'.phase.rest.Sublist t.phase.rest ∨ t'.phase.rest = t.mgr.sessions.rows) :
      TableStep c t e t'

theorem spreadNeeded_sessions (c : Config) (m : SessionMgr) (diff : ℕ) :
    (spreadNeeded c m diff).2.sessions = m.sessions ∧
      (spreadNeeded c m diff).2.queuedPlayer = m.queuedPlayer := by
  unfold spreadNeeded
  simp only []
  split_ifs <;> exact ⟨rfl, rfl⟩

variable {c : Config} {t t' : State} {s : ClientSession}

theorem updateSingle_tables {alive : Bool}
    (h : updateSingle t s alive = some t') : TableStep c t (.updateSingle s alive) t' := by
  unfold updateSingle at h
  split at h
  · rename_i rest hphase
    split_ifs at h with hs halive
    · obtain rfl := Option.some.inj h
      refine .other rfl rfl (.inl ?_)
      rw [hphase]
      exact List.erase_sublist
    · obtain rfl := Option.some.inj h
      obtain rfl : alive = false := by simpa using halive
      exact .remove s (by rw [hphase]; exact hs) rfl rfl (by rw [hphase]; rfl)
  · cases h

theorem updateDynamics_tables {diff : ℕ}
    (h : updateDynamics c t diff = some t') : TableStep c t (.updateDynamics diff) t' := by
  obtain ⟨hs, hq⟩ := spreadNeeded_sessions c t.mgr diff
  unfold updateDynamics at h
  split at h
  · split_ifs at h
    · obtain rfl := Option.some.inj h
      exact .other rfl rfl (.inl (List.nil_sublist _))
    · simp only [] at h
      split_ifs at h
      · obtain rfl := Option.some.inj h
        exact .other hs hq (.inr (congrArg KeyedList.rows hs))
      · obtain rfl := Option.some.inj h
        exact .other hs hq (.inl (List.nil_sublist _))
  · cases h

theorem addNext_tables (h : addNext c t = some t') : TableStep c t .addNext t' := by
  unfold addNext at h
  split at h
  · rename_i s queue hphase hqueue
    obtain rfl := Option.some.inj h
    exact .addNext s { t.mgr with addSessQueue := queue } rfl rfl rfl rfl
      (by change t.phase.rest = []; rw [hphase]; rfl)
  · cases h

theorem spread_tables (h : spread t s = some t') : TableStep c t (.spread s) t' := by
  unfold spread at h
  split at h
  · rename_i rest hphase
    split_ifs at h
    obtain rfl := Option.some.inj h
    refine .other rfl rfl (.inl ?_)
    rw [hphase]
    exact List.erase_sublist
  · cases h

variable {e : Event}

theorem step_tables (h : step c t e = some t') : TableStep c t e t' := by
  cases e with
  | addNext => exact addNext_tables h
  | updateSingle s alive => exact updateSingle_tables h
  | updateDynamics diff => exact updateDynamics_tables h
  | spread s => exact spread_tables h
  | login accountId security =>
    obtain rfl := Option.some.inj h
    exact .other rfl rfl (.inl (List.Sublist.refl _))
  | addSession s =>
    simp only [step] at h
    split_ifs at h
    obtain rfl := Option.some.inj h
    exact .other rfl rfl (.inl (List.Sublist.refl _))
  | release s =>
    simp only [step] at h
    split_ifs at h
    obtain rfl := Option.some.inj h
    exact .other rfl rfl (.inl (List.Sublist.refl _))
  | update =>
    simp only [step] at h
    split_ifs at h
    obtain rfl := Option.some.inj h
    exact .other rfl rfl (.inl (List.nil_sublist _))
  | addDone =>
    simp only [step] at h
    split_ifs at h
    obtain rfl := Option.some.inj h
    exact .other rfl rfl (.inr rfl)
  | spreadDone =>
    simp only [step] at h
    split_ifs at h
    obtain rfl := Option.some.inj h
    exact .other rfl rfl (.inl (List.nil_sublist _))
  | setSleep i =>
    simp only [step, setSleep] at h
    split_ifs at h <;> obtain rfl := Option.some.inj h <;>
      exact .other rfl rfl (.inl (List.Sublist.refl _))
  | addNewSession i =>
    simp only [step, addNewSession] at h
    split_ifs at h
    split at h
    · obtain rfl := Option.some.inj h
      exact .other rfl rfl (.inl (List.Sublist.refl _))
    · cases h
  | updateMulti i s alive =>
    simp only [step, updateMulti] at h
    split_ifs at h <;> obtain rfl := Option.some.inj h <;>
      exact .other rfl rfl (.inl (List.Sublist.refl _))

def PhaseInv (t : State) : Prop := t.phase.rest.Nodup ∧ ∀ s ∈ t.phase.rest, s ∈ t.mgr.sessions

theorem PhaseInv.step (h : PhaseInv t) (hs : TableStep c t e t') : PhaseInv t' := by
  obtain ⟨hnd, hmem⟩ := h
  cases hs with
  | addNext s m _ _ _ _ hp => simp [PhaseInv, hp]
  | remove s hr hs' hq' hp =>
    refine ⟨by rw [hp]; exact hnd.erase s, fun x hx => ?_⟩
    rw [hp] at hx
    have hxs : x ≠ s := by
      rintro rfl
      exact hnd.not_mem_erase hx
    have hx' := hmem x (List.mem_of_mem_erase hx)
    rw [hs', KeyedList.mem_erase]
    exact ⟨hx', fun hk => hxs (t.mgr.sessions.eq_of_key_eq hx' (hmem s hr) hk)⟩
  | other hs' hq' hp =>
    rcases hp with hp | hp
    · exact ⟨hp.nodup hnd, fun x hx => by rw [hs']; exact hmem x (hp.subset hx)⟩
    · refine ⟨by rw [hp]; exact t.mgr.sessions.nodup, fun x hx => ?_⟩
      rw [hp] at hx
      rw [hs']
      exact hx

/-! ### Validity -/

/-- Whoever is queued is stored under its account, and is queued once. -/
structure QueueValid (m : SessionMgr) : Prop where
  nodup : m.queuedPlayer.Nodup
  stored : ∀ q ∈ m.queuedPlayer, q ∈ m.sessions

theorem removeOld_queue (c : Config) (m : SessionMgr) (s : ClientSession) (h : QueueValid m) :
    (m.removeOld c s).2.queuedPlayer.Sublist m.queuedPlayer ∧
      ∀ q ∈ (m.removeOld c s).2.queuedPlayer, q.accountId ≠ s.accountId := by
  unfold SessionMgr.removeOld
  cases hold : m.sessions.find? s.accountId with
  | none =>
    have hnone := (KeyedList.find?_eq_none_iff _ _).mp hold
    exact ⟨List.Sublist.refl _, fun q hq => hnone q (h.stored q hq)⟩
  | some old =>
    obtain ⟨hmem, hkey⟩ := (KeyedList.find?_eq_some_iff _ _ _).mp hold
    have hsub : (m.removeQueuedPlayer c.playerLimit old).2.queuedPlayer.Sublist
        (m.queuedPlayer.erase old) := by
      rw [removeQueuedPlayer_queue]
      split_ifs
      · exact List.tail_sublist _
      · exact List.Sublist.refl _
    refine ⟨hsub.trans List.erase_sublist, fun q hq heq => ?_⟩
    have hq' := hsub.subset hq
    have hqold : q = old :=
      m.sessions.eq_of_key_eq (h.stored q (List.mem_of_mem_erase hq')) hmem (heq.trans hkey.symm)
    rw [hqold] at hq'
    exact h.nodup.not_mem_erase hq'

variable {m : SessionMgr}

theorem QueueValid.addSession (h : QueueValid m) : QueueValid (m.addSession_ c s) := by
  obtain ⟨hsub, hne⟩ := removeOld_queue c m s h
  have hstored : ∀ q ∈ (m.removeOld c s).2.queuedPlayer, q ∈ m.sessions.put s := fun q hq =>
    (KeyedList.mem_put ..).mpr (.inr ⟨h.stored q (hsub.subset hq), hne q hq⟩)
  constructor
  · rw [addSession_queue]
    split_ifs
    · refine List.Nodup.append (hsub.nodup h.nodup) (List.nodup_singleton s) ?_
      intro q hq hq'
      exact hne q hq (by rw [List.mem_singleton.mp hq'])
    · exact hsub.nodup h.nodup
  · intro q hq
    rw [addSession_sessions]
    rw [addSession_queue] at hq
    split_ifs at hq
    · rcases List.mem_append.mp hq with hq | hq
      · exact hstored q hq
      · exact (KeyedList.mem_put ..).mpr (.inl (List.mem_singleton.mp hq))
    · exact hstored q hq

def RemovesUnqueued (t : State) : Event → Prop
  | .updateSingle s false => s ∉ t.mgr.queuedPlayer
  | _ => True

instance (t : State) (e : Event) : Decidable (RemovesUnqueued t e) := by
  unfold RemovesUnqueued
  split <;> infer_instance

structure QueueInv (t : State) : Prop where
  phase : PhaseInv t
  valid : QueueValid t.mgr

theorem QueueInv.step (h : QueueInv t) (hok : RemovesUnqueued t e) (hs : step c t e = some t') : QueueInv t' := by
  have ht := step_tables hs
  refine ⟨h.phase.step ht, ?_⟩
  obtain ⟨hnd, hst⟩ := h.valid
  cases ht with
  | addNext s m hms hmq hs' hq' =>
    have hm : QueueValid m := ⟨by rw [hmq]; exact hnd, fun q hq => by rw [hms]; exact hst q (hmq ▸ hq)⟩
    obtain ⟨hnd', hst'⟩ := hm.addSession (c := c) (s := s)
    exact ⟨by rw [hq']; exact hnd', fun q hq => by rw [hs']; exact hst' q (hq' ▸ hq)⟩
  | remove s hr hs' hq' =>
    refine ⟨by rw [hq']; exact hnd, fun q hq => ?_⟩
    rw [hq'] at hq
    rw [hs', KeyedList.mem_erase]
    refine ⟨hst q hq, fun hk => ?_⟩
    have hqs := t.mgr.sessions.eq_of_key_eq (hst q hq) (h.phase.2 s hr) hk
    exact hok (hqs ▸ hq)
  | other hs' hq' =>
    exact ⟨by rw [hq']; exact hnd, fun q hq => by rw [hs']; exact hst q (hq' ▸ hq)⟩

theorem initial_queueInv (c : Config) : ∀ t, Starts c t → QueueInv t := by
  rintro t rfl
  refine ⟨⟨List.nodup_nil, fun s hs => ?_⟩, ⟨List.nodup_nil, fun q hq => ?_⟩⟩
  · cases hs
  · cases hq

theorem QueueValid.length_le (h : QueueValid m) : m.queuedPlayer.length ≤ m.sessions.size :=
  (h.nodup.subperm fun q hq => h.stored q hq).length_le

/-- In a run whose removals take no queued session, the queue is valid in every state. -/
theorem queue_valid {c : Config} {t : State}
    (h : Reaches (step c) RemovesUnqueued (Starts c) t) :
    (∀ q ∈ t.mgr.queuedPlayer, t.mgr.sessions.find? q.accountId = some q ∧
        t.mgr.queuedPlayer.count q = 1) ∧
      t.mgr.queuedPlayer.length ≤ t.mgr.sessions.size := by
  have hinv : QueueInv t := h.invariant (initial_queueInv c) fun _ _ _ hi => hi.step
  refine ⟨fun q hq => ⟨?_, List.count_eq_one_of_mem hinv.valid.nodup hq⟩, hinv.valid.length_le⟩
  exact (KeyedList.find?_eq_some_iff _ _ _).mpr ⟨hinv.valid.stored q hq, rfl⟩

def oneSlot : Config := ⟨1, 1, false, 0, 0, by decide⟩

/-- A login of the account, from the constructor to the end of the next `Update`, whose
loop finds the listed sessions alive; `n` sessions were created before. -/
def loginUpdate (n : ℕ) (accountId : Fin (2^32)) (alive : List ClientSession) : List Event :=
  [.login accountId SEC_PLAYER, .addSession ⟨n, accountId, SEC_PLAYER⟩,
    .release ⟨n, accountId, SEC_PLAYER⟩, .update, .addNext, .addDone] ++
  (alive.map fun s => Event.updateSingle s true)

def first : ClientSession := ⟨0, 1, SEC_PLAYER⟩
def second : ClientSession := ⟨1, 2, SEC_PLAYER⟩

theorem queue_valid_oneSlot :
    ∃ t, Reaches (step oneSlot) RemovesUnqueued (Starts oneSlot) t ∧
      t.mgr.queuedPlayer = [second] ∧ t.mgr.sessions.find? second.accountId = some second ∧
      t.mgr.queuedPlayer.length ≤ t.mgr.sessions.size := by
  obtain ⟨t, ht, h⟩ := Reaches.exists_of_replay (step oneSlot) RemovesUnqueued
    (initial_starts oneSlot)
    (loginUpdate 0 1 [first] ++ [.updateDynamics 0] ++ loginUpdate 1 2 [second] ++
      [.updateSingle first false, .updateDynamics 0])
    (by decide) (fun t => decide (t.mgr.queuedPlayer = [second])) (by decide)
  have hq : t.mgr.queuedPlayer = [second] := of_decide_eq_true h
  obtain ⟨hvalid, hle⟩ := queue_valid ht
  exact ⟨t, ht, hq, (hvalid second (by rw [hq]; decide)).1, hle⟩

/-- The waiting session leaves: `Update` drops it from `_sessions` and not from the queue. -/
theorem queue_keeps_removed_session :
    ∃ t, Reaches (step oneSlot) anyStep (Starts oneSlot) t ∧
      second ∈ t.mgr.queuedPlayer ∧ t.mgr.sessions.find? second.accountId = none := by
  obtain ⟨t, ht, h⟩ := Reaches.exists_of_replay (step oneSlot) anyStep
    (initial_starts oneSlot)
    (loginUpdate 0 1 [first] ++ [.updateDynamics 0] ++ loginUpdate 1 2 [first] ++
      [.updateSingle second false, .updateDynamics 0])
    (replayOk_anyStep ..)
    (fun t => decide (second ∈ t.mgr.queuedPlayer ∧ t.mgr.sessions.find? second.accountId = none))
    (by decide)
  exact ⟨t, ht, of_decide_eq_true h⟩

/-! ### Progress -/

def SessionMgr.playing (m : SessionMgr) : List ClientSession :=
  m.sessions.rows.filter fun s => decide (s ∉ m.queuedPlayer)

theorem QueueValid.length_playing (h : QueueValid m) :
    m.playing.length + m.queuedPlayer.length = m.sessions.size := by
  have hperm : (m.sessions.rows.filter fun s => decide (s ∈ m.queuedPlayer)).Perm
      m.queuedPlayer := by
    refine (List.perm_ext_iff_of_nodup (m.sessions.nodup.filter _) h.nodup).mpr fun s => ?_
    rw [List.mem_filter, decide_eq_true_eq]
    exact ⟨fun hs => hs.2, fun hs => ⟨h.stored s hs, hs⟩⟩
  have hsplit := List.length_eq_length_filter_add (l := m.sessions.rows)
    fun s => decide (s ∈ m.queuedPlayer)
  have hnot : (m.sessions.rows.filter fun s => !decide (s ∈ m.queuedPlayer)) = m.playing := by
    simp [SessionMgr.playing]
  rw [hnot, hperm.length_eq] at hsplit
  simp only [KeyedList.size]
  omega

structure SlotsUsed (limit : ℕ) (m : SessionMgr) : Prop where
  valid : QueueValid m
  used : m.queuedPlayer ≠ [] → limit + m.queuedPlayer.length ≤ m.sessions.size

theorem sessions_size_le (m : SessionMgr) : m.sessions.size ≤ 2^32 := by
  simpa using m.sessions.size_le_card

theorem getActiveSessionCount_eq (h : QueueValid m) (hq : m.queuedPlayer ≠ []) :
    m.getActiveSessionCount = m.sessions.size - m.queuedPlayer.length := by
  have hle := h.length_le
  have hsize := sessions_size_le m
  have hpos := List.length_pos_of_ne_nil hq
  unfold SessionMgr.getActiveSessionCount u32
  omega

theorem removeOld_of_none
    (h : m.sessions.find? s.accountId = none) :
    (m.removeOld c s).1 = true ∧ (m.removeOld c s).2.queuedPlayer = m.queuedPlayer := by
  simp only [SessionMgr.removeOld, h, and_self]

theorem removeOld_of_some {s old : ClientSession}
    (h : m.sessions.find? s.accountId = some old) :
    (m.removeOld c s).1 = !decide (old ∈ m.queuedPlayer) ∧
      (m.removeOld c s).2.queuedPlayer =
        if c.playerLimit = 0 ∨ m.playersWithout old < c.playerLimit then
          (m.queuedPlayer.erase old).tail
        else m.queuedPlayer.erase old := by
  simp only [SessionMgr.removeOld, h]
  exact ⟨by rw [removeQueuedPlayer_found], removeQueuedPlayer_queue ..⟩

theorem SlotsUsed.addSession
    (hL : 0 < c.playerLimit) (h : SlotsUsed c.playerLimit m) :
    SlotsUsed c.playerLimit (m.addSession_ c s) := by
  obtain ⟨hv, hu⟩ := h
  refine ⟨hv.addSession, ?_⟩
  have hle := hv.length_le
  have hsize := sessions_size_le m
  have hsize' := sessions_size_le (m.addSession_ c s)
  rw [addSession_sessions] at hsize' ⊢
  rw [addSession_queue]
  have hwith : m.sessionsWith c s = if (m.removeOld c s).1 then (m.sessions.put s).size - 1
      else u32 (m.sessions.put s).size := by
    have hpos : 1 ≤ (m.sessions.put s).size := by simp [KeyedList.size, KeyedList.put]
    unfold SessionMgr.sessionsWith u32
    split_ifs
    · omega
    · rfl
  cases hold : m.sessions.find? s.accountId with
  | none =>
    have hnew := m.sessions.size_put_of_new ((KeyedList.find?_eq_none_iff _ _).mp hold)
    obtain ⟨hfst, hsnd⟩ := removeOld_of_none (c := c) hold
    simp only [hfst, ite_true] at hwith
    rw [hsnd]
    by_cases hq : m.queuedPlayer = []
    · intro hne
      split_ifs at hne ⊢
      · simp only [hq, List.nil_append, List.length_singleton]
        omega
      · exact absurd hq hne
    · have hused := hu hq
      intro _
      split_ifs
      · simp only [List.length_append, List.length_singleton]
        omega
      · omega
  | some old =>
    obtain ⟨hmem, hkey⟩ := (KeyedList.find?_eq_some_iff _ _ _).mp hold
    have hsame := m.sessions.size_put_of_mem hmem hkey
    have hpos : 1 ≤ m.sessions.size := List.length_pos_of_mem hmem
    obtain ⟨hfst, hsnd⟩ := removeOld_of_some (c := c) hold
    rw [hsnd, hsame]
    rw [hsame, hfst] at hwith
    by_cases hqueued : old ∈ m.queuedPlayer
    · -- a queued player logs in again: the slots stay as they are
      have hq : m.queuedPlayer ≠ [] := List.ne_nil_of_mem hqueued
      have hused := hu hq
      have hplayers : m.playersWithout old = m.sessions.size - m.queuedPlayer.length := by
        simp [SessionMgr.playersWithout, hqueued, getActiveSessionCount_eq hv hq]
      have hlen := List.length_erase_of_mem hqueued
      have hone := List.length_pos_of_mem hqueued
      have hpop : ¬ (c.playerLimit = 0 ∨ m.playersWithout old < c.playerLimit) := by omega
      rw [if_neg hpop]
      intro _
      split_ifs
      · simp only [List.length_append, List.length_singleton]
        omega
      · omega
    · have hwith' : m.sessionsWith c s = m.sessions.size - 1 := by simpa [hqueued] using hwith
      rw [List.erase_of_not_mem hqueued]
      by_cases hq : m.queuedPlayer = []
      · simp only [hq, List.tail_nil, ite_self]
        intro hne
        split_ifs at hne ⊢
        · simp only [List.nil_append, List.length_singleton]
          omega
        · exact absurd rfl hne
      · -- a playing player logs in again: the head takes the slot, or it is not free
        have hused := hu hq
        have hlen := List.length_pos_of_ne_nil hq
        have hplayers : m.playersWithout old = m.sessions.size - m.queuedPlayer.length - 1 := by
          have hactive := getActiveSessionCount_eq hv hq
          have hne : m.getActiveSessionCount ≠ 0 := by omega
          rw [SessionMgr.playersWithout, if_pos ⟨hqueued, hne⟩, hactive]
        intro _
        simp only [apply_ite List.length, List.length_append, List.length_singleton,
          List.length_tail]
        split_ifs <;> omega

/-- `Update` removes only sessions that do not wait, and only while nobody waits or more
than `playerLimit` sessions play. -/
def RemovesWithoutSuccessor (c : Config) (t : State) : Event → Prop
  | .updateSingle s false => s ∉ t.mgr.queuedPlayer ∧
      (t.mgr.queuedPlayer = [] ∨ c.playerLimit < t.mgr.playing.length)
  | _ => True

instance (c : Config) (t : State) (e : Event) : Decidable (RemovesWithoutSuccessor c t e) := by
  unfold RemovesWithoutSuccessor
  split <;> infer_instance

structure ProgressInv (c : Config) (t : State) : Prop where
  queue : QueueInv t
  used : t.mgr.queuedPlayer ≠ [] →
    c.playerLimit + t.mgr.queuedPlayer.length ≤ t.mgr.sessions.size

theorem ProgressInv.step (hL : 0 < c.playerLimit)
    (h : ProgressInv c t) (hok : RemovesWithoutSuccessor c t e) (hs : step c t e = some t') :
    ProgressInv c t' := by
  have hunqueued : RemovesUnqueued t e := by
    unfold RemovesUnqueued
    split
    · exact hok.1
    · trivial
  refine ⟨h.queue.step hunqueued hs, ?_⟩
  have ht := step_tables hs
  cases ht with
  | addNext s m hms hmq hs' hq' =>
    have hm : SlotsUsed c.playerLimit m :=
      ⟨⟨by rw [hmq]; exact h.queue.valid.nodup, fun q hq => by
        rw [hms]
        exact h.queue.valid.stored q (hmq ▸ hq)⟩, by rw [hmq, hms]; exact h.used⟩
    rw [hs', hq']
    exact (hm.addSession hL).used
  | remove s hr hs' hq' =>
    have hsize := t.mgr.sessions.size_erase_of_mem (h.queue.phase.2 s hr)
    have hplaying := h.queue.valid.length_playing
    rw [hs', hq']
    intro hq
    have hlt := hok.2.resolve_left hq
    omega
  | other hs' hq' =>
    rw [hs', hq']
    exact h.used

/-- In a run whose removals free no slot for a waiting player, a queue that is not empty at
the end of an `Update` means that `playerLimit` sessions play. -/
theorem queue_progress {c : Config} (hL : 0 < c.playerLimit) {t : State}
    (h : Reaches (step c) (RemovesWithoutSuccessor c) (Starts c) t) (_hend : t.phase = .idle)
    (hq : t.mgr.queuedPlayer ≠ []) : c.playerLimit ≤ t.mgr.playing.length := by
  have hinv : ProgressInv c t :=
    h.invariant (fun t' ht' => ⟨initial_queueInv c t' ht', fun hne => by
      obtain rfl := ht'
      exact absurd rfl hne⟩) fun _ _ _ hi => hi.step hL
  have hlen := hinv.queue.valid.length_playing
  have hused := hinv.used hq
  omega

/-- One plays, one waits, and the player logs in again: the waiting one takes the slot. -/
theorem queue_progress_oneSlot :
    ∃ t, Reaches (step oneSlot) (RemovesWithoutSuccessor oneSlot) (Starts oneSlot) t ∧
      t.mgr.queuedPlayer = [⟨2, 1, SEC_PLAYER⟩] ∧ 1 ≤ t.mgr.playing.length := by
  obtain ⟨t, ht, h⟩ := Reaches.exists_of_replay (step oneSlot) (RemovesWithoutSuccessor oneSlot)
    (initial_starts oneSlot)
    (loginUpdate 0 1 [first] ++ [.updateDynamics 0] ++ loginUpdate 1 2 [first, second] ++
      [.updateDynamics 0] ++ loginUpdate 2 1 [second, ⟨2, 1, SEC_PLAYER⟩] ++ [.updateDynamics 0])
    (by decide)
    (fun t => decide (t.phase = .idle ∧ t.mgr.queuedPlayer = [⟨2, 1, SEC_PLAYER⟩])) (by decide)
  obtain ⟨hphase, hq⟩ := of_decide_eq_true h
  exact ⟨t, ht, hq, queue_progress (by decide) ht hphase (by rw [hq]; decide)⟩

/-- The player leaves: `Update` drops it from `_sessions`, and nobody takes the slot. -/
theorem queue_waits_beside_free_slot :
    ∃ t, Reaches (step oneSlot) anyStep (Starts oneSlot) t ∧ t.phase = .idle ∧
      t.mgr.queuedPlayer = [second] ∧ t.mgr.playing = [] := by
  obtain ⟨t, ht, h⟩ := Reaches.exists_of_replay (step oneSlot) anyStep (initial_starts oneSlot)
    (loginUpdate 0 1 [first] ++ [.updateDynamics 0] ++ loginUpdate 1 2 [second] ++
      [.updateSingle first false, .updateDynamics 0])
    (replayOk_anyStep ..)
    (fun t => decide (t.phase = .idle ∧ t.mgr.queuedPlayer = [second] ∧ t.mgr.playing = []))
    (by decide)
  exact ⟨t, ht, of_decide_eq_true h⟩

end HysteriaCore.Client
