import HysteriaCore.Client.Queue
import Mathlib.Algebra.BigOperators.Group.Finset.Basic

/-!
# The reference count of a client session

Every holder releases its reference once: the socket that constructed the session, an entry
of `_addSessQueue`, an entry of `_sessions`, and an updater that has the session in its
queue or its set. The count agrees with the holders as long as no holder is overwritten,
doubled in a set or thrown away with one.
-/

namespace HysteriaCore.Client
open Lib

/-- The updaters, among the first `n`, that have the session in their queue or their set. -/
def updaterHolders (u : ℕ → SessionUpdater) (n : ℕ) (s : ClientSession) : ℕ :=
  ∑ i ∈ Finset.range n, if (u i).holds s then 1 else 0

def holders (c : Config) (t : State) (s : ClientSession) : ℕ :=
  t.constructed.count s + t.added.count s + t.mgr.addSessQueue.count s +
    t.mgr.sessions.rows.count s + updaterHolders t.mgr.updater c.sessionThreads s

theorem updaterHolders_update (u : ℕ → SessionUpdater) {n i : ℕ} (hi : i < n)
    (v : SessionUpdater) (s : ClientSession) :
    updaterHolders (Function.update u i v) n s + (if (u i).holds s then 1 else 0) =
      updaterHolders u n s + if v.holds s then 1 else 0 := by
  have hmem : i ∈ Finset.range n := Finset.mem_range.mpr hi
  have hrest : ∑ j ∈ (Finset.range n).erase i, (if (Function.update u i v j).holds s then 1 else 0) =
      ∑ j ∈ (Finset.range n).erase i, if (u j).holds s then 1 else 0 := by
    refine Finset.sum_congr rfl fun j hj => ?_
    rw [Function.update_of_ne (Finset.ne_of_mem_erase hj)]
  unfold updaterHolders
  rw [← Finset.add_sum_erase _ _ hmem, ← Finset.add_sum_erase (Finset.range n)
    (fun j => if (u j).holds s then 1 else 0) hmem, hrest, Function.update_self]
  omega

theorem updaterHolders_same (u : ℕ → SessionUpdater) {n i : ℕ} (hi : i < n) (v : SessionUpdater)
    (s : ClientSession) (h : v.holds s = (u i).holds s) :
    updaterHolders (Function.update u i v) n s = updaterHolders u n s := by
  have hu := updaterHolders_update u hi v s
  rw [h] at hu
  omega

theorem updaterHolders_eq_zero {u : ℕ → SessionUpdater} {n : ℕ} {s : ClientSession} :
    updaterHolders u n s = 0 ↔ ∀ i < n, (u i).holds s = false := by
  simp [updaterHolders]

/-! ### Counts and holders change together -/

/-- The count of every session is the number of its holders, and a created session that has
none left is deleted. -/
def Counted (c : Config) (t : State) : Prop :=
  ∀ s, t.refs s = holders c t s ∧ (t.deleted s = true ↔ s ∈ t.created ∧ holders c t s = 0)

section Counted
variable {c : Config} {t w : State} {s : ClientSession}

theorem Counted.same (h : Counted c t) (hr : w.refs = t.refs) (hd : w.deleted = t.deleted)
    (hc : w.created = t.created) (hh : ∀ x, holders c w x = holders c t x) : Counted c w := by
  intro x
  rw [hr, hd, hc, hh]
  exact h x

theorem Counted.add (h : Counted c t) (hheld : 0 < holders c t s)
    (hr : w.refs = Function.update t.refs s (t.refs s + 1)) (hd : w.deleted = t.deleted)
    (hc : w.created = t.created) (hs : holders c w s = holders c t s + 1)
    (hh : ∀ x, x ≠ s → holders c w x = holders c t x) : Counted c w := by
  intro x
  by_cases hx : x = s
  · subst hx
    obtain ⟨h1, h2⟩ := h x
    rw [hr, hd, hc, hs, Function.update_self, h1]
    refine ⟨by push_cast; rfl, h2.trans ?_⟩
    constructor <;> rintro ⟨-, hz⟩ <;> omega
  · rw [hr, hd, hc, hh x hx, Function.update_of_ne hx]
    exact h x

theorem Counted.remove (h : Counted c t) (hcreated : s ∈ t.created)
    (hr : w.refs = (t.removeReference s).refs) (hd : w.deleted = (t.removeReference s).deleted)
    (hc : w.created = t.created) (hs : holders c w s + 1 = holders c t s)
    (hh : ∀ x, x ≠ s → holders c w x = holders c t x) : Counted c w := by
  intro x
  by_cases hx : x = s
  · subst hx
    obtain ⟨h1, h2⟩ := h x
    have hrefs : t.refs x - 1 = holders c w x := by
      rw [h1]
      omega
    rw [hr, hd, hc]
    simp only [State.removeReference, Function.update_self, hrefs]
    refine ⟨trivial, ?_⟩
    split_ifs with hz
    · rw [Function.update_self]
      exact iff_of_true rfl ⟨hcreated, by omega⟩
    · rw [h2]
      constructor <;> rintro ⟨-, hz'⟩ <;> omega
  · rw [hr, hd, hc, hh x hx]
    simp only [State.removeReference, Function.update_of_ne hx]
    have hdel : (if t.refs s - 1 = 0 then Function.update t.deleted s true else t.deleted) x =
        t.deleted x := by
      split_ifs
      · rw [Function.update_of_ne hx]
      · rfl
    rw [hdel]
    exact h x

end Counted

/-! ### The invariant -/

structure RefInv (c : Config) (t : State) : Prop where
  phase : PhaseInv t
  counted : Counted c t
  ptr : ∀ s ∈ t.created, s.ptr < t.created.length
  held : ∀ s, 0 < holders c t s → s ∈ t.created
  waiting : (t.constructed ++ t.mgr.addSessQueue).Nodup
  outside : ∀ s ∈ t.constructed ++ t.mgr.addSessQueue,
    s ∉ t.mgr.sessions ∧ ∀ i < c.sessionThreads, (t.mgr.updater i).holds s = false
  updaters : ∀ i, ((t.mgr.updater i).newSessions ++ (t.mgr.updater i).sessions).Nodup

/-- `AddSession_` overwrites no stored session, `UpdateDynamics` gives updater 0 no session it
has already, and `SetSleep` throws no session away. -/
def KeepsHolders (t : State) : Event → Prop
  | .addNext => ∀ s ∈ t.mgr.addSessQueue.head?, t.mgr.sessions.find? s.accountId = none
  | .spread s => (t.mgr.updater 0).holds s = false
  | .setSleep i => (t.mgr.updater i).newSessions ≠ [] ∨ (t.mgr.updater i).sessions = []
  | _ => True

instance (t : State) (e : Event) : Decidable (KeepsHolders t e) := by
  unfold KeepsHolders
  split
  · cases h : t.mgr.addSessQueue.head? with
    | none => exact isTrue (by simp)
    | some s => exact decidable_of_iff (t.mgr.sessions.find? s.accountId = none) (by simp)
  · infer_instance
  · infer_instance
  · infer_instance

/-! ### `AddSession_` and the updaters -/

theorem leastUpdater_lt (c : Config) (m : SessionMgr) : m.leastUpdater c < c.sessionThreads := by
  have hfold : ∀ (l : List ℕ) (a : ℕ), a < c.sessionThreads → (∀ i ∈ l, i < c.sessionThreads) →
      l.foldl (fun least i => if (m.updater i).counter < (m.updater least).counter then i else least) a
        < c.sessionThreads := by
    intro l
    induction l with
    | nil => exact fun a ha _ => ha
    | cons i l ih =>
      intro a ha hl
      refine ih _ ?_ fun j hj => hl j (List.mem_cons_of_mem _ hj)
      change (if (m.updater i).counter < (m.updater a).counter then i else a) < _
      split_ifs
      · exact hl i (List.mem_cons_self ..)
      · exact ha
  exact hfold _ 0 c.threads_pos fun i hi => List.mem_range.mp hi

theorem chooseUpdater_lt (c : Config) (m : SessionMgr) : m.chooseUpdater c < c.sessionThreads := by
  unfold SessionMgr.chooseUpdater
  split_ifs
  · exact leastUpdater_lt c m
  · exact c.threads_pos
  · exact leastUpdater_lt c m

def SessionUpdater.add (u : SessionUpdater) (s : ClientSession) : SessionUpdater :=
  { u with counter := u.counter + 1, newSessions := u.newSessions ++ [s] }

theorem SessionUpdater.holds_add (u : SessionUpdater) (s x : ClientSession) :
    (u.add s).holds x = (u.holds x || decide (x = s)) := by
  simp only [holds, add, List.mem_append, List.mem_singleton, ← Bool.decide_or]
  congr 1
  apply propext
  tauto

theorem SessionUpdater.nodup_add {u : SessionUpdater} {s : ClientSession}
    (h : (u.newSessions ++ u.sessions).Nodup) (hs : u.holds s = false) :
    ((u.add s).newSessions ++ (u.add s).sessions).Nodup := by
  have hnot : s ∉ u.newSessions ++ u.sessions := by simpa only [holds, decide_eq_false_iff_not] using hs
  have hperm : ((u.newSessions ++ [s]) ++ u.sessions).Perm (s :: (u.newSessions ++ u.sessions)) := by
    rw [List.append_assoc]
    exact List.perm_middle
  exact hperm.nodup_iff.mpr (List.nodup_cons.mpr ⟨hnot, h⟩)

theorem removeQueuedPlayer_others (limit : ℕ) (m : SessionMgr) (s : ClientSession) :
    (m.removeQueuedPlayer limit s).2.updater = m.updater ∧
      (m.removeQueuedPlayer limit s).2.addSessQueue = m.addSessQueue := by
  unfold SessionMgr.removeQueuedPlayer
  simp only []
  split
  · split_ifs <;> exact ⟨rfl, rfl⟩
  · exact ⟨rfl, rfl⟩

theorem addSession_updater (c : Config) (m : SessionMgr) (s : ClientSession) :
    (m.addSession_ c s).addSessQueue = m.addSessQueue ∧ ∃ i < c.sessionThreads,
      (m.addSession_ c s).updater = Function.update m.updater i ((m.updater i).add s) := by
  have hold : (m.removeOld c s).2.updater = m.updater ∧
      (m.removeOld c s).2.addSessQueue = m.addSessQueue := by
    unfold SessionMgr.removeOld
    split
    · exact removeQueuedPlayer_others ..
    · exact ⟨rfl, rfl⟩
  have hlt := chooseUpdater_lt c { (m.removeOld c s).2 with
    sessions := (m.removeOld c s).2.sessions.put s }
  have hstore : ((m.removeOld c s).2.store c s).addSessQueue = m.addSessQueue ∧
      ∃ i < c.sessionThreads, ((m.removeOld c s).2.store c s).updater =
        Function.update m.updater i ((m.updater i).add s) := by
    refine ⟨hold.2, _, hlt, ?_⟩
    rw [← hold.1]
    rfl
  unfold SessionMgr.addSession_
  simp only []
  split_ifs <;> exact hstore

/-! ### One lemma for each change of the holders -/

section Steps
variable {c : Config} {t w : State} {s : ClientSession}

variable {i : ℕ}

theorem RefInv.nodup_update (h : RefInv c t) {u : SessionUpdater} (hu : (u.newSessions ++ u.sessions).Nodup) (j : ℕ) :
    ((Function.update t.mgr.updater i u j).newSessions ++ (Function.update t.mgr.updater i u j).sessions).Nodup := by
  by_cases hji : j = i
  · subst hji
    rwa [Function.update_self]
  · rw [Function.update_of_ne hji]
    exact h.updaters j

theorem holds_update {f : ℕ → SessionUpdater} {u : SessionUpdater} {j : ℕ}
    (hu : (f i).holds s = false → u.holds s = false) (hj : (f j).holds s = false) :
    (Function.update f i u j).holds s = false := by
  by_cases hji : j = i
  · subst hji
    rw [Function.update_self]
    exact hu hj
  · rwa [Function.update_of_ne hji]

theorem holders_add (hi : i < c.sessionThreads)
    (hu : w.mgr.updater = Function.update t.mgr.updater i ((t.mgr.updater i).add s))
    (hs : (t.mgr.updater i).holds s = false) (x : ClientSession) :
    updaterHolders w.mgr.updater c.sessionThreads x =
      updaterHolders t.mgr.updater c.sessionThreads x + if x = s then 1 else 0 := by
  have h := updaterHolders_update t.mgr.updater hi ((t.mgr.updater i).add s) x
  rw [hu]
  rw [SessionUpdater.holds_add] at h
  by_cases hx : x = s
  · subst hx
    simp only [hs, decide_true, Bool.or_true, ite_true, Bool.false_eq_true, ite_false] at h ⊢
    omega
  · simp only [hx, decide_false, Bool.or_false, ite_false] at h ⊢
    omega

theorem RefInv.gain (h : RefInv c t) (hheld : 0 < holders c t s)
    (hr : w.refs = (t.addReference s).refs) (hd : w.deleted = t.deleted)
    (hc : w.created = t.created)
    (hh : ∀ x, holders c w x = holders c t x + if x = s then 1 else 0) :
    Counted c w ∧ ∀ x, 0 < holders c w x → x ∈ w.created := by
  have hother : ∀ x, x ≠ s → holders c w x = holders c t x := fun x hx => by simp [hh, hx]
  refine ⟨h.counted.add hheld hr hd hc (by simp [hh]) hother, fun x hx => ?_⟩
  rw [hc]
  by_cases hxs : x = s
  · exact hxs ▸ h.held s hheld
  · exact h.held x (hother x hxs ▸ hx)

theorem RefInv.loss (h : RefInv c t) (hr : w.refs = (t.removeReference s).refs)
    (hd : w.deleted = (t.removeReference s).deleted) (hc : w.created = t.created)
    (hh : ∀ x, (holders c w x + if x = s then 1 else 0) = holders c t x) :
    Counted c w ∧ ∀ x, 0 < holders c w x → x ∈ w.created := by
  have hs : holders c w s + 1 = holders c t s := by simpa using hh s
  have hcreated := h.held s (by omega)
  have hother : ∀ x, x ≠ s → holders c w x = holders c t x := fun x hx => by
    have := hh x
    simpa [hx] using this
  refine ⟨h.counted.remove hcreated hr hd hc hs hother, fun x hx => ?_⟩
  rw [hc]
  by_cases hxs : x = s
  · exact hxs ▸ hcreated
  · exact h.held x (hother x hxs ▸ hx)

theorem RefInv.keep (h : RefInv c t) (hr : w.refs = t.refs) (hd : w.deleted = t.deleted)
    (hc : w.created = t.created) (hh : ∀ x, holders c w x = holders c t x) :
    Counted c w ∧ ∀ x, 0 < holders c w x → x ∈ w.created :=
  ⟨h.counted.same hr hd hc hh, fun x hx => hc ▸ h.held x (hh x ▸ hx)⟩

theorem count_erase_add (l : List ClientSession) (x : ClientSession) (hs : s ∈ l) :
    ((l.erase s).count x + if x = s then 1 else 0) = l.count x := by
  by_cases hx : x = s
  · subst hx
    have hpos := List.count_pos_iff.mpr hs
    simp only [List.count_erase_self, ite_true]
    omega
  · simp only [List.count_erase_of_ne hx, hx, ite_false, Nat.add_zero]

theorem count_cons_eq (l : List ClientSession) (x : ClientSession) :
    (s :: l).count x = l.count x + if x = s then 1 else 0 := by
  simp only [List.count_cons, beq_iff_eq, eq_comm (a := s)]

theorem RefInv.not_created (h : RefInv c t) (accountId : Fin (2^32)) (security : ℕ) :
    (⟨t.created.length, accountId, security⟩ : ClientSession) ∉ t.created := fun hmem =>
  Nat.lt_irrefl _ (h.ptr _ hmem)

theorem RefInv.login (h : RefInv c t) {accountId : Fin (2^32)} {security : ℕ}
    (hs : step c t (.login accountId security) = some w) : RefInv c w := by
  obtain rfl := Option.some.inj hs
  have hnew := h.not_created accountId security
  generalize hx : (⟨t.created.length, accountId, security⟩ : ClientSession) = s at *
  have hzero : holders c t s = 0 := by
    by_contra hpos
    exact hnew (h.held s (Nat.pos_of_ne_zero hpos))
  have hholders : ∀ x, holders c { t with
      created := s :: t.created, constructed := s :: t.constructed
      refs := Function.update t.refs s 1 } x = holders c t x + if x = s then 1 else 0 := by
    intro x
    simp only [holders, List.count_cons, beq_iff_eq, eq_comm (a := s)]
    omega
  have hwait : s ∉ t.constructed ++ t.mgr.addSessQueue := by
    intro hmem
    rw [List.mem_append, ← List.count_pos_iff, ← List.count_pos_iff] at hmem
    unfold holders at hzero
    omega
  have hparts : t.mgr.sessions.rows.count s = 0 ∧
      updaterHolders t.mgr.updater c.sessionThreads s = 0 := by
    unfold holders at hzero
    omega
  refine ⟨h.phase, fun x => ?_, fun x hx' => ?_, fun x hpos => ?_, ?_, fun x hx' => ?_, h.updaters⟩
  · rw [hholders]
    by_cases hxs : x = s
    · subst hxs
      have hdel : t.deleted x = false := by
        by_contra hd
        exact hnew ((h.counted x).2.mp (by simpa using hd)).1
      simp [hzero, hdel]
    · obtain ⟨h1, h2⟩ := h.counted x
      simp only [hxs, ite_false, Nat.add_zero, Function.update_of_ne hxs, List.mem_cons, false_or]
      exact ⟨h1, h2⟩
  · simp only [List.length_cons]
    rcases List.mem_cons.mp hx' with rfl | hx'
    · rw [← hx]
      exact Nat.lt_succ_self _
    · exact Nat.lt_succ_of_lt (h.ptr x hx')
  · rw [hholders] at hpos
    by_cases hxs : x = s
    · exact hxs ▸ List.mem_cons_self ..
    · simp only [hxs, ite_false, Nat.add_zero] at hpos
      exact List.mem_cons_of_mem _ (h.held x hpos)
  · exact List.nodup_cons.mpr ⟨hwait, h.waiting⟩
  · rcases List.mem_cons.mp hx' with rfl | hx'
    · exact ⟨fun hmem => List.count_eq_zero.mp hparts.1 hmem,
        updaterHolders_eq_zero.mp hparts.2⟩
    · exact h.outside x hx'

theorem RefInv.addSession (h : RefInv c t) (hs : step c t (.addSession s) = some w) :
    RefInv c w := by
  have hphase := h.phase.step (step_tables hs)
  simp only [step] at hs
  split_ifs at hs with hmem
  have ht := (Option.some.inj hs).symm
  have hheld : 0 < holders c t s := by
    have hpos := List.count_pos_iff.mpr hmem
    unfold holders
    omega
  have hkey : ∀ x, holders c w x = holders c t x + if x = s then 1 else 0 := by
    intro x
    have herase := count_erase_add t.constructed x hmem
    have hcons := count_cons_eq (s := s) t.added x
    have hqueue : (t.mgr.addSessQueue ++ [s]).count x =
        t.mgr.addSessQueue.count x + if x = s then 1 else 0 := by
      rw [List.count_append, count_cons_eq, List.count_nil, Nat.zero_add]
    simp only [ht, holders, State.addReference, hcons, hqueue]
    omega
  have hperm : (t.constructed.erase s ++ (t.mgr.addSessQueue ++ [s])).Perm
      (t.constructed ++ t.mgr.addSessQueue) := by
    have h1 : (t.constructed.erase s ++ (t.mgr.addSessQueue ++ [s])).Perm
        (s :: (t.constructed.erase s ++ t.mgr.addSessQueue)) := by
      rw [← List.append_assoc]
      exact List.perm_append_singleton ..
    exact h1.trans ((List.perm_cons_erase hmem).symm.append_right _)
  obtain ⟨hcounted, hheld'⟩ :=
    h.gain (w := w) hheld (by rw [ht]) (by rw [ht]; rfl) (by rw [ht]; rfl) hkey
  subst ht
  exact ⟨hphase, hcounted, h.ptr, hheld', hperm.nodup_iff.mpr h.waiting,
    fun x hx => h.outside x (hperm.subset hx), h.updaters⟩

theorem RefInv.release (h : RefInv c t) (hs : step c t (.release s) = some w) :
    RefInv c w := by
  have hphase := h.phase.step (step_tables hs)
  simp only [step] at hs
  split_ifs at hs with hmem
  have ht := (Option.some.inj hs).symm
  have hkey : ∀ x, (holders c w x + if x = s then 1 else 0) = holders c t x := by
    intro x
    have herase := count_erase_add t.added x hmem
    simp only [ht, holders, State.removeReference]
    omega
  obtain ⟨hcounted, hheld⟩ := h.loss (w := w) (by rw [ht]) (by rw [ht]) (by rw [ht]; rfl) hkey
  subst ht
  exact ⟨hphase, hcounted, h.ptr, hheld, h.waiting, h.outside, h.updaters⟩

theorem count_put (l : KeyedList ClientSession.accountId) (x : ClientSession)
    (hnone : l.find? s.accountId = none) :
    (l.put s).rows.count x = l.rows.count x + if x = s then 1 else 0 := by
  have hrows : (l.put s).rows = l.rows ++ [s] := by
    change (l.erase s.accountId).rows ++ [s] = l.rows ++ [s]
    rw [l.erase_of_not_mem ((KeyedList.find?_eq_none_iff _ _).mp hnone)]
  rw [hrows, List.count_append, count_cons_eq, List.count_nil, Nat.zero_add]

theorem RefInv.addNext (h : RefInv c t) (hok : KeepsHolders t .addNext)
    (hs : step c t .addNext = some w) : RefInv c w := by
  have hphase := h.phase.step (step_tables hs)
  simp only [step, Client.addNext] at hs
  split at hs
  · rename_i s queue _ hqueue
    have ht := (Option.some.inj hs).symm
    have hnone : t.mgr.sessions.find? s.accountId = none := hok s (by rw [hqueue]; rfl)
    have hwait := h.waiting
    rw [hqueue] at hwait
    have hmem : s ∈ t.constructed ++ t.mgr.addSessQueue := by
      rw [hqueue]
      exact List.mem_append_right _ (List.mem_cons_self ..)
    obtain ⟨hnot, hfree⟩ := h.outside s hmem
    obtain ⟨haddq, i, hi, hupd⟩ := addSession_updater c { t.mgr with addSessQueue := queue } s
    have hsess := addSession_sessions c { t.mgr with addSessQueue := queue } s
    generalize hm : SessionMgr.addSession_ c { t.mgr with addSessQueue := queue } s = m at *
    have hmgr : w.mgr = m := by rw [ht, ← hm]; rfl
    have hadd := holders_add (w := w) hi (by rw [hmgr, hupd]) (hfree i hi)
    have hheld : 0 < holders c t s := by
      have hpos : 0 < t.mgr.addSessQueue.count s :=
        List.count_pos_iff.mpr (by rw [hqueue]; exact List.mem_cons_self ..)
      unfold holders
      omega
    have hkey : ∀ x, holders c w x = holders c t x + if x = s then 1 else 0 := by
      intro x
      have hq : t.mgr.addSessQueue.count x = queue.count x + if x = s then 1 else 0 := by
        rw [hqueue, count_cons_eq]
      have hput := count_put t.mgr.sessions x hnone
      have hcon : w.constructed = t.constructed ∧ w.added = t.added := by
        rw [ht]
        exact ⟨rfl, rfl⟩
      have hx := hadd x
      rw [hmgr] at hx
      simp only [holders, hcon, hmgr, haddq, hsess, hput, hq, hx]
      omega
    obtain ⟨hcounted, hheld'⟩ :=
      h.gain (w := w) hheld (by rw [ht]) (by rw [ht]; rfl) (by rw [ht]; rfl) hkey
    have hwaiting : w.constructed ++ w.mgr.addSessQueue = t.constructed ++ queue := by
      rw [hmgr, haddq, ht]
      rfl
    have hsub : (t.constructed ++ queue).Sublist (t.constructed ++ s :: queue) :=
      (List.sublist_cons_self s queue).append_left _
    refine ⟨hphase, hcounted, by rw [ht]; exact h.ptr, hheld', ?_, fun x hx => ?_, fun j => ?_⟩
    · rw [hwaiting]
      exact hsub.nodup hwait
    · rw [hwaiting] at hx
      have hxs : x ≠ s := by
        rintro rfl
        rw [List.nodup_middle] at hwait
        exact (List.nodup_cons.mp hwait).1 hx
      obtain ⟨hxnot, hxfree⟩ := h.outside x (by rw [hqueue]; exact hsub.subset hx)
      rw [hmgr, hsess, KeyedList.mem_put, hupd]
      refine ⟨?_, fun j hj => ?_⟩
      · rintro (rfl | ⟨hmem', -⟩)
        · exact hxs rfl
        · exact hxnot hmem'
      · exact holds_update (fun hfree' => by simp [SessionUpdater.holds_add, hxs, hfree']) (hxfree j hj)
    · rw [hmgr, hupd]
      exact h.nodup_update (SessionUpdater.nodup_add (h.updaters i) (hfree i hi)) j
  · cases hs

theorem count_erase_key (l : KeyedList ClientSession.accountId) (x : ClientSession) (hs : s ∈ l) :
    ((l.erase s.accountId).rows.count x + if x = s then 1 else 0) = l.rows.count x := by
  by_cases hx : x = s
  · subst hx
    have hnot : x ∉ l.erase x.accountId := fun h => ((KeyedList.mem_erase ..).mp h).2 rfl
    rw [List.count_eq_zero.mpr hnot, List.count_eq_one_of_mem l.nodup hs, if_pos rfl]
  · have hne : x ∈ l → x.accountId ≠ s.accountId := fun h heq => hx (l.eq_of_key_eq h hs heq)
    simp only [hx, ite_false, Nat.add_zero]
    by_cases hmem : x ∈ l
    · have hmem' : x ∈ l.erase s.accountId := (KeyedList.mem_erase ..).mpr ⟨hmem, hne hmem⟩
      rw [List.count_eq_one_of_mem l.nodup hmem,
        List.count_eq_one_of_mem (l.erase s.accountId).nodup hmem']
    · have hmem' : x ∉ l.erase s.accountId := fun h => hmem ((KeyedList.mem_erase ..).mp h).1
      rw [List.count_eq_zero.mpr hmem', List.count_eq_zero.mpr hmem]

theorem RefInv.updateSingle (h : RefInv c t) {alive : Bool}
    (hs : step c t (.updateSingle s alive) = some w) : RefInv c w := by
  have hphase := h.phase.step (step_tables hs)
  simp only [step, Client.updateSingle] at hs
  split at hs
  · rename_i rest hrest
    split_ifs at hs with hmem halive
    · obtain rfl := Option.some.inj hs
      exact ⟨hphase, h.counted, h.ptr, h.held, h.waiting, h.outside, h.updaters⟩
    · have ht := (Option.some.inj hs).symm
      have hstored : s ∈ t.mgr.sessions := h.phase.2 s (by rw [hrest]; exact hmem)
      have hkey : ∀ x, (holders c w x + if x = s then 1 else 0) = holders c t x := by
        intro x
        have herase := count_erase_key t.mgr.sessions x hstored
        simp only [ht, holders, State.removeReference]
        omega
      obtain ⟨hcounted, hheld⟩ :=
        h.loss (w := w) (by rw [ht]; rfl) (by rw [ht]; rfl) (by rw [ht]; rfl) hkey
      subst ht
      refine ⟨hphase, hcounted, h.ptr, hheld, h.waiting, fun x hx => ?_, h.updaters⟩
      obtain ⟨hnot, hfree⟩ := h.outside x hx
      exact ⟨fun hmem' => hnot ((KeyedList.mem_erase ..).mp hmem').1, hfree⟩
  · cases hs

theorem RefInv.spread (h : RefInv c t) (hok : KeepsHolders t (.spread s))
    (hs : step c t (.spread s) = some w) : RefInv c w := by
  have hphase := h.phase.step (step_tables hs)
  simp only [step, Client.spread] at hs
  split at hs
  · rename_i rest hrest
    split_ifs at hs with hmem
    have ht := (Option.some.inj hs).symm
    have hstored : s ∈ t.mgr.sessions := h.phase.2 s (by rw [hrest]; exact hmem)
    have hupd : w.mgr.updater =
        Function.update t.mgr.updater 0 ((t.mgr.updater 0).add s) := by rw [ht]; rfl
    have hadd := holders_add (w := w) c.threads_pos hupd hok
    have hheld : 0 < holders c t s := by
      have hpos : 0 < t.mgr.sessions.rows.count s := List.count_pos_iff.mpr hstored
      unfold holders
      omega
    have hkey : ∀ x, holders c w x = holders c t x + if x = s then 1 else 0 := by
      intro x
      have hx := hadd x
      rw [ht] at hx
      simp only [ht, holders, hx]
      simp only [State.addReference, SessionMgr.updaterAdd]
      omega
    obtain ⟨hcounted, hheld'⟩ :=
      h.gain (w := w) hheld (by rw [ht]) (by rw [ht]; rfl) (by rw [ht]; rfl) hkey
    subst ht
    refine ⟨hphase, hcounted, h.ptr, hheld', h.waiting, fun x hx => ?_, fun j => ?_⟩
    · obtain ⟨hnot, hfree⟩ := h.outside x hx
      have hxs : x ≠ s := by
        rintro rfl
        exact hnot hstored
      refine ⟨hnot, fun j hj => ?_⟩
      rw [hupd]
      exact holds_update (fun hfree' => by simp [SessionUpdater.holds_add, hxs, hfree']) (hfree j hj)
    · rw [hupd]
      exact h.nodup_update (SessionUpdater.nodup_add (h.updaters 0) hok) j
  · cases hs

theorem RefInv.setUpdater (h : RefInv c t) (hi : i < c.sessionThreads)
    {u : SessionUpdater} (hu : ∀ x, u.holds x = (t.mgr.updater i).holds x)
    (hnd : (u.newSessions ++ u.sessions).Nodup) : RefInv c (t.setUpdater i u) := by
  have hholders : ∀ x, holders c (t.setUpdater i u) x = holders c t x := fun x => by
    simp only [holders, State.setUpdater, updaterHolders_same t.mgr.updater hi u x (hu x)]
  obtain ⟨hcounted, hheld⟩ := h.keep (w := t.setUpdater i u) rfl rfl rfl hholders
  refine ⟨h.phase, hcounted, h.ptr, hheld, h.waiting, fun x hx => ?_, fun j => ?_⟩
  · obtain ⟨hnot, hfree⟩ := h.outside x hx
    refine ⟨hnot, fun j hj => ?_⟩
    exact holds_update (hu x).trans (hfree j hj)
  · exact h.nodup_update hnd j

theorem RefInv.setSleep (h : RefInv c t) (hok : KeepsHolders t (.setSleep i))
    (hs : step c t (.setSleep i) = some w) : RefInv c w := by
  simp only [step, Client.setSleep] at hs
  split_ifs at hs with hi hsleep hnew
  · obtain rfl := Option.some.inj hs
    exact h.setUpdater hi (fun x => rfl) (h.updaters i)
  · obtain rfl := Option.some.inj hs
    have hnil : (t.mgr.updater i).newSessions = [] := by simpa using hnew
    have hset : (t.mgr.updater i).sessions = [] := hok.resolve_left fun hne => hne hnil
    refine h.setUpdater hi (fun x => ?_) List.nodup_nil
    simp [SessionUpdater.holds, hnil, hset]

theorem RefInv.addNewSession (h : RefInv c t) (hs : step c t (.addNewSession i) = some w) : RefInv c w := by
  simp only [step, Client.addNewSession] at hs
  split_ifs at hs with hi
  split at hs
  · rename_i s queue hqueue
    obtain rfl := Option.some.inj hs
    have hnd := h.updaters i
    rw [hqueue] at hnd
    have hnot : s ∉ (t.mgr.updater i).sessions := fun hmem =>
      (List.nodup_cons.mp hnd).1 (List.mem_append_right _ hmem)
    have hinsert : (t.mgr.updater i).sessions.insert s = s :: (t.mgr.updater i).sessions :=
      List.insert_of_not_mem hnot
    refine h.setUpdater hi (fun x => ?_) ?_
    · simp only [SessionUpdater.holds, hinsert, hqueue, List.mem_append, List.mem_cons]
      congr 1
      apply propext
      tauto
    · simp only [hinsert]
      exact List.nodup_middle.mpr hnd
  · cases hs

theorem RefInv.updateMulti (h : RefInv c t) {alive : Bool}
    (hs : step c t (.updateMulti i s alive) = some w) : RefInv c w := by
  simp only [step, Client.updateMulti] at hs
  split_ifs at hs with hi hmem halive
  · obtain rfl := Option.some.inj hs
    exact h
  · have ht := (Option.some.inj hs).symm
    have hnd := h.updaters i
    have hholds : (t.mgr.updater i).holds s = true := by
      simp [SessionUpdater.holds, hmem]
    have herase : ∀ x, (SessionUpdater.holds
        { t.mgr.updater i with
          counter := (t.mgr.updater i).counter - 1
          sessions := (t.mgr.updater i).sessions.erase s } x) =
        ((t.mgr.updater i).holds x && decide (x ≠ s)) := by
      intro x
      have hiff : x ∈ (t.mgr.updater i).sessions.erase s ↔
          x ∈ (t.mgr.updater i).sessions ∧ x ≠ s := by
        rw [(List.nodup_append.mp hnd).2.1.mem_erase_iff]
        exact and_comm
      have hnew : x ∈ (t.mgr.updater i).newSessions → x ≠ s := fun hx =>
        (List.nodup_append.mp hnd).2.2 x hx s hmem
      simp only [SessionUpdater.holds, List.mem_append, hiff, ← Bool.decide_and]
      congr 1
      apply propext
      tauto
    have hupd : w.mgr.updater = Function.update t.mgr.updater i
        { t.mgr.updater i with
          counter := (t.mgr.updater i).counter - 1
          sessions := (t.mgr.updater i).sessions.erase s } := by rw [ht]; rfl
    have hkey : ∀ x, (holders c w x + if x = s then 1 else 0) = holders c t x := by
      intro x
      have hx := updaterHolders_update t.mgr.updater hi
        { t.mgr.updater i with
          counter := (t.mgr.updater i).counter - 1
          sessions := (t.mgr.updater i).sessions.erase s } x
      rw [herase] at hx
      have hsum : (updaterHolders w.mgr.updater c.sessionThreads x + if x = s then 1 else 0) =
          updaterHolders t.mgr.updater c.sessionThreads x := by
        rw [hupd]
        by_cases hxs : x = s
        · subst hxs
          simp only [hholds, ne_eq, not_true_eq_false, decide_false, Bool.and_false, ite_true,
            Bool.false_eq_true, ite_false] at hx ⊢
          omega
        · simp only [hxs, ne_eq, not_false_eq_true, decide_true, Bool.and_true, ite_false] at hx ⊢
          omega
      simp only [holders, ← hsum]
      rw [ht]
      simp only [State.setUpdater, State.removeReference]
      omega
    obtain ⟨hcounted, hheld⟩ := h.loss (w := w) (by rw [ht]; rfl) (by rw [ht]; rfl)
      (by rw [ht]; rfl) hkey
    subst ht
    refine ⟨h.phase, hcounted, h.ptr, hheld, h.waiting, fun x hx => ?_, fun j => ?_⟩
    · obtain ⟨hnot, hfree⟩ := h.outside x hx
      refine ⟨hnot, fun j hj => ?_⟩
      rw [hupd]
      exact holds_update (fun hfree' => by rw [herase, hfree', Bool.false_and]) (hfree j hj)
    · rw [hupd]
      exact h.nodup_update ((List.erase_sublist.append_left _).nodup hnd) j

theorem spreadNeeded_mgr (c : Config) (m : SessionMgr) (diff : ℕ) :
    ∃ dynTimer, (spreadNeeded c m diff).2 = { m with dynTimer } := by
  unfold spreadNeeded
  simp only []
  split_ifs
  · exact ⟨m.dynTimer, rfl⟩
  · exact ⟨_, rfl⟩
  · exact ⟨_, rfl⟩
  · exact ⟨_, rfl⟩
  · exact ⟨_, rfl⟩

theorem RefInv.updateDynamics (h : RefInv c t) {diff : ℕ}
    (hs : step c t (.updateDynamics diff) = some w) : RefInv c w := by
  have hphase := h.phase.step (step_tables hs)
  obtain ⟨dynTimer, hmgr⟩ := spreadNeeded_mgr c t.mgr diff
  simp only [step, Client.updateDynamics] at hs
  split at hs
  · rw [hmgr] at hs
    split_ifs at hs
    · obtain rfl := Option.some.inj hs
      exact ⟨hphase, h.counted, h.ptr, h.held, h.waiting, h.outside, h.updaters⟩
    · obtain rfl := Option.some.inj hs
      exact ⟨hphase, h.counted, h.ptr, h.held, h.waiting, h.outside, h.updaters⟩
    · obtain rfl := Option.some.inj hs
      exact ⟨hphase, h.counted, h.ptr, h.held, h.waiting, h.outside, h.updaters⟩
  · cases hs

theorem RefInv.step {e : Event} (h : RefInv c t) (hok : KeepsHolders t e)
    (hs : step c t e = some w) : RefInv c w := by
  have hphase := h.phase.step (step_tables hs)
  cases e with
  | login accountId security => exact h.login hs
  | addSession s => exact h.addSession hs
  | release s => exact h.release hs
  | addNext => exact h.addNext hok hs
  | updateSingle s alive => exact h.updateSingle hs
  | updateDynamics diff => exact h.updateDynamics hs
  | spread s => exact h.spread hok hs
  | setSleep i => exact h.setSleep hok hs
  | addNewSession i => exact h.addNewSession hs
  | updateMulti i s alive => exact h.updateMulti hs
  | update | addDone | spreadDone =>
    simp only [Client.step] at hs
    split_ifs at hs
    obtain rfl := Option.some.inj hs
    exact ⟨hphase, h.counted, h.ptr, h.held, h.waiting, h.outside, h.updaters⟩

end Steps

theorem initial_refInv (c : Config) : ∀ t, Starts c t → RefInv c t := by
  rintro t rfl
  have hzero : ∀ s, holders c (initial c) s = 0 := fun s => by
    have hu : updaterHolders (initial c).mgr.updater c.sessionThreads s = 0 :=
      updaterHolders_eq_zero.mpr fun _ _ => rfl
    unfold holders
    rw [hu]
    rfl
  refine ⟨(initial_queueInv c _ rfl).phase, fun s => ?_, fun s hs => ?_, fun s hs => ?_,
    List.nodup_nil, fun s hs => ?_, fun _ => List.nodup_nil⟩
  · rw [hzero]
    exact ⟨rfl, iff_of_false (by simp [initial]) (by simp [initial])⟩
  · cases hs
  · rw [hzero] at hs
    cases hs
  · cases hs

/-- In a run whose steps overwrite, double and throw away no holder, the count of every
session is the number of its holders, and a session is deleted exactly when it has none. -/
theorem references_match_holders {c : Config} {t : State}
    (h : Reaches (step c) KeepsHolders (Starts c) t) (s : ClientSession) (hs : s ∈ t.created) :
    t.refs s = holders c t s ∧ (t.deleted s = true ↔ holders c t s = 0) := by
  have hinv : RefInv c t := h.invariant (initial_refInv c) fun _ _ _ hi => hi.step
  obtain ⟨hr, hd⟩ := hinv.counted s
  exact ⟨hr, hd.trans (and_iff_right hs)⟩

theorem references_match_holders_oneSlot :
    ∃ t, Reaches (step oneSlot) KeepsHolders (Starts oneSlot) t ∧ first ∈ t.created ∧
      t.refs first = holders oneSlot t first ∧ t.deleted first = true := by
  obtain ⟨t, ht, h⟩ := Reaches.exists_of_replay (step oneSlot) KeepsHolders
    (initial_starts oneSlot)
    (loginUpdate 0 1 [] ++ [.addNewSession 0, .updateSingle first false, .updateDynamics 0,
      .updateMulti 0 first false])
    (by decide) (fun t => decide (first ∈ t.created ∧ holders oneSlot t first = 0)) (by decide)
  obtain ⟨hmem, hzero⟩ := of_decide_eq_true h
  obtain ⟨hr, hd⟩ := references_match_holders ht first hmem
  exact ⟨t, ht, hmem, hr, hd.mpr hzero⟩

/-- The account logs in again: the old session loses its entry in the map and keeps the
reference of that entry, for ever. -/
theorem reference_kept_by_overwritten_entry :
    ∃ t, Reaches (step oneSlot) anyStep (Starts oneSlot) t ∧ first ∈ t.created ∧
      t.deleted first = false ∧ holders oneSlot t first = 0 ∧ t.refs first = 1 := by
  obtain ⟨t, ht, h⟩ := Reaches.exists_of_replay (step oneSlot) anyStep (initial_starts oneSlot)
    (loginUpdate 0 1 [first] ++ [.addNewSession 0, .updateDynamics 0] ++
      loginUpdate 1 1 [] ++ [.updateMulti 0 first false])
    (replayOk_anyStep ..)
    (fun t => decide (first ∈ t.created ∧ t.deleted first = false ∧
      holders oneSlot t first = 0 ∧ t.refs first = 1)) (by decide)
  exact ⟨t, ht, of_decide_eq_true h⟩

end HysteriaCore.Client
