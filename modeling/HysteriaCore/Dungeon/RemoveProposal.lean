import HysteriaCore.Dungeon.Manager

/-!
# A proposal fails

`RemoveProposal` takes the entries of those who did not accept out of the queue and puts the others
back to its front.
-/

namespace HysteriaCore.Dungeon
open Lib

inductive LfgUpdateType where
  | proposalFailed
  | proposalDeclined
  deriving DecidableEq, Repr

def queueGuid (x : ℕ × LfgProposalPlayer) : ℕ := if x.2.group ≠ 0 then x.2.group else x.1

namespace StoredProposal

def markPending (p : StoredProposal) (type : LfgUpdateType) : StoredProposal :=
  if type = .proposalFailed then
    { p with
      answer := fun guid =>
        if guid ∈ p.players.map Prod.fst ∧ p.answer guid = .pending then .deny else p.answer guid }
  else p

def refuses (p : StoredProposal) (type : LfgUpdateType) (guid : ℕ) : Bool :=
  p.answer guid ≠ .agree ∧ (p.answer guid = .deny ∨ type = .proposalFailed)

def toRemove (p : StoredProposal) (type : LfgUpdateType) : Finset ℕ :=
  ((p.players.filter fun x => p.refuses type x.1).map queueGuid).toFinset

end StoredProposal

namespace LFGMgr

variable (isGroupGuid : ℕ → Bool)

def notify (toRemove : Finset ℕ) (m : LFGMgr) (x : ℕ × LfgProposalPlayer) : LFGMgr :=
  let guid := x.1
  let gguid := queueGuid x
  if gguid ∈ toRemove then
    let m := m.restoreState isGroupGuid guid
    if gguid ≠ guid then m.restoreState isGroupGuid x.2.group else m
  else
    let m := m.setState isGroupGuid guid .queued
    if gguid ≠ guid then m.setState isGroupGuid gguid .queued else m

def removeEntry (s : LFGQueue × Lfg5Guids) (guid : ℕ) : LFGQueue × Lfg5Guids :=
  (s.1.removeFromQueue guid false, s.2.remove guid)

/-- `RemoveProposal`; there is nothing to remove without an iterator, and the queue is that of the
first player. -/
def removeProposal (m : LFGMgr) (id : ℕ) (type : LfgUpdateType) : Option LFGMgr := do
  let proposal ← m.proposalsStore id
  let first ← proposal.players.head?
  let proposal := proposal.markPending type
  let toRemove := proposal.toRemove type
  let m := proposal.players.foldl (notify isGroupGuid toRemove) m
  let queueId := m.getQueue isGroupGuid first.1
  let removed := (toRemove.sort (· ≤ ·)).foldl removeEntry (m.queuesStore queueId, proposal.queues)
  let queue := removed.2.guids.foldl (fun q guid => q.addToQueue guid true) removed.1
  return { m with
    queuesStore := Function.update m.queuesStore queueId queue
    proposalsStore := Function.update m.proposalsStore id none }

end LFGMgr

/-! ### The queue behind one removal -/

variable {guid : ℕ}

namespace LFGQueue

def withoutBest (removed : List ℕ) (d : LfgQueueData) : LfgQueueData :=
  if removed.any d.bestCompatible.hasGuid then clearBest d else d

theorem find?_removeFromQueue (q : LFGQueue) (guid g : ℕ) :
    (q.removeFromQueue guid false).queueDataStore.find? g =
      if g = guid then none else (q.queueDataStore.find? g).map (forgetBest guid) := by
  rw [← q.queueDataStore.find?_mapRows g (forgetBest guid) (forgetBest_guid guid)]
  exact KeyedList.find?_erase _ guid g

theorem hasGuid_clear (e : Lfg5Guids) (g : ℕ) : e.clear.hasGuid g = false := by
  rw [Lfg5Guids.hasGuid, decide_eq_false_iff_not]
  rintro ⟨hg, h⟩
  exact hg (by simpa [Lfg5Guids.clear, eq_comm] using h)

structure Removed (gs : List ℕ) (q q' : LFGQueue) : Prop where
  data : ∀ g, q'.queueDataStore.find? g =
    if g ∈ gs then none
    else (q.queueDataStore.find? g).map fun d => gs.foldl (fun d guid => forgetBest guid d) d
  newToQueue : q'.newToQueueStore = q.newToQueueStore.filter (· ∉ gs)
  restored : q'.restoredAfterProposal = q.restoredAfterProposal.filter (· ∉ gs)
  compatibles : (∀ e ∈ q.compatibleList, ∀ g ∈ gs, e.hasGuid g = false) →
    q'.compatibleList = q.compatibleList

theorem Removed.refl (q : LFGQueue) : Removed [] q q where
  data := fun g => by simp
  newToQueue := by simp
  restored := by simp
  compatibles := fun _ => rfl

variable {gs : List ℕ}

theorem Removed.step {q q' : LFGQueue}
    (h : Removed gs (q.removeFromQueue guid false) q') : Removed (guid :: gs) q q' where
  data := by
    intro g
    rw [h.data, find?_removeFromQueue]
    by_cases hg : g ∈ gs
    · rw [if_pos hg, if_pos (List.mem_cons_of_mem guid hg)]
    · by_cases heq : g = guid
      · rw [if_neg hg, if_pos heq, heq, if_pos List.mem_cons_self, Option.map_none]
      · rw [if_neg hg, if_neg heq, if_neg (by simp [hg, heq]), Option.map_map]
        rfl
  newToQueue := by
    rw [h.newToQueue]
    show List.filter _ (List.filter _ _) = _
    rw [List.filter_filter]
    exact List.filter_congr fun g _ => by simp [Bool.and_comm]
  restored := by
    rw [h.restored]
    show List.filter _ (List.filter _ _) = _
    rw [List.filter_filter]
    exact List.filter_congr fun g _ => by simp [Bool.and_comm]
  compatibles := by
    intro hfree
    have hsame : (q.removeFromQueue guid false).compatibleList = q.compatibleList := by
      show List.map _ _ = _
      refine (List.map_congr_left fun e he => ?_).trans (List.map_id _)
      rw [hfree e he guid List.mem_cons_self]
      rfl
    rw [h.compatibles, hsame]
    rw [hsame]
    exact fun e he g hg => hfree e he g (List.mem_cons_of_mem guid hg)

theorem removed_foldl (gs : List ℕ) (q : LFGQueue) (e : Lfg5Guids) :
    Removed gs q (gs.foldl LFGMgr.removeEntry (q, e)).1 := by
  induction gs generalizing q e with
  | nil => exact .refl q
  | cons guid gs ih => exact .step (ih _ _)

theorem withoutBest_cons {d : LfgQueueData} (h : d.guid ≠ guid) :
    withoutBest gs (forgetBest guid d) = withoutBest (guid :: gs) d := by
  rw [withoutBest, withoutBest, List.any_cons]
  by_cases hbest : d.bestCompatible.hasGuid guid = true
  · have hforget : forgetBest guid d = clearBest d := if_pos ⟨h, hbest⟩
    have hgone : gs.any (clearBest d).bestCompatible.hasGuid = false := by
      rw [List.any_eq_false]
      intro g _
      rw [clearBest, hasGuid_clear]
      exact Bool.false_ne_true
    rw [hforget, hgone, hbest]
    rfl
  · have hforget : forgetBest guid d = d := if_neg fun hboth => hbest hboth.2
    rw [hforget, Bool.not_eq_true _ |>.mp hbest, Bool.false_or]

theorem forgetBest_foldl {d : LfgQueueData} (h : d.guid ∉ gs) :
    gs.foldl (fun d guid => forgetBest guid d) d = withoutBest gs d := by
  induction gs generalizing d with
  | nil => rfl
  | cons guid gs ih =>
    rw [List.mem_cons, not_or] at h
    rw [List.foldl_cons, ih (by rw [forgetBest_guid]; exact h.2)]
    exact withoutBest_cons h.1

theorem withoutBest_congr {gs gs' : List ℕ} (h : ∀ g, g ∈ gs ↔ g ∈ gs') (d : LfgQueueData) :
    withoutBest gs d = withoutBest gs' d := by
  have hany : gs.any d.bestCompatible.hasGuid = gs'.any d.bestCompatible.hasGuid := by
    rw [Bool.eq_iff_iff, List.any_eq_true, List.any_eq_true]
    simp only [h]
  rw [withoutBest, withoutBest, hany]

theorem readd_foldl (l : List ℕ) (q : LFGQueue) (h : ∀ g ∈ l, (q.queueDataStore.find? g).isSome) :
    l.foldl (fun q guid => q.addToQueue guid true) q =
      { q with
        newToQueueStore := l.reverse ++ q.newToQueueStore
        restoredAfterProposal := q.restoredAfterProposal ++ l } := by
  induction l generalizing q with
  | nil => simp
  | cons g l ih =>
    obtain ⟨d, hd⟩ := Option.isSome_iff_exists.mp (h g List.mem_cons_self)
    have hadd : q.addToQueue g true = q.addToNewQueue g true := by rw [addToQueue, hd]
    rw [List.foldl_cons, hadd, ih]
    · simp [addToNewQueue]
    · exact fun g' hg' => h g' (List.mem_cons_of_mem g hg')

end LFGQueue

theorem entries_foldl (gs l : List ℕ) (q : LFGQueue) (e : Lfg5Guids) (hgs : 0 ∉ gs) (h : e.Holds l) :
    (gs.foldl LFGMgr.removeEntry (q, e)).2.Holds (l.diff gs) := by
  induction gs generalizing q e l with
  | nil => exact h
  | cons guid gs ih =>
    rw [List.mem_cons, not_or] at hgs
    rw [List.diff_cons]
    exact ih _ _ _ hgs.2 (h.remove (Ne.symm hgs.1))

/-! ### The players behind the notification -/

namespace LFGMgr

variable {isGroupGuid : ℕ → Bool}

def Proper (isGroupGuid : ℕ → Bool) (x : ℕ × LfgProposalPlayer) : Prop :=
  isGroupGuid x.1 = false ∧ (x.2.group ≠ 0 → isGroupGuid x.2.group = true)

def after (toRemove : Finset ℕ) (x : ℕ × LfgProposalPlayer) (d : LfgPlayerData) : LfgPlayerData :=
  if queueGuid x ∈ toRemove then d.restoreState else d.setState .queued

structure Notified (m m' : LFGMgr) : Prop where
  queues : m'.queuesStore = m.queuesStore
  proposals : m'.proposalsStore = m.proposalsStore
  team : ∀ guid, m'.getTeam guid = m.getTeam guid

theorem Notified.trans {m m' m'' : LFGMgr} (h : Notified m m') (h' : Notified m' m'') :
    Notified m m'' :=
  ⟨h'.queues.trans h.queues, h'.proposals.trans h.proposals, fun g => (h'.team g).trans (h.team g)⟩

theorem Notified.of_teamId {m m' : LFGMgr} (hqueues : m'.queuesStore = m.queuesStore)
    (hproposals : m'.proposalsStore = m.proposalsStore) {d : LfgPlayerData}
    (hplayers : m'.playersStore = Function.update m.playersStore guid d)
    (hteam : d.teamId = (m.playersStore guid).teamId) : Notified m m' := by
  refine ⟨hqueues, hproposals, fun g => ?_⟩
  rw [getTeam, getTeam, hplayers]
  by_cases hg : g = guid
  · rw [hg, Function.update_self, hteam]
  · rw [Function.update_of_ne hg]

theorem notify_spec (toRemove : Finset ℕ) (m : LFGMgr) {x : ℕ × LfgProposalPlayer}
    (hx : Proper isGroupGuid x) :
    Notified m (notify isGroupGuid toRemove m x) ∧
      (notify isGroupGuid toRemove m x).playersStore =
        Function.update m.playersStore x.1 (after toRemove x (m.playersStore x.1)) := by
  obtain ⟨hsingle, hgroup⟩ := hx
  suffices h : (notify isGroupGuid toRemove m x).queuesStore = m.queuesStore ∧
      (notify isGroupGuid toRemove m x).proposalsStore = m.proposalsStore ∧
      (notify isGroupGuid toRemove m x).playersStore =
        Function.update m.playersStore x.1 (after toRemove x (m.playersStore x.1)) by
    refine ⟨.of_teamId h.1 h.2.1 h.2.2 ?_, h.2.2⟩
    rw [after]
    split
    · exact LfgPlayerData.restoreState_teamId _
    · exact LfgPlayerData.setState_teamId _ _
  -- the guid of the entry is the player's own one unless he came with a group
  have hown : queueGuid x = x.1 ∨ queueGuid x = x.2.group ∧ isGroupGuid x.2.group = true := by
    by_cases hzero : x.2.group = 0
    · exact .inl (if_neg (not_not_intro hzero))
    · exact .inr ⟨if_pos hzero, hgroup hzero⟩
  rw [notify, after]
  dsimp only
  rcases hown with hself | ⟨hentry, htrue⟩
  · rw [hself, if_neg (not_not_intro rfl), if_neg (not_not_intro rfl), restoreState_player hsingle,
      setState_player hsingle]
    split <;> exact ⟨rfl, rfl, rfl⟩
  · have hne : x.2.group ≠ x.1 := by
      intro heq
      rw [heq, hsingle] at htrue
      cases htrue
    rw [hentry, if_pos hne, if_pos hne, restoreState_player hsingle, setState_player hsingle,
      restoreState_group htrue, setState_group htrue]
    split <;> exact ⟨rfl, rfl, rfl⟩

theorem notify_foldl (toRemove : Finset ℕ) (players : List (ℕ × LfgProposalPlayer)) (m : LFGMgr)
    (hproper : ∀ x ∈ players, Proper isGroupGuid x) (hnodup : (players.map Prod.fst).Nodup) :
    Notified m (players.foldl (notify isGroupGuid toRemove) m) ∧
      (∀ x ∈ players, (players.foldl (notify isGroupGuid toRemove) m).playersStore x.1 =
        after toRemove x (m.playersStore x.1)) ∧
      ∀ guid, guid ∉ players.map Prod.fst →
        (players.foldl (notify isGroupGuid toRemove) m).playersStore guid = m.playersStore guid := by
  induction players generalizing m with
  | nil => exact ⟨⟨rfl, rfl, fun _ => rfl⟩, nofun, fun _ _ => rfl⟩
  | cons x players ih =>
    rw [List.map_cons, List.nodup_cons] at hnodup
    obtain ⟨hfirst, hplayers⟩ := notify_spec toRemove m (hproper x List.mem_cons_self)
    obtain ⟨hrest, hvisited, hother⟩ := ih (notify isGroupGuid toRemove m x)
      (fun y hy => hproper y (List.mem_cons_of_mem x hy)) hnodup.2
    rw [List.foldl_cons]
    refine ⟨hfirst.trans hrest, fun y hy => ?_, fun guid hguid => ?_⟩
    · rcases List.mem_cons.mp hy with rfl | hy
      · rw [hother _ hnodup.1, hplayers, Function.update_self]
      · have hne : y.1 ≠ x.1 := fun heq => hnodup.1 (heq ▸ List.mem_map_of_mem hy)
        rw [hvisited y hy, hplayers, Function.update_of_ne hne]
    · rw [List.map_cons, List.mem_cons, not_or] at hguid
      rw [hother guid hguid.2, hplayers, Function.update_of_ne hguid.1]

end LFGMgr

/-! ### Who is put back -/

namespace StoredProposal

/-- The entry contains a player who denied, or who is still pending when the time is over. -/
def Refused (p : StoredProposal) (type : LfgUpdateType) (g : ℕ) : Prop :=
  ∃ x ∈ p.players, queueGuid x = g ∧
    (p.answer x.1 = .deny ∨ p.answer x.1 = .pending ∧ type = .proposalFailed)

instance (p : StoredProposal) (type : LfgUpdateType) (g : ℕ) : Decidable (p.Refused type g) :=
  inferInstanceAs (Decidable (∃ x ∈ p.players, _))

theorem refuses_markPending (p : StoredProposal) (type : LfgUpdateType)
    (h : guid ∈ p.players.map Prod.fst) :
    (p.markPending type).refuses type guid = true ↔
      p.answer guid = .deny ∨ p.answer guid = .pending ∧ type = .proposalFailed := by
  have hanswer : (p.markPending type).answer guid =
      if type = .proposalFailed ∧ p.answer guid = .pending then .deny else p.answer guid := by
    rw [markPending]
    cases type <;> simp [h]
  rw [refuses, decide_eq_true_eq, hanswer]
  cases type with
  | proposalDeclined => cases hans : p.answer guid <;> simp
  | proposalFailed => cases hans : p.answer guid <;> simp

theorem markPending_players (p : StoredProposal) (type : LfgUpdateType) :
    (p.markPending type).players = p.players := by
  rw [markPending]
  split <;> rfl

theorem mem_toRemove (p : StoredProposal) (type : LfgUpdateType) (g : ℕ) :
    g ∈ (p.markPending type).toRemove type ↔ p.Refused type g := by
  simp only [toRemove, List.mem_toFinset, List.mem_map, List.mem_filter, markPending_players]
  constructor
  · rintro ⟨x, ⟨hx, hrefuses⟩, hg⟩
    exact ⟨x, hx, hg, (p.refuses_markPending type (List.mem_map_of_mem hx)).mp hrefuses⟩
  · rintro ⟨x, hx, hg, hanswer⟩
    exact ⟨x, ⟨hx, (p.refuses_markPending type (List.mem_map_of_mem hx)).mpr hanswer⟩, hg⟩

/-- A proposal over the queue entries `l`: its players are members of these. -/
structure Over (isGroupGuid : ℕ → Bool) (p : StoredProposal) (l : List ℕ) : Prop where
  holds : p.queues.Holds l
  nodup : l.Nodup
  distinct : (p.players.map Prod.fst).Nodup
  entries : ∀ x ∈ p.players, queueGuid x ∈ l
  proper : ∀ x ∈ p.players, LFGMgr.Proper isGroupGuid x

end StoredProposal

/-- The entries wait for the answers: their data are in the queue, and nothing else is. -/
structure LFGQueue.Asked (q : LFGQueue) (l : List ℕ) : Prop where
  data : ∀ g ∈ l, (q.queueDataStore.find? g).isSome
  newToQueue : ∀ g ∈ l, g ∉ q.newToQueueStore
  compatibles : ∀ e ∈ q.compatibleList, ∀ g ∈ l, e.hasGuid g = false

/-- The queue has lost `removed` and has `kept` at its front again. -/
structure LFGQueue.Conserved (removed kept : List ℕ) (q q' : LFGQueue) : Prop where
  data : ∀ g, q'.queueDataStore.find? g =
    if g ∈ removed then none else (q.queueDataStore.find? g).map (LFGQueue.withoutBest removed)
  newToQueue : q'.newToQueueStore = kept.reverse ++ q.newToQueueStore
  restored : q'.restoredAfterProposal = q.restoredAfterProposal.filter (· ∉ removed) ++ kept
  compatibles : q'.compatibleList = q.compatibleList

theorem queue_conserved {q : LFGQueue} {e : Lfg5Guids} {l gs : List ℕ} {refused : ℕ → Bool}
    (hq : q.Asked l) (he : e.Holds l) (hnodup : l.Nodup)
    (hgs : ∀ g, g ∈ gs ↔ g ∈ l.filter (refused ·)) :
    LFGQueue.Conserved (l.filter (refused ·)) (l.filter (!refused ·)) q
      ((gs.foldl LFGMgr.removeEntry (q, e)).2.guids.foldl (fun q guid => q.addToQueue guid true)
        (gs.foldl LFGMgr.removeEntry (q, e)).1) := by
  have hremoved := LFGQueue.removed_foldl gs q e
  have hsub : ∀ g ∈ gs, g ∈ l := fun g hg => List.mem_of_mem_filter ((hgs g).mp hg)
  have hzero : 0 ∉ gs := fun hz => he.nonzero (hsub 0 hz)
  have hentries := entries_foldl gs l q e hzero he
  have hkept : l.diff gs = l.filter (!refused ·) := by
    rw [hnodup.sdiff_eq_filter]
    refine List.filter_congr fun g hg => ?_
    simp only [hgs g, List.mem_filter, hg, true_and]
    cases refused g <;> rfl
  have hpresent : ∀ g ∈ l.filter (!refused ·),
      ((gs.foldl LFGMgr.removeEntry (q, e)).1.queueDataStore.find? g).isSome := by
    intro g hg
    rw [← hkept, hnodup.mem_sdiff_iff] at hg
    rw [hremoved.data, if_neg hg.2, Option.isSome_map]
    exact hq.data g hg.1
  rw [hentries.guids_eq, hkept, LFGQueue.readd_foldl _ _ hpresent]
  refine ⟨fun g => ?_, ?_, ?_, ?_⟩
  · rw [hremoved.data]
    by_cases hg : g ∈ gs
    · rw [if_pos hg, if_pos ((hgs g).mp hg)]
    · rw [if_neg hg, if_neg ((hgs g).not.mp hg)]
      refine Option.map_congr fun d hd => ?_
      have hkey := ((KeyedList.find?_eq_some_iff _ g d).mp hd).2
      rw [LFGQueue.forgetBest_foldl (hkey.symm ▸ hg), LFGQueue.withoutBest_congr hgs]
  · have hsame : q.newToQueueStore.filter (· ∉ gs) = q.newToQueueStore :=
      List.filter_eq_self.mpr fun g hnew => decide_eq_true fun hg => hq.newToQueue g (hsub g hg) hnew
    show _ ++ _ = _ ++ _
    rw [hremoved.newToQueue, hsame]
  · show _ ++ _ = _ ++ _
    rw [hremoved.restored]
    exact congrArg (· ++ _) (List.filter_congr fun g _ => by simp only [hgs g])
  · exact hremoved.compatibles fun e he g hg => hq.compatibles e he g (hsub g hg)

namespace LFGMgr

theorem removeProposal_eq (isGroupGuid : ℕ → Bool) (m : LFGMgr) (id : ℕ) (type : LfgUpdateType)
    {p : StoredProposal} {first : ℕ × LfgProposalPlayer} (hp : m.proposalsStore id = some p)
    (hfirst : p.players.head? = some first) :
    m.removeProposal isGroupGuid id type =
      let toRemove := (p.markPending type).toRemove type
      let m' := p.players.foldl (notify isGroupGuid toRemove) m
      let queueId := m'.getQueue isGroupGuid first.1
      let removed := (toRemove.sort (· ≤ ·)).foldl removeEntry (m'.queuesStore queueId, p.queues)
      let queue := removed.2.guids.foldl (fun q guid => q.addToQueue guid true) removed.1
      some { m' with
        queuesStore := Function.update m'.queuesStore queueId queue
        proposalsStore := Function.update m'.proposalsStore id none } := by
  have hqueues : (p.markPending type).queues = p.queues := by
    rw [StoredProposal.markPending]
    split <;> rfl
  rw [removeProposal, hp]
  simp only [Option.bind_eq_bind, Option.bind_some, hfirst, p.markPending_players type, hqueues]
  rfl

theorem removeProposal_conserves (isGroupGuid : ℕ → Bool) (m : LFGMgr) (id : ℕ)
    (type : LfgUpdateType) {p : StoredProposal} {l : List ℕ} {first : ℕ × LfgProposalPlayer}
    (hp : m.proposalsStore id = some p) (hover : p.Over isGroupGuid l)
    (hfirst : p.players.head? = some first)
    (hasked : (m.queuesStore (m.getTeam first.1)).Asked l) :
    ∃ m', m.removeProposal isGroupGuid id type = some m' ∧
      LFGQueue.Conserved (l.filter (p.Refused type ·)) (l.filter (¬p.Refused type ·))
        (m.queuesStore (m.getTeam first.1)) (m'.queuesStore (m.getTeam first.1)) ∧
      ∀ x ∈ p.players,
        if (m.playersStore x.1).locked = true then m'.playersStore x.1 = m.playersStore x.1
        else (m'.playersStore x.1).state = .queued ↔ ¬p.Refused type (queueGuid x) := by
  have hfirst_mem : first ∈ p.players := List.mem_of_mem_head? hfirst
  obtain ⟨hnotified, hvisited, -⟩ := notify_foldl ((p.markPending type).toRemove type) p.players m
    hover.proper hover.distinct
  refine ⟨_, removeProposal_eq isGroupGuid m id type hp hfirst, ?_, fun x hx => ?_⟩
  · have hteam : (p.players.foldl (notify isGroupGuid ((p.markPending type).toRemove type)) m).getQueue
        isGroupGuid first.1 = m.getTeam first.1 := by
      rw [getQueue, (hover.proper first hfirst_mem).1]
      exact hnotified.team first.1
    have hgs : ∀ g, g ∈ ((p.markPending type).toRemove type).sort (· ≤ ·) ↔
        g ∈ l.filter (p.Refused type ·) := by
      intro g
      rw [Finset.mem_sort, p.mem_toRemove, List.mem_filter, decide_eq_true_eq]
      refine ⟨fun hg => ⟨?_, hg⟩, fun hg => hg.2⟩
      obtain ⟨x, hx, rfl, -⟩ := hg
      exact hover.entries x hx
    have hconserved := queue_conserved hasked hover.holds hover.nodup hgs
    dsimp only
    rw [hteam, Function.update_self, hnotified.queues]
    simpa only [decide_not] using hconserved
  · rw [hvisited x hx, after]
    have hrests := (m.playersStore x.1).rests
    split
    · rename_i hlocked
      rw [LfgPlayerData.restoreState_locked hlocked, LfgPlayerData.setState_queued, if_pos hlocked,
        ite_self]
    · rename_i hfree
      rw [LfgPlayerData.setState_queued, if_neg hfree]
      by_cases hrefused : p.Refused type (queueGuid x)
      · rw [if_pos ((p.mem_toRemove type _).mpr hrefused), LfgPlayerData.restoreState_state (Bool.not_eq_true _ |>.mp hfree)]
        refine iff_of_false (fun hold => ?_) (not_not_intro hrefused)
        rw [hold] at hrests
        cases hrests
      · rw [if_neg ((p.mem_toRemove type _).not.mpr hrefused)]
        exact iff_of_true rfl hrefused

def twoAlone : StoredProposal where
  dungeonId := 1
  group := 0
  leader := 10
  isNew := true
  queues := ⟨10, 11, 0, 0, 0, none⟩
  players := [(10, ⟨PLAYER_ROLE_TANK, 0, false⟩), (11, ⟨PLAYER_ROLE_HEALER, 0, false⟩)]
  answer := fun guid => if guid = 10 then .agree else .deny

def waiting (guid : ℕ) (best : Lfg5Guids) : LfgQueueData :=
  ⟨guid, 0, 0, {1}, [], List.Pairwise.nil, best⟩

def askedTwo (state : LfgState) (best : Lfg5Guids) : LFGMgr where
  playersStore := fun _ => { (default : LfgPlayerData) with state := state }
  groupsStore := fun _ => default
  queuesStore := fun _ => { LFGQueue.initial with
    queueDataStore := (KeyedList.empty.put (waiting 10 best)).put (waiting 11 .none5) }
  proposalsStore := fun id => if id = 1 then some twoAlone else none
  bootsStore := fun _ => none

theorem twoAlone_over : twoAlone.Over (fun _ => false) [10, 11] where
  holds := ⟨by decide, by decide, rfl⟩
  nodup := by decide
  distinct := by decide
  entries := by decide
  proper := fun x hx => ⟨rfl, fun hgroup => by
    simp only [twoAlone, List.mem_cons, List.not_mem_nil, or_false] at hx
    rcases hx with rfl | rfl <;> exact absurd rfl hgroup⟩

theorem askedTwo_asked (state : LfgState) (best : Lfg5Guids) :
    ((askedTwo state best).queuesStore 0).Asked [10, 11] where
  data := by
    intro g hg
    simp only [List.mem_cons, List.not_mem_nil, or_false] at hg
    rcases hg with rfl | rfl <;> rfl
  newToQueue := fun _ _ => List.not_mem_nil
  compatibles := nofun

theorem removeProposal_conserves_two : ∃ m',
    (askedTwo .proposal .none5).removeProposal (fun _ => false) 1 .proposalDeclined = some m' ∧
      LFGQueue.Conserved [11] [10] ((askedTwo .proposal .none5).queuesStore 0) (m'.queuesStore 0) := by
  obtain ⟨m', hm', hconserved, -⟩ := removeProposal_conserves (fun _ => false)
    (askedTwo .proposal .none5) 1 .proposalDeclined rfl twoAlone_over rfl (askedTwo_asked _ _)
  exact ⟨m', hm', hconserved⟩

/-- An entry that is put back forgets the combination it could have joined, and the raid browser
keeps its player. -/
theorem kept_entry_changed :
    (twoAlone.Over (fun _ => false) [10, 11] ∧
      ∀ state best, ((askedTwo state best).queuesStore 0).Asked [10, 11]) ∧
    (((askedTwo .proposal ⟨10, 11, 0, 0, 0, none⟩).queuesStore 0).queueDataStore.find? 10).map
      (·.bestCompatible.raw) = some [10, 11, 0, 0, 0] ∧
    (∃ m', (askedTwo .proposal ⟨10, 11, 0, 0, 0, none⟩).removeProposal (fun _ => false) 1
        .proposalDeclined = some m' ∧
      (m'.queuesStore 0).newToQueueStore = [10] ∧
      ((m'.queuesStore 0).queueDataStore.find? 10).map (·.bestCompatible.raw) = some [0, 0, 0, 0, 0]) ∧
    ∃ m', (askedTwo .raidbrowser .none5).removeProposal (fun _ => false) 1 .proposalDeclined = some m' ∧
      (m'.queuesStore 0).newToQueueStore = [10] ∧ (m'.playersStore 10).state = .raidbrowser := by
  have hsort : ((twoAlone.markPending .proposalDeclined).toRemove .proposalDeclined).sort (· ≤ ·) =
      [11] := by decide +kernel
  refine ⟨⟨twoAlone_over, askedTwo_asked⟩, rfl, ?_, ?_⟩
  · refine ⟨_, removeProposal_eq (fun _ => false) _ 1 .proposalDeclined rfl rfl, ?_⟩
    dsimp only
    rw [hsort]
    exact ⟨rfl, rfl⟩
  · refine ⟨_, removeProposal_eq (fun _ => false) _ 1 .proposalDeclined rfl rfl, ?_⟩
    dsimp only
    rw [hsort]
    exact ⟨rfl, rfl⟩

end LFGMgr

end HysteriaCore.Dungeon
