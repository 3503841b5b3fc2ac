import HysteriaCore.Cluster.NodeView

/-!
# One node does not repeat its own ids, as long as every id is reported

The proxy's last ids, the node's counters and the sync packets in flight are three
copies of one number. They agree as long as the node generates ids on an initialised
link only and no link is lost while a sync packet is in flight; `IdPhase` lists
the stages of a link under that discipline. The guards of the generators leave room
for an increment of one; the counters go up by the stride of the cluster.
-/

namespace HysteriaCore.Cluster
open Lib

def NodePacket.isSync : NodePacket → Bool
  | .nodeSyncData _ _ => true
  | _ => false

def NodePacket.isAuth : NodePacket → Bool
  | .authResponse => true
  | _ => false

/-- The step reports every id: ids are generated on a link whose initialisation was
acknowledged, without passing `2^32`, and no sync packet is dropped. -/
def View.Reported (v : View) : Event → Prop
  | .generate _ k => v.node.current = true ∧ v.node.mgr.counter k + v.node.mgr.hiRange < 2^32
  | .lose _ => ∀ l ∈ v.link, ∀ p ∈ l.toProxy, p.isSync = false
  | .restart _ _ => ∀ l ∈ v.link, ∀ p ∈ l.toProxy, p.isSync = false
  | _ => True

def EveryIdReported (s : State) (e : Event) : Prop := (view s e.target).Reported e

instance : ∀ (s : State) (e : Event), Decidable (EveryIdReported s e)
  | s, .generate n k => inferInstanceAs (Decidable ((view s n).node.current = true ∧
      (view s n).node.mgr.counter k + (view s n).node.mgr.hiRange < 2^32))
  | s, .lose n => inferInstanceAs
      (Decidable (∀ l ∈ (view s n).link, ∀ p ∈ l.toProxy, p.isSync = false))
  | s, .restart n _ => inferInstanceAs
      (Decidable (∀ l ∈ (view s n).link, ∀ p ∈ l.toProxy, p.isSync = false))
  | _, .connect _ => .isTrue trivial
  | _, .proxyReceive _ => .isTrue trivial
  | _, .nodeReceive _ => .isTrue trivial

def lastAfter (k : EntityIDType) : List NodePacket → ℕ → ℕ
  | [], last => last
  | .nodeSyncData k' guid :: ps, last => lastAfter k ps (if k = k' then guid else last)
  | _ :: ps, last => lastAfter k ps last

theorem lastAfter_append_sync (k k' : EntityIDType) (guid : ℕ) (ps : List NodePacket) (last : ℕ) :
    lastAfter k (ps ++ [.nodeSyncData k' guid]) last =
      if k = k' then guid else lastAfter k ps last := by
  induction ps generalizing last with
  | nil => rfl
  | cons p ps ih => cases p <;> exact ih _

theorem lastAfter_no_sync (k : EntityIDType) (ps : List NodePacket) (last : ℕ)
    (h : ∀ p ∈ ps, p.isSync = false) : lastAfter k ps last = last := by
  induction ps generalizing last with
  | nil => rfl
  | cons p ps ih =>
    have hp := h p (List.mem_cons_self ..)
    have hps := ih last fun q hq => h q (List.mem_cons_of_mem _ hq)
    cases p with
    | nodeSyncData => cases hp
    | authResponse => exact hps
    | nodeInitAck => exact hps

inductive IdPhase (highest : EntityIDType → ℕ) (n : ℕ) (v : View) : Prop where
  | down (hl : v.link = none) (hc : v.node.current = false)
      (h : ∀ k, ∀ g ∈ v.node.handed k, g ≤ offered (highest k) (v.last k) n)
  | auth (hl : v.link = some ⟨[], [.authResponse]⟩) (hc : v.node.current = false)
      (h : ∀ k, ∀ g ∈ v.node.handed k, g ≤ offered (highest k) (v.last k) n)
  | init {m : InitNode} (hl : v.link = some ⟨[m], []⟩) (hc : v.node.current = false)
      (h : ∀ k, ∀ g ∈ v.node.handed k, g ≤ offered (highest k) (v.last k) n)
      (hm : ∀ k, m.guid k = offered (highest k) (v.last k) n) (hr : 1 ≤ m.hiRange)
  | refused {ps : List NodePacket} (hl : v.link = some ⟨[], ps⟩) (hc : v.node.current = false)
      (h : ∀ k, ∀ g ∈ v.node.handed k, g ≤ offered (highest k) (v.last k) n)
      (hps : ∀ p ∈ ps, p.isSync = false ∧ p.isAuth = false)
  | running {ps : List NodePacket} (hl : v.link = some ⟨[], ps⟩) (hc : v.node.current = true)
      (h : ∀ k, ∀ g ∈ v.node.handed k, g ≤ v.node.mgr.counter k)
      (hps : ∀ p ∈ ps, p.isAuth = false)
      (hlast : ∀ k, offered (highest k) (lastAfter k ps (v.last k)) n = v.node.mgr.counter k)
      (hr : 1 ≤ v.node.mgr.hiRange)

structure IdInv (highest : EntityIDType → ℕ) (n : ℕ) (v : View) : Prop where
  nodup : ∀ k, (v.node.handed k).Nodup
  phase : IdPhase highest n v

theorem handleLogonInitNode_ok {o : ObjectMgr} {m : InitNode}
    (h : (handleLogonInitNode o m).1 = .ok) :
    (handleLogonInitNode o m).2.hiRange = m.hiRange ∧
      ∀ k, (handleLogonInitNode o m).2.counter k = m.guid k := by
  unfold handleLogonInitNode at *
  split_ifs at * with h1 h2 h3
  refine ⟨rfl, fun k => ?_⟩
  cases k <;> rfl

variable {k : EntityIDType}

theorem ObjectMgr.generate_eq {o o' : ObjectMgr} {guid : ℕ}
    (h : o.generate k = some (guid, o')) (hb : o.counter k + o.hiRange < 2^32) :
    guid = o.counter k + o.hiRange ∧ o'.hiRange = o.hiRange ∧
      ∀ k', o'.counter k' = if k' = k then guid else o.counter k' := by
  have hu : u32 (o.counter k + o.hiRange) = o.counter k + o.hiRange := u32_of_lt hb
  have hadv : ∀ p : ObjectMgr, p.hiRange = o.hiRange → (∀ k', p.counter k' = o.counter k') →
      p.advance k = (guid, o') → guid = o.counter k + o.hiRange ∧ o'.hiRange = o.hiRange ∧
      ∀ k', o'.counter k' = if k' = k then guid else o.counter k' := by
    intro p hr hc he
    simp only [advance, hr, hc, hu, Prod.mk.injEq] at he
    obtain ⟨rfl, rfl⟩ := he
    simp [hr, hc]
  cases k with
  | item =>
    simp only [generate, generateLowGuidItem] at h
    split_ifs at h
    exact hadv o rfl (fun _ => rfl) (Option.some.inj h)
  | mail =>
    simp only [generate, generateMailID, Option.some.injEq] at h
    refine hadv _ ?_ ?_ h
    · split_ifs <;> rfl
    · intro k'
      split_ifs <;> cases k' <;> rfl
  | corpse =>
    simp only [generate, generateLowGuidCorpse] at h
    split_ifs at h
    exact hadv o rfl (fun _ => rfl) (Option.some.inj h)

variable {highest : EntityIDType → ℕ}

theorem IdPhase.handed_le_offered {n : ℕ} {v : View}
    (h : IdPhase highest n v) (hsync : ∀ l ∈ v.link, ∀ p ∈ l.toProxy, p.isSync = false) :
    ∀ k, ∀ g ∈ v.node.handed k, g ≤ offered (highest k) (v.last k) n := by
  cases h with
  | down _ _ h => exact h
  | auth _ _ h => exact h
  | init _ _ h => exact h
  | refused _ _ h => exact h
  | running hl hc h hps hlast hr =>
    intro k g hg
    have hle := h k g hg
    have hk := hlast k
    rw [lastAfter_no_sync k _ _ (hsync _ hl)] at hk
    omega

section Step
variable {highest : EntityIDType → ℕ} {count n : ℕ} {v w : View} {e : Event}

variable {toNode : List InitNode} {rest : List NodePacket}

theorem IdPhase.of_authResponse
    (h : IdPhase highest n v) (hl : v.link = some ⟨toNode, .authResponse :: rest⟩) :
    toNode = [] ∧ rest = [] ∧ v.node.current = false ∧
      ∀ k, ∀ g ∈ v.node.handed k, g ≤ offered (highest k) (v.last k) n := by
  cases h with
  | down hl' => simp [hl'] at hl
  | auth hl' hc h =>
    obtain ⟨rfl, rfl⟩ : toNode = [] ∧ rest = [] := by simpa [hl', eq_comm] using hl
    exact ⟨rfl, rfl, hc, h⟩
  | init hl' => simp [hl'] at hl
  | refused hl' hc h hps =>
    obtain ⟨rfl, rfl⟩ : toNode = [] ∧ _ = _ := by simpa [hl', eq_comm] using hl
    cases (hps _ (List.mem_cons_self ..)).2
  | running hl' hc h hps hlast hr =>
    obtain ⟨rfl, rfl⟩ : toNode = [] ∧ _ = _ := by simpa [hl', eq_comm] using hl
    cases hps _ (List.mem_cons_self ..)

theorem IdPhase.of_nodeInitAck {ack : NodeAck}
    (h : IdPhase highest n v) (hl : v.link = some ⟨toNode, .nodeInitAck ack :: rest⟩) :
    IdPhase highest n { v with link := some ⟨toNode, rest⟩ } := by
  cases h with
  | down hl' => simp [hl'] at hl
  | auth hl' => simp [hl'] at hl
  | init hl' => simp [hl'] at hl
  | refused hl' hc h hps =>
    obtain ⟨rfl, rfl⟩ : toNode = [] ∧ _ = _ := by simpa [hl', eq_comm] using hl
    exact .refused rfl hc h fun p hp => hps p (List.mem_cons_of_mem _ hp)
  | running hl' hc h hps hlast hr =>
    obtain ⟨rfl, rfl⟩ : toNode = [] ∧ _ = _ := by simpa [hl', eq_comm] using hl
    exact .running rfl hc h (fun p hp => hps p (List.mem_cons_of_mem _ hp)) hlast hr

theorem IdPhase.of_nodeSyncData
    {guid : ℕ} (h : IdPhase highest n v)
    (hl : v.link = some ⟨toNode, .nodeSyncData k guid :: rest⟩) :
    IdPhase highest n
      { v with last := Function.update v.last k guid, link := some ⟨toNode, rest⟩ } := by
  cases h with
  | down hl' => simp [hl'] at hl
  | auth hl' => simp [hl'] at hl
  | init hl' => simp [hl'] at hl
  | refused hl' hc h hps =>
    obtain ⟨rfl, rfl⟩ : toNode = [] ∧ _ = _ := by simpa [hl', eq_comm] using hl
    cases (hps _ (List.mem_cons_self ..)).1
  | running hl' hc h hps hlast hr =>
    obtain ⟨rfl, rfl⟩ : toNode = [] ∧ _ = _ := by simpa [hl', eq_comm] using hl
    refine .running rfl hc h (fun p hp => hps p (List.mem_cons_of_mem _ hp)) (fun k' => ?_) hr
    have hk := hlast k'
    simpa only [lastAfter, Function.update_apply] using hk

theorem IdPhase.of_nodeReceive {init : InitNode} {rest : List InitNode}
    {toProxy : List NodePacket} (h : IdPhase highest n v)
    (hl : v.link = some ⟨init :: rest, toProxy⟩) (node : Node)
    (hmgr : node.mgr = (handleLogonInitNode v.node.mgr init).2)
    (hcur : node.current = decide ((handleLogonInitNode v.node.mgr init).1 = .ok))
    (hhanded : node.handed = v.node.handed) :
    IdPhase highest n { v with
      link := some ⟨rest, toProxy ++ [.nodeInitAck (handleLogonInitNode v.node.mgr init).1]⟩, node } := by
  cases h with
  | down hl' => simp [hl'] at hl
  | auth hl' => simp [hl'] at hl
  | refused hl' => simp [hl'] at hl
  | running hl' => simp [hl'] at hl
  | init hl' hc h hm hr =>
    rename_i m
    obtain ⟨⟨rfl, rfl⟩, rfl⟩ : (m = init ∧ rest = []) ∧ toProxy = [] := by
      simpa [hl', eq_comm] using hl
    by_cases hok : (handleLogonInitNode v.node.mgr m).1 = .ok
    · obtain ⟨hrange, hcounter⟩ := handleLogonInitNode_ok hok
      have hguid : ∀ k, node.mgr.counter k = offered (highest k) (v.last k) n := fun k => by
        rw [hmgr, hcounter, hm]
      refine .running rfl (by simp [hcur, hok]) (fun k g hg => ?_) ?_ (fun k => ?_) ?_
      · rw [hguid]
        exact h k g (by simpa only [hhanded] using hg)
      · simp [NodePacket.isAuth]
      · exact (hguid k).symm
      · simpa only [hmgr, hrange] using hr
    · refine .refused rfl (by simp [hcur, hok]) (fun k g hg => ?_) ?_
      · exact h k g (by simpa only [hhanded] using hg)
      · simp [NodePacket.isSync, NodePacket.isAuth]

theorem IdPhase.of_generate {guid : ℕ} {mgr : ObjectMgr}
    (h : IdPhase highest n v) (hc : v.node.current = true)
    (hb : v.node.mgr.counter k + v.node.mgr.hiRange < 2^32)
    (hg : v.node.mgr.generate k = some (guid, mgr)) :
    (∀ g ∈ v.node.handed k, g < guid) ∧ IdPhase highest n
      { v with
        link := sendGUIDSync v.link k guid,
        node := { v.node with
          mgr, handed := Function.update v.node.handed k (guid :: v.node.handed k) } } := by
  cases h with
  | down _ hc' => simp [hc'] at hc
  | auth _ hc' => simp [hc'] at hc
  | init _ hc' => simp [hc'] at hc
  | refused _ hc' => simp [hc'] at hc
  | running hl _ h hps hlast hr =>
    obtain ⟨hguid, hrange, hcounter⟩ := ObjectMgr.generate_eq hg hb
    have hlt : ∀ g ∈ v.node.handed k, g < guid := fun g hg' => by
      have := h k g hg'
      omega
    refine ⟨hlt, .running (congrArg (sendGUIDSync · k guid) hl) hc (fun k' g hg' => ?_) ?_
      (fun k' => ?_) (by simpa only [hrange] using hr)⟩
    · by_cases hk : k' = k
      · subst hk
        simp only [Function.update_self, List.mem_cons] at hg'
        simp only [hcounter, ite_true]
        rcases hg' with rfl | hg'
        · exact Nat.le_refl _
        · exact Nat.le_of_lt (hlt g hg')
      · simp only [Function.update_of_ne hk] at hg'
        simpa only [hcounter, hk, ite_false] using h k' g hg'
    · intro p hp
      rcases List.mem_append.mp hp with hp | hp
      · exact hps p hp
      · rw [List.mem_singleton.mp hp]
        rfl
    · simp only [hcounter, lastAfter_append_sync]
      by_cases hk : k' = k
      · have hne : guid ≠ 0 := by omega
        simp only [hk, ite_true, offered, hne, ne_eq, not_false_eq_true]
      · simpa only [hk, ite_false] using hlast k'

theorem IdInv.step (hcount : v.listed = true → 1 ≤ count) (h : IdInv highest n v)
    (hok : v.Reported e) (hs : ViewStep highest count n v e w) : IdInv highest n w := by
  obtain ⟨hnd, hph⟩ := h
  cases hs with
  | connect hd hl =>
    refine ⟨hnd, .auth rfl rfl (hph.handed_le_offered ?_)⟩
    simp [hl]
  | lose hl => exact ⟨hnd, .down rfl rfl (hph.handed_le_offered hok)⟩
  | restart mgr => exact ⟨hnd, .down rfl rfl (hph.handed_le_offered hok)⟩
  | authResponse hd hl hrange hguid =>
    obtain ⟨rfl, rfl, hc, hle⟩ := hph.of_authResponse hl
    refine ⟨hnd, .init rfl hc (fun k g hg => ?_) (fun k => ?_) ?_⟩
    · rw [offered_idem]
      exact hle k g hg
    · rw [offered_idem]
      exact hguid k
    · rw [hrange]
      exact hcount hd
  | nodeInitAck hl => exact ⟨hnd, hph.of_nodeInitAck hl⟩
  | nodeSyncData hd hl => exact ⟨hnd, hph.of_nodeSyncData hl⟩
  | nodeReceive hl => exact ⟨hnd, hph.of_nodeReceive hl _ rfl rfl rfl⟩
  | @generate k guid mgr hg =>
    obtain ⟨hlt, hph'⟩ := hph.of_generate hok.1 hok.2 hg
    refine ⟨fun k' => ?_, hph'⟩
    by_cases hk : k' = k
    · subst hk
      simp only [Function.update_self]
      exact List.nodup_cons.mpr ⟨fun hmem => Nat.lt_irrefl _ (hlt guid hmem), hnd k'⟩
    · simpa only [Function.update_of_ne hk] using hnd k'

end Step

/-- The stage of every link, and the node count that the strides come from. -/
structure IdsInv (s : State) : Prop where
  count : ∀ n, (view s n).listed = true → 1 ≤ s.proxy.nodelist.getNodeCount
  view : ∀ n, IdInv s.proxy.highest n (view s n)

theorem Loaded.one_le_count {s : State} (h : Loaded s) (n : ℕ) (hd : (view s n).listed = true) :
    1 ≤ s.proxy.nodelist.getNodeCount := by
  obtain ⟨d, hrow⟩ := Option.isSome_iff_exists.mp hd
  have hle := NodeListList.le_getNodeCount s.proxy.nodelist hrow
  obtain ⟨row, hfind, rfl⟩ := Option.map_eq_some_iff.mp hrow
  obtain ⟨hmem, hkey⟩ := (KeyedList.find?_eq_some_iff _ n row).mp hfind
  have hpos := h.nodeId_pos row hmem
  omega

theorem Loaded.idsInv {s : State} (h : Loaded s) : IdsInv s := by
  refine ⟨h.one_le_count, fun n => ⟨fun k => ?_, .down (h.down n) (h.fresh n).2 fun k g hg => ?_⟩⟩
  · change ((s.node n).handed k).Nodup
    rw [h.none_handed]
    exact List.nodup_nil
  · change g ∈ (s.node n).handed k at hg
    rw [h.none_handed] at hg
    cases hg

theorem ViewStep.listed {count n : ℕ} {v w : View} {e : Event}
    (h : ViewStep highest count n v e w) : w.listed = v.listed := by
  cases h <;> rfl

theorem StepFacts.listed {s t : State} {e : Event} (h : StepFacts s t e) (n : ℕ) :
    (view t n).listed = (view s n).listed := by
  by_cases hn : n = e.target
  · subst hn
    exact h.target.listed
  · rw [h.others n hn]

theorem IdsInv.step {s t : State} {e : Event} (h : IdsInv s) (hok : EveryIdReported s e)
    (hs : step s e = some t) : IdsInv t := by
  have hf := step_facts hs
  refine ⟨fun n hn => ?_, fun n => ?_⟩
  · rw [hf.count]
    exact h.count n (by rw [← hf.listed n]; exact hn)
  · rw [hf.highest]
    by_cases hn : n = e.target
    · subst hn
      exact (h.view e.target).step (h.count e.target) hok hf.target
    · rw [hf.others n hn]
      exact h.view n

/-- In a run that reports every id, no node hands out an id twice, and no counter that
an initialisation is about to install lies below an id already handed out. -/
theorem reported_ids_not_reused {s : State} (h : Reaches step EveryIdReported Loaded s) (n : ℕ)
    (k : EntityIDType) :
    ((s.node n).handed k).Nodup ∧
      ∀ l ∈ s.link n, ∀ m ∈ l.toNode, ∀ g ∈ (s.node n).handed k, g ≤ m.guid k := by
  have hinv : IdsInv s := h.invariant (fun _ => Loaded.idsInv) fun _ _ _ hi => hi.step
  obtain ⟨hnd, hph⟩ := hinv.view n
  refine ⟨hnd k, fun l hl m hm => ?_⟩
  cases hph with
  | init hl' _ hle hguid _ =>
    obtain rfl : _ = l := Option.some.inj (hl'.symm.trans hl)
    obtain rfl := List.mem_singleton.mp hm
    rw [hguid]
    exact hle k
  | down hl' => cases hl'.symm.trans hl
  | auth hl' =>
    obtain rfl : _ = l := Option.some.inj (hl'.symm.trans hl)
    cases hm
  | refused hl' =>
    obtain rfl : _ = l := Option.some.inj (hl'.symm.trans hl)
    cases hm
  | running hl' =>
    obtain rfl : _ = l := Option.some.inj (hl'.symm.trans hl)
    cases hm

/-! ### A proxy with one node -/

def oneNode : State where
  proxy := ⟨⟨[(1, ⟨true, false, 0, 0, 0⟩)], by decide⟩, 1000, 500, 40⟩
  node := fun _ => ⟨⟨1, 7, 7, 7, false⟩, false, false, fun _ => []⟩
  link := fun _ => none

theorem oneNode_loaded : Loaded oneNode where
  nodeId_pos := by simp [oneNode, KeyedList.mem_rows]
  lastItem := by simp [oneNode, KeyedList.mem_rows]
  lastMail := by simp [oneNode, KeyedList.mem_rows]
  down := fun _ => rfl
  fresh := fun _ => ⟨rfl, rfl⟩
  none_handed := fun _ _ => rfl

/-- The node logs in: `SMSG_AUTH_RESPONSE`, `LOGON_INIT_NODE`, `NODE_INIT_ACK`. -/
def login (n : ℕ) : List Event := [.connect n, .proxyReceive n, .nodeReceive n, .proxyReceive n]

/-- Two logins; the id of the first has reached the proxy before the link is lost. -/
theorem reported_ids_not_reused_oneNode :
    ∃ s, Reaches step EveryIdReported Loaded s ∧ (s.node 1).handed .item = [1002, 1001] ∧
      ((s.node 1).handed .item).Nodup := by
  obtain ⟨s, hs, h⟩ := Reaches.exists_of_replay step EveryIdReported oneNode_loaded
    (login 1 ++ [.generate 1 .item, .proxyReceive 1, .lose 1] ++ login 1 ++ [.generate 1 .item])
    (by decide)
    (fun s => decide ((s.node 1).handed .item = [1002, 1001])) (by decide)
  exact ⟨s, hs, of_decide_eq_true h, (reported_ids_not_reused hs 1 .item).1⟩

/-- The sync packet of the first id is lost with the link: the second login installs the
old counter and the id is handed out again. -/
theorem unreported_id_reused :
    ∃ s, Reaches step anyStep Loaded s ∧ ¬ ((s.node 1).handed .item).Nodup := by
  obtain ⟨s, hs, h⟩ := Reaches.exists_of_replay step anyStep oneNode_loaded
    (login 1 ++ [.generate 1 .item, .lose 1] ++ login 1 ++ [.generate 1 .item])
    (replayOk_anyStep ..) (fun s => decide ((s.node 1).handed .item = [1001, 1001])) (by decide)
  refine ⟨s, hs, ?_⟩
  rw [of_decide_eq_true h]
  decide

/-! ### Counters near 2^32 -/

theorem ObjectMgr.generate_of_guard {o : ObjectMgr}
    (h : o.counter k < 0xFFFFFFFE) : o.generate k = some (o.advance k) := by
  cases k with
  | item =>
    have hguard : o.hiItemGuid < 0xFFFFFFFE := h
    rw [generate, generateLowGuidItem, if_pos hguard]
  | mail =>
    have hguard : ¬0xFFFFFFFE ≤ o.mailId := Nat.not_le.mpr h
    rw [generate, generateMailID, if_neg hguard]
  | corpse =>
    have hguard : o.hiCorpseGuid < 0xFFFFFFFE := h
    rw [generate, generateLowGuidCorpse, if_pos hguard]

theorem lt_u32_add_iff {counter stride : ℕ} (hcounter : counter < 0xFFFFFFFE)
    (hstride : 1 ≤ stride) (hwide : stride < 2^32) :
    counter < u32 (counter + stride) ↔ counter + stride < 2^32 := by
  unfold u32
  omega

theorem generated_above_counter (o : ObjectMgr) (k : EntityIDType)
    (hguard : o.counter k < 0xFFFFFFFE) (hstride : 1 ≤ o.hiRange) (hwide : o.hiRange < 2^32) :
    (∃ guid o', o.generate k = some (guid, o') ∧ o.counter k < guid) ↔
      o.counter k + o.hiRange < 2^32 := by
  rw [ObjectMgr.generate_of_guard hguard, ← lt_u32_add_iff hguard hstride hwide]
  constructor
  · rintro ⟨guid, o', heq, hlt⟩
    obtain ⟨rfl, _⟩ := Prod.mk.inj (Option.some.inj heq)
    exact hlt
  · intro hlt
    exact ⟨_, _, rfl, hlt⟩

theorem generated_above_counter_last :
    (∃ guid o', (⟨3, 0xFFFFFFFC, 1, 1, false⟩ : ObjectMgr).generate .item = some (guid, o') ∧
      0xFFFFFFFC < guid) ↔ 0xFFFFFFFC + 3 < 2^32 :=
  generated_above_counter ⟨3, 0xFFFFFFFC, 1, 1, false⟩ .item (by decide) (by decide) (by decide)

theorem guarded_item_id_wraps :
    ¬∀ (o : ObjectMgr) (k : EntityIDType), o.counter k < 0xFFFFFFFE → 1 ≤ o.hiRange →
      o.hiRange < 2^32 → ∃ guid o', o.generate k = some (guid, o') ∧ o.counter k < guid := by
  intro h
  obtain ⟨guid, o', heq, hlt⟩ :=
    h ⟨3, 0xFFFFFFFD, 1, 1, false⟩ .item (by decide) (by decide) (by decide)
  obtain ⟨rfl, _⟩ := Prod.mk.inj (Option.some.inj heq)
  exact absurd hlt (by decide)

end HysteriaCore.Cluster
