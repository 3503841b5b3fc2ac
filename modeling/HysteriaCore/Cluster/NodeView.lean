import HysteriaCore.Cluster.Ids

/-!
# What one node's part of the cluster can do

Every event concerns one node. `View` is the part of the state that belongs to a
node: its row of last ids, its process and its control link. `step_facts` says how
an event changes the view of its own node, case by case, and that it changes no
other view.
-/

namespace HysteriaCore.Cluster
open Lib

def Event.target : Event → ℕ
  | .connect n => n
  | .lose n => n
  | .restart n _ => n
  | .proxyReceive n => n
  | .nodeReceive n => n
  | .generate n _ => n

structure View where
  listed : Bool
  last : EntityIDType → ℕ
  node : Node
  link : Option Link

def lastOf (row : Option NodeList) (k : EntityIDType) : ℕ := (row.map fun d => d.last k).getD 0

def view (s : State) (n : ℕ) : View :=
  ⟨(s.proxy.nodelist.getNodeConnectionData n).isSome,
    lastOf (s.proxy.nodelist.getNodeConnectionData n), s.node n, s.link n⟩

/-- The value `SendInitAuthedNode` sends for a kind whose stored last id is `last`. -/
def offered (highest last n : ℕ) : ℕ := if last ≠ 0 then last else firstGUID highest n

theorem offered_idem (highest last n : ℕ) :
    offered highest (offered highest last n) n = offered highest last n := by
  unfold offered
  split_ifs <;> simp_all

inductive ViewStep (highest : EntityIDType → ℕ) (count n : ℕ) : View → Event → View → Prop where
  | connect {v : View} (hd : v.listed = true) (hl : v.link = none) :
      ViewStep highest count n v (.connect n)
        { v with link := some ⟨[], [.authResponse]⟩, node := { v.node with current := false } }
  | lose {v : View} {l : Link} (hl : v.link = some l) :
      ViewStep highest count n v (.lose n)
        { v with link := none, node := { v.node with current := false } }
  | restart {v : View} (mgr : ObjectMgr) :
      ViewStep highest count n v (.restart n mgr)
        { v with link := none, node := ⟨mgr, false, false, v.node.handed⟩ }
  | authResponse {v : View} {toNode : List InitNode} {rest : List NodePacket} {init : InitNode}
      (hd : v.listed = true) (hl : v.link = some ⟨toNode, .authResponse :: rest⟩)
      (hrange : init.hiRange = count)
      (hguid : ∀ k, init.guid k = offered (highest k) (v.last k) n) :
      ViewStep highest count n v (.proxyReceive n)
        { v with last := fun k => offered (highest k) (v.last k) n,
                 link := some ⟨toNode ++ [init], rest⟩ }
  | nodeInitAck {v : View} {toNode : List InitNode} {rest : List NodePacket} {ack : NodeAck}
      (hl : v.link = some ⟨toNode, .nodeInitAck ack :: rest⟩) :
      ViewStep highest count n v (.proxyReceive n) { v with link := some ⟨toNode, rest⟩ }
  | nodeSyncData {v : View} {toNode : List InitNode} {rest : List NodePacket} {k : EntityIDType}
      {guid : ℕ} (hd : v.listed = true)
      (hl : v.link = some ⟨toNode, .nodeSyncData k guid :: rest⟩) :
      ViewStep highest count n v (.proxyReceive n)
        { v with last := Function.update v.last k guid, link := some ⟨toNode, rest⟩ }
  | nodeReceive {v : View} {init : InitNode} {rest : List InitNode} {toProxy : List NodePacket}
      (hl : v.link = some ⟨init :: rest, toProxy⟩) :
      ViewStep highest count n v (.nodeReceive n)
        { v with
          link := some ⟨rest, toProxy ++ [.nodeInitAck (handleLogonInitNode v.node.mgr init).1]⟩,
          node := { v.node with
            mgr := (handleLogonInitNode v.node.mgr init).2,
            initialised := v.node.initialised ||
              decide ((handleLogonInitNode v.node.mgr init).1 = .ok),
            current := decide ((handleLogonInitNode v.node.mgr init).1 = .ok) } }
  | generate {v : View} {k : EntityIDType} {guid : ℕ} {mgr : ObjectMgr}
      (hg : v.node.mgr.generate k = some (guid, mgr)) :
      ViewStep highest count n v (.generate n k)
        { v with
          link := sendGUIDSync v.link k guid,
          node := { v.node with
            mgr, handed := Function.update v.node.handed k (guid :: v.node.handed k) } }

/-! ### Lookups after the table updates -/

@[simp] theorem lastOf_some (d : NodeList) (k : EntityIDType) : lastOf (some d) k = d.last k := rfl

theorem view_setNodelist_of_last (s : State) (l : NodeListList) (n : ℕ)
    (hl : (l.getNodeConnectionData n).isSome = (s.proxy.nodelist.getNodeConnectionData n).isSome)
    (hlast : lastOf (l.getNodeConnectionData n) =
      lastOf (s.proxy.nodelist.getNodeConnectionData n)) :
    view (s.setNodelist l) n = view s n := by
  simp only [view, State.setNodelist, hl, hlast]

theorem view_modify_flags (s : State) (m n : ℕ) (f : NodeList → NodeList)
    (hf : ∀ d k, (f d).last k = d.last k) :
    view (s.setNodelist (s.proxy.nodelist.modify m f)) n = view s n := by
  apply view_setNodelist_of_last
  · rw [NodeListList.getNodeConnectionData_modify, Option.isSome_map]
  · rw [NodeListList.getNodeConnectionData_modify]
    funext k
    cases s.proxy.nodelist.getNodeConnectionData n with
    | none => rfl
    | some d => by_cases h : n = m <;> simp [h, hf]

theorem view_setLast_self (s : State) (n guid : ℕ) (k : EntityIDType)
    (hd : (view s n).listed = true) :
    view (s.setNodelist (s.proxy.nodelist.setLastGUID n k guid)) n =
      { view s n with last := Function.update (view s n).last k guid } := by
  obtain ⟨d, hrow⟩ := Option.isSome_iff_exists.mp hd
  simp only [view, State.setNodelist, NodeListList.setLastGUID,
    NodeListList.getNodeConnectionData_modify, hrow, Option.map_some, Option.isSome_some, ite_true]
  congr 1
  funext k'
  simp only [lastOf_some, NodeList.last_setLast, Function.update_apply]

theorem view_setLast_ne (s : State) (m n guid : ℕ) (k : EntityIDType) (h : n ≠ m) :
    view (s.setNodelist (s.proxy.nodelist.setLastGUID m k guid)) n = view s n := by
  apply view_setNodelist_of_last <;>
    rw [NodeListList.setLastGUID, NodeListList.getNodeConnectionData_modify] <;> simp [h]

@[simp] theorem view_setLink_self (s : State) (n : ℕ) (l : Option Link) :
    view (s.setLink n l) n = { view s n with link := l } := by
  simp [view, State.setLink]

theorem view_setLink_ne (s : State) (m n : ℕ) (l : Option Link) (h : n ≠ m) :
    view (s.setLink m l) n = view s n := by
  simp [view, State.setLink, h]

@[simp] theorem view_setNode_self (s : State) (n : ℕ) (v : Node) :
    view (s.setNode n v) n = { view s n with node := v } := by
  simp [view, State.setNode]

theorem view_setNode_ne (s : State) (m n : ℕ) (v : Node) (h : n ≠ m) :
    view (s.setNode m v) n = view s n := by
  simp [view, State.setNode, h]

@[simp] theorem proxy_setLink (s : State) (n : ℕ) (l : Option Link) :
    (s.setLink n l).proxy = s.proxy := rfl

@[simp] theorem proxy_setNode (s : State) (n : ℕ) (v : Node) :
    (s.setNode n v).proxy = s.proxy := rfl

@[simp] theorem highest_setNodelist (s : State) (l : NodeListList) :
    (s.setNodelist l).proxy.highest = s.proxy.highest := by
  funext k
  cases k <;> rfl

/-! ### The initialisation packet -/

theorem offerGUID_fst (p : Proxy) (n : ℕ) (d : NodeList) (k : EntityIDType) :
    (offerGUID p n d k).1 = offered (p.highest k) (d.last k) n := by
  unfold offerGUID offered
  split_ifs <;> rfl

theorem offerGUID_highest (p : Proxy) (n : ℕ) (d : NodeList) (k : EntityIDType) :
    (offerGUID p n d k).2.highest = p.highest := by
  unfold offerGUID
  split_ifs
  · rfl
  · funext k'
    cases k' <;> rfl

theorem offerGUID_count (p : Proxy) (n : ℕ) (d : NodeList) (k : EntityIDType) :
    (offerGUID p n d k).2.nodelist.getNodeCount = p.nodelist.getNodeCount := by
  unfold offerGUID
  split_ifs
  · rfl
  · exact NodeListList.getNodeCount_modify ..

def State.setProxy (s : State) (p : Proxy) : State := { s with proxy := p }

@[simp] theorem State.proxy_setProxy (s : State) (p : Proxy) : (s.setProxy p).proxy = p := rfl

@[simp] theorem State.setProxy_setProxy (s : State) (p q : Proxy) :
    (s.setProxy p).setProxy q = s.setProxy q := rfl

theorem view_offerGUID (s : State) (n : ℕ) (d : NodeList) (k : EntityIDType)
    (hd : (view s n).listed = true) (hlast : d.last k = (view s n).last k) :
    view (s.setProxy (offerGUID s.proxy n d k).2) n =
      { view s n with
        last := Function.update (view s n).last k
          (offered (s.proxy.highest k) ((view s n).last k) n) } := by
  unfold offerGUID offered
  rw [hlast]
  by_cases h : (view s n).last k = 0
  · rw [if_neg (by simpa using h), if_neg (by simpa using h)]
    generalize firstGUID (s.proxy.highest k) n = guid
    exact view_setLast_self s n guid k hd
  · rw [if_pos h, if_pos h, Function.update_eq_self]
    rfl

theorem view_offerGUID_ne (s : State) (m n : ℕ) (d : NodeList) (k : EntityIDType) (h : n ≠ m) :
    view (s.setProxy (offerGUID s.proxy m d k).2) n = view s n := by
  unfold offerGUID
  generalize firstGUID (s.proxy.highest k) m = guid
  split_ifs
  · rfl
  · exact view_setLast_ne s m n guid k h

theorem sendInitAuthedNode_self (s : State) (n : ℕ) (d : NodeList)
    (hd : s.proxy.nodelist.getNodeConnectionData n = some d) :
    (sendInitAuthedNode s.proxy n d).1.hiRange = s.proxy.nodelist.getNodeCount ∧
      (∀ k, (sendInitAuthedNode s.proxy n d).1.guid k =
        offered (s.proxy.highest k) ((view s n).last k) n) ∧
      view (s.setProxy (sendInitAuthedNode s.proxy n d).2) n =
        { view s n with last := fun k => offered (s.proxy.highest k) ((view s n).last k) n } := by
  have hlisted : (view s n).listed = true := by simp [view, hd]
  have hlast : ∀ k, d.last k = (view s n).last k := fun k => by simp [view, hd]
  refine ⟨rfl, fun k => ?_, ?_⟩
  · cases k <;>
      simp only [sendInitAuthedNode, InitNode.guid, offerGUID_fst, offerGUID_highest, hlast]
  · simp only [sendInitAuthedNode]
    -- one table after the other; the kind written by one is not read by the next
    have h1 := view_offerGUID s n d .item hlisted (hlast .item)
    have hp1 := offerGUID_highest s.proxy n d .item
    generalize (offerGUID s.proxy n d .item).2 = p1 at *
    have h2 := view_offerGUID (s.setProxy p1) n d .mail
      (by rw [h1]; exact hlisted) (by rw [h1]; exact hlast .mail)
    have hp2 := offerGUID_highest p1 n d .mail
    simp only [State.proxy_setProxy, State.setProxy_setProxy] at h2
    generalize (offerGUID p1 n d .mail).2 = p2 at *
    have h3 := view_offerGUID (s.setProxy p2) n d .corpse
      (by rw [h2, h1]; exact hlisted) (by rw [h2, h1]; exact hlast .corpse)
    simp only [State.proxy_setProxy, State.setProxy_setProxy] at h3
    rw [h3, h2, h1, hp2, hp1]
    congr 1
    funext k
    cases k <;> simp

theorem sendInitAuthedNode_ne (s : State) (m n : ℕ) (d : NodeList) (h : n ≠ m) :
    view (s.setProxy (sendInitAuthedNode s.proxy m d).2) n = view s n := by
  simp only [sendInitAuthedNode]
  have h1 := view_offerGUID_ne s m n d .item h
  generalize (offerGUID s.proxy m d .item).2 = p1 at *
  have h2 := view_offerGUID_ne (s.setProxy p1) m n d .mail h
  simp only [State.proxy_setProxy, State.setProxy_setProxy] at h2
  generalize (offerGUID p1 m d .mail).2 = p2 at *
  have h3 := view_offerGUID_ne (s.setProxy p2) m n d .corpse h
  simp only [State.proxy_setProxy, State.setProxy_setProxy] at h3
  rw [h3, h2, h1]

theorem sendInitAuthedNode_highest (p : Proxy) (n : ℕ) (d : NodeList) :
    (sendInitAuthedNode p n d).2.highest = p.highest := by
  simp only [sendInitAuthedNode, offerGUID_highest]

theorem sendInitAuthedNode_count (p : Proxy) (n : ℕ) (d : NodeList) :
    (sendInitAuthedNode p n d).2.nodelist.getNodeCount = p.nodelist.getNodeCount := by
  simp only [sendInitAuthedNode, offerGUID_count]

/-! ### Every event -/

/-- The proxy's loaded values never change, and an event changes the view of its own
node only, in one of the ways of `ViewStep`. -/
structure StepFacts (s t : State) (e : Event) : Prop where
  highest : t.proxy.highest = s.proxy.highest
  count : t.proxy.nodelist.getNodeCount = s.proxy.nodelist.getNodeCount
  target : ViewStep s.proxy.highest s.proxy.nodelist.getNodeCount e.target
    (view s e.target) e (view t e.target)
  others : ∀ n, n ≠ e.target → view t n = view s n

theorem setNodeOffline_view (s : State) (m n : ℕ) :
    view (s.setNodelist (s.proxy.nodelist.setNodeOffline m)) n = view s n :=
  view_modify_flags s m n _ fun _ k => by cases k <;> rfl

theorem setNodeOnline_view (s : State) (m n : ℕ) :
    view (s.setNodelist (s.proxy.nodelist.setNodeOnline m)) n = view s n :=
  view_modify_flags s m n _ fun _ k => by cases k <;> rfl

variable {s t : State} {n : ℕ}

theorem connect_facts (h : connect s n = some t) : StepFacts s t (.connect n) := by
  unfold connect at h
  split at h
  · rename_i d hd hl
    obtain rfl := Option.some.inj h
    refine ⟨rfl, rfl, ?_, fun m (hm : m ≠ n) => ?_⟩
    · simp only [Event.target]
      rw [view_setNode_self, view_setLink_self]
      exact ViewStep.connect (v := view s n) (by simp [view, hd]) hl
    · rw [view_setNode_ne _ _ _ _ hm, view_setLink_ne _ _ _ _ hm]
  · cases h

theorem lose_facts (h : lose s n = some t) : StepFacts s t (.lose n) := by
  unfold lose at h
  split at h
  · rename_i l hl
    obtain rfl := Option.some.inj h
    have hv := setNodeOffline_view
      ((s.setLink n none).setNode n { s.node n with current := false }) n
    simp only [proxy_setNode, proxy_setLink] at hv
    refine ⟨highest_setNodelist .., NodeListList.getNodeCount_modify .., ?_, fun m (hm : m ≠ n) => ?_⟩
    · simp only [Event.target]
      rw [hv, view_setNode_self, view_setLink_self]
      exact ViewStep.lose (v := view s n) hl
    · rw [hv, view_setNode_ne _ _ _ _ hm, view_setLink_ne _ _ _ _ hm]
  · cases h

theorem restart_facts (s : State) (n : ℕ) (mgr : ObjectMgr) :
    StepFacts s (restart s n mgr) (.restart n mgr) := by
  have hv := setNodeOffline_view
    ((s.setLink n none).setNode n ⟨mgr, false, false, (s.node n).handed⟩) n
  simp only [proxy_setNode, proxy_setLink] at hv
  refine ⟨highest_setNodelist .., NodeListList.getNodeCount_modify .., ?_, fun m (hm : m ≠ n) => ?_⟩
  · simp only [Event.target, restart]
    rw [hv, view_setNode_self, view_setLink_self]
    exact ViewStep.restart (v := view s n) mgr
  · rw [restart, hv, view_setNode_ne _ _ _ _ hm, view_setLink_ne _ _ _ _ hm]

theorem nodeReceive_facts (h : nodeReceive s n = some t) : StepFacts s t (.nodeReceive n) := by
  unfold nodeReceive at h
  split at h
  · rename_i init rest toProxy hl
    obtain rfl := Option.some.inj h
    refine ⟨rfl, rfl, ?_, fun m (hm : m ≠ n) => ?_⟩
    · simp only [Event.target]
      rw [view_setNode_self, view_setLink_self]
      exact ViewStep.nodeReceive (v := view s n) hl
    · rw [view_setNode_ne _ _ _ _ hm, view_setLink_ne _ _ _ _ hm]
  · cases h

theorem generate_facts {k : EntityIDType} (h : generate s n k = some t) : StepFacts s t (.generate n k) := by
  obtain ⟨⟨guid, mgr⟩, hg, rfl⟩ := Option.map_eq_some_iff.mp h
  refine ⟨rfl, rfl, ?_, fun m (hm : m ≠ n) => ?_⟩
  · simp only [Event.target]
    rw [view_setNode_self, view_setLink_self]
    exact ViewStep.generate (v := view s n) hg
  · rw [view_setNode_ne _ _ _ _ hm, view_setLink_ne _ _ _ _ hm]

theorem proxyReceive_facts (h : proxyReceive s n = some t) : StepFacts s t (.proxyReceive n) := by
  unfold proxyReceive at h
  split at h
  · rename_i toNode rest d hl hd
    obtain rfl := Option.some.inj h
    obtain ⟨hrange, hguid, hview⟩ := sendInitAuthedNode_self s n d hd
    refine ⟨sendInitAuthedNode_highest .., sendInitAuthedNode_count .., ?_, fun m (hm : m ≠ n) => ?_⟩
    · have hlisted : (view s n).listed = true := by simp [view, hd]
      have hstep : ViewStep s.proxy.highest s.proxy.nodelist.getNodeCount n (view s n)
          (.proxyReceive n) _ := .authResponse hlisted hl hrange hguid
      change ViewStep _ _ n (view s n) _
        (view ((s.setProxy (sendInitAuthedNode s.proxy n d).2).setLink n _) n)
      rw [view_setLink_self, hview]
      exact hstep
    · change view ((s.setProxy (sendInitAuthedNode s.proxy n d).2).setLink n _) m = _
      rw [view_setLink_ne _ _ _ _ hm, sendInitAuthedNode_ne s n m d hm]
  · rename_i toNode rest d hl hd
    obtain rfl := Option.some.inj h
    have hv := setNodeOnline_view (s.setLink n (some ⟨toNode, rest⟩)) n
    simp only [proxy_setLink] at hv
    refine ⟨highest_setNodelist .., NodeListList.getNodeCount_modify .., ?_, fun m (hm : m ≠ n) => ?_⟩
    · simp only [Event.target]
      rw [hv, view_setLink_self]
      exact ViewStep.nodeInitAck (v := view s n) hl
    · rw [hv, view_setLink_ne _ _ _ _ hm]
  · rename_i toNode ack rest d hl hd
    obtain rfl := Option.some.inj h
    refine ⟨rfl, rfl, ?_, fun m (hm : m ≠ n) => ?_⟩
    · simp only [Event.target]
      rw [view_setLink_self]
      exact ViewStep.nodeInitAck (v := view s n) hl
    · rw [view_setLink_ne _ _ _ _ hm]
  · rename_i toNode k guid rest d hl hd
    obtain rfl := Option.some.inj h
    refine ⟨highest_setNodelist .., NodeListList.getNodeCount_modify .., ?_, fun m (hm : m ≠ n) => ?_⟩
    · have hlisted : (view s n).listed = true := by simp [view, hd]
      have hv := view_setLast_self (s.setLink n (some ⟨toNode, rest⟩)) n guid k
        (by rw [view_setLink_self]; exact hlisted)
      simp only [proxy_setLink, view_setLink_self] at hv
      simp only [Event.target]
      rw [hv]
      exact ViewStep.nodeSyncData (v := view s n) hlisted hl
    · have hv := view_setLast_ne (s.setLink n (some ⟨toNode, rest⟩)) n m guid k hm
      simp only [proxy_setLink] at hv
      rw [hv, view_setLink_ne _ _ _ _ hm]
  · cases h

theorem step_facts {e : Event} (h : step s e = some t) : StepFacts s t e := by
  cases e with
  | connect n => exact connect_facts h
  | lose n => exact lose_facts h
  | restart n mgr =>
    obtain rfl := Option.some.inj h
    exact restart_facts s n mgr
  | proxyReceive n => exact proxyReceive_facts h
  | nodeReceive n => exact nodeReceive_facts h
  | generate n k => exact generate_facts h

end HysteriaCore.Cluster
