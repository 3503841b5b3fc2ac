import HysteriaCore.Cluster.Routing
import HysteriaCore.Lib.Runs

/-!
# Cluster-wide ids over the control links

The proxy hands each node a start value and the stride `GetNodeCount()`
(`ControlSession::SendInitAuthedNode`), the node counts on by itself
(`ObjectMgr::GenerateLowGuidWhenNode`, `GenerateMailIDWhenNode`) and reports each
id it uses (`PoolSessionMgr::SendGUIDSync`). A link delivers in order; when it is
lost, everything in flight on it is dropped. One `Event` is one call of a handler,
one generated id, or one change of a link.
-/

namespace HysteriaCore.Cluster
open Lib

/-! ### Proxy side (ControlSessionRoutines.cpp) -/

/-- The proxy's tables: `RoutingHelper` and the maxima read by
`ObjectMgr::SetHighestGuids` (shade/Objects/ObjectMgr.cpp). -/
structure Proxy where
  nodelist : NodeListList
  hiItemGuid : ℕ
  mailid : ℕ
  hiCorpseGuid : ℕ

def Proxy.highest (p : Proxy) : EntityIDType → ℕ
  | .item => p.hiItemGuid
  | .mail => p.mailid
  | .corpse => p.hiCorpseGuid

def firstGUID (highest n : ℕ) : ℕ := u32 (highest + n + (2^32 - 1))

structure InitNode where
  hiRange : ℕ
  itemGuid : ℕ
  mailGuid : ℕ
  groupGuid : ℕ
  corpseGuid : ℕ
  deriving DecidableEq, Repr

def InitNode.guid (m : InitNode) : EntityIDType → ℕ
  | .item => m.itemGuid
  | .mail => m.mailGuid
  | .corpse => m.corpseGuid

/-- `if (uint32 Last = GetNodeConnectionData(_nodeId).Last…) packet << Last; else …`:
the value sent for one kind, and the table after `SetLastGUID`. -/
def offerGUID (p : Proxy) (n : ℕ) (d : NodeList) (k : EntityIDType) : ℕ × Proxy :=
  if d.last k ≠ 0 then (d.last k, p)
  else
    let guid := firstGUID (p.highest k) n
    (guid, { p with nodelist := p.nodelist.setLastGUID n k guid })

/-- `ControlSession::SendInitAuthedNode`. A control session exists for listed nodes
only (`SetupControler`), so the row `d` of the node is always there. The calls for
the three kinds read and write different columns of it. -/
def sendInitAuthedNode (p : Proxy) (n : ℕ) (d : NodeList) : InitNode × Proxy :=
  let (item, p1) := offerGUID p n d .item
  let (mail, p2) := offerGUID p1 n d .mail
  let (corpse, p3) := offerGUID p2 n d .corpse
  (⟨p.nodelist.getNodeCount, item, mail, n, corpse⟩, p3)

/-! ### Node side (game/Globals/ObjectMgr.cpp, game/Pool/PoolSession.cpp) -/

structure ObjectMgr where
  hiRange : ℕ
  hiItemGuid : ℕ
  mailId : ℕ
  hiCorpseGuid : ℕ
  stopEvent : Bool
  deriving DecidableEq, Repr

def ObjectMgr.counter (o : ObjectMgr) : EntityIDType → ℕ
  | .item => o.hiItemGuid
  | .mail => o.mailId
  | .corpse => o.hiCorpseGuid

def ObjectMgr.setCounter (o : ObjectMgr) (v : ℕ) : EntityIDType → ObjectMgr
  | .item => { o with hiItemGuid := v }
  | .mail => { o with mailId := v }
  | .corpse => { o with hiCorpseGuid := v }

@[simp] theorem ObjectMgr.counter_setCounter (o : ObjectMgr) (v : ℕ) (k k' : EntityIDType) :
    (o.setCounter v k).counter k' = if k' = k then v else o.counter k' := by
  cases k <;> cases k' <;> rfl

@[simp] theorem ObjectMgr.hiRange_setCounter (o : ObjectMgr) (v : ℕ) (k : EntityIDType) :
    (o.setCounter v k).hiRange = o.hiRange := by
  cases k <;> rfl

def ObjectMgr.advance (o : ObjectMgr) (k : EntityIDType) : ℕ × ObjectMgr :=
  let guid := u32 (o.counter k + o.hiRange)
  (guid, o.setCounter guid k)

def ObjectMgr.generateLowGuidItem (o : ObjectMgr) : Option (ℕ × ObjectMgr) :=
  if o.hiItemGuid < 0xFFFFFFFE then some (o.advance .item) else none

def ObjectMgr.generateLowGuidCorpse (o : ObjectMgr) : Option (ℕ × ObjectMgr) :=
  if o.hiCorpseGuid < 0xFFFFFFFE then some (o.advance .corpse) else none

/-- `GenerateMailID`. The guard only asks for a shutdown (`World::StopNow`); the id
is handed out all the same. -/
def ObjectMgr.generateMailID (o : ObjectMgr) : ℕ × ObjectMgr :=
  let o := if 0xFFFFFFFE ≤ o.mailId then { o with stopEvent := true } else o
  o.advance .mail

def ObjectMgr.generate (o : ObjectMgr) : EntityIDType → Option (ℕ × ObjectMgr)
  | .item => o.generateLowGuidItem
  | .mail => some o.generateMailID
  | .corpse => o.generateLowGuidCorpse

inductive NodeAck where
  | itemGuidFail
  | mailGuidFail
  | corpseGuidFail
  | ok
  deriving DecidableEq, Repr

/-- `PoolSession::Handle_LOGON_INIT_NODE`: each counter is installed before the next
one is checked. -/
def handleLogonInitNode (o : ObjectMgr) (m : InitNode) : NodeAck × ObjectMgr :=
  let o := { o with hiRange := m.hiRange }
  if 0xFFFFFFFE ≤ m.itemGuid then (.itemGuidFail, o)
  else
    let o := { o with hiItemGuid := m.itemGuid }
    if 0xFFFFFFFE ≤ m.mailGuid then (.mailGuidFail, o)
    else
      let o := { o with mailId := m.mailGuid }
      if 0xFFFFFFFE ≤ m.corpseGuid then (.corpseGuidFail, o)
      else (.ok, { o with hiCorpseGuid := m.corpseGuid })

/-! ### The cluster -/

/-- Packets from a node to the proxy that this part of the protocol uses. -/
inductive NodePacket where
  | authResponse
  | nodeInitAck (ack : NodeAck)
  | nodeSyncData (type : EntityIDType) (guid : ℕ)
  deriving DecidableEq, Repr

/-- A control link that is up, with the packets in flight on it, oldest first. -/
structure Link where
  toNode : List InitNode
  toProxy : List NodePacket
  deriving DecidableEq, Repr

/-- A node process. `initialised` says that some `LOGON_INIT_NODE` was acknowledged
with `NODE_INIT_ACK_OK` since the process started, `current` that it was one on the
link that is up. `handed` lists the ids returned so far, newest first. -/
structure Node where
  mgr : ObjectMgr
  initialised : Bool
  current : Bool
  handed : EntityIDType → List ℕ

/-- `link n = none` when the link of node `n` is down: the node then has no
`PoolSession` and `SendGUIDSync` sends nothing. -/
structure State where
  proxy : Proxy
  node : ℕ → Node
  link : ℕ → Option Link

inductive Event where
  /-- The proxy's control session opens a socket and the node adds a `PoolSession`. -/
  | connect (n : ℕ)
  | lose (n : ℕ)
  /-- The node process ends and is started again with counters of its own. -/
  | restart (n : ℕ) (mgr : ObjectMgr)
  /-- `ControlSession::HandlePacket` on the oldest packet from node `n`. -/
  | proxyReceive (n : ℕ)
  /-- `PoolSession::UpdateServerIO` of node `n` on the oldest packet from the proxy. -/
  | nodeReceive (n : ℕ)
  /-- `GenerateLowGuid(HIGHGUID_ITEM)`, `GenerateMailID` or `GenerateLowGuid(HIGHGUID_CORPSE)`. -/
  | generate (n : ℕ) (k : EntityIDType)
  deriving DecidableEq

def State.setNode (s : State) (n : ℕ) (v : Node) : State :=
  { s with node := Function.update s.node n v }

def State.setLink (s : State) (n : ℕ) (l : Option Link) : State :=
  { s with link := Function.update s.link n l }

def State.setNodelist (s : State) (l : NodeListList) : State :=
  { s with proxy := { s.proxy with nodelist := l } }

/-- `PoolSessionMgr::AddSession_` answers the new session with `SMSG_AUTH_RESPONSE`. -/
def connect (s : State) (n : ℕ) : Option State :=
  match s.proxy.nodelist.getNodeConnectionData n, s.link n with
  | some _, none =>
    some ((s.setLink n (some ⟨[], [.authResponse]⟩)).setNode n { s.node n with current := false })
  | _, _ => none

/-- `ControlSession::Update` on a closing socket, and the end of the `PoolSession`. -/
def lose (s : State) (n : ℕ) : Option State :=
  match s.link n with
  | some _ =>
    some (((s.setLink n none).setNode n { s.node n with current := false }).setNodelist
      (s.proxy.nodelist.setNodeOffline n))
  | none => none

def restart (s : State) (n : ℕ) (mgr : ObjectMgr) : State :=
  ((s.setLink n none).setNode n ⟨mgr, false, false, (s.node n).handed⟩).setNodelist
    (s.proxy.nodelist.setNodeOffline n)

/-- `ControlSession::HandlePacket`. A refused initialisation makes the proxy close the
socket, which it notices later (`lose`). -/
def proxyReceive (s : State) (n : ℕ) : Option State :=
  match s.link n, s.proxy.nodelist.getNodeConnectionData n with
  | some ⟨toNode, .authResponse :: rest⟩, some d =>
    let (init, proxy) := sendInitAuthedNode s.proxy n d
    some ({ s with proxy }.setLink n (some ⟨toNode ++ [init], rest⟩))
  | some ⟨toNode, .nodeInitAck .ok :: rest⟩, some _ =>
    some ((s.setLink n (some ⟨toNode, rest⟩)).setNodelist (s.proxy.nodelist.setNodeOnline n))
  | some ⟨toNode, .nodeInitAck _ :: rest⟩, some _ => some (s.setLink n (some ⟨toNode, rest⟩))
  | some ⟨toNode, .nodeSyncData k guid :: rest⟩, some _ =>
    some ((s.setLink n (some ⟨toNode, rest⟩)).setNodelist (s.proxy.nodelist.setLastGUID n k guid))
  | _, _ => none

def nodeReceive (s : State) (n : ℕ) : Option State :=
  match s.link n with
  | some ⟨init :: rest, toProxy⟩ =>
    let v := s.node n
    let (ack, mgr) := handleLogonInitNode v.mgr init
    some ((s.setLink n (some ⟨rest, toProxy ++ [.nodeInitAck ack]⟩)).setNode n
      { v with mgr, initialised := v.initialised || decide (ack = .ok), current := decide (ack = .ok) })
  | _ => none

def sendGUIDSync (l : Option Link) (k : EntityIDType) (guid : ℕ) : Option Link :=
  l.map fun l => ⟨l.toNode, l.toProxy ++ [.nodeSyncData k guid]⟩

def generate (s : State) (n : ℕ) (k : EntityIDType) : Option State :=
  let v := s.node n
  (v.mgr.generate k).map fun (guid, mgr) =>
    (s.setLink n (sendGUIDSync (s.link n) k guid)).setNode n
      { v with mgr, handed := Function.update v.handed k (guid :: v.handed k) }

def step (s : State) : Event → Option State
  | .connect n => connect s n
  | .lose n => lose s n
  | .restart n mgr => some (restart s n mgr)
  | .proxyReceive n => proxyReceive s n
  | .nodeReceive n => nodeReceive s n
  | .generate n k => generate s n k

/-- The proxy after `LoadNodeList` and `SetHighestGuids`, no link up, no id handed out.
Node id 0 is ruled out (`SendInitAuthedNode`); the counters of the nodes are whatever
their own start left there. -/
structure Loaded (s : State) : Prop where
  nodeId_pos : ∀ row ∈ s.proxy.nodelist, 1 ≤ row.1
  lastItem : ∀ row ∈ s.proxy.nodelist, row.2.lastItemGUID = 0
  lastMail : ∀ row ∈ s.proxy.nodelist, row.2.lastMailGUID = 0
  down : ∀ n, s.link n = none
  fresh : ∀ n, (s.node n).initialised = false ∧ (s.node n).current = false
  none_handed : ∀ n k, (s.node n).handed k = []

end HysteriaCore.Cluster
