import HysteriaCore.Cluster.Routing

/-!
# The master node and its backup (shade/Server/RoutingHelper.cpp)

Node 1 is the master. `ConnectToMaster` answers with the node that logins and logouts go
to, and remembers in `m_OnMaster` whether the last switch was away from the master.
-/

namespace HysteriaCore.Cluster
open Lib

structure NodeMap where
  nodeID : ℕ
  backupNodeID : ℕ
  deriving DecidableEq, Repr

abbrev NodeMapList := KeyedList (Prod.fst : ℕ × NodeMap → ℕ)

/-- `GetNodeForID`: the node of the first row whose backup is the given node. -/
def NodeMapList.getNodeForID (m : NodeMapList) (n : ℕ) : ℕ :=
  match m.rows.find? fun row => row.2.backupNodeID = n with
  | some row => row.2.nodeID
  | none => 0

/-- `GetBackupNodeForID`: the backup in the first row of the given node. -/
def NodeMapList.getBackupNodeForID (m : NodeMapList) (n : ℕ) : ℕ :=
  match m.rows.find? fun row => row.2.nodeID = n with
  | some row => row.2.backupNodeID
  | none => 0

structure RoutingHelper where
  maplist : NodeMapList
  nodelist : NodeListList
  onMaster : Bool
  masterNode : ℕ

namespace RoutingHelper

/-- The state `LoadNodeMap` ends with when the table `nodemap` has rows. -/
def loadNodeMap (maplist : NodeMapList) (nodelist : NodeListList) : RoutingHelper :=
  { maplist, nodelist, onMaster := true, masterNode := 1 }

def checkNodeID (r : RoutingHelper) (n : ℕ) : Bool := r.nodelist.checkNodeID n

def connectToMaster (r : RoutingHelper) : ℕ × RoutingHelper :=
  let r := { r with masterNode := 1 }
  if r.checkNodeID r.masterNode then (r.masterNode, r)
  else if r.onMaster then
    let newMasterNode := r.maplist.getBackupNodeForID r.masterNode
    if 0 < newMasterNode ∧ r.checkNodeID newMasterNode then
      (newMasterNode, { r with masterNode := newMasterNode, onMaster := false })
    else (0, r)
  else
    let newMasterNode := r.maplist.getNodeForID r.masterNode
    if 0 < newMasterNode ∧ r.checkNodeID newMasterNode then
      (newMasterNode, { r with masterNode := newMasterNode, onMaster := true })
    else (0, r)

end RoutingHelper

/-- The calls that change a node's `online` flag, and `ConnectToMaster`. -/
inductive RoutingCall where
  | setNodeOnline (n : ℕ)
  | setNodeOffline (n : ℕ)
  | refreshOnlineStat (online : ℕ → Bool)
  | connectToMaster

namespace RoutingHelper

def call (r : RoutingHelper) : RoutingCall → RoutingHelper
  | .setNodeOnline n => { r with nodelist := r.nodelist.setNodeOnline n }
  | .setNodeOffline n => { r with nodelist := r.nodelist.setNodeOffline n }
  | .refreshOnlineStat online => { r with nodelist := r.nodelist.refreshOnlineStat online }
  | .connectToMaster => r.connectToMaster.2

def asked (r : RoutingHelper) : List RoutingCall → List RoutingHelper
  | [] => []
  | .connectToMaster :: rest => r :: asked (r.call .connectToMaster) rest
  | c :: rest => asked (r.call c) rest

/-! ### Who answers for the master -/

structure BacksUpMaster (m : NodeMapList) (b : ℕ) : Prop where
  pos : 0 < b
  exists_row : ∃ row ∈ m, row.2.nodeID = 1
  same : ∀ row ∈ m, row.2.nodeID = 1 → row.2.backupNodeID = b

def AnswersMaster (r : RoutingHelper) (b : ℕ) : Prop :=
  (r.checkNodeID 1 = true → r.connectToMaster.1 = 1) ∧
  (r.checkNodeID 1 = false → r.checkNodeID b = true → r.connectToMaster.1 = b)

/-- When the master is gone and the backup is there, either the last switch was not away
from the master, or node 1 is in turn the backup of `b`. -/
def CanSwitch (r : RoutingHelper) (b : ℕ) : Prop :=
  r.checkNodeID 1 = false → r.checkNodeID b = true →
    r.onMaster = true ∨ r.maplist.getNodeForID 1 = b

instance (r : RoutingHelper) (b : ℕ) : Decidable (CanSwitch r b) :=
  inferInstanceAs (Decidable (_ → _ → _ ∨ _))

theorem getBackupNodeForID_eq {m : NodeMapList} {b : ℕ} (h : BacksUpMaster m b) :
    m.getBackupNodeForID 1 = b := by
  unfold NodeMapList.getBackupNodeForID
  cases hf : m.rows.find? fun row => row.2.nodeID = 1 with
  | none =>
    obtain ⟨row, hrow, h1⟩ := h.exists_row
    have hn := List.find?_eq_none.mp hf row hrow
    simp [h1] at hn
  | some row =>
    have hmem : row ∈ m := List.mem_of_find?_eq_some hf
    have h1 : row.2.nodeID = 1 := by simpa using List.find?_some hf
    exact h.same row hmem h1

@[simp] theorem checkNodeID_mk (m : NodeMapList) (l : NodeListList) (o : Bool) (n k : ℕ) :
    (RoutingHelper.mk m l o n).checkNodeID k = l.checkNodeID k := rfl

variable {r : RoutingHelper}

theorem connectToMaster_of_online (h : r.checkNodeID 1 = true) : r.connectToMaster.1 = 1 := by
  have h1 : r.nodelist.checkNodeID 1 = true := h
  simp only [connectToMaster, checkNodeID_mk, h1, ite_true]

theorem connectToMaster_of_offline (h : r.checkNodeID 1 = false) :
    let n := if r.onMaster then r.maplist.getBackupNodeForID 1 else r.maplist.getNodeForID 1
    r.connectToMaster.1 = if 0 < n ∧ r.checkNodeID n = true then n else 0 := by
  obtain ⟨m, l, onMaster, masterNode⟩ := r
  have h1 : l.checkNodeID 1 = false := h
  cases onMaster with
  | true =>
    simp only [connectToMaster, checkNodeID_mk, h1, Bool.false_eq_true, ite_false, ite_true]
    exact apply_ite Prod.fst _ _ _
  | false =>
    simp only [connectToMaster, checkNodeID_mk, h1, Bool.false_eq_true, ite_false]
    exact apply_ite Prod.fst _ _ _

theorem answersMaster_iff {b : ℕ} (hb : BacksUpMaster r.maplist b) : AnswersMaster r b ↔ CanSwitch r b := by
  have hback := getBackupNodeForID_eq hb
  constructor
  · intro h h1 hon
    have hans := h.2 h1 hon
    rw [connectToMaster_of_offline h1] at hans
    cases hm : r.onMaster with
    | true => exact .inl rfl
    | false =>
      right
      rw [hm] at hans
      simp only [Bool.false_eq_true, ite_false] at hans
      split at hans
      · exact hans
      · have hpos := hb.pos
        omega
  · intro h
    refine ⟨connectToMaster_of_online, fun h1 hon => ?_⟩
    rw [connectToMaster_of_offline h1]
    have hn : (if r.onMaster then r.maplist.getBackupNodeForID 1
        else r.maplist.getNodeForID 1) = b := by
      rcases h h1 hon with hm | hmutual
      · simp only [hm, ite_true, hback]
      · split
        · exact hback
        · exact hmutual
    simp only [hn, hb.pos, hon, and_self, ite_true]

/-! ### Every sequence of calls -/

@[simp] theorem connectToMaster_maplist (r : RoutingHelper) :
    r.connectToMaster.2.maplist = r.maplist := by
  unfold connectToMaster
  dsimp only
  split
  · rfl
  · split <;> split <;> rfl

@[simp] theorem call_maplist (r : RoutingHelper) (c : RoutingCall) :
    (r.call c).maplist = r.maplist := by
  cases c with
  | connectToMaster => exact r.connectToMaster_maplist
  | _ => rfl

theorem maplist_of_mem_asked {r s : RoutingHelper} {cs : List RoutingCall}
    (h : s ∈ r.asked cs) : s.maplist = r.maplist := by
  induction cs generalizing r with
  | nil => exact absurd h List.not_mem_nil
  | cons c cs ih =>
    cases c with
    | connectToMaster =>
      rcases List.mem_cons.mp h with rfl | h
      · rfl
      · exact (ih h).trans (r.call_maplist _)
    | setNodeOnline n => exact (ih h).trans (r.call_maplist (.setNodeOnline n))
    | setNodeOffline n => exact (ih h).trans (r.call_maplist (.setNodeOffline n))
    | refreshOnlineStat f => exact (ih h).trans (r.call_maplist (.refreshOnlineStat f))

/-- In a sequence of calls after the node map was loaded, every `ConnectToMaster` answers
the master or its backup exactly when no call is made while the proxy is away from the
master, the backup is online and the master does not back it up in turn. -/
theorem connectToMaster_answers_iff (m : NodeMapList) (b : ℕ) (hb : BacksUpMaster m b)
    (l : NodeListList) (cs : List RoutingCall) :
    (∀ r ∈ (loadNodeMap m l).asked cs, AnswersMaster r b) ↔
      ∀ r ∈ (loadNodeMap m l).asked cs, CanSwitch r b := by
  refine forall₂_congr fun r hr => answersMaster_iff ?_
  have hm : r.maplist = m := maplist_of_mem_asked hr
  rw [hm]
  exact hb

def oneMap : NodeMapList := ⟨[(0, { nodeID := 1, backupNodeID := 2 })], by decide⟩

def twoNodes (online1 online2 : Bool) : NodeListList :=
  ⟨[(1, { online := online1, canEnter := true, lastItemGUID := 0, lastMailGUID := 0, lastCorpseID := 0 }),
    (2, { online := online2, canEnter := true, lastItemGUID := 0, lastMailGUID := 0, lastCorpseID := 0 })],
    by simp⟩

theorem oneMap_backsUpMaster : BacksUpMaster oneMap 2 := by
  refine ⟨by decide, ⟨_, List.mem_singleton_self _, rfl⟩, ?_⟩
  intro row hrow _
  rw [List.mem_singleton.mp hrow]

/-- A failure of the master, its recovery, and logins before and after both. -/
theorem connectToMaster_answers_once :
    BacksUpMaster oneMap 2 ∧ ∀ r ∈ (loadNodeMap oneMap (twoNodes true true)).asked
      [.connectToMaster, .setNodeOffline 1, .connectToMaster, .refreshOnlineStat fun _ => true,
        .connectToMaster], AnswersMaster r 2 :=
  ⟨oneMap_backsUpMaster,
    (connectToMaster_answers_iff oneMap 2 oneMap_backsUpMaster (twoNodes true true) _).mpr (by decide)⟩

theorem connectToMaster_forgets_backup :
    ¬ ∀ (m : NodeMapList) (b : ℕ), BacksUpMaster m b → ∀ (l : NodeListList) (cs : List RoutingCall),
      ∀ r ∈ (loadNodeMap m l).asked cs, AnswersMaster r b := by
  intro h
  have hall := h oneMap 2 oneMap_backsUpMaster (twoNodes false true)
    [.connectToMaster, .connectToMaster]
  have hlast := hall ((loadNodeMap oneMap (twoNodes false true)).call .connectToMaster)
    (by simp [asked])
  have hans := hlast.2 (by decide) (by decide)
  revert hans
  decide

end RoutingHelper

end HysteriaCore.Cluster
