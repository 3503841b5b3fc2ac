import HysteriaCore.Lib.KeyedList
import HysteriaCore.Lib.Words

/-!
# The proxy's node list (shade/Server/RoutingHelper.cpp)

One entry per cluster node: whether it may be contacted (`online`), whether it
acknowledged its initialisation (`can_enter`), and the last ids the proxy knows
it to have used. `ENTITYID_GROUP` is left out: every call that would send it is
commented out on both sides of the control link.
-/

namespace HysteriaCore.Cluster
open Lib

inductive EntityIDType where
  | item
  | mail
  | corpse
  deriving DecidableEq, Repr

structure NodeList where
  online : Bool
  canEnter : Bool
  lastItemGUID : ℕ
  lastMailGUID : ℕ
  lastCorpseID : ℕ
  deriving DecidableEq, Repr

def NodeList.last (d : NodeList) : EntityIDType → ℕ
  | .item => d.lastItemGUID
  | .mail => d.lastMailGUID
  | .corpse => d.lastCorpseID

def NodeList.setLast (d : NodeList) (guid : ℕ) : EntityIDType → NodeList
  | .item => { d with lastItemGUID := guid }
  | .mail => { d with lastMailGUID := guid }
  | .corpse => { d with lastCorpseID := guid }

theorem NodeList.last_setLast (d : NodeList) (guid : ℕ) (k k' : EntityIDType) :
    (d.setLast guid k).last k' = if k' = k then guid else d.last k' := by
  cases k <;> cases k' <;> rfl

abbrev NodeListList := KeyedList (Prod.fst : ℕ × NodeList → ℕ)

namespace NodeListList

/-- `RoutingHelper::GetNodeConnectionData`; `none` stands for the entry that is
returned without being filled in when the id is not listed. -/
def getNodeConnectionData (l : NodeListList) (n : ℕ) : Option NodeList := (l.find? n).map Prod.snd

def getNodeCount (l : NodeListList) : ℕ := l.rows.foldl (fun count row => max count row.1) 0

def checkNodeID (l : NodeListList) (n : ℕ) : Bool :=
  match l.getNodeConnectionData n with
  | some d => d.online
  | none => false

def canEnterNodeID (l : NodeListList) (n : ℕ) : Bool :=
  match l.getNodeConnectionData n with
  | some d => d.canEnter
  | none => false

def modify (l : NodeListList) (n : ℕ) (f : NodeList → NodeList) : NodeListList :=
  KeyedList.adjust l n (fun row => (row.1, f row.2)) fun _ => rfl

def setNodeOnline (l : NodeListList) (n : ℕ) : NodeListList :=
  l.modify n fun d => { d with canEnter := true }

def setNodeOffline (l : NodeListList) (n : ℕ) : NodeListList :=
  l.modify n fun d => { d with online := false, canEnter := false }

def setLastGUID (l : NodeListList) (n : ℕ) (k : EntityIDType) (guid : ℕ) : NodeListList :=
  l.modify n fun d => d.setLast guid k

/-- `RoutingHelper::RefreshOnlineStat`: the entries that are offline are read again.
`online` is the column `Online` of the table `nodelist`. -/
def refreshOnlineStat (l : NodeListList) (online : ℕ → Bool) : NodeListList :=
  KeyedList.mapRows l (fun row => (row.1, { row.2 with online := row.2.online || online row.1 }))
    fun _ => rfl

def resetLastGUID (l : NodeListList) : NodeListList :=
  KeyedList.mapRows l (fun row => (row.1, { row.2 with lastItemGUID := 0, lastMailGUID := 0 }))
    fun _ => rfl

theorem getNodeConnectionData_modify (l : NodeListList) (n n' : ℕ) (f : NodeList → NodeList) :
    (l.modify n f).getNodeConnectionData n' =
      (l.getNodeConnectionData n').map fun d => if n' = n then f d else d := by
  simp only [getNodeConnectionData, modify, KeyedList.find?_adjust, Option.map_map]
  refine congrArg (fun g => (KeyedList.find? l n').map g) (funext fun row => ?_)
  by_cases h : n' = n <;> simp [h]

theorem rows_modify (l : NodeListList) (n : ℕ) (f : NodeList → NodeList) :
    (l.modify n f).rows.map Prod.fst = l.rows.map Prod.fst := by
  simp only [modify, KeyedList.adjust, List.map_map]
  refine List.map_congr_left fun row _ => ?_
  by_cases h : row.1 = n <;> simp [h]

theorem getNodeCount_eq (l : NodeListList) : l.getNodeCount = (l.rows.map Prod.fst).foldl max 0 := by
  simp only [getNodeCount, List.foldl_map]

@[simp] theorem getNodeCount_modify (l : NodeListList) (n : ℕ) (f : NodeList → NodeList) :
    (l.modify n f).getNodeCount = l.getNodeCount := by
  simp only [getNodeCount_eq, rows_modify]

theorem le_getNodeCount (l : NodeListList) {n : ℕ} {d : NodeList}
    (h : l.getNodeConnectionData n = some d) : n ≤ l.getNodeCount := by
  obtain ⟨row, hrow, rfl⟩ := Option.map_eq_some_iff.mp h
  obtain ⟨hmem, hkey⟩ := (KeyedList.find?_eq_some_iff l n row).mp hrow
  rw [getNodeCount_eq, ← hkey]
  exact (le_foldl_max _ 0).2 row.1 (List.mem_map_of_mem hmem)

end NodeListList

end HysteriaCore.Cluster
