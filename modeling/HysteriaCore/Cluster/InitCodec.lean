import HysteriaCore.Cluster.InitHandler
import HysteriaCore.Cluster.NodeView

/-!
# The two lists of LOGON_INIT_NODE

What the proxy writes is read back by the node, field by field.
-/

namespace HysteriaCore.Cluster
open Lib Net

/-! ### An accepted packet -/

theorem handleInitPacket_accepted {node : NodeState} {b : ByteBuffer} {r i m g c : ℕ} {ws : List ℕ}
    (hwords : words b.ahead = r :: i :: m :: g :: c :: ws) (hi : Valid i) (hm : Valid m)
    (hc : Valid c) (h : 48 ≤ ws.length) :
    handleInitPacket node b =
      ⟨some .ok, (((((node.ranged r).counted i .item).counted m .mail).counted c .corpse).rated
        ws).skilled ws, b.skip 212⟩ := by
  have hitem := words_skip hwords
  have hmail := words_skip hitem
  have hgroup := words_skip hmail
  have hcorpse := words_skip hgroup
  have hrest := words_skip hcorpse
  have hrates : 38 ≤ (words (((((b.skip 4).skip 4).skip 4).skip 4).skip 4).ahead).length := by
    rw [hrest]
    omega
  obtain ⟨hread, htail⟩ := readArray_full [] hrates
  have hskills : 10 ≤ (words ((((((b.skip 4).skip 4).skip 4).skip 4).skip 4).skip
      (4 * 38)).ahead).length := by
    rw [htail, hrest, List.length_drop]
    omega
  obtain ⟨hread', _⟩ := readArray_full [] hskills
  rw [handleInitPacket, readWord_cons hwords]
  dsimp only
  rw [installGuid_next hitem hi, installGuid_next hmail hm, readWord_cons hgroup,
    installGuid_next hcorpse hc, hread]
  dsimp only
  rw [hread', htail, hrest, List.map_id]
  rfl

/-! ### What was sent -/

theorem InitNode.length_fields (m : InitNode) (config : LogonConfig) :
    (m.fields config).length = 53 := by
  simp only [fields, List.length_append, List.length_map]
  rfl

def InitNode.Wide (m : InitNode) : Prop :=
  m.hiRange < 2^32 ∧ m.groupGuid < 2^32 ∧ ∀ k, m.guid k < 2^32

theorem InitNode.words_packet {m : InitNode} (hwide : m.Wide) (config : LogonConfig) :
    words (m.packet config) = m.fields config := by
  refine words_flatMap_le32 fun w hw => ?_
  obtain ⟨hrange, hgroup, hguid⟩ := hwide
  simp only [fields, List.mem_append, List.mem_cons, List.not_mem_nil, or_false,
    List.mem_map] at hw
  rcases hw with ((rfl | rfl | rfl | rfl | rfl) | ⟨rate, _, rfl⟩) | ⟨skill, _, rfl⟩
  · exact hrange
  · exact hguid .item
  · exact hguid .mail
  · exact hgroup
  · exact hguid .corpse
  · exact (config.rate rate).property.1
  · exact (config.skill skill).property

theorem floatValue_rate (config : LogonConfig) (rate : Rate) :
    floatValue (config.rate rate).val = (config.rate rate).val := by
  rw [floatValue, if_pos (config.rate rate).property.2]

theorem zip_aligned {κ : Type} (value : κ → ℕ) {received : List (Option κ)} {sent : List κ}
    (h : ∀ entry ∈ received.zip sent, ∀ name, entry.1 = some name → entry.2 = name)
    (hlen : received.length ≤ sent.length) {name : κ} (hmem : some name ∈ received) :
    (some name, value name) ∈ received.zip (sent.map value) := by
  induction received generalizing sent with
  | nil => simp at hmem
  | cons entry received ih =>
    cases sent with
    | nil => simp at hlen
    | cons first sent =>
      rcases List.mem_cons.mp hmem with rfl | htail
      · have hname := h (some name, first) List.mem_cons_self name rfl
        rw [List.map_cons, List.zip_cons_cons, ← hname]
        exact List.mem_cons_self
      · have hrest := ih (fun e he => h e (List.mem_cons_of_mem _ he)) (by simpa using hlen) htail
        exact List.mem_cons_of_mem _ hrest

theorem rates_aligned :
    ∀ entry ∈ receivedRates.zip sentRates, ∀ name, entry.1 = some name → entry.2 = name := by
  decide

theorem skills_aligned :
    ∀ entry ∈ receivedSkills.zip sentSkills, ∀ name, entry.1 = some name → entry.2 = name := by
  decide

/-! ### The round trip -/

structure Decoded (m : InitNode) (config : LogonConfig) (result : InitResult) : Prop where
  ack : result.ack = some .ok
  consumed : result.recvPacket.rpos = (m.packet config).length
  hiRange : result.node.mgr.hiRange = m.hiRange
  counter : ∀ k, result.node.mgr.counter k = m.guid k
  rate : ∀ rate, some rate ∈ receivedRates → rate ∈ sentRates →
    result.node.rate rate = config.rate rate
  skill : ∀ skill, some skill ∈ receivedSkills → skill ∈ sentSkills →
    result.node.skill skill = config.skill skill

theorem packet_decoded {m : InitNode} (hwide : m.Wide) (hvalid : ∀ k, Valid (m.guid k))
    (config : LogonConfig) (node : NodeState) (past : ℕ → UInt8) :
    Decoded m config (handleInitPacket node (packetOf (m.packet config) past)) := by
  let rates := sentRates.map fun rate => (config.rate rate).val
  let skills := sentSkills.map fun skill => (config.skill skill).val
  have hwords : words (packetOf (m.packet config) past).ahead =
      m.hiRange :: m.itemGuid :: m.mailGuid :: m.groupGuid :: m.corpseGuid :: (rates ++ skills) := by
    rw [ahead_packetOf, InitNode.words_packet hwide config]
    rfl
  have hrates : rates.length = 38 := List.length_map _
  have hskills : skills.length = 10 := List.length_map _
  have hlen : 48 ≤ (rates ++ skills).length := by
    rw [List.length_append]
    omega
  have hfloat : rates.map floatValue = rates := by
    rw [List.map_map]
    exact List.map_congr_left fun rate _ => floatValue_rate config rate
  rw [handleInitPacket_accepted hwords (hvalid .item) (hvalid .mail) (hvalid .corpse) hlen]
  refine ⟨rfl, ?_, rfl, fun k => by cases k <;> rfl, ?_, ?_⟩
  · rw [InitNode.packet, length_flatMap_le32, InitNode.length_fields]
    rfl
  · intro rate hreceived _
    refine store_of_mem nodup_receivedRates ?_
    rw [List.take_left' hrates, hfloat]
    exact zip_aligned (fun rate => (config.rate rate).val) rates_aligned le_rfl hreceived
  · intro skill hreceived _
    refine store_of_mem nodup_receivedSkills ?_
    rw [List.drop_left' hrates, List.take_of_length_le hskills.le]
    exact zip_aligned (fun skill => (config.skill skill).val) skills_aligned le_rfl hreceived

theorem installGuid_refused {k : EntityIDType} {node : NodeState} {b : ByteBuffer}
    {next : NodeState → ByteBuffer → InitResult} {guid : ℕ} {ws : List ℕ}
    (hw : words b.ahead = guid :: ws) (hinvalid : ¬Valid guid) :
    installGuid k node b next = ⟨some (.failure k), node, b.skip 4⟩ := by
  rw [installGuid, readWord_cons hw, if_pos (Nat.le_of_not_lt hinvalid)]

theorem handleLogonInitNode_packet {m : InitNode} (hwide : m.Wide) (config : LogonConfig)
    (node : NodeState) (past : ℕ → UInt8) :
    (handleInitPacket node (packetOf (m.packet config) past)).ack =
        some (handleLogonInitNode node.mgr m).1 ∧
      (handleInitPacket node (packetOf (m.packet config) past)).node.mgr =
        (handleLogonInitNode node.mgr m).2 := by
  have hwords : words (packetOf (m.packet config) past).ahead = m.fields config := by
    rw [ahead_packetOf, InitNode.words_packet hwide config]
  have hitem := words_skip hwords
  have hmail := words_skip hitem
  have hcorpse := words_skip (words_skip hmail)
  by_cases hi : Valid m.itemGuid
  case neg =>
    rw [handleInitPacket, readWord_cons hwords]
    dsimp only
    rw [installGuid_refused hitem hi, handleLogonInitNode, if_pos (Nat.le_of_not_lt hi)]
    exact ⟨rfl, rfl⟩
  by_cases hm : Valid m.mailGuid
  case neg =>
    rw [handleInitPacket, readWord_cons hwords]
    dsimp only
    rw [installGuid_next hitem hi, installGuid_refused hmail hm, handleLogonInitNode,
      if_neg (Nat.not_le.mpr hi), if_pos (Nat.le_of_not_lt hm)]
    exact ⟨rfl, rfl⟩
  by_cases hc : Valid m.corpseGuid
  case neg =>
    rw [handleInitPacket, readWord_cons hwords]
    dsimp only
    rw [installGuid_next hitem hi, installGuid_next hmail hm, readWord_cons (words_skip hmail),
      installGuid_refused hcorpse hc, handleLogonInitNode, if_neg (Nat.not_le.mpr hi),
      if_neg (Nat.not_le.mpr hm), if_pos (Nat.le_of_not_lt hc)]
    exact ⟨rfl, rfl⟩
  have hlen : 48 ≤ (sentRates.map (fun r => (config.rate r).val) ++
      sentSkills.map fun s => (config.skill s).val).length := by
    rw [List.length_append, List.length_map, List.length_map]
    decide
  rw [handleInitPacket_accepted hwords hi hm hc hlen, handleLogonInitNode,
    if_neg (Nat.not_le.mpr hi), if_neg (Nat.not_le.mpr hm), if_neg (Nat.not_le.mpr hc)]
  exact ⟨rfl, rfl⟩

/-! ### From the proxy's tables -/

theorem sendInitAuthedNode_recorded {p : Proxy} {n : ℕ} {d : NodeList}
    (hrow : p.nodelist.getNodeConnectionData n = some d) :
    (∀ k, (sendInitAuthedNode p n d).1.guid k = (offerGUID p n d k).1) ∧
      ∃ row, (sendInitAuthedNode p n d).2.nodelist.getNodeConnectionData n = some row ∧
        ∀ k, row.last k = (sendInitAuthedNode p n d).1.guid k := by
  let s : State := ⟨p, fun _ => ⟨⟨0, 0, 0, 0, false⟩, false, false, fun _ => []⟩, fun _ => none⟩
  obtain ⟨_, hguid, hview⟩ := sendInitAuthedNode_self s n d hrow
  have hlast : ∀ k, (view s n).last k = d.last k := fun k => by simp [view, s, hrow]
  have hlisted : (view (s.setProxy (sendInitAuthedNode p n d).2) n).listed = true := by
    rw [hview]
    simp [view, s, hrow]
  obtain ⟨row, hnew⟩ := Option.isSome_iff_exists.mp hlisted
  refine ⟨fun k => ?_, row, hnew, fun k => ?_⟩
  · rw [hguid, hlast, offerGUID_fst]
  · have hrecorded : (view (s.setProxy (sendInitAuthedNode p n d).2) n).last k = row.last k := by
      change lastOf ((sendInitAuthedNode p n d).2.nodelist.getNodeConnectionData n) k = _
      rw [show (sendInitAuthedNode p n d).2.nodelist.getNodeConnectionData n = some row from hnew]
      rfl
    rw [← hrecorded, hview, hguid]

/-- Every setting named by both lists and every counter arrives, where the node accepts the
counters. -/
theorem init_round_trip (p : Proxy) (n : ℕ) (d : NodeList) (config : LogonConfig)
    (node : NodeState) (past : ℕ → UInt8) (hrow : p.nodelist.getNodeConnectionData n = some d)
    (hn : n < 2^32) (hcount : p.nodelist.getNodeCount < 2^32)
    (hoffered : ∀ k, (offerGUID p n d k).1 < 0xFFFFFFFE) :
    let result := handleInitPacket node
      (packetOf ((sendInitAuthedNode p n d).1.packet config) past)
    result.ack = some .ok ∧
      result.recvPacket.rpos = ((sendInitAuthedNode p n d).1.packet config).length ∧
      (∀ rate, some rate ∈ receivedRates → rate ∈ sentRates →
        result.node.rate rate = config.rate rate) ∧
      (∀ skill, some skill ∈ receivedSkills → skill ∈ sentSkills →
        result.node.skill skill = config.skill skill) ∧
      result.node.mgr.hiRange = p.nodelist.getNodeCount ∧
      ∃ row, (sendInitAuthedNode p n d).2.nodelist.getNodeConnectionData n = some row ∧
        ∀ k, result.node.mgr.counter k = row.last k := by
  obtain ⟨hguid, row, hnew, hlast⟩ := sendInitAuthedNode_recorded hrow
  have hvalid : ∀ k, Valid ((sendInitAuthedNode p n d).1.guid k) := by
    intro k
    rw [hguid]
    exact hoffered k
  have hwide : (sendInitAuthedNode p n d).1.Wide :=
    ⟨hcount, hn, fun k => (hvalid k).trans (by decide)⟩
  have hdecoded := packet_decoded hwide hvalid config node past
  refine ⟨hdecoded.ack, hdecoded.consumed, hdecoded.rate, hdecoded.skill, hdecoded.hiRange, row,
    hnew, fun k => ?_⟩
  rw [hdecoded.counter, hlast]

/-! ### Two nodes -/

def listedTwo (hiItemGuid : ℕ) : Proxy :=
  ⟨⟨[(1, ⟨true, false, 0, 0, 0⟩), (2, ⟨true, false, 0, 0, 0⟩)], by decide⟩, hiItemGuid, 500, 40⟩

def plainConfig : LogonConfig := ⟨fun _ => ⟨0x3F800000, by decide⟩, fun _ => ⟨1, by decide⟩⟩

def freshNode : NodeState := ⟨⟨0, 0, 0, 0, false⟩, fun _ => 0, fun _ => 0⟩

theorem init_round_trip_two :
    (handleInitPacket freshNode (packetOf
      ((sendInitAuthedNode (listedTwo 1000) 2 ⟨true, false, 0, 0, 0⟩).1.packet plainConfig)
      fun _ => 0)).node.mgr.hiRange = 2 :=
  (init_round_trip (listedTwo 1000) 2 ⟨true, false, 0, 0, 0⟩ plainConfig freshNode (fun _ => 0)
    rfl (by decide) (by decide) (by intro k; cases k <;> decide)).2.2.2.2.1

theorem handleLogonInitNode_packet_refused :
    (handleInitPacket freshNode (packetOf (InitNode.packet ⟨2, 1000, 0xFFFFFFFE, 0, 40⟩ plainConfig) fun _ => 0)).ack =
      some (.failure .mail) :=
  (handleLogonInitNode_packet ⟨by decide, by decide, by intro k; cases k <;> decide⟩ plainConfig freshNode fun _ => 0).1

/-- The counter of the proxy is in range, the value for node 2 is not and is refused. -/
theorem last_counter_refused :
    ¬∀ (p : Proxy) (n : ℕ) (d : NodeList) (config : LogonConfig) (node : NodeState)
      (past : ℕ → UInt8), p.nodelist.getNodeConnectionData n = some d → n < 0xFFFFFFFE →
      p.nodelist.getNodeCount < 0xFFFFFFFE →
      (∀ k, p.highest k < 0xFFFFFFFE ∧ d.last k < 0xFFFFFFFE) →
      (handleInitPacket node
        (packetOf ((sendInitAuthedNode p n d).1.packet config) past)).recvPacket.rpos =
          ((sendInitAuthedNode p n d).1.packet config).length := by
  intro h
  have hend := h (listedTwo 0xFFFFFFFD) 2 ⟨true, false, 0, 0, 0⟩ plainConfig freshNode (fun _ => 0)
    rfl (by decide) (by decide) (by intro k; cases k <;> decide)
  have hwide : (sendInitAuthedNode (listedTwo 0xFFFFFFFD) 2 ⟨true, false, 0, 0, 0⟩).1.Wide :=
    ⟨by decide, by decide, by intro k; cases k <;> decide⟩
  have hwords := InitNode.words_packet hwide plainConfig
  rw [← ahead_packetOf (InitNode.packet _ _) fun _ => 0] at hwords
  rw [handleInitPacket, readWord_cons hwords] at hend
  dsimp only at hend
  rw [installGuid_refused (words_skip hwords) (by unfold Valid; decide), InitNode.packet,
    length_flatMap_le32, InitNode.length_fields] at hend
  exact absurd hend (by decide)

end HysteriaCore.Cluster
