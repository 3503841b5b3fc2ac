import HysteriaCore.Cluster.Ids
import HysteriaCore.Net.ByteBuffer

/-!
# The bytes of LOGON_INIT_NODE (ControlSessionRoutines.cpp, game/Pool/PoolSession.cpp)

The proxy writes five numbers, 38 rates and 10 skill settings; the node has a list of its own
of what it reads. A float is the number of its 32 bits.
-/

namespace HysteriaCore.Cluster
open Lib Net

/-- `LogonRates` of the proxy and `Rates` of the node, as far as the packet has them. -/
inductive Rate where
  | health
  | powerMana
  | powerRageIncome
  | powerRageLoss
  | powerRunicpowerIncome
  | powerRunicpowerLoss
  | powerFocus
  | powerEnergy
  | skillDiscovery
  | dropItemPoor
  | dropItemNormal
  | dropItemUncommon
  | dropItemRare
  | dropItemEpic
  | dropItemLegendary
  | dropItemArtifact
  | dropItemReferenced
  | dropItemReferencedAmount
  | dropMoney
  | xpKill
  | xpQuest
  | xpExplore
  | repaircost
  | restIngame
  | restOfflineInTavernOrCity
  | restOfflineInWilderness
  | damageFall
  | auctionTime
  | auctionDeposit
  | auctionCut
  | honor
  | miningAmount
  | miningNext
  | talent
  | reputationGain
  | reputationLowlevelKill
  | reputationLowlevelQuest
  | reputationRecruitAFriendBonus
  deriving DecidableEq

inductive SkillConfig where
  | gainCrafting
  | gainDefense
  | gainGathering
  | gainWeapon
  | chanceOrange
  | chanceYellow
  | chanceGreen
  | chanceGrey
  | chanceMiningSteps
  | chanceSkinningSteps
  deriving DecidableEq

def isfinite (bits : ℕ) : Bool := bits / 2^23 % 2^8 ≠ 255

/-! ### The writer -/

structure LogonConfig where
  rate : Rate → { bits : ℕ // bits < 2^32 ∧ isfinite bits = true }
  skill : SkillConfig → { value : ℕ // value < 2^32 }

def sentRates : List Rate :=
  [.health, .powerMana, .powerRageIncome, .powerRageLoss, .powerRunicpowerIncome,
    .powerRunicpowerLoss, .powerFocus, .powerEnergy, .skillDiscovery, .dropItemPoor,
    .dropItemNormal, .dropItemUncommon, .dropItemRare, .dropItemEpic, .dropItemLegendary,
    .dropItemArtifact, .dropItemReferenced, .dropItemReferencedAmount, .dropMoney, .xpKill,
    .xpQuest, .xpExplore, .repaircost, .restIngame, .restOfflineInTavernOrCity,
    .restOfflineInWilderness, .damageFall, .auctionTime, .auctionDeposit, .auctionCut, .honor,
    .miningAmount, .miningNext, .talent, .reputationGain, .reputationLowlevelKill,
    .reputationLowlevelQuest, .reputationRecruitAFriendBonus]

def sentSkills : List SkillConfig :=
  [.gainCrafting, .gainDefense, .gainGathering, .gainWeapon, .chanceOrange, .chanceYellow,
    .chanceGreen, .chanceGrey, .chanceMiningSteps, .chanceSkinningSteps]

def InitNode.fields (m : InitNode) (config : LogonConfig) : List ℕ :=
  [m.hiRange, m.itemGuid, m.mailGuid, m.groupGuid, m.corpseGuid] ++
    sentRates.map (fun r => (config.rate r).val) ++ sentSkills.map fun s => (config.skill s).val

def InitNode.packet (m : InitNode) (config : LogonConfig) : Bytes :=
  (m.fields config).flatMap le32

/-! ### The reader -/

structure NodeState where
  mgr : ObjectMgr
  rate : Rate → ℕ
  skill : SkillConfig → ℕ

/-- `rate_float_value[i]` by its index; the entries 31 and 32 are read and not used. -/
def receivedRates : List (Option Rate) :=
  [some .health, some .powerMana, some .powerRageIncome, some .powerRageLoss,
    some .powerRunicpowerIncome, some .powerRunicpowerLoss, some .powerFocus, some .powerEnergy,
    some .skillDiscovery, some .dropItemPoor, some .dropItemNormal, some .dropItemUncommon,
    some .dropItemRare, some .dropItemEpic, some .dropItemLegendary, some .dropItemArtifact,
    some .dropItemReferenced, some .dropItemReferencedAmount, some .dropMoney, some .xpKill,
    some .xpQuest, some .xpExplore, some .repaircost, some .restIngame,
    some .restOfflineInTavernOrCity, some .restOfflineInWilderness, some .damageFall,
    some .auctionTime, some .auctionDeposit, some .auctionCut, some .honor, none, none,
    some .talent, some .reputationGain, some .reputationLowlevelKill,
    some .reputationLowlevelQuest, some .reputationRecruitAFriendBonus]

def receivedSkills : List (Option SkillConfig) :=
  [some .gainCrafting, some .gainDefense, some .gainGathering, some .gainWeapon,
    some .chanceOrange, some .chanceYellow, some .chanceGreen, some .chanceGrey,
    some .chanceMiningSteps, some .chanceSkinningSteps]

def store {κ : Type} [DecidableEq κ] (names : List (Option κ)) (values : List ℕ) (table : κ → ℕ) :
    κ → ℕ :=
  (names.zip values).foldl
    (fun table entry => match entry.1 with
      | some name => Function.update table name entry.2
      | none => table) table

/-- How the handler ended: `ack` is `none` where an exception left it. -/
structure InitResult where
  ack : Option NodeAck
  node : NodeState
  recvPacket : ByteBuffer

def readWord (node : NodeState) (recvPacket : ByteBuffer) (next : ℕ → ByteBuffer → InitResult) :
    InitResult :=
  match recvPacket.readUInt32 with
  | none => ⟨none, node, recvPacket⟩
  | some (value, recvPacket) => next value recvPacket

def readArray (node : NodeState) (value : ℕ → ℕ) :
    ℕ → List ℕ → ByteBuffer → (List ℕ → ByteBuffer → InitResult) → InitResult
  | 0, values, recvPacket, next => next values recvPacket
  | n + 1, values, recvPacket, next =>
    readWord node recvPacket fun word recvPacket =>
      readArray node value n (values ++ [value word]) recvPacket next

def floatValue (bits : ℕ) : ℕ := if isfinite bits then bits else 0

def NodeAck.failure : EntityIDType → NodeAck
  | .item => .itemGuidFail
  | .mail => .mailGuidFail
  | .corpse => .corpseGuidFail

def installGuid (k : EntityIDType) (node : NodeState) (recvPacket : ByteBuffer)
    (next : NodeState → ByteBuffer → InitResult) : InitResult :=
  readWord node recvPacket fun guid recvPacket =>
    if 0xFFFFFFFE ≤ guid then ⟨some (.failure k), node, recvPacket⟩
    else next { node with mgr := node.mgr.setCounter guid k } recvPacket

def handleInitPacket (node : NodeState) (recvPacket : ByteBuffer) : InitResult :=
  readWord node recvPacket fun hiRange recvPacket =>
  let node := { node with mgr := { node.mgr with hiRange } }
  installGuid .item node recvPacket fun node recvPacket =>
  installGuid .mail node recvPacket fun node recvPacket =>
  readWord node recvPacket fun _groupGuid recvPacket =>
  installGuid .corpse node recvPacket fun node recvPacket =>
  readArray node floatValue 38 [] recvPacket fun rates recvPacket =>
  let node := { node with rate := store receivedRates rates node.rate }
  readArray node id 10 [] recvPacket fun skills recvPacket =>
    ⟨some .ok, { node with skill := store receivedSkills skills node.skill }, recvPacket⟩

end HysteriaCore.Cluster
