import HysteriaCore.Client.NodeLink
import HysteriaCore.Lib.Custody
import HysteriaCore.Objects.Registry

/-!
# The life of a player on the proxy (shade/Character/CharacterHandler.cpp, Player.cpp,
SocialMgr.cpp, shade/Server/Client/ClientSession.cpp)

A session asks for a character, the database answers later, and the callback makes the
`Player`. Logout and the destructor of the session take it away. The packets, the friends
themselves, the channels and the guild are not part of the model; the nodes and the database
are in the events.
-/

namespace HysteriaCore.Objects
open Lib Client

/-! ### GUIDs -/

def guidHiPart (guid : ℕ) : ℕ := guid / 2^48 % 2^16

/-- `IsGuidHaveEnPart`: false for items, players, dynamic objects, corpses and groups. -/
def isGuidHaveEnPart (guid : ℕ) : Bool :=
  !decide (guidHiPart guid ∈ [0x4000, 0x0000, 0xF100, 0xF101, 0x1F50])

def guidLoPart (guid : ℕ) : ℕ := if isGuidHaveEnPart guid then guid % 2^24 else guid % 2^32

/-! ### The data -/

structure LoginQueryHolder where
  object : ℕ
  accountId : ℕ
  guid : ℕ
  deriving DecidableEq

/-- What `LoadFromDB` reads of the results: the account of the character's row, its team, and
whether there is a ban. -/
structure LoginResult where
  dbAccountId : Option ℕ
  team : ℕ
  banned : Bool
  deriving DecidableEq

structure Session where
  accountId : ℕ
  flags : FlagWord
  playerLoading : Bool
  player : Option Player
  allowedCharsToLogin : List ℕ
  charLoginCallback : Option LoginQueryHolder

structure PlayerSocial where
  guid : ℕ
  object : ℕ

/-- The sessions by their pointers, the managers, and the results of the queries that ran.
`next` is an address not used so far. `holders` and `deletedHolders` are the history. -/
structure Proxy where
  sessions : ℕ → Option Session
  objectMgr : ObjectMgr
  socialMap : KeyedList PlayerSocial.guid
  results : ℕ → Option LoginResult
  next : ℕ
  holders : List LoginQueryHolder
  deletedHolders : List LoginQueryHolder

namespace Session

def kickPlayer (s : Session) : Session :=
  { s with flags := (s.flags.setFlag .accountKicked).removeFlag .accountReconnect }

def charCanLogin (s : Session) (lowGUID : ℕ) : Bool := decide (lowGUID ∈ s.allowedCharsToLogin)

end Session

namespace Proxy

def initial : Proxy := ⟨fun _ => none, .initial, .empty, fun _ => none, 1, [], []⟩

def store (w : Proxy) (ptr : ℕ) (s : Session) : Proxy :=
  { w with sessions := Function.update w.sessions ptr (some s) }

/-- `HandlePlayerLoginOpcode`. `nodeUp` is `CheckNodeID(_nodeId)`, `initialized` what
`Initialize` returns. -/
def handlePlayerLoginOpcode (w : Proxy) (ptr : ℕ) (s : Session) (playerGuid nodeId : ℕ)
    (nodeUp initialized : Bool) : Proxy :=
  if !nodeUp || (decide (nodeId = 0) && s.playerLoading) then w
  else
    let s := { s with player := none, playerLoading := true }
    if !s.charCanLogin (guidLoPart playerGuid) then w.store ptr s.kickPlayer
    else
      let holder : LoginQueryHolder := ⟨w.next, s.accountId, playerGuid⟩
      let w := { w with next := w.next + 1, holders := holder :: w.holders }
      if !initialized then
        { w with deletedHolders := holder :: w.deletedHolders }.store ptr
          { s with playerLoading := false }
      else w.store ptr { s with charLoginCallback := some holder }

/-- `SocialMgr::LoadFromDB`: the address of the entry, which is made if there is none. -/
def loadSocial (w : Proxy) (guid : ℕ) : ℕ × Proxy :=
  match w.socialMap.find? guid with
  | some social => (social.object, w)
  | none => (w.next, { w with next := w.next + 1, socialMap := w.socialMap.put ⟨guid, w.next⟩ })

def loadFromDB (w : Proxy) (s : Session) (player : Player) (r : LoginResult) :
    Option (Player × Proxy) :=
  if r.dbAccountId ≠ some s.accountId then none
  else if r.banned then none
  else
    let (social, w) := w.loadSocial (guidLoPart player.guid)
    some ({ player with team := r.team, social }, w)

def handlePlayerLogin (w : Proxy) (ptr : ℕ) (s : Session) (holder : LoginQueryHolder)
    (r : LoginResult) : Proxy :=
  let pCurrChar : Player := ⟨w.next, holder.guid, 0, ptr, 0⟩
  let w := { w with next := w.next + 1 }
  match w.loadFromDB s pCurrChar r with
  | none =>
    { w with deletedHolders := holder :: w.deletedHolders }.store ptr
      { s.kickPlayer with playerLoading := false }
  | some (pCurrChar, w) =>
    { w with
      objectMgr := w.objectMgr.playerAdd pCurrChar
      deletedHolders := holder :: w.deletedHolders }.store ptr
      { s with player := some pCurrChar, playerLoading := false }

/-- The part of `ProcessQueryCallbacks` for `_charLoginCallback`. `HandlePlayerLogin` does
not look at the future, which is cancelled behind it. -/
def processQueryCallbacks (w : Proxy) (ptr : ℕ) (s : Session) : Proxy :=
  match s.charLoginCallback with
  | none => w
  | some holder =>
    match w.results holder.object with
    | none => w
    | some r => w.handlePlayerLogin ptr { s with charLoginCallback := none } holder r

def playerLogout (w : Proxy) (ptr : ℕ) (s : Session) : Proxy :=
  match s.player with
  | none => w
  | some player =>
    { w with
      socialMap := w.socialMap.erase (guidLoPart player.guid)
      objectMgr := w.objectMgr.playerRemove player }.store ptr { s with player := none }

/-- `Handle_SMSG_LOGOUT_COMPLETE`; `otherNode` says that the session is not at the master
node. -/
def handleLogoutComplete (w : Proxy) (ptr : ℕ) (s : Session) (otherNode : Bool) : Proxy :=
  if !s.flags.hasFlag .logoutRequest then w
  else
    let w := w.playerLogout ptr s
    if otherNode then
      w.store ptr { s with player := none, flags := FlagWord.setFlag 0 .accountReconnect }
    else w

def destroy (w : Proxy) (ptr : ℕ) (s : Session) : Proxy :=
  let w := w.playerLogout ptr s
  { w with sessions := Function.update w.sessions ptr none }

inductive Event where
  | create (accountId : ℕ) (playerLoading : Bool)
  | charEnum (ptr : ℕ) (chars : List ℕ)
  | logoutRequest (ptr : ℕ)
  | logoutCancel (ptr : ℕ)
  | playerLogin (ptr playerGuid nodeId : ℕ) (nodeUp initialized : Bool)
  | executed (holder : LoginQueryHolder) (r : LoginResult)
  | queryCallbacks (ptr : ℕ)
  | logoutComplete (ptr : ℕ) (otherNode : Bool)
  | destroy (ptr : ℕ)
  | update

/-- The constructor of `ClientSession`, which leaves `m_playerLoading` as the memory has it. -/
def create (w : Proxy) (accountId : ℕ) (playerLoading : Bool) : Proxy :=
  { w with next := w.next + 1 }.store w.next
    ⟨accountId, FlagWord.setFlag 0 .accountReconnect, playerLoading, none, [], none⟩

def step (w : Proxy) : Event → Option Proxy
  | .create accountId playerLoading => some (w.create accountId playerLoading)
  | .charEnum ptr chars =>
    (w.sessions ptr).map fun s => w.store ptr { s with allowedCharsToLogin := chars }
  | .logoutRequest ptr =>
    (w.sessions ptr).map fun s => w.store ptr { s with flags := s.flags.setFlag .logoutRequest }
  | .logoutCancel ptr =>
    (w.sessions ptr).map fun s => w.store ptr { s with flags := s.flags.removeFlag .logoutRequest }
  | .playerLogin ptr playerGuid nodeId nodeUp initialized =>
    (w.sessions ptr).map fun s => w.handlePlayerLoginOpcode ptr s playerGuid nodeId nodeUp initialized
  | .executed holder r =>
    guarded (holder ∈ w.holders ∧ w.results holder.object = none)
      { w with results := Function.update w.results holder.object (some r) }
  | .queryCallbacks ptr => (w.sessions ptr).map fun s => w.processQueryCallbacks ptr s
  | .logoutComplete ptr otherNode =>
    (w.sessions ptr).map fun s => w.handleLogoutComplete ptr s otherNode
  | .destroy ptr => (w.sessions ptr).map fun s => w.destroy ptr s
  | .update => some { w with objectMgr := w.objectMgr.update }

def Starts (w : Proxy) : Prop := w = initial

theorem initial_starts : Starts initial := rfl

/-! ### One player for a session -/

def playerOf (w : Proxy) (ptr : ℕ) : Option Player := (w.sessions ptr).bind Session.player

def awaits (w : Proxy) (ptr : ℕ) : Option LoginQueryHolder :=
  (w.sessions ptr).bind Session.charLoginCallback

def Alive (w : Proxy) (ptr : ℕ) : Prop := (w.sessions ptr).isSome = true

/-- No player is lost or removed twice, none that can be found has a dead session, no holder
is lost or deleted twice, and no player that was not removed has a dead `m_social`. -/
structure Sound (w : Proxy) : Prop where
  removed : ∀ p ∈ w.objectMgr.added, w.objectMgr.removed.count p ≤ 1 ∧
    (¬ w.Alive p.session → w.objectMgr.removed.count p = 1)
  found : ∀ guid p, w.objectMgr.findPlayer guid = some p → w.Alive p.session
  holders : ∀ h ∈ w.holders, w.deletedHolders.count h ≤ 1 ∧
    ((∀ ptr, w.awaits ptr ≠ some h) → w.deletedHolders.count h = 1)
  social : ∀ p ∈ w.objectMgr.added, p ∉ w.objectMgr.removed →
    ∃ e, w.socialMap.find? (guidLoPart p.guid) = some e ∧ e.object = p.social

def NoTwin (w : Proxy) (s : Session) : Prop :=
  ∀ p ∈ s.player, ∀ q ∈ w.objectMgr.added, q ∉ w.objectMgr.removed →
    guidLoPart q.guid = guidLoPart p.guid → q = p

/-- A login request finds neither a player nor a query that it would replace. No player logs
out while another one has the same low GUID. A session is destroyed with no query under way,
and after the registry has let go of its players. -/
def KeepsSound (w : Proxy) : Event → Prop
  | .playerLogin ptr playerGuid nodeId nodeUp initialized =>
    ∀ s ∈ w.sessions ptr, (!nodeUp || (decide (nodeId = 0) && s.playerLoading)) = false →
      s.player = none ∧
        (s.charCanLogin (guidLoPart playerGuid) = true → initialized = true →
          s.charLoginCallback = none)
  | .logoutComplete ptr _ =>
    ∀ s ∈ w.sessions ptr, s.flags.hasFlag .logoutRequest = true → w.NoTwin s
  | .destroy ptr =>
    ∀ s ∈ w.sessions ptr, w.NoTwin s ∧ s.charLoginCallback = none ∧
      ∀ p ∈ w.objectMgr.playerMap.rows, p.session ≠ ptr
  | _ => True

/-! ### One session changes -/

section Store
variable (w : Proxy) (i : ℕ) (s : Session)

theorem playerOf_store : (w.store i s).playerOf = Function.update w.playerOf i s.player :=
  Function.comp_update (fun o => Option.bind o Session.player) w.sessions i (some s)

theorem awaits_store : (w.store i s).awaits = Function.update w.awaits i s.charLoginCallback :=
  Function.comp_update (fun o => Option.bind o Session.charLoginCallback) w.sessions i (some s)

theorem alive_store (j : ℕ) : (w.store i s).Alive j ↔ j = i ∨ w.Alive j := by
  show (Function.update w.sessions i (some s) j).isSome = true ↔ j = i ∨ w.Alive j
  by_cases h : j = i
  · rw [h, Function.update_self]
    simp
  · rw [Function.update_of_ne h]
    simp [h, Alive]

end Store

variable {i : ℕ} {s : Session}

theorem playerOf_eq {w : Proxy} (h : w.sessions i = some s) : w.playerOf i = s.player := by
  rw [playerOf, h]
  rfl

theorem awaits_eq {w : Proxy} (h : w.sessions i = some s) : w.awaits i = s.charLoginCallback := by
  rw [awaits, h]
  rfl

theorem alive_of_eq {w : Proxy} (h : w.sessions i = some s) : w.Alive i := by
  rw [Alive, h]
  rfl

variable {p : Player}

theorem alive_of_playerOf {w : Proxy} (h : w.playerOf i = some p) : w.Alive i := by
  obtain ⟨s, hs, -⟩ := Option.bind_eq_some_iff.mp h
  exact alive_of_eq hs

/-! ### The invariant -/

structure LifeInv (w : Proxy) : Prop where
  players : Custody w.playerOf w.objectMgr.added w.objectMgr.removed
  home : ∀ i p, w.playerOf i = some p → p.session = i
  holders : Custody w.awaits w.holders w.deletedHolders
  idle : ∀ i h, w.awaits i = some h → w.playerOf i = none
  freshPlayer : ∀ p ∈ w.objectMgr.added, p.object < w.next
  freshHolder : ∀ h ∈ w.holders, h.object < w.next
  freshSession : ∀ i, w.Alive i → i < w.next
  found : ∀ g p, w.objectMgr.playerMap.find? g = some p → p.guid = g ∧ w.Alive p.session
  queued : ∀ p ∈ w.objectMgr.newPlayer, p ∈ w.objectMgr.added ∧
    (p ∈ w.objectMgr.removed → p ∈ w.objectMgr.delPlayer)
  social : ∀ p ∈ w.objectMgr.added, p ∉ w.objectMgr.removed →
    ∃ e, w.socialMap.find? (guidLoPart p.guid) = some e ∧ e.object = p.social

theorem LifeInv.sound {w : Proxy} (h : LifeInv w) : Sound w where
  removed p hp := by
    refine ⟨h.players.count_le_one p, fun hdead => h.players.count_eq_one hp fun i hi => hdead ?_⟩
    rw [h.home i p hi]
    exact alive_of_playerOf hi
  found g p hp := (h.found g p hp).2
  holders x hx := ⟨h.holders.count_le_one x, h.holders.count_eq_one hx⟩
  social := h.social

theorem alive_store_iff {w : Proxy} (hs : w.sessions i = some s) (s' : Session)
    (j : ℕ) : (w.store i s').Alive j ↔ w.Alive j := by
  rw [alive_store]
  exact ⟨fun hj => hj.elim (fun hj => hj ▸ alive_of_eq hs) id, .inr⟩

variable {s s' : Session}

theorem LifeInv.of_store {w t : Proxy} (h : LifeInv w)
    (hs : w.sessions i = some s) (hsessions : t.sessions = w.sessions) (hnext : w.next ≤ t.next)
    (hmap : t.objectMgr.playerMap = w.objectMgr.playerMap)
    (players : Custody (Function.update w.playerOf i s'.player) t.objectMgr.added
      t.objectMgr.removed)
    (home : ∀ p, s'.player = some p → p.session = i)
    (holders : Custody (Function.update w.awaits i s'.charLoginCallback) t.holders t.deletedHolders)
    (idle : ∀ x, s'.charLoginCallback = some x → s'.player = none)
    (freshPlayer : ∀ p ∈ t.objectMgr.added, p.object < t.next)
    (freshHolder : ∀ x ∈ t.holders, x.object < t.next)
    (queued : ∀ p ∈ t.objectMgr.newPlayer, p ∈ t.objectMgr.added ∧
      (p ∈ t.objectMgr.removed → p ∈ t.objectMgr.delPlayer))
    (social : ∀ p ∈ t.objectMgr.added, p ∉ t.objectMgr.removed →
      ∃ e, t.socialMap.find? (guidLoPart p.guid) = some e ∧ e.object = p.social) :
    LifeInv (t.store i s') := by
  have hpo : (t.store i s').playerOf = Function.update w.playerOf i s'.player := by
    rw [playerOf_store]
    unfold playerOf
    rw [hsessions]
  have haw : (t.store i s').awaits = Function.update w.awaits i s'.charLoginCallback := by
    rw [awaits_store]
    unfold awaits
    rw [hsessions]
  have hal : ∀ j, (t.store i s').Alive j ↔ w.Alive j := by
    intro j
    rw [alive_store_iff (hsessions ▸ hs), Alive, Alive, hsessions]
  refine ⟨by rw [hpo]; exact players, ?_, by rw [haw]; exact holders, ?_, freshPlayer, freshHolder,
    fun j hj => Nat.lt_of_lt_of_le (h.freshSession j ((hal j).mp hj)) hnext, ?_, queued, social⟩
  · intro j p hp
    rw [hpo] at hp
    by_cases hj : j = i
    · subst hj
      exact home p (by rwa [Function.update_self] at hp)
    · exact h.home j p (by rwa [Function.update_of_ne hj] at hp)
  · intro j x hx
    rw [haw] at hx
    rw [hpo]
    by_cases hj : j = i
    · subst hj
      rw [Function.update_self] at hx ⊢
      exact idle x hx
    · rw [Function.update_of_ne hj] at hx ⊢
      exact h.idle j x hx
  · intro g p hp
    have hold := h.found g p (hmap ▸ hp)
    exact ⟨hold.1, (hal _).mpr hold.2⟩

theorem LifeInv.store_same {w : Proxy} (h : LifeInv w)
    (hs : w.sessions i = some s) (hplayer : s'.player = s.player)
    (hlogin : s'.charLoginCallback = s.charLoginCallback) : LifeInv (w.store i s') := by
  have hpo : w.playerOf i = s'.player := (playerOf_eq hs).trans hplayer.symm
  have haw : w.awaits i = s'.charLoginCallback := (awaits_eq hs).trans hlogin.symm
  refine h.of_store hs rfl (Nat.le_refl _) rfl ?_ (fun p hp => h.home i p (hpo.trans hp)) ?_
    (fun x hx => hpo.symm.trans (h.idle i x (haw.trans hx))) h.freshPlayer h.freshHolder h.queued
    h.social
  · rw [← hpo, Function.update_eq_self]
    exact h.players
  · rw [← haw, Function.update_eq_self]
    exact h.holders

theorem LifeInv.grow {w : Proxy} (h : LifeInv w) {k : ℕ} {m : KeyedList PlayerSocial.guid}
    (hnext : w.next ≤ k)
    (hkept : ∀ g e, w.socialMap.find? g = some e → m.find? g = some e) :
    LifeInv { w with next := k, socialMap := m } :=
  { h with
    freshPlayer := fun p hp => Nat.lt_of_lt_of_le (h.freshPlayer p hp) hnext
    freshHolder := fun x hx => Nat.lt_of_lt_of_le (h.freshHolder x hx) hnext
    freshSession := fun i hi => Nat.lt_of_lt_of_le (h.freshSession i hi) hnext
    social := fun p hp hr => (h.social p hp hr).imp fun _ he => ⟨hkept _ _ he.1, he.2⟩ }

theorem LifeInv.bump {w : Proxy} (h : LifeInv w) : LifeInv { w with next := w.next + 1 } :=
  h.grow (Nat.le_succ _) fun _ _ => id

theorem LifeInv.create {w : Proxy} (h : LifeInv w) (hplayer : s.player = none)
    (hlogin : s.charLoginCallback = none) :
    LifeInv ({ w with next := w.next + 1 }.store w.next s) := by
  have hb := h.bump
  have hdead : w.sessions w.next = none := by
    by_contra hne
    exact Nat.lt_irrefl _ (h.freshSession w.next (Option.isSome_iff_ne_none.mpr hne))
  have hpo : ({ w with next := w.next + 1 }.store w.next s).playerOf = w.playerOf := by
    have hnone : w.playerOf w.next = none := by
      rw [playerOf, hdead]
      rfl
    rw [playerOf_store, hplayer, ← hnone]
    exact Function.update_eq_self w.next w.playerOf
  have haw : ({ w with next := w.next + 1 }.store w.next s).awaits = w.awaits := by
    have hnone : w.awaits w.next = none := by
      rw [awaits, hdead]
      rfl
    rw [awaits_store, hlogin, ← hnone]
    exact Function.update_eq_self w.next w.awaits
  have hal := alive_store { w with next := w.next + 1 } w.next s
  exact { hb with
    players := by rw [hpo]; exact h.players
    home := by rw [hpo]; exact h.home
    holders := by rw [haw]; exact h.holders
    idle := by rw [hpo, haw]; exact h.idle
    freshSession := fun j hj => ((hal j).mp hj).elim (fun hj => hj ▸ Nat.lt_succ_self _)
      (hb.freshSession j)
    found := fun g p hp => ⟨(h.found g p hp).1, (hal _).mpr (.inr (h.found g p hp).2)⟩ }

theorem LifeInv.new_holder {w : Proxy} (h : LifeInv w) (accountId guid : ℕ) :
    (⟨w.next, accountId, guid⟩ : LoginQueryHolder) ∉ w.holders :=
  fun hx => Nat.lt_irrefl _ (h.freshHolder _ hx)

theorem LifeInv.waste {w : Proxy} (h : LifeInv w) (accountId guid : ℕ) :
    LifeInv { w with
      next := w.next + 1
      holders := ⟨w.next, accountId, guid⟩ :: w.holders
      deletedHolders := ⟨w.next, accountId, guid⟩ :: w.deletedHolders } := by
  have hb := h.bump
  refine { hb with holders := h.holders.waste (h.new_holder accountId guid), freshHolder := ?_ }
  intro x hx
  rcases List.mem_cons.mp hx with rfl | hx
  · exact Nat.lt_succ_self _
  · exact hb.freshHolder x hx

theorem LifeInv.request {w : Proxy} (h : LifeInv w) {accountId guid : ℕ}
    (hs : w.sessions i = some s) (hplayer : s.player = none) (hlogin : s.charLoginCallback = none)
    (hplayer' : s'.player = none) (hlogin' : s'.charLoginCallback = some ⟨w.next, accountId, guid⟩) :
    LifeInv ({ w with
      next := w.next + 1
      holders := ⟨w.next, accountId, guid⟩ :: w.holders }.store i s') := by
  have hb := h.bump
  have hpo : w.playerOf i = none := (playerOf_eq hs).trans hplayer
  have haw : w.awaits i = none := (awaits_eq hs).trans hlogin
  refine h.of_store hs rfl (Nat.le_succ _) rfl ?_ (by simp [hplayer']) ?_ (fun _ _ => hplayer')
    hb.freshPlayer ?_ h.queued h.social
  · rw [hplayer', ← hpo, Function.update_eq_self]
    exact h.players
  · rw [hlogin']
    exact h.holders.take haw (h.new_holder accountId guid)
  · exact List.forall_mem_cons.mpr ⟨Nat.lt_succ_self _, hb.freshHolder⟩

variable {x : LoginQueryHolder}

theorem LifeInv.failed {w : Proxy} (h : LifeInv w)
    (hs : w.sessions i = some s) (hlogin : s.charLoginCallback = some x)
    (hplayer' : s'.player = s.player) (hlogin' : s'.charLoginCallback = none) :
    LifeInv ({ w with deletedHolders := x :: w.deletedHolders }.store i s') := by
  have hpo : w.playerOf i = s'.player := (playerOf_eq hs).trans hplayer'.symm
  have haw : w.awaits i = some x := (awaits_eq hs).trans hlogin
  refine h.of_store hs rfl (Nat.le_refl _) rfl ?_ (fun p hp => h.home i p (hpo.trans hp)) ?_
    (by simp [hlogin']) h.freshPlayer h.freshHolder h.queued h.social
  · rw [← hpo, Function.update_eq_self]
    exact h.players
  · rw [hlogin']
    exact h.holders.drop haw

theorem LifeInv.login {w : Proxy} (h : LifeInv w)
    {e : PlayerSocial} (hs : w.sessions i = some s)
    (hlogin : s.charLoginCallback = some x) (hnew : p ∉ w.objectMgr.added) (hfresh : p.object < w.next)
    (hhome : p.session = i) (he : w.socialMap.find? (guidLoPart p.guid) = some e)
    (hsocial : e.object = p.social) (hplayer' : s'.player = some p)
    (hlogin' : s'.charLoginCallback = none) :
    LifeInv ({ w with
      objectMgr := w.objectMgr.playerAdd p
      deletedHolders := x :: w.deletedHolders }.store i s') := by
  have haw : w.awaits i = some x := (awaits_eq hs).trans hlogin
  have hpo : w.playerOf i = none := h.idle i x haw
  refine h.of_store hs rfl (Nat.le_refl _) rfl ?_ ?_ ?_ (by simp [hlogin'])
    (List.forall_mem_cons.mpr ⟨hfresh, h.freshPlayer⟩) h.freshHolder ?_ ?_
  · rw [hplayer']
    exact h.players.take hpo hnew
  · rintro q hq
    rw [hplayer'] at hq
    cases hq
    exact hhome
  · rw [hlogin']
    exact h.holders.drop haw
  · intro q hq
    rcases List.mem_append.mp hq with hq | hq
    · exact ⟨.tail _ (h.queued q hq).1, (h.queued q hq).2⟩
    · rw [List.mem_singleton.mp hq]
      exact ⟨.head _, fun hr => absurd (h.players.made_of_disposed p hr) hnew⟩
  · exact List.forall_mem_cons.mpr ⟨fun _ => ⟨e, he, hsocial⟩, h.social⟩

theorem LifeInv.logout {w : Proxy} (h : LifeInv w) (hs : w.sessions i = some s)
    (htwin : w.NoTwin s) : LifeInv (w.playerLogout i s) := by
  unfold playerLogout
  cases hplayer : s.player with
  | none => exact h
  | some p =>
    have hpo : w.playerOf i = some p := (playerOf_eq hs).trans hplayer
    have haw : w.awaits i = s.charLoginCallback := awaits_eq hs
    refine h.of_store hs rfl (Nat.le_refl _) rfl (h.players.drop hpo) nofun ?_ (fun _ _ => rfl)
      h.freshPlayer h.freshHolder ?_ ?_
    · dsimp only
      rw [← haw, Function.update_eq_self]
      exact h.holders
    · intro q hq
      refine ⟨(h.queued q hq).1, fun hr => List.mem_append.mpr ?_⟩
      rcases List.mem_cons.mp hr with rfl | hr
      · exact .inr (.head _)
      · exact .inl ((h.queued q hq).2 hr)
    · intro q hq hr
      obtain ⟨hne, hr⟩ := not_or.mp (mt List.mem_cons.mpr hr)
      obtain ⟨e, he, hsocial⟩ := h.social q hq hr
      refine ⟨e, ?_, hsocial⟩
      show (w.socialMap.erase (guidLoPart p.guid)).find? (guidLoPart q.guid) = some e
      rw [KeyedList.find?_erase, if_neg fun hlow => hne (htwin p hplayer q hq hr hlow)]
      exact he

theorem LifeInv.delete {w : Proxy} (h : LifeInv w) (hplayer : w.playerOf i = none)
    (hlogin : w.awaits i = none) (hfound : ∀ p ∈ w.objectMgr.playerMap.rows, p.session ≠ i) :
    LifeInv { w with sessions := Function.update w.sessions i none } := by
  have hpo : ({ w with sessions := Function.update w.sessions i none } : Proxy).playerOf =
      w.playerOf := by
    have hupdate : ({ w with sessions := Function.update w.sessions i none } : Proxy).playerOf =
        Function.update w.playerOf i none :=
      Function.comp_update (fun o => Option.bind o Session.player) w.sessions i none
    rw [hupdate, ← hplayer, Function.update_eq_self]
  have haw : ({ w with sessions := Function.update w.sessions i none } : Proxy).awaits = w.awaits := by
    have hupdate : ({ w with sessions := Function.update w.sessions i none } : Proxy).awaits =
        Function.update w.awaits i none :=
      Function.comp_update (fun o => Option.bind o Session.charLoginCallback) w.sessions i none
    rw [hupdate, ← hlogin, Function.update_eq_self]
  refine { h with
    players := by rw [hpo]; exact h.players
    home := by rw [hpo]; exact h.home
    holders := by rw [haw]; exact h.holders
    idle := by rw [hpo, haw]; exact h.idle
    freshSession := ?_
    found := ?_ }
  · intro j hj
    change (Function.update w.sessions i none j).isSome = true at hj
    refine h.freshSession j ?_
    by_cases hji : j = i
    · rw [hji, Function.update_self] at hj
      cases hj
    · rwa [Function.update_of_ne hji] at hj
  · intro g p hp
    obtain ⟨hguid, halive⟩ := h.found g p hp
    have hne : p.session ≠ i := hfound p ((KeyedList.find?_eq_some_iff ..).mp hp).1
    refine ⟨hguid, ?_⟩
    show (Function.update w.sessions i none p.session).isSome = true
    rw [Function.update_of_ne hne]
    exact halive

theorem LifeInv.update {w : Proxy} (h : LifeInv w) :
    LifeInv { w with objectMgr := w.objectMgr.update } := by
  obtain ⟨m, c, d, hupdate, hfind⟩ := w.objectMgr.update_spec
  rw [hupdate]
  refine { h with found := ?_, queued := nofun }
  intro g p hp
  obtain ⟨horigin, hgone⟩ := hfind g p hp
  rcases horigin with hold | hnew
  · exact h.found g p hold
  · have hguid : p.guid = g := ((KeyedList.find?_eq_some_iff ..).mp hp).2
    obtain ⟨hadded, hqueued⟩ := h.queued p hnew
    have hr : p ∉ w.objectMgr.removed := fun hr => hgone p (hqueued hr) hguid
    obtain ⟨j, hj⟩ := h.players.held_of_open p hadded hr
    refine ⟨hguid, ?_⟩
    rw [h.home j p hj]
    exact alive_of_playerOf hj

/-! ### Each call -/

theorem LifeInv.handlePlayerLoginOpcode {w : Proxy} (h : LifeInv w)
    (hs : w.sessions i = some s) {playerGuid nodeId : ℕ} {nodeUp initialized : Bool}
    (hok : (!nodeUp || (decide (nodeId = 0) && s.playerLoading)) = false →
      s.player = none ∧
        (s.charCanLogin (guidLoPart playerGuid) = true → initialized = true →
          s.charLoginCallback = none)) :
    LifeInv (w.handlePlayerLoginOpcode i s playerGuid nodeId nodeUp initialized) := by
  unfold Proxy.handlePlayerLoginOpcode
  split
  · exact h
  · rename_i hpassed
    obtain ⟨hplayer, hlogin⟩ := hok (Bool.eq_false_iff.mpr hpassed)
    dsimp only
    split
    · exact h.store_same hs hplayer.symm rfl
    · rename_i hallowed
      have hcan : s.charCanLogin (guidLoPart playerGuid) = true := by
        simpa [Session.charCanLogin] using hallowed
      cases initialized with
      | false => exact (h.waste s.accountId playerGuid).store_same hs hplayer.symm rfl
      | true => exact h.request hs hplayer (hlogin hcan rfl) rfl rfl

theorem loadSocial_spec (w : Proxy) (guid : ℕ) :
    ∃ (m : KeyedList PlayerSocial.guid) (k : ℕ) (e : PlayerSocial),
      w.loadSocial guid = (e.object, { w with next := k, socialMap := m }) ∧ w.next ≤ k ∧
        m.find? guid = some e ∧ ∀ g e', w.socialMap.find? g = some e' → m.find? g = some e' := by
  unfold loadSocial
  cases hfind : w.socialMap.find? guid with
  | some e => exact ⟨w.socialMap, w.next, e, rfl, Nat.le_refl _, hfind, fun _ _ => id⟩
  | none =>
    refine ⟨w.socialMap.put ⟨guid, w.next⟩, w.next + 1, ⟨guid, w.next⟩, rfl, Nat.le_succ _,
      (KeyedList.find?_put ..).trans (if_pos rfl), fun g e' he' => ?_⟩
    have hne : guid ≠ g := fun heq => by simp [← heq, hfind] at he'
    rw [KeyedList.find?_put, if_neg hne]
    exact he'

theorem loadFromDB_eq (w : Proxy) (s : Session) (p : Player) (r : LoginResult) :
    w.loadFromDB s p r = none ∨ w.loadFromDB s p r =
      some ({ p with team := r.team, social := (w.loadSocial (guidLoPart p.guid)).1 },
        (w.loadSocial (guidLoPart p.guid)).2) := by
  unfold loadFromDB
  split_ifs
  · exact .inl rfl
  · exact .inl rfl
  · exact .inr rfl

theorem handlePlayerLogin_cases (w : Proxy) (i : ℕ) (s : Session) (x : LoginQueryHolder)
    (r : LoginResult) :
    w.handlePlayerLogin i s x r =
        { w with next := w.next + 1, deletedHolders := x :: w.deletedHolders }.store i
          { s.kickPlayer with playerLoading := false } ∨
      ∃ (m : KeyedList PlayerSocial.guid) (k : ℕ) (e : PlayerSocial) (p : Player),
        w.handlePlayerLogin i s x r =
            { w with
              next := k
              socialMap := m
              objectMgr := w.objectMgr.playerAdd p
              deletedHolders := x :: w.deletedHolders }.store i
              { s with player := some p, playerLoading := false } ∧
          w.next < k ∧ (∀ g e', w.socialMap.find? g = some e' → m.find? g = some e') ∧
          p.object = w.next ∧ p.session = i ∧ m.find? (guidLoPart p.guid) = some e ∧
          e.object = p.social := by
  obtain ⟨m, k, e, hload, hle, he, hkept⟩ :=
    loadSocial_spec { w with next := w.next + 1 } (guidLoPart x.guid)
  unfold handlePlayerLogin
  dsimp only
  rcases loadFromDB_eq { w with next := w.next + 1 } s ⟨w.next, x.guid, 0, i, 0⟩ r with heq | heq
  · left
    rw [heq]
  · right
    rw [heq, hload]
    exact ⟨m, k, e, _, rfl, hle, hkept, rfl, rfl, he, rfl⟩

theorem LifeInv.handlePlayerLogin {w : Proxy} (h : LifeInv w)
    (hs : w.sessions i = some s) (hlogin : s.charLoginCallback = some x)
    (r : LoginResult) :
    LifeInv (w.handlePlayerLogin i { s with charLoginCallback := none } x r) := by
  rcases w.handlePlayerLogin_cases i { s with charLoginCallback := none } x r with
    heq | ⟨m, k, e, p, heq, hlt, hkept, hobject, hsession, he, hsocial⟩
  · rw [heq]
    exact h.bump.failed hs hlogin rfl rfl
  · rw [heq]
    have hnew : p ∉ w.objectMgr.added := by
      intro hadded
      exact absurd (h.freshPlayer p hadded) (by omega)
    exact (h.grow hlt.le hkept).login hs hlogin hnew (hobject ▸ hlt) hsession he hsocial rfl rfl

theorem sessions_playerLogout {w : Proxy} (hs : w.sessions i = some s) :
    (w.playerLogout i s).sessions i = some { s with player := none } := by
  unfold playerLogout
  cases hplayer : s.player with
  | none =>
    show w.sessions i = _
    rw [hs, ← hplayer]
  | some p => exact Function.update_self ..

theorem playerMap_playerLogout (w : Proxy) (i : ℕ) (s : Session) :
    (w.playerLogout i s).objectMgr.playerMap = w.objectMgr.playerMap := by
  unfold playerLogout
  cases s.player <;> rfl

theorem LifeInv.handleLogoutComplete {w : Proxy} (h : LifeInv w)
    (hs : w.sessions i = some s) {otherNode : Bool}
    (hok : s.flags.hasFlag .logoutRequest = true → w.NoTwin s) :
    LifeInv (w.handleLogoutComplete i s otherNode) := by
  unfold Proxy.handleLogoutComplete
  split
  · exact h
  · rename_i hflag
    have hout := h.logout hs (hok (by simpa using hflag))
    cases otherNode with
    | false => exact hout
    | true => exact hout.store_same (sessions_playerLogout hs) rfl rfl

theorem LifeInv.destroy {w : Proxy} (h : LifeInv w)
    (hs : w.sessions i = some s) (htwin : w.NoTwin s) (hlogin : s.charLoginCallback = none)
    (hfound : ∀ p ∈ w.objectMgr.playerMap.rows, p.session ≠ i) : LifeInv (w.destroy i s) := by
  have hout := sessions_playerLogout hs
  refine (h.logout hs htwin).delete (playerOf_eq hout) ((awaits_eq hout).trans hlogin) ?_
  rw [playerMap_playerLogout]
  exact hfound

theorem LifeInv.step {w t : Proxy} {e : Event} (h : LifeInv w) (hok : w.KeepsSound e)
    (ht : w.step e = some t) : LifeInv t := by
  cases e with
  | create accountId playerLoading =>
    cases ht
    exact h.create rfl rfl
  | charEnum i chars =>
    obtain ⟨s, hs, rfl⟩ := Option.map_eq_some_iff.mp ht
    exact h.store_same hs rfl rfl
  | logoutRequest i =>
    obtain ⟨s, hs, rfl⟩ := Option.map_eq_some_iff.mp ht
    exact h.store_same hs rfl rfl
  | logoutCancel i =>
    obtain ⟨s, hs, rfl⟩ := Option.map_eq_some_iff.mp ht
    exact h.store_same hs rfl rfl
  | playerLogin i playerGuid nodeId nodeUp initialized =>
    obtain ⟨s, hs, rfl⟩ := Option.map_eq_some_iff.mp ht
    exact h.handlePlayerLoginOpcode hs (hok s hs)
  | executed x r =>
    obtain ⟨-, rfl⟩ := guarded_eq_some.mp ht
    exact { h with }
  | queryCallbacks i =>
    obtain ⟨s, hs, rfl⟩ := Option.map_eq_some_iff.mp ht
    unfold processQueryCallbacks
    cases hlogin : s.charLoginCallback with
    | none => exact h
    | some x =>
      dsimp only
      split
      · exact h
      · exact h.handlePlayerLogin hs hlogin _
  | logoutComplete i otherNode =>
    obtain ⟨s, hs, rfl⟩ := Option.map_eq_some_iff.mp ht
    exact h.handleLogoutComplete hs (hok s hs)
  | destroy i =>
    obtain ⟨s, hs, rfl⟩ := Option.map_eq_some_iff.mp ht
    obtain ⟨htwin, hlogin, hfound⟩ := hok s hs
    exact h.destroy hs htwin hlogin hfound
  | update =>
    cases ht
    exact h.update

theorem initial_lifeInv : LifeInv initial where
  players := .nothing
  home := nofun
  holders := .nothing
  idle := nofun
  freshPlayer := nofun
  freshHolder := nofun
  freshSession := nofun
  found := nofun
  queued := nofun
  social := nofun

/-- In a run where no login request replaces a player or a query, no player with a twin logs
out, and no session dies with a query under way or with a player in the registry. -/
theorem player_life {w : Proxy} (h : Reaches step KeepsSound Starts w) : Sound w := by
  have hinv : LifeInv w := by
    refine h.invariant ?_ fun _ _ _ hw hok ht => LifeInv.step hw hok ht
    rintro w rfl
    exact initial_lifeInv
  exact hinv.sound

instance (w : Proxy) (s : Session) : Decidable (w.NoTwin s) :=
  inferInstanceAs (Decidable (∀ p ∈ s.player, ∀ q ∈ w.objectMgr.added, _))

instance (w : Proxy) (e : Event) : Decidable (w.KeepsSound e) :=
  match e with
  | .playerLogin ptr .. => inferInstanceAs (Decidable (∀ s ∈ w.sessions ptr, _))
  | .logoutComplete ptr _ => inferInstanceAs (Decidable (∀ s ∈ w.sessions ptr, _))
  | .destroy ptr => inferInstanceAs (Decidable (∀ s ∈ w.sessions ptr, _))
  | .create .. | .charEnum .. | .logoutRequest _ | .logoutCancel _ | .executed .. | .queryCallbacks _
  | .update => isTrue trivial

def ofAccount : LoginResult := ⟨some 9, HORDE, false⟩

/-- Two sessions of one account: the first leaves the world and goes, the second comes in. -/
theorem player_life_two :
    ∃ w, Reaches step KeepsSound Starts w ∧ w.objectMgr.added.length = 2 ∧
      w.objectMgr.removed.length = 1 ∧ w.holders.length = 2 ∧ Sound w := by
  obtain ⟨w, hw, h⟩ := Reaches.exists_of_replay step KeepsSound initial_starts
    [.create 9 false, .create 9 false, .charEnum 1 [7], .charEnum 2 [7], .playerLogin 1 7 1 true true,
      .executed ⟨3, 9, 7⟩ ofAccount, .queryCallbacks 1, .update, .logoutRequest 1,
      .logoutComplete 1 false, .update, .playerLogin 2 7 1 true true, .destroy 1,
      .executed ⟨6, 9, 7⟩ ofAccount, .queryCallbacks 2, .update]
    (by decide +kernel)
    (fun w => decide (w.objectMgr.added.length = 2 ∧ w.objectMgr.removed.length = 1 ∧
      w.holders.length = 2)) (by decide +kernel)
  obtain ⟨hadded, hremoved, hholders⟩ := of_decide_eq_true h
  exact ⟨w, hw, hadded, hremoved, hholders, player_life hw⟩

/-- A second `CMSG_PLAYER_LOGIN` in world: the first player is dropped, and when the session
dies nobody removes it. -/
theorem player_dropped : ¬ ∀ w, Reaches step anyStep Starts w → Sound w := by
  intro hall
  obtain ⟨w, hw, h⟩ := Reaches.exists_of_replay step anyStep initial_starts
    [.create 9 false, .charEnum 1 [7], .playerLogin 1 7 1 true true, .executed ⟨2, 9, 7⟩ ofAccount,
      .queryCallbacks 1, .update, .playerLogin 1 7 1 true true, .executed ⟨5, 9, 7⟩ ofAccount,
      .queryCallbacks 1, .update, .destroy 1, .update] (replayOk_anyStep ..)
    (fun w => decide (⟨3, 7, HORDE, 1, 4⟩ ∈ w.objectMgr.added ∧
      w.objectMgr.removed.count ⟨3, 7, HORDE, 1, 4⟩ = 0 ∧ w.sessions 1 = none)) (by decide +kernel)
  obtain ⟨hadded, hcount, hdead⟩ := of_decide_eq_true h
  have honce := ((hall w hw).removed _ hadded).2 (by simp [Alive, hdead])
  exact absurd (hcount.symm.trans honce) Nat.zero_ne_one

/-! ### The registry as the sessions use it -/

/-- In every run the registry is in a state of its own runs: the sessions add new objects,
and remove what was added and not removed. -/
structure UsesRegistry (w : Proxy) : Prop where
  registry : Reaches ObjectMgr.step anyStep ObjectMgr.Starts w.objectMgr
  players : Holding w.playerOf w.objectMgr.added w.objectMgr.removed
  fresh : ∀ p ∈ w.objectMgr.added, p.object < w.next

theorem UsesRegistry.of_sub {w t : Proxy} (h : UsesRegistry w) (hmgr : t.objectMgr = w.objectMgr)
    (hnext : w.next ≤ t.next) (hsub : ∀ i p, t.playerOf i = some p → w.playerOf i = some p) :
    UsesRegistry t := by
  refine ⟨by rw [hmgr]; exact h.registry, ?_, ?_⟩
  · rw [hmgr]
    exact h.players.of_sub hsub
  · rw [hmgr]
    exact fun p hp => Nat.lt_of_lt_of_le (h.fresh p hp) hnext

theorem playerOf_update_sub (w : Proxy) {i j : ℕ} {o : Option Player}
    (ho : o = none ∨ o = w.playerOf i) (hp : Function.update w.playerOf i o j = some p) :
    w.playerOf j = some p := by
  by_cases hj : j = i
  · subst hj
    rw [Function.update_self] at hp
    rcases ho with rfl | rfl
    · cases hp
    · exact hp
  · rwa [Function.update_of_ne hj] at hp

theorem UsesRegistry.store {w t : Proxy} {s' : Session} (h : UsesRegistry w)
    (hmgr : t.objectMgr = w.objectMgr) (hsessions : t.sessions = w.sessions)
    (hnext : w.next ≤ t.next) (hs : s'.player = none ∨ s'.player = w.playerOf i) :
    UsesRegistry (t.store i s') := by
  refine h.of_sub hmgr hnext fun j p hp => playerOf_update_sub w hs ?_
  rw [playerOf_store] at hp
  rw [← hp]
  unfold playerOf
  rw [hsessions]

theorem UsesRegistry.playerLogout {w : Proxy} (h : UsesRegistry w)
    (hs : w.sessions i = some s) : UsesRegistry (w.playerLogout i s) := by
  unfold Proxy.playerLogout
  cases hplayer : s.player with
  | none => exact h
  | some p =>
    have hp : w.playerOf i = some p := (playerOf_eq hs).trans hplayer
    have hguard := h.players.open_of_held i p hp
    refine ⟨.next (a := .playerRemove p) h.registry trivial (guarded_eq_some.mpr ⟨hguard, rfl⟩), ?_,
      h.fresh⟩
    rw [playerOf_store]
    exact h.players.drop hp

theorem UsesRegistry.login {w : Proxy} (h : UsesRegistry w) (i : ℕ)
    (hnew : p.object ∉ w.objectMgr.added.map Player.object) (hnext : p.object < w.next)
    (hs : s.player = some p) {deletedHolders : List LoginQueryHolder} :
    UsesRegistry ({ w with objectMgr := w.objectMgr.playerAdd p, deletedHolders }.store i s) := by
  have hp : p ∉ w.objectMgr.added := fun hp => hnew (List.mem_map_of_mem hp)
  refine ⟨.next (a := .playerAdd p) h.registry trivial (guarded_eq_some.mpr ⟨hnew, rfl⟩), ?_, ?_⟩
  · rw [playerOf_store, hs]
    exact h.players.take i hp
  · intro q hq
    rcases List.mem_cons.mp hq with rfl | hq
    · exact hnext
    · exact h.fresh q hq

theorem UsesRegistry.handlePlayerLogin {w : Proxy} (h : UsesRegistry w)
    (hs : w.sessions i = some s) (x : LoginQueryHolder) (r : LoginResult) :
    UsesRegistry (w.handlePlayerLogin i { s with charLoginCallback := none } x r) := by
  have hsame : s.player = none ∨ s.player = w.playerOf i := .inr (playerOf_eq hs).symm
  rcases w.handlePlayerLogin_cases i { s with charLoginCallback := none } x r with
    heq | ⟨m, k, e, p, heq, hlt, -, hobject, -⟩
  · rw [heq]
    exact h.store rfl rfl (Nat.le_succ _) hsame
  · rw [heq]
    have hgrown : UsesRegistry { w with next := k, socialMap := m } :=
      h.of_sub rfl hlt.le fun _ _ => id
    refine hgrown.login i ?_ (hobject ▸ hlt) rfl
    intro hmem
    obtain ⟨q, hq, hqp⟩ := List.mem_map.mp hmem
    have hfresh := h.fresh q hq
    omega

theorem UsesRegistry.handlePlayerLoginOpcode {w : Proxy} (h : UsesRegistry w) (i : ℕ) (s : Session)
    (playerGuid nodeId : ℕ) (nodeUp initialized : Bool) :
    UsesRegistry (w.handlePlayerLoginOpcode i s playerGuid nodeId nodeUp initialized) := by
  unfold Proxy.handlePlayerLoginOpcode
  dsimp only
  split_ifs
  · exact h
  · exact h.store rfl rfl (Nat.le_refl _) (.inl rfl)
  · exact h.store rfl rfl (Nat.le_succ _) (.inl rfl)
  · exact h.store rfl rfl (Nat.le_succ _) (.inl rfl)

theorem UsesRegistry.step {w t : Proxy} {e : Event} (h : UsesRegistry w) (ht : w.step e = some t) :
    UsesRegistry t := by
  cases e with
  | create accountId playerLoading =>
    cases ht
    exact h.store rfl rfl (Nat.le_succ _) (.inl rfl)
  | charEnum i chars =>
    obtain ⟨s, hs, rfl⟩ := Option.map_eq_some_iff.mp ht
    exact h.store rfl rfl (Nat.le_refl _) (.inr (playerOf_eq hs).symm)
  | logoutRequest i =>
    obtain ⟨s, hs, rfl⟩ := Option.map_eq_some_iff.mp ht
    exact h.store rfl rfl (Nat.le_refl _) (.inr (playerOf_eq hs).symm)
  | logoutCancel i =>
    obtain ⟨s, hs, rfl⟩ := Option.map_eq_some_iff.mp ht
    exact h.store rfl rfl (Nat.le_refl _) (.inr (playerOf_eq hs).symm)
  | playerLogin i playerGuid nodeId nodeUp initialized =>
    obtain ⟨s, -, rfl⟩ := Option.map_eq_some_iff.mp ht
    exact h.handlePlayerLoginOpcode ..
  | executed x r =>
    obtain ⟨-, rfl⟩ := guarded_eq_some.mp ht
    exact { h with }
  | queryCallbacks i =>
    obtain ⟨s, hs, rfl⟩ := Option.map_eq_some_iff.mp ht
    unfold processQueryCallbacks
    split
    · exact h
    · split
      · exact h
      · exact h.handlePlayerLogin hs ..
  | logoutComplete i otherNode =>
    obtain ⟨s, hs, rfl⟩ := Option.map_eq_some_iff.mp ht
    unfold handleLogoutComplete
    dsimp only
    split_ifs
    · exact h
    · exact (h.playerLogout hs).store rfl rfl (Nat.le_refl _) (.inl rfl)
    · exact h.playerLogout hs
  | destroy i =>
    obtain ⟨s, hs, rfl⟩ := Option.map_eq_some_iff.mp ht
    refine (h.playerLogout hs).of_sub rfl (Nat.le_refl _) fun j p hp => ?_
    exact playerOf_update_sub _ (.inl rfl) ((congrFun (Function.comp_update
      (fun o => Option.bind o Session.player) (w.playerLogout i s).sessions i none) j).symm.trans hp)
  | update =>
    cases ht
    obtain ⟨m, c, d, hupdate, -⟩ := w.objectMgr.update_spec
    refine ⟨.next (a := .update) h.registry trivial rfl, ?_, ?_⟩
    · rw [hupdate]
      exact h.players
    · rw [hupdate]
      exact h.fresh

/-- No object is added twice, none is removed twice or before it was added, and the count is that of the map,
also where a player is dropped or replaced. -/
theorem objectMgr_of_reaches {w : Proxy} (h : Reaches step anyStep Starts w) :
    Reaches ObjectMgr.step anyStep ObjectMgr.Starts w.objectMgr ∧
      w.objectMgr.counts.playerCount = UInt32.ofNat w.objectMgr.playerMap.size := by
  have huses : UsesRegistry w := by
    refine h.invariant ?_ fun _ _ _ hw _ ht => UsesRegistry.step hw ht
    rintro w rfl
    exact ⟨.start rfl, .nothing, nofun⟩
  exact ⟨huses.registry, ObjectMgr.playerCount_eq_size huses.registry⟩

theorem objectMgr_of_reaches_login :
    ∃ w, Reaches step anyStep Starts w ∧ w.objectMgr.playerMap.size = 1 ∧ w.objectMgr.counts.playerCount = 1 := by
  obtain ⟨w, hw, h⟩ := Reaches.exists_of_replay step anyStep initial_starts
    [.create 9 false, .charEnum 1 [7], .playerLogin 1 7 1 true true, .executed ⟨2, 9, 7⟩ ofAccount,
      .queryCallbacks 1, .update] (replayOk_anyStep ..)
    (fun w => decide (w.objectMgr.playerMap.size = 1)) (by decide +kernel)
  have hsize := of_decide_eq_true h
  exact ⟨w, hw, hsize, by rw [(objectMgr_of_reaches hw).2, hsize]; rfl⟩

end Proxy

end HysteriaCore.Objects
