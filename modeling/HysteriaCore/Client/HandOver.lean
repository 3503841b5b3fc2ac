import HysteriaCore.Client.NodeLink

/-!
# The hand-over of node sockets (shade/Server/Client/ClientSession.cpp)

Only `UpdateMulti` writes `_NodeSocket`. Its reconnect branch stores a new socket before its
release branch drops a closing one, so the order in which the flag, the timer and the close
request come in from the world thread matters.
-/

namespace HysteriaCore.Client
open Lib

namespace MultiPc

def Retries : MultiPc → Prop
  | testTimer _ | subTimer _ | attempt => True
  | _ => False

def Transfers : MultiPc → Prop
  | transferArm | transferRequest => True
  | _ => False

def WillRelease : MultiPc → Prop
  | nodePackets | transferClose | transferArm | transferRequest | release => True
  | _ => False

def Plain : MultiPc → Prop
  | testTimer _ | subTimer _ | attempt | transferArm | transferRequest | store _ | lost => False
  | _ => True

def Empties : MultiPc → Prop
  | store _ | lost => True
  | _ => False

end MultiPc

namespace Link

/-- The reference the session has on a node socket: in `_NodeSocket`, or in hand. -/
def holds (s : Link) (k : ℕ) : ℕ := if s.nodeSocket = some k ∨ s.multi = .store k then 1 else 0

/-- What holds of the node socket as long as no attempt overwrites one. -/
structure HandOverInv (s : Link) : Prop where
  held_of_stale : s.stale = true → s.nodeSocket ≠ none
  empty : s.multi.Empties → s.nodeSocket = none
  closing : s.multi.Transfers → ∀ k, s.nodeSocket = some k → s.closing k = true
  retries : s.multi.Retries → s.nodeSocket ≠ none → s.stale = true
  reconnect : s.hasFlag .accountReconnect = true → ∀ k, s.nodeSocket = some k →
    s.stale = true ∨ (s.multi.WillRelease ∧ s.closing k = true) ∨ s.multi = .clearReconnect
  taken : ∀ k, s.taken k = if k < s.opened then 1 else 0
  counted : ∀ k, s.taken k = s.released k + s.holds k
  destroyed : s.destroyed = true → s.nodeSocket = none ∧ s.multi = .idle

/-- The node sockets are left alone, but that some may begin to close. -/
structure SameSockets (s t : Link) : Prop where
  nodeSocket : t.nodeSocket = s.nodeSocket
  opened : t.opened = s.opened
  taken : t.taken = s.taken
  released : t.released = s.released
  stale : t.stale = s.stale
  destroyed : t.destroyed = s.destroyed
  closing : ∀ k, s.closing k = true → t.closing k = true

theorem SameSockets.rest (s : Link) (flags : FlagWord) (nodeId reconnectTimer : ℕ)
    (clientSocket clientClosing player : Bool) (world : WorldPc) (multi : MultiPc)
    (worldReturned multiReturned : Option Bool) (kickCalled : Bool) :
    SameSockets s { s with
      flags, nodeId, reconnectTimer, clientSocket, clientClosing, player, world, multi, worldReturned,
      multiReturned, kickCalled } :=
  ⟨rfl, rfl, rfl, rfl, rfl, rfl, fun _ => id⟩

theorem HandOverInv.of_moved {s t : Link} (hs : HandOverInv s) (h : SameSockets s t)
    (hlive : s.destroyed = false) (hstore : ∀ k, s.multi ≠ .store k) (hstore' : ∀ k, t.multi ≠ .store k)
    (hempty : t.multi = .lost → s.nodeSocket = none)
    (hclosing : t.multi.Transfers → ∀ k, s.nodeSocket = some k → t.closing k = true)
    (hretries : t.multi.Retries → s.nodeSocket ≠ none → s.stale = true)
    (hreconnect : t.hasFlag .accountReconnect = true → ∀ k, s.nodeSocket = some k →
      s.stale = true ∨ (t.multi.WillRelease ∧ t.closing k = true) ∨ t.multi = .clearReconnect) :
    HandOverInv t where
  held_of_stale := by
    rw [h.stale, h.nodeSocket]
    exact hs.held_of_stale
  empty := by
    rw [h.nodeSocket]
    intro hm
    cases ht : t.multi with
    | lost => exact hempty ht
    | store k => exact absurd ht (hstore' k)
    | _ =>
      rw [ht] at hm
      exact hm.elim
  closing := by
    rw [h.nodeSocket]
    exact hclosing
  retries := by
    rw [h.nodeSocket, h.stale]
    exact hretries
  reconnect := by
    rw [h.nodeSocket, h.stale]
    exact hreconnect
  taken := by
    rw [h.taken, h.opened]
    exact hs.taken
  counted := by
    intro k
    have hk : t.holds k = s.holds k := by simp only [holds, h.nodeSocket, hstore k, hstore' k, or_false]
    rw [h.taken, h.released, hk]
    exact hs.counted k
  destroyed := by
    rw [h.destroyed]
    exact fun hd => absurd (hlive.symm.trans hd) (by decide)

theorem HandOverInv.goes_on {s t : Link} (hs : HandOverInv s) (h : SameSockets s t)
    (hlive : s.destroyed = false) (hstore : ∀ k, s.multi ≠ .store k) (hplain : t.multi.Plain)
    (hreconnect : t.hasFlag .accountReconnect = true → ∀ k, s.nodeSocket = some k →
      s.stale = true ∨ (t.multi.WillRelease ∧ t.closing k = true) ∨ t.multi = .clearReconnect) :
    HandOverInv t := by
  refine hs.of_moved h hlive hstore ?_ ?_ ?_ ?_ hreconnect
  · intro k hk
    rw [hk] at hplain
    exact hplain
  · intro hlost
    rw [hlost] at hplain
    exact hplain.elim
  · intro htransfers
    cases ht : t.multi <;> rw [ht] at hplain htransfers <;>
      first | exact hplain.elim | exact htransfers.elim
  · intro hretries
    cases ht : t.multi <;> rw [ht] at hplain hretries <;>
      first | exact hplain.elim | exact hretries.elim

theorem HandOverInv.of_same {s t : Link} (hs : HandOverInv s) (h : SameSockets s t)
    (hm : t.multi = s.multi)
    (hr : t.hasFlag .accountReconnect = true → s.hasFlag .accountReconnect = true) :
    HandOverInv t where
  held_of_stale := by
    rw [h.stale, h.nodeSocket]
    exact hs.held_of_stale
  empty := by
    rw [hm, h.nodeSocket]
    exact hs.empty
  closing := by
    rw [hm, h.nodeSocket]
    exact fun hm k hk => h.closing k (hs.closing hm k hk)
  retries := by
    rw [hm, h.nodeSocket, h.stale]
    exact hs.retries
  reconnect := by
    rw [hm, h.nodeSocket, h.stale]
    intro hflag k hk
    rcases hs.reconnect (hr hflag) k hk with hstale | ⟨hm, hc⟩ | hm
    · exact .inl hstale
    · exact .inr (.inl ⟨hm, h.closing k hc⟩)
    · exact .inr (.inr hm)
  taken := by
    rw [h.taken, h.opened]
    exact hs.taken
  counted := by
    intro k
    have hk : t.holds k = s.holds k := by simp only [holds, h.nodeSocket, hm]
    rw [h.taken, h.released, hk]
    exact hs.counted k
  destroyed := by
    rw [h.destroyed, h.nodeSocket, hm]
    exact hs.destroyed

theorem closing_closeSubSocket (s : Link) (k : ℕ) :
    s.closeSubSocket.closing k = (s.closing k || decide (s.nodeSocket = some k)) := by
  cases hn : s.nodeSocket with
  | none => simp [closeSubSocket, hn]
  | some j =>
    by_cases hk : k = j
    · simp [closeSubSocket, hn, hk]
    · simp [closeSubSocket, hn, hk, Ne.symm hk]

theorem closing_mono (s : Link) (k : ℕ) (hk : s.closing k = true) : s.closeSubSocket.closing k = true := by
  rw [closing_closeSubSocket, hk, Bool.true_or]

theorem HandOverInv.stale_of_reconnect {s : Link} {m : MultiPc} (hs : HandOverInv s)
    (hm : s.multi = m) (h1 : ¬ m.WillRelease) (h2 : m ≠ .clearReconnect)
    (hr : s.hasFlag .accountReconnect = true) (k : ℕ) (hk : s.nodeSocket = some k) :
    s.stale = true := by
  subst hm
  rcases hs.reconnect hr k hk with hstale | ⟨hm, -⟩ | hm
  · exact hstale
  · exact absurd hm h1
  · exact absurd hm h2

theorem HandOverInv.keeps_release {s : Link} (hs : HandOverInv s) (hm : s.multi.WillRelease)
    {m : MultiPc} (hm' : m.WillRelease) (hr : s.hasFlag .accountReconnect = true) (k : ℕ)
    (hk : s.nodeSocket = some k) :
    s.stale = true ∨ (m.WillRelease ∧ s.closing k = true) ∨ m = .clearReconnect := by
  rcases hs.reconnect hr k hk with hstale | ⟨-, hc⟩ | hc
  · exact .inl hstale
  · exact .inr (.inl ⟨hm', hc⟩)
  · rw [hc] at hm
    exact hm.elim

/-- A reconnect attempt connects only if the session does not hold the node socket that it
held when `Handle_SMSG_LOGOUT_COMPLETE` last asked for a reconnect. -/
def ReconnectsReleased (s : Link) : LinkEvent → Prop
  | .attempt _ canEnter connects =>
    s.nodeId ≠ 0 ∧ canEnter = true ∧ connects = true → s.stale = false
  | _ => True

/-! ### One lemma for each way to touch the sockets -/

theorem HandOverInv.attempt {s : Link} (hs : HandOverInv s) (hlive : s.destroyed = false)
    (hm : s.multi = .attempt) (master : ℕ) (canEnter connects : Bool)
    (hok : s.nodeId ≠ 0 ∧ canEnter = true ∧ connects = true → s.stale = false) :
    HandOverInv (s.attempt master canEnter connects) := by
  have hretries : s.nodeSocket ≠ none → s.stale = true := hs.retries (by rw [hm]; trivial)
  have hheld : ∀ k, s.nodeSocket = some k → s.stale = true :=
    fun k hk => hretries (Option.ne_none_iff_exists'.mpr ⟨k, hk⟩)
  have hstore : ∀ k, s.multi ≠ .store k := by simp [hm]
  unfold Link.attempt
  split
  · exact hs.goes_on (.rest ..) hlive hstore trivial fun _ k hk => .inl (hheld k hk)
  · rename_i hnode
    split
    · rename_i hopen
      have hfree : s.nodeSocket = none := by
        by_contra hne
        have hstale := hretries hne
        rw [hok ⟨hnode, hopen⟩] at hstale
        exact absurd hstale (by decide)
      have hholds : ∀ k, s.holds k = 0 := by simp [holds, hfree, hm]
      exact {
        held_of_stale := hs.held_of_stale
        empty := fun _ => hfree
        closing := fun h => h.elim
        retries := fun h => h.elim
        reconnect := fun _ k hk => .inl (hheld k hk)
        taken := by
          intro k
          show Function.update s.taken s.opened (s.taken s.opened + 1) k = _
          have hold := hs.taken s.opened
          by_cases hk : k = s.opened
          · subst hk
            simp only [Function.update_self, Nat.lt_irrefl, ite_false, Nat.lt_succ_self, ite_true] at *
            omega
          · have hlt : k < s.opened + 1 ↔ k < s.opened := by omega
            rw [Function.update_of_ne hk, hs.taken k]
            simp only [hlt]
        counted := by
          intro k
          have hsum := hs.counted k
          rw [hholds k] at hsum
          show Function.update s.taken s.opened (s.taken s.opened + 1) k =
            s.released k + if s.nodeSocket = some k ∨ MultiPc.store s.opened = .store k then 1 else 0
          by_cases hk : k = s.opened
          · subst hk
            simp [hsum]
          · simp [hk, hfree, Ne.symm hk, hsum]
        destroyed := fun hd => absurd (hlive.symm.trans hd) (by decide) }
    · exact hs.goes_on (.rest ..) hlive hstore trivial fun _ k hk => .inl (hheld k hk)

theorem HandOverInv.store {s : Link} (hs : HandOverInv s) (hlive : s.destroyed = false) {k : ℕ}
    (hm : s.multi = .store k) :
    HandOverInv { s with nodeSocket := some k, multi := .clearReconnect, stale := false } where
  held_of_stale := fun h => absurd h Bool.false_ne_true
  empty := fun h => h.elim
  closing := fun h => h.elim
  retries := fun h => h.elim
  reconnect := fun _ _ _ => .inr (.inr rfl)
  taken := hs.taken
  counted := by
    intro j
    have hfree : s.nodeSocket = none := hs.empty (by rw [hm]; trivial)
    have hsum := hs.counted j
    rw [hsum]
    simp [holds, hfree, hm]
  destroyed := fun hd => absurd (hlive.symm.trans hd) (by decide)

theorem HandOverInv.counted_drop {s t : Link} (hs : HandOverInv s) (hstore : ∀ k, s.multi ≠ .store k)
    (hstore' : ∀ k, t.multi ≠ .store k) (hnone : t.nodeSocket = none)
    (hrel : t.released = s.dropNodeSocket.released) (k : ℕ) : s.taken k = t.released k + t.holds k := by
  have hsum := hs.counted k
  have hzero : t.holds k = 0 := by simp [holds, hnone, hstore']
  rw [hsum, hzero, hrel]
  cases hn : s.nodeSocket with
  | none => simp [dropNodeSocket, holds, hn, hstore]
  | some j =>
    by_cases hk : j = k
    · simp [dropNodeSocket, holds, hn, hk]
    · simp [dropNodeSocket, holds, hn, hstore, hk, Ne.symm hk]

theorem HandOverInv.drop {s : Link} (hs : HandOverInv s) (hlive : s.destroyed = false)
    (hm : s.multi = .release) : HandOverInv { s.dropNodeSocket with multi := .lost } where
  held_of_stale := fun h => absurd h Bool.false_ne_true
  empty := fun _ => rfl
  closing := fun h => h.elim
  retries := fun h => h.elim
  reconnect := fun _ _ hk => absurd hk (by simp [dropNodeSocket])
  taken := hs.taken
  counted := hs.counted_drop (by simp [hm]) (by simp) rfl rfl
  destroyed := fun hd => absurd (hlive.symm.trans hd) (by decide)

theorem HandOverInv.destroy {s : Link} (hs : HandOverInv s) (hm : s.multi = .idle) :
    HandOverInv
      { s.closeSubSocket.dropNodeSocket.removeFlag .accountReconnect with destroyed := true } where
  held_of_stale := fun h => absurd h Bool.false_ne_true
  empty := fun _ => rfl
  closing := fun _ _ hk => absurd hk (by simp [dropNodeSocket, removeFlag])
  retries := fun _ hne => absurd rfl hne
  reconnect := fun _ _ hk => absurd hk (by simp [dropNodeSocket, removeFlag])
  taken := hs.taken
  counted := hs.counted_drop (by simp [hm])
    (by simp [closeSubSocket, dropNodeSocket, removeFlag, hm]) rfl rfl
  destroyed := fun _ => ⟨rfl, hm⟩

theorem HandOverInv.step {s t : Link} {e : LinkEvent} (hs : HandOverInv s)
    (hok : ReconnectsReleased s e) (h : s.step e = some t) : HandOverInv t := by
  cases e with
  | updateSingle | logoutComplete | endNodePackets =>
    obtain ⟨-, rfl⟩ := guarded_eq_some.mp h
    split <;> exact hs.of_same (.rest ..) rfl id
  | playerLogout | compareMaster | clearNode | toMaster | armTimer | playerLoginOpcode | endSingle
    | playerLogin | closeClient =>
    obtain ⟨-, rfl⟩ := guarded_eq_some.mp h
    exact hs.of_same (.rest ..) rfl id
  | clearFlags =>
    obtain ⟨-, rfl⟩ := guarded_eq_some.mp h
    exact hs.of_same (.rest ..) rfl (by simp [hasFlag])
  | logoutResponse | authResponse =>
    obtain ⟨-, rfl⟩ := guarded_eq_some.mp h
    split
    · exact hs.of_same (.rest ..) rfl
        (by simp [hasFlag, removeFlag])
    · exact hs
  | authChallenge | logoutRequest | logoutCancel | kick | kickRemove =>
    obtain ⟨-, rfl⟩ := guarded_eq_some.mp h
    exact hs.of_same (.rest ..) rfl
      (by simp [hasFlag, setFlag, removeFlag])
  | closeSubSocket =>
    obtain ⟨-, rfl⟩ := guarded_eq_some.mp h
    exact hs.of_same ⟨rfl, rfl, rfl, rfl, rfl, rfl, s.closing_mono⟩ rfl id
  | closeNode j =>
    obtain ⟨-, rfl⟩ := guarded_eq_some.mp h
    refine hs.of_same ⟨rfl, rfl, rfl, rfl, rfl, rfl, fun k hk => ?_⟩ rfl id
    show Function.update s.closing j true k = true
    by_cases hkj : k = j
    · rw [hkj, Function.update_self]
    · rw [Function.update_of_ne hkj, hk]
  | requestReconnect =>
    obtain ⟨-, rfl⟩ := guarded_eq_some.mp h
    have hheld : s.nodeSocket ≠ none → s.nodeSocket.isSome = true := Option.isSome_iff_ne_none.mpr
    exact {
      held_of_stale := Option.isSome_iff_ne_none.mp
      empty := hs.empty
      closing := hs.closing
      retries := fun _ => hheld
      reconnect := fun _ k hk => .inl (hheld (Option.ne_none_iff_exists'.mpr ⟨k, hk⟩))
      taken := hs.taken
      counted := hs.counted
      destroyed := hs.destroyed }
  | destroy =>
    obtain ⟨⟨-, -, hm⟩, rfl⟩ := guarded_eq_some.mp h
    exact hs.destroy hm
  | attempt master canEnter connects =>
    obtain ⟨⟨hlive, hm⟩, rfl⟩ := guarded_eq_some.mp h
    exact hs.attempt hlive hm master canEnter connects hok
  | store k =>
    obtain ⟨⟨hlive, hm⟩, rfl⟩ := guarded_eq_some.mp h
    exact hs.store hlive hm
  | updateMulti diff =>
    obtain ⟨⟨hlive, hm⟩, rfl⟩ := guarded_eq_some.mp h
    split
    · exact hs.of_same (.rest ..) rfl id
    · exact hs.goes_on (.rest ..) hlive (by simp [hm]) trivial
        fun hr k hk => .inl (hs.stale_of_reconnect hm id nofun hr k hk)
  | testReconnect diff =>
    obtain ⟨⟨hlive, hm⟩, rfl⟩ := guarded_eq_some.mp h
    have hstale : s.hasFlag .accountReconnect = true → ∀ k, s.nodeSocket = some k → s.stale = true :=
      hs.stale_of_reconnect hm id nofun
    by_cases hr : s.hasFlag .accountReconnect = true
    · rw [if_pos hr]
      refine hs.of_moved (.rest ..) hlive (by simp [hm]) (by simp) (by simp) (fun h => h.elim) ?_
        fun hr k hk => .inl (hstale hr k hk)
      intro _ hne
      obtain ⟨k, hk⟩ := Option.ne_none_iff_exists'.mp hne
      exact hstale hr k hk
    · rw [if_neg hr]
      exact hs.goes_on (.rest ..) hlive (by simp [hm]) trivial fun hr k hk => .inl (hstale hr k hk)
  | testTimer diff =>
    obtain ⟨⟨hlive, hm⟩, rfl⟩ := guarded_eq_some.mp h
    have hretries := hs.retries (by rw [hm]; trivial)
    have hstale : ∀ k, s.nodeSocket = some k → s.stale = true :=
      fun k hk => hretries (Option.ne_none_iff_exists'.mpr ⟨k, hk⟩)
    split <;>
      exact hs.of_moved (.rest ..) hlive (by simp [hm]) (by simp) (by simp) (fun h => h.elim)
        (fun _ => hretries) fun _ k hk => .inl (hstale k hk)
  | subTimer diff =>
    obtain ⟨⟨hlive, hm⟩, rfl⟩ := guarded_eq_some.mp h
    have hretries := hs.retries (by rw [hm]; trivial)
    exact hs.goes_on (.rest ..) hlive (by simp [hm]) trivial
      fun _ k hk => .inl (hretries (Option.ne_none_iff_exists'.mpr ⟨k, hk⟩))
  | clearReconnect =>
    obtain ⟨⟨hlive, hm⟩, rfl⟩ := guarded_eq_some.mp h
    exact hs.goes_on (.rest ..) hlive (by simp [hm]) trivial
      fun hr => absurd hr (by simp [hasFlag, removeFlag])
  | setWaitForOk =>
    obtain ⟨⟨hlive, hm⟩, rfl⟩ := guarded_eq_some.mp h
    refine hs.goes_on (.rest ..) hlive (by simp [hm]) trivial fun hr k hk => ?_
    have hr' : s.hasFlag .accountReconnect = true := by simpa [hasFlag, setFlag] using hr
    exact .inl (hs.stale_of_reconnect hm id nofun hr' k hk)
  | rearm =>
    obtain ⟨⟨hlive, hm⟩, rfl⟩ := guarded_eq_some.mp h
    exact hs.goes_on (.rest ..) hlive (by simp [hm]) trivial
      fun hr k hk => .inl (hs.stale_of_reconnect hm id nofun hr k hk)
  | endMulti =>
    obtain ⟨⟨hlive, hm⟩, rfl⟩ := guarded_eq_some.mp h
    have hstale : s.hasFlag .accountReconnect = true → ∀ k, s.nodeSocket = some k → s.stale = true :=
      hs.stale_of_reconnect hm id nofun
    split <;>
      exact hs.goes_on (.rest ..) hlive (by simp [hm]) trivial fun hr k hk => .inl (hstale hr k hk)
  | transfer node online =>
    obtain ⟨⟨⟨hlive, hm⟩, -⟩, rfl⟩ := guarded_eq_some.mp h
    split
    · exact hs.goes_on (.rest ..) hlive (by simp [hm]) trivial
        (hs.keeps_release (by rw [hm]; trivial) trivial)
    · exact hs
  | transferClose =>
    obtain ⟨⟨hlive, hm⟩, rfl⟩ := guarded_eq_some.mp h
    have hclosing : ∀ k, s.nodeSocket = some k → s.closeSubSocket.closing k = true := by
      intro k hk
      rw [closing_closeSubSocket, decide_eq_true hk, Bool.or_true]
    exact hs.of_moved ⟨rfl, rfl, rfl, rfl, rfl, rfl, s.closing_mono⟩ hlive (by simp [hm]) (by simp)
      (by simp) (fun _ => hclosing) (fun h => h.elim)
      fun _ k hk => .inr (.inl ⟨trivial, hclosing k hk⟩)
  | transferArm | transferRequest =>
    obtain ⟨⟨hlive, hm⟩, rfl⟩ := guarded_eq_some.mp h
    have hclosing := hs.closing (by rw [hm]; trivial)
    exact hs.of_moved (.rest ..) hlive (by simp [hm]) (by simp) (by simp) (fun _ => hclosing)
      (fun h => h.elim)
      fun _ k hk => .inr (.inl ⟨trivial, hclosing k hk⟩)
  | endMultiNodePackets =>
    obtain ⟨⟨hlive, hm⟩, rfl⟩ := guarded_eq_some.mp h
    exact hs.goes_on (.rest ..) hlive (by simp [hm]) trivial
      (hs.keeps_release (by rw [hm]; trivial) trivial)
  | release =>
    obtain ⟨⟨hlive, hm⟩, rfl⟩ := guarded_eq_some.mp h
    split
    · exact hs.drop hlive hm
    · rename_i hopen
      refine hs.goes_on (.rest ..) hlive (by simp [hm]) trivial fun hr k hk => ?_
      rcases hs.reconnect hr k hk with hstale | ⟨-, hc⟩ | hm'
      · exact .inl hstale
      · exact absurd (by rw [hk]; exact hc) hopen
      · exact absurd (hm.symm.trans hm') (by simp)
  | lost =>
    obtain ⟨⟨hlive, hm⟩, rfl⟩ := guarded_eq_some.mp h
    have hfree : s.nodeSocket = none := hs.empty (by rw [hm]; trivial)
    split <;>
      exact hs.goes_on (.rest ..) hlive (by simp [hm]) trivial fun _ k hk => absurd (hfree.symm.trans hk) (by simp)

theorem initial_handOverInv (master : ℕ) : HandOverInv (initial master) where
  held_of_stale := fun h => absurd h Bool.false_ne_true
  empty := fun _ => rfl
  closing := fun h => h.elim
  retries := fun h => h.elim
  reconnect := fun _ k hk => absurd hk (by simp [initial])
  taken := fun _ => rfl
  counted := fun _ => rfl
  destroyed := fun h => absurd h Bool.false_ne_true

/-! ### One socket at a time -/

/-- A new socket is stored over no other, no socket is released more often than the session
took a reference on it, and a destroyed session has released them all. -/
structure HandsOver (s : Link) : Prop where
  stored : ∀ k t, s.step (.store k) = some t → s.nodeSocket = none
  released_le : ∀ k, s.released k ≤ s.taken k
  taken_le : ∀ k, s.taken k ≤ 1
  destroyed : s.destroyed = true → ∀ k, s.released k = s.taken k

theorem HandOverInv.handsOver {s : Link} (hs : HandOverInv s) : HandsOver s where
  stored := by
    intro k t ht
    obtain ⟨⟨-, hm⟩, -⟩ := guarded_eq_some.mp ht
    exact hs.empty (by rw [hm]; trivial)
  released_le := by
    intro k
    have hsum := hs.counted k
    omega
  taken_le := by
    intro k
    rw [hs.taken k]
    split <;> decide
  destroyed := by
    intro hd k
    obtain ⟨hnone, hm⟩ := hs.destroyed hd
    have hsum := hs.counted k
    have hzero : s.holds k = 0 := by simp [holds, hnone, hm]
    omega

/-- In a run in which no reconnect attempt connects over the socket of a logout, every node
socket is handed over and released once; the first such attempt stores over a socket. -/
theorem node_sockets_handed_over {s : Link} (h : Reaches step ReconnectsReleased Starts s) :
    HandsOver s ∧ ∀ e t, s.step e = some t → ¬ ReconnectsReleased s e → ¬ HandsOver t := by
  have hs : HandOverInv s := by
    refine h.invariant ?_ fun _ _ _ hs hok ht => hs.step hok ht
    rintro s ⟨master, rfl⟩
    exact initial_handOverInv master
  refine ⟨hs.handsOver, fun e t ht hbad hover => ?_⟩
  cases e with
  | attempt master canEnter connects =>
    obtain ⟨⟨hlive, -⟩, rfl⟩ := guarded_eq_some.mp ht
    obtain ⟨⟨hnode, hopen⟩, hstale⟩ := Classical.not_imp.mp hbad
    have heq : (s.attempt master canEnter connects).multi = .store s.opened ∧
        (s.attempt master canEnter connects).nodeSocket = s.nodeSocket ∧
        (s.attempt master canEnter connects).destroyed = false := by
      simp [Link.attempt, hnode, hopen, hlive]
    obtain ⟨hm, hsock, hlive'⟩ := heq
    have hnone := hover.stored s.opened _ (guarded_eq_some.mpr ⟨⟨hlive', hm⟩, rfl⟩)
    exact hs.held_of_stale (by simpa using hstale) (hsock.symm.trans hnone)
  | _ => exact hbad trivial

instance (s : Link) (e : LinkEvent) : Decidable (ReconnectsReleased s e) :=
  match e with
  | .attempt .. => inferInstanceAs (Decidable (_ → _))
  | .updateSingle | .logoutResponse _ | .logoutComplete | .playerLogout | .compareMaster _
  | .closeSubSocket | .clearFlags | .clearNode | .toMaster _ | .armTimer | .requestReconnect
  | .endNodePackets | .playerLoginOpcode | .endSingle | .updateMulti _ | .playerLogin _
  | .testReconnect _ | .testTimer _ | .subTimer _ | .store _ | .clearReconnect | .setWaitForOk
  | .rearm | .authResponse _ | .authChallenge | .transfer .. | .transferClose | .transferArm
  | .transferRequest | .endMultiNodePackets | .release | .lost | .logoutRequest | .logoutCancel
  | .endMulti | .kick | .kickRemove | .closeNode _ | .closeClient | .destroy => isTrue trivial

def logoutToMaster : List LinkEvent :=
  [.updateSingle, .logoutComplete, .playerLogout, .compareMaster 1, .closeSubSocket, .clearFlags,
    .clearNode, .toMaster 1, .armTimer, .requestReconnect, .endNodePackets, .endSingle]

/-- After the logout the next `UpdateMulti` comes soon enough to drop the socket first. -/
theorem node_sockets_handed_over_logout :
    ∃ s, Reaches step ReconnectsReleased Starts s ∧ s.destroyed = true ∧ s.opened = 3 ∧ HandsOver s := by
  obtain ⟨s, hs, h⟩ := Reaches.exists_of_replay step ReconnectsReleased (initial_starts 1)
    (logoutOnNode2 ++ logoutToMaster ++
      [.updateMulti 5000, .testReconnect 5000, .testTimer 5000, .subTimer 5000, .endMultiNodePackets,
        .release, .lost, .endMulti] ++ connectEvents 100000 2 ++ [.endMulti, .destroy])
    (by decide +kernel) (fun s => decide (s.destroyed = true ∧ s.opened = 3)) (by decide +kernel)
  obtain ⟨hd, hopened⟩ := of_decide_eq_true h
  exact ⟨s, hs, hd, hopened, (node_sockets_handed_over hs).1⟩

/-- After a tenth of a second the attempt comes first, and the socket of node 2 is lost. -/
theorem node_socket_overwritten : ¬ ∀ s, Reaches step anyStep Starts s → HandsOver s := by
  intro hall
  obtain ⟨s, hs, h⟩ := Reaches.exists_of_replay step anyStep (initial_starts 1)
    (logoutOnNode2 ++ logoutToMaster ++ connectEvents 100000 2 ++ [.endMulti, .destroy])
    (replayOk_anyStep ..)
    (fun s => decide (s.destroyed = true ∧ s.released 1 = 0 ∧ s.taken 1 = 1)) (by decide +kernel)
  obtain ⟨hd, hrel, htaken⟩ := of_decide_eq_true h
  have heq := (hall s hs).destroyed hd 1
  omega

end Link

end HysteriaCore.Client
