import HysteriaCore.Cluster.InitPacket

/-!
# What a LOGON_INIT_NODE packet installs

`Ending` lists the places where the handler stops, by the words of the packet, with what it
has installed there.
-/

namespace HysteriaCore.Cluster
open Lib Net

/-! ### Reads -/

variable {b : ByteBuffer} {node : NodeState}

theorem readWord_nil {next : ℕ → ByteBuffer → InitResult}
    (h : words b.ahead = []) : readWord node b next = ⟨none, node, b⟩ := by
  rcases b.readUInt32_words with ⟨_, hread⟩ | ⟨w, _, hw⟩
  · rw [readWord, hread]
  · rw [h] at hw
    cases hw

variable {ws : List ℕ}

theorem words_skip {w : ℕ} (h : words b.ahead = w :: ws) : words (b.skip 4).ahead = ws := by
  rcases b.readUInt32_words with ⟨hnil, _⟩ | ⟨w', _, hw⟩
  · rw [h] at hnil
    cases hnil
  · rw [h] at hw
    exact (List.cons.inj hw).2.symm

theorem readWord_cons {next : ℕ → ByteBuffer → InitResult}
    {w : ℕ} (h : words b.ahead = w :: ws) : readWord node b next = next w (b.skip 4) := by
  rcases b.readUInt32_words with ⟨hnil, _⟩ | ⟨w', hread, hw⟩
  · rw [h] at hnil
    cases hnil
  · rw [h] at hw
    obtain ⟨rfl, _⟩ := List.cons.inj hw
    rw [readWord, hread]

variable {values : List ℕ}

theorem readArray_short {value : ℕ → ℕ} {n : ℕ}
    {next : List ℕ → ByteBuffer → InitResult} (h : (words b.ahead).length < n) :
    (readArray node value n values b next).ack = none ∧
      (readArray node value n values b next).node = node := by
  induction n generalizing b values with
  | zero => omega
  | succ n ih =>
    rw [readArray]
    cases hw : words b.ahead with
    | nil =>
      rw [readWord_nil hw]
      exact ⟨rfl, rfl⟩
    | cons w ws =>
      rw [readWord_cons hw]
      refine ih ?_
      rw [words_skip hw]
      rw [hw, List.length_cons] at h
      omega

theorem readArray_full {value : ℕ → ℕ} {n : ℕ} (values : List ℕ)
    {next : List ℕ → ByteBuffer → InitResult} (h : n ≤ (words b.ahead).length) :
    readArray node value n values b next =
        next (values ++ ((words b.ahead).take n).map value) (b.skip (4 * n)) ∧
      words (b.skip (4 * n)).ahead = (words b.ahead).drop n := by
  induction n generalizing b values with
  | zero => simp [readArray, ByteBuffer.skip]
  | succ n ih =>
    rw [readArray]
    cases hw : words b.ahead with
    | nil => simp [hw] at h
    | cons w ws =>
      rw [hw, List.length_cons] at h
      have hskip : (b.skip 4).skip (4 * n) = b.skip (4 * (n + 1)) := by
        simp only [ByteBuffer.skip]
        congr 1
        omega
      have hlen : n ≤ (words (b.skip 4).ahead).length := by
        rw [words_skip hw]
        omega
      obtain ⟨hnext, hwords⟩ := ih (values ++ [value w]) hlen
      rw [words_skip hw, hskip] at hnext hwords
      rw [readWord_cons hw, hnext]
      exact ⟨by simp, hwords⟩

def Valid (guid : ℕ) : Prop := guid < 0xFFFFFFFE

variable {next : NodeState → ByteBuffer → InitResult}

theorem installGuid_stop {k : EntityIDType}
    (h : ∀ guid ws, words b.ahead = guid :: ws → ¬Valid guid) :
    (installGuid k node b next).ack ≠ some .ok ∧ (installGuid k node b next).node = node := by
  rw [installGuid]
  cases hw : words b.ahead with
  | nil =>
    rw [readWord_nil hw]
    exact ⟨by simp, rfl⟩
  | cons guid ws =>
    rw [readWord_cons hw, if_pos (Nat.le_of_not_lt (h guid ws hw))]
    cases k <;> exact ⟨by simp [NodeAck.failure], rfl⟩

theorem installGuid_next {k : EntityIDType}
    {guid : ℕ}
    (hw : words b.ahead = guid :: ws) (hvalid : Valid guid) :
    installGuid k node b next =
      next { node with mgr := node.mgr.setCounter guid k } (b.skip 4) := by
  rw [installGuid, readWord_cons hw, if_neg (Nat.not_le.mpr hvalid)]

/-! ### The places where the handler stops -/

namespace NodeState

def ranged (node : NodeState) (hiRange : ℕ) : NodeState :=
  { node with mgr := { node.mgr with hiRange } }

def counted (node : NodeState) (guid : ℕ) (k : EntityIDType) : NodeState :=
  { node with mgr := node.mgr.setCounter guid k }

def rated (node : NodeState) (ws : List ℕ) : NodeState :=
  { node with rate := store receivedRates ((ws.take 38).map floatValue) node.rate }

def skilled (node : NodeState) (ws : List ℕ) : NodeState :=
  { node with skill := store receivedSkills ((ws.drop 38).take 10) node.skill }

end NodeState

inductive Ending (node : NodeState) : List ℕ → Option NodeAck → NodeState → Prop where
  | nothing {ack : Option NodeAck} (hack : ack ≠ some .ok) : Ending node [] ack node
  | range {ack : Option NodeAck} (hack : ack ≠ some .ok) (r : ℕ) {ws : List ℕ}
      (h : ∀ i rest, ws = i :: rest → ¬Valid i) : Ending node (r :: ws) ack (node.ranged r)
  | item {ack : Option NodeAck} (hack : ack ≠ some .ok) (r : ℕ) {i : ℕ} (hi : Valid i)
      {ws : List ℕ} (h : ∀ m rest, ws = m :: rest → ¬Valid m) :
      Ending node (r :: i :: ws) ack ((node.ranged r).counted i .item)
  | mail {ack : Option NodeAck} (hack : ack ≠ some .ok) (r : ℕ) {i m : ℕ} (hi : Valid i)
      (hm : Valid m) {ws : List ℕ} (h : ∀ g c rest, ws = g :: c :: rest → ¬Valid c) :
      Ending node (r :: i :: m :: ws) ack (((node.ranged r).counted i .item).counted m .mail)
  | corpse {ack : Option NodeAck} (hack : ack ≠ some .ok) (r : ℕ) {i m : ℕ} (g : ℕ) {c : ℕ}
      (hi : Valid i) (hm : Valid m) (hc : Valid c) {ws : List ℕ} (h : ws.length < 38) :
      Ending node (r :: i :: m :: g :: c :: ws) ack
        ((((node.ranged r).counted i .item).counted m .mail).counted c .corpse)
  | rates {ack : Option NodeAck} (hack : ack ≠ some .ok) (r : ℕ) {i m : ℕ} (g : ℕ) {c : ℕ}
      (hi : Valid i) (hm : Valid m) (hc : Valid c) {ws : List ℕ} (h : 38 ≤ ws.length)
      (hshort : ws.length < 48) :
      Ending node (r :: i :: m :: g :: c :: ws) ack
        (((((node.ranged r).counted i .item).counted m .mail).counted c .corpse).rated ws)
  | accepted (r : ℕ) {i m : ℕ} (g : ℕ) {c : ℕ} (hi : Valid i) (hm : Valid m) (hc : Valid c)
      {ws : List ℕ} (h : 48 ≤ ws.length) :
      Ending node (r :: i :: m :: g :: c :: ws) (some .ok)
        ((((((node.ranged r).counted i .item).counted m .mail).counted c .corpse).rated
          ws).skilled ws)

theorem not_valid_of_words (hws : words b.ahead = ws)
    (h : ¬∃ guid rest, ws = guid :: rest ∧ Valid guid) :
    ∀ guid rest, words b.ahead = guid :: rest → ¬Valid guid := by
  intro guid rest hcons hvalid
  exact h ⟨guid, rest, hws ▸ hcons, hvalid⟩

theorem handleInitPacket_ending (node : NodeState) (b : ByteBuffer) :
    Ending node (words b.ahead) (handleInitPacket node b).ack (handleInitPacket node b).node := by
  rw [handleInitPacket]
  cases hr : words b.ahead with
  | nil =>
    rw [readWord_nil hr]
    exact .nothing (by simp)
  | cons r ws =>
    rw [readWord_cons hr]
    dsimp only
    have hws := words_skip hr
    -- the three counters
    by_cases hitem : ∃ i rest, ws = i :: rest ∧ Valid i
    case neg =>
      have hstop := not_valid_of_words hws hitem
      rw [(installGuid_stop hstop).2]
      exact .range (installGuid_stop hstop).1 r fun i rest heq => hstop i rest (hws.trans heq)
    obtain ⟨i, ws, rfl, hi⟩ := hitem
    rw [installGuid_next hws hi]
    have hws := words_skip hws
    by_cases hmail : ∃ m rest, ws = m :: rest ∧ Valid m
    case neg =>
      have hstop := not_valid_of_words hws hmail
      rw [(installGuid_stop hstop).2]
      exact .item (installGuid_stop hstop).1 r hi fun m rest heq => hstop m rest (hws.trans heq)
    obtain ⟨m, ws, rfl, hm⟩ := hmail
    rw [installGuid_next hws hm]
    have hws := words_skip hws
    cases ws with
    | nil =>
      rw [readWord_nil hws]
      exact .mail (by simp) r hi hm (by simp)
    | cons g ws =>
      rw [readWord_cons hws]
      have hws := words_skip hws
      by_cases hcorpse : ∃ c rest, ws = c :: rest ∧ Valid c
      case neg =>
        have hstop := not_valid_of_words hws hcorpse
        rw [(installGuid_stop hstop).2]
        refine .mail (installGuid_stop hstop).1 r hi hm fun g' c rest heq => ?_
        exact hstop c rest (hws.trans (List.cons.inj heq).2)
      obtain ⟨c, ws, rfl, hc⟩ := hcorpse
      rw [installGuid_next hws hc]
      have hws := words_skip hws
      -- the two arrays
      by_cases hrates : ws.length < 38
      case pos =>
        have hshort := hrates
        rw [← hws] at hshort
        obtain ⟨hack, hnode⟩ := readArray_short hshort
        rw [hnode, hack]
        exact .corpse (by simp) r g hi hm hc hrates
      have hfull : 38 ≤ (words (((((b.skip 4).skip 4).skip 4).skip 4).skip 4).ahead).length := by
        rw [hws]
        omega
      obtain ⟨hread, hrest⟩ := readArray_full [] hfull
      rw [hread]
      rw [hws] at hrest ⊢
      by_cases hskills : ws.length < 48
      case pos =>
        have hshort : (ws.drop 38).length < 10 := by
          rw [List.length_drop]
          omega
        rw [← hrest] at hshort
        obtain ⟨hack, hnode⟩ := readArray_short hshort
        rw [hnode, hack]
        exact .rates (by simp) r g hi hm hc (by omega) hskills
      have hfull : 10 ≤ (ws.drop 38).length := by
        rw [List.length_drop]
        omega
      rw [← hrest] at hfull
      obtain ⟨hread, _⟩ := readArray_full [] hfull
      rw [hread, hrest, List.map_id]
      exact .accepted r g hi hm hc (Nat.le_of_not_lt hskills)

/-! ### Settings that are stored -/

section Store

variable {κ : Type} [DecidableEq κ]

theorem store_cons (entry : Option κ) (names : List (Option κ)) (v : ℕ) (values : List ℕ)
    (table : κ → ℕ) :
    store (entry :: names) (v :: values) table =
      store names values (entry.elim table fun name => Function.update table name v) := by
  cases entry <;> rfl

variable {names : List (Option κ)} {table : κ → ℕ}

theorem store_other {name : κ} (h : some name ∉ names) : store names values table name = table name := by
  induction names generalizing values table with
  | nil => rfl
  | cons entry names ih =>
    cases values with
    | nil => rfl
    | cons v values =>
      have htail : some name ∉ names := fun hmem => h (List.mem_cons_of_mem entry hmem)
      rw [store_cons, ih htail]
      cases entry with
      | none => rfl
      | some other =>
        refine Function.update_of_ne ?_ _ _
        rintro rfl
        exact h List.mem_cons_self

theorem store_of_mem {name : κ} {v : ℕ}
    (hnodup : (names.filterMap id).Nodup) (h : (some name, v) ∈ names.zip values) :
    store names values table name = v := by
  induction names generalizing values table with
  | nil => simp at h
  | cons entry names ih =>
    cases values with
    | nil => simp at h
    | cons w values =>
      rw [store_cons]
      rcases List.mem_cons.mp h with heq | htail
      · obtain ⟨rfl, rfl⟩ := Prod.mk.inj heq
        have hfresh : some name ∉ names := by
          intro hmem
          exact (List.nodup_cons.mp hnodup).1 (List.mem_filterMap.mpr ⟨_, hmem, rfl⟩)
        rw [store_other hfresh]
        exact Function.update_self ..
      · cases entry with
        | none => exact ih hnodup htail
        | some other => exact ih (List.nodup_cons.mp hnodup).2 htail

theorem store_eq_iff
    (hnodup : (names.filterMap id).Nodup) :
    store names values table = table ↔
      ∀ name v, (some name, v) ∈ names.zip values → v = table name := by
  constructor
  · intro h name v hmem
    rw [← store_of_mem hnodup hmem, h]
  · intro h
    induction names generalizing values with
    | nil => rfl
    | cons entry names ih =>
      cases values with
      | nil => rfl
      | cons w values =>
        have htail : ∀ name v, (some name, v) ∈ names.zip values → v = table name :=
          fun name v hmem => h name v (List.mem_cons_of_mem _ hmem)
        rw [store_cons]
        cases entry with
        | none => exact ih hnodup htail
        | some other =>
          rw [Option.elim_some, h other w List.mem_cons_self, Function.update_eq_self]
          exact ih (List.nodup_cons.mp hnodup).2 htail

end Store

theorem nodup_receivedRates : (receivedRates.filterMap id).Nodup := by
  decide

theorem nodup_receivedSkills : (receivedSkills.filterMap id).Nodup := by
  decide

/-! ### When a packet that is not accepted leaves no trace -/

def Acceptable (ws : List ℕ) : Prop :=
  ∃ r i m g c rest, ws = r :: i :: m :: g :: c :: rest ∧ Valid i ∧ Valid m ∧ Valid c ∧
    48 ≤ rest.length

/-- What the packet brings before it ends or is refused is what the node has. -/
structure Repeats (node : NodeState) (ws : List ℕ) : Prop where
  range : ∀ r rest, ws = r :: rest → r = node.mgr.hiRange
  item : ∀ r i rest, ws = r :: i :: rest → Valid i → i = node.mgr.hiItemGuid
  mail : ∀ r i m rest, ws = r :: i :: m :: rest → Valid i → Valid m → m = node.mgr.mailId
  corpse : ∀ r i m g c rest, ws = r :: i :: m :: g :: c :: rest → Valid i → Valid m → Valid c →
    c = node.mgr.hiCorpseGuid
  rates : ∀ r i m g c rest, ws = r :: i :: m :: g :: c :: rest → Valid i → Valid m → Valid c →
    38 ≤ rest.length → ∀ name value,
      (some name, value) ∈ receivedRates.zip ((rest.take 38).map floatValue) →
        value = node.rate name

theorem not_acceptable_of_short {r i m g c : ℕ} (h : ws.length < 48) : ¬Acceptable (r :: i :: m :: g :: c :: ws) := by
  rintro ⟨_, _, _, _, _, rest, heq, -, -, -, hlen⟩
  simp only [List.cons.injEq] at heq
  obtain ⟨-, -, -, -, -, rfl⟩ := heq
  omega

theorem NodeState.eq_iff (a b : NodeState) :
    a = b ↔ a.mgr.hiRange = b.mgr.hiRange ∧ a.mgr.hiItemGuid = b.mgr.hiItemGuid ∧
      a.mgr.mailId = b.mgr.mailId ∧ a.mgr.hiCorpseGuid = b.mgr.hiCorpseGuid ∧
      a.mgr.stopEvent = b.mgr.stopEvent ∧ a.rate = b.rate ∧ a.skill = b.skill := by
  cases a with
  | mk mgr rate skill =>
    cases b with
    | mk mgr' rate' skill' =>
      cases mgr
      cases mgr'
      simp only [NodeState.mk.injEq, ObjectMgr.mk.injEq]
      tauto

theorem Ending.same_iff {node node' : NodeState} {ack : Option NodeAck}
    (h : Ending node ws ack node') :
    (ack ≠ some .ok → node' = node) ↔ Acceptable ws ∨ Repeats node ws := by
  cases h with
  | nothing hack =>
    refine iff_of_true (fun _ => rfl) (.inr ⟨?_, ?_, ?_, ?_, ?_⟩) <;> simp
  | @range _ hack r ws h =>
    have hacc : ¬Acceptable (r :: ws) := by
      rintro ⟨r', i, m, g, c, rest, heq, hi, -⟩
      exact h i _ (List.cons.inj heq).2 hi
    rw [NodeState.eq_iff, or_iff_right hacc]
    simp only [NodeState.ranged, and_self, and_true, hack, ne_eq, not_false_eq_true, forall_const]
    constructor
    · rintro rfl
      refine ⟨?_, ?_, ?_, ?_, ?_⟩
      all_goals grind
    · intro hrep
      exact hrep.range r _ rfl
  | @item _ hack r i hi ws h =>
    have hacc : ¬Acceptable (r :: i :: ws) := by
      rintro ⟨r', i', m, g, c, rest, heq, _, hm, -⟩
      exact h m _ (List.cons.inj (List.cons.inj heq).2).2 hm
    rw [NodeState.eq_iff, or_iff_right hacc]
    simp only [NodeState.ranged, NodeState.counted, ObjectMgr.setCounter, and_self, and_true, hack,
      ne_eq, not_false_eq_true, forall_const]
    constructor
    · rintro ⟨rfl, rfl⟩
      refine ⟨?_, ?_, ?_, ?_, ?_⟩
      all_goals grind
    · intro hrep
      exact ⟨hrep.range r _ rfl, hrep.item r _ _ rfl hi⟩
  | @mail _ hack r i m hi hm ws h =>
    have hacc : ¬Acceptable (r :: i :: m :: ws) := by
      rintro ⟨r', i', m', g, c, rest, heq, _, _, hc, -⟩
      exact h g c _ (List.cons.inj (List.cons.inj (List.cons.inj heq).2).2).2 hc
    rw [NodeState.eq_iff, or_iff_right hacc]
    simp only [NodeState.ranged, NodeState.counted, ObjectMgr.setCounter, and_self, and_true, hack,
      ne_eq, not_false_eq_true, forall_const]
    constructor
    · rintro ⟨rfl, rfl, rfl⟩
      refine ⟨?_, ?_, ?_, ?_, ?_⟩
      all_goals grind
    · intro hrep
      exact ⟨hrep.range r _ rfl, hrep.item r _ _ rfl hi, hrep.mail r _ _ _ rfl hi hm⟩
  | @corpse _ hack r i m g c hi hm hc ws h =>
    rw [NodeState.eq_iff, or_iff_right (not_acceptable_of_short (by omega))]
    simp only [NodeState.ranged, NodeState.counted, ObjectMgr.setCounter, and_self, and_true, hack,
      ne_eq, not_false_eq_true, forall_const]
    constructor
    · rintro ⟨rfl, rfl, rfl, rfl⟩
      refine ⟨?_, ?_, ?_, ?_, ?_⟩
      all_goals grind
    · intro hrep
      exact ⟨hrep.range r _ rfl, hrep.item r _ _ rfl hi, hrep.mail r _ _ _ rfl hi hm,
        hrep.corpse r _ _ _ _ _ rfl hi hm hc⟩
  | @rates _ hack r i m g c hi hm hc ws h hshort =>
    rw [NodeState.eq_iff, or_iff_right (not_acceptable_of_short (by omega))]
    simp only [NodeState.ranged, NodeState.counted, NodeState.rated, ObjectMgr.setCounter, and_true,
      true_and, hack, ne_eq, not_false_eq_true, forall_const,
      store_eq_iff nodup_receivedRates]
    constructor
    · rintro ⟨rfl, rfl, rfl, rfl, hrates⟩
      refine ⟨?_, ?_, ?_, ?_, ?_⟩
      all_goals grind
    · intro hrep
      exact ⟨hrep.range r _ rfl, hrep.item r _ _ rfl hi, hrep.mail r _ _ _ rfl hi hm,
        hrep.corpse r _ _ _ _ _ rfl hi hm hc, hrep.rates r _ _ _ _ _ rfl hi hm hc h⟩
  | accepted r g hi hm hc h =>
    exact iff_of_true (fun hack => absurd rfl hack) (.inl ⟨r, _, _, g, _, _, rfl, hi, hm, hc, h⟩)

def packetOf (contents : Bytes) (past : ℕ → UInt8) : ByteBuffer := ⟨contents, 0, past⟩

theorem ahead_packetOf (contents : Bytes) (past : ℕ → UInt8) :
    (packetOf contents past).ahead = contents := by
  simp [packetOf, ByteBuffer.ahead]

theorem init_all_or_nothing (node : NodeState) (contents : Bytes) (past : ℕ → UInt8) :
    ((handleInitPacket node (packetOf contents past)).ack ≠ some .ok →
        (handleInitPacket node (packetOf contents past)).node = node) ↔
      Acceptable (words contents) ∨ Repeats node (words contents) := by
  have hending := handleInitPacket_ending node (packetOf contents past)
  rw [ahead_packetOf] at hending
  exact hending.same_iff

theorem refused_stride_installed :
    ¬∀ (node : NodeState) (contents : Bytes) (past : ℕ → UInt8),
      (handleInitPacket node (packetOf contents past)).ack ≠ some .ok →
        (handleInitPacket node (packetOf contents past)).node = node := by
  intro h
  have hnode := h ⟨⟨2, 1, 1, 1, false⟩, fun _ => 0, fun _ => 0⟩
    [3, 0, 0, 0, 0xFE, 0xFF, 0xFF, 0xFF] (fun _ => 0) (by decide)
  exact absurd (congrArg (fun node => node.mgr.hiRange) hnode) (by decide)

end HysteriaCore.Cluster
