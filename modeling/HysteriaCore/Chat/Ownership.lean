import HysteriaCore.Chat.Channel

/-!
# The owner of a custom channel

The owner is `m_ownerGUID` and carries a flag. All calls keep the two in line but two: the
owner who kicks himself is made a member again by `players[newowner]`, with no GUID in his
entry, and the owner who leaves nobody behind stays in `m_ownerGUID`, so that whoever joins
next owns nothing.
-/

namespace HysteriaCore.Chat
open Lib

namespace Channel

def Custom (c : Channel) : Prop :=
  c.players = ∅ ∧ c.ownerGUID = 0 ∧ c.channelId = 0 ∧ c.ownership = true

structure Flagged (c : Channel) : Prop where
  channelId : c.channelId = 0
  ownership : c.ownership = true
  keyed : Keyed c
  owner : ∀ k i, c.players.lookup k = some i → i.isOwner = true → k = c.ownerGUID

/-- The owner of a channel with members is one of them, and a moderator. -/
structure Inv (c : Channel) : Prop extends Flagged c where
  present : c.players.keys.Nonempty →
    ∃ i, c.players.lookup c.ownerGUID = some i ∧ i.isOwner = true ∧ i.isModerator = true

variable {c : Channel}

theorem nonempty_of_lookup {k : ℕ} {i : PlayerInfo} (h : c.players.lookup k = some i) : c.players.keys.Nonempty :=
  ⟨k, Finmap.mem_keys.mpr (Finmap.mem_of_lookup_eq_some h)⟩

variable {c t : Channel}

theorem Flagged.of_same (h : Flagged c) (hplayers : t.players = c.players)
    (hid : t.channelId = c.channelId) (hown : t.ownership = c.ownership)
    (howner : t.ownerGUID = c.ownerGUID) : Flagged t :=
  ⟨hid.trans h.channelId, hown.trans h.ownership, by
    rw [Keyed, hplayers]
    exact h.keyed, by
    rw [hplayers, howner]
    exact h.owner⟩

theorem Inv.of_same (h : Inv c) (hplayers : t.players = c.players)
    (hid : t.channelId = c.channelId) (hown : t.ownership = c.ownership)
    (howner : t.ownerGUID = c.ownerGUID) : Inv t :=
  ⟨h.toFlagged.of_same hplayers hid hown howner, by
    rw [hplayers, howner]
    exact h.present⟩

variable {g : ℕ}

theorem Flagged.setOwner (h : Flagged c) (hg : g ∈ c.players) : Inv (c.setOwner g) := by
  have hkeyed := h.keyed.setOwner hg
  obtain ⟨j, hj⟩ := Finmap.mem_iff.mp hg
  obtain ⟨m, heq, ⟨i, hi, -, howner, hmod⟩, hother⟩ := c.setOwner_spec (h.keyed g j hj).2
  rw [heq] at hkeyed ⊢
  refine ⟨⟨h.channelId, h.ownership, hkeyed, fun k x hx hxo => ?_⟩, fun _ => ⟨i, hi, howner, hmod⟩⟩
  show k = g
  by_contra hk
  obtain ⟨y, hy, hyx⟩ := Option.map_eq_some_iff.mp ((hother k hk).symm.trans hx)
  obtain ⟨-, hk0⟩ := h.keyed k y hy
  by_cases hold : k = c.ownerGUID
  · rw [if_pos ⟨hold ▸ hk0, hold⟩] at hyx
    simp [← hyx] at hxo
  · rw [if_neg fun hc => hold hc.2] at hyx
    exact hold (h.owner k y hy (hyx ▸ hxo))

variable {f : PlayerInfo → PlayerInfo}

theorem Flagged.edit (h : Flagged c) (hg : g ∈ c.players)
    (hplayer : ∀ i, (f i).player = i.player) (howner : ∀ i, (f i).isOwner = i.isOwner) : Flagged (c.edit g f) := by
  obtain ⟨j, hj⟩ := Finmap.mem_iff.mp hg
  refine ⟨h.channelId, h.ownership, h.keyed.edit hg hplayer, fun k x hx hxo => ?_⟩
  show k = c.ownerGUID
  by_cases hk : k = g
  · subst hk
    rw [lookup_edit_self, info_of_lookup hj] at hx
    cases hx
    exact h.owner k j hj (howner j ▸ hxo)
  · rw [lookup_edit_ne _ _ hk] at hx
    exact h.owner k x hx hxo

theorem Inv.edit (h : Inv c) (hg : g ∈ c.players)
    (hplayer : ∀ i, (f i).player = i.player)
    (howner : ∀ i, (f i).isOwner = i.isOwner)
    (hmod : g = c.ownerGUID → ∀ i, i.isModerator = true → (f i).isModerator = true) :
    Inv (c.edit g f) := by
  refine ⟨h.toFlagged.edit hg hplayer howner, fun _ => ?_⟩
  obtain ⟨j, hj⟩ := Finmap.mem_iff.mp hg
  obtain ⟨i, hi, hio, him⟩ := h.present (nonempty_of_lookup hj)
  show ∃ x, (c.edit g f).players.lookup c.ownerGUID = some x ∧ _
  by_cases hk : c.ownerGUID = g
  · rw [hk] at hi ⊢
    rw [lookup_edit_self, info_of_lookup hi]
    exact ⟨f i, rfl, (howner i).trans hio, hmod hk.symm i him⟩
  · rw [lookup_edit_ne _ _ hk]
    exact ⟨i, hi, hio, him⟩

theorem Flagged.handOver (h : Flagged c) (hg : g ∈ c.players) : Inv (c.handOver g) :=
  (h.edit (f := PlayerInfo.setModerator true) hg (fun _ => rfl)
    (PlayerInfo.isOwner_setModerator true)).setOwner
    (Finmap.mem_insert.mpr (.inl rfl))

/-! ### Each call -/

variable {p : ℕ}

theorem Flagged.insert (h : Flagged c) (hp : p ≠ 0) :
    Flagged { c with players := c.players.insert p ⟨p, MEMBER_FLAG_NONE⟩ } := by
  refine ⟨h.channelId, h.ownership, h.keyed.insert hp, fun k x hx hxo => ?_⟩
  by_cases hk : k = p
  · subst hk
    cases (Finmap.lookup_insert c.players).symm.trans hx
    simp [PlayerInfo.isOwner, PlayerInfo.has, MEMBER_FLAG_NONE] at hxo
  · exact h.owner k x ((Finmap.lookup_insert_of_ne _ hk).symm.trans hx) hxo

theorem Inv.enter (h : Inv c) (hp : p ≠ 0) (hnew : p ∉ c.players)
    (hok : c.players.keys.Nonempty ∨ c.ownerGUID = 0) : Inv (c.enter p) := by
  have hflagged := h.toFlagged.insert hp
  have hmem : p ∈ (c.players.insert p ⟨p, MEMBER_FLAG_NONE⟩ : PlayerList) :=
    Finmap.mem_insert.mpr (.inl rfl)
  unfold Channel.enter
  dsimp only
  rw [if_neg (by simp [isConstant, h.channelId])]
  by_cases hzero : c.ownerGUID = 0
  · rw [if_pos ⟨hzero, h.ownership⟩]
    exact (hflagged.setOwner hmem).edit (f := PlayerInfo.setModerator true) (mem_setOwner _ hp)
      (fun _ => rfl) (PlayerInfo.isOwner_setModerator true)
      fun _ i _ => PlayerInfo.isModerator_setModerator true i
  · -- the channel has members, so its owner is one of them, and is not `p`
    rw [if_neg fun hc => hzero hc.1]
    refine ⟨hflagged, fun _ => ?_⟩
    obtain ⟨i, hi, hflags⟩ := h.present (hok.resolve_right hzero)
    have hne : c.ownerGUID ≠ p := fun heq => hnew (heq ▸ Finmap.mem_of_lookup_eq_some hi)
    exact ⟨i, (Finmap.lookup_insert_of_ne _ hne).trans hi, hflags⟩

theorem Flagged.erase (h : Flagged c) (p : ℕ) : Flagged { c with players := c.players.erase p } :=
  ⟨h.channelId, h.ownership, h.keyed.erase p, fun k x hx => h.owner k x (lookup_of_erase hx)⟩

theorem Inv.erase (h : Inv c) (hp : p ≠ c.ownerGUID) : Inv { c with players := c.players.erase p } := by
  refine ⟨h.toFlagged.erase p, fun hne => ?_⟩
  obtain ⟨k, hk⟩ := hne
  have hk' : k ∈ c.players := (Finmap.mem_erase.mp (Finmap.mem_keys.mp hk)).2
  obtain ⟨i, hi, hflags⟩ := h.present ⟨k, Finmap.mem_keys.mpr hk'⟩
  exact ⟨i, (Finmap.lookup_erase_ne (Ne.symm hp)).trans hi, hflags⟩

theorem Flagged.inv_of_empty (h : Flagged c) (hempty : ¬ c.players.keys.Nonempty) :
    Inv c := ⟨h, fun hne => absurd hne hempty⟩

theorem Inv.leave (h : Inv c) (p : ℕ) : Inv (c.leave p) := by
  unfold Channel.leave
  split
  · exact h
  · rename_i hon
    have hmem : p ∈ c.players := isOn_iff.mp (by simpa using hon)
    obtain ⟨j, hj⟩ := Finmap.mem_iff.mp hmem
    obtain ⟨i, hi, hio, -⟩ := h.present (nonempty_of_lookup hj)
    have hconst : ¬ ({ c with players := c.players.erase p } : Channel).isConstant = true := by
      simp [isConstant, h.channelId]
    dsimp only
    rw [if_neg hconst]
    by_cases howner : (c.info p).isOwner = true
    · rw [if_pos ⟨howner, h.ownership⟩]
      have hflagged := h.toFlagged.erase p
      cases hfirst : Channel.first { c with players := c.players.erase p } with
      | none => exact hflagged.inv_of_empty (first_eq_none hfirst)
      | some x =>
        obtain ⟨k, hk⟩ := first_spec hfirst
        have hkey := (hflagged.keyed k x hk).1
        dsimp only
        rw [hkey]
        exact hflagged.handOver (Finmap.mem_of_lookup_eq_some hk)
    · rw [if_neg fun hc => howner hc.1]
      refine h.erase fun heq => howner ?_
      rw [heq, info_of_lookup hi, hio]

theorem Inv.evict (h : Inv c) {good bad : ℕ} {ban : Bool} (hgood : good ∈ c.players)
    (hok : ¬ c.SelfEviction good bad) : Inv (c.evict good bad ban) := by
  rw [evict_eq]
  dsimp only
  have hflagged : Flagged { c with
      players := c.players.erase bad
      banned := if ban then Insert.insert bad c.banned else c.banned } :=
    (h.toFlagged.erase bad).of_same rfl rfl rfl rfl
  by_cases howner : c.ownerGUID = bad
  · by_cases hne : (c.players.erase bad).keys.Nonempty
    · rw [if_pos ⟨howner, h.ownership, hne⟩]
      have hother : good ≠ bad := fun heq => hok ⟨heq.symm, howner, h.ownership, hne⟩
      exact hflagged.handOver (Finmap.mem_erase.mpr ⟨hother, hgood⟩)
    · rw [if_neg fun hc => hne hc.2.2]
      exact hflagged.inv_of_empty hne
  · rw [if_neg fun hc => howner hc.1]
    exact (h.erase (Ne.symm howner)).of_same rfl rfl rfl rfl

theorem Inv.setMode (h : Inv c) {r : Realm} {p2n : Bytes} {mod set : Bool} : Inv (c.setMode r p p2n mod set) := by
  obtain heq | ⟨g, f, heq, hon, -, hplayer, howner, hmod⟩ := c.setMode_cases r p p2n mod set
  · rwa [heq]
  · rw [heq]
    exact h.edit hon hplayer howner hmod

theorem Inv.setOwnerByName (h : Inv c) {r : Realm} {newname : Bytes} : Inv (c.setOwnerByName r p newname) := by
  unfold Channel.setOwnerByName
  cases htarget : c.ownerTarget r p newname with
  | none => exact h
  | some newp => exact h.toFlagged.handOver (ownerTarget_spec htarget)

/-! ### Runs -/

/-- Nobody enters an empty channel that has an owner, and no owner evicts himself from among
other members. -/
def KeepsOwner (c : Channel) (e : Event) : Prop :=
  match e.call with
  | .join p pass => c.Enters e.realm p pass → c.players.keys.Nonempty ∨ c.ownerGUID = 0
  | .kickOrBan good badname _ =>
    ∀ bad ∈ c.kickTarget e.realm good badname, ¬ c.SelfEviction good bad.guid
  | _ => True

theorem Inv.step {e : Event} (h : Inv c) (hok : c.KeepsOwner e) (ht : c.step e = some t) : Inv t := by
  obtain ⟨r, call⟩ := e
  cases call with
  | join p pass =>
    obtain ⟨hp, rfl⟩ := guarded_eq_some.mp ht
    by_cases henters : c.Enters r p pass
    · rw [join_of_enters henters]
      exact h.enter hp henters.1 (hok henters)
    · rwa [join_of_not_enters henters]
  | leave p =>
    cases ht
    exact h.leave p
  | kickOrBan good badname ban =>
    cases ht
    show Inv (c.kickOrBan r good badname ban)
    unfold Channel.kickOrBan
    cases htarget : c.kickTarget r good badname with
    | none => exact h
    | some bad => exact h.evict (kickTarget_spec htarget).1 (hok bad htarget)
  | unBan good badname =>
    cases ht
    obtain ⟨b, -, hb⟩ := c.unBan_eq r good badname
    show Inv (c.unBan r good badname)
    rw [hb]
    exact h.of_same rfl rfl rfl rfl
  | password p pass =>
    cases ht
    show Inv (c.setPassword r p pass)
    unfold setPassword
    split
    · exact h
    · exact h.of_same rfl rfl rfl rfl
  | setMode p p2n mod set =>
    cases ht
    exact h.setMode
  | setOwner p newname =>
    cases ht
    exact h.setOwnerByName
  | announce p =>
    cases ht
    show Inv (c.toggleAnnounce r p)
    unfold toggleAnnounce
    split
    · exact h
    · exact h.of_same rfl rfl rfl rfl

def unsets (c : Channel) (e : Event) : List (ℕ × ℕ) :=
  match e.call with
  | .setMode p p2n true false =>
    match c.modeTarget e.realm p p2n true with
    | some newp => if (c.info newp.guid).isModerator then [(p, newp.guid)] else []
    | none => []
  | _ => []

structure Run where
  channel : Channel
  unset : List (ℕ × ℕ)

namespace Run

def step (s : Run) (e : Event) : Option Run :=
  (s.channel.step e).map fun t => ⟨t, s.channel.unsets e ++ s.unset⟩

def Starts (s : Run) : Prop := s.channel.Custom ∧ s.unset = []

def KeepsOwner (s : Run) (e : Event) : Prop := s.channel.KeepsOwner e

def UnsetByItself (s : Run) (k : ℕ) : Prop := (k, k) ∈ s.unset ∧ ∀ u ∈ s.unset, u.2 = k → u.1 = k

structure Owned (s : Run) : Prop where
  moderator : ∃ i, s.channel.players.lookup s.channel.ownerGUID = some i ∧
    (i.isModerator = true ∨ s.UnsetByItself s.channel.ownerGUID)
  owner : ∀ k i, s.channel.players.lookup k = some i →
    (i.isOwner = true ↔ k = s.channel.ownerGUID)
  keyed : ∀ k i, s.channel.players.lookup k = some i → i.player = k

def Holds (s : Run) : Prop := s.channel.players.keys.Nonempty → s.Owned

end Run

theorem Inv.holds {s : Run} (h : Inv s.channel) : s.Holds := by
  intro hne
  obtain ⟨i, hi, hio, him⟩ := h.present hne
  refine ⟨⟨i, hi, .inl him⟩, fun k x hx => ⟨h.owner k x hx, ?_⟩, fun k x hx => (h.keyed k x hx).1⟩
  rintro rfl
  cases hi.symm.trans hx
  exact hio

theorem Inv.not_holds_enter (h : Inv c) {l : List (ℕ × ℕ)}
    (hempty : ¬ c.players.keys.Nonempty) (hzero : c.ownerGUID ≠ 0) :
    ¬ Run.Holds ⟨c.enter p, l⟩ := by
  have henter : c.enter p = { c with players := c.players.insert p ⟨p, MEMBER_FLAG_NONE⟩ } := by
    unfold Channel.enter
    dsimp only
    rw [if_neg (by simp [isConstant, h.channelId]), if_neg fun hc => hzero hc.1]
  intro hholds
  rw [henter] at hholds
  have hne : (Finmap.keys (c.players.insert p ⟨p, MEMBER_FLAG_NONE⟩)).Nonempty :=
    ⟨p, Finmap.mem_keys.mpr (Finmap.mem_insert.mpr (.inl rfl))⟩
  have howned := hholds hne
  obtain ⟨i, hi, -⟩ := howned.moderator
  have hi' : (c.players.insert p ⟨p, MEMBER_FLAG_NONE⟩ : PlayerList).lookup c.ownerGUID = some i := hi
  by_cases hk : c.ownerGUID = p
  · rw [hk, Finmap.lookup_insert] at hi'
    have howner := (howned.owner c.ownerGUID i hi).mpr rfl
    cases hi'
    simp [PlayerInfo.isOwner, PlayerInfo.has, MEMBER_FLAG_NONE] at howner
  · rw [Finmap.lookup_insert_of_ne _ hk] at hi'
    exact hempty (nonempty_of_lookup hi')

theorem Inv.not_holds_evict (h : Inv c) {good bad : ℕ} {ban : Bool} {l : List (ℕ × ℕ)}
    (hgood : good ∈ c.players) (hself : c.SelfEviction good bad) :
    ¬ Run.Holds ⟨c.evict good bad ban, l⟩ := by
  obtain ⟨rfl, howner, hownership, hne⟩ := hself
  obtain ⟨j, hj⟩ := Finmap.mem_iff.mp hgood
  have hzero := (h.keyed _ j hj).2
  obtain ⟨i, hi, hplayer⟩ := lookup_handOver_of_notMem
    (c := { c with
      players := c.players.erase bad
      banned := if ban then Insert.insert bad c.banned else c.banned }) hzero Finmap.notMem_erase_self
  have hevict : (c.evict bad bad ban).players.lookup bad = some i := by
    rw [evict_eq]
    dsimp only
    rw [if_pos ⟨howner, hownership, hne⟩]
    exact hi
  intro hholds
  have hkeyed := (hholds (nonempty_of_lookup hevict)).keyed bad i hevict
  exact hzero (hkeyed.symm.trans hplayer)

namespace Run

theorem reaches_inv {s : Run} (h : Reaches step KeepsOwner Starts s) : Inv s.channel := by
  refine h.invariant (I := fun s => Inv s.channel) ?_ fun s e t hs hok ht => ?_
  · rintro s ⟨⟨hplayers, howner, hid, hown⟩, -⟩
    refine Flagged.inv_of_empty ⟨hid, hown, keyed_of_empty hplayers, fun k i hi => ?_⟩ (by simp [hplayers])
    rw [hplayers, Finmap.lookup_empty] at hi
    cases hi
  · obtain ⟨c, hc, rfl⟩ := Option.map_eq_some_iff.mp ht
    exact hs.step hok hc

/-- In a run where nobody enters an empty channel that has an owner and no owner evicts
himself from among others, the owner is what he should be in every state; and the first
step that is none of these breaks it. -/
theorem owner_of_reaches {s : Run} (h : Reaches step KeepsOwner Starts s) :
    s.Holds ∧ ∀ e t, s.step e = some t → (t.Holds ↔ s.KeepsOwner e) := by
  have hinv := reaches_inv h
  refine ⟨hinv.holds, fun e t ht => ?_⟩
  obtain ⟨c, hc, rfl⟩ := Option.map_eq_some_iff.mp ht
  refine ⟨fun hholds => ?_, fun hok => (hinv.step hok hc).holds⟩
  obtain ⟨r, call⟩ := e
  cases call with
  | join p pass =>
    obtain ⟨-, rfl⟩ := guarded_eq_some.mp hc
    intro henters
    by_contra hnot
    obtain ⟨hempty, hzero⟩ := not_or.mp hnot
    have hjoin : s.channel.join r p pass = s.channel.enter p := join_of_enters henters
    exact hinv.not_holds_enter hempty hzero (hjoin ▸ hholds)
  | kickOrBan good badname ban =>
    cases hc
    intro bad hbad hself
    have hkick : s.channel.kickOrBan r good badname ban = s.channel.evict good bad.guid ban := by
      rw [kickOrBan, hbad]
    exact hinv.not_holds_evict (kickTarget_spec hbad).1 hself (hkick ▸ hholds)
  | leave _ | unBan _ _ | password _ _ | setMode _ _ _ _ | setOwner _ _ | announce _ => trivial

instance (s : Run) (e : Event) : Decidable (s.KeepsOwner e) :=
  match e with
  | ⟨r, .join p pass⟩ => inferInstanceAs (Decidable (s.channel.Enters r p pass → _))
  | ⟨r, .kickOrBan good badname _⟩ =>
    inferInstanceAs (Decidable (∀ bad ∈ s.channel.kickTarget r good badname, _))
  | ⟨_, .leave _⟩ | ⟨_, .unBan ..⟩ | ⟨_, .password ..⟩ | ⟨_, .setMode ..⟩ | ⟨_, .setOwner ..⟩
  | ⟨_, .announce _⟩ => isTrue trivial

theorem fresh_starts : Starts ⟨fresh, []⟩ := ⟨⟨rfl, rfl, rfl, rfl⟩, rfl⟩

/-- Bert joins second and gets the channel from Anna, who leaves and comes back. -/
theorem owner_of_reaches_two :
    ∃ s, Reaches step KeepsOwner Starts s ∧ s.channel.ownerGUID = 2 ∧ s.channel.players.keys.card = 2 ∧
      s.Holds := by
  obtain ⟨s, hs, h⟩ := Reaches.exists_of_replay step KeepsOwner fresh_starts
    [⟨twoOnline, .join 1 []⟩, ⟨twoOnline, .join 2 []⟩, ⟨twoOnline, .setOwner 1 (ascii "bert")⟩,
      ⟨twoOnline, .leave 1⟩, ⟨twoOnline, .join 1 []⟩]
    (by decide +kernel)
    (fun s => decide (s.channel.ownerGUID = 2 ∧ s.channel.players.keys.card = 2)) (by decide +kernel)
  obtain ⟨howner, hcard⟩ := of_decide_eq_true h
  exact ⟨s, hs, howner, hcard, (owner_of_reaches hs).1⟩

theorem owner_kicks_himself : ¬ ∀ s, Reaches step anyStep Starts s → s.Holds := by
  intro hall
  obtain ⟨s, hs, h⟩ := Reaches.exists_of_replay step anyStep fresh_starts
    [⟨twoOnline, .join 1 []⟩, ⟨twoOnline, .join 2 []⟩, ⟨twoOnline, .kickOrBan 1 (ascii "Anna") false⟩]
    (replayOk_anyStep ..) (fun s => decide (s.channel.players.lookup 1 = some ⟨0, 3⟩)) (by decide +kernel)
  have hlookup : s.channel.players.lookup 1 = some ⟨0, 3⟩ := of_decide_eq_true h
  exact absurd ((hall s hs (nonempty_of_lookup hlookup)).keyed 1 _ hlookup) (by decide)

end Run

end Channel

end HysteriaCore.Chat
