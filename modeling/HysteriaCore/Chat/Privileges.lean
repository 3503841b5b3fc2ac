import HysteriaCore.Chat.Channel

/-!
# Who may change a channel

A call changes nothing unless its actor is a moderator or a GM; `SetOwner` goes by `m_ownerGUID`
instead. The two are the same as long as the owner carries his flags, which he loses when he comes
back to a channel that never had another owner.
-/

namespace HysteriaCore.Chat
open Lib

namespace Channel

def Call.actor : Call → Option ℕ
  | .join _ _ | .leave _ => none
  | .kickOrBan good _ _ => some good
  | .unBan good _ => some good
  | .password p _ => some p
  | .setMode p _ _ _ => some p
  | .setOwner p _ => some p
  | .announce p => some p

structure Marked (c : Channel) : Prop where
  only : ∀ k i, c.players.lookup k = some i → i.isOwner = true → k = c.ownerGUID ∧ k ≠ 0
  owner : c.ownerGUID ≠ 0 → ∀ i, c.players.lookup c.ownerGUID = some i →
    i.isOwner = true ∧ i.isModerator = true

theorem Marked.of_same {c t : Channel} (h : c.Marked) (hplayers : t.players = c.players)
    (howner : t.ownerGUID = c.ownerGUID) : t.Marked := by
  constructor
  · rw [hplayers, howner]
    exact h.only
  · rw [hplayers, howner]
    exact h.owner

variable {c : Channel}

theorem Marked.setOwner
    (h : ∀ k i, c.players.lookup k = some i → i.isOwner = true → k = c.ownerGUID ∧ k ≠ 0) (g : ℕ) :
    (c.setOwner g).Marked := by
  -- the old owner has lost his flag
  have hcleared : ∀ k i, (c.players.lookup k).map (fun i =>
      if c.ownerGUID ≠ 0 ∧ k = c.ownerGUID then i.setOwner false else i) = some i →
      i.isOwner = false := by
    intro k i hi
    obtain ⟨y, hy, rfl⟩ := Option.map_eq_some_iff.mp hi
    by_cases hk : c.ownerGUID ≠ 0 ∧ k = c.ownerGUID
    · rw [if_pos hk]
      exact PlayerInfo.isOwner_setOwner false y
    · rw [if_neg hk]
      rw [← Bool.not_eq_true]
      intro hyo
      obtain ⟨hkey, hzero⟩ := h k y hy hyo
      exact hk ⟨hkey ▸ hzero, hkey⟩
  by_cases hg : g = 0
  · obtain ⟨m, heq, hlookup⟩ := c.clearOwner_spec
    have hzero : c.setOwner g = { c with players := m, ownerGUID := 0 } := by
      rw [Channel.setOwner, heq, hg]
      rfl
    rw [hzero]
    refine ⟨fun k i hi hio => ?_, fun hne => absurd rfl hne⟩
    rw [hcleared k i ((hlookup k).symm.trans hi)] at hio
    cases hio
  · obtain ⟨m, heq, ⟨i, hi, -, hio, him⟩, hother⟩ := c.setOwner_spec hg
    rw [heq]
    refine ⟨fun k x hx hxo => ?_, fun _ x hx => ?_⟩
    · by_cases hk : k = g
      · exact ⟨hk, hk ▸ hg⟩
      · rw [hcleared k x ((hother k hk).symm.trans hx)] at hxo
        cases hxo
    · cases hi.symm.trans hx
      exact ⟨hio, him⟩

variable {f : PlayerInfo → PlayerInfo}

theorem only_edit
    (h : ∀ k i, c.players.lookup k = some i → i.isOwner = true → k = c.ownerGUID ∧ k ≠ 0) {g : ℕ}
    (howner : ∀ i, (f i).isOwner = i.isOwner) :
    ∀ k i, (c.edit g f).players.lookup k = some i → i.isOwner = true → k = c.ownerGUID ∧ k ≠ 0 := by
  intro k x hx hxo
  by_cases hk : k = g
  · subst hk
    rw [lookup_edit_self, Option.some.injEq] at hx
    rw [← hx, howner] at hxo
    cases hl : c.players.lookup k with
    | none =>
      rw [info, hl] at hxo
      cases hxo
    | some i =>
      rw [info_of_lookup hl] at hxo
      exact h k i hl hxo
  · rw [lookup_edit_ne _ _ hk] at hx
    exact h k x hx hxo

theorem Marked.handOver
    (h : ∀ k i, c.players.lookup k = some i → i.isOwner = true → k = c.ownerGUID ∧ k ≠ 0) (g : ℕ) :
    (c.handOver g).Marked :=
  .setOwner (only_edit h (PlayerInfo.isOwner_setModerator true)) g

theorem Marked.edit (h : c.Marked) {g : ℕ} (hg : g ∈ c.players)
    (howner : ∀ i, (f i).isOwner = i.isOwner)
    (hmod : g = c.ownerGUID → ∀ i, i.isModerator = true → (f i).isModerator = true) :
    (c.edit g f).Marked := by
  refine ⟨only_edit h.only howner, fun hne x hx => ?_⟩
  replace hx : (c.edit g f).players.lookup c.ownerGUID = some x := hx
  by_cases hk : c.ownerGUID = g
  · obtain ⟨i, hi⟩ := Finmap.mem_iff.mp hg
    rw [hk, lookup_edit_self, info_of_lookup hi, Option.some.injEq] at hx
    obtain ⟨hio, him⟩ := h.owner hne i (hk ▸ hi)
    rw [← hx]
    exact ⟨(howner i).trans hio, hmod hk.symm i him⟩
  · rw [lookup_edit_ne _ _ hk] at hx
    exact h.owner hne x hx

theorem Marked.erase (h : c.Marked) (p : ℕ) : Marked { c with players := c.players.erase p } :=
  ⟨fun k i hi => h.only k i (lookup_of_erase hi), fun hne i hi => h.owner hne i (lookup_of_erase hi)⟩

variable {p : ℕ}

theorem Marked.enter (h : c.Marked) (hp : p ≠ c.ownerGUID) : (c.enter p).Marked := by
  have hinsert : Marked { c with players := c.players.insert p ⟨p, MEMBER_FLAG_NONE⟩ } := by
    refine ⟨fun k i hi hio => ?_, fun hne i hi => ?_⟩
    · by_cases hk : k = p
      · subst hk
        cases (Finmap.lookup_insert c.players).symm.trans hi
        simp [PlayerInfo.isOwner, PlayerInfo.has, MEMBER_FLAG_NONE] at hio
      · exact h.only k i ((Finmap.lookup_insert_of_ne _ hk).symm.trans hi) hio
    · exact h.owner hne i ((Finmap.lookup_insert_of_ne _ (Ne.symm hp)).symm.trans hi)
  unfold Channel.enter
  dsimp only
  split
  · exact hinsert
  · split
    · have hset := Marked.setOwner hinsert.only p
      by_cases hzero : p = 0
      · refine ⟨only_edit hset.only (PlayerInfo.isOwner_setModerator true), fun hne => absurd ?_ hne⟩
        rw [hzero]
        rfl
      · exact hset.edit (f := PlayerInfo.setModerator true) (mem_setOwner _ hzero)
          (PlayerInfo.isOwner_setModerator true) fun _ i _ => PlayerInfo.isModerator_setModerator true i
    · exact hinsert

theorem Marked.leave (h : c.Marked) (p : ℕ) : (c.leave p).Marked := by
  have herase := h.erase p
  unfold Channel.leave
  dsimp only
  split
  · exact h
  · split
    · exact herase
    · split
      · cases Channel.first { c with players := c.players.erase p } with
        | none => exact herase
        | some i => exact .handOver herase.only i.player
      · exact herase

theorem Marked.evict (h : c.Marked) (good bad : ℕ) (ban : Bool) : (c.evict good bad ban).Marked := by
  have herase : Marked { c with
      players := c.players.erase bad
      banned := if ban then Insert.insert bad c.banned else c.banned } :=
    (h.erase bad).of_same rfl rfl
  rw [evict_eq]
  dsimp only
  split
  · exact .handOver herase.only good
  · exact herase

theorem Marked.setMode (h : c.Marked) (r : Realm) (p : ℕ) (p2n : Bytes)
    (mod set : Bool) : (c.setMode r p p2n mod set).Marked := by
  obtain heq | ⟨g, f, heq, hon, -, -, howner, hmod⟩ := c.setMode_cases r p p2n mod set
  · rwa [heq]
  · rw [heq]
    exact h.edit hon howner hmod

def NoReturn (c : Channel) (e : Event) : Prop :=
  match e.call with
  | .join p pass => c.Enters e.realm p pass → p ≠ c.ownerGUID
  | _ => True

variable {e : Event}

theorem Marked.step {c t : Channel} (h : c.Marked) (hok : c.NoReturn e) (ht : c.step e = some t) : t.Marked := by
  obtain ⟨r, call⟩ := e
  cases call with
  | join p pass =>
    obtain ⟨-, rfl⟩ := guarded_eq_some.mp ht
    by_cases henters : c.Enters r p pass
    · rw [join_of_enters henters]
      exact h.enter (hok henters)
    · rwa [join_of_not_enters henters]
  | leave p =>
    cases ht
    exact h.leave p
  | kickOrBan good badname ban =>
    cases ht
    show (c.kickOrBan r good badname ban).Marked
    unfold Channel.kickOrBan
    cases c.kickTarget r good badname with
    | none => exact h
    | some bad => exact h.evict good bad.guid ban
  | unBan good badname =>
    cases ht
    obtain ⟨b, -, hb⟩ := c.unBan_eq r good badname
    show (c.unBan r good badname).Marked
    rw [hb]
    exact h.of_same rfl rfl
  | password p pass =>
    cases ht
    show (c.setPassword r p pass).Marked
    unfold setPassword
    split
    · exact h
    · exact h.of_same rfl rfl
  | setMode p p2n mod set =>
    cases ht
    exact h.setMode r p p2n mod set
  | setOwner p newname =>
    cases ht
    show (c.setOwnerByName r p newname).Marked
    unfold Channel.setOwnerByName
    cases c.ownerTarget r p newname with
    | none => exact h
    | some newp => exact .handOver h.only newp.guid
  | announce p =>
    cases ht
    show (c.toggleAnnounce r p).Marked
    unfold toggleAnnounce
    split
    · exact h
    · exact h.of_same rfl rfl

/-! ### Who has no privilege -/

def NoGM (e : Event) (p : ℕ) : Prop :=
  e.call.actor = some p ∧ p ≠ 0 ∧ isGMAccount (e.realm.security p) = false

def Unprivileged (c : Channel) (e : Event) : Prop :=
  ∃ p, NoGM e p ∧ ∀ i, c.players.lookup p = some i → i.isModerator = false ∧ i.isOwner = false

variable {r : Realm}

theorem mayModerate_eq_false
    (hgm : isGMAccount (r.security p) = false)
    (hflags : ∀ i, c.players.lookup p = some i → i.isModerator = false) :
    c.mayModerate r p = false := by
  rw [mayModerate, hgm, Bool.or_false]
  by_cases hon : p ∈ c.players
  · obtain ⟨i, hi⟩ := Finmap.mem_iff.mp hon
    rw [info_of_lookup hi, hflags i hi, Bool.and_false]
  · have hoff : c.isOn p = false := by simpa [isOn] using hon
    rw [hoff, Bool.false_and]

theorem ownerTarget_eq_none {newname : Bytes}
    (hgm : isGMAccount (r.security p) = false) (hp : p ∈ c.players → p ≠ c.ownerGUID) :
    c.ownerTarget r p newname = none := by
  unfold ownerTarget
  cases hplayer : r.findPlayer p with
  | none => rfl
  | some player =>
    have hsec : isGMAccount player.security = false := by
      rw [Realm.security, hplayer] at hgm
      exact hgm
    dsimp only
    by_cases hon : c.isOn p
    · rw [if_neg (by simp [hon]), if_pos ⟨by simp [hsec], hp (isOn_iff.mp hon)⟩]
    · rw [if_pos (by simpa using hon)]

theorem Marked.unchanged (h : c.Marked) (hno : c.Unprivileged e) : c.step e = some c := by
  obtain ⟨r, call⟩ := e
  obtain ⟨p, ⟨hactor, hzero, hgm⟩, hflags⟩ := hno
  have hmay : c.mayModerate r p = false := mayModerate_eq_false hgm fun i hi => (hflags i hi).1
  cases call with
  | join | leave => cases hactor
  | kickOrBan good badname ban =>
    cases hactor
    simp [Channel.step, Channel.kickOrBan, kickTarget, hmay]
  | unBan good badname =>
    cases hactor
    simp [Channel.step, Channel.unBan, hmay]
  | password p pass =>
    cases hactor
    simp [Channel.step, setPassword, hmay]
  | setMode p p2n mod set =>
    cases hactor
    have htarget : c.modeTarget r p p2n mod = none := by
      unfold modeTarget
      cases r.findPlayer p with
      | none => rfl
      | some player => simp [hmay]
    simp [Channel.step, Channel.setMode, htarget]
  | setOwner p newname =>
    cases hactor
    have htarget : c.ownerTarget r p newname = none := by
      refine ownerTarget_eq_none hgm fun hon heq => ?_
      obtain ⟨i, hi⟩ := Finmap.mem_iff.mp hon
      obtain ⟨hio, -⟩ := h.owner (heq ▸ hzero) i (heq ▸ hi)
      rw [(hflags i hi).2] at hio
      cases hio
    simp [Channel.step, setOwnerByName, htarget]
  | announce p =>
    cases hactor
    simp [Channel.step, toggleAnnounce, hmay]

/-! ### What the others can do to the owner -/

/-- A call by somebody else who is no GM, or somebody else who leaves, or a `Join`. -/
def Outside (o : ℕ) (_ : Channel) (e : Event) : Prop :=
  match e.call with
  | .join _ _ => True
  | .leave p => p ≠ o
  | _ => ∃ p, NoGM e p ∧ p ≠ o

structure StillOwner (c d : Channel) : Prop where
  ownerGUID : d.ownerGUID = c.ownerGUID
  entry : d.players.lookup c.ownerGUID = c.players.lookup c.ownerGUID
  only : ∀ k i, d.players.lookup k = some i → i.isOwner = true → k = c.ownerGUID

/-- Without a privilege nothing changes, and no run of others does anything to the owner. -/
structure Safe (c : Channel) : Prop where
  unprivileged : ∀ e, c.Unprivileged e → c.step e = some c
  owner : c.ownerGUID ≠ 0 → c.ownerGUID ∈ c.players → ∀ d,
    Reaches step (Outside c.ownerGUID) (· = c) d → c.StillOwner d

theorem lookup_join_of_owner {d : Channel} {pass : Bytes} {i : PlayerInfo}
    (hzero : d.ownerGUID ≠ 0) (hi : d.players.lookup d.ownerGUID = some i) :
    (d.join r p pass).ownerGUID = d.ownerGUID ∧
      (d.join r p pass).players.lookup d.ownerGUID = some i := by
  by_cases henters : d.Enters r p pass
  · have hne : d.ownerGUID ≠ p := fun heq => henters.1 (heq ▸ Finmap.mem_of_lookup_eq_some hi)
    have henter : d.enter p = { d with players := d.players.insert p ⟨p, MEMBER_FLAG_NONE⟩ } := by
      unfold Channel.enter
      dsimp only
      split
      · rfl
      · rw [if_neg fun hc => hzero hc.1]
    rw [join_of_enters henters, henter]
    exact ⟨rfl, (Finmap.lookup_insert_of_ne _ hne).trans hi⟩
  · rw [join_of_not_enters henters]
    exact ⟨rfl, hi⟩

theorem kickTarget_ne_owner {good : ℕ} {badname : Bytes} {bad : Player}
    (h : c.kickTarget r good badname = some bad) (hgm : isGMAccount (r.security good) = false)
    (hgood : good ≠ c.ownerGUID) : bad.guid ≠ c.ownerGUID := by
  unfold kickTarget at h
  split at h
  · cases h
  · cases hfind : r.findPlayerByName badname with
    | none => simp [hfind] at h
    | some b =>
      simp only [hfind] at h
      split_ifs at h with hon hguard
      cases h
      exact fun heq => hguard ⟨by simp [hgm], heq, hgood⟩

theorem Marked.outside_step {d t : Channel} {i : PlayerInfo} (h : d.Marked)
    (hzero : d.ownerGUID ≠ 0) (hi : d.players.lookup d.ownerGUID = some i)
    (hout : Outside d.ownerGUID d e) (ht : d.step e = some t) :
    t.ownerGUID = d.ownerGUID ∧ t.players.lookup d.ownerGUID = some i := by
  obtain ⟨r, call⟩ := e
  cases call with
  | join p pass =>
    obtain ⟨-, rfl⟩ := guarded_eq_some.mp ht
    exact lookup_join_of_owner hzero hi
  | leave p =>
    cases ht
    have hne : p ≠ d.ownerGUID := hout
    have hflag : p ∈ d.players → (d.info p).isOwner = false := by
      intro hp
      obtain ⟨j, hj⟩ := Finmap.mem_iff.mp hp
      rw [info_of_lookup hj, ← Bool.not_eq_true]
      exact fun hjo => hne (h.only p j hj hjo).1
    unfold Channel.leave
    split
    · exact ⟨rfl, hi⟩
    · rename_i hon
      rw [hflag (isOn_iff.mp (by simpa using hon))]
      have herase := (Finmap.lookup_erase_ne (s := d.players) (Ne.symm hne)).trans hi
      dsimp only
      split
      · exact ⟨rfl, herase⟩
      · rw [if_neg (by simp)]
        exact ⟨rfl, herase⟩
  | kickOrBan good badname ban =>
    cases ht
    obtain ⟨p, ⟨hactor, -, hgm⟩, hp⟩ := hout
    cases hactor
    show (d.kickOrBan r good badname ban).ownerGUID = _ ∧
      (d.kickOrBan r good badname ban).players.lookup _ = _
    unfold Channel.kickOrBan
    cases htarget : d.kickTarget r good badname with
    | none => exact ⟨rfl, hi⟩
    | some bad =>
      have hne := kickTarget_ne_owner htarget hgm hp
      dsimp only
      rw [evict_eq]
      dsimp only
      rw [if_neg fun hc => hne hc.1.symm]
      exact ⟨rfl, (Finmap.lookup_erase_ne (Ne.symm hne)).trans hi⟩
  | unBan good badname =>
    cases ht
    obtain ⟨b, -, hb⟩ := d.unBan_eq r good badname
    show (d.unBan r good badname).ownerGUID = _ ∧ (d.unBan r good badname).players.lookup _ = _
    rw [hb]
    exact ⟨rfl, hi⟩
  | password p pass =>
    cases ht
    show (d.setPassword r p pass).ownerGUID = _ ∧ (d.setPassword r p pass).players.lookup _ = _
    unfold setPassword
    split <;> exact ⟨rfl, hi⟩
  | setMode p p2n mod set =>
    cases ht
    obtain ⟨p', ⟨hactor, -, hgm⟩, hp⟩ := hout
    cases hactor
    show (d.setMode r p p2n mod set).ownerGUID = _ ∧ (d.setMode r p p2n mod set).players.lookup _ = _
    obtain heq | ⟨g, f, heq, -, hother, -⟩ := d.setMode_cases r p p2n mod set
    · rw [heq]
      exact ⟨rfl, hi⟩
    · rw [heq]
      exact ⟨rfl, (lookup_edit_ne d f (hother hp).symm).trans hi⟩
  | setOwner p newname =>
    cases ht
    obtain ⟨p', ⟨hactor, -, hgm⟩, hp⟩ := hout
    cases hactor
    show (d.setOwnerByName r p newname).ownerGUID = _ ∧
      (d.setOwnerByName r p newname).players.lookup _ = _
    unfold Channel.setOwnerByName
    rw [ownerTarget_eq_none hgm fun _ => hp]
    exact ⟨rfl, hi⟩
  | announce p =>
    cases ht
    show (d.toggleAnnounce r p).ownerGUID = _ ∧ (d.toggleAnnounce r p).players.lookup _ = _
    unfold toggleAnnounce
    split <;> exact ⟨rfl, hi⟩

theorem Marked.noReturn_of_mem {d : Channel} (hon : d.ownerGUID ∈ d.players) : d.NoReturn e := by
  obtain ⟨r, call⟩ := e
  cases call with
  | join p pass =>
    intro henters heq
    exact henters.1 (heq ▸ hon)
  | leave _ | kickOrBan _ _ _ | unBan _ _ | password _ _ | setMode _ _ _ _ | setOwner _ _
  | announce _ => trivial

theorem Marked.safe (h : c.Marked) : c.Safe := by
  refine ⟨fun e he => h.unchanged he, fun hzero hon d hd => ?_⟩
  obtain ⟨i, hi⟩ := Finmap.mem_iff.mp hon
  have hinv : d.Marked ∧ d.ownerGUID = c.ownerGUID ∧ d.players.lookup c.ownerGUID = some i := by
    refine hd.invariant (I := fun d => d.Marked ∧ d.ownerGUID = c.ownerGUID ∧
      d.players.lookup c.ownerGUID = some i) ?_ fun d e t hd hout ht => ?_
    · rintro d rfl
      exact ⟨h, rfl, hi⟩
    · obtain ⟨hmarked, howner, hentry⟩ := hd
      rw [← howner] at hentry hout hzero
      have hreturn := noReturn_of_mem (e := e) (Finmap.mem_of_lookup_eq_some hentry)
      obtain ⟨h1, h2⟩ := hmarked.outside_step hzero hentry hout ht
      exact ⟨hmarked.step hreturn ht, h1.trans howner, howner ▸ h2⟩
  obtain ⟨hmarked, howner, hentry⟩ := hinv
  exact ⟨howner, hentry.trans hi.symm, fun k x hx hxo => (hmarked.only k x hx hxo).1.trans howner⟩

theorem marked_of_reaches (h : Reaches step NoReturn Unused c) : c.Marked := by
  refine h.invariant (fun c hc => ?_) fun c e t hc hok ht => hc.step hok ht
  refine ⟨fun k i hi => ?_, fun hne => absurd hc.2 hne⟩
  rw [hc.1, Finmap.lookup_empty] at hi
  cases hi

theorem not_safe_of_return (hp : p ≠ 0) (heq : p = c.ownerGUID) : ¬ (c.enter p).Safe := by
  have henter : c.enter p = { c with players := c.players.insert p ⟨p, MEMBER_FLAG_NONE⟩ } := by
    unfold Channel.enter
    dsimp only
    split
    · rfl
    · rw [if_neg fun hc => hp (heq.trans hc.1)]
  have hlookup : (c.enter p).players.lookup p = some ⟨p, MEMBER_FLAG_NONE⟩ := by
    rw [henter]
    exact Finmap.lookup_insert _
  intro hsafe
  -- he is the only player online
  have hunchanged := hsafe.unprivileged
    ⟨⟨⟨[⟨p, [], SEC_PLAYER, 0⟩], List.nodup_singleton p⟩, false, false⟩, .setOwner p []⟩
    ⟨p, ⟨rfl, hp, by simp [Realm.security, Realm.findPlayer, KeyedList.find?, isGMAccount,
      SEC_PLAYER, SEC_GAMEMASTER]⟩, fun i hi => by
        cases hlookup.symm.trans hi
        exact ⟨by simp [PlayerInfo.isModerator, PlayerInfo.has, MEMBER_FLAG_NONE],
          by simp [PlayerInfo.isOwner, PlayerInfo.has, MEMBER_FLAG_NONE]⟩⟩
  have hon : (c.enter p).isOn p = true := isOn_iff.mpr (Finmap.mem_of_lookup_eq_some hlookup)
  have howner : (c.enter p).ownerGUID = p := by
    rw [henter]
    exact heq.symm
  have hhand : (c.enter p).handOver p = c.enter p := by
    simpa [Channel.step, setOwnerByName, ownerTarget, Realm.findPlayer, Realm.findPlayerByName,
      KeyedList.find?, hon, howner] using hunchanged
  obtain ⟨m, hset, ⟨i, hi, -, hio, -⟩, -⟩ :=
    ((c.enter p).edit p (PlayerInfo.setModerator true)).setOwner_spec hp
  have hi' : ((c.enter p).handOver p).players.lookup p = some i := by
    rw [Channel.handOver, hset]
    exact hi
  rw [hhand, hlookup, Option.some.injEq] at hi'
  rw [← hi'] at hio
  simp [PlayerInfo.isOwner, PlayerInfo.has, MEMBER_FLAG_NONE] at hio

/-- In a run where the player whom `m_ownerGUID` names does not come in, every state is safe; and
the first step where he does breaks it. -/
theorem safe_of_reaches {c : Channel} (h : Reaches step NoReturn Unused c) :
    c.Safe ∧ ∀ e t, c.step e = some t → (t.Safe ↔ c.NoReturn e) := by
  have hmarked := marked_of_reaches h
  refine ⟨hmarked.safe, fun e t ht => ⟨fun hsafe => ?_, fun hok => (hmarked.step hok ht).safe⟩⟩
  obtain ⟨r, call⟩ := e
  cases call with
  | join p pass =>
    obtain ⟨hp, rfl⟩ := guarded_eq_some.mp ht
    intro henters heq
    exact not_safe_of_return hp heq (join_of_enters henters ▸ hsafe)
  | leave _ | kickOrBan _ _ _ | unBan _ _ | password _ _ | setMode _ _ _ _ | setOwner _ _
  | announce _ => trivial

instance (c : Channel) (e : Event) : Decidable (c.NoReturn e) :=
  match e with
  | ⟨r, .join p pass⟩ => inferInstanceAs (Decidable (c.Enters r p pass → p ≠ c.ownerGUID))
  | ⟨_, .leave _⟩ | ⟨_, .kickOrBan ..⟩ | ⟨_, .unBan ..⟩ | ⟨_, .password ..⟩ | ⟨_, .setMode ..⟩
  | ⟨_, .setOwner ..⟩ | ⟨_, .announce _⟩ => isTrue trivial

theorem safe_of_reaches_two : ∃ c, Reaches step NoReturn Unused c ∧ c.ownerGUID = 1 ∧
    c.players.keys.card = 2 ∧ c.Safe := by
  obtain ⟨c, hc, h⟩ := Reaches.exists_of_replay step NoReturn fresh_unused
    [⟨twoOnline, .join 1 []⟩, ⟨twoOnline, .join 2 []⟩] (by decide +kernel)
    (fun c => decide (c.ownerGUID = 1 ∧ c.players.keys.card = 2)) (by decide +kernel)
  obtain ⟨howner, hcard⟩ := of_decide_eq_true h
  exact ⟨c, hc, howner, hcard, (safe_of_reaches hc).1⟩

/-- Anna kicks herself from a channel of her own where she is alone, comes back without a flag, and
makes herself the owner. -/
theorem owner_without_flag : ¬ ∀ c, Reaches step anyStep Unused c → c.Safe := by
  intro hall
  obtain ⟨c, hc, h⟩ := Reaches.exists_of_replay step anyStep fresh_unused
    [⟨twoOnline, .join 1 []⟩, ⟨twoOnline, .kickOrBan 1 (ascii "Anna") false⟩, ⟨twoOnline, .join 1 []⟩]
    (replayOk_anyStep ..)
    (fun c => decide (c.players.lookup 1 = some ⟨1, 0⟩ ∧
      (c.setOwnerByName twoOnline 1 (ascii "Anna")).players.lookup 1 = some ⟨1, 3⟩))
    (by decide +kernel)
  obtain ⟨hlookup, hchanged⟩ := of_decide_eq_true h
  have hno : c.Unprivileged ⟨twoOnline, .setOwner 1 (ascii "Anna")⟩ := by
    refine ⟨1, ⟨rfl, by decide, by decide +kernel⟩, fun i hi => ?_⟩
    cases hlookup.symm.trans hi
    exact ⟨by decide, by decide⟩
  have hsame := Option.some.inj ((hall c hc).unprivileged _ hno)
  have hsame : c.setOwnerByName twoOnline 1 (ascii "Anna") = c := hsame
  rw [hsame, hlookup] at hchanged
  exact absurd hchanged (by decide)

end Channel

end HysteriaCore.Chat
