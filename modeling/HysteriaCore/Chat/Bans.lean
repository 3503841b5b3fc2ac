import HysteriaCore.Chat.Channel

/-!
# Who is banned is out

For any channel of the proxy, with whatever ban list the database has for it. The one call
that breaks it is the owner's kick or ban of himself from among other members.
-/

namespace HysteriaCore.Chat
open Lib

namespace Channel

def Apart (c : Channel) : Prop := ∀ k ∈ c.players, k ∉ c.banned

def Evicted (c : Channel) (e : Event) (t : Channel) : Prop :=
  match e.call with
  | .kickOrBan good badname _ => ∀ bad ∈ c.kickTarget e.realm good badname, bad.guid ∉ t.players
  | _ => True

def KeepsOut (c : Channel) (e : Event) : Prop :=
  match e.call with
  | .kickOrBan good badname _ =>
    ∀ bad ∈ c.kickTarget e.realm good badname, ¬ c.SelfEviction good bad.guid
  | _ => True

structure BanInv (c : Channel) : Prop where
  keyed : Keyed c
  apart : Apart c

theorem Apart.of_subset {c t : Channel} (h : Apart c) (hplayers : ∀ k ∈ t.players, k ∈ c.players)
    (hbanned : t.banned ⊆ c.banned) : Apart t :=
  fun k hk hb => h k (hplayers k hk) (hbanned hb)

variable {c : Channel}

theorem mem_edit {g k : ℕ} (hg : g ∈ c.players) (f : PlayerInfo → PlayerInfo)
    (h : k ∈ (c.edit g f).players) : k ∈ c.players := by
  rcases Finmap.mem_insert.mp h with rfl | h
  · exact hg
  · exact h

theorem mem_of_mem_setOwner {g k : ℕ} (hg : g ≠ 0) (hon : g ∈ c.players)
    (h : k ∈ (c.setOwner g).players) : k ∈ c.players := by
  obtain ⟨m, heq, -, hother⟩ := c.setOwner_spec hg
  rw [heq] at h
  by_cases hk : k = g
  · exact hk ▸ hon
  · obtain ⟨x, hx⟩ := Finmap.mem_iff.mp h
    obtain ⟨y, hy, -⟩ := Option.map_eq_some_iff.mp ((hother k hk).symm.trans hx)
    exact Finmap.mem_of_lookup_eq_some hy

variable {g : ℕ}

theorem setOwner_banned (c : Channel) (hg : g ≠ 0) : (c.setOwner g).banned = c.banned := by
  obtain ⟨m, heq, -⟩ := c.setOwner_spec hg
  rw [heq]

theorem Keyed.ne_zero (h : Keyed c) (hg : g ∈ c.players) : g ≠ 0 := by
  obtain ⟨i, hi⟩ := Finmap.mem_iff.mp hg
  exact (h g i hi).2

theorem BanInv.edit (h : BanInv c) (hg : g ∈ c.players)
    {f : PlayerInfo → PlayerInfo} (hplayer : ∀ i, (f i).player = i.player) : BanInv (c.edit g f) :=
  ⟨h.keyed.edit hg hplayer,
    h.apart.of_subset (fun _ hk => mem_edit hg f hk) (Finset.Subset.refl _)⟩

theorem BanInv.setOwner (h : BanInv c) (hg : g ∈ c.players) : BanInv (c.setOwner g) := by
  have hne := h.keyed.ne_zero hg
  refine ⟨h.keyed.setOwner hg, h.apart.of_subset (fun _ hk => mem_of_mem_setOwner hne hg hk) ?_⟩
  rw [setOwner_banned c hne]

theorem BanInv.handOver (h : BanInv c) (hg : g ∈ c.players) : BanInv (c.handOver g) :=
  (h.edit (f := PlayerInfo.setModerator true) hg fun _ => rfl).setOwner
    (Finmap.mem_insert.mpr (.inl rfl))

theorem BanInv.enter (h : BanInv c) {p : ℕ} (hp : p ≠ 0) (hbanned : p ∉ c.banned) : BanInv (c.enter p) := by
  have hin : BanInv { c with players := c.players.insert p ⟨p, MEMBER_FLAG_NONE⟩ } := by
    refine ⟨h.keyed.insert hp, fun k hk => ?_⟩
    rcases Finmap.mem_insert.mp hk with rfl | hk
    · exact hbanned
    · exact h.apart k hk
  unfold Channel.enter
  dsimp only
  split
  · exact hin
  · split
    · exact (hin.setOwner (Finmap.mem_insert.mpr (.inl rfl))).edit (f := PlayerInfo.setModerator true)
        (mem_setOwner _ hp) fun _ => rfl
    · exact hin

theorem BanInv.erase (h : BanInv c) (p : ℕ) : BanInv { c with players := c.players.erase p } :=
  ⟨h.keyed.erase p, h.apart.of_subset (fun _ hk => (Finmap.mem_erase.mp hk).2) (Finset.Subset.refl _)⟩

theorem BanInv.leave (h : BanInv c) (p : ℕ) : BanInv (c.leave p) := by
  have hout := h.erase p
  unfold Channel.leave
  dsimp only
  split
  · exact h
  · split
    · exact hout
    · split
      · cases hfirst : Channel.first { c with players := c.players.erase p } with
        | none => exact hout
        | some x =>
          obtain ⟨k, hk⟩ := first_spec hfirst
          dsimp only
          rw [(hout.keyed k x hk).1]
          exact hout.handOver (Finmap.mem_of_lookup_eq_some hk)
      · exact hout

theorem BanInv.evicted (h : BanInv c) (bad : ℕ) (ban : Bool) :
    BanInv { c with
      players := c.players.erase bad
      banned := if ban then insert bad c.banned else c.banned } := by
  refine ⟨h.keyed.erase bad, fun k hk hb => ?_⟩
  obtain ⟨hne, hon⟩ := Finmap.mem_erase.mp hk
  have hb' : k = bad ∨ k ∈ c.banned := by
    dsimp only at hb
    split at hb
    · exact Finset.mem_insert.mp hb
    · exact .inr hb
  exact h.apart k hon (hb'.resolve_left hne)

theorem BanInv.evict (h : BanInv c) {good bad : ℕ} {ban : Bool}
    (hgood : good ∈ c.players) (hok : ¬ c.SelfEviction good bad) :
    BanInv (c.evict good bad ban) ∧ bad ∉ (c.evict good bad ban).players := by
  have hout := h.evicted bad ban
  rw [evict_eq]
  dsimp only
  split
  · rename_i hover
    have hne : good ≠ bad := fun heq => hok ⟨heq.symm, hover⟩
    have hin : good ∈ c.players.erase bad := Finmap.mem_erase.mpr ⟨hne, hgood⟩
    refine ⟨hout.handOver hin, fun hbad => ?_⟩
    have hedit := mem_of_mem_setOwner (h.keyed.ne_zero hgood) (Finmap.mem_insert.mpr (.inl rfl)) hbad
    exact Finmap.notMem_erase_self (mem_edit hin _ hedit)
  · exact ⟨hout, Finmap.notMem_erase_self⟩

theorem mem_evict_of_self {good bad : ℕ} {ban : Bool} (hbad : bad ≠ 0)
    (hself : c.SelfEviction good bad) : bad ∈ (c.evict good bad ban).players := by
  obtain ⟨rfl, hover⟩ := hself
  rw [evict_eq]
  dsimp only
  rw [if_pos hover]
  exact mem_setOwner _ hbad

theorem BanInv.setMode (h : BanInv c) {r : Realm} {p : ℕ} {p2n : Bytes}
    {mod set : Bool} : BanInv (c.setMode r p p2n mod set) := by
  obtain heq | ⟨g, f, heq, hon, -, hplayer, -⟩ := c.setMode_cases r p p2n mod set
  · rwa [heq]
  · rw [heq]
    exact h.edit hon hplayer

theorem BanInv.step {c t : Channel} {e : Event} (h : BanInv c) (hok : c.KeepsOut e)
    (ht : c.step e = some t) : BanInv t ∧ Evicted c e t := by
  obtain ⟨r, call⟩ := e
  cases call with
  | join p pass =>
    obtain ⟨hp, rfl⟩ := guarded_eq_some.mp ht
    refine ⟨?_, trivial⟩
    by_cases henters : c.Enters r p pass
    · rw [join_of_enters henters]
      exact h.enter hp henters.2.1
    · rwa [join_of_not_enters henters]
  | leave p =>
    cases ht
    exact ⟨h.leave p, trivial⟩
  | kickOrBan good badname ban =>
    cases ht
    show BanInv (c.kickOrBan r good badname ban) ∧
      ∀ bad ∈ c.kickTarget r good badname, bad.guid ∉ (c.kickOrBan r good badname ban).players
    unfold Channel.kickOrBan
    cases htarget : c.kickTarget r good badname with
    | none => exact ⟨h, nofun⟩
    | some bad =>
      have hevict : BanInv (c.evict good bad.guid ban) ∧ bad.guid ∉ (c.evict good bad.guid ban).players :=
        h.evict (kickTarget_spec htarget).1 (hok bad htarget)
      refine ⟨hevict.1, fun b hb => ?_⟩
      cases hb
      exact hevict.2
  | unBan good badname =>
    cases ht
    refine ⟨?_, trivial⟩
    obtain ⟨b, hsub, hb⟩ := c.unBan_eq r good badname
    show BanInv (c.unBan r good badname)
    rw [hb]
    exact ⟨h.keyed, h.apart.of_subset (fun _ hk => hk) hsub⟩
  | password p pass =>
    cases ht
    refine ⟨?_, trivial⟩
    show BanInv (c.setPassword r p pass)
    unfold setPassword
    split
    · exact h
    · exact ⟨h.keyed, h.apart⟩
  | setMode p p2n mod set =>
    cases ht
    exact ⟨h.setMode, trivial⟩
  | setOwner p newname =>
    cases ht
    refine ⟨?_, trivial⟩
    show BanInv (c.setOwnerByName r p newname)
    unfold setOwnerByName
    cases htarget : c.ownerTarget r p newname with
    | none => exact h
    | some newp => exact h.handOver (ownerTarget_spec htarget)
  | announce p =>
    cases ht
    refine ⟨?_, trivial⟩
    show BanInv (c.toggleAnnounce r p)
    unfold toggleAnnounce
    split
    · exact h
    · exact ⟨h.keyed, h.apart⟩

/-- In a run where no owner evicts himself from among other members, nobody is both banned
and a member, and whoever is kicked or banned is out; and the first owner who does is not. -/
theorem bans_hold {c : Channel} (h : Reaches step KeepsOut Unused c) :
    Apart c ∧ ∀ e t, c.step e = some t → (Apart t ∧ Evicted c e t ↔ c.KeepsOut e) := by
  have hinv : BanInv c := by
    refine h.invariant ?_ fun _ _ _ hs hok ht => (BanInv.step hs hok ht).1
    rintro c ⟨hplayers, -⟩
    refine ⟨keyed_of_empty hplayers, fun k hk => ?_⟩
    rw [hplayers] at hk
    exact absurd hk Finmap.notMem_empty
  refine ⟨hinv.apart, fun e t ht => ⟨fun ⟨_, hevicted⟩ => ?_, fun hok => ?_⟩⟩
  · obtain ⟨r, call⟩ := e
    cases call with
    | kickOrBan good badname ban =>
      cases ht
      intro bad hbad hself
      have hkick : c.kickOrBan r good badname ban = c.evict good bad.guid ban := by
        rw [kickOrBan, hbad]
      refine hevicted bad hbad ?_
      show bad.guid ∈ (c.kickOrBan r good badname ban).players
      rw [hkick]
      exact mem_evict_of_self (hinv.keyed.ne_zero (kickTarget_spec hbad).2.1) hself
    | join _ _ | leave _ | unBan _ _ | password _ _ | setMode _ _ _ _ | setOwner _ _ | announce _ =>
      trivial
  · obtain ⟨hkept, hevicted⟩ := hinv.step hok ht
    exact ⟨hkept.apart, hevicted⟩

instance (c : Channel) (e : Event) : Decidable (c.KeepsOut e) :=
  match e with
  | ⟨r, .kickOrBan good badname _⟩ =>
    inferInstanceAs (Decidable (∀ bad ∈ c.kickTarget r good badname, _))
  | ⟨_, .join ..⟩ | ⟨_, .leave _⟩ | ⟨_, .unBan ..⟩ | ⟨_, .password ..⟩ | ⟨_, .setMode ..⟩
  | ⟨_, .setOwner ..⟩ | ⟨_, .announce _⟩ => isTrue trivial

theorem bans_hold_two :
    ∃ c, Reaches step KeepsOut Unused c ∧ c.players.keys = {1} ∧ c.banned = {2} ∧ Apart c := by
  obtain ⟨c, hc, h⟩ := Reaches.exists_of_replay step KeepsOut fresh_unused
    [⟨twoOnline, .join 1 []⟩, ⟨twoOnline, .join 2 []⟩, ⟨twoOnline, .kickOrBan 1 (ascii "Bert") true⟩,
      ⟨twoOnline, .join 2 []⟩]
    (by decide +kernel) (fun c => decide (c.players.keys = {1} ∧ c.banned = {2})) (by decide +kernel)
  obtain ⟨hplayers, hbanned⟩ := of_decide_eq_true h
  exact ⟨c, hc, hplayers, hbanned, (bans_hold hc).1⟩

theorem owner_bans_himself :
    ¬ ∀ c, Reaches step anyStep Unused c → Apart c ∧ ∀ e t, c.step e = some t → Evicted c e t := by
  intro hall
  obtain ⟨c, hc, h⟩ := Reaches.exists_of_replay step anyStep fresh_unused
    [⟨twoOnline, .join 1 []⟩, ⟨twoOnline, .join 2 []⟩, ⟨twoOnline, .kickOrBan 1 (ascii "Anna") true⟩]
    (replayOk_anyStep ..) (fun c => decide (1 ∈ c.players ∧ 1 ∈ c.banned)) (by decide +kernel)
  obtain ⟨hplayers, hbanned⟩ := of_decide_eq_true h
  exact (hall c hc).1 1 hplayers hbanned

end Channel

end HysteriaCore.Chat
