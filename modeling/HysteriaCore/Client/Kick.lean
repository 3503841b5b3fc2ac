import HysteriaCore.Client.NodeLink

/-!
# A kick is final (shade/Server/Client/ClientSession.cpp)
-/

namespace HysteriaCore.Client
open Lib

namespace Link

/-- Once `KickPlayer` was called the flag stands, and the next `UpdateSingle` and the next
`UpdateMulti` return false. -/
def KickFinal (s : Link) : Prop :=
  s.kickCalled = true →
    s.hasFlag .accountKicked = true ∧
    (∀ t, s.step .updateSingle = some t → t.world = .idle ∧ t.worldReturned = some false) ∧
    ∀ diff t, s.step (.updateMulti diff) = some t →
      t.multi = .idle ∧ t.multiReturned = some false

/-- `Handle_SMSG_LOGOUT_COMPLETE` does not clear the flag word of a kicked session. -/
def KeepsKick (s : Link) (e : LinkEvent) : Prop :=
  e = .clearFlags → s.hasFlag .accountKicked = false

instance (s : Link) (e : LinkEvent) : Decidable (KeepsKick s e) :=
  inferInstanceAs (Decidable (_ → _))

theorem kicked_step {s t : Link} {e : LinkEvent} (h : s.step e = some t) (he : e ≠ .clearFlags) :
    t.hasFlag .accountKicked = (s.hasFlag .accountKicked || decide (e = .kick)) ∧
      t.kickCalled = (s.kickCalled || decide (e = .kick)) := by
  cases e with
  | clearFlags => exact absurd rfl he
  | updateSingle | logoutResponse | logoutComplete | endNodePackets | updateMulti | authResponse
    | transfer | release | lost | endMulti =>
    obtain ⟨-, rfl⟩ := guarded_eq_some.mp h
    split <;> simp [hasFlag, setFlag, removeFlag, dropNodeSocket]
  | attempt master canEnter connects =>
    obtain ⟨-, rfl⟩ := guarded_eq_some.mp h
    unfold attempt
    split
    · simp [hasFlag]
    · split <;> simp [hasFlag]
  | _ =>
    obtain ⟨-, rfl⟩ := guarded_eq_some.mp h
    simp [hasFlag, setFlag, removeFlag, closeSubSocket, dropNodeSocket]

theorem kicked_eq_kickCalled {s : Link} (h : Reaches step KeepsKick Starts s) :
    s.hasFlag .accountKicked = s.kickCalled := by
  refine h.invariant (I := fun s => s.hasFlag .accountKicked = s.kickCalled) ?_ ?_
  · rintro s ⟨master, rfl⟩
    simp [initial, hasFlag]
  · intro s e t hs hok ht
    by_cases he : e = .clearFlags
    · subst he
      obtain ⟨-, rfl⟩ := guarded_eq_some.mp ht
      have hoff : s.hasFlag .accountKicked = false := hok rfl
      have hcall : s.kickCalled = false := hs.symm.trans hoff
      exact (FlagWord.hasFlag_zero _).trans hcall.symm
    · obtain ⟨hflag, hcall⟩ := kicked_step ht he
      rw [hflag, hcall, hs]

theorem kickFinal_of_kicked {s : Link} (hs : s.hasFlag .accountKicked = true) : KickFinal s := by
  intro _
  refine ⟨hs, ?_, ?_⟩
  · intro t ht
    obtain ⟨hat, rfl⟩ := guarded_eq_some.mp ht
    rw [if_pos hs]
    exact ⟨hat.2, rfl⟩
  · intro diff t ht
    obtain ⟨hat, rfl⟩ := guarded_eq_some.mp ht
    rw [if_pos hs]
    exact ⟨hat.2, rfl⟩

/-- In a run in which the logout handler resets the flag word of no kicked session, a kick
is final; the first reset of a kicked session ends that. -/
theorem kick_final_unless_reset {s : Link} (h : Reaches step KeepsKick Starts s) :
    KickFinal s ∧ ∀ e t, s.step e = some t → ¬ KeepsKick s e → ¬ KickFinal t := by
  have hinv := kicked_eq_kickCalled h
  constructor
  · intro hcall
    exact kickFinal_of_kicked (hinv.trans hcall) hcall
  · intro e t ht hbad hfinal
    have he : e = .clearFlags := by
      by_contra hne
      exact hbad fun h => absurd h hne
    subst he
    have hkicked : s.hasFlag .accountKicked = true := by
      by_contra hoff
      exact hbad fun _ => Bool.eq_false_iff.mpr hoff
    obtain ⟨-, rfl⟩ := guarded_eq_some.mp ht
    have hflag := (hfinal (hinv.symm.trans hkicked)).1
    exact absurd (hflag.symm.trans (FlagWord.hasFlag_zero _)) (by decide)

theorem kick_final_in_logout :
    ∃ s, Reaches step KeepsKick Starts s ∧ s.kickCalled = true ∧ KickFinal s := by
  obtain ⟨s, hs, h⟩ := Reaches.exists_of_replay step KeepsKick (initial_starts 1)
    (connectEvents 100000 0 ++ [.endMulti, .updateMulti 5000, .playerLogin 5000,
      .testReconnect 5000, .endMultiNodePackets, .release, .logoutRequest, .endMulti, .updateSingle,
      .logoutComplete, .playerLogout, .kick, .kickRemove, .compareMaster 1, .endNodePackets])
    (by decide) (fun s => s.kickCalled) (by decide)
  exact ⟨s, hs, h, (kick_final_unless_reset hs).1⟩

/-- The kick falls between the test of the logout flag and the reset of the flag word. -/
theorem kick_lost_in_logout : ¬ ∀ s, Reaches step anyStep Starts s → KickFinal s := by
  intro hall
  obtain ⟨s, hs, h⟩ := Reaches.exists_of_replay step anyStep (initial_starts 1)
    (logoutOnNode2 ++ [.updateSingle, .logoutComplete, .playerLogout, .compareMaster 1, .kick,
      .kickRemove, .closeSubSocket, .clearFlags])
    (replayOk_anyStep ..)
    (fun s => s.kickCalled && !s.hasFlag .accountKicked) (by decide)
  obtain ⟨hcall, hoff⟩ := Bool.and_eq_true_iff.mp h
  have hflag := (hall s hs hcall).1
  rw [hflag] at hoff
  exact absurd hoff (by decide)

end Link

end HysteriaCore.Client
