import HysteriaCore.Combat.References
import Mathlib.Tactic.Linarith

/-!
# The order of the online list

The sort is lazy: some changes of a threat raise the flag, and the others have to leave the list in
order as it is.
-/

namespace HysteriaCore.Combat
open Lib

namespace ThreatManager
variable (env : Surroundings) (m : ThreatManager)

def InOrder : Prop := m.online.Pairwise fun p q => m.threat q ≤ m.threat p

instance : Decidable m.InOrder := inferInstanceAs (Decidable (List.Pairwise ..))

def Settled : Prop := m.iDirty = true ∨ m.InOrder

/-! ### What leaves the list in order -/

def JoinsLast (threat : ℚ) : Prop := m.iDirty = true ∨ m.Exceeds threat ∨ ∀ q ∈ m.online, threat ≤ m.threat q

def isReachable (p : ℕ) : Bool :=
  ((m.ref p).isValid || env.found (m.ref p).iUnitGuid) && env.accessible (m.ref p).iUnitGuid

def Between (p : ℕ) (threat : ℚ) : Prop :=
  m.online.Pairwise fun q r => (r = p → threat ≤ m.threat q) ∧ (q = p → m.threat r ≤ threat)

/-- A change of the threat of one reference raises the flag or leaves the reference in its place. -/
def InPlace (p : ℕ) (modThreat : ℚ) : Prop :=
  ((m.ref p).iOnline = true → m.iDirty = true ∨ m.Raises p modThreat ∨ m.Between p (m.threat p + modThreat)) ∧
  ((m.ref p).iOnline = false → m.Raises p modThreat ∨
    (m.isReachable env p = true → m.JoinsLast (m.threat p + modThreat)))

def WithReference (victim : ℕ) (ok : ThreatManager → ℕ → Prop) : Prop :=
  match m.find victim with
  | some p => ok m p
  | none => ok (m.create victim) m.nextRef

def AddInPlace : List ℕ → ThreatManager → ℕ → ℚ → Prop
  | [], m, p, modThreat => m.InPlace env p modThreat
  | owner :: owners, m, p, modThreat =>
    m.InPlace env p modThreat ∧
      (((m.addOwnThreat env p modThreat).ref p).isValid = true ∧ 0 ≤ modThreat →
        (m.addOwnThreat env p modThreat).WithReference owner fun m q => AddInPlace owners m q 0)

def RefInPlace (p : ℕ) (modThreat : ℚ) : Prop := AddInPlace env (env.owners (m.ref p).iUnitGuid) m p modThreat

def UnitInPlace (victim : ℕ) (threat : ℚ) : Prop :=
  m.WithReference victim fun m p => AddInPlace env (env.owners victim) m p threat

def DoAddInPlace (victim : ℕ) (threat : ℚ) : Prop :=
  match env.redirect victim with
  | some (redirectTarget, percent, isValidProcess) =>
    if (0 < threat ∧ percent ≠ 0) ∧ isValidProcess = true then
      m.UnitInPlace env redirectTarget (redirected env victim threat) ∧
        (m.addUnitThreat env redirectTarget (redirected env victim threat)).UnitInPlace env victim
          (threat - redirected env victim threat)
    else m.UnitInPlace env victim (threat - redirected env victim threat)
  | none => m.UnitInPlace env victim threat

def PercentInPlace (p : ℕ) (percent : ℤ) : Prop :=
  0 < m.threat p → m.RefInPlace env p (m.threat p * percent / 100)

def TempInPlace (p : ℕ) (threat : ℚ) : Prop :=
  (m.ref p).iTempThreatModifier = 0 → threat ≠ 0 →
    (m.setRef p { m.ref p with iTempThreatModifier := threat }).RefInPlace env p threat

def ResetInPlace (p : ℕ) : Prop :=
  (m.ref p).iTempThreatModifier ≠ 0 → m.RefInPlace env p (-(m.ref p).iTempThreatModifier)

def OfFound (found : Option ℕ) (ok : ℕ → Prop) : Prop := ∀ p ∈ found, ok p

instance (found : Option ℕ) (ok : ℕ → Prop) [DecidablePred ok] : Decidable (OfFound found ok) :=
  match found with
  | none => isTrue fun _ h => by cases h
  | some p => decidable_of_iff (ok p) (by simp [OfFound])

def KeepsOrder : Event → Prop
  | .doAddThreat env victim threat => m.DoAddInPlace env victim threat
  | .modifyThreatPercent env victim percent =>
    OfFound (m.getReferenceByTarget m.online victim) fun p => m.PercentInPlace env p percent
  | .tauntApply env taunter => OfFound m.iCurrentVictim fun v =>
    OfFound (m.getReferenceByTarget m.online taunter) fun p =>
      m.threat p < m.threat v → m.TempInPlace env p (m.threat v - m.threat p)
  | .tauntFadeOut env taunter => OfFound (m.getReferenceByTarget m.online taunter) fun p => m.ResetInPlace env p
  | .addTempThreat env victim threat => OfFound (m.linked victim) fun p => m.TempInPlace env p threat
  | .resetTempThreat env victim => OfFound (m.linked victim) fun p => m.ResetInPlace env p
  | .addThreatPercent env victim percent => OfFound (m.linked victim) fun p => m.PercentInPlace env p percent
  | .setOnlineOfflineState victim isOnline => OfFound (m.linked victim) fun p =>
    (m.ref p).iOnline = false ∧ isOnline = true → m.JoinsLast (m.threat p)
  | .updateOnlineStatus env victim => OfFound (m.linked victim) fun p =>
    (m.ref p).iOnline = false ∧ m.isReachable env p = true → m.JoinsLast (m.threat p)
  | _ => True

instance (threat : ℚ) : Decidable (m.JoinsLast threat) := inferInstanceAs (Decidable (_ ∨ _ ∨ _))

instance (p : ℕ) (threat : ℚ) : Decidable (m.Between p threat) := inferInstanceAs (Decidable (List.Pairwise ..))

instance (p : ℕ) (modThreat : ℚ) : Decidable (m.InPlace env p modThreat) := inferInstanceAs (Decidable (_ ∧ _))

instance (victim : ℕ) (ok : ThreatManager → ℕ → Prop) [∀ m p, Decidable (ok m p)] :
    Decidable (m.WithReference victim ok) :=
  match h : m.find victim with
  | some p => decidable_of_iff (ok m p) (by simp only [WithReference, h])
  | none => decidable_of_iff (ok (m.create victim) m.nextRef) (by simp only [WithReference, h])

instance AddInPlace.decidable : ∀ owners m p modThreat, Decidable (AddInPlace env owners m p modThreat)
  | [], m, p, modThreat => inferInstanceAs (Decidable (m.InPlace env p modThreat))
  | _ :: owners, _, _, _ =>
    have : ∀ m q, Decidable (AddInPlace env owners m q 0) := fun m q => AddInPlace.decidable owners m q 0
    inferInstanceAs (Decidable (_ ∧ (_ → _)))

instance (p : ℕ) (modThreat : ℚ) : Decidable (m.RefInPlace env p modThreat) :=
  inferInstanceAs (Decidable (AddInPlace ..))

instance (victim : ℕ) (threat : ℚ) : Decidable (m.UnitInPlace env victim threat) :=
  inferInstanceAs (Decidable (WithReference ..))

instance (victim : ℕ) (threat : ℚ) : Decidable (m.DoAddInPlace env victim threat) :=
  match h : env.redirect victim with
  | some (redirectTarget, percent, isValidProcess) =>
    decidable_of_iff (if (0 < threat ∧ percent ≠ 0) ∧ isValidProcess = true then
      m.UnitInPlace env redirectTarget (redirected env victim threat) ∧
        (m.addUnitThreat env redirectTarget (redirected env victim threat)).UnitInPlace env victim
          (threat - redirected env victim threat)
      else m.UnitInPlace env victim (threat - redirected env victim threat)) (by simp only [DoAddInPlace, h])
  | none => decidable_of_iff (m.UnitInPlace env victim threat) (by simp only [DoAddInPlace, h])

instance (p : ℕ) (percent : ℤ) : Decidable (m.PercentInPlace env p percent) := inferInstanceAs (Decidable (_ → _))

instance (p : ℕ) (threat : ℚ) : Decidable (m.TempInPlace env p threat) := inferInstanceAs (Decidable (_ → _ → _))

instance (p : ℕ) : Decidable (m.ResetInPlace env p) := inferInstanceAs (Decidable (_ → _))

instance : ∀ e, Decidable (m.KeepsOrder e)
  | .doAddThreat .. => inferInstanceAs (Decidable (DoAddInPlace ..))
  | .modifyThreatPercent .. => inferInstanceAs (Decidable (OfFound ..))
  | .tauntApply .. => inferInstanceAs (Decidable (OfFound ..))
  | .tauntFadeOut .. => inferInstanceAs (Decidable (OfFound ..))
  | .addTempThreat .. => inferInstanceAs (Decidable (OfFound ..))
  | .resetTempThreat .. => inferInstanceAs (Decidable (OfFound ..))
  | .addThreatPercent .. => inferInstanceAs (Decidable (OfFound ..))
  | .setOnlineOfflineState .. => inferInstanceAs (Decidable (OfFound ..))
  | .updateOnlineStatus .. => inferInstanceAs (Decidable (OfFound ..))
  | .resetAllAggro .. => isTrue trivial
  | .deleteReference _ => isTrue trivial
  | .clearReferences => isTrue trivial
  | .setCurrentVictim _ => isTrue trivial
  | .getHostilTarget _ => isTrue trivial

section
variable {env : Surroundings} {m m' : ThreatManager} {p : ℕ}

/-! ### Changes of one reference -/

theorem InOrder.of_sublist (h : m.InOrder) (hlist : m'.online.Sublist m.online)
    (hthreat : ∀ q ∈ m'.online, m'.threat q = m.threat q) : m'.InOrder := by
  refine (List.Pairwise.sublist hlist h).imp_of_mem fun {p q} hp hq hle => ?_
  rw [hthreat p hp, hthreat q hq]
  exact hle

theorem Settled.of_sublist (h : m.Settled) (hdirty : m.iDirty = true → m'.iDirty = true)
    (hlist : m'.online.Sublist m.online) (hthreat : ∀ q ∈ m'.online, m'.threat q = m.threat q) : m'.Settled :=
  h.imp hdirty fun horder => horder.of_sublist hlist hthreat

variable {threat : ℚ}

theorem JoinsLast.congr (h : m.JoinsLast threat) (hdirty : m'.iDirty = m.iDirty)
    (hcurrent : m'.iCurrentVictim = m.iCurrentVictim) (hlist : m'.online = m.online)
    (hvictim : ∀ v ∈ m.iCurrentVictim, v ∈ m.online)
    (hthreat : ∀ q ∈ m.online, m'.threat q = m.threat q) : m'.JoinsLast threat := by
  rcases h with hflag | ⟨v, hv, hmore⟩ | hleast
  · exact .inl (hdirty.trans hflag)
  · refine .inr (.inl ⟨v, hcurrent.symm ▸ hv, ?_⟩)
    rw [hthreat v (hvictim v hv)]
    exact hmore
  · refine .inr (.inr fun q hq => ?_)
    rw [hlist] at hq
    rw [hthreat q hq]
    exact hleast q hq

theorem threat_setRef_self (r : HostileReference) : (m.setRef p r).threat p = r.iThreat := by
  rw [threat, setRef_self]

theorem threat_setRef_of_ne {q : ℕ} (hne : q ≠ p) (r : HostileReference) :
    (m.setRef p r).threat q = m.threat q := by
  rw [threat, setRef_of_ne m hne, threat]

theorem threat_setRef {r : HostileReference} (h : r.iThreat = m.threat p) (q : ℕ) :
    (m.setRef p r).threat q = m.threat q := by
  by_cases hq : q = p
  · rw [hq, threat_setRef_self, h]
  · exact threat_setRef_of_ne hq r

theorem Settled.setRef (h : m.Settled) {r : HostileReference} (hthreat : r.iThreat = m.threat p) :
    (m.setRef p r).Settled := h.of_sublist id (.refl _) fun q _ => threat_setRef hthreat q

theorem Settled.wentOnline (h : m.Settled) (hlast : m.JoinsLast (m.threat p)) : (m.wentOnline p).Settled := by
  rcases hlast with hflag | hmore | hleast
  · exact .inl (Bool.or_eq_true_iff.mpr (.inl hflag))
  · exact .inl (Bool.or_eq_true_iff.mpr (.inr (decide_eq_true hmore)))
  · refine h.imp (fun hflag => Bool.or_eq_true_iff.mpr (.inl hflag)) fun horder => ?_
    refine List.pairwise_append.mpr ⟨horder, List.pairwise_singleton _ _, fun q hq r hr => ?_⟩
    obtain rfl := List.mem_singleton.mp hr
    exact hleast q hq

theorem Settled.wentOffline (h : m.Settled) (p : ℕ) : (m.wentOffline p).Settled :=
  h.of_sublist (fun hflag => Bool.or_eq_true_iff.mpr (.inl hflag)) List.filter_sublist fun _ _ => rfl

theorem Settled.setOnlineOfflineState (h : m.Settled) (hsound : m.Sound) {isOnline : Bool}
    (hlast : (m.ref p).iOnline = false ∧ isOnline = true → m.JoinsLast (m.threat p)) :
    (m.setOnlineOfflineState p isOnline).Settled := by
  rw [ThreatManager.setOnlineOfflineState]
  have hthreat := threat_setRef (m := m) (p := p) (r := { m.ref p with iOnline := isOnline }) rfl
  have hset : (m.setRef p { m.ref p with iOnline := isOnline }).Settled := h.setRef rfl
  split
  · exact h
  next hne =>
    cases isOnline with
    | true =>
      have hoff : (m.ref p).iOnline = false := Bool.eq_false_of_not_eq_true hne
      refine hset.wentOnline ?_
      rw [hthreat p]
      exact (hlast ⟨hoff, rfl⟩).congr rfl rfl rfl hsound.current fun q _ => hthreat q
    | false => exact hset.wentOffline p

theorem Settled.updateOnlineStatus (h : m.Settled) (hsound : m.Sound)
    (hlast : (m.ref p).iOnline = false ∧ m.isReachable env p = true → m.JoinsLast (m.threat p)) :
    (m.updateOnlineStatus env p).Settled := by
  unfold ThreatManager.updateOnlineStatus
  extract_lets isValid
  have hthreat := threat_setRef (m := m) (p := p) (r := { m.ref p with isValid := isValid }) rfl
  have hset : (m.setRef p { m.ref p with isValid := isValid }).Settled := h.setRef rfl
  have hlinked : Grows m (m.setRef p { m.ref p with isValid := isValid }) := hsound.setRef rfl rfl
  refine hset.setOnlineOfflineState hlinked.sound fun hcomes => ?_
  rw [setRef_self] at hcomes
  rw [hthreat p]
  exact (hlast hcomes).congr rfl rfl rfl hsound.current fun q _ => hthreat q

variable {modThreat : ℚ}

theorem threatChange_settled (h : m.Settled ∨ m.Raises p modThreat) : (m.threatChange p modThreat).Settled := by
  rcases h with hsettled | hraises
  · exact hsettled.of_sublist (fun hflag => Bool.or_eq_true_iff.mpr (.inl hflag)) (.refl _) fun _ _ => rfl
  · exact .inl (Bool.or_eq_true_iff.mpr (.inr (decide_eq_true hraises)))

theorem Raises.ne_zero (h : m.Raises p modThreat) : modThreat ≠ 0 := by
  rcases h with ⟨-, hneg⟩ | ⟨-, hpos⟩
  · exact hneg.ne
  · exact hpos.ne'

theorem iCurrentVictim_updateOnlineStatus (hoff : (m.ref p).iOnline = false) :
    (m.updateOnlineStatus env p).iCurrentVictim = m.iCurrentVictim := by
  unfold ThreatManager.updateOnlineStatus
  extract_lets isValid
  rw [ThreatManager.setOnlineOfflineState, setRef_self]
  dsimp only
  cases hon : isValid && env.accessible (m.ref p).iUnitGuid with
  | true =>
    rw [if_neg (by rw [hoff]; exact Bool.false_ne_true)]
    rfl
  | false =>
    rw [if_pos hoff]
    rfl

def SettledBut (m : ThreatManager) (p : ℕ) : Prop :=
  m.iDirty = true ∨ m.online.Pairwise fun q r => q ≠ p → r ≠ p → m.threat r ≤ m.threat q

theorem Settled.but (h : m.Settled) (p : ℕ) : m.SettledBut p :=
  h.imp_right fun horder => horder.imp fun hle _ _ => hle

theorem SettledBut.settled (h : m.SettledBut p) (hp : p ∉ m.online) : m.Settled := by
  refine h.imp_right fun horder => horder.imp_of_mem fun {q r} hq hr hle => hle ?_ ?_
  · rintro rfl
    exact hp hq
  · rintro rfl
    exact hp hr

theorem Between.inOrder (h : m.Between p threat) (hnodup : m.online.Nodup)
    (hothers : m.online.Pairwise fun q r => q ≠ p → r ≠ p → m.threat r ≤ m.threat q) :
    (m.setRef p { m.ref p with iThreat := threat }).InOrder := by
  refine ((h.and hothers).and hnodup).imp fun {q r} hall => ?_
  obtain ⟨⟨⟨hbefore, hbehind⟩, hle⟩, hne⟩ := hall
  by_cases hq : q = p
  · rw [hq, threat_setRef_self, threat_setRef_of_ne fun hr => hne (hq.trans hr.symm)]
    exact hbehind hq
  · by_cases hr : r = p
    · rw [hr, threat_setRef_self, threat_setRef_of_ne hq]
      exact hbefore hr
    · rw [threat_setRef_of_ne hq, threat_setRef_of_ne hr]
      exact hle hq hr

theorem settled_addOwnThreat (hsound : m.Sound) (h : m.SettledBut p)
    (hplace : m.InPlace env p modThreat) : (m.addOwnThreat env p modThreat).Settled := by
  unfold ThreatManager.addOwnThreat
  extract_lets r m₁ m₂
  have hflag : (m₁.ref p).iOnline = (m.ref p).iOnline :=
    iOnline_setRef (r := { m.ref p with iThreat := m.threat p + modThreat }) rfl p
  -- what the change is about: the order, or the flag
  have hchanged : (m₂.Settled ∨ m₂.Raises p modThreat) := by
    rw [show m₂ = if _ then _ else _ from rfl]
    cases hon : (m.ref p).iOnline with
    | true =>
      rw [if_pos (hflag.trans hon)]
      rcases hplace.1 hon with hdirty | hraises | hbetween
      · exact .inl (.inl hdirty)
      · exact .inr hraises
      · rcases h with hdirty | hothers
        · exact .inl (.inl hdirty)
        · exact .inl (.inr (hbetween.inOrder hsound.online_nodup hothers))
    | false =>
      rw [if_neg (by rw [hflag, hon]; exact Bool.false_ne_true)]
      rcases hplace.2 hon with hraises | hlast
      · refine .inr ?_
        rw [Raises, iCurrentVictim_updateOnlineStatus (hflag.trans hon)]
        exact hraises
      · have hnot : p ∉ m.online := fun hin => by
          rw [hsound.online p hin] at hon
          cases hon
        have hthreat : ∀ q ∈ m.online, m₁.threat q = m.threat q :=
          fun q hq => threat_setRef_of_ne (ne_of_mem_of_not_mem hq hnot) _
        have hset : m₁.Settled := (h.settled hnot).of_sublist id (.refl _) hthreat
        have hgrows : Grows m m₁ := hsound.setRef rfl rfl
        refine .inl (hset.updateOnlineStatus hgrows.sound fun hcomes => ?_)
        have hreach : m.isReachable env p = true := by
          have := hcomes.2
          rwa [isReachable, show m₁ = m.setRef p _ from rfl, setRef_self] at this
        rw [show m₁.threat p = m.threat p + modThreat from threat_setRef_self _]
        exact (hlast hreach).congr rfl rfl rfl hsound.current hthreat
  split
  · exact threatChange_settled hchanged
  next hzero => exact hchanged.resolve_right fun hraises => hraises.ne_zero (not_not.mp hzero)

/-! ### Operations -/

theorem Settled.create (h : m.Settled) (victim : ℕ) :
    (m.create victim).SettledBut m.nextRef := by
  refine h.imp_right fun horder => ?_
  refine List.pairwise_append.mpr ⟨horder.imp fun {q r} hle hq hr => ?_, List.pairwise_singleton _ _,
    fun q _ r hr _ hne => absurd (List.mem_singleton.mp hr) hne⟩
  rw [threat, threat, ref_create_of_ne hq, ref_create_of_ne hr]
  exact hle

variable {victim : ℕ}

theorem Settled.withReference (h : m.Settled) (hsound : m.Sound)
    {add : ThreatManager → ℕ → ThreatManager} {ok : ThreatManager → ℕ → Prop}
    (hgrows : ∀ m p, Sound m → p ∈ m.refs → Grows m (add m p))
    (hadd : ∀ m p, Sound m → p ∈ m.refs → m.SettledBut p → ok m p → (add m p).Settled)
    (hok : m.WithReference victim ok) : (m.withReference env victim add).Settled := by
  rw [WithReference] at hok
  rw [ThreatManager.withReference]
  cases hfind : m.find victim with
  | some p =>
    rw [hfind] at hok
    exact hadd m p hsound (find_mem hfind).1 (h.but p) hok
  | none =>
    rw [hfind] at hok
    obtain ⟨hcreated, hin⟩ := hsound.create (guid_ne_of_find hfind)
    have hadded := hadd _ _ hcreated.sound hin (h.create victim) hok
    dsimp only
    split
    · exact hadded.setOnlineOfflineState (hgrows _ _ hcreated.sound hin).sound fun hcomes => by cases hcomes.2
    · exact hadded

theorem settled_addThreat (owners : List ℕ) (hsound : m.Sound) (hp : p ∈ m.refs)
    (h : m.SettledBut p) (hplace : AddInPlace env owners m p modThreat) :
    (addThreat env owners m p modThreat).Settled := by
  induction owners generalizing m p modThreat with
  | nil => exact settled_addOwnThreat hsound h hplace
  | cons owner owners ih =>
    have hown := settled_addOwnThreat hsound h hplace.1
    have hgrows : Grows m (m.addOwnThreat env p modThreat) := hsound.addOwnThreat hp modThreat
    rw [ThreatManager.addThreat]
    split
    next hmore =>
      exact hown.withReference hgrows.sound (fun m q hm hq => hm.addThreat hq owners 0)
        (fun m q hm hq hset hok => ih hm hq hset hok) (hplace.2 hmore)
    · exact hown

theorem Settled.addRefThreat (h : m.Settled) (hsound : m.Sound) (hp : p ∈ m.refs)
    (hplace : m.RefInPlace env p modThreat) : (m.addRefThreat env p modThreat).Settled :=
  settled_addThreat _ hsound hp (h.but p) hplace

theorem Settled.addUnitThreat (h : m.Settled) (hsound : m.Sound)
    (hplace : m.UnitInPlace env victim threat) : (m.addUnitThreat env victim threat).Settled :=
  h.withReference hsound (fun _ _ hm hq => hm.addThreat hq _ threat)
    (fun _ _ hm hq hset hok => settled_addThreat _ hm hq hset hok) hplace

theorem Settled.doAddThreat (h : m.Settled) (hsound : m.Sound)
    (hplace : m.DoAddInPlace env victim threat) : (m.doAddThreat env victim threat).Settled := by
  rw [DoAddInPlace] at hplace
  rw [ThreatManager.doAddThreat]
  cases hredirect : env.redirect victim with
  | some redirection =>
    obtain ⟨redirectTarget, percent, isValidProcess⟩ := redirection
    rw [hredirect] at hplace
    dsimp only at hplace ⊢
    by_cases hredirects : (0 < threat ∧ percent ≠ 0) ∧ isValidProcess = true
    · rw [if_pos hredirects] at hplace ⊢
      exact (h.addUnitThreat hsound hplace.1).addUnitThreat (hsound.addUnitThreat redirectTarget _).sound hplace.2
    · rw [if_neg hredirects] at hplace ⊢
      exact h.addUnitThreat hsound hplace
  | none =>
    rw [hredirect] at hplace
    exact h.addUnitThreat hsound hplace

theorem Settled.addThreatPercent (h : m.Settled) (hsound : m.Sound) (hp : p ∈ m.refs) {percent : ℤ}
    (hplace : m.PercentInPlace env p percent) : (m.addThreatPercent env p percent).Settled := by
  rw [ThreatManager.addThreatPercent]
  split
  · exact h
  next hpos => exact h.addRefThreat hsound hp (hplace (not_le.mp hpos))

theorem Settled.addTempThreat (h : m.Settled) (hsound : m.Sound) (hp : p ∈ m.refs)
    (hplace : m.TempInPlace env p threat) (hunused : (m.ref p).iTempThreatModifier = 0) :
    (m.addTempThreat env p threat).Settled := by
  have hgrows : Grows m (m.setRef p { m.ref p with iTempThreatModifier := threat }) := hsound.setRef rfl rfl
  have hset : (m.setRef p { m.ref p with iTempThreatModifier := threat }).Settled := h.setRef rfl
  rw [ThreatManager.addTempThreat]
  dsimp only
  split
  next hne => exact hset.addRefThreat hgrows.sound (hgrows.keeps p hp) (hplace hunused hne)
  · exact hset

theorem Settled.resetTempThreat (h : m.Settled) (hsound : m.Sound) (hp : p ∈ m.refs)
    (hplace : m.ResetInPlace env p) : (m.resetTempThreat env p).Settled := by
  rw [ThreatManager.resetTempThreat]
  split
  next hne =>
    have hback := h.addRefThreat hsound hp (hplace hne)
    exact hback.setRef rfl
  · exact h

theorem settled_resetAllAggro (h : m.Settled) {fuel : ℕ} (hrun : m.resetAllAggro env fuel = some m') :
    m'.Settled := by
  rw [ThreatManager.resetAllAggro] at hrun
  split at hrun
  · obtain rfl := Option.some.inj hrun
    exact h
  · obtain ⟨m₁, -, rfl⟩ := Option.map_eq_some_iff.mp hrun
    exact .inl rfl

theorem Settled.removeReference (h : m.Settled) (hsound : m.Sound) (p : ℕ) : (m.removeReference p).Settled := by
  have hoff : (m.setOnlineOfflineState p false).Settled :=
    h.setOnlineOfflineState hsound fun hcomes => by cases hcomes.2
  have hcut : ((m.setOnlineOfflineState p false).setRef p
      { (m.setOnlineOfflineState p false).ref p with isValid := false }).Settled := hoff.setRef rfl
  rw [ThreatManager.removeReference, ThreatManager.removeFromList]
  dsimp only
  split
  · exact hcut.of_sublist (fun hflag => Bool.or_eq_true_iff.mpr (.inl hflag)) List.filter_sublist fun _ _ => rfl
  · exact hcut.of_sublist (fun hflag => Bool.or_eq_true_iff.mpr (.inl hflag)) (.refl _) fun _ _ => rfl

theorem update_inOrder (h : m.Settled) : m.update.InOrder := by
  show List.Pairwise (fun p q => m.threat q ≤ m.threat p) (if m.iDirty then _ else m.online)
  have htotal : Std.Total fun p q => m.threat q ≤ m.threat p := ⟨fun p q => le_total _ _⟩
  have htrans : IsTrans ℕ fun p q => m.threat q ≤ m.threat p := ⟨fun _ _ _ hpq hqr => hqr.trans hpq⟩
  split
  · exact List.pairwise_insertionSort _ m.online
  next hclean => exact h.resolve_left hclean

theorem Settled.atFound (h : m.Settled) {found : Option ℕ} {op : ℕ → ThreatManager} {ok : ℕ → Prop}
    (hop : ∀ p ∈ found, ok p → (op p).Settled) (hok : OfFound found ok) :
    (match found with
      | some p => op p
      | none => m).Settled := by
  cases found with
  | none => exact h
  | some p => exact hop p rfl (hok p rfl)

theorem settled_of_step (h : m.Settled) (hsound : m.Sound) {e : Event} (hok : m.KeepsOrder e)
    (hstep : m.step e = some m') : m'.Settled := by
  have honline : ∀ {victim p}, p ∈ m.getReferenceByTarget m.online victim → p ∈ m.refs :=
    fun hget => List.mem_append_left _ (getReferenceByTarget_mem hget).1
  cases e with
  | resetAllAggro env fuel => exact settled_resetAllAggro h hstep
  | doAddThreat env victim threat =>
    obtain rfl := Option.some.inj hstep
    exact h.doAddThreat hsound hok
  | modifyThreatPercent env victim percent =>
    obtain rfl := Option.some.inj hstep
    exact h.atFound (fun p hget hplace => h.addThreatPercent hsound (honline hget) hplace) hok
  | tauntApply env taunter =>
    obtain rfl := Option.some.inj hstep
    rw [ThreatManager.tauntApply]
    split
    next v p hv hget =>
      split
      next hless => exact h.addTempThreat hsound (honline hget) (hok v hv p hget hless.1) hless.2
      · exact h
    · exact h
  | tauntFadeOut env taunter =>
    obtain rfl := Option.some.inj hstep
    exact h.atFound (fun p hget hplace => h.resetTempThreat hsound (honline hget) hplace) hok
  | addTempThreat env victim threat =>
    obtain rfl := Option.some.inj hstep
    refine h.atFound (fun p hlinked hplace => ?_) hok
    split
    next hunused => exact h.addTempThreat hsound (linked_mem hlinked) hplace hunused
    · exact h
  | resetTempThreat env victim =>
    obtain rfl := Option.some.inj hstep
    exact h.atFound (fun p hlinked hplace => h.resetTempThreat hsound (linked_mem hlinked) hplace) hok
  | addThreatPercent env victim percent =>
    obtain rfl := Option.some.inj hstep
    exact h.atFound (fun p hlinked hplace => h.addThreatPercent hsound (linked_mem hlinked) hplace) hok
  | setOnlineOfflineState victim isOnline =>
    obtain rfl := Option.some.inj hstep
    exact h.atFound (fun p _ hlast => h.setOnlineOfflineState hsound hlast) hok
  | updateOnlineStatus env victim =>
    obtain rfl := Option.some.inj hstep
    exact h.atFound (fun p _ hlast => h.updateOnlineStatus hsound hlast) hok
  | deleteReference victim =>
    obtain rfl := Option.some.inj hstep
    rw [ThreatManager.deleteReference]
    split
    next p _ => exact (h.removeReference hsound p).of_sublist id (.refl _) fun _ _ => rfl
    · exact h
  | clearReferences =>
    obtain rfl := Option.some.inj hstep
    exact .inr .nil
  | setCurrentVictim victim =>
    rw [step] at hstep
    split at hstep
    · obtain rfl := Option.some.inj hstep
      exact h
    · obtain rfl := Option.some.inj hstep
      exact h
  | getHostilTarget sight =>
    obtain rfl := Option.some.inj hstep
    have horder : m.update.InOrder := update_inOrder h
    exact .inr horder

/-- The list that `selectNextVictim` reads is in order in runs in which every change that raises no flag
leaves its reference in place. -/
theorem sorted_of_reaches (h : Reaches step KeepsOrder (Eq initial) m) :
    m.update.online.Pairwise fun p q => m.threat q ≤ m.threat p := by
  have hboth : m.Sound ∧ m.Settled := by
    refine h.invariant (I := fun m => m.Sound ∧ m.Settled) (fun m hm => ?_) fun m e m' hm hok hstep =>
      ⟨sound_of_step hm.1 hstep, settled_of_step hm.2 hm.1 hok hstep⟩
    subst hm
    exact ⟨initial_sound, .inr .nil⟩
  exact update_inOrder hboth.2

end

/-- The creature attacks 1; unit 3 taunts, overtakes it and loses what the taunt gave. -/
theorem sorted_of_reaches_sample : ∃ m, Reaches step KeepsOrder (Eq initial) m ∧
    m.online = [1, 0] ∧ m.iCurrentVictim = some 1 ∧ m.threat 0 = 10 ∧ m.threat 1 = 12 ∧
    m.update.online.Pairwise fun p q => m.threat q ≤ m.threat p := by
  obtain ⟨m, hm, htest⟩ := Reaches.exists_of_replay step KeepsOrder (rfl : initial = _)
    [.doAddThreat (sampleEnv fun _ => true) 1 10, .getHostilTarget sampleSight,
      .doAddThreat (sampleEnv fun _ => true) 3 4, .tauntApply (sampleEnv fun _ => true) 3,
      .getHostilTarget sampleSight, .doAddThreat (sampleEnv fun _ => true) 3 8,
      .getHostilTarget sampleSight, .tauntFadeOut (sampleEnv fun _ => true) 3, .getHostilTarget sampleSight,
      .doAddThreat (sampleEnv fun _ => true) 3 0]
    (by decide +kernel)
    (fun m => decide (m.online = [1, 0] ∧ m.iCurrentVictim = some 1 ∧ m.threat 0 = 10 ∧ m.threat 1 = 12))
    (by decide +kernel)
  obtain ⟨honline, hcurrent, hfirst, hsecond⟩ := of_decide_eq_true htest
  exact ⟨m, hm, honline, hcurrent, hfirst, hsecond, sorted_of_reaches hm⟩

/-- A reference that comes back online without a victim to exceed joins behind one with less threat,
which is attacked. -/
theorem unsorted_when_selected : ∃ m, Reaches step anyStep (Eq initial) m ∧
    ¬(m.update.online.Pairwise fun p q => m.threat q ≤ m.threat p) ∧
    m.update.online = [0, 1] ∧ m.threat 0 = 10 ∧ m.threat 1 = 50 ∧
    (m.getHostilTarget sampleSight).iCurrentVictim = some 0 := by
  obtain ⟨m, hm, htest⟩ := Reaches.exists_of_replay step anyStep (rfl : initial = _)
    [.doAddThreat (sampleEnv fun _ => true) 1 10, .doAddThreat (sampleEnv fun _ => true) 3 50,
      .setOnlineOfflineState 3 false, .getHostilTarget ⟨fun _ => false, fun _ => false, fun _ => false, fun _ => true⟩,
      .setOnlineOfflineState 3 true]
    (replayOk_anyStep ..)
    (fun m => decide (¬m.update.InOrder ∧ m.update.online = [0, 1] ∧ m.threat 0 = 10 ∧ m.threat 1 = 50 ∧
      (m.getHostilTarget sampleSight).iCurrentVictim = some 0))
    (by decide +kernel)
  obtain ⟨hunsorted, hrest⟩ := of_decide_eq_true htest
  exact ⟨m, hm, hunsorted, hrest⟩

end ThreatManager

end HysteriaCore.Combat
