import HysteriaCore.Combat.Order

/-!
# The choice of a victim

`selectNextVictim` goes through the online list from the top and passes over second choices. It
starts again without that rule when the last entry of the list is a second choice itself.
-/

namespace HysteriaCore.Combat

namespace ThreatManager
variable (sight : Sight) (m : ThreatManager)

def Attackable (p : ℕ) : Prop := sight.acceptable (m.ref p).iUnitGuid = true

def SecondChoice (p : ℕ) : Prop :=
  (sight.immune (m.ref p).iUnitGuid || sight.ignored (m.ref p).iUnitGuid) = true

def FirstChoice (p : ℕ) : Prop := m.Attackable sight p ∧ ¬m.SecondChoice sight p

def Considered (noPriorityTargetFound : Bool) (p : ℕ) : Prop :=
  ¬(noPriorityTargetFound = false ∧ m.SecondChoice sight p)

def Overtakes (v p : ℕ) : Prop :=
  13 / 10 * m.threat v < m.threat p ∨
    (11 / 10 * m.threat v < m.threat p ∧ sight.inMeleeRange (m.ref p).iUnitGuid = true)

def comparedVictim : Option ℕ :=
  m.iCurrentVictim.filter fun v =>
    sight.acceptable (m.ref v).iUnitGuid && !sight.immune (m.ref v).iUnitGuid

instance (p : ℕ) : Decidable (m.Attackable sight p) := inferInstanceAs (Decidable (_ = _))
instance (p : ℕ) : Decidable (m.SecondChoice sight p) := inferInstanceAs (Decidable (_ = _))
instance (p : ℕ) : Decidable (m.FirstChoice sight p) := inferInstanceAs (Decidable (_ ∧ _))
instance (v p : ℕ) : Decidable (m.Overtakes sight v p) := inferInstanceAs (Decidable (_ ∨ _))

/-- The loop as the source has it: an iterator over the list, the flag, and the jump back to the
beginning of the list. -/
def selectLoop (current : Option ℕ) : ℕ → Bool → List ℕ → Option (Option ℕ)
  | 0, _, _ => none
  | _ + 1, _, [] => some none
  | fuel + 1, noPriorityTargetFound, p :: ps =>
    let target := (m.ref p).iUnitGuid
    if noPriorityTargetFound = false ∧ (sight.immune target || sight.ignored target) = true then
      if ps = [] then selectLoop current fuel true m.online
      else selectLoop current fuel noPriorityTargetFound ps
    else if sight.acceptable target then
      match current with
      | none => some (some p)
      | some v =>
        if v = p then some (some p)
        else if 13 / 10 * m.threat v < m.threat p then some (some p)
        else if 11 / 10 * m.threat v < m.threat p then
          if sight.inMeleeRange target then some (some p)
          else selectLoop current fuel noPriorityTargetFound ps
        else some (some v)
    else selectLoop current fuel noPriorityTargetFound ps

section
variable {sight : Sight} {m : ThreatManager} {noPriority : Bool} {current : Option ℕ} {p v : ℕ}
  {ps l : List ℕ}

/-! ### One round of the loop -/

theorem scan_second (h : m.SecondChoice sight p) :
    m.scan sight current false (p :: ps) = if ps = [] then .restart else m.scan sight current false ps :=
  if_pos ⟨rfl, h⟩

theorem scan_unattackable (h : m.Considered sight noPriority p) (hnot : ¬m.Attackable sight p) :
    m.scan sight current noPriority (p :: ps) = m.scan sight current noPriority ps :=
  (if_neg h).trans (if_neg hnot)

theorem scan_first (h : m.Considered sight noPriority p) (hattackable : m.Attackable sight p) :
    m.scan sight none noPriority (p :: ps) = .found p :=
  (if_neg h).trans (if_pos hattackable)

theorem overtakes_ite {α : Type} (a b c : α) :
    (if v = p then a else if 13 / 10 * m.threat v < m.threat p then a
      else if 11 / 10 * m.threat v < m.threat p then if sight.inMeleeRange (m.ref p).iUnitGuid then a else b
      else c) =
      if v = p ∨ m.Overtakes sight v p then a else if 11 / 10 * m.threat v < m.threat p then b else c := by
  by_cases hsame : v = p
  · rw [if_pos hsame, if_pos (.inl hsame)]
  · rw [if_neg hsame]
    by_cases hmore : 13 / 10 * m.threat v < m.threat p
    · rw [if_pos hmore, if_pos (.inr (.inl hmore))]
    · rw [if_neg hmore]
      by_cases hmelee : 11 / 10 * m.threat v < m.threat p
      · by_cases hrange : sight.inMeleeRange (m.ref p).iUnitGuid = true
        · rw [if_pos hmelee, if_pos hrange, if_pos (.inr (.inr ⟨hmelee, hrange⟩))]
        · have hnot : ¬(v = p ∨ m.Overtakes sight v p) := fun h =>
            h.elim hsame fun h => h.elim hmore fun h => hrange h.2
          rw [if_pos hmelee, if_neg hrange, if_neg hnot, if_pos hmelee]
      · have hnot : ¬(v = p ∨ m.Overtakes sight v p) := fun h =>
          h.elim hsame fun h => h.elim hmore fun h => hmelee h.1
        rw [if_neg hmelee, if_neg hnot, if_neg hmelee]

theorem scan_compared (h : m.Considered sight noPriority p) (hattackable : m.Attackable sight p) :
    m.scan sight (some v) noPriority (p :: ps) =
      if v = p ∨ m.Overtakes sight v p then .found p
      else if 11 / 10 * m.threat v < m.threat p then m.scan sight (some v) noPriority ps
      else .found v :=
  (if_neg h).trans ((if_pos hattackable).trans (overtakes_ite _ _ _))

theorem considered_true (p : ℕ) : m.Considered sight true p := fun h => Bool.noConfusion h.1

theorem considered_of_not_second (h : ¬m.SecondChoice sight p) : m.Considered sight noPriority p :=
  fun hsecond => h hsecond.2

/-! ### A whole pass -/

def EndsSecond (sight : Sight) (m : ThreatManager) (l : List ℕ) : Prop := ∃ p ∈ l.getLast?, m.SecondChoice sight p

theorem endsSecond_singleton : EndsSecond sight m [p] ↔ m.SecondChoice sight p := by
  simp only [EndsSecond, List.getLast?_singleton, Option.mem_some_iff, exists_eq_left']

theorem endsSecond_cons (hne : ps ≠ []) : EndsSecond sight m (p :: ps) ↔ EndsSecond sight m ps := by
  cases ps with
  | nil => exact absurd rfl hne
  | cons q qs => simp only [EndsSecond, List.getLast?_cons_cons]

theorem scan_without_first (h : ∀ p ∈ l, ¬m.FirstChoice sight p) :
    (EndsSecond sight m l → m.scan sight current false l = .restart) ∧
      (¬EndsSecond sight m l → m.scan sight current false l = .none) := by
  induction l with
  | nil =>
    refine ⟨fun hends => ?_, fun _ => rfl⟩
    obtain ⟨q, hq, _⟩ := hends
    exact absurd hq (by simp)
  | cons p ps ih =>
    have ih := ih fun q hq => h q (List.mem_cons_of_mem _ hq)
    by_cases hsecond : m.SecondChoice sight p
    · rw [scan_second hsecond]
      by_cases hnil : ps = []
      · subst hnil
        exact ⟨fun _ => if_pos rfl, fun hends => absurd (endsSecond_singleton.mpr hsecond) hends⟩
      · rw [if_neg hnil, endsSecond_cons hnil]
        exact ih
    · have hnot : ¬m.Attackable sight p := fun ha => h p (List.mem_cons_self ..) ⟨ha, hsecond⟩
      rw [scan_unattackable (considered_of_not_second hsecond) hnot]
      by_cases hnil : ps = []
      · subst hnil
        exact ⟨fun hends => absurd (endsSecond_singleton.mp hends) hsecond, fun _ => rfl⟩
      · rw [endsSecond_cons hnil]
        exact ih

theorem scan_passed (h : ¬(m.Considered sight noPriority p ∧ m.Attackable sight p)) (hne : ps ≠ []) :
    m.scan sight current noPriority (p :: ps) = m.scan sight current noPriority ps := by
  by_cases hconsidered : m.Considered sight noPriority p
  · exact scan_unattackable hconsidered fun ha => h ⟨hconsidered, ha⟩
  · obtain ⟨rfl, hsecond⟩ := not_not.mp hconsidered
    rw [scan_second hsecond, if_neg hne]

theorem scan_uncompared (h : ∃ p ∈ l, m.Considered sight noPriority p ∧ m.Attackable sight p) :
    ∃ q ∈ l, m.scan sight none noPriority l = .found q ∧ m.Considered sight noPriority q ∧
      m.Attackable sight q := by
  induction l with
  | nil => exact absurd h (by simp)
  | cons p ps ih =>
    by_cases hp : m.Considered sight noPriority p ∧ m.Attackable sight p
    · exact ⟨p, List.mem_cons_self .., scan_first hp.1 hp.2, hp⟩
    · obtain ⟨q, hq, hok⟩ := h
      have hrest : q ∈ ps := (List.mem_cons.mp hq).resolve_left fun heq => hp (heq ▸ hok)
      obtain ⟨r, hr, hscan, hok⟩ := ih ⟨q, hrest, hok⟩
      exact ⟨r, List.mem_cons_of_mem _ hr, (scan_passed hp (List.ne_nil_of_mem hrest)).trans hscan, hok⟩

/-- The pass finds somebody where the victim, or an entry that overtakes it, is looked at. -/
theorem scan_finds (horder : l.Pairwise fun p q => m.threat q ≤ m.threat p) {w : ℕ} (hw : w ∈ l)
    (hlooks : m.Considered sight noPriority w ∧ m.Attackable sight w) (hwins : v = w ∨ m.Overtakes sight v w) :
    ∃ q ∈ l, m.scan sight (some v) noPriority l = .found q ∧ m.Considered sight noPriority q ∧
      m.Attackable sight q := by
  induction l with
  | nil => exact absurd hw (List.not_mem_nil)
  | cons p ps ih =>
    obtain ⟨hfirst, horder⟩ := List.pairwise_cons.mp horder
    have hskip (hne : w ≠ p) (hsame : m.scan sight (some v) noPriority (p :: ps) =
        m.scan sight (some v) noPriority ps) :
        ∃ q ∈ p :: ps, m.scan sight (some v) noPriority (p :: ps) = .found q ∧
          m.Considered sight noPriority q ∧ m.Attackable sight q := by
      obtain ⟨r, hr, hscan, hok⟩ := ih horder ((List.mem_cons.mp hw).resolve_left hne)
      exact ⟨r, List.mem_cons_of_mem _ hr, hsame.trans hscan, hok⟩
    by_cases hp : m.Considered sight noPriority p ∧ m.Attackable sight p
    · have hcompared : m.scan sight (some v) noPriority (p :: ps) = _ := scan_compared hp.1 hp.2
      by_cases hends : v = p ∨ m.Overtakes sight v p
      · exact ⟨p, List.mem_cons_self .., hcompared.trans (if_pos hends), hp⟩
      · have hne : w ≠ p := fun heq => hends (heq ▸ hwins)
        rw [if_neg hends] at hcompared
        by_cases hmelee : 11 / 10 * m.threat v < m.threat p
        · exact hskip hne (hcompared.trans (if_pos hmelee))
        · -- nobody further down overtakes the victim, so it is the victim that is looked at
          have hle : m.threat w ≤ m.threat p := hfirst w ((List.mem_cons.mp hw).resolve_left hne)
          rcases hwins with rfl | hmore | ⟨hmore, _⟩
          · exact ⟨v, hw, hcompared.trans (if_neg hmelee), hlooks⟩
          · exact absurd (.inr (.inl (lt_of_lt_of_le hmore hle))) hends
          · exact absurd (lt_of_lt_of_le hmore hle) hmelee
    · have hne : w ≠ p := fun heq => hp (heq ▸ hlooks)
      have hrest : w ∈ ps := (List.mem_cons.mp hw).resolve_left hne
      exact hskip hne (scan_passed hp (List.ne_nil_of_mem hrest))

theorem scan_passed_found (hp : ¬(m.Considered sight noPriority p ∧ m.Attackable sight p)) {q : ℕ}
    (hfound : m.scan sight current noPriority (p :: ps) = .found q) : m.scan sight current noPriority ps = .found q := by
  by_cases hnil : ps = []
  · subst hnil
    by_cases hconsidered : m.Considered sight noPriority p
    · rw [scan_unattackable hconsidered fun ha => hp ⟨hconsidered, ha⟩] at hfound
      exact nomatch hfound
    · obtain ⟨rfl, hsecond⟩ := not_not.mp hconsidered
      rw [scan_second hsecond, if_pos rfl] at hfound
      exact nomatch hfound
  · rwa [scan_passed hp hnil] at hfound

theorem scan_loser (hvictim : ¬m.FirstChoice sight v)
    (hnone : ∀ p ∈ l, m.FirstChoice sight p → ¬m.Overtakes sight v p) {q : ℕ}
    (hfound : m.scan sight (some v) noPriority l = .found q) : ¬m.FirstChoice sight q := by
  induction l with
  | nil => exact nomatch hfound
  | cons p ps ih =>
    have ih := ih fun r hr => hnone r (List.mem_cons_of_mem _ hr)
    by_cases hp : m.Considered sight noPriority p ∧ m.Attackable sight p
    · rw [scan_compared hp.1 hp.2] at hfound
      by_cases hends : v = p ∨ m.Overtakes sight v p
      · rw [if_pos hends] at hfound
        obtain rfl := Scan.found.inj hfound
        rcases hends with rfl | hwins
        · exact hvictim
        · exact fun hfirst => hnone p (List.mem_cons_self ..) hfirst hwins
      · rw [if_neg hends] at hfound
        by_cases hmelee : 11 / 10 * m.threat v < m.threat p
        · exact ih ((if_pos hmelee).symm.trans hfound)
        · obtain rfl := Scan.found.inj ((if_neg hmelee).symm.trans hfound)
          exact hvictim
    · exact ih (scan_passed_found hp hfound)

theorem scan_attackable (hcurrent : ∀ v ∈ current, m.Attackable sight v) {q : ℕ}
    (hfound : m.scan sight current noPriority l = .found q) : m.Attackable sight q := by
  induction l with
  | nil => exact nomatch hfound
  | cons p ps ih =>
    by_cases hp : m.Considered sight noPriority p ∧ m.Attackable sight p
    · cases current with
      | none =>
        rw [scan_first hp.1 hp.2] at hfound
        obtain rfl := Scan.found.inj hfound
        exact hp.2
      | some v =>
        rw [scan_compared hp.1 hp.2] at hfound
        split at hfound
        · obtain rfl := Scan.found.inj hfound
          exact hp.2
        · split at hfound
          · exact ih hfound
          · obtain rfl := Scan.found.inj hfound
            exact hcurrent v rfl
    · exact ih (scan_passed_found hp hfound)

theorem scan_flagged (l : List ℕ) : m.scan sight current true l ≠ .restart := by
  induction l with
  | nil => exact Scan.noConfusion
  | cons p ps ih =>
    by_cases ha : m.Attackable sight p
    · cases current with
      | none =>
        rw [scan_first (considered_true p) ha]
        exact Scan.noConfusion
      | some v =>
        rw [scan_compared (considered_true p) ha]
        split
        · exact Scan.noConfusion
        · split
          · exact ih
          · exact Scan.noConfusion
    · rw [scan_unattackable (considered_true p) ha]
      exact ih

/-! ### The two passes together -/

theorem selectLoop_scan (k : ℕ) (l : List ℕ) :
    m.selectLoop sight current (l.length + k + 1) noPriority l =
      match m.scan sight current noPriority l with
      | .found p => some (some p)
      | .none => some none
      | .restart => m.selectLoop sight current (k + 1) true m.online := by
  induction l with
  | nil => rw [List.length_nil, Nat.zero_add]; rfl
  | cons p ps ih =>
    have hlength : (p :: ps).length + k + 1 = (ps.length + k + 1) + 1 := by
      rw [List.length_cons]
      omega
    rw [hlength]
    by_cases hconsidered : m.Considered sight noPriority p
    · by_cases ha : m.Attackable sight p
      · have hloop : m.selectLoop sight current (ps.length + k + 1 + 1) noPriority (p :: ps) = _ :=
          (if_neg hconsidered).trans (if_pos ha)
        rw [hloop]
        cases current with
        | none => rw [scan_first hconsidered ha]
        | some v =>
          rw [scan_compared hconsidered ha]
          dsimp only
          rw [overtakes_ite]
          split
          · rfl
          · split
            · exact ih
            · rfl
      · rw [scan_unattackable hconsidered ha, ← ih]
        exact (if_neg hconsidered).trans (if_neg ha)
    · obtain ⟨rfl, hsecond⟩ := not_not.mp hconsidered
      have hloop : m.selectLoop sight current (ps.length + k + 1 + 1) false (p :: ps) = _ :=
        if_pos ⟨rfl, hsecond⟩
      rw [hloop, scan_second hsecond]
      by_cases hnil : ps = []
      · subst hnil
        rw [if_pos rfl, if_pos rfl, List.length_nil, Nat.zero_add]
      · rw [if_neg hnil, if_neg hnil]
        exact ih

theorem selectNextVictim_eq (sight : Sight) (m : ThreatManager) : m.selectNextVictim sight =
    match m.scan sight (m.comparedVictim sight) false m.online with
    | .found p => some p
    | .none => none
    | .restart =>
      match m.scan sight (m.comparedVictim sight) true m.online with
      | .found p => some p
      | _ => none := rfl

theorem selectLoop_ends :
    m.selectLoop sight (m.comparedVictim sight) (2 * m.online.length + 1) false m.online =
      some (m.selectNextVictim sight) := by
  have hfuel : 2 * m.online.length + 1 = m.online.length + m.online.length + 1 := by omega
  have hagain : m.selectLoop sight (m.comparedVictim sight) (m.online.length + 0 + 1) true m.online = _ :=
    selectLoop_scan 0 m.online
  rw [hfuel, selectLoop_scan, selectNextVictim_eq]
  cases hfirst : m.scan sight (m.comparedVictim sight) false m.online with
  | found p => rfl
  | none => rfl
  | restart =>
    dsimp only
    rw [Nat.add_zero] at hagain
    rw [hagain]
    cases hsecond : m.scan sight (m.comparedVictim sight) true m.online with
    | found p => rfl
    | none => rfl
    | restart => exact absurd hsecond (scan_flagged m.online)

/-- Whoever is attackable is found, and a first choice before all others. -/
structure FindsVictim (sight : Sight) (m : ThreatManager) : Prop where
  ends : ∃ fuel, m.selectLoop sight (m.comparedVictim sight) fuel false m.online =
    some (m.selectNextVictim sight)
  nobody : m.selectNextVictim sight = none → ∀ p ∈ m.online, ¬m.Attackable sight p
  member : ∀ q ∈ m.selectNextVictim sight, q ∈ m.online ∧ m.Attackable sight q
  first : (∃ p ∈ m.online, m.FirstChoice sight p) → ∃ q ∈ m.selectNextVictim sight, m.FirstChoice sight q

/-- With a first choice in the list, the victim that is compared with is one too, or a first choice
overtakes it. Without one, the last entry is a second choice if anybody is attackable. -/
structure VictimInReach (sight : Sight) (m : ThreatManager) : Prop where
  compared : (∃ p ∈ m.online, m.FirstChoice sight p) → ∀ v ∈ m.comparedVictim sight,
    m.FirstChoice sight v ∨ ∃ p ∈ m.online, m.FirstChoice sight p ∧ m.Overtakes sight v p
  last : (∀ p ∈ m.online, ¬m.FirstChoice sight p) → (∃ p ∈ m.online, m.Attackable sight p) →
    EndsSecond sight m m.online

theorem comparedVictim_spec (h : ∀ v ∈ m.iCurrentVictim, v ∈ m.online) (hv : v ∈ m.comparedVictim sight) :
    v ∈ m.online ∧ m.Attackable sight v := by
  obtain ⟨hcurrent, hok⟩ := Option.mem_filter_iff.mp hv
  exact ⟨h v hcurrent, (Bool.and_eq_true_iff.mp hok).1⟩

theorem selectNextVictim_again (h : m.scan sight (m.comparedVictim sight) false m.online = .restart)
    (hfound : m.scan sight (m.comparedVictim sight) true m.online = .found p) :
    m.selectNextVictim sight = some p := by
  rw [selectNextVictim_eq, h]
  dsimp only
  rw [hfound]

theorem exists_scan_of_select (h : m.selectNextVictim sight = some p) :
    ∃ noPriority, m.scan sight (m.comparedVictim sight) noPriority m.online = .found p := by
  rw [selectNextVictim_eq] at h
  cases hfirst : m.scan sight (m.comparedVictim sight) false m.online with
  | found q =>
    rw [hfirst] at h
    obtain rfl := Option.some.inj h
    exact ⟨false, hfirst⟩
  | none =>
    rw [hfirst] at h
    exact nomatch h
  | restart =>
    rw [hfirst] at h
    dsimp only at h
    cases hsecond : m.scan sight (m.comparedVictim sight) true m.online with
    | found q =>
      rw [hsecond] at h
      obtain rfl := Option.some.inj h
      exact ⟨true, hsecond⟩
    | none =>
      rw [hsecond] at h
      exact nomatch h
    | restart => exact absurd hsecond (scan_flagged m.online)

theorem select_first (horder : m.InOrder) (hcurrent : ∀ v ∈ m.iCurrentVictim, v ∈ m.online)
    (h : m.VictimInReach sight) (hfirst : ∃ p ∈ m.online, m.FirstChoice sight p) :
    ∃ q, m.selectNextVictim sight = some q ∧ m.FirstChoice sight q := by
  have hscan : ∃ q ∈ m.online, m.scan sight (m.comparedVictim sight) false m.online = .found q ∧
      m.Considered sight false q ∧ m.Attackable sight q := by
    cases hv : m.comparedVictim sight with
    | none =>
      obtain ⟨p, hp, hchoice⟩ := hfirst
      exact scan_uncompared ⟨p, hp, considered_of_not_second hchoice.2, hchoice.1⟩
    | some v =>
      rcases h.compared hfirst v hv with hchoice | ⟨w, hw, hchoice, hwins⟩
      · exact scan_finds horder (comparedVictim_spec hcurrent hv).1 ⟨considered_of_not_second hchoice.2, hchoice.1⟩
          (.inl rfl)
      · exact scan_finds horder hw ⟨considered_of_not_second hchoice.2, hchoice.1⟩ (.inr hwins)
  obtain ⟨q, _, hfound, hconsidered, ha⟩ := hscan
  refine ⟨q, ?_, ha, fun hsecond => hconsidered ⟨rfl, hsecond⟩⟩
  rw [selectNextVictim_eq, hfound]

theorem select_second (horder : m.InOrder) (hcurrent : ∀ v ∈ m.iCurrentVictim, v ∈ m.online)
    (hfirst : ∀ p ∈ m.online, ¬m.FirstChoice sight p) (hends : EndsSecond sight m m.online)
    (h : ∃ p ∈ m.online, m.Attackable sight p) : ∃ q, m.selectNextVictim sight = some q := by
  have hscan : ∃ q ∈ m.online, m.scan sight (m.comparedVictim sight) true m.online = .found q ∧
      m.Considered sight true q ∧ m.Attackable sight q := by
    cases hv : m.comparedVictim sight with
    | none =>
      obtain ⟨p, hp, ha⟩ := h
      exact scan_uncompared ⟨p, hp, considered_true p, ha⟩
    | some v =>
      obtain ⟨hmem, ha⟩ := comparedVictim_spec hcurrent hv
      exact scan_finds horder hmem ⟨considered_true v, ha⟩ (.inl rfl)
  obtain ⟨q, _, hfound, _⟩ := hscan
  exact ⟨q, selectNextVictim_again ((scan_without_first hfirst).1 hends) hfound⟩

end

/-- Creatures hate 0, 1 and so on, with the threats of the list, and attack `current`. -/
def hating (threats : List ℚ) (current : Option ℕ) : ThreatManager where
  ref := fun p => ⟨p, threats.getD p 0, 0, true, true⟩
  nextRef := threats.length
  online := List.range threats.length
  offline := []
  iDirty := false
  iCurrentVictim := current
  deleted := []

end ThreatManager

end HysteriaCore.Combat
