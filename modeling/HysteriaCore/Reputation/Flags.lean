import HysteriaCore.Reputation.Counters

/-!
# The flags of a faction state

The setters change three of the flags, each under conditions on the others. `LoadFromDB` replays the
flags of a row through them, on the default flags of the faction: not every state comes back.
-/

namespace HysteriaCore.Reputation
open Lib

theorem forall_uint8 {P : UInt8 → Prop} (h : ∀ n : Fin 256, P (UInt8.ofFin n)) (x : UInt8) : P x := by
  rw [← UInt8.ofFin_toFin x]
  exact h x.toFin

def fixedFlags (flags : UInt8) : UInt8 :=
  flags &&& ~~~(FACTION_FLAG_VISIBLE ||| FACTION_FLAG_AT_WAR ||| FACTION_FLAG_INACTIVE)

theorem flags_split : ∀ x : UInt8, x = fixedFlags x |||
    (if hasFlag x FACTION_FLAG_VISIBLE then FACTION_FLAG_VISIBLE else 0) |||
    (if hasFlag x FACTION_FLAG_AT_WAR then FACTION_FLAG_AT_WAR else 0) |||
    (if hasFlag x FACTION_FLAG_INACTIVE then FACTION_FLAG_INACTIVE else 0) :=
  forall_uint8 (by decide +kernel)

theorem flags_ext {x y : UInt8} (hfixed : fixedFlags x = fixedFlags y)
    (hvisible : hasFlag x FACTION_FLAG_VISIBLE = hasFlag y FACTION_FLAG_VISIBLE)
    (hwar : hasFlag x FACTION_FLAG_AT_WAR = hasFlag y FACTION_FLAG_AT_WAR)
    (hinactive : hasFlag x FACTION_FLAG_INACTIVE = hasFlag y FACTION_FLAG_INACTIVE) : x = y := by
  rw [flags_split x, flags_split y, hfixed, hvisible, hwar, hinactive]

/-- `y` has the other flags of `x`, and these three as given. -/
def Marked (x y : UInt8) (visible war inactive : Bool) : Prop :=
  fixedFlags y = fixedFlags x ∧ hasFlag y FACTION_FLAG_VISIBLE = visible ∧ hasFlag y FACTION_FLAG_AT_WAR = war ∧
    hasFlag y FACTION_FLAG_INACTIVE = inactive

instance (x y : UInt8) (visible war inactive : Bool) : Decidable (Marked x y visible war inactive) := by
  unfold Marked
  infer_instance

theorem marked_setters : ∀ x : UInt8,
    Marked x (x ||| FACTION_FLAG_VISIBLE) true (hasFlag x FACTION_FLAG_AT_WAR) (hasFlag x FACTION_FLAG_INACTIVE) ∧
    Marked x (x ||| FACTION_FLAG_AT_WAR) (hasFlag x FACTION_FLAG_VISIBLE) true (hasFlag x FACTION_FLAG_INACTIVE) ∧
    Marked x (x &&& ~~~FACTION_FLAG_AT_WAR) (hasFlag x FACTION_FLAG_VISIBLE) false (hasFlag x FACTION_FLAG_INACTIVE) ∧
    Marked x (x ||| FACTION_FLAG_INACTIVE) (hasFlag x FACTION_FLAG_VISIBLE) (hasFlag x FACTION_FLAG_AT_WAR) true ∧
    Marked x (x &&& ~~~FACTION_FLAG_INACTIVE) (hasFlag x FACTION_FLAG_VISIBLE) (hasFlag x FACTION_FLAG_AT_WAR) false :=
  forall_uint8 (by decide +kernel)

theorem hasFlag_congr {x y : UInt8} (h : fixedFlags x = fixedFlags y) {flag : UInt8}
    (hflag : ~~~(FACTION_FLAG_VISIBLE ||| FACTION_FLAG_AT_WAR ||| FACTION_FLAG_INACTIVE) &&& flag = flag) :
    hasFlag x flag = hasFlag y flag := by
  rw [← hasFlag_clear x _ flag hflag, ← hasFlag_clear y _ flag hflag]
  exact congrArg (hasFlag · flag) h

namespace FactionState
variable (f : FactionState)

def war : Bool := hasFlag f.Flags FACTION_FLAG_AT_WAR
def inactive : Bool := hasFlag f.Flags FACTION_FLAG_INACTIVE
def hidden : Bool := hasFlag f.Flags FACTION_FLAG_HIDDEN
def peaceForced : Bool := hasFlag f.Flags FACTION_FLAG_PEACE_FORCED

def concealed : Bool := hasFlag f.Flags (FACTION_FLAG_INVISIBLE_FORCED ||| FACTION_FLAG_HIDDEN)

def shown : FactionState := if f.canShow = false ∨ f.visible = true then f else f.setVisible

def merged (rank : ReputationRank) (flags : UInt16) : FactionState :=
  let f := if hasFlag flags.toUInt8 FACTION_FLAG_VISIBLE then f.shown else f
  let f := if hasFlag flags.toUInt8 FACTION_FLAG_INACTIVE then f.setInactive true else f
  let f :=
    if hasFlag flags.toUInt8 FACTION_FLAG_AT_WAR then
      f.setAtWar (!hasFlag flags.toUInt8 FACTION_FLAG_HIDDEN || decide (rank < .neutral))
    else if f.visible then f.setAtWar false
    else f
  if rank ≤ .hostile then f.setAtWar true else f

def loaded (rank : ReputationRank) (flags : UInt16) : FactionState :=
  let f := f.merged rank flags
  if f.Flags.toUInt16 = flags then { f with needSend := false, needSave := false } else f

/-! ### What the setters make of a state -/

def Alike (f g : FactionState) : Prop := g.Standing = f.Standing ∧ fixedFlags g.Flags = fixedFlags f.Flags

variable {f} {g : FactionState}

theorem Alike.trans {h : FactionState} (hfg : Alike f g) (hgh : Alike g h) : Alike f h :=
  ⟨hgh.1.trans hfg.1, hgh.2.trans hfg.2⟩

theorem Alike.canShow (h : Alike f g) : g.canShow = f.canShow := by
  unfold FactionState.canShow
  rw [hasFlag_congr h.2 (show _ &&& (FACTION_FLAG_INVISIBLE_FORCED ||| FACTION_FLAG_HIDDEN) = _ by decide),
    hasFlag_congr h.2 (show _ &&& FACTION_FLAG_SPECIAL = _ by decide)]

theorem Alike.concealed (h : Alike f g) : g.concealed = f.concealed := hasFlag_congr h.2 (by decide)

theorem Alike.peaceForced (h : Alike f g) : g.peaceForced = f.peaceForced := hasFlag_congr h.2 (by decide)

theorem shown_spec (f : FactionState) : Alike f f.shown ∧ f.shown.visible = (f.visible || f.canShow) ∧
    f.shown.war = f.war ∧ f.shown.inactive = f.inactive := by
  unfold shown
  split
  · rename_i h
    refine ⟨⟨rfl, rfl⟩, ?_, rfl, rfl⟩
    cases h with
    | inl hnot => rw [hnot, Bool.or_false]
    | inr hvisible => rw [hvisible, Bool.true_or]
  · rename_i h
    obtain ⟨hshow, _⟩ := not_or.mp h
    obtain ⟨hfixed, hvisible, hwar, hinactive⟩ := (marked_setters f.Flags).1
    refine ⟨⟨rfl, hfixed⟩, ?_, hwar, hinactive⟩
    rw [Bool.eq_true_of_not_eq_false hshow, Bool.or_true]
    exact hvisible

theorem setAtWar_spec (f : FactionState) (on : Bool) : Alike f (f.setAtWar on) ∧
    (f.setAtWar on).visible = f.visible ∧ (f.setAtWar on).inactive = f.inactive ∧
    (f.setAtWar on).war = if on && f.peaceForced then f.war else on := by
  unfold FactionState.setAtWar
  split
  · rename_i h
    refine ⟨⟨rfl, rfl⟩, rfl, rfl, (if_pos ?_).symm⟩
    rw [h.1, Bool.true_and]
    exact h.2
  rename_i hfree
  have hcond : ¬ (on && f.peaceForced) = true := by
    rw [Bool.and_eq_true]
    exact hfree
  rw [if_neg hcond]
  split
  · rename_i hsame
    exact ⟨⟨rfl, rfl⟩, rfl, rfl, hsame⟩
  · cases on with
    | true =>
      obtain ⟨hfixed, hvisible, hwar, hinactive⟩ := (marked_setters f.Flags).2.1
      exact ⟨⟨rfl, hfixed⟩, hvisible, hinactive, hwar⟩
    | false =>
      obtain ⟨hfixed, hvisible, hwar, hinactive⟩ := (marked_setters f.Flags).2.2.1
      exact ⟨⟨rfl, hfixed⟩, hvisible, hinactive, hwar⟩

theorem setInactive_spec (f : FactionState) (on : Bool) : Alike f (f.setInactive on) ∧
    (f.setInactive on).visible = f.visible ∧ (f.setInactive on).war = f.war ∧
    (f.setInactive on).inactive = if on && (f.concealed || !f.visible) then f.inactive else on := by
  unfold FactionState.setInactive
  have hcond : (on && (f.concealed || !f.visible)) = true ↔
      on = true ∧ (hasFlag f.Flags (FACTION_FLAG_INVISIBLE_FORCED ||| FACTION_FLAG_HIDDEN) = true ∨
        hasFlag f.Flags FACTION_FLAG_VISIBLE = false) := by
    rw [Bool.and_eq_true, Bool.or_eq_true, Bool.not_eq_true']
    exact Iff.rfl
  split
  · rename_i h
    exact ⟨⟨rfl, rfl⟩, rfl, rfl, (if_pos (hcond.mpr h)).symm⟩
  rename_i hfree
  rw [if_neg (mt hcond.mp hfree)]
  split
  · rename_i hsame
    exact ⟨⟨rfl, rfl⟩, rfl, rfl, hsame⟩
  · cases on with
    | true =>
      obtain ⟨hfixed, hvisible, hwar, hinactive⟩ := (marked_setters f.Flags).2.2.2.1
      exact ⟨⟨rfl, hfixed⟩, hvisible, hwar, hinactive⟩
    | false =>
      obtain ⟨hfixed, hvisible, hwar, hinactive⟩ := (marked_setters f.Flags).2.2.2.2
      exact ⟨⟨rfl, hfixed⟩, hvisible, hwar, hinactive⟩

/-- What the setters can make of the state `d` that a faction starts with. -/
structure Derived (d f : FactionState) : Prop where
  fixed : fixedFlags f.Flags = fixedFlags d.Flags
  seen : f.visible = true → d.visible = true ∨ d.canShow = true
  visible : d.visible = true → f.visible = true
  inactive : f.inactive = true → d.inactive = true ∨ f.concealed = false ∧ f.visible = true
  war : f.war = true → f.peaceForced = true → d.war = true

variable {d : FactionState}

theorem Derived.refl (d : FactionState) : Derived d d := ⟨rfl, .inl, id, .inl, fun h _ => h⟩

theorem Derived.congr (h : Derived d f) (hflags : g.Flags = f.Flags) : Derived d g := by
  obtain ⟨hfixed, hseen, hvisible, hinactive, hwar⟩ := h
  unfold FactionState.visible FactionState.inactive FactionState.war FactionState.concealed
    FactionState.peaceForced at *
  rw [← hflags] at hfixed hseen hvisible hinactive hwar
  exact ⟨hfixed, hseen, hvisible, hinactive, hwar⟩

theorem Derived.alike (h : Derived d f) : Alike { d with Standing := f.Standing } f := ⟨rfl, h.fixed⟩

theorem Derived.of_alike (h : Derived d f) (halike : Alike f g)
    (hshown : g.visible = true → f.visible = true ∨ f.canShow = true) (hvisible : f.visible = true → g.visible = true)
    (hinactive : g.inactive = true → f.inactive = true ∨ f.concealed = false ∧ f.visible = true)
    (hwar : g.war = true → f.peaceForced = true → f.war = true) : Derived d g := by
  refine ⟨halike.2.trans h.fixed, fun hg => ?_, fun hg => hvisible (h.visible hg), fun hg => ?_, fun hg hpeace => ?_⟩
  · cases hshown hg with
    | inl hf => exact h.seen hf
    | inr hcan => exact .inr (h.alike.canShow.symm.trans hcan)
  · rw [halike.concealed]
    cases hinactive hg with
    | inl hf =>
      cases h.inactive hf with
      | inl hdef => exact .inl hdef
      | inr hfree => exact .inr ⟨hfree.1, hvisible hfree.2⟩
    | inr hfree => exact .inr ⟨hfree.1, hvisible hfree.2⟩
  · rw [halike.peaceForced] at hpeace
    exact h.war (hwar hg hpeace) hpeace

theorem Derived.shown (h : Derived d f) : Derived d f.shown := by
  obtain ⟨halike, hvisible, hwar, hinactive⟩ := shown_spec f
  rw [Bool.eq_iff_iff, Bool.or_eq_true] at hvisible
  exact h.of_alike halike hvisible.mp (fun hf => hvisible.mpr (.inl hf)) (fun hg => .inl (hinactive.symm.trans hg))
    fun hg _ => hwar.symm.trans hg

theorem Derived.setAtWar (h : Derived d f) (on : Bool) : Derived d (f.setAtWar on) := by
  obtain ⟨halike, hvisible, hinactive, hwar⟩ := setAtWar_spec f on
  refine h.of_alike halike (fun hg => .inl (hvisible.symm.trans hg)) (fun hf => hvisible.trans hf)
    (fun hg => .inl (hinactive.symm.trans hg)) fun hg hpeace => ?_
  rw [hg, hpeace, Bool.and_true] at hwar
  cases on with
  | true => exact hwar.symm
  | false => exact nomatch hwar

theorem Derived.setInactive (h : Derived d f) (on : Bool) : Derived d (f.setInactive on) := by
  obtain ⟨halike, hvisible, hwar, hinactive⟩ := setInactive_spec f on
  refine h.of_alike halike (fun hg => .inl (hvisible.symm.trans hg)) (fun hf => hvisible.trans hf) (fun hg => ?_)
    fun hg _ => hwar.symm.trans hg
  rw [hg] at hinactive
  split at hinactive
  · exact .inl hinactive.symm
  · rename_i hfree
    rw [← hinactive, Bool.true_and, Bool.or_eq_true, not_or, Bool.not_eq_true, Bool.not_eq_true,
      Bool.not_eq_false'] at hfree
    exact .inr hfree

/-- A change that is marked to be saved, of no flags but those of the setters. -/
structure Touches (f g : FactionState) : Prop where
  derived : ∀ d, Derived d f → Derived d g
  unsaved : g.needSave = false → f.needSave = false ∧ g.Standing = f.Standing ∧ g.Flags = f.Flags

theorem Touches.refl (f : FactionState) : Touches f f := ⟨fun _ h => h, fun h => ⟨h, rfl, rfl⟩⟩

theorem Touches.trans {h : FactionState} (hfg : Touches f g) (hgh : Touches g h) : Touches f h := by
  refine ⟨fun d hd => hgh.derived d (hfg.derived d hd), fun hsave => ?_⟩
  obtain ⟨hg, hstanding, hflags⟩ := hgh.unsaved hsave
  obtain ⟨hf, hstanding', hflags'⟩ := hfg.unsaved hg
  exact ⟨hf, hstanding.trans hstanding', hflags.trans hflags'⟩

theorem touches_shown (f : FactionState) : Touches f f.shown := by
  refine ⟨fun d h => h.shown, fun hsave => ?_⟩
  unfold FactionState.shown at hsave ⊢
  split at hsave
  · rename_i hsame
    rw [if_pos hsame]
    exact ⟨hsave, rfl, rfl⟩
  · exact nomatch hsave

theorem touches_setAtWar (f : FactionState) (on : Bool) : Touches f (f.setAtWar on) := by
  refine ⟨fun d h => h.setAtWar on, fun hsave => ?_⟩
  unfold FactionState.setAtWar at hsave ⊢
  split at hsave
  · rename_i hforced
    rw [if_pos hforced]
    exact ⟨hsave, rfl, rfl⟩
  · rename_i hfree
    split at hsave
    · rename_i hsame
      rw [if_neg hfree, if_pos hsame]
      exact ⟨hsave, rfl, rfl⟩
    · exact nomatch hsave

theorem touches_setInactive (f : FactionState) (on : Bool) : Touches f (f.setInactive on) := by
  refine ⟨fun d h => h.setInactive on, fun hsave => ?_⟩
  unfold FactionState.setInactive at hsave ⊢
  split at hsave
  · rename_i hrefused
    rw [if_pos hrefused]
    exact ⟨hsave, rfl, rfl⟩
  · rename_i hfree
    split at hsave
    · rename_i hsame
      rw [if_neg hfree, if_pos hsame]
      exact ⟨hsave, rfl, rfl⟩
    · exact nomatch hsave

theorem touches_setStanding (f : FactionState) (standing : Int32) : Touches f (f.setStanding standing) :=
  ⟨fun _ h => h.congr rfl, fun hsave => nomatch hsave⟩

theorem merged_invariant {P : FactionState → Prop} (hshown : ∀ f, P f → P f.shown)
    (hwar : ∀ f on, P f → P (f.setAtWar on)) (hinactive : ∀ f, P f → P (f.setInactive true)) (hf : P f)
    (rank : ReputationRank) (flags : UInt16) : P (f.merged rank flags) := by
  unfold merged
  extract_lets f₁ f₂ f₃
  have h₁ : P f₁ := by
    rw [show f₁ = if _ then _ else _ from rfl]
    split
    · exact hshown f hf
    · exact hf
  have h₂ : P f₂ := by
    rw [show f₂ = if _ then _ else _ from rfl]
    split
    · exact hinactive f₁ h₁
    · exact h₁
  have h₃ : P f₃ := by
    rw [show f₃ = if _ then _ else _ from rfl]
    split
    · exact hwar f₂ _ h₂
    · split
      · exact hwar f₂ false h₂
      · exact h₂
  split
  · exact hwar f₃ true h₃
  · exact h₃

theorem touches_merged (f : FactionState) (rank : ReputationRank) (flags : UInt16) :
    Touches f (f.merged rank flags) :=
  merged_invariant (fun g h => h.trans (touches_shown g)) (fun g on h => h.trans (touches_setAtWar g on))
    (fun g h => h.trans (touches_setInactive g true)) (.refl f) rank flags

theorem alike_merged (f : FactionState) (rank : ReputationRank) (flags : UInt16) :
    Alike f (f.merged rank flags) :=
  merged_invariant (fun g h => h.trans (shown_spec g).1) (fun g on h => h.trans (setAtWar_spec g on).1)
    (fun g h => h.trans (setInactive_spec g true).1) ⟨rfl, rfl⟩ rank flags

theorem alike_loaded (f : FactionState) (rank : ReputationRank) (flags : UInt16) :
    Alike f (f.loaded rank flags) := by
  unfold loaded
  dsimp only
  split
  · exact alike_merged f rank flags
  · exact alike_merged f rank flags

/-! ### What a row brings back -/

theorem loaded_saved {rank : ReputationRank} {flags : UInt16} (hnew : f.needSave = true)
    (hsave : (f.loaded rank flags).needSave = false) : (f.loaded rank flags).Flags.toUInt16 = flags := by
  unfold loaded at hsave ⊢
  dsimp only at hsave ⊢
  split at hsave
  · rename_i hsame
    rw [if_pos hsame]
    exact hsame
  · have hold := ((touches_merged f rank flags).unsaved hsave).1
    exact nomatch hnew.symm.trans hold

theorem Derived.loaded (h : Derived d f) (rank : ReputationRank) (flags : UInt16) :
    Derived d (f.loaded rank flags) := by
  have hmerged := (touches_merged f rank flags).derived d h
  unfold FactionState.loaded
  dsimp only
  split
  · exact hmerged.congr rfl
  · exact hmerged

theorem loaded_spec (d : FactionState) (rank : ReputationRank) (x : FactionState) :
    Alike d (d.loaded rank x.Flags.toUInt16) ∧
    (d.loaded rank x.Flags.toUInt16).visible = (d.visible || x.visible && d.canShow) ∧
    (d.loaded rank x.Flags.toUInt16).inactive =
      (d.inactive || x.inactive && (!d.concealed && (d.visible || x.visible && d.canShow))) ∧
    (d.loaded rank x.Flags.toUInt16).war =
      (if rank ≤ .hostile ∧ d.peaceForced = false then true
      else if x.war then (if x.hidden = true ∧ ¬ rank < .neutral then false else if d.peaceForced then d.war else true)
      else if d.visible || x.visible && d.canShow then false else d.war) := by
  unfold loaded merged
  rw [UInt8.toUInt8_toUInt16]
  extract_lets f₁ f₂ f₃ f₄
  obtain ⟨vis, hvis⟩ : ∃ vis, vis = (d.visible || x.visible && d.canShow) := ⟨_, rfl⟩
  have h₁ : Alike d f₁ ∧ f₁.visible = vis ∧ f₁.inactive = d.inactive ∧ f₁.war = d.war := by
    obtain ⟨halike, hvisible, hwar, hinactive⟩ := shown_spec d
    rw [hvis, show f₁ = if x.visible = true then d.shown else d from rfl]
    cases x.visible with
    | true => exact ⟨halike, hvisible, hinactive, hwar⟩
    | false => exact ⟨⟨rfl, rfl⟩, (Bool.or_false _).symm, rfl, rfl⟩
  have h₂ : Alike d f₂ ∧ f₂.visible = vis ∧ f₂.inactive = (d.inactive || x.inactive && (!d.concealed && vis)) ∧
      f₂.war = d.war := by
    obtain ⟨halike, hvisible, hwar, hinactive⟩ := setInactive_spec f₁ true
    rw [h₁.1.concealed, h₁.2.1, h₁.2.2.1] at hinactive
    rw [show f₂ = if x.inactive = true then f₁.setInactive true else f₁ from rfl]
    cases x.inactive with
    | true =>
      refine ⟨h₁.1.trans halike, hvisible.trans h₁.2.1, hinactive.trans ?_, hwar.trans h₁.2.2.2⟩
      cases d.concealed <;> cases vis <;> cases d.inactive <;> rfl
    | false => exact ⟨h₁.1, h₁.2.1, h₁.2.2.1.trans (Bool.or_false _).symm, h₁.2.2.2⟩
  have h₃ : Alike d f₃ ∧ f₃.visible = vis ∧ f₃.inactive = f₂.inactive ∧
      f₃.war = if x.war then (if x.hidden = true ∧ ¬ rank < .neutral then false else if d.peaceForced then d.war else true)
        else if vis then false else d.war := by
    obtain ⟨on, hon⟩ : ∃ on, on = (!x.hidden || decide (rank < .neutral)) := ⟨_, rfl⟩
    rw [show f₃ = if x.war = true then f₂.setAtWar (!x.hidden || decide (rank < .neutral))
      else if f₂.visible = true then f₂.setAtWar false else f₂ from rfl, ← hon, h₂.2.1]
    cases x.war with
    | true =>
      obtain ⟨halike, hvisible, hinactive, hwar⟩ := setAtWar_spec f₂ on
      refine ⟨h₂.1.trans halike, hvisible.trans h₂.2.1, hinactive, hwar.trans ?_⟩
      rw [h₂.1.peaceForced, h₂.2.2.2, hon]
      by_cases hrank : rank < .neutral
      · simp [hrank]
      · cases x.hidden <;> simp [hrank]
    | false =>
      cases vis with
      | true =>
        obtain ⟨halike, hvisible, hinactive, hwar⟩ := setAtWar_spec f₂ false
        exact ⟨h₂.1.trans halike, hvisible.trans h₂.2.1, hinactive, hwar⟩
      | false => exact ⟨h₂.1, h₂.2.1, rfl, h₂.2.2.2⟩
  have h₄ : Alike d f₄ ∧ f₄.visible = vis ∧ f₄.inactive = f₂.inactive ∧
      f₄.war = if rank ≤ .hostile ∧ d.peaceForced = false then true else f₃.war := by
    rw [show f₄ = if rank ≤ .hostile then f₃.setAtWar true else f₃ from rfl]
    by_cases hrank : rank ≤ .hostile
    · obtain ⟨halike, hvisible, hinactive, hwar⟩ := setAtWar_spec f₃ true
      rw [h₃.1.peaceForced] at hwar
      rw [if_pos hrank]
      refine ⟨h₃.1.trans halike, hvisible.trans h₃.2.1, hinactive.trans h₃.2.2.1, hwar.trans ?_⟩
      cases d.peaceForced <;> simp [hrank]
    · rw [if_neg hrank, if_neg fun h => hrank h.1]
      exact ⟨h₃.1, h₃.2.1, h₃.2.2.1, rfl⟩
  rw [h₂.2.2.1, h₃.2.2.2, hvis] at h₄
  split
  · exact h₄
  · exact h₄

/-- A relog keeps the flags of a state: an inactive default stays inactive, a hidden faction is not at war unless
it is unfriendly, and a faction at peace can be shown, or begins at peace, and is not hostile unless peace is
forced. -/
structure Returns (rank : ReputationRank) (d f : FactionState) : Prop where
  inactive : d.inactive = true → f.inactive = true
  atWar : f.war = true → ¬ (f.hidden = true ∧ ¬ rank < .neutral)
  atPeace : f.war = false → (f.visible = true ∨ d.war = false) ∧ ¬ (rank ≤ .hostile ∧ f.peaceForced = false)

instance (rank : ReputationRank) (d f : FactionState) : Decidable (Returns rank d f) :=
  decidable_of_iff ((d.inactive = true → f.inactive = true) ∧ (f.war = true → ¬ (f.hidden = true ∧ ¬ rank < .neutral)) ∧
    (f.war = false → (f.visible = true ∨ d.war = false) ∧ ¬ (rank ≤ .hostile ∧ f.peaceForced = false)))
    ⟨fun h => ⟨h.1, h.2.1, h.2.2⟩, fun h => ⟨h.inactive, h.atWar, h.atPeace⟩⟩

theorem lt_neutral_of_le_hostile {rank : ReputationRank} (h : rank ≤ .hostile) : rank < .neutral :=
  Nat.lt_of_le_of_lt h (by decide)

theorem Derived.visible_eq (h : Derived d f) : (d.visible || f.visible && d.canShow) = f.visible := by
  cases hf : f.visible with
  | true =>
    rw [Bool.true_and, Bool.or_eq_true]
    exact h.seen hf
  | false =>
    rw [Bool.false_and, Bool.or_false, Bool.eq_false_iff]
    exact fun hd => Bool.false_ne_true (hf.symm.trans (h.visible hd))

theorem Derived.inactive_iff (h : Derived d f) :
    (d.inactive || f.inactive && (!d.concealed && f.visible)) = f.inactive ↔ (d.inactive = true → f.inactive = true) := by
  cases hf : f.inactive with
  | true =>
    refine iff_of_true ?_ fun _ => rfl
    rw [Bool.true_and, Bool.or_eq_true]
    cases h.inactive hf with
    | inl hd => exact .inl hd
    | inr hfree =>
      have hconcealed : d.concealed = false := h.alike.concealed.symm.trans hfree.1
      rw [hconcealed, hfree.2]
      exact .inr rfl
  | false =>
    rw [Bool.false_and, Bool.or_false]
    exact ⟨fun hd h => hd.symm.trans h, fun h => Bool.eq_false_iff.mpr fun hd => Bool.false_ne_true (h hd)⟩

theorem Derived.war_iff (h : Derived d f) (rank : ReputationRank) :
    (if rank ≤ .hostile ∧ d.peaceForced = false then true
      else if f.war then (if f.hidden = true ∧ ¬ rank < .neutral then false else if d.peaceForced then d.war else true)
      else if f.visible then false else d.war) = f.war ↔
      (f.war = true → ¬ (f.hidden = true ∧ ¬ rank < .neutral)) ∧
        (f.war = false → (f.visible = true ∨ d.war = false) ∧ ¬ (rank ≤ .hostile ∧ f.peaceForced = false)) := by
  rw [h.alike.peaceForced]
  show _ ↔ _ ∧ (_ → _ ∧ ¬ (rank ≤ .hostile ∧ d.peaceForced = false))
  by_cases hhostile : rank ≤ .hostile ∧ d.peaceForced = false
  · rw [if_pos hhostile]
    have hlow := lt_neutral_of_le_hostile hhostile.1
    cases f.war <;> simp [hhostile, hlow]
  · rw [if_neg hhostile]
    cases hwar : f.war with
    | true =>
      have hpeace : (if d.peaceForced = true then d.war else true) = true := by
        split
        · rename_i hd
          exact h.war hwar (h.alike.peaceForced.trans hd)
        · rfl
      by_cases hbound : f.hidden = true ∧ ¬ rank < .neutral
      · simp [hbound]
      · simp [hbound, hpeace]
    | false => cases f.visible <;> simp [hhostile]

theorem Derived.loaded_iff (h : Derived d f) (rank : ReputationRank) :
    (d.loaded rank f.Flags.toUInt16).Flags = f.Flags ↔ Returns rank d f := by
  obtain ⟨halike, hvisible, hinactive, hwar⟩ := loaded_spec d rank f
  rw [h.visible_eq] at hvisible hinactive hwar
  constructor
  · intro hflags
    have hinactive' := hinactive.symm.trans (congrArg (hasFlag · FACTION_FLAG_INACTIVE) hflags)
    have hwar' := hwar.symm.trans (congrArg (hasFlag · FACTION_FLAG_AT_WAR) hflags)
    obtain ⟨hon, hoff⟩ := (h.war_iff rank).mp hwar'
    exact ⟨h.inactive_iff.mp hinactive', hon, hoff⟩
  · intro hreturns
    exact flags_ext (halike.2.trans h.fixed.symm) hvisible
      (hwar.trans ((h.war_iff rank).mpr ⟨hreturns.atWar, hreturns.atPeace⟩))
      (hinactive.trans (h.inactive_iff.mpr hreturns.inactive))

end FactionState

end HysteriaCore.Reputation
