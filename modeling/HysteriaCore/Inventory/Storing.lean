import HysteriaCore.Inventory.Plans

/-!
# Taking out, storing and giving up

What the writes of a request come to: an item that is taken out weighs in the hand what the slots
lose, and a plan that is carried out puts exactly its sum into the slots.
-/

namespace HysteriaCore.Inventory
open Lib

namespace Player
variable {t : Templates} {p q r : Player} {g : Guid}

/-- No object gets lost on the way, where those in the hand count as well. -/
structure Carries (p q : Player) (hand hand' : List Guid) : Prop where
  next_le : p.nextGuid ≤ q.nextGuid
  kept : ∀ g, p.Placed g ∨ g ∈ hand → q.Placed g ∨ g ∈ hand'
  created : ∀ g, p.nextGuid ≤ g → g < q.nextGuid → q.Placed g ∨ g ∈ hand'
  mailed : q.mailed = p.mailed
  inMail : ∀ e, q.inMail e = p.inMail e

theorem Carries.trans {h1 h2 h3 : List Guid} (hpq : Carries p q h1 h2) (hqr : Carries q r h2 h3) :
    Carries p r h1 h3 := by
  refine ⟨hpq.next_le.trans hqr.next_le, fun g hg => hqr.kept g (hpq.kept g hg), ?_,
    hqr.mailed.trans hpq.mailed, fun e => (hqr.inMail e).trans (hpq.inMail e)⟩
  intro g hge hlt
  by_cases hnew : g < q.nextGuid
  · exact hqr.kept g (hpq.created g hge hnew)
  · exact hqr.created g (Nat.le_of_not_lt hnew) hlt

theorem Carries.of_kept {hand hand' : List Guid} (hnext : q.nextGuid = p.nextGuid) (hmailed : q.mailed = p.mailed)
    (hinMail : ∀ e, q.inMail e = p.inMail e)
    (hkept : ∀ g, p.Placed g ∨ g ∈ hand → q.Placed g ∨ g ∈ hand') : Carries p q hand hand' := by
  refine ⟨hnext.ge, hkept, fun g hge hlt => ?_, hmailed, hinMail⟩
  rw [hnext] at hlt
  exact absurd hlt (Nat.not_lt.mpr hge)

theorem carries_modifyItem {f : Item → Item} (hg : g ∉ p.mailed) (hand : List Guid) :
    Carries p (p.modifyItem g f) hand hand :=
  .of_kept rfl rfl (inMail_modifyItem hg f) fun _ h => h

theorem carries_SetCount (hg : g ∉ p.mailed) (n : ℕ) (hand : List Guid) : Carries p (p.SetCount g n) hand hand :=
  carries_modifyItem hg hand

/-! ### Taking out -/

theorem modifyItem_congr {f f' : Item → Item} (h : f (p.items g) = f' (p.items g)) :
    p.modifyItem g f = p.modifyItem g f' := by
  unfold modifyItem
  rw [h]

variable {place : Place} {bag slot : ℕ}

theorem GetItemByPos_eq (hresolve : p.resolve t bag slot = some place) : p.GetItemByPos t bag slot = p.at? place := by
  unfold GetItemByPos
  rw [hresolve, Option.bind_some]

theorem GetItemByPos_some (h : p.GetItemByPos t bag slot = some g) :
    ∃ place, p.resolve t bag slot = some place ∧ p.at? place = some g :=
  Option.bind_eq_some_iff.mp h

def takenOut (i : Item) : Item := { i with contained := 0, slot := NULL_SLOT, container := none }

theorem Sound.RemoveItem_eq (h : p.Sound t)
    (hresolve : p.resolve t bag slot = some place) (hat : p.at? place = some g) :
    p.RemoveItem t bag slot = (p.clearPlace place).modifyItem g takenOut := by
  unfold RemoveItem
  rw [GetItemByPos_eq hresolve, hat]
  cases place with
  | own s =>
    obtain ⟨rfl, rfl⟩ := resolve_own hresolve
    have hcontainer : (p.items g).container = none := (h.records hat).2.1
    simp only [if_true]
    refine modifyItem_congr ?_
    show ({ p.items g with contained := 0, slot := NULL_SLOT } : Item) = takenOut (p.items g)
    unfold takenOut
    rw [← hcontainer]
  | bag b s =>
    obtain ⟨hbag, rfl, -⟩ := resolve_bag hresolve
    simp only [if_neg (GetBagByPos_spec hbag).2.2.1, hbag, Option.elim_some, bagRemoveItem, hat]
    simp [modifyItem, Player.clearPlace, takenOut]

structure Taken (t : Templates) (p q : Player) (place : Place) (g : Guid) : Prop where
  sound : q.Sound t
  loose : q.Loose g
  at_eq : ∀ pl, q.at? pl = if pl = place then none else p.at? pl
  others : ∀ g', g' ≠ g → q.items g' = p.items g'
  entry : ∀ g', (q.items g').entry = (p.items g').entry
  count : (q.items g).count = (p.items g).count
  total : ∀ e, q.total e + p.worth e g = p.total e
  carries : ∀ hand, Carries p q hand (g :: hand)
  same : q.guid = p.guid ∧ q.nextGuid = p.nextGuid ∧ q.removed = p.removed

theorem Sound.taken_of (h : p.Sound t) (hat : p.at? place = some g) {f : Item → Item}
    (hentry : ∀ i, (f i).entry = i.entry) (hcount : ∀ i, (f i).count = i.count) :
    Taken t p ((p.clearPlace place).modifyItem g f) place g := by
  have hloose := h.loose_clearPlace hat
  have hclear := h.clearPlace place
  have hnotMailed : g ∉ (p.clearPlace place).mailed := h.not_mailed hat
  refine ⟨hclear.modifyItem_loose hloose hentry, hloose.modifyItem _, at?_clearPlace place,
    fun g' hne => items_modifyItem_of_ne _ hne, ?_, ?_, ?_, ?_, rfl, rfl, rfl⟩
  · intro g'
    rw [entry_modifyItem hentry]
    rfl
  · rw [items_modifyItem_self, hcount]
    rfl
  · intro e
    rw [hloose.total_modifyItem]
    exact total_clearPlace hat e
  · intro hand
    refine .of_kept rfl rfl (inMail_modifyItem hnotMailed _) ?_
    rintro g' ((⟨pl, hpl⟩ | hgone) | hhand)
    · by_cases heq : pl = place
      · rw [heq, hat] at hpl
        exact .inr (by simp [Option.some.inj hpl])
      · refine .inl (.inl ⟨pl, ?_⟩)
        rw [at?_modifyItem, at?_clearPlace, if_neg heq]
        exact hpl
    · exact .inl (.inr hgone)
    · exact .inr (List.mem_cons_of_mem _ hhand)

theorem Sound.taken (h : p.Sound t)
    (hresolve : p.resolve t bag slot = some place) (hat : p.at? place = some g) :
    Taken t p (p.RemoveItem t bag slot) place g := by
  rw [h.RemoveItem_eq hresolve hat]
  exact h.taken_of hat (fun _ => rfl) fun _ => rfl

theorem Taken.resolve (h : Taken t p q place g) {pl : Place}
    (hresolve : p.resolve t bag slot = some pl) (hbag : place ≠ .own bag) :
    q.resolve t bag slot = some pl := by
  refine resolve_mono hresolve ?_ fun b _ _ => h.entry b
  rintro b s rfl
  rw [h.at_eq, if_neg (Ne.symm hbag)]
  exact (GetBagByPos_spec (resolve_bag hresolve).1).1

/-! ### Putting in -/

theorem Sound.receives (h : p.Sound t) (hloose : p.Loose g)
    (hresolve : p.resolve t bag slot = some place) : Receives t p g place := by
  cases place with
  | own s => trivial
  | bag b s =>
    obtain ⟨hbag, rfl, hlt⟩ := resolve_bag hresolve
    obtain ⟨hat, hisBag, -, -⟩ := GetBagByPos_spec hbag
    exact ⟨hloose.ne_of_at hat, hisBag, hlt, h.known hat, fun hmem => (h.gone (.inl hmem)).2 _ hat⟩

theorem place_eq (hloose : p.Loose g)
    (hresolve : p.resolve t bag slot = some place) : p.place t bag slot g = p.setPlace place g := by
  unfold Player.place
  cases place with
  | own s =>
    obtain ⟨rfl, rfl⟩ := resolve_own hresolve
    rw [if_pos rfl]
  | bag b s =>
    obtain ⟨hbag, rfl, -⟩ := resolve_bag hresolve
    obtain ⟨hat, -, hne, -⟩ := GetBagByPos_spec hbag
    rw [if_neg hne, hbag]
    exact if_pos (Ne.symm (hloose.ne_of_at hat))

structure Put (t : Templates) (p q : Player) (place : Place) (g : Guid) : Prop where
  sound : q.Sound t
  at_eq : ∀ pl, q.at? pl = if place = pl then some g else p.at? pl
  others : ∀ g', g' ≠ g → q.items g' = p.items g'
  entry : ∀ g', (q.items g').entry = (p.items g').entry
  total : ∀ e, q.total e = p.total e + p.worth e g
  carries : ∀ hand, Carries p q (g :: hand) hand
  same : q.guid = p.guid ∧ q.nextGuid = p.nextGuid ∧ q.removed = p.removed ∧ q.mailed = p.mailed

theorem Sound.put (h : p.Sound t) (hloose : p.Loose g)
    (hcount : 1 ≤ (p.items g).count ∧ (p.items g).count ≤ (p.template t g).GetMaxStackSize)
    (hplace : Receives t p g place) (hfree : p.at? place = none) : Put t p (p.setPlace place g) place g := by
  refine ⟨h.setPlace hloose hcount hplace,
    fun pl => at?_setPlace place pl g,
    fun g' hne => items_setPlace_of_ne place hne, ?_, total_setPlace hfree, ?_, rfl, rfl, rfl, rfl⟩
  · intro g'
    by_cases hne : g' = g
    · rw [hne, items_setPlace_self]
    · rw [items_setPlace_of_ne place hne]
  · intro hand
    have hmailed : (p.setPlace place g).mailed = p.mailed := rfl
    refine .of_kept rfl rfl (inMail_congr hmailed fun g' e _ => worth_setPlace place g e g') ?_
    rintro g' ((⟨pl, hpl⟩ | hgone) | hhand)
    · refine .inl (.inl ⟨pl, ?_⟩)
      rw [at?_setPlace, if_neg fun heq => by rw [← heq, hfree] at hpl; simp at hpl]
      exact hpl
    · exact .inl (.inr hgone)
    · rcases List.mem_cons.mp hhand with rfl | hhand
      · refine .inl (.inl ⟨place, ?_⟩)
        rw [at?_setPlace, if_pos rfl]
      · exact .inr hhand

/-! ### Copies -/

structure Copied (t : Templates) (p q : Player) (g : Guid) (n : ℕ) : Prop where
  sound : q.Sound t
  loose : q.Loose p.nextGuid
  entry : (q.items p.nextGuid).entry = (p.items g).entry
  count : (q.items p.nextGuid).count = n
  others : ∀ g', g' ≠ p.nextGuid → q.items g' = p.items g'
  at_eq : ∀ pl, q.at? pl = p.at? pl
  total : ∀ e, q.total e = p.total e
  carries : ∀ hand, Carries p q hand (p.nextGuid :: hand)
  same : q.guid = p.guid ∧ q.nextGuid = p.nextGuid + 1 ∧ q.removed = p.removed ∧ q.fields = p.fields ∧
    q.slots = p.slots

theorem Sound.copied (h : p.Sound t) {n : ℕ} (hpos : 1 ≤ n) (hmax : n ≤ (p.template t g).GetMaxStackSize) :
    ∃ q, p.CloneItem t g n = some (p.nextGuid, q) ∧ Copied t p q g n := by
  refine ⟨p.withCopy t g n, if_neg (Nat.not_lt.mpr hpos), ?_⟩
  have hothers : ∀ g', g' ≠ p.nextGuid → (p.withCopy t g n).items g' = p.items g' :=
    fun g' hne => Function.update_of_ne hne ..
  have hheld : ∀ {place g'}, p.at? place = some g' → g' ≠ p.nextGuid := fun hat => (h.known hat).ne
  have hgone : ∀ {g'}, g' ∈ p.removed ∨ g' ∈ p.mailed → g' ≠ p.nextGuid := fun hmem => (h.gone hmem).1.ne
  refine ⟨⟨?_, ?_, h.shown, ?_, ?_, ?_⟩, ⟨Nat.lt_succ_self _, ?_, ?_, ?_⟩, ?_, ?_, hothers, fun _ => rfl, ?_, ?_,
    rfl, rfl, rfl, rfl, rfl⟩
  · intro place g' hat
    rw [hothers g' (hheld hat)]
    exact h.records hat
  · intro place g' hat
    unfold template
    rw [hothers g' (hheld hat)]
    exact h.counts hat
  · intro place g' hat
    exact (h.known hat).trans (Nat.lt_succ_self _)
  · intro g' hmem
    exact ⟨(h.gone hmem).1.trans (Nat.lt_succ_self _), (h.gone hmem).2⟩
  · intro b s g' hat
    obtain ⟨hbag, hlt, hknown, hkept⟩ := h.inBags hat
    unfold IsBag GetBagSize template
    rw [hothers b hknown.ne]
    exact ⟨hbag, hlt, hknown.trans (Nat.lt_succ_self _), hkept⟩
  · exact fun place hat => hheld hat rfl
  · exact fun hmem => hgone (.inl hmem) rfl
  · exact fun hmem => hgone (.inr hmem) rfl
  · simp [withCopy]
  · simp [withCopy, hmax]
  · have hslots : (p.withCopy t g n).slots = p.slots := rfl
    refine total_congr hslots fun place g' e hat => ?_
    unfold worth
    rw [hothers g' (hheld hat)]
  · intro hand
    refine ⟨Nat.le_succ _, ?_, ?_, rfl, ?_⟩
    · rintro g' (hplaced | hhand)
      · exact .inl hplaced
      · exact .inr (List.mem_cons_of_mem _ hhand)
    · intro g' hge hlt
      have heq : g' = p.nextGuid := Nat.le_antisymm (Nat.lt_succ_iff.mp hlt) hge
      exact .inr (by simp [heq])
    · have hmailed : (p.withCopy t g n).mailed = p.mailed := rfl
      refine inMail_congr hmailed fun g' e hmem => ?_
      unfold worth
      rw [hothers g' (hgone (.inr hmem))]

/-! ### Carrying a plan out -/

structure Stored (t : Templates) (p q : Player) (place : Place) (g : Guid) (n : ℕ) : Prop where
  sound : q.Sound t
  total : ∀ e, q.total e = p.total e + if (p.items g).entry = e then n else 0
  elsewhere : ∀ pl, pl ≠ place → q.at? pl = p.at? pl
  grows : ∀ pl g', p.at? pl = some g' → q.at? pl = some g'
  others : ∀ pl g', pl ≠ place → p.at? pl = some g' → q.items g' = p.items g'
  entry : ∀ g', g' < p.nextGuid → (q.items g').entry = (p.items g').entry

theorem resolve_of_grows (h : p.Sound t) (hgrows : ∀ pl g', p.at? pl = some g' → q.at? pl = some g')
    (hentry : ∀ g', g' < p.nextGuid → (q.items g').entry = (p.items g').entry)
    (hresolve : p.resolve t bag slot = some place) : q.resolve t bag slot = some place := by
  have hbag : ∀ b s, place = .bag b s → p.at? (.own bag) = some b := by
    rintro b s rfl
    exact (GetBagByPos_spec (resolve_bag hresolve).1).1
  exact resolve_mono hresolve (fun b s heq => hgrows _ _ (hbag b s heq))
    fun b s heq => hentry b (h.known (hbag b s heq))

theorem Sound.merged (h : p.Sound t) (hloose : p.Loose g) {g2 : Guid} {n : ℕ}
    (hat : p.at? place = some g2) (hentry : (p.items g2).entry = (p.items g).entry)
    (hmax : (p.items g2).count + n ≤ (p.template t g).GetMaxStackSize) :
    Stored t p (p.SetCount g2 ((p.items g2).count + n)) place g n ∧
      (p.SetCount g2 ((p.items g2).count + n)).Loose g ∧
      ((p.SetCount g2 ((p.items g2).count + n)).items g = p.items g) ∧
      ∀ hand, Carries p (p.SetCount g2 ((p.items g2).count + n)) hand hand := by
  have hcounts := h.counts hat
  have hmax' : (p.items g2).count + n ≤ (p.template t g2).GetMaxStackSize := by
    unfold template
    rw [hentry]
    exact hmax
  refine ⟨⟨h.SetCount hat (by omega) hmax', ?_, fun _ _ => rfl, fun _ _ hold => hold, ?_,
    fun g' _ => entry_SetCount g2 _ g'⟩, hloose.modifyItem _, items_modifyItem_of_ne _ (hloose.ne_of_at hat).symm,
    carries_SetCount (h.not_mailed hat) _⟩
  · intro e
    have htotal := h.total_SetCount hat ((p.items g2).count + n) e
    unfold worth at htotal
    rw [hentry] at htotal
    split at htotal
    · rename_i he
      rw [if_pos he]
      omega
    · rename_i he
      rw [if_neg he]
      omega
  · intro pl g' hne hold
    refine items_modifyItem_of_ne _ fun heq => hne ?_
    rw [heq] at hold
    exact h.unique hold hat

variable {d : ItemPosCount}

theorem Sound.stored_clone (h : p.Sound t) (hloose : p.Loose g) (hfits : Fits t p g d) :
    ∃ place, p.resolve t d.bag d.slot = some place ∧
      Stored t p (p._StoreItem t d.bag d.slot g d.count true) place g d.count ∧
      (p._StoreItem t d.bag d.slot g d.count true).Loose g ∧
      (p._StoreItem t d.bag d.slot g d.count true).items g = p.items g ∧
      ∀ hand, Carries p (p._StoreItem t d.bag d.slot g d.count true) hand hand := by
  obtain ⟨hpos, hmax, place, hresolve, hroom⟩ := hfits
  refine ⟨place, hresolve, ?_⟩
  unfold _StoreItem
  rw [GetItemByPos_eq hresolve]
  cases hat : p.at? place with
  | some g2 =>
    have hne : g2 ≠ g := hloose.ne_of_at hat
    obtain ⟨hentry, hsum⟩ := hroom g2 hat hne
    exact h.merged hloose hat hentry hsum
  | none =>
    obtain ⟨c, hclone, hcopied⟩ := h.copied hpos hmax
    have hresolve' : c.resolve t d.bag d.slot = some place := by
      refine resolve_of_grows h (fun pl g' hold => (hcopied.at_eq pl).trans hold) (fun g' hlt => ?_) hresolve
      rw [hcopied.others g' hlt.ne]
    have hput : Put t c (c.setPlace place p.nextGuid) place p.nextGuid := by
      refine hcopied.sound.put hcopied.loose ?_ (hcopied.sound.receives hcopied.loose hresolve')
        ((hcopied.at_eq place).trans hat)
      rw [hcopied.count, template, hcopied.entry]
      exact ⟨hpos, hmax⟩
    simp only [if_true, hclone, Option.elim_some, place_eq hcopied.loose hresolve']
    have hg : g ≠ p.nextGuid := hloose.known.ne
    have hitems : ∀ g', g' ≠ p.nextGuid → (c.setPlace place p.nextGuid).items g' = p.items g' :=
      fun g' hne => (hput.others g' hne).trans (hcopied.others g' hne)
    have helsewhere : ∀ pl, pl ≠ place → (c.setPlace place p.nextGuid).at? pl = p.at? pl := by
      intro pl hne
      rw [hput.at_eq, if_neg (Ne.symm hne), hcopied.at_eq]
    refine ⟨⟨hput.sound, ?_, helsewhere, ?_, ?_, ?_⟩, ⟨?_, ?_, ?_, ?_⟩, hitems g hg,
      fun hand => (hcopied.carries hand).trans (hput.carries hand)⟩
    · intro e
      rw [hput.total, hcopied.total, worth, hcopied.entry, hcopied.count]
    · intro pl g' hold
      rw [helsewhere pl fun heq => by rw [heq, hat] at hold; simp at hold]
      exact hold
    · exact fun pl g' _ hold => hitems g' (h.known hold).ne
    · intro g' hlt
      rw [hitems g' hlt.ne]
    · rw [hput.same.2.1, hcopied.same.2.1]
      exact hloose.known.trans (Nat.lt_succ_self _)
    · intro pl hpl
      rw [hput.at_eq] at hpl
      split at hpl
      · exact hg (Option.some.inj hpl).symm
      · rw [hcopied.at_eq] at hpl
        exact hloose.nowhere pl hpl
    · rw [hput.same.2.2.1, hcopied.same.2.2.1]
      exact hloose.kept.1
    · rw [hput.same.2.2.2, (hcopied.carries []).mailed]
      exact hloose.kept.2

theorem Sound.stored_last (h : p.Sound t) (hloose : p.Loose g) (hfits : Fits t p g d)
    (hempty : ∀ s, p.at? (.bag g s) = none) :
    ∃ place, p.resolve t d.bag d.slot = some place ∧
      Stored t p (p._StoreItem t d.bag d.slot g d.count false) place g d.count ∧
      ∀ hand, Carries p (p._StoreItem t d.bag d.slot g d.count false) (g :: hand) hand := by
  obtain ⟨hpos, hmax, place, hresolve, hroom⟩ := hfits
  refine ⟨place, hresolve, ?_⟩
  unfold _StoreItem
  rw [GetItemByPos_eq hresolve]
  cases hat : p.at? place with
  | some g2 =>
    obtain ⟨hentry, hsum⟩ := hroom g2 hat (hloose.ne_of_at hat)
    obtain ⟨hstored, hloose', -, hcarries⟩ := h.merged hloose hat hentry hsum
    refine ⟨⟨hstored.sound.discard hloose' hempty, hstored.total, hstored.elsewhere, hstored.grows, hstored.others,
      hstored.entry⟩, fun hand => ?_⟩
    refine (hcarries (g :: hand)).trans (.of_kept rfl rfl (fun _ => rfl) ?_)
    rintro g' ((hold | hmem | hmem) | hhand)
    · exact .inl (.inl hold)
    · exact .inl (.inr (.inl (List.mem_cons_of_mem _ hmem)))
    · exact .inl (.inr (.inr hmem))
    · rcases List.mem_cons.mp hhand with rfl | hhand
      · exact .inl (.inr (.inl List.mem_cons_self))
      · exact .inr hhand
  | none =>
    have hloose' : (p.SetCount g d.count).Loose g := hloose.modifyItem _
    have hsound : (p.SetCount g d.count).Sound t := h.modifyItem_loose hloose fun _ => rfl
    have hitem : (p.SetCount g d.count).items g = { p.items g with count := d.count } := items_modifyItem_self g _
    have hentries := entry_SetCount (p := p) g d.count
    have hresolve' : (p.SetCount g d.count).resolve t d.bag d.slot = some place :=
      resolve_of_grows (q := p.SetCount g d.count) h (fun _ _ hold => hold) (fun g' _ => hentries g') hresolve
    have hput : Put t (p.SetCount g d.count) ((p.SetCount g d.count).setPlace place g) place g := by
      refine hsound.put hloose' ?_ (hsound.receives hloose' hresolve') hat
      rw [template_congr (hentries g), hitem]
      exact ⟨hpos, hmax⟩
    simp only [Bool.false_eq_true, if_false, place_eq hloose' hresolve']
    have helsewhere : ∀ pl, pl ≠ place → ((p.SetCount g d.count).setPlace place g).at? pl = p.at? pl := by
      intro pl hne
      rw [hput.at_eq, if_neg (Ne.symm hne), at?_SetCount]
    refine ⟨⟨hput.sound, ?_, helsewhere, ?_, ?_, ?_⟩, fun hand => ?_⟩
    · intro e
      rw [hput.total, worth, hitem]
      refine congrArg (· + _) ?_
      exact hloose.total_modifyItem _ e
    · intro pl g' hold
      rw [helsewhere pl fun heq => by rw [heq, hat] at hold; simp at hold]
      exact hold
    · intro pl g' _ hold
      have hne : g' ≠ g := hloose.ne_of_at hold
      rw [hput.others g' hne]
      exact items_modifyItem_of_ne _ hne
    · exact fun g' _ => (hput.entry g').trans (hentries g')
    · exact (carries_SetCount hloose.kept.2 d.count (g :: hand)).trans (hput.carries hand)

theorem Stored.fits {n : ℕ} (h : p.Sound t) (hstored : Stored t p q place g n)
    (hitem : q.items g = p.items g) (hfits : Fits t p g d)
    (hother : p.resolve t d.bag d.slot ≠ some place) : Fits t q g d := by
  obtain ⟨hpos, hmax, pl, hresolve, hroom⟩ := hfits
  have htemplate : q.template t g = p.template t g := congrArg (fun i => t (Item.entry i)) hitem
  have hne : pl ≠ place := fun heq => hother (heq ▸ hresolve)
  refine ⟨hpos, htemplate ▸ hmax, pl, resolve_of_grows h hstored.grows hstored.entry hresolve, ?_⟩
  intro g2 hat hg2
  rw [hstored.elsewhere pl hne] at hat
  rw [hstored.others pl g2 hne hat, hitem, htemplate]
  exact hroom g2 hat hg2

theorem Sound.StoreItem (dest : List ItemPosCount) : ∀ {p : Player}, p.Sound t → p.Loose g → dest ≠ [] →
    (dest.map ItemPosCount.pos).Nodup → (∀ d ∈ dest, Fits t p g d) → (∀ s, p.at? (.bag g s) = none) →
    (p.StoreItem t g dest).Sound t ∧
      (∀ e, (p.StoreItem t g dest).total e =
        p.total e + if (p.items g).entry = e then (dest.map ItemPosCount.count).sum else 0) ∧
      ∀ hand, Carries p (p.StoreItem t g dest) (g :: hand) hand := by
  induction dest with
  | nil => exact fun _ _ hne => absurd rfl hne
  | cons d rest ih =>
    intro p h hloose _ hnodup hfits hempty
    have hd := hfits d List.mem_cons_self
    cases rest with
    | nil =>
      obtain ⟨place, -, hstored, hcarries⟩ := h.stored_last hloose hd hempty
      refine ⟨hstored.sound, fun e => ?_, hcarries⟩
      rw [List.map_singleton, List.sum_singleton]
      exact hstored.total e
    | cons d' rest =>
      obtain ⟨place, hresolve, hstored, hloose', hitem, hcarries⟩ := h.stored_clone hloose hd
      rw [List.map_cons, List.nodup_cons] at hnodup
      have hfits' : ∀ d2 ∈ d' :: rest, Fits t (p._StoreItem t d.bag d.slot g d.count true) g d2 := by
        intro d2 hmem
        refine hstored.fits h hitem (hfits d2 (List.mem_cons_of_mem _ hmem)) fun hsame => hnodup.1 ?_
        have hpos : d.pos = d2.pos := h.resolve_inj hresolve hsame
        rw [hpos]
        exact List.mem_map_of_mem hmem
      have hempty' : ∀ s, (p._StoreItem t d.bag d.slot g d.count true).at? (.bag g s) = none := by
        intro s
        rw [hstored.elsewhere]
        · exact hempty s
        · rintro rfl
          exact hloose.nowhere _ (GetBagByPos_spec (resolve_bag hresolve).1).1
      obtain ⟨hsound, htotal, hcarried⟩ := ih hstored.sound hloose' (by simp) hnodup.2 hfits' hempty'
      refine ⟨hsound, fun e => ?_, fun hand => (hcarries (g :: hand)).trans (hcarried hand)⟩
      rw [List.map_cons, List.sum_cons]
      have hall := htotal e
      rw [hstored.total e, hitem] at hall
      refine hall.trans ?_
      split <;> omega

end Player

end HysteriaCore.Inventory
