import Mathlib.Dynamics.PeriodicPts.Lemmas

/-!
# Circles of a partial function

Every point has at most one successor, so each point leads to at most one circle. From a
start, the circle is entered at one point and closed by one link.
-/

namespace HysteriaCore.Lib.Circles
open Relation

variable {α : Type*} {f g : α → Option α}

def Next (f : α → Option α) (x y : α) : Prop := f x = some y

def Leads (f : α → Option α) (x y : α) : Prop := ReflTransGen (Next f) x y

def OnCircle (f : α → Option α) (x : α) : Prop := TransGen (Next f) x x

theorem next_unique : Relator.RightUnique (Next f) := by
  intro x y z hy hz
  exact Option.some.inj (hy.symm.trans hz)

theorem Leads.total {x y z : α} (hy : Leads f x y) (hz : Leads f x z) : Leads f y z ∨ Leads f z y :=
  ReflTransGen.total_of_right_unique next_unique hy hz

variable {x y : α}

theorem OnCircle.next_leads (hx : OnCircle f x) (h : f x = some y) : Leads f y x := by
  obtain ⟨z, hz, hrest⟩ := TransGen.head'_iff.mp hx
  obtain rfl := next_unique hz h
  exact hrest

theorem OnCircle.of_next (hx : OnCircle f x) (h : f x = some y) : OnCircle f y :=
  TransGen.tail' (hx.next_leads h) h

theorem OnCircle.of_leads (hx : OnCircle f x) (h : Leads f x y) : OnCircle f y := by
  induction h with
  | refl => exact hx
  | tail _ hnext ih => exact ih.of_next hnext

theorem OnCircle.back (hx : OnCircle f x) (h : Leads f x y) : Leads f y x := by
  induction h with
  | refl => exact .refl
  | tail hlead hnext ih => exact ((hx.of_leads hlead).next_leads hnext).trans ih

theorem OnCircle.exists_next {x : α} (hx : OnCircle f x) : ∃ y, f x = some y := by
  obtain ⟨y, hy, _⟩ := TransGen.head'_iff.mp hx
  exact ⟨y, hy⟩

theorem OnCircle.exists_prev {x : α} (hx : OnCircle f x) : ∃ y, Leads f x y ∧ f y = some x := by
  obtain ⟨y, hy, hprev⟩ := TransGen.tail'_iff.mp hx
  exact ⟨y, hy, hprev⟩

theorem OnCircle.prev_unique {x y z : α} (hx : OnCircle f x) (hy : OnCircle f y)
    (hxz : f x = some z) (hyz : f y = some z) : x = y := by
  have hiter : ∀ {a b}, TransGen (Next f) a b → ∃ n, 0 < n ∧ (fun x => (f x).getD x)^[n] a = b := by
    intro a b h
    induction h with
    | single h => exact ⟨1, Nat.one_pos, by simp [show f a = some _ from h]⟩
    | tail _ h ih =>
      obtain ⟨n, _, rfl⟩ := ih
      refine ⟨n + 1, Nat.succ_pos n, ?_⟩
      rw [Function.iterate_succ_apply']
      simp [show f _ = some _ from h]
  have hper : ∀ {a}, OnCircle f a → a ∈ Function.periodicPts fun x => (f x).getD x := by
    intro a ha
    obtain ⟨n, hpos, hn⟩ := hiter ha
    exact ⟨n, hpos, hn⟩
  refine (Function.bijOn_periodicPts _).injOn (hper hx) (hper hy) ?_
  simp [hxz, hyz]

/-! ### The entry and the closing link -/

/-- The first point of its circle that the walk from `i` reaches. -/
structure Entry (f : α → Option α) (i m : α) : Prop where
  leads : Leads f i m
  circle : OnCircle f m
  first : i = m ∨ ∃ x, Leads f i x ∧ ¬OnCircle f x ∧ f x = some m

theorem Entry.unique {i m m' : α} (h : Entry f i m) (h' : Entry f i m') : m = m' := by
  -- a point off the circle cannot come after one on it
  have hoff : ∀ {x y}, OnCircle f x → ¬OnCircle f y → ¬Leads f x y :=
    fun hx hy hlead => hy (hx.of_leads hlead)
  rcases h.first with rfl | ⟨x, hx, hxoff, hxm⟩
  · rcases h'.first with rfl | ⟨x', hx', hxoff', _⟩
    · rfl
    · exact absurd hx' (hoff h.circle hxoff')
  · rcases h'.first with rfl | ⟨x', hx', hxoff', hxm'⟩
    · exact absurd hx (hoff h'.circle hxoff)
    rcases hx.total hx' with hlead | hlead
    · rcases ReflTransGen.cases_head hlead with rfl | ⟨y, hy, hrest⟩
      · exact next_unique hxm hxm'
      · obtain rfl := next_unique hy hxm
        exact absurd hrest (hoff h.circle hxoff')
    · rcases ReflTransGen.cases_head hlead with rfl | ⟨y, hy, hrest⟩
      · exact next_unique hxm hxm'
      · obtain rfl := next_unique hy hxm'
        exact absurd hrest (hoff h'.circle hxoff)

structure Closes (f : α → Option α) (i c m : α) : Prop where
  next : f c = some m
  circle : OnCircle f c
  entry : Entry f i m

theorem Closes.leads {i c m : α} (h : Closes f i c m) : Leads f i c :=
  h.entry.leads.trans (h.circle.next_leads h.next)

theorem Closes.unique {i c c' m m' : α} (h : Closes f i c m) (h' : Closes f i c' m') :
    c = c' ∧ m = m' := by
  obtain rfl := h.entry.unique h'.entry
  exact ⟨h.circle.prev_unique h'.circle h.next h'.next, rfl⟩

theorem exists_entry {i c : α} (h : Leads f i c) (hc : OnCircle f c) :
    ∃ m, Entry f i m ∧ Leads f m c := by
  induction h using ReflTransGen.head_induction_on with
  | refl => exact ⟨c, ⟨.refl, hc, .inl rfl⟩, .refl⟩
  | @head i j hnext hlead ih =>
    by_cases hi : OnCircle f i
    · exact ⟨i, ⟨.refl, hi, .inl rfl⟩, ReflTransGen.head hnext hlead⟩
    obtain ⟨m, ⟨hjm, hm, hfirst⟩, hmc⟩ := ih
    refine ⟨m, ⟨ReflTransGen.head hnext hjm, hm, .inr ?_⟩, hmc⟩
    rcases hfirst with rfl | ⟨x, hx, hoff, hxm⟩
    · exact ⟨i, .refl, hi, hnext⟩
    · exact ⟨x, ReflTransGen.head hnext hx, hoff, hxm⟩

theorem exists_closes {i c : α} (h : Leads f i c) (hc : OnCircle f c) :
    ∃ c' m, Closes f i c' m ∧ Leads f c c' := by
  obtain ⟨m, hentry, hmc⟩ := exists_entry h hc
  obtain ⟨c', hlead, hprev⟩ := hentry.circle.exists_prev
  refine ⟨c', m, ⟨hprev, hentry.circle.of_leads hlead, hentry⟩, ?_⟩
  exact (hentry.circle.back hmc).trans hlead

/-! ### Fewer links -/

def Sub (g f : α → Option α) : Prop := ∀ x y, g x = some y → f x = some y

theorem Leads.mono (h : Sub g f) (hlead : Leads g x y) : Leads f x y :=
  ReflTransGen.mono (fun a b hab => h a b hab) x y hlead

theorem OnCircle.mono (h : Sub g f) {x : α} (hx : OnCircle g x) : OnCircle f x :=
  TransGen.mono (fun a b hab => h a b hab) x x hx

theorem OnCircle.leads_of_sub (h : Sub g f) (hx : OnCircle g x) (hlead : Leads f x y) : Leads g x y := by
  induction hlead with
  | refl => exact .refl
  | @tail a b _ hnext ih =>
    obtain ⟨b', hb'⟩ := (hx.of_leads ih).exists_next
    obtain rfl := next_unique (h a b' hb') hnext
    exact ReflTransGen.tail ih hb'

theorem Closes.mono (h : Sub g f) {i c m : α} (hc : Closes g i c m) : Closes f i c m := by
  refine ⟨h c m hc.next, hc.circle.mono h, hc.entry.leads.mono h, hc.entry.circle.mono h, ?_⟩
  rcases hc.entry.first with rfl | ⟨x, hx, hoff, hxm⟩
  · exact .inl rfl
  · refine .inr ⟨x, hx.mono h, fun hon => hoff ?_, h x m hxm⟩
    -- the circle of `f` through `x` passes `m`, so it is the circle of `g`
    have hlead := hon.next_leads (h x m hxm)
    exact TransGen.head' hxm (hc.entry.circle.leads_of_sub h hlead)

/-! ### Walks -/

inductive Path (g : α → Option α) (i : α) : List α → Prop where
  | start : Path g i [i]
  | next {x y : α} {l : List α} (h : Path g i (x :: l)) (hxy : g x = some y) (hnew : y ∉ x :: l) :
      Path g i (y :: x :: l)

variable {l : List α}

theorem Path.nodup {i : α} (h : Path g i l) : l.Nodup := by
  induction h with
  | start => exact List.nodup_singleton i
  | next _ _ hnew ih => exact List.nodup_cons.mpr ⟨hnew, ih⟩

theorem Path.leads {i x : α} (h : Path g i (x :: l)) : Leads g i x := by
  generalize hl : x :: l = points at h
  induction h generalizing x l with
  | start =>
    obtain ⟨rfl, _⟩ := List.cons.inj hl
    exact .refl
  | next _ hxy _ ih =>
    obtain ⟨rfl, rfl⟩ := List.cons.inj hl
    exact ReflTransGen.tail (ih rfl) hxy

theorem Path.tail {i x y : α} (h : Path g i (y :: x :: l)) : Path g i (x :: l) ∧ g x = some y := by
  cases h with
  | next h hxy _ => exact ⟨h, hxy⟩

theorem Path.suffix {i a : α} {newer older : List α} (h : Path g i (newer ++ a :: older)) :
    Path g i (a :: older) := by
  induction newer with
  | nil => exact h
  | cons b newer ih =>
    cases newer with
    | nil => exact h.tail.1
    | cons c newer => exact ih h.tail.1

theorem Path.succ {i a b : α} {newer older : List α} (h : Path g i (newer ++ b :: a :: older)) :
    g a = some b := h.suffix.tail.2

theorem Path.leads_last {i x a : α} {l newer older : List α} (h : Path g i (x :: l))
    (hl : x :: l = newer ++ a :: older) : Leads g a x := by
  induction newer using List.reverseRecOn generalizing a older with
  | nil =>
    obtain ⟨rfl, _⟩ := List.cons.inj hl
    exact .refl
  | append_singleton newer b ih =>
    rw [List.append_assoc, List.singleton_append] at hl
    have hwalk := h
    rw [hl] at hwalk
    exact ReflTransGen.head hwalk.succ (ih hl)

theorem Path.first {i a : α} {newer : List α} (h : Path g i (newer ++ [a])) : i = a := by
  cases h.suffix
  rfl

variable {seen : List α}

theorem Path.closes {i c m : α} (h : Path g i (c :: seen)) (hnext : g c = some m)
    (hmem : m ∈ c :: seen) : Closes g i c m := by
  obtain ⟨newer, older, hsplit⟩ := List.append_of_mem hmem
  have hmc : Leads g m c := h.leads_last hsplit
  have hcircle : OnCircle g m := TransGen.tail' hmc hnext
  have hwalk := h
  rw [hsplit] at hwalk
  refine ⟨hnext, hcircle.of_leads hmc, hwalk.suffix.leads, hcircle, ?_⟩
  cases older with
  | nil => exact .inl hwalk.first
  | cons x older =>
    refine .inr ⟨x, hwalk.suffix.tail.1.leads, fun hon => ?_, hwalk.succ⟩
    -- the points from `m` on are closed under the links, and `x` is not one of them
    have hclosed : ∀ {y}, Leads g m y → y ∈ newer ++ [m] := by
      intro y hy
      induction hy with
      | refl => simp
      | @tail a b _ hab ih =>
        obtain ⟨front, back, hfront⟩ := List.append_of_mem ih
        have hpoints : newer ++ m :: x :: older = front ++ a :: (back ++ x :: older) := by
          rw [← List.singleton_append, ← List.append_assoc, hfront]
          simp
        cases hlast : front.getLast? with
        | none =>
          obtain rfl := List.getLast?_eq_none_iff.mp hlast
          have hhead : c = a := (List.cons.inj (hsplit.trans hpoints)).1
          subst hhead
          obtain rfl := next_unique hab hnext
          simp
        | some d =>
          obtain ⟨front, rfl⟩ := List.getLast?_eq_some_iff.mp hlast
          rw [hpoints, List.append_assoc, List.singleton_append] at hwalk
          obtain rfl := next_unique hab hwalk.succ
          rw [hfront]
          simp
    have hx := hclosed (hon.next_leads hwalk.succ)
    have hnodup := hwalk.nodup
    rw [List.append_cons] at hnodup
    exact List.disjoint_of_nodup_append hnodup hx List.mem_cons_self

/-! ### The search -/

section Search

variable [DecidableEq α]

/-- Follows the links from `cur` until one goes back to a point that was seen; `none` when the
fuel runs out first. -/
def search (g : α → Option α) : ℕ → List α → α → Option (Option (α × α))
  | 0, _, _ => none
  | fuel + 1, seen, cur =>
    match g cur with
    | none => some none
    | some next => if next ∈ cur :: seen then some (some (cur, next)) else search g fuel (cur :: seen) next

theorem search_found {fuel : ℕ} {i cur c m : α} (hpath : Path g i (cur :: seen))
    (h : search g fuel seen cur = some (some (c, m))) : Closes g i c m := by
  induction fuel generalizing seen cur with
  | zero => cases h
  | succ fuel ih =>
    rw [search] at h
    cases hnext : g cur with
    | none =>
      rw [hnext] at h
      cases h
    | some next =>
      rw [hnext] at h
      dsimp only at h
      split at h
      · rename_i hmem
        obtain ⟨rfl, rfl⟩ := Prod.mk.inj (Option.some.inj (Option.some.inj h))
        exact hpath.closes hnext hmem
      · rename_i hnew
        exact ih (hpath.next hnext hnew) h

theorem search_ended {fuel : ℕ} {i cur : α} (hpath : Path g i (cur :: seen))
    (h : search g fuel seen cur = some none) : ∃ last, Leads g i last ∧ g last = none := by
  induction fuel generalizing seen cur with
  | zero => cases h
  | succ fuel ih =>
    rw [search] at h
    cases hnext : g cur with
    | none => exact ⟨cur, hpath.leads, hnext⟩
    | some next =>
      rw [hnext] at h
      dsimp only at h
      split at h
      · cases h
      · rename_i hnew
        exact ih (hpath.next hnext hnew) h

theorem search_isSome {points : Finset α} (hpoints : ∀ x y, g x = some y → x ∈ points) {fuel : ℕ}
    {i cur : α} (hpath : Path g i (cur :: seen)) (hseen : ∀ x ∈ seen, x ∈ points)
    (hfuel : points.card < fuel + seen.length) : (search g fuel seen cur).isSome := by
  induction fuel generalizing seen cur with
  | zero =>
    have hnodup := (List.nodup_cons.mp hpath.nodup).2
    have hcard := Finset.card_le_card fun x (hx : x ∈ seen.toFinset) => hseen x (List.mem_toFinset.mp hx)
    rw [List.toFinset_card_of_nodup hnodup] at hcard
    omega
  | succ fuel ih =>
    rw [search]
    cases hnext : g cur with
    | none => rfl
    | some next =>
      dsimp only
      split
      · rfl
      · rename_i hnew
        refine ih (hpath.next hnext hnew) (fun x hx => ?_) (by rw [List.length_cons]; omega)
        rcases List.mem_cons.mp hx with rfl | hx
        · exact hpoints x next hnext
        · exact hseen x hx

end Search

/-! ### Breaking the circles one start after the other -/

/-- The links that close a circle for the first start, below `i`, that leads to it. -/
def Closed (f : ℕ → Option ℕ) (i c m : ℕ) : Prop :=
  ∃ j < i, (∀ l < j, ¬Leads f l c) ∧ Closes f j c m

/-- After the starts below `i` the links that close a circle are gone, and no others. -/
structure Broken (f : ℕ → Option ℕ) (i : ℕ) (g : ℕ → Option ℕ) : Prop where
  sub : Sub g f
  gone : ∀ c m, f c = some m → (g c = none ↔ Closed f i c m)

section Breaking

variable {f g : ℕ → Option ℕ} {i : ℕ}

theorem Broken.zero : Broken f 0 f where
  sub := fun _ _ h => h
  gone := by
    intro c m h
    rw [h]
    simp [Closed]

theorem Broken.unreached (h : Broken f i g) {c l : ℕ} (hc : OnCircle g c) (hl : l < i) :
    ¬Leads f l c := by
  intro hlead
  classical
  have hex : ∃ l, Leads f l c := ⟨l, hlead⟩
  have hfirst := Nat.find_spec hex
  have hle : Nat.find hex ≤ l := Nat.find_min' hex hlead
  have hcf := hc.mono h.sub
  obtain ⟨c', m, hcloses, hcc'⟩ := exists_closes hfirst hcf
  have hgone : g c' = none := by
    refine (h.gone c' m hcloses.next).mpr ⟨_, by omega, fun j hj hlead' => ?_, hcloses⟩
    exact Nat.find_min hex hj (hlead'.trans (hcf.back hcc'))
  obtain ⟨y, hy⟩ := (hc.of_leads (hc.leads_of_sub h.sub hcc')).exists_next
  rw [hgone] at hy
  cases hy

theorem Closed.succ_iff {c m : ℕ} : Closed f (i + 1) c m ↔
    Closed f i c m ∨ ((∀ l < i, ¬Leads f l c) ∧ Closes f i c m) := by
  constructor
  · rintro ⟨j, hj, hfirst, hcloses⟩
    rcases Nat.lt_succ_iff_lt_or_eq.mp hj with hlt | rfl
    · exact .inl ⟨j, hlt, hfirst, hcloses⟩
    · exact .inr ⟨hfirst, hcloses⟩
  · rintro (⟨j, hj, hrest⟩ | hrest)
    · exact ⟨j, Nat.lt_succ_of_lt hj, hrest⟩
    · exact ⟨i, Nat.lt_succ_self i, hrest⟩

theorem Broken.found (h : Broken f i g) {c m : ℕ} (hcloses : Closes g i c m) :
    ∀ c' m', Closed f (i + 1) c' m' ↔ Closed f i c' m' ∨ (c' = c ∧ m' = m) := by
  intro c' m'
  rw [Closed.succ_iff]
  refine or_congr_right ⟨fun hlast => hlast.2.unique (hcloses.mono h.sub), ?_⟩
  rintro ⟨rfl, rfl⟩
  exact ⟨fun l hl => h.unreached hcloses.circle hl, hcloses.mono h.sub⟩

theorem Broken.ended (h : Broken f i g) {last : ℕ} (hlead : Leads g i last) (hlast : g last = none) :
    ∀ c m, Closed f (i + 1) c m ↔ Closed f i c m := by
  intro c m
  rw [Closed.succ_iff]
  refine or_iff_left ?_
  rintro ⟨hfirst, hcloses⟩
  -- the walk leads to the circle, so it goes on in `f` from the last point
  have hon : ∃ y, f last = some y := by
    rcases (hlead.mono h.sub).total hcloses.leads with hto | hfrom
    · rcases ReflTransGen.cases_head hto with rfl | ⟨y, hy, _⟩
      · exact ⟨m, hcloses.next⟩
      · exact ⟨y, hy⟩
    · exact (hcloses.circle.of_leads hfrom).exists_next
  obtain ⟨y, hy⟩ := hon
  -- its link can only be gone for an earlier start, which then leads to the same circle
  obtain ⟨j, hj, _, hother⟩ := (h.gone last y hy).mp hlast
  refine hfirst j hj (hother.leads.trans ?_)
  rcases (hlead.mono h.sub).total hcloses.leads with hto | hfrom
  · exact hto
  · exact hcloses.circle.back hfrom

theorem Broken.next_of_found (h : Broken f i g) {c m : ℕ} (hcloses : Closes g i c m) :
    Broken f (i + 1) (Function.update g c none) where
  sub := by
    intro x y hxy
    by_cases hx : x = c
    · rw [hx, Function.update_self] at hxy
      cases hxy
    · rw [Function.update_of_ne hx] at hxy
      exact h.sub x y hxy
  gone := by
    intro c' m' hf
    rw [h.found hcloses]
    by_cases hc : c' = c
    · subst hc
      rw [Function.update_self]
      have hm : m' = m := next_unique hf (h.sub _ _ hcloses.next)
      simp [hm]
    · rw [Function.update_of_ne hc, h.gone c' m' hf]
      simp [hc]

theorem Broken.next_of_ended (h : Broken f i g) {last : ℕ} (hlead : Leads g i last)
    (hlast : g last = none) : Broken f (i + 1) g where
  sub := h.sub
  gone := by
    intro c m hf
    rw [h.ended hlead hlast, h.gone c m hf]

end Breaking

/-! ### Relations without circles -/

theorem exists_rank_of_acyclic {r : ℕ → ℕ → Prop} {bound : ℕ} (hbound : ∀ a b, r a b → a ≤ bound)
    (h : ∀ a, ¬TransGen r a a) : ∃ rank : ℕ → ℕ, ∀ a b, r a b → rank a < rank b := by
  classical
  refine ⟨fun b => ((Finset.range (bound + 1)).filter fun a => TransGen r a b).card, fun a b hab => ?_⟩
  refine Finset.card_lt_card (Finset.ssubset_iff_of_subset ?_ |>.mpr ⟨a, ?_, ?_⟩)
  · intro x hx
    obtain ⟨hrange, hlead⟩ := Finset.mem_filter.mp hx
    exact Finset.mem_filter.mpr ⟨hrange, hlead.tail hab⟩
  · have hle := hbound a b hab
    exact Finset.mem_filter.mpr ⟨Finset.mem_range.mpr (by omega), .single hab⟩
  · exact fun hmem => h a (Finset.mem_filter.mp hmem).2

theorem wellFounded_of_acyclic {r : ℕ → ℕ → Prop} {bound : ℕ} (hbound : ∀ a b, r a b → a ≤ bound)
    (h : ∀ a, ¬TransGen r a a) : WellFounded r := by
  obtain ⟨rank, hrank⟩ := exists_rank_of_acyclic hbound h
  exact Subrelation.wf (fun {a b} => hrank a b) (measure rank).wf

theorem exists_forall_ge {P : ℕ → α → Prop} {as : List α} (h : ∀ a ∈ as, ∃ n, ∀ m ≥ n, P m a) :
    ∃ n, ∀ m ≥ n, ∀ a ∈ as, P m a := by
  induction as with
  | nil => exact ⟨0, fun _ _ a ha => absurd ha List.not_mem_nil⟩
  | cons a as ih =>
    obtain ⟨k, hk⟩ := h a List.mem_cons_self
    obtain ⟨n, hn⟩ := ih fun b hb => h b (List.mem_cons_of_mem a hb)
    exact ⟨max k n, fun m hm => List.forall_mem_cons.mpr ⟨hk m (by omega), hn m (by omega)⟩⟩

end HysteriaCore.Lib.Circles
