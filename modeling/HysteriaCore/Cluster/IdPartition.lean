import HysteriaCore.Cluster.IdReuse
import Mathlib.Data.Nat.ModEq

/-!
# Different nodes never share an id

Node `n` starts at `highest + n - 1` and counts in strides of `GetNodeCount()`, so all
its numbers, wherever they are stored or in flight, lie in one residue class modulo the
node count. The largest node id is the node count, and the classes of different nodes
are different.
-/

namespace HysteriaCore.Cluster
open Lib

def InClass (highest count n g : ℕ) : Prop := g ≡ highest + n - 1 [MOD count]

theorem InClass.ne {highest count n m g g' : ℕ} (hg : InClass highest count n g)
    (hg' : InClass highest count m g') (hn : 1 ≤ n) (hnc : n ≤ count) (hm : 1 ≤ m)
    (hmc : m ≤ count) (hne : n ≠ m) : g ≠ g' := by
  rintro rfl
  have hmod : highest + (n - 1) ≡ highest + (m - 1) [MOD count] := by
    have h := hg.symm.trans hg'
    rwa [Nat.add_sub_assoc hn, Nat.add_sub_assoc hm] at h
  have hcancel := Nat.ModEq.add_left_cancel' highest hmod
  have heq := Nat.ModEq.eq_of_lt_of_lt hcancel (by omega) (by omega)
  omega

theorem InClass.add_stride {highest count n g : ℕ} (h : InClass highest count n g) :
    InClass highest count n (g + count) := by
  have hc : g + count ≡ g + 0 [MOD count] := Nat.ModEq.add_left g (by simp [Nat.ModEq])
  exact hc.trans h

theorem offered_inClass {highest count n last : ℕ} (hn : 1 ≤ n) (hb : highest + n - 1 < 2^32)
    (h : last ≠ 0 → InClass highest count n last) :
    InClass highest count n (offered highest last n) := by
  unfold offered
  split_ifs with hlast
  · exact h hlast
  · have hfirst : firstGUID highest n = highest + n - 1 := by
      unfold firstGUID u32
      omega
    rw [hfirst]
    exact Nat.ModEq.refl _

/-- Every number of one kind in the view of node `n` lies in its class. -/
structure ClassInv (highest count n : ℕ) (k : EntityIDType) (v : View) : Prop where
  listed : v.link ≠ none ∨ v.node.initialised = true ∨ v.node.handed k ≠ [] → v.listed = true
  last : v.last k ≠ 0 → InClass highest count n (v.last k)
  init : ∀ l ∈ v.link, ∀ m ∈ l.toNode, m.hiRange = count ∧ InClass highest count n (m.guid k)
  sync : ∀ l ∈ v.link, ∀ g, .nodeSyncData k g ∈ l.toProxy → InClass highest count n g
  counter : v.node.initialised = true →
    v.node.mgr.hiRange = count ∧ InClass highest count n (v.node.mgr.counter k)
  handed : ∀ g ∈ v.node.handed k, InClass highest count n g

theorem handleLogonInitNode_installs (o : ObjectMgr) (m : InitNode) (k : EntityIDType) :
    (handleLogonInitNode o m).2.hiRange = m.hiRange ∧
      ((handleLogonInitNode o m).2.counter k = m.guid k ∨
        (handleLogonInitNode o m).1 ≠ .ok ∧
          (handleLogonInitNode o m).2.counter k = o.counter k) := by
  unfold handleLogonInitNode
  split_ifs <;> cases k <;> simp [ObjectMgr.counter, InitNode.guid]

section Step
variable {highest : EntityIDType → ℕ} {count n : ℕ} {k : EntityIDType} {v w : View} {e : Event}

/-- An id is generated on an initialised node only, and no counter passes `2^32`. -/
def View.Counting (v : View) : Event → Prop
  | .generate _ k => v.node.initialised = true ∧
      v.node.mgr.counter k + v.node.mgr.hiRange < 2^32
  | _ => True

theorem ClassInv.step (hids : v.listed = true → 1 ≤ n ∧ highest k + n - 1 < 2^32)
    (h : ClassInv (highest k) count n k v) (hok : v.Counting e)
    (hs : ViewStep highest count n v e w) : ClassInv (highest k) count n k w := by
  cases hs with
  | connect hd hl => exact ⟨fun _ => hd, h.last, by simp, by simp, h.counter, h.handed⟩
  | lose hl =>
    have hd := h.listed (.inl (by simp [hl]))
    exact ⟨fun _ => hd, h.last, by simp, by simp, h.counter, h.handed⟩
  | restart mgr =>
    refine ⟨fun hor => h.listed (.inr (.inr ?_)), h.last, by simp, by simp, by simp, h.handed⟩
    simpa using hor
  | authResponse hd hl hrange hguid =>
    have hoff := offered_inClass (hids hd).1 (hids hd).2 h.last
    refine ⟨fun _ => hd, fun _ => hoff, ?_, ?_, h.counter, h.handed⟩
    · intro l hl' m hm
      obtain rfl := Option.some.inj hl'
      rcases List.mem_append.mp hm with hm | hm
      · exact h.init _ hl m hm
      · rw [List.mem_singleton.mp hm, hguid]
        exact ⟨hrange, hoff⟩
    · intro l hl' g hg
      obtain rfl := Option.some.inj hl'
      exact h.sync _ hl g (List.mem_cons_of_mem _ hg)
  | nodeInitAck hl =>
    have hd := h.listed (.inl (by simp [hl]))
    refine ⟨fun _ => hd, h.last, ?_, ?_, h.counter, h.handed⟩
    · intro l hl' m hm
      obtain rfl := Option.some.inj hl'
      exact h.init _ hl m hm
    · intro l hl' g hg
      obtain rfl := Option.some.inj hl'
      exact h.sync _ hl g (List.mem_cons_of_mem _ hg)
  | @nodeSyncData toNode rest k' guid hd hl =>
    refine ⟨fun _ => hd, fun hlast => ?_, ?_, ?_, h.counter, h.handed⟩
    · by_cases hk : k = k'
      · subst hk
        simp only [Function.update_self]
        exact h.sync _ hl guid (List.mem_cons_self ..)
      · simp only [Function.update_of_ne hk] at hlast ⊢
        exact h.last hlast
    · intro l hl' m hm
      obtain rfl := Option.some.inj hl'
      exact h.init _ hl m hm
    · intro l hl' g hg
      obtain rfl := Option.some.inj hl'
      exact h.sync _ hl g (List.mem_cons_of_mem _ hg)
  | @nodeReceive init rest toProxy hl =>
    have hd := h.listed (.inl (by simp [hl]))
    obtain ⟨hrange, hguid⟩ := h.init _ hl init (List.mem_cons_self ..)
    obtain ⟨hr, hc⟩ := handleLogonInitNode_installs v.node.mgr init k
    refine ⟨fun _ => hd, h.last, ?_, ?_, fun hi => ⟨hr.trans hrange, ?_⟩, h.handed⟩
    · intro l hl' m hm
      obtain rfl := Option.some.inj hl'
      exact h.init _ hl m (List.mem_cons_of_mem _ hm)
    · intro l hl' g hg
      obtain rfl := Option.some.inj hl'
      rcases List.mem_append.mp hg with hg | hg
      · exact h.sync _ hl g hg
      · simp at hg
    · rcases hc with hc | ⟨hack, hc⟩
      · rw [hc]
        exact hguid
      · rw [hc]
        -- a refusal does not initialise the node, so it was initialised before
        have hi' : v.node.initialised = true := by simpa [hack] using hi
        exact (h.counter hi').2
  | @generate k' guid mgr hg =>
    obtain ⟨hi, hlt⟩ := hok
    have hd := h.listed (.inr (.inl hi))
    obtain ⟨hrange, hclass⟩ := h.counter hi
    obtain ⟨hguid, hr, hc⟩ := ObjectMgr.generate_eq hg hlt
    have hnew : k = k' → InClass (highest k) count n guid := by
      rintro rfl
      rw [hguid, hrange]
      exact hclass.add_stride
    refine ⟨fun _ => hd, h.last, ?_, ?_, fun _ => ⟨hr.trans hrange, ?_⟩, ?_⟩
    · intro l hl m hm
      obtain ⟨l', hl', rfl⟩ := Option.map_eq_some_iff.mp hl
      exact h.init l' hl' m hm
    · intro l hl g hg'
      obtain ⟨l', hl', rfl⟩ := Option.map_eq_some_iff.mp hl
      rcases List.mem_append.mp hg' with hg' | hg'
      · exact h.sync l' hl' g hg'
      · obtain ⟨rfl, rfl⟩ : k = k' ∧ g = guid := by simpa using hg'
        exact hnew rfl
    · rw [hc]
      split_ifs with hk
      · exact hnew hk
      · exact hclass
    · intro g hg'
      by_cases hk : k = k'
      · subst hk
        simp only [Function.update_self, List.mem_cons] at hg'
        rcases hg' with rfl | hg'
        · exact hnew rfl
        · exact h.handed g hg'
      · simp only [Function.update_of_ne hk] at hg'
        exact h.handed g hg'

end Step

def IdsCounting (s : State) (e : Event) : Prop := (view s e.target).Counting e

instance : ∀ (s : State) (e : Event), Decidable (IdsCounting s e)
  | s, .generate n k => inferInstanceAs (Decidable ((view s n).node.initialised = true ∧
      (view s n).node.mgr.counter k + (view s n).node.mgr.hiRange < 2^32))
  | _, .connect _ => .isTrue trivial
  | _, .lose _ => .isTrue trivial
  | _, .restart _ _ => .isTrue trivial
  | _, .proxyReceive _ => .isTrue trivial
  | _, .nodeReceive _ => .isTrue trivial

def LoadedInRange (s : State) : Prop :=
  Loaded s ∧ ∀ row ∈ s.proxy.nodelist, ∀ k, k ≠ .corpse → s.proxy.highest k + row.1 - 1 < 2^32

structure PartitionInv (s : State) : Prop where
  ids : ∀ n, (view s n).listed = true → 1 ≤ n ∧ n ≤ s.proxy.nodelist.getNodeCount ∧
    ∀ k, k ≠ .corpse → s.proxy.highest k + n - 1 < 2^32
  view : ∀ n k, k ≠ .corpse →
    ClassInv (s.proxy.highest k) s.proxy.nodelist.getNodeCount n k (view s n)

theorem LoadedInRange.partitionInv {s : State} (h : LoadedInRange s) : PartitionInv s := by
  obtain ⟨hl, hr⟩ := h
  have hrow : ∀ n, (view s n).listed = true → ∃ row ∈ s.proxy.nodelist,
      row.1 = n ∧ s.proxy.nodelist.getNodeConnectionData n = some row.2 := by
    intro n hd
    obtain ⟨d, hsome⟩ := Option.isSome_iff_exists.mp hd
    obtain ⟨row, hfind, rfl⟩ := Option.map_eq_some_iff.mp hsome
    obtain ⟨hmem, hkey⟩ := (KeyedList.find?_eq_some_iff _ n row).mp hfind
    exact ⟨row, hmem, hkey, hsome⟩
  refine ⟨fun n hd => ?_, fun n k hk => ?_⟩
  · obtain ⟨row, hmem, rfl, hsome⟩ := hrow n hd
    exact ⟨hl.nodeId_pos row hmem, NodeListList.le_getNodeCount _ hsome, hr row hmem⟩
  · have hlink : (view s n).link = none := hl.down n
    have hinit : (view s n).node.initialised = false := (hl.fresh n).1
    have hhanded : (view s n).node.handed k = [] := hl.none_handed n k
    have hlast : (view s n).last k = 0 := by
      by_cases hd : (view s n).listed = true
      · obtain ⟨row, hmem, rfl, hsome⟩ := hrow n hd
        have h1 := hl.lastItem row hmem
        have h2 := hl.lastMail row hmem
        simp only [view, hsome, lastOf_some]
        cases k with
        | item => exact h1
        | mail => exact h2
        | corpse => exact absurd rfl hk
      · have hnone : s.proxy.nodelist.getNodeConnectionData n = none := by
          simpa [view] using hd
        simp [view, hnone, lastOf]
    exact ⟨by simp [hlink, hinit, hhanded], by simp [hlast], by simp [hlink], by simp [hlink],
      by simp [hinit], by simp [hhanded]⟩

theorem PartitionInv.step {s t : State} {e : Event} (h : PartitionInv s) (hok : IdsCounting s e)
    (hs : step s e = some t) : PartitionInv t := by
  have hf := step_facts hs
  refine ⟨fun n hn => ?_, fun n k hk => ?_⟩
  · rw [hf.count, hf.highest]
    exact h.ids n (by rw [← hf.listed n]; exact hn)
  · rw [hf.count, hf.highest]
    by_cases hn : n = e.target
    · subst hn
      have hids := h.ids e.target
      exact (h.view e.target k hk).step
        (fun hd => ⟨(hids hd).1, (hids hd).2.2 k hk⟩) hok hf.target
    · rw [hf.others n hn]
      exact h.view n k hk

/-- Item and mail ids of different nodes are different, each in the class of its node. -/
theorem ids_partitioned {s : State} (h : Reaches step IdsCounting LoadedInRange s)
    (k : EntityIDType) (hk : k ≠ .corpse) :
    (∀ n m, n ≠ m → ∀ g ∈ (s.node n).handed k, g ∉ (s.node m).handed k) ∧
      ∀ n, ∀ g ∈ (s.node n).handed k,
        InClass (s.proxy.highest k) s.proxy.nodelist.getNodeCount n g := by
  have hinv : PartitionInv s :=
    h.invariant (fun _ => LoadedInRange.partitionInv) fun _ _ _ hi => hi.step
  refine ⟨fun n m hne g hg hg' => ?_, fun n g hg => (hinv.view n k hk).handed g hg⟩
  have hn := hinv.view n k hk
  have hm := hinv.view m k hk
  obtain ⟨hn1, hnc, -⟩ := hinv.ids n (hn.listed (.inr (.inr (List.ne_nil_of_mem hg))))
  obtain ⟨hm1, hmc, -⟩ := hinv.ids m (hm.listed (.inr (.inr (List.ne_nil_of_mem hg'))))
  exact (hn.handed g hg).ne (hm.handed g hg') hn1 hnc hm1 hmc hne rfl

def twoNodes : State where
  proxy := ⟨⟨[(3, ⟨true, false, 0, 0, 9⟩), (1, ⟨true, false, 0, 0, 9⟩)], by decide⟩, 1000, 500, 40⟩
  node := fun _ => ⟨⟨1, 7, 7, 7, false⟩, false, false, fun _ => []⟩
  link := fun _ => none

theorem twoNodes_loaded : LoadedInRange twoNodes := by
  refine ⟨⟨?_, ?_, ?_, fun _ => rfl, fun _ => ⟨rfl, rfl⟩, fun _ _ => rfl⟩, ?_⟩
  · simp [twoNodes, KeyedList.mem_rows]
  · simp [twoNodes, KeyedList.mem_rows]
  · simp [twoNodes, KeyedList.mem_rows]
  · intro row hrow k hk
    have hrow' : row = (3, ⟨true, false, 0, 0, 9⟩) ∨ row = (1, ⟨true, false, 0, 0, 9⟩) := by
      simpa [twoNodes, KeyedList.mem_rows] using hrow
    rcases hrow' with rfl | rfl <;> cases k <;> simp [twoNodes, Proxy.highest]

theorem ids_partitioned_twoNodes :
    ∃ s, Reaches step IdsCounting LoadedInRange s ∧ (s.node 3).handed .item = [1005, 1005] ∧
      (s.node 1).handed .item = [1003] ∧
      (∀ n m, n ≠ m → ∀ g ∈ (s.node n).handed .item, g ∉ (s.node m).handed .item) := by
  obtain ⟨s, hs, h⟩ := Reaches.exists_of_replay step IdsCounting twoNodes_loaded
    (login 3 ++ [.generate 3 .item, .lose 3] ++ login 1 ++ [.generate 1 .item] ++ login 3 ++
      [.generate 3 .item])
    (by decide)
    (fun s => decide ((s.node 3).handed .item = [1005, 1005] ∧ (s.node 1).handed .item = [1003]))
    (by decide)
  obtain ⟨h3, h1⟩ := of_decide_eq_true h
  exact ⟨s, hs, h3, h1, (ids_partitioned hs .item (by decide)).1⟩

end HysteriaCore.Cluster
