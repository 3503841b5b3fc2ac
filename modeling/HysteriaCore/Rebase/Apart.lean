import HysteriaCore.Cluster.IdReuse
import HysteriaCore.Rebase.Timers

/-!
# The rebase and the nodes

`Begin` looks at nothing but the clock. It runs beside no node when every node has gone
between the shutdown order and the first reading beyond `m_NextRebaseTimePlus`, and none is
brought back online meanwhile.
-/

namespace HysteriaCore.Rebase
open Lib Cluster

/-- Each call of `Begin` follows a shutdown order of its own, given at least 180 seconds
before, and no two orders follow each other (newest first). -/
inductive Alternating : List Entry → Prop
  | nil : Alternating []
  | shutdown {log : List Entry} {now : ℤ} (h : Alternating log)
      (hlast : ∀ t, log.head? ≠ some (.shutdown t)) : Alternating (.shutdown now :: log)
  | begin {log : List Entry} {t now : ℤ} (h : Alternating (.shutdown t :: log))
      (hwait : t + 180 ≤ now) : Alternating (.begin now :: .shutdown t :: log)

def State.nodes (s : State) : List ℕ := s.cluster.proxy.nodelist.rows.map Prod.fst

def State.pending (s : State) : Option ℤ :=
  match s.log with
  | .shutdown t :: _ => some t
  | _ => none

/-- One call of `UpdateTimers` does not pass both deadlines; with an order waiting the next
rebase is not due, and no node that is offline gets its column back; and when the waiting is
over, it has lasted 180 seconds and every node has gone. -/
structure InTime (s : State) (now : ℤ) : Prop where
  column : s.pending ≠ none → ∀ n ∈ s.nodes,
    s.cluster.proxy.nodelist.checkNodeID n = false → s.column n = false
  order : s.returns now = false → s.times.next < now → s.pending = none ∧ now ≤ s.times.nextPlus
  wait : s.returns now = false → s.times.nextPlus < now → ∀ t ∈ s.pending,
    t + 180 ≤ now ∧ ∀ n ∈ s.nodes, s.ended n = true

instance (s : State) (now : ℤ) : Decidable (InTime s now) :=
  decidable_of_iff
    ((s.pending ≠ none → ∀ n ∈ s.nodes,
        s.cluster.proxy.nodelist.checkNodeID n = false → s.column n = false) ∧
      (s.returns now = false → s.times.next < now → s.pending = none ∧ now ≤ s.times.nextPlus) ∧
      (s.returns now = false → s.times.nextPlus < now → ∀ t ∈ s.pending,
        t + 180 ≤ now ∧ ∀ n ∈ s.nodes, s.ended n = true))
    ⟨fun h => ⟨h.1, h.2.1, h.2.2⟩, fun h => ⟨h.column, h.order, h.wait⟩⟩

def KeepsApart (s : State) : Event → Prop
  | .recheck now => InTime s now
  | _ => True

instance (s : State) (e : Event) : Decidable (KeepsApart s e) := by
  unfold KeepsApart
  split <;> infer_instance

/-! ### Nodes that are absent stay absent -/

section Absent
variable {s t : Cluster.State} {e : Cluster.Event} {n : ℕ}

theorem absent_iff : absent s n = true ↔ s.proxy.nodelist.checkNodeID n = false ∧
    s.proxy.nodelist.canEnterNodeID n = false ∧ s.link n = none ∧
    (s.node n).initialised = false := by
  simp [absent, and_assoc]

theorem modify_row_ne (l : NodeListList) {m : ℕ} (f : NodeList → NodeList) (h : n ≠ m) :
    (l.modify m f).getNodeConnectionData n = l.getNodeConnectionData n := by
  rw [NodeListList.getNodeConnectionData_modify]
  simp [h]

theorem offerGUID_row_ne (p : Proxy) {m : ℕ} (d : NodeList) (k : EntityIDType) (h : n ≠ m) :
    (offerGUID p m d k).2.nodelist.getNodeConnectionData n =
      p.nodelist.getNodeConnectionData n := by
  unfold offerGUID
  split_ifs
  · rfl
  · exact modify_row_ne _ _ h

theorem sendInitAuthedNode_row_ne (p : Proxy) {m : ℕ} (d : NodeList) (h : n ≠ m) :
    (sendInitAuthedNode p m d).2.nodelist.getNodeConnectionData n =
      p.nodelist.getNodeConnectionData n := by
  simp only [sendInitAuthedNode, offerGUID_row_ne _ _ _ h]

theorem step_row_ne (hs : Cluster.step s e = some t) (h : n ≠ e.target) :
    t.proxy.nodelist.getNodeConnectionData n = s.proxy.nodelist.getNodeConnectionData n := by
  cases e with
  | connect m =>
    simp only [Cluster.step, connect] at hs
    split at hs
    · rw [← Option.some.inj hs]
      rfl
    · cases hs
  | lose m =>
    simp only [Cluster.step, lose] at hs
    split at hs
    · rw [← Option.some.inj hs]
      exact modify_row_ne _ _ h
    · cases hs
  | restart m mgr =>
    rw [← Option.some.inj hs]
    exact modify_row_ne _ _ h
  | proxyReceive m =>
    simp only [Cluster.step, proxyReceive] at hs
    split at hs
    · rw [← Option.some.inj hs]
      exact sendInitAuthedNode_row_ne _ _ h
    · rw [← Option.some.inj hs]
      exact modify_row_ne _ _ h
    · rw [← Option.some.inj hs]
      rfl
    · rw [← Option.some.inj hs]
      exact modify_row_ne _ _ h
    · cases hs
  | nodeReceive m =>
    simp only [Cluster.step, nodeReceive] at hs
    split at hs
    · rw [← Option.some.inj hs]
      rfl
    · cases hs
  | generate m k =>
    obtain ⟨p, -, rfl⟩ := Option.map_eq_some_iff.mp hs
    rfl

theorem absent_of_row (h : absent s n = true)
    (hrow : t.proxy.nodelist.getNodeConnectionData n = s.proxy.nodelist.getNodeConnectionData n)
    (hlink : t.link n = none) (hinit : (t.node n).initialised = false) : absent t n = true := by
  obtain ⟨hon, henter, -, -⟩ := absent_iff.mp h
  refine absent_iff.mpr ⟨?_, ?_, hlink, hinit⟩
  · simpa only [NodeListList.checkNodeID, hrow] using hon
  · simpa only [NodeListList.canEnterNodeID, hrow] using henter

theorem absent_restart (s : Cluster.State) (n : ℕ) (mgr : ObjectMgr) :
    absent (restart s n mgr) n = true := by
  have hrow : (restart s n mgr).proxy.nodelist.getNodeConnectionData n =
      (s.proxy.nodelist.getNodeConnectionData n).map fun d =>
        { d with online := false, canEnter := false } := by
    change (s.proxy.nodelist.setNodeOffline n).getNodeConnectionData n = _
    rw [NodeListList.setNodeOffline, NodeListList.getNodeConnectionData_modify]
    simp
  refine absent_iff.mpr ⟨?_, ?_, ?_, ?_⟩
  · simp only [NodeListList.checkNodeID, hrow]
    cases s.proxy.nodelist.getNodeConnectionData n <;> rfl
  · simp only [NodeListList.canEnterNodeID, hrow]
    cases s.proxy.nodelist.getNodeConnectionData n <;> rfl
  · simp [restart, State.setLink, State.setNode, State.setNodelist]
  · simp [restart, State.setLink, State.setNode, State.setNodelist]

theorem absent_step (h : absent s n = true) (hs : Cluster.step s e = some t)
    (hne : e ≠ .connect n) : absent t n = true := by
  have hfacts := step_facts hs
  obtain ⟨-, -, hlink, hinit⟩ := absent_iff.mp h
  by_cases hn : n = e.target
  · subst hn
    have htarget := hfacts.target
    cases e with
    | connect m => exact absurd rfl hne
    | lose m =>
      simp only [Cluster.step, lose, Cluster.Event.target] at hs hlink
      rw [hlink] at hs
      cases hs
    | restart m mgr =>
      rw [← Option.some.inj hs]
      exact absent_restart s m mgr
    | proxyReceive m =>
      simp only [Cluster.step, proxyReceive, Cluster.Event.target] at hs hlink
      rw [hlink] at hs
      cases hs
    | nodeReceive m =>
      simp only [Cluster.step, nodeReceive, Cluster.Event.target] at hs hlink
      rw [hlink] at hs
      cases hs
    | generate m k =>
      obtain ⟨p, -, rfl⟩ := Option.map_eq_some_iff.mp hs
      refine absent_of_row h rfl ?_ ?_
      · simp only [Cluster.Event.target] at hlink ⊢
        simp [State.setLink, State.setNode, hlink, sendGUIDSync]
      · simp only [Cluster.Event.target] at hinit ⊢
        simp [State.setLink, State.setNode, hinit]
  · have hview := hfacts.others n hn
    have hlink' : t.link n = none := (congrArg View.link hview).trans hlink
    have hnode : t.node n = s.node n := congrArg View.node hview
    exact absent_of_row h (step_row_ne hs hn) hlink' (by rw [hnode, hinit])

theorem absent_refresh {s : State} (h : absent s.cluster n = true)
    (hcol : n ∈ s.nodes → s.column n = false) : absent s.refreshOnlineStat.cluster n = true := by
  obtain ⟨hon, henter, hlink, hinit⟩ := absent_iff.mp h
  have hrow : s.refreshOnlineStat.cluster.proxy.nodelist.getNodeConnectionData n =
      s.cluster.proxy.nodelist.getNodeConnectionData n := by
    change ((s.cluster.proxy.nodelist.refreshOnlineStat s.column).find? n).map Prod.snd = _
    rw [NodeListList.refreshOnlineStat, KeyedList.find?_mapRows, NodeListList.getNodeConnectionData]
    cases hfind : KeyedList.find? s.cluster.proxy.nodelist n with
    | none => rfl
    | some row =>
      obtain ⟨hmem, hkey⟩ := (KeyedList.find?_eq_some_iff _ n row).mp hfind
      have hoff : row.2.online = false := by
        simpa [NodeListList.checkNodeID, NodeListList.getNodeConnectionData, hfind] using hon
      have hno : s.column row.1 = false := by
        rw [hkey]
        exact hcol (hkey ▸ List.mem_map_of_mem hmem)
      simp only [Option.map_some, hoff, hno, Bool.or_self]
      rw [← hoff]
  exact absent_of_row h hrow hlink hinit

end Absent

/-! ### The invariant -/

structure ApartInv (s : State) : Prop where
  log : Alternating s.log
  idle : s.pending = none → s.times.nextPlus = s.times.next + 180
  waiting : s.pending ≠ none ∨ s.rebasing = true →
    ∀ n, s.ended n = true → absent s.cluster n = true
  rebasing : s.rebasing = true → s.pending = none ∧ ∀ n ∈ s.nodes, s.ended n = true

section Step
variable {c : Config} {s t : State}

theorem mem_nodes {n : ℕ} :
    n ∈ s.nodes ↔ (s.cluster.proxy.nodelist.getNodeConnectionData n).isSome = true := by
  constructor
  · intro h
    obtain ⟨row, hrow, rfl⟩ := List.mem_map.mp h
    have hfind := (KeyedList.find?_eq_some_iff _ row.1 row).mpr ⟨hrow, rfl⟩
    simp [NodeListList.getNodeConnectionData, hfind]
  · intro h
    obtain ⟨d, hd⟩ := Option.isSome_iff_exists.mp h
    obtain ⟨row, hfind, -⟩ := Option.map_eq_some_iff.mp hd
    obtain ⟨hmem, hkey⟩ := (KeyedList.find?_eq_some_iff _ n row).mp hfind
    exact hkey ▸ List.mem_map_of_mem hmem

theorem pending_eq_none_iff : s.pending = none ↔ ∀ now, s.log.head? ≠ some (.shutdown now) := by
  unfold State.pending
  cases s.log with
  | nil => simp
  | cons entry log => cases entry <;> simp

@[simp] theorem nodes_refreshOnlineStat : s.refreshOnlineStat.nodes = s.nodes := by
  simp [State.nodes, State.refreshOnlineStat, State.setNodelist, NodeListList.refreshOnlineStat,
    KeyedList.mapRows]

theorem ApartInv.cluster (h : ApartInv s) {e : Cluster.Event} (he : s.enabled e = true)
    {cluster : Cluster.State} (hs : Cluster.step s.cluster e = some cluster) :
    ApartInv { s with cluster := cluster, ended := markEnded s.ended e } := by
  have hfacts := step_facts hs
  refine ⟨h.log, h.idle, fun hwait n hended => ?_, fun hreb => ⟨(h.rebasing hreb).1, fun n hn => ?_⟩⟩
  · by_cases hold : s.ended n = true
    · have habsent := h.waiting hwait n hold
      refine absent_step habsent hs ?_
      rintro rfl
      have honline : s.cluster.proxy.nodelist.checkNodeID n = true := by
        simp only [State.enabled, Bool.and_eq_true] at he
        exact he.2
      rw [(absent_iff.mp habsent).1] at honline
      cases honline
    · cases e with
      | restart m mgr =>
        simp only [markEnded, Function.update_apply] at hended
        split_ifs at hended with hnm
        · rw [← Option.some.inj hs, hnm]
          exact absent_restart s.cluster m mgr
        · exact absurd hended hold
      | _ => exact absurd hended hold
  · have hlisted : n ∈ s.nodes := by
      rw [mem_nodes] at hn ⊢
      exact (hfacts.listed n).symm.trans hn
    have hended := (h.rebasing hreb).2 n hlisted
    cases e with
    | restart m mgr =>
      simp only [markEnded, Function.update_apply, hended, ite_self]
    | _ => exact hended

theorem ApartInv.recheck (h : ApartInv s) {now : ℤ} (hok : InTime s now)
    (hreb : s.rebasing = false) :
    ApartInv { updateTimers c s.refreshOnlineStat now with clock := now } := by
  have hwaiting : s.pending ≠ none → ∀ n, s.ended n = true →
      absent s.refreshOnlineStat.cluster n = true := by
    intro hp n hended
    have habsent := h.waiting (.inl hp) n hended
    exact absent_refresh habsent fun hn => hok.column hp n hn (absent_iff.mp habsent).1
  have hnone : ¬s.rebasing = true := by simp [hreb]
  unfold updateTimers
  have hret : s.refreshOnlineStat.returns now = s.returns now := rfl
  have hnext : s.refreshOnlineStat.times = s.times := rfl
  rw [hret]
  by_cases hreturns : s.returns now = true
  · simp only [if_pos hreturns]
    exact ⟨h.log, h.idle, fun hw => hwaiting (hw.resolve_right hnone), fun hr => absurd hr hnone⟩
  · have hgo : s.returns now = false := by simpa using hreturns
    simp only [if_neg hreturns, hnext]
    by_cases horder : s.times.next < now
    · -- the order is given, and `Begin` is not due in the same call
      obtain ⟨hp, hplus⟩ := hok.order hgo horder
      simp only [if_pos horder, if_neg (not_lt.mpr hplus)]
      refine ⟨.shutdown h.log (pending_eq_none_iff.mp hp), ?_, fun _ n hn => hn,
        fun hr => absurd hr hnone⟩
      intro hp'
      cases hp'
    · simp only [if_neg horder]
      by_cases hplus : s.times.nextPlus < now
      · simp only [if_pos hplus]
        have hp : s.pending ≠ none := by
          intro hp
          have := h.idle hp
          omega
        obtain ⟨t, ht⟩ := Option.ne_none_iff_exists'.mp hp
        obtain ⟨hspace, hgone⟩ := hok.wait hgo hplus t ht
        obtain ⟨rest, hlog⟩ : ∃ rest, s.log = .shutdown t :: rest := by
          unfold State.pending at ht
          split at ht
          · rename_i t' rest hlog
            exact ⟨rest, by rw [hlog, Option.some.inj ht]⟩
          · cases ht
        have halt := h.log
        rw [hlog] at halt
        refine ⟨?_, fun _ => rfl, fun _ => hwaiting hp, fun _ => ⟨rfl, fun n hn => ?_⟩⟩
        · change Alternating (.begin now :: s.log)
          rw [hlog]
          exact .begin halt hspace
        · exact hgone n (nodes_refreshOnlineStat ▸ hn)
      · simp only [if_neg hplus]
        exact ⟨h.log, h.idle, fun hw => hwaiting (hw.resolve_right hnone),
          fun hr => absurd hr hnone⟩

theorem ApartInv.step {e : Event} (h : ApartInv s) (hok : KeepsApart s e)
    (hs : step c s e = some t) : ApartInv t := by
  cases e with
  | cluster e =>
    simp only [Rebase.step] at hs
    split_ifs at hs with he
    obtain ⟨cluster, hcluster, rfl⟩ := Option.map_eq_some_iff.mp hs
    exact h.cluster he hcluster
  | setColumn n online =>
    obtain rfl := Option.some.inj hs
    exact ⟨h.log, h.idle, h.waiting, h.rebasing⟩
  | updateGameTime now =>
    simp only [Rebase.step] at hs
    split_ifs at hs
    obtain rfl := Option.some.inj hs
    exact ⟨h.log, h.idle, h.waiting, h.rebasing⟩
  | recheck now =>
    simp only [Rebase.step] at hs
    split_ifs at hs with hno
    obtain rfl := Option.some.inj hs
    exact h.recheck hok (by simpa using not_or.mp hno |>.1)
  | finishBegin highest =>
    simp only [Rebase.step] at hs
    split_ifs at hs with hreb
    obtain rfl := Option.some.inj hs
    obtain ⟨hp, -⟩ := h.rebasing hreb
    have hidle : ¬(s.pending ≠ none ∨ false = true) := by simp [hp]
    cases highest with
    | none => exact ⟨h.log, h.idle, fun hw => absurd hw hidle, fun hr => Bool.noConfusion hr⟩
    | some _ => exact ⟨h.log, h.idle, fun hw => absurd hw hidle, fun hr => Bool.noConfusion hr⟩

end Step

theorem Starts.apartInv {s : State} (h : Starts s) : ApartInv s := by
  refine ⟨by rw [h.log]; exact .nil, fun _ => ?_, fun hw => ?_, fun hr => ?_⟩
  · rw [h.times]
    unfold initAutomaticRebase
    split_ifs <;> rfl
  · rcases hw with hw | hw
    · exact absurd (by simp [State.pending, h.log]) hw
    · simp [h.rebasing] at hw
  · simp [h.rebasing] at hr

def weekly : Config := ⟨7, by decide⟩

def oneNodeStarted : State where
  cluster := oneNode
  column := fun _ => true
  logon := ⟨0, false, 1000⟩
  times := ⟨1000, 1180⟩
  logonState := 0
  clock := 1000
  rebasing := false
  log := []
  restarts := 0
  ended := fun _ => false

theorem oneNodeStarted_starts : Starts oneNodeStarted where
  down := fun _ => rfl
  times := by decide
  halt := rfl
  rebasing := rfl
  log := rfl

def ordered : List Event := (login 1).map .cluster ++ [.recheck 1010]

end HysteriaCore.Rebase
