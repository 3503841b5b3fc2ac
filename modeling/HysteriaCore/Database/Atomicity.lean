import HysteriaCore.Database.Transaction

/-!
# When a transaction is atomic, and when a deadlock is retried
-/

namespace HysteriaCore.Database

variable {S : Type*}

theorem atomic_iff (queries : List (SQLElementData S)) (before : Conn S) (r : Result × Conn S)
    (applied : List S) (h : r.2.server.committed = before.server.committed ++ applied) :
    Atomic queries before r ↔ r.2.server.transaction.getD [] = [] ∧
      applied = if r.1 = .done true then queries.map SQLElementData.element else [] := by
  rw [Atomic, h, List.append_cancel_left_eq]

/-! ### The end of a transaction -/

theorem endTransaction_not_done (p : Pattern) (r : Result × Conn S) (h : r.1 ≠ .done true) :
    (endTransaction p r).1 ≠ .done true := by
  obtain ⟨(_ | _) | _, c⟩ := r
  · simp only [endTransaction]
    split <;> simp
  · simp at h
  · simp [endTransaction]

theorem endTransaction_server_outside (p : Pattern) (r : Result × Conn S)
    (h : r.2.server.transaction = none) : (endTransaction p r).2.server = r.2.server := by
  obtain ⟨(_ | _) | _, c⟩ := r
  · have hr := execute_outside .rollback (.inr rfl) p.rollback c h
    simp only [endTransaction]
    split <;> simpa [*] using hr
  · have hr := execute_outside .commit (.inl rfl) p.commit c h
    simp only [endTransaction]
    split <;> simpa [*] using hr
  · rfl

theorem endTransaction_done (p : Pattern) (server : Server S) (e : ℕ) :
    (endTransaction p (.done true, ⟨server, true, e⟩)).1 = .done true ↔
      p.commit.final ≠ .aborted := by
  simp only [endTransaction]
  rw [execute_eq _ _ _ rfl]
  cases p.commit.final <;> simp [Final.effect]

theorem executeQueries_refused (data : SQLElementData S) (queries : List (SQLElementData S))
    (calls : ℕ → Call) (server : Server S) (e : ℕ) (h : (calls 0).runs = false) :
    let r := executeQueries (data :: queries) calls ⟨server, true, e⟩
    r.1 ≠ .done true ∧
      if (calls 0).final.endsTransaction then r.2.server = server.abandon
      else r.1 = .done false ∧ r.2.server = server ∧ r.2.handle = true := by
  simp only [executeQueries]
  rw [execute_eq _ _ _ rfl]
  unfold Call.runs at h
  cases hf : (calls 0).final with
  | ran lost => simp [hf] at h
  | refused lost errNo =>
    cases lost <;> by_cases he : errNo = ER_LOCK_DEADLOCK <;>
      simp [Final.effect, Final.endsTransaction, he]
  | gone errNo => simp [Final.effect, Final.endsTransaction]
  | aborted => simp [Final.effect, Final.endsTransaction]

theorem outside_all (queries : List (SQLElementData S)) (calls : ℕ → Call) (p : Pattern)
    (committed : List S) (e : ℕ) (h : ∀ i < queries.length, (calls i).runs = true) :
    let r := endTransaction p (executeQueries queries calls ⟨⟨committed, none⟩, true, e⟩)
    r.2.server = ⟨committed ++ queries.map SQLElementData.element, none⟩ ∧
      (r.1 = .done true ↔ p.commit.final ≠ .aborted) := by
  obtain ⟨e', he'⟩ := executeQueries_outside queries calls committed e queries.length le_rfl h
  rw [List.drop_length, List.take_of_length_le (by simp)] at he'
  simp only [he', executeQueries]
  exact ⟨endTransaction_server_outside _ _ rfl, endTransaction_done ..⟩

theorem outside_refused (queries : List (SQLElementData S)) (calls : ℕ → Call) (p : Pattern)
    (committed : List S) (e k : ℕ) (hk : k < queries.length)
    (h : ∀ i < k, (calls i).runs = true) (hk' : (calls k).runs = false) :
    let r := endTransaction p (executeQueries queries calls ⟨⟨committed, none⟩, true, e⟩)
    r.2.server = ⟨committed ++ (queries.map SQLElementData.element).take k, none⟩ ∧
      r.1 ≠ .done true := by
  obtain ⟨e', he'⟩ := executeQueries_outside queries calls committed e k hk.le h
  obtain ⟨data, rest, hdrop⟩ := List.exists_cons_of_ne_nil
    (show queries.drop k ≠ [] by simpa using hk)
  obtain ⟨hne, hserver⟩ := executeQueries_refused data rest (fun i => calls (k + i))
    ⟨committed ++ (queries.map SQLElementData.element).take k, none⟩ e' hk'
  rw [he', hdrop]
  have hsame : (executeQueries (data :: rest) (fun i => calls (k + i))
      ⟨⟨committed ++ (queries.map SQLElementData.element).take k, none⟩, true, e'⟩).2.server =
      ⟨committed ++ (queries.map SQLElementData.element).take k, none⟩ := by
    split_ifs at hserver
    · exact hserver
    · exact hserver.2.1
  refine ⟨?_, endTransaction_not_done _ _ hne⟩
  rw [endTransaction_server_outside _ _ (by rw [hsame]), hsame]

theorem inside_refused (queries : List (SQLElementData S)) (p : Pattern) (committed : List S)
    (e k : ℕ) (hk : k < queries.length) (h : ∀ i < k, (p.stmt i).final = .ran false)
    (hk' : (p.stmt k).runs = false) :
    let r := endTransaction p (executeQueries queries p.stmt ⟨⟨committed, some []⟩, true, e⟩)
    r.1 ≠ .done true ∧ r.2.server = ⟨committed,
      if (p.stmt k).final.endsTransaction ∨ p.rollback.final.endsTransaction then none
      else some ((queries.map SQLElementData.element).take k)⟩ := by
  obtain ⟨e', he'⟩ := executeQueries_inside queries p.stmt committed [] e k hk.le h
  obtain ⟨data, rest, hdrop⟩ := List.exists_cons_of_ne_nil
    (show queries.drop k ≠ [] by simpa using hk)
  obtain ⟨hne, hserver⟩ := executeQueries_refused data rest (fun i => p.stmt (k + i))
    ⟨committed, some ((queries.map SQLElementData.element).take k)⟩ e' hk'
  rw [List.nil_append] at he'
  rw [he', hdrop]
  refine ⟨endTransaction_not_done _ _ hne, ?_⟩
  generalize executeQueries (data :: rest) (fun i => p.stmt (k + i))
    ⟨⟨committed, some ((queries.map SQLElementData.element).take k)⟩, true, e'⟩ = r at *
  by_cases hends : (p.stmt k).final.endsTransaction = true
  · simp only [Nat.add_zero, hends, ite_true] at hserver
    rw [endTransaction_server_outside _ _ (by rw [hserver]; rfl), hserver]
    simp [hends, Server.abandon]
  · simp only [Nat.add_zero, hends] at hserver
    obtain ⟨hr, hs, hh⟩ := hserver
    obtain ⟨_, ⟨_, _, e''⟩⟩ := r
    obtain rfl : _ = _ := hr
    obtain rfl : _ = _ := hs
    obtain rfl : _ = true := hh
    have hroll := execute_rollback p.rollback committed
      ((queries.map SQLElementData.element).take k) e''
    simp only [endTransaction, hends]
    split <;> simpa [*] using hroll

theorem inside_all (queries : List (SQLElementData S)) (hq : queries ≠ []) (p : Pattern)
    (before : Conn S) (e : ℕ) (h : ∀ i < queries.length, (p.stmt i).final = .ran false) :
    Atomic queries before
        (endTransaction p (executeQueries queries p.stmt
          ⟨⟨before.server.committed, some []⟩, true, e⟩)) ↔
      p.commit.final = .ran false ∨ p.commit.final = .aborted := by
  obtain ⟨e', he'⟩ :=
    executeQueries_inside queries p.stmt before.server.committed [] e queries.length le_rfl h
  rw [List.drop_length, List.take_of_length_le (by simp), List.nil_append] at he'
  have hne : queries.map SQLElementData.element ≠ [] := by simpa using hq
  simp only [he', executeQueries, endTransaction]
  rw [execute_eq _ _ _ rfl]
  cases p.commit.final with
  | ran lost =>
    cases lost with
    | false =>
      rw [atomic_iff _ _ _ (queries.map SQLElementData.element) rfl]
      simp [Final.effect, Server.apply]
    | true =>
      rw [atomic_iff _ _ _ [] (by simp [Final.effect, Server.apply, Server.abandon])]
      simp [Final.effect, Server.apply, Server.abandon, hne.symm]
  | refused lost errNo =>
    rw [atomic_iff _ _ _ [] (by simp [Final.effect, Server.abandon]; split_ifs <;> rfl)]
    simp [Final.effect, hne.symm]
  | gone errNo =>
    rw [atomic_iff _ _ _ [] (by simp [Final.effect, Server.abandon])]
    simp [Final.effect, hne.symm]
  | aborted =>
    rw [atomic_iff _ _ _ [] (by simp [Final.effect, Server.abandon])]
    simp [Final.effect, Server.abandon]

/-! ### Positions -/

theorem Pattern.firstRefused_eq_none (p : Pattern) (n : ℕ) :
    p.firstRefused n = none ↔ ∀ i < n, (p.stmt i).runs = true := by
  simp [firstRefused, List.find?_eq_none]

theorem Pattern.firstRefused_eq_some (p : Pattern) (n k : ℕ) :
    p.firstRefused n = some k ↔
      k < n ∧ (p.stmt k).runs = false ∧ ∀ i < k, (p.stmt i).runs = true := by
  simp only [firstRefused, List.find?_range_eq_some, List.mem_range, Bool.not_eq_true',
    Bool.not_not]
  tauto

theorem Call.runs_of_ran {call : Call} {lost : Bool} (h : call.final = .ran lost) :
    call.runs = true := by
  simp [runs, h]

theorem Call.final_of_runs {call : Call} (h : call.runs = true) (hr : call.reconnects = false) :
    call.final = .ran false := by
  unfold runs at h
  unfold reconnects at hr
  cases hf : call.final with
  | ran lost =>
    cases lost with
    | false => rfl
    | true => simp [hf] at hr
  | refused | gone | aborted => simp [hf] at h

theorem all_or_first (n : ℕ) (q : ℕ → Bool) :
    (∀ i < n, q i = true) ∨ ∃ k < n, q k = false ∧ ∀ i < k, q i = true := by
  cases h : (List.range n).find? fun i => !q i with
  | none =>
    left
    simpa [List.find?_eq_none] using h
  | some k =>
    right
    simp only [List.find?_range_eq_some, List.mem_range, Bool.not_eq_true', Bool.not_not] at h
    exact ⟨k, h.2.1, h.1, h.2.2⟩

theorem Pattern.all_or_first (p : Pattern) (n : ℕ) :
    (∀ i < n, (p.stmt i).final = .ran false) ∨
      ∃ j < n, (∀ i < j, (p.stmt i).final = .ran false) ∧
        ((p.stmt j).runs = false ∨ (p.stmt j).reconnects = true) := by
  rcases Database.all_or_first n fun i => decide ((p.stmt i).final = .ran false) with
    h | ⟨j, hj, hne, hlt⟩
  · exact .inl fun i hi => of_decide_eq_true (h i hi)
  · refine .inr ⟨j, hj, fun i hi => of_decide_eq_true (hlt i hi), ?_⟩
    by_cases hr : (p.stmt j).runs = true
    · right
      by_contra hrec
      exact of_decide_eq_false hne (Call.final_of_runs hr (by simpa using hrec))
    · left
      simpa using hr

theorem Pattern.firstOutside_eq_some (p : Pattern) (n a : ℕ)
    (hs : p.startTransaction.runs = true) (ha : a < n) (h : (p.stmt a).reconnects = true)
    (hlt : ∀ i < a, (p.stmt i).final = .ran false) : p.firstOutside n = some a := by
  simp only [firstOutside, hs, ite_true, List.find?_range_eq_some, List.mem_range]
  refine ⟨h, ha, fun i hi => ?_⟩
  simp [Call.reconnects, hlt i hi]

theorem atomic_of_outside (queries : List (SQLElementData S)) (hq : queries ≠ []) (p : Pattern)
    (before : Conn S) (e : ℕ) :
    Atomic queries before
        (endTransaction p (executeQueries queries p.stmt
          ⟨⟨before.server.committed, none⟩, true, e⟩)) ↔
      match p.firstRefused queries.length with
      | some k => k = 0
      | none => p.commit.final ≠ .aborted := by
  have hne : queries.map SQLElementData.element ≠ [] := by simpa using hq
  cases hf : p.firstRefused queries.length with
  | none =>
    obtain ⟨hs, hd⟩ := outside_all queries p.stmt p before.server.committed e
      ((p.firstRefused_eq_none _).mp hf)
    rw [atomic_iff _ _ _ _ (by rw [hs]), hs]
    simp only [Option.getD_none, true_and]
    rw [← hd]
    split_ifs with hdone
    · simp [hdone]
    · simpa [hdone] using hq
  | some k =>
    obtain ⟨hk, hk', hlt⟩ := (p.firstRefused_eq_some _ k).mp hf
    obtain ⟨hs, hd⟩ := outside_refused queries p.stmt p before.server.committed e k hk hlt hk'
    rw [atomic_iff _ _ _ _ (by rw [hs]), hs]
    simp [hd, hq]

theorem atomic_of_reconnect (queries : List (SQLElementData S)) (p : Pattern) (before : Conn S)
    (e a : ℕ) (ha : a < queries.length) (hlt : ∀ i < a, (p.stmt i).final = .ran false)
    (hr : (p.stmt a).reconnects = true) :
    Atomic queries before
        (endTransaction p (executeQueries queries p.stmt
          ⟨⟨before.server.committed, some []⟩, true, e⟩)) ↔
      p.firstRefused queries.length = none ∧ a = 0 ∧ p.commit.final ≠ .aborted := by
  obtain ⟨e', he'⟩ :=
    executeQueries_inside queries p.stmt before.server.committed [] e a ha.le hlt
  obtain ⟨data, rest, hdrop⟩ := List.exists_cons_of_ne_nil
    (show queries.drop a ≠ [] by simpa using ha)
  have hran : (p.stmt a).final = .ran true := of_decide_eq_true hr
  have hels : (queries.map SQLElementData.element).drop a =
      data.element :: rest.map SQLElementData.element := by
    rw [← List.map_drop, hdrop, List.map_cons]
  have hlen : queries.length = a + 1 + rest.length := by
    have := congrArg List.length hdrop
    simp only [List.length_drop, List.length_cons] at this
    omega
  have hstep : executeQueries (data :: rest) (fun i => p.stmt (a + i))
      ⟨⟨before.server.committed, some ((queries.map SQLElementData.element).take a)⟩, true, e'⟩ =
      executeQueries rest (fun i => p.stmt (a + (i + 1)))
        ⟨⟨before.server.committed ++ [data.element], none⟩, true, 0⟩ := by
    rw [executeQueries, execute_eq _ _ _ rfl, Nat.add_zero, hran]
    rfl
  rw [List.nil_append] at he'
  rw [he', hdrop, hstep]
  rcases all_or_first rest.length fun i => (p.stmt (a + (i + 1))).runs with
    hall | ⟨k, hk, hk', hmin⟩
  · have hnone : p.firstRefused queries.length = none := by
      rw [Pattern.firstRefused_eq_none]
      intro i hi
      rcases Nat.lt_trichotomy i a with h | rfl | h
      · exact Call.runs_of_ran (hlt i h)
      · exact Call.runs_of_ran hran
      · have := hall (i - a - 1) (by omega)
        rwa [show a + (i - a - 1 + 1) = i by omega] at this
    obtain ⟨hs, hd⟩ := outside_all rest (fun i => p.stmt (a + (i + 1))) p
      (before.server.committed ++ [data.element]) 0 hall
    rw [atomic_iff _ _ _ ((queries.map SQLElementData.element).drop a)
      (by rw [hs, hels, List.append_assoc, List.singleton_append]), hs]
    simp only [Option.getD_none, true_and, hnone]
    rw [← hd]
    split_ifs with hdone
    · simp only [hdone, and_true]
      constructor
      · intro h
        have := congrArg List.length h
        simp only [List.length_drop, List.length_map] at this
        omega
      · rintro rfl
        rfl
    · simp [hdone, hels]
  · have hsome : p.firstRefused queries.length ≠ none := by
      intro hnone
      have := (p.firstRefused_eq_none _).mp hnone (a + (k + 1)) (by omega)
      simp [this] at hk'
    obtain ⟨hs, hd⟩ := outside_refused rest (fun i => p.stmt (a + (i + 1))) p
      (before.server.committed ++ [data.element]) 0 k hk hmin hk'
    rw [atomic_iff _ _ _ (data.element :: (rest.map SQLElementData.element).take k)
      (by rw [hs, List.append_assoc, List.singleton_append]), hs]
    simp [hd, hsome]

/-! ### `ExecuteTransaction` -/

theorem executeQueries_closed (queries : List (SQLElementData S)) (hq : queries ≠ [])
    (calls : ℕ → Call) (c : Conn S) (hc : c.handle = false) :
    executeQueries queries calls c = (.done false, c) := by
  cases queries with
  | nil => exact absurd rfl hq
  | cons data queries =>
    have h : execute (.query data.element) (calls 0) c = (.done false, c) := by
      rw [execute.eq_def]
      simp [hc]
    rw [executeQueries, h]

theorem endTransaction_closed (p : Pattern) (c : Conn S) (hc : c.handle = false) :
    endTransaction p (.done false, c) = (.done false, c) := by
  have h : execute .rollback p.rollback c = (.done false, c) := by
    rw [execute.eq_def]
    simp [hc]
  simp only [endTransaction, h]

theorem executeTransaction_eq (queries : List (SQLElementData S)) (hq : queries ≠ [])
    (p : Pattern) (c : Conn S) (hc : c.Idle) :
    executeTransaction queries p c = match p.startTransaction.final with
      | .ran _ => endTransaction p
          (executeQueries queries p.stmt ⟨⟨c.server.committed, some []⟩, true, 0⟩)
      | .refused _ errNo => endTransaction p
          (executeQueries queries p.stmt ⟨⟨c.server.committed, none⟩, true, errNo⟩)
      | .gone errNo => (.done false, ⟨⟨c.server.committed, none⟩, false, errNo⟩)
      | .aborted => (.aborted, ⟨⟨c.server.committed, none⟩, false, 0⟩) := by
  obtain ⟨⟨committed, transaction⟩, handle, lastErrno⟩ := c
  obtain ⟨rfl, rfl⟩ : handle = true ∧ transaction = none := hc
  have hempty : queries.isEmpty = false := by simpa using hq
  rw [executeTransaction, execute_eq _ _ _ rfl]
  cases p.startTransaction.final with
  | ran lost => cases lost <;> simp [hempty, Final.effect, Server.apply, Server.abandon]
  | refused lost errNo => simp [hempty, Final.effect, Server.abandon]
  | gone errNo =>
    simp only [hempty, Bool.false_eq_true, ite_false, Final.effect]
    rw [executeQueries_closed queries hq _ _ rfl, endTransaction_closed p _ rfl]
    rfl
  | aborted => simp [hempty, Final.effect, Server.abandon]

theorem executeTransaction_atomic (queries : List (SQLElementData S)) (hq : queries ≠ [])
    (p : Pattern) (c : Conn S) (hc : c.Idle) :
    Atomic queries c (executeTransaction queries p c) ↔ p.KeepsTransaction queries.length := by
  have hnone : ∀ r : Result × Conn S, r.1 ≠ .done true →
      r.2.server = ⟨c.server.committed, none⟩ → Atomic queries c r := by
    intro r hr hs
    rw [atomic_iff _ _ _ [] (by rw [hs, List.append_nil])]
    simp [hs, hr]
  rw [executeTransaction_eq queries hq p c hc, Pattern.KeepsTransaction]
  cases hstart : p.startTransaction.final with
  | aborted =>
    simpa [Pattern.started, hstart] using hnone (.aborted, _) (by simp) rfl
  | gone errNo =>
    simpa [Pattern.started, hstart] using hnone (.done false, _) (by simp) rfl
  | refused lost errNo =>
    have houtside : p.firstOutside queries.length = some 0 := by
      simp [Pattern.firstOutside, Call.runs, hstart]
    rw [atomic_of_outside queries hq p c errNo, houtside]
    cases hf : p.firstRefused queries.length <;> simp [Pattern.started, hstart]
    rintro rfl
    exact .inl rfl
  | ran lost =>
    have hruns : p.startTransaction.runs = true := Call.runs_of_ran hstart
    have hstarted : p.started = true := by simp [Pattern.started, hstart]
    simp only [hstarted, forall_const]
    rcases p.all_or_first queries.length with hall | ⟨j, hj, hlt, hrefused | hrec⟩
    · have h1 : p.firstRefused queries.length = none :=
        (p.firstRefused_eq_none _).mpr fun i hi => Call.runs_of_ran (hall i hi)
      have h2 : p.firstOutside queries.length = none := by
        simp only [Pattern.firstOutside, hruns, ite_true, List.find?_eq_none, List.mem_range]
        intro i hi
        simp [Call.reconnects, hall i hi]
      rw [h1, h2]
      exact inside_all queries hq p c 0 hall
    · -- refused inside: what is pending must be rolled back
      have h1 : p.firstRefused queries.length = some j :=
        (p.firstRefused_eq_some _ j).mpr ⟨hj, hrefused, fun i hi => Call.runs_of_ran (hlt i hi)⟩
      have h2 : ∀ a ∈ p.firstOutside queries.length, j ≤ a := by
        intro a ha
        simp only [Pattern.firstOutside, hruns, ite_true, Option.mem_def, List.find?_range_eq_some] at ha
        by_contra hlt'
        have := hlt a (by omega)
        simp [Call.reconnects, this] at ha
      obtain ⟨hr, hs⟩ := inside_refused queries p c.server.committed 0 j hj hlt hrefused
      rw [atomic_iff _ _ _ [] (by rw [hs, List.append_nil]), hs, h1]
      simp only [hr, ite_false, and_true]
      rw [and_iff_right h2]
      split_ifs with hends
      · simpa using Or.inr hends
      · simp [hends, hq]
    · rw [atomic_of_reconnect queries p c 0 j hj hlt hrec,
        p.firstOutside_eq_some _ j hruns hj hrec hlt]
      cases hf : p.firstRefused queries.length with
      | none => simp
      | some k =>
        obtain ⟨hk, hk', hmin⟩ := (p.firstRefused_eq_some _ k).mp hf
        have hkj : ¬ k ≤ j := by
          intro hle
          rcases Nat.lt_or_eq_of_le hle with h | rfl
          · simp [Call.runs_of_ran (hlt k h)] at hk'
          · simp [Call.runs_of_ran (of_decide_eq_true hrec)] at hk'
        simp [hkj]

/-! ### Retries after a deadlock -/

theorem executeQueries_reach (queries : List (SQLElementData S)) (calls : ℕ → Call)
    (server : Server S) (e k : ℕ) (hk : k ≤ queries.length)
    (h : ∀ i < k, (calls i).runs = true) :
    ∃ server' e', executeQueries queries calls ⟨server, true, e⟩ =
      executeQueries (queries.drop k) (fun i => calls (k + i)) ⟨server', true, e'⟩ := by
  induction k generalizing queries calls server e with
  | zero => exact ⟨server, e, by simp⟩
  | succ k ih =>
    cases queries with
    | nil => simp at hk
    | cons data queries =>
      have hstep : ∃ server', execute (.query data.element) (calls 0) ⟨server, true, e⟩ =
          (.done true, ⟨server', true, 0⟩) := by
        rw [execute_eq _ _ _ rfl]
        have h0 := h 0 (by omega)
        unfold Call.runs at h0
        split at h0
        · simp [Final.effect, *]
        · cases h0
      obtain ⟨server', hserver⟩ := hstep
      obtain ⟨server'', e'', he⟩ := ih queries (fun i => calls (i + 1)) server' 0
        (by simpa using hk) (fun i hi => h (i + 1) (by omega))
      refine ⟨server'', e'', ?_⟩
      rw [executeQueries, hserver]
      simp only [he, List.drop_succ_cons, Nat.add_right_comm]

theorem executeQueries_deadlocked (queries : List (SQLElementData S)) (p : Pattern)
    (hd : p.Deadlocked queries.length) (server : Server S) (e : ℕ) :
    ∃ server', executeQueries queries p.stmt ⟨server, true, e⟩ =
      (.done false, ⟨server', true, ER_LOCK_DEADLOCK⟩) := by
  obtain ⟨-, k, hf, lost, hk⟩ := hd
  obtain ⟨hlen, -, hlt⟩ := (p.firstRefused_eq_some _ k).mp hf
  obtain ⟨server', e', he⟩ := executeQueries_reach queries p.stmt server e k hlen.le hlt
  obtain ⟨data, rest, hdrop⟩ := List.exists_cons_of_ne_nil
    (show queries.drop k ≠ [] by simpa using hlen)
  rw [he, hdrop, executeQueries, execute_eq _ _ _ rfl, Nat.add_zero, hk]
  exact ⟨_, rfl⟩

theorem executeTransaction_deadlocked (queries : List (SQLElementData S)) (hq : queries ≠ [])
    (p : Pattern) (c : Conn S) (hc : c.Idle) (hd : p.Deadlocked queries.length) :
    (executeTransaction queries p c).1 =
        (if p.rollback.final = .aborted then .aborted else .done false) ∧
      (executeTransaction queries p c).2.lastErrno = p.rollback.final.lastErrno := by
  have hend : ∀ server : Server S,
      (endTransaction p (.done false, ⟨server, true, ER_LOCK_DEADLOCK⟩)).1 =
          (if p.rollback.final = .aborted then .aborted else .done false) ∧
        (endTransaction p (.done false, ⟨server, true, ER_LOCK_DEADLOCK⟩)).2.lastErrno =
          p.rollback.final.lastErrno := by
    intro server
    simp only [endTransaction]
    rw [execute_eq _ _ _ rfl]
    cases p.rollback.final <;> simp [Final.effect, Final.lastErrno]
  have hstarted := hd.1
  rw [executeTransaction_eq queries hq p c hc]
  cases hs : p.startTransaction.final with
  | ran lost =>
    obtain ⟨server', h⟩ :=
      executeQueries_deadlocked queries p hd ⟨c.server.committed, some []⟩ 0
    simp only [h]
    exact hend server'
  | refused lost errNo =>
    obtain ⟨server', h⟩ :=
      executeQueries_deadlocked queries p hd ⟨c.server.committed, none⟩ errNo
    simp only [h]
    exact hend server'
  | gone errNo => simp [Pattern.started, hs] at hstarted
  | aborted => simp [Pattern.started, hs] at hstarted

theorem retry_complete (queries : List (SQLElementData S)) (n : ℕ) (ps : ℕ → Pattern) (c : Conn S)
    (r : Result × Conn S) :
    (r :: retry queries n ps c).length = n + 1 ∨
      ∃ r' ∈ (retry queries n ps c).getLast?, r'.1 ≠ .done false := by
  induction n generalizing ps c r with
  | zero => exact .inl rfl
  | succ n ih =>
    simp only [retry]
    split_ifs with h
    · rcases ih (fun i => ps (i + 1)) (executeTransaction queries (ps 0) c).2
        (executeTransaction queries (ps 0) c) with hlen | ⟨r', hr', hne⟩
      · exact .inl (congrArg (· + 1) hlen)
      · refine .inr ⟨r', ?_, hne⟩
        simp only [Option.mem_def] at hr' ⊢
        simp [List.getLast?_cons, hr']
    · exact .inr ⟨_, rfl, h⟩

theorem attempts_retried (queries : List (SQLElementData S)) (hq : queries ≠ []) (ps : ℕ → Pattern)
    (c : Conn S) (hc : c.Idle) (hd : (ps 0).Deadlocked queries.length) :
    Retried (attempts queries ps c) ↔
      (ps 0).rollback.final = .aborted ∨ (ps 0).rollback.final.lastErrno = ER_LOCK_DEADLOCK := by
  obtain ⟨hr, he⟩ := executeTransaction_deadlocked queries hq (ps 0) c hc hd
  rw [attempts]
  by_cases hab : (ps 0).rollback.final = .aborted
  · simp [Retried, hr, hab]
  · simp only [hab, ite_false] at hr
    simp only [hr, he, hab, true_and, false_or]
    split_ifs with h
    · refine iff_of_true ?_ h
      rcases retry_complete queries 5 (fun i => ps (i + 1)) (executeTransaction queries (ps 0) c).2
        (executeTransaction queries (ps 0) c) with hlen | ⟨r', hr', hne⟩
      · exact .inl hlen
      · refine .inr ⟨r', ?_, hne⟩
        simp only [Option.mem_def] at hr' ⊢
        simp [List.getLast?_cons, hr']
    · refine iff_of_false ?_ h
      rintro (hlen | ⟨r', hr', hne⟩)
      · simp at hlen
      · simp only [List.getLast?_singleton, Option.mem_def, Option.some.injEq] at hr'
        exact hne (hr' ▸ hr)

/-- When an attempt fails because of a deadlock, both callers go on to a success or to the
fifth retry. -/
def DeadlockRetried (queries : List (SQLElementData S)) (ps : ℕ → Pattern) (c : Conn S) : Prop :=
  (ps 0).Deadlocked queries.length →
    Retried (transactionTaskExecute queries ps c).attempts ∧
      Retried (directCommitTransaction queries ps c).attempts

/-- The number of `ROLLBACK` leads to the retries when the attempt ends in a deadlock. -/
def Pattern.RetriesDeadlock (p : Pattern) (n : ℕ) : Prop :=
  p.Deadlocked n → p.rollback.final = .aborted ∨ p.rollback.final.lastErrno = ER_LOCK_DEADLOCK

/-- Transactions are atomic, and deadlocks are retried, on exactly these patterns. -/
theorem transaction_atomic_and_retried (queries : List (SQLElementData S)) (hq : queries ≠ [])
    (ps : ℕ → Pattern) (c : Conn S) (hc : c.Idle) :
    (Atomic queries c (executeTransaction queries (ps 0) c) ∧ DeadlockRetried queries ps c) ↔
      (ps 0).KeepsTransaction queries.length ∧ (ps 0).RetriesDeadlock queries.length := by
  rw [executeTransaction_atomic queries hq (ps 0) c hc]
  refine and_congr_right fun _ => ?_
  unfold DeadlockRetried Pattern.RetriesDeadlock
  refine imp_congr_right fun hd => ?_
  have h := attempts_retried queries hq ps c hc hd
  simp only [transactionTaskExecute, directCommitTransaction, h, and_self]

/-! ### Two statements on an idle connection -/

def idleConn : Conn ℕ := ⟨⟨[], none⟩, true, 0⟩

def twoStatements : List (SQLElementData ℕ) := [.raw 1, .prepared 2]

def allSucceed : Pattern := ⟨.success, fun _ => .success, .success, .success⟩

theorem transaction_atomic_and_retried_allSucceed :
    Atomic twoStatements idleConn (executeTransaction twoStatements allSucceed idleConn) ∧
      DeadlockRetried twoStatements (fun _ => allSucceed) idleConn :=
  (transaction_atomic_and_retried twoStatements (by decide) (fun _ => allSucceed) idleConn
    ⟨rfl, rfl⟩).mpr
    ⟨fun _ => .inl rfl, fun ⟨_, k, hk, _⟩ => by
      obtain ⟨-, hf, -⟩ := (allSucceed.firstRefused_eq_some _ k).mp hk
      simp [allSucceed, Call.runs, Call.final] at hf⟩

def lostAtSecond : Pattern :=
  { allSucceed with
    stmt := fun i => if i = 1 then .failed CR_SERVER_LOST [] .success else .success }

def deadlockAtFirst : Pattern :=
  { allSucceed with stmt := fun _ => .failed ER_LOCK_DEADLOCK [] .success }

/-- The second statement alone is applied, with `true`; and the deadlock is not retried. -/
theorem transaction_split_and_not_retried :
    (executeTransaction twoStatements lostAtSecond idleConn).1 = .done true ∧
      (executeTransaction twoStatements lostAtSecond idleConn).2.server = ⟨[2], none⟩ ∧
      ¬ Atomic twoStatements idleConn (executeTransaction twoStatements lostAtSecond idleConn) ∧
      ¬ DeadlockRetried twoStatements (fun _ => deadlockAtFirst) idleConn := by
  refine ⟨by decide, by decide, by decide, fun h => ?_⟩
  have hd : deadlockAtFirst.Deadlocked twoStatements.length := ⟨rfl, 0, rfl, false, rfl⟩
  have hr := (attempts_retried twoStatements (by decide) (fun _ => deadlockAtFirst) idleConn
    ⟨rfl, rfl⟩ hd).mp (h hd).1
  revert hr
  decide

end HysteriaCore.Database
