import ModGate.Concurrency.Interleaving
import ModGate.Request.Lookup

/-! The answer of a handler that runs beside an indexer: it is the one before the run or the one
after it, unless a call of the handler falls into the transaction. -/

namespace ModGate.Concurrency

open Database Gatedb Net Request Transition

/-! The steps of the handler, made one after the other, are the handler. -/

lemma handler_eq_enter (w : World) (r : RequestRec) :
    gateRequestHandler w r =
      match enter w r with
      | .inl result => result
      | .inr (path, addr, r) => runQuery w (w.sqlite path) addr r := by
  simp only [gateRequestHandler, enter]
  by_cases hrc : (gateRequestInitConfiguration w r).1 = 0
  · simp only [hrc, ne_eq, not_true_eq_false, if_false]
    generalize gateRequestGetHandler _ = found
    cases found.1.databaseFile with
    | none => rfl
    | some path =>
      simp only [serve]
      cases (w.sqlite path).openError with
      | some errmsg => rfl
      | none => cases inetPton (found.2.call (.sqliteOpen path)).remoteIp <;> rfl
  · simp [hrc]

lemma mergeSettings_onFile (w : World) (path : String) (db : Sqlite)
    (es : List (Sigma fun _ : String => String)) (r : RequestRec) :
    mergeSettings (onFile w path db) es r = mergeSettings w es r := by
  induction es generalizing r with
  | nil => rfl
  | cons e es ih =>
    simp only [mergeSettings, ih]
    rfl

lemma init_onFile (w : World) (path : String) (db : Sqlite) (r : RequestRec) :
    gateRequestInitConfiguration (onFile w path db) r = gateRequestInitConfiguration w r := by
  simp only [init_eq, mergeSettings_onFile]

lemma enter_onFile {w : World} {path : String} {db : Sqlite} (r : RequestRec)
    (hdb : db.openError = (w.sqlite path).openError) :
    enter (onFile w path db) r = enter w r := by
  have hopen : ∀ p, ((onFile w path db).sqlite p).openError = (w.sqlite p).openError := by
    intro p
    by_cases hp : p = path
    · subst hp
      simpa [onFile] using hdb
    · simp [onFile, hp]
  simp only [enter, init_onFile, hopen]
  rfl

lemma enter_onTable (w : World) (path : String) (t : IpTable) (r : RequestRec) :
    enter (onTable w path t) r = enter w r :=
  enter_onFile r rfl

lemma enter_view (w : World) (path : String) (s : State) (r : RequestRec) :
    enter (view w path s) r = enter w r := by
  unfold view
  split <;> exact enter_onFile r rfl

lemma onTable_other (w : World) {path p : String} (t : IpTable) (hp : p ≠ path) :
    (onTable w path t).sqlite p = w.sqlite p := by
  simp [onTable, onFile, hp]

lemma prepareError_onTable (w : World) (path p : String) (t u : IpTable) :
    ((onTable w path t).sqlite p).prepareError = ((onTable w path u).sqlite p).prepareError := by
  by_cases hp : p = path
  · subst hp
    simp [onTable, onFile]
  · rw [onTable_other w t hp, onTable_other w u hp]

/-! The indexer, isolated by its transaction. -/

/-- The run has reached a state from which the rest of the scan gives the table of a run that
is alone on the file. -/
def Isolated (env : IndexEnv) (t : IpTable) (s : Session) : Prop :=
  match s.index with
  | .start => s.committed = t ∧ s.working = none
  | .begun => env.openFails = false ∧ s.committed = t ∧ s.working = some t
  | .scanning pending n => env.openFails = false ∧ env.prepareFails = false ∧ s.committed = t ∧
      ∃ u, s.working = some u ∧
        (indexScan env pending n u).killed = (indexScan env t.ids 0 t).killed ∧
        (indexScan env pending n u).table = (indexScan env t.ids 0 t).table
  | .exited code => s.working = none ∧ s.committed = (indexDatabase env t).table ∧
      code = (indexDatabase env t).exit

lemma isolated_commit {env : IndexEnv} {t u : IpTable} {s : Session}
    (hb : env.beginFails = false) (ho : env.openFails = false) (hp : env.prepareFails = false)
    (hc : s.committed = t) (hw : s.working = some u)
    (hk : (indexScan env t.ids 0 t).killed = false) (ht : (indexScan env t.ids 0 t).table = u) :
    Isolated env t (s.exit (some 0) (if env.commitFails then s.committed else s.seen)) := by
  refine ⟨rfl, ?_, ?_⟩
  · simp [Session.exit, indexDatabase, ho, hp, hb, hk, ht, hc, Session.seen, hw]
  · simp [indexDatabase, ho, hp, hk]

lemma isolated_killed {env : IndexEnv} {t : IpTable} {s : Session}
    (hb : env.beginFails = false) (ho : env.openFails = false) (hp : env.prepareFails = false)
    (hc : s.committed = t) (hk : (indexScan env t.ids 0 t).killed = true) :
    Isolated env t (s.exit none s.committed) := by
  refine ⟨rfl, ?_, ?_⟩
  · simp [Session.exit, indexDatabase, ho, hp, hb, hk, hc]
  · simp [indexDatabase, ho, hp, hk]

lemma isolated_scanning {env : IndexEnv} {t : IpTable} {lock : Lock} {committed : IpTable}
    {working : Option IpTable} {id : ℤ} {pending : List ℤ} {n : ℕ}
    (hb : env.beginFails = false) (hl : lock ≠ .exclusive)
    (h : Isolated env t ⟨committed, working, .scanning (id :: pending) n⟩) :
    Isolated env t (Session.next env lock ⟨committed, working, .scanning (id :: pending) n⟩) := by
  obtain ⟨ho, hp, rfl, u, rfl, hk, ht⟩ := h
  simp only [Session.next, Session.seen, Option.getD_some, Option.isNone_some, Bool.false_and,
    Bool.or_false, hl, decide_false]
  simp only [indexScan] at hk ht
  split
  · rename_i hs
    simp only [hs, if_true] at hk ht
    exact ⟨ho, hp, rfl, u, rfl, hk, ht⟩
  · rename_i hs
    simp only [hs] at hk ht
    cases hf : u.find id with
    | none =>
      simp only [hf] at hk ht
      exact ⟨ho, hp, rfl, u, rfl, hk, ht⟩
    | some r =>
      simp only [hf] at hk ht
      by_cases hu : Unindexed r
      · simp only [hu, if_true] at hk ht ⊢
        cases ha : r.startText <;> cases he : r.endText <;> simp only [ha, he] at hk ht ⊢
        · exact isolated_killed hb ho hp rfl hk.symm
        · exact isolated_killed hb ho hp rfl hk.symm
        · exact isolated_killed hb ho hp rfl hk.symm
        · exact ⟨ho, hp, rfl, _, rfl, hk, ht⟩
      · simp only [hu, if_false] at hk ht ⊢
        exact ⟨ho, hp, rfl, u, rfl, hk, ht⟩

lemma isolated_next {env : IndexEnv} {t : IpTable} {lock : Lock} {s : Session}
    (hb : env.beginFails = false) (hl : lock ≠ .exclusive)
    (hstart : s.index = .start → lock = .free) (h : Isolated env t s) : Isolated env t (s.next env lock) := by
  obtain ⟨committed, working, index⟩ := s
  cases index with
  | start =>
    obtain ⟨rfl, hw⟩ := h
    simp only [Session.next]
    cases ho : env.openFails with
    | true => exact ⟨rfl, by simp [Session.exit, indexDatabase, ho], by simp [indexDatabase, ho]⟩
    | false =>
      simp only [hb, hstart rfl, ne_eq, not_true_eq_false, decide_false, Bool.or_self,
        Bool.false_eq_true, if_false]
      exact ⟨ho, rfl, rfl⟩
  | begun =>
    obtain ⟨ho, hc, hw⟩ := h
    dsimp only at hc hw
    subst hc hw
    simp only [Session.next, hl, decide_false, Bool.or_false]
    cases hp : env.prepareFails with
    | true =>
      exact ⟨rfl, by simp [Session.exit, indexDatabase, ho, hp], by simp [indexDatabase, ho, hp]⟩
    | false => exact ⟨ho, hp, rfl, _, rfl, rfl, rfl⟩
  | scanning pending n =>
    cases pending with
    | nil =>
      obtain ⟨ho, hp, rfl, u, rfl, hk, ht⟩ := h
      exact isolated_commit hb ho hp rfl rfl hk.symm ht.symm
    | cons id pending => exact isolated_scanning hb hl h
  | exited code => exact h

lemma lock_not_exclusive (path : String) (s : State) : s.lock path ≠ .exclusive := by
  unfold State.lock
  split <;> simp

/-! The handler, before its answer is settled and after. -/

def Phase.result : Phase → Option (ℤ × RequestRec)
  | .fetched _ result | .finished result => some result
  | _ => none

def Served (w : World) (path : String) (t : IpTable) (r : RequestRec) (s : State) : Prop :=
  match s.handler with
  | .start r' => r' = r
  | .opened p addr r' => enter w r = .inr (p, addr, r')
  | .prepared p addr r' => enter w r = .inr (p, addr, r') ∧
      ((onTable w path t).sqlite p).prepareError = none
  | .fetched _ result | .finished result =>
      result = gateRequestHandler (onTable w path t) r ∨ (∃ code, s.index = .exited code) ∧
        result = gateRequestHandler (onTable w path s.committed) r

def Early (w : World) (path : String) (t : IpTable) (r : RequestRec) (s : State) : Prop :=
  s.handler.result = some (gateRequestHandler (onTable w path t) r)

lemma served_of_result {w : World} {path : String} {t : IpTable} {r : RequestRec} {s : State}
    {result : ℤ × RequestRec} (hr : s.handler.result = some result)
    (h : result = gateRequestHandler (onTable w path t) r ∨ (∃ code, s.index = .exited code) ∧
      result = gateRequestHandler (onTable w path s.committed) r) : Served w path t r s := by
  obtain ⟨session, handler⟩ := s
  cases handler <;> cases hr <;> exact h

lemma result_of_served {w : World} {path : String} {t : IpTable} {r : RequestRec} {s : State}
    {result : ℤ × RequestRec} (hr : s.handler.result = some result) (h : Served w path t r s) :
    result = gateRequestHandler (onTable w path t) r ∨ (∃ code, s.index = .exited code) ∧
      result = gateRequestHandler (onTable w path s.committed) r := by
  obtain ⟨session, handler⟩ := s
  cases handler <;> cases hr <;> exact h

lemma view_clear {env : IndexEnv} {w : World} {path p : String} {t : IpTable} {s : State}
    (hi : Isolated env t s.toSession) (hc : p = path → s.working = none) :
    ∃ u, (view w path s).sqlite p = (onTable w path u).sqlite p ∧
      (u = t ∨ (∃ code, s.index = .exited code) ∧ u = s.committed) := by
  by_cases hp : p = path
  · have hw := hc hp
    refine ⟨s.committed, by simp only [view, hw], ?_⟩
    unfold Isolated at hi
    cases hx : s.index with
    | start =>
      simp only [hx] at hi
      exact Or.inl hi.1
    | begun => simp [hx, hw] at hi
    | scanning pending n => simp [hx, hw] at hi
    | exited code => exact Or.inr ⟨⟨code, rfl⟩, rfl⟩
  · refine ⟨t, ?_, Or.inl rfl⟩
    rw [onTable_other w t hp]
    unfold view
    split <;> simp [onTable, onFile, hp]

lemma served_start {env : IndexEnv} {w : World} {path : String} {t : IpTable} {r : RequestRec}
    {s : State} (hh : s.handler = .start r) :
    Served w path t r (step w path env .request s) := by
  simp only [step, hh, Phase.next, enter_view]
  cases he : enter w r with
  | inl result =>
    refine Or.inl ?_
    rw [handler_eq_enter, enter_onTable, he]
  | inr lookup => exact he

lemma served_opened {env : IndexEnv} {w : World} {path p : String} {t : IpTable}
    {r r' : RequestRec} {addr : ℕ} {s : State} (hh : s.handler = .opened p addr r')
    (hc : p = path → s.working = none) (hi : Isolated env t s.toSession)
    (he : enter w r = .inr (p, addr, r')) : Served w path t r (step w path env .request s) := by
  obtain ⟨u, hu, _⟩ := view_clear (w := w) hi hc
  simp only [step, hh, Phase.next, hu, prepareError_onTable w path p u t]
  cases hp : ((onTable w path t).sqlite p).prepareError with
  | none => exact ⟨he, hp⟩
  | some e =>
    refine Or.inl ?_
    rw [handler_eq_enter, enter_onTable, he]
    simp only [runQuery, hp]
    unfold view
    split <;> rfl

lemma served_prepared {env : IndexEnv} {w : World} {path p : String} {t : IpTable}
    {r r' : RequestRec} {addr : ℕ} {s : State} (hh : s.handler = .prepared p addr r')
    (hc : p = path → s.working = none) (hi : Isolated env t s.toSession)
    (he : enter w r = .inr (p, addr, r'))
    (hp : ((onTable w path t).sqlite p).prepareError = none) :
    Served w path t r (step w path env .request s) := by
  obtain ⟨u, hu, htable⟩ := view_clear (w := w) hi hc
  have hresult : finishStep (view w path s) r' (queryStep ((view w path s).sqlite p) addr) =
      gateRequestHandler (onTable w path u) r := by
    rw [handler_eq_enter, enter_onTable, he]
    simp only [runQuery, prepareError_onTable w path p u t, hp, hu]
    unfold view
    split <;> rfl
  have hnext : (step w path env .request s).handler.result =
      some (gateRequestHandler (onTable w path u) r) := by
    rw [← hresult]
    simp only [step, hh, Phase.next]
    split
    · rename_i row hrow
      rw [hrow]
      rfl
    · rfl
  apply served_of_result hnext
  rcases htable with rfl | ⟨hx, rfl⟩
  · exact Or.inl rfl
  · exact Or.inr ⟨hx, rfl⟩

lemma served_answered {env : IndexEnv} {w : World} {path : String} {t : IpTable}
    {r : RequestRec} {s : State} {result : ℤ × RequestRec}
    (hr : s.handler.result = some result) (h : Served w path t r s) :
    Served w path t r (step w path env .request s) := by
  have hold := result_of_served hr h
  have hnext : (step w path env .request s).handler.result = some result := by
    cases hh : s.handler <;> rw [hh] at hr <;> cases hr <;>
      simp only [step, hh, Phase.next, Phase.result]
  exact served_of_result hnext hold

lemma served_next {env : IndexEnv} {w : World} {path : String} {t : IpTable} {r : RequestRec}
    {s : State} (hc : Clear path .request s) (hi : Isolated env t s.toSession)
    (h : Served w path t r s) : Served w path t r (step w path env .request s) := by
  have hclear : s.handler.reads path = true → s.working = none := fun hp => by
    simpa using hc rfl hp
  cases hh : s.handler with
  | start r' =>
    simp only [Served, hh] at h
    exact served_start (h ▸ hh)
  | opened p addr r' =>
    simp only [Served, hh] at h
    exact served_opened hh (fun hp => hclear (by simp [hh, Phase.reads, hp])) hi h
  | prepared p addr r' =>
    simp only [Served, hh] at h
    exact served_prepared hh (fun hp => hclear (by simp [hh, Phase.reads, hp])) hi h.1 h.2
  | fetched p result => exact served_answered (by rw [hh]; rfl) h
  | finished result => exact served_answered (by rw [hh]; rfl) h

lemma early_next {w w' : World} {path : String} {t : IpTable} {r : RequestRec} {s : State}
    {phase : Phase} (hp : phase.result = some (gateRequestHandler (onTable w path t) r)) :
    Early w path t r { s with handler := phase.next w' } := by
  cases phase <;> cases hp <;> rfl

lemma served_indexStep {env : IndexEnv} {w : World} {path : String} {t : IpTable}
    {r : RequestRec} {s : State} (h : Served w path t r s) :
    Served w path t r (indexStep env path s) := by
  cases hr : s.handler.result with
  | none =>
    obtain ⟨session, handler⟩ := s
    cases handler with
    | start r' | opened p addr r' | prepared p addr r' => exact h
    | fetched p result | finished result => cases hr
  | some result =>
    apply served_of_result (s := indexStep env path s) hr
    rcases result_of_served hr h with h | ⟨⟨code, hx⟩, h⟩
    · exact Or.inl h
    · have hsame : indexStep env path s = s := by simp only [indexStep, Session.next, hx]
      rw [hsame]
      exact Or.inr ⟨⟨code, hx⟩, h⟩

/-! Runs. -/

def Serial (w : World) (path : String) (env : IndexEnv) (t : IpTable) (r : RequestRec)
    (s : State) : Prop :=
  Isolated env t s.toSession ∧ Served w path t r s ∨ Early w path t r s

lemma serial_step {w : World} {path : String} {env : IndexEnv} {t : IpTable} {r : RequestRec}
    (hb : env.beginFails = false) (p : Party) (s : State) (hc : Clear path p s)
    (h : Serial w path env t r s) : Serial w path env t r (step w path env p s) := by
  rcases h with ⟨hi, hs⟩ | he
  · cases p with
    | request => exact Or.inl ⟨hi, served_next hc hi hs⟩
    | gatedb =>
      by_cases hl : s.index = .start ∧ s.handler.holds path = true
      · -- `BEGIN EXCLUSIVE` meets the lock of a handler that has its answer already.
        obtain ⟨hx, hlock⟩ := hl
        cases hh : s.handler with
        | fetched p result =>
          have hr : s.handler.result = some result := by rw [hh]; rfl
          rcases result_of_served hr hs with rfl | ⟨⟨code, hx'⟩, _⟩
          · exact Or.inr hr
          · simp [hx] at hx'
        | _ => simp [hh, Phase.holds] at hlock
      · have hstart : s.index = .start → s.lock path = .free := by
          intro hx
          simpa [State.lock, hx] using hl
        exact Or.inl ⟨isolated_next hb (lock_not_exclusive path s) hstart hi, served_indexStep hs⟩
  · cases p with
    | request => exact Or.inr (early_next he)
    | gatedb => exact Or.inr he

def Phase.remaining : Phase → ℕ
  | .start _ => 4
  | .opened _ _ _ => 3
  | .prepared _ _ _ => 2
  | .fetched _ _ => 1
  | .finished _ => 0

lemma next_remaining (w : World) (phase : Phase) :
    (phase.next w).remaining ≤ phase.remaining - 1 := by
  cases phase with
  | start r =>
    simp only [Phase.next]
    split <;> simp [Phase.remaining]
  | opened path addr r =>
    simp only [Phase.next]
    split <;> simp [Phase.remaining]
  | prepared path addr r =>
    simp only [Phase.next]
    split <;> simp [Phase.remaining]
  | fetched path result => exact Nat.le_refl 0
  | finished result => exact Nat.le_refl 0

lemma handler_finishes (w : World) (path : String) (env : IndexEnv) {schedule : List Party}
    (t : IpTable) (r : RequestRec) (h : 4 ≤ schedule.count .request) :
    ∃ result, (run (step w path env) schedule (.initial t r)).handler = .finished result := by
  have hm : (run (step w path env) schedule (.initial t r)).handler.remaining ≤
      4 - schedule.count .request := by
    refine run_measure (fun s : State => s.handler.remaining) ?_ ?_ _ _
    · intro s
      exact next_remaining _ _
    · intro q s hq
      cases q with
      | gatedb => exact Nat.le_refl _
      | request => exact (hq rfl).elim
  have hzero : (run (step w path env) schedule (.initial t r)).handler.remaining = 0 := by omega
  cases hh : (run (step w path env) schedule (.initial t r)).handler with
  | finished result => exact ⟨result, rfl⟩
  | _ => simp [hh, Phase.remaining] at hzero

def remainingIndex (s : Session) : ℕ :=
  match s.index with
  | .start => max s.committed.ids.length s.seen.ids.length + 3
  | .begun => s.seen.ids.length + 2
  | .scanning pending _ => pending.length + 1
  | .exited _ => 0

lemma next_remainingIndex (env : IndexEnv) (lock : Lock) (s : Session) :
    remainingIndex (s.next env lock) ≤ remainingIndex s - 1 := by
  obtain ⟨committed, working, index⟩ := s
  cases index with
  | start =>
    simp only [Session.next]
    split
    · exact Nat.zero_le _
    · split <;> cases working <;> simp [remainingIndex, Session.seen]
  | begun =>
    simp only [Session.next]
    split
    · exact Nat.zero_le _
    · exact Nat.le_refl _
  | scanning pending n =>
    cases pending with
    | nil => exact Nat.zero_le _
    | cons id pending =>
      simp only [Session.next]
      split
      · simp [remainingIndex]
      · split
        · exact Nat.le_refl _
        · split
          · split
            · simp [remainingIndex]
            · exact Nat.zero_le _
          · exact Nat.le_refl _
  | exited code => exact Nat.le_refl _

lemma index_exits (w : World) (path : String) (env : IndexEnv) {schedule : List Party}
    (t : IpTable) (r : RequestRec) (h : t.rows.length + 3 ≤ schedule.count .gatedb) :
    ∃ code, (run (step w path env) schedule (.initial t r)).index = .exited code := by
  have hm : remainingIndex (run (step w path env) schedule (.initial t r)).toSession ≤
      remainingIndex (State.initial t r).toSession - schedule.count .gatedb := by
    refine run_measure (fun s : State => remainingIndex s.toSession) ?_ ?_ _ _
    · intro s
      exact next_remainingIndex env _ _
    · intro q s hq
      cases q with
      | gatedb => exact (hq rfl).elim
      | request => exact Nat.le_refl _
  have hstart : remainingIndex (State.initial t r).toSession = t.rows.length + 3 := by
    simp [remainingIndex, State.initial, Session.seen, IpTable.ids]
  have hzero : remainingIndex (run (step w path env) schedule (.initial t r)).toSession = 0 := by
    omega
  unfold remainingIndex at hzero
  cases hx : (run (step w path env) schedule (.initial t r)).index with
  | exited code => exact ⟨code, rfl⟩
  | _ => simp [hx] at hzero

lemma serial_initial (w : World) (path : String) (env : IndexEnv) (t : IpTable)
    (r : RequestRec) : Serial w path env t r (.initial t r) :=
  Or.inl ⟨⟨rfl, rfl⟩, rfl⟩

theorem serializable_when_clear (w : World) (path : String) (env : IndexEnv) (t : IpTable)
    (r : RequestRec) (schedule : List Party) (hb : env.beginFails = false)
    (hclear : Along (step w path env) (Clear path) schedule (.initial t r))
    (hrequest : 4 ≤ schedule.count .request)
    (hindex : t.rows.length + 3 ≤ schedule.count .gatedb) :
    ∃ result code, (run (step w path env) schedule (.initial t r)).handler = .finished result ∧
      (run (step w path env) schedule (.initial t r)).index = .exited code ∧
      (answer result = answer (gateRequestHandler (onTable w path t) r) ∨
        answer result = answer (gateRequestHandler
          (onTable w path (run (step w path env) schedule (.initial t r)).committed) r)) := by
  obtain ⟨result, hh⟩ := handler_finishes w path env t r hrequest
  obtain ⟨code, hx⟩ := index_exits w path env t r hindex
  refine ⟨result, code, hh, hx, ?_⟩
  have hr : (run (step w path env) schedule (.initial t r)).handler.result = some result := by
    rw [hh]
    rfl
  rcases run_invariant (serial_step hb) hclear (serial_initial w path env t r) with ⟨_, hs⟩ | he
  · rcases result_of_served hr hs with rfl | ⟨_, rfl⟩
    · exact Or.inl rfl
    · exact Or.inr rfl
  · cases hr.symm.trans he
    exact Or.inl rfl

def pendingRow : IpRow :=
  ⟨1, some "10.0.0.7", some "10.0.0.7", .null, .null, .integer 404, none, none⟩

theorem statement_before_row_after :
    let w := calmWorld emptyIp
    let s := run (step w "/etc/apache2/gate.db" calmIndex)
      ([.request, .request] ++ List.replicate 4 .gatedb ++ [.request, .request])
      (.initial (oneRow pendingRow) (gatedRequest "10.0.0.7"))
    ∃ result code, s.handler = .finished result ∧ s.index = .exited code ∧
      (answer result = answer (gateRequestHandler
          (onTable w "/etc/apache2/gate.db" (oneRow pendingRow)) (gatedRequest "10.0.0.7")) ∨
        answer result = answer (gateRequestHandler
          (onTable w "/etc/apache2/gate.db" s.committed) (gatedRequest "10.0.0.7"))) :=
  serializable_when_clear (calmWorld emptyIp) "/etc/apache2/gate.db" calmIndex (oneRow pendingRow)
    (gatedRequest "10.0.0.7") _ rfl (by decide) (by decide) (by decide)

theorem transaction_met :
    let path := "/etc/apache2/gate.db"
    let t := oneRow (rangeRow 167772167 167772167)
    let w := calmWorld emptyIp
    let r := gatedRequest "10.0.0.7"
    let ends : List Party → State := fun schedule =>
      run (step w path calmIndex) schedule (.initial t r)
    let atStep : List Party :=
      [.request, .request, .gatedb, .request, .request, .gatedb, .gatedb, .gatedb]
    let atPrepare : List Party :=
      [.gatedb, .request, .request, .request, .request, .gatedb, .gatedb, .gatedb]
    answer (gateRequestHandler (onTable w path t) r) = (OK, 404) ∧
      (ends atStep).handler.result.map answer = some (DECLINED, 200) ∧
      (ends atPrepare).handler.result.map answer = some (OK, 200) ∧
      ¬ ∀ schedule : List Party, 4 ≤ schedule.count .request →
        t.rows.length + 3 ≤ schedule.count .gatedb →
        ∃ result code, (ends schedule).handler = .finished result ∧
          (ends schedule).index = .exited code ∧
          (answer result = answer (gateRequestHandler (onTable w path t) r) ∨
            answer result =
              answer (gateRequestHandler (onTable w path (ends schedule).committed) r)) := by
  intro path t w r ends atStep atPrepare
  have hbefore : answer (gateRequestHandler (onTable w path t) r) = (OK, 404) := by decide
  have hafter : answer (gateRequestHandler (onTable w path (ends atStep).committed) r) =
      (OK, 404) := by decide
  have hstep : (ends atStep).handler.result.map answer = some (DECLINED, 200) := by decide
  refine ⟨hbefore, hstep, by decide, fun h => ?_⟩
  obtain ⟨result, code, hh, _, ha⟩ := h atStep (by decide) (by decide)
  rw [hbefore, hafter] at ha
  rw [hh, Phase.result, Option.map_some] at hstep
  rcases ha with ha | ha <;> simp [ha, OK, DECLINED] at hstep

end ModGate.Concurrency
