import ModGate.Concurrency.Writers
import ModGate.Tools.Offenders
import ModGate.Tools.Pipeline

/-! A deployment: the logs are read into a table that has the column `note`, and the table is
indexed, in any interleaving. What the module then answers. -/

namespace ModGate.Concurrency

open Sql Database Gatedb Net Request Tools Transition

variable {ι : Type} [DecidableEq ι] {env : ι → IndexEnv} {ipAddr : String → Option ℕ}

-- What a step reads into the table; a script whose transaction is refused or undone reads nothing.
def Writer.lines (s : Shared ι) : Writer ι → List LogLine
  | .gatelog undone log => if s.owner.isSome || undone then [] else log
  | _ => []

variable (env ipAddr) in
def recorded : List (Writer ι) → Shared ι → List LogLine
  | [], _ => []
  | p :: ps, s => p.lines s ++ recorded ps (Shared.step env ipAddr p s)

/-- The rows are those of the offenders in the log, whatever their bounds. -/
structure Lists (log : List LogLine) (t : IpTable) : Prop where
  columns : ∀ c ∈ insertedColumns, c ∈ t.columns
  rows : ∀ r ∈ t.rows, ∃ host ∈ offendingHosts log,
    r.startText = some host ∧ r.endText = some host ∧ r.httpCode = .integer 404
  starts : ∀ host ∈ offendingHosts log, some host ∈ starts t

lemma offendingHosts_append (log log' : List LogLine) :
    offendingHosts (log ++ log') = offendingHosts log ++ offendingHosts log' := by
  simp [offendingHosts]

lemma starts_of_described {t u : IpTable}
    (h : u.rows.map described = t.rows.map described) : starts u = starts t := by
  have hstart : ∀ rows : List IpRow,
      rows.map IpRow.startText = (rows.map described).map IpRow.startText := fun rows => by
    rw [List.map_map]
    rfl
  rw [starts, hstart, h, ← hstart, ← starts]

lemma Lists.rewrites {log : List LogLine} {t u : IpTable} (h : Lists log t) (hu : Rewrites t u)
    (hcolumns : u.columns = t.columns) : Lists log u := by
  have hdescribed := rewritten_described hu
  refine ⟨hcolumns ▸ h.columns, fun r hr => ?_, ?_⟩
  · have hmem : described r ∈ t.rows.map described := hdescribed ▸ List.mem_map_of_mem hr
    obtain ⟨q, hq, hqr⟩ := List.mem_map.mp hmem
    obtain ⟨host, hhost, hs, he, hcode⟩ := h.rows q hq
    refine ⟨host, hhost, ?_, ?_, ?_⟩
    · exact (congrArg IpRow.startText hqr).symm.trans hs
    · exact (congrArg IpRow.endText hqr).symm.trans he
    · exact (congrArg IpRow.httpCode hqr).symm.trans hcode
  · rw [starts_of_described hdescribed]
    exact h.starts

lemma reports_mem {log : List LogLine} {hosts : List String} {added : List IpRow}
    (h : List.Forall₂ (Reports log) hosts added) {r : IpRow} (hr : r ∈ added) :
    ∃ host ∈ hosts, Reports log host r := by
  induction h with
  | nil => cases hr
  | cons hrow _ ih =>
    rcases List.mem_cons.mp hr with rfl | hr
    · exact ⟨_, List.mem_cons_self, hrow⟩
    · obtain ⟨host, hhost, hreport⟩ := ih hr
      exact ⟨host, List.mem_cons_of_mem _ hhost, hreport⟩

lemma Lists.processLog {log : List LogLine} {t : IpTable} (h : Lists log t) (raises : Bool)
    (log' : List LogLine) : Lists (log ++ log') (processLog raises log' t) := by
  have hp := processLog_processed h.columns raises log'
  obtain ⟨added, hrows, hadded⟩ := hp.rows
  refine ⟨hp.columns ▸ h.columns, fun r hr => ?_, fun host hhost => ?_⟩
  · rw [hrows] at hr
    rw [offendingHosts_append]
    rcases List.mem_append.mp hr with hr | hr
    · obtain ⟨host, hhost, hrest⟩ := h.rows r hr
      exact ⟨host, List.mem_append_left _ hhost, hrest⟩
    · obtain ⟨host, hhost, hreport⟩ := reports_mem hadded hr
      refine ⟨host, List.mem_append_right _ (mem_newOffenders.mp hhost).1, ?_⟩
      rw [hreport]
      exact ⟨rfl, rfl, rfl⟩
  · rw [offendingHosts_append] at hhost
    rw [hp.mem_starts]
    exact (List.mem_append.mp hhost).imp_left (h.starts host)

/-! No indexer changes the columns. -/

lemma Iteration.columns_apply (it : Iteration) (t : IpTable) :
    (it.apply t).columns = t.columns := by
  unfold Iteration.apply
  split <;> rfl

lemma indexRbLoop_columns {rows : List IpRow} {t u : IpTable}
    (h : indexRbLoop ipAddr rows t = some u) : u.columns = t.columns := by
  induction rows generalizing t with
  | nil =>
    cases h
    rfl
  | cons r rows ih =>
    simp only [indexRbLoop, Option.bind_eq_bind, Option.bind_eq_some_iff] at h
    obtain ⟨startNew, -, endNew, -, h⟩ := h
    split at h
    · exact (ih h).trans rfl
    · exact ih h

lemma indexRb_columns (t : IpTable) : (indexRb ipAddr t).columns = t.columns := by
  unfold indexRb
  cases h : indexRbLoop ipAddr t.rows t with
  | none => rfl
  | some u => exact indexRbLoop_columns h

def Session.Columned (s : Session) (columns : List Column) : Prop :=
  s.committed.columns = columns ∧ ∀ u, s.working = some u → u.columns = columns

lemma Session.Columned.seen {s : Session} {columns : List Column} (h : s.Columned columns) :
    s.seen.columns = columns := by
  unfold Session.seen
  cases hw : s.working with
  | none => exact h.1
  | some u => exact h.2 u hw

lemma Session.Columned.write {s : Session} {columns : List Column} (h : s.Columned columns)
    {u : IpTable} (hu : u.columns = columns) (index : Progress) :
    Session.Columned { s.write u with index := index } columns := by
  obtain ⟨committed, working, index'⟩ := s
  cases working with
  | none => exact ⟨hu, fun u hu => by cases hu⟩
  | some v => exact ⟨h.1, fun u' hu' => by cases hu'; exact hu⟩

lemma Session.Outcome.columned {env : IndexEnv} {lock : Lock} {s s' : Session}
    {columns : List Column} (h : s.Outcome env lock s') (hs : s.Columned columns) :
    s'.Columned columns := by
  cases h with
  | refused => exact hs
  | opened => exact ⟨hs.1, fun u hu => by cases hu; exact hs.1⟩
  | prepared => exact hs
  | stopped => exact hs
  | passed => exact hs
  | updated => exact hs.write ((Iteration.columns_apply _ _).trans hs.seen) _
  | left => exact ⟨hs.1, fun u hu => by cases hu⟩
  | finished => exact ⟨hs.seen, fun u hu => by cases hu⟩
  | exited => exact hs

lemma Session.Outcome.rewrites {env : IndexEnv} {lock : Lock} {t : IpTable} {s s' : Session}
    (h : s.Outcome env lock s') (hk : s.Kept t) : Rewrites s.committed s'.committed := by
  cases h with
  | refused | opened | prepared | stopped | passed | left | exited => exact Rewrites.refl _
  | updated _ _ hmem _ hs he =>
    have happly := iteration_rewrites (hk.seen.faithful hk.faithful) hmem hs he
    obtain ⟨committed, working, index⟩ := s
    cases working with
    | none => exact happly _ _
    | some v => exact Rewrites.refl _
  | finished => exact hk.seen

/-! The whole run. -/

/-- The file and the open transaction hold the rows of the log. -/
structure Shared.Logs (log : List LogLine) (s : Shared ι) : Prop where
  lists : Lists log s.committed
  columns : ∀ i u, s.owner = some (i, u) → u.columns = s.committed.columns

namespace Shared.Logs

variable {s : Shared ι} {t : IpTable} {log : List LogLine}

lemma columned (h : s.Logs log) (i : ι) : (s.session i).Columned s.committed.columns :=
  ⟨rfl, fun u hu => h.columns i u (session_working.mp hu)⟩

lemma gatedb (h : s.Logs log) (hk : s.Kept t) (env : IndexEnv) (i : ι) (reader : Bool) :
    (s.put i ((s.session i).next env (s.lock i reader))).Logs log := by
  have hout := (s.session i).next_outcome env (s.lock i reader)
  have hcolumned := hout.columned (h.columned i)
  refine ⟨h.lists.rewrites (hout.rewrites (hk.session i)) hcolumned.1, fun j u hu => ?_⟩
  rw [show (s.put i ((s.session i).next env (s.lock i reader))).committed.columns =
    s.committed.columns from hcolumned.1]
  rcases put_owner hu with ⟨-, hw⟩ | ⟨-, howner⟩
  · exact hcolumned.2 u hw
  · exact h.columns j u howner

lemma step (hip : ∀ s a, inetPton s = some a → ipAddr s = some a.value) (h : s.Logs log)
    (hk : s.Kept t) (p : Writer ι) : (Shared.step env ipAddr p s).Logs (log ++ p.lines s) := by
  cases p with
  | gatedb i reader =>
    change Logs (log ++ []) _
    rw [List.append_nil]
    exact h.gatedb hk (env i) i reader
  | gatelog undone log' =>
    simp only [Shared.step, Shared.script, Writer.lines]
    split
    · rw [List.append_nil]
      exact h
    · next hfree =>
      have howner := unowned hfree
      exact ⟨h.lists.processLog true log', fun i u hu => by cases hu.symm.trans howner⟩
  | indexRb undone =>
    simp only [Shared.step, Shared.script, Writer.lines, List.append_nil]
    split
    · exact h
    · next hfree =>
      have howner := unowned hfree
      exact ⟨h.lists.rewrites (indexRb_rewrites hip hk.faithful) (indexRb_columns _),
        fun i u hu => by cases hu.symm.trans howner⟩

end Shared.Logs

lemma logs_run (hip : ∀ s a, inetPton s = some a → ipAddr s = some a.value) {t : IpTable}
    {schedule : List (Writer ι)} {s : Shared ι} {log : List LogLine} (h : s.Logs log)
    (hk : s.Kept t ∧ s.Thorough env)
    (hrun : Along (Shared.step env ipAddr) Shared.Admitted schedule s) :
    (run (Shared.step env ipAddr) schedule s).Logs (log ++ recorded env ipAddr schedule s) := by
  induction schedule generalizing s log with
  | nil =>
    rw [recorded, List.append_nil]
    exact h
  | cons p ps ih =>
    rw [recorded, ← List.append_assoc]
    exact ih (h.step hip hk.1 p) (Shared.kept_step hip p s hrun.1 hk) hrun.2

/-! What the module answers from a complete table. -/

section Complete

variable {log : List LogLine} {t : IpTable}

def Blamed (log : List LogLine) (a : InAddr) : Prop :=
  ∃ line ∈ log, line.Offends ∧ inetPton (strip line.host) = some a

lemma blamed_iff {a : InAddr} :
    Blamed log a ↔ ∃ host ∈ offendingHosts log, inetPton host = some a := by
  simp only [Blamed, offendingHosts, List.mem_map, List.mem_filter, decide_eq_true_eq]
  constructor
  · rintro ⟨line, hline, hoff, ha⟩
    exact ⟨_, ⟨line, ⟨hline, hoff⟩, rfl⟩, ha⟩
  · rintro ⟨host, ⟨line, ⟨hline, hoff⟩, rfl⟩, ha⟩
    exact ⟨line, hline, hoff, ha⟩

lemma Lists.lookupWhere (h : Lists log t)
    (hcomplete : ∀ row ∈ t.rows, ∃ a b, Names row a b ∧ row = withBounds row a b) {row : IpRow}
    (hrow : row ∈ t.rows) (a : InAddr) :
    (lookupWhere a.value).Holds row.cells ↔ row.startText.bind inetPton = some a := by
  obtain ⟨host, -, hs, he, -⟩ := h.rows row hrow
  obtain ⟨a', b', ⟨hstart, hend⟩, hbounds⟩ := hcomplete row hrow
  rw [he, ← hs, hstart] at hend
  cases hend
  have hsb := congrArg IpRow.startBound hbounds
  have heb := congrArg IpRow.endBound hbounds
  change row.startBound = .integer a'.value at hsb
  change row.endBound = .integer a'.value at heb
  rw [hstart, Option.some.injEq]
  constructor
  · intro hw
    simp [Request.lookupWhere, Term.eval, IpRow.cells, hsb, heb] at hw
    exact InAddr.eq_of_value (by omega)
  · rintro rfl
    simp [Request.lookupWhere, Term.eval, IpRow.cells, hsb, heb]

lemma Lists.lookup_blamed (h : Lists log t)
    (hcomplete : ∀ row ∈ t.rows, ∃ a b, Names row a b ∧ row = withBounds row a b) (a : InAddr) :
    (Blamed log a → ∃ row, lookup t a.value = some row ∧ row.httpCode = .integer 404) ∧
      (¬ Blamed log a → lookup t a.value = none) := by
  rw [blamed_iff]
  constructor
  · rintro ⟨host, hhost, ha⟩
    obtain ⟨row, hrow, hstart⟩ := List.mem_map.mp (h.starts host hhost)
    cases hl : lookup t a.value with
    | none =>
      refine absurd ((h.lookupWhere hcomplete hrow a).mpr ?_)
        ((selectFirst_eq_none IpRow.cells).mp hl row hrow)
      rw [hstart]
      exact ha
    | some found =>
      obtain ⟨-, -, -, -, hcode⟩ := h.rows found (selectFirst_holds _ hl).1
      exact ⟨found, rfl, hcode⟩
  · intro hnot
    refine (selectFirst_eq_none IpRow.cells).mpr fun row hrow hholds => hnot ?_
    obtain ⟨host, hhost, hs, -, -⟩ := h.rows row hrow
    have hname := (h.lookupWhere hcomplete hrow a).mp hholds
    rw [hs] at hname
    exact ⟨host, hhost, hname⟩

end Complete

/-- After the commit of an indexer that met no failure, the module stops exactly the clients that
offended in a log that was read. -/
theorem offenders_stopped_after_commit
    (hip : ∀ s a, inetPton s = some a → ipAddr s = some a.value) {t : IpTable}
    (hcolumns : ∀ c ∈ insertedColumns, c ∈ t.columns) (hempty : t.rows = [])
    {schedule : List (Writer ι)}
    (hrun : Along (Shared.step env ipAddr) Shared.Admitted schedule (.initial t)) {i : ι}
    (hn : (env i).NoFailure) {u : IpTable} {n : ℕ}
    (howner : (run (Shared.step env ipAddr) schedule (.initial t)).owner = some (i, u))
    (hat : (run (Shared.step env ipAddr) schedule (.initial t)).process i = .scanning [] n)
    (reader : Bool) :
    let s := run (Shared.step env ipAddr) (schedule ++ [.gatedb i reader]) (.initial t)
    let log := recorded env ipAddr schedule (.initial t)
    ∀ w r path a, inetPton r.remoteIp = some a → Queried (s.view w path) r path a.value →
      (Blamed log a → (gateRequestHandler (s.view w path) r).1 = OK ∧
        (gateRequestHandler (s.view w path) r).2.status = 404) ∧
      (¬ Blamed log a → (gateRequestHandler (s.view w path) r).1 = DECLINED) := by
  intro s log w r path a ha hq
  have hfaithful : Faithful t := fun r hr => by
    rw [hempty] at hr
    cases hr
  have hlists : Lists [] t := by
    refine ⟨hcolumns, fun r hr => ?_, fun host hhost => ?_⟩
    · rw [hempty] at hr
      cases hr
    · cases hhost
  have hkept := Shared.kept_run hip hfaithful hrun
  have hinitial : Shared.Logs [] (Shared.initial t : Shared ι) :=
    ⟨hlists, fun i u hu => by cases hu⟩
  have hlogs := logs_run hip hinitial
    ⟨⟨hfaithful, List.prefix_refl _, fun i u hu => by cases hu⟩, fun i u hu => by cases hu⟩ hrun
  have hs : s = Shared.step env ipAddr (.gatedb i reader)
      (run (Shared.step env ipAddr) schedule (.initial t)) := run_append _ _ _
  rw [Shared.commit_eq hn howner hat] at hs
  have htable : ((s.view w path).sqlite path).table = u := by
    rw [Shared.view_table, hs]
  have hu : Lists log u :=
    hlogs.lists.rewrites (hkept.1.owned i u howner) (hlogs.columns i u howner)
  obtain ⟨hfound, hmissing⟩ :=
    hu.lookup_blamed (Shared.owned_complete hkept.1 hkept.2 hn howner hat) a
  rw [← htable] at hfound hmissing
  constructor
  · intro hblamed
    obtain ⟨row, hl, hcode⟩ := hfound hblamed
    obtain ⟨hreturn, hstatus, -⟩ := handler_found hq hl
    rw [hcode] at hreturn hstatus
    exact ⟨hreturn, hstatus⟩
  · exact fun hnot => (handler_not_found hq (hmissing hnot)).1

deriving instance DecidableEq for Progress

deriving instance DecidableEq for LogLine

def emptyNoted : IpTable := { emptyIp with columns := .note :: emptyIp.columns }

def crawled : List (Writer Bool) :=
  [.gatedb false false, .gatedb false false, .gatelog false [⟨"10.0.0.8", "-", "nutch", by decide⟩],
    .gatedb false false, .gatelog false [logLine "Baiduspider"], .gatedb true false,
    .gatelog false [⟨"10.0.0.9", "-", "nutch", by decide⟩], .gatedb true false, .gatedb true false]

theorem crawler_stopped :
    let s := run (Shared.step (fun _ => calmIndex) quadToInt) (crawled ++ [.gatedb true false])
      (.initial emptyNoted)
    let w := s.view (calmWorld emptyIp) "/etc/apache2/gate.db"
    (gateRequestHandler w (gatedRequest "10.0.0.7")).1 = OK ∧
      (gateRequestHandler w (gatedRequest "10.0.0.7")).2.status = 404 ∧
      (gateRequestHandler w (gatedRequest "10.0.0.8")).1 = DECLINED := by
  intro s w
  let before := run (Shared.step (fun _ => calmIndex) quadToInt) crawled (.initial emptyNoted)
  have hrun : Along (Shared.step (fun _ => calmIndex) quadToInt) Shared.Admitted crawled
      (.initial emptyNoted) := by
    refine ⟨trivial, trivial, ⟨?_, ?_⟩, trivial, ⟨?_, ?_⟩, trivial, ⟨?_, ?_⟩, trivial, trivial,
      trivial⟩ <;> decide +kernel
  have hfirst : before.owner.map Prod.fst = some true := by decide +kernel
  obtain ⟨⟨i, u⟩, howner, hi⟩ := Option.map_eq_some_iff.mp hfirst
  change i = true at hi
  subst hi
  have hat : before.process true = .scanning [] 1 := by decide +kernel
  have hanswers := offenders_stopped_after_commit quadToInt_address (by decide) rfl hrun
    calmIndex_noFailure howner hat false (calmWorld emptyIp)
  have hq : ∀ ip a, inetPton ip = some a →
      Queried w (gatedRequest ip) "/etc/apache2/gate.db" a.value := by
    intro ip a ha
    refine ⟨⟨?_, by rfl⟩, by decide +kernel, ⟨a, ha, htonl_sAddr a⟩, by decide +kernel,
      by decide +kernel⟩
    rintro ⟨p, _, hp⟩
    cases hp
  have hseven : inetPton "10.0.0.7" = some ⟨10, 0, 0, 7⟩ := by decide
  have height : inetPton "10.0.0.8" = some ⟨10, 0, 0, 8⟩ := by decide
  obtain ⟨hok, hstatus⟩ := (hanswers (gatedRequest "10.0.0.7") _ _ hseven (hq _ _ hseven)).1
    ⟨logLine "Baiduspider", by decide +kernel, by decide +kernel, by decide⟩
  refine ⟨hok, hstatus, (hanswers (gatedRequest "10.0.0.8") _ _ height (hq _ _ height)).2 ?_⟩
  rw [blamed_iff]
  decide +kernel

end ModGate.Concurrency
