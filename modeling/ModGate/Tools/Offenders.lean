import ModGate.Tools.Gatelog
import Mathlib.Data.List.Forall2
import Mathlib.Data.List.Induction

/-! What `gatelog` adds to a table that has the columns of its INSERT: one row for each new
offender. -/

namespace ModGate.Tools

open Sql Database

def starts (t : IpTable) : List (Option String) := t.rows.map IpRow.startText

def LogLine.notes (line : LogLine) : List String := line.referrerNotes ++ line.userAgentNotes

def offendingHosts (log : List LogLine) : List String :=
  (log.filter fun line => line.Offends).map fun line => strip line.host

-- The hosts to add, in the order of their first offending lines.
def newOffenders (t : IpTable) (log : List LogLine) : List String :=
  (offendingHosts log).eraseDups.filter fun host => some host ∉ starts t

def firstNote (log : List LogLine) (host : String) : Option String :=
  (log.find? fun line => line.Offends ∧ strip line.host = host).bind fun line => line.notes.head?

/-- The row of a new offender; only its rowid is left open. -/
def Reports (log : List LogLine) (host : String) (r : IpRow) : Prop :=
  r = ⟨r.id, some host, some host, .null, .null, .integer 404, none, firstNote log host⟩

def insertedColumns : List Column := [.startText, .endText, .httpCode, .note]

lemma offends_iff_notes (line : LogLine) : line.Offends ↔ line.notes ≠ [] := by
  simp only [LogLine.Offends, LogLine.notes, LogLine.referrerNotes, LogLine.userAgentNotes, ne_eq,
    List.append_eq_nil_iff, List.map_eq_nil_iff, List.filter_eq_nil_iff, decide_eq_true_eq,
    not_and_or, not_forall, not_not, exists_prop]

lemma holds_startTextWhere (ip : String) (r : IpRow) :
    (startTextWhere ip).Holds r.cells ↔ r.startText = some ip := by
  simp only [startTextWhere, holds_compare, Term.eval, IpRow.cells, textCell]
  cases r.startText with
  | none => simp
  | some s => simp

lemma select_startTextWhere (ip : String) (t : IpTable) :
    0 < (select IpRow.cells (startTextWhere ip) t.rows).length ↔ some ip ∈ starts t := by
  simp only [List.length_pos_iff_exists_mem, mem_select, holds_startTextWhere, starts,
    List.mem_map]

/-! One call of `blockIP`. -/

lemma blockIP_known {ip : String} {t : IpTable} (h : some ip ∈ starts t) (raises : Bool)
    (note : String) : blockIP raises ip t note = some t :=
  if_pos ((select_startTextWhere ip t).mpr h)

lemma blockIP_new {ip : String} {t : IpTable} (hcols : ∀ c ∈ insertedColumns, c ∈ t.columns)
    (h : some ip ∉ starts t) (raises : Bool) (note : String) :
    ∃ t' id, blockIP raises ip t note = some t' ∧ t'.columns = t.columns ∧
      t'.rows = t.rows ++ [offenderRow ip note id] := by
  obtain ⟨t', id, hins, hc, hr⟩ := IpTable.insert_present hcols (offenderRow ip note) fun _ => rfl
  refine ⟨t', id, ?_, hc, hr⟩
  rw [insertedColumns] at hins
  rw [blockIP, if_neg (mt (select_startTextWhere ip t).mp h), hins]

/-! One line of the log. -/

lemma foldlM_blockIP_known {ip : String} {t : IpTable} (h : some ip ∈ starts t) (raises : Bool)
    (notes : List String) : notes.foldlM (blockIP raises ip) t = some t := by
  induction notes with
  | nil => rfl
  | cons note notes ih =>
    rw [List.foldlM_cons, blockIP_known h]
    exact ih

lemma processLine_unchanged {line : LogLine} {t : IpTable}
    (h : line.Offends → some (strip line.host) ∈ starts t) (raises : Bool) :
    processLine raises t line = some t := by
  by_cases hoff : line.Offends
  · exact foldlM_blockIP_known (h hoff) raises _
  · have hnotes : line.notes = [] := not_not.mp (mt (offends_iff_notes line).mpr hoff)
    rw [processLine, ← LogLine.notes, hnotes]
    rfl

lemma processLine_new {line : LogLine} {t : IpTable}
    (hcols : ∀ c ∈ insertedColumns, c ∈ t.columns) (hoff : line.Offends)
    (h : some (strip line.host) ∉ starts t) (raises : Bool) :
    ∃ t' id note, processLine raises t line = some t' ∧ t'.columns = t.columns ∧
      line.notes.head? = some note ∧
      t'.rows = t.rows ++ [offenderRow (strip line.host) note id] := by
  obtain ⟨note, notes, hnotes⟩ := List.exists_cons_of_ne_nil ((offends_iff_notes line).mp hoff)
  obtain ⟨t', id, hb, hc, hr⟩ := blockIP_new hcols h raises note
  have hknown : some (strip line.host) ∈ starts t' := by
    simp [starts, hr, offenderRow]
  refine ⟨t', id, note, ?_, hc, by rw [hnotes, List.head?_cons], hr⟩
  rw [processLine, ← LogLine.notes, hnotes, List.foldlM_cons, hb]
  exact foldlM_blockIP_known hknown raises notes

/-! The processed part of the log. -/

lemma offendingHosts_concat (log : List LogLine) (line : LogLine) :
    offendingHosts (log ++ [line]) =
      offendingHosts log ++ if line.Offends then [strip line.host] else [] := by
  by_cases h : line.Offends <;> simp [offendingHosts, h]

lemma eraseDups_concat (hosts : List String) (host : String) :
    (hosts ++ [host]).eraseDups = hosts.eraseDups ++ if host ∈ hosts then [] else [host] := by
  rw [List.eraseDups_append]
  by_cases h : host ∈ hosts <;> simp [List.removeAll, h, List.eraseDups_cons]

lemma newOffenders_concat (t : IpTable) (log : List LogLine) (line : LogLine) :
    newOffenders t (log ++ [line]) = newOffenders t log ++
      if line.Offends ∧ some (strip line.host) ∉ starts t ∧ strip line.host ∉ offendingHosts log
      then [strip line.host] else [] := by
  simp only [newOffenders, offendingHosts_concat]
  by_cases hoff : line.Offends
  · rw [if_pos hoff, eraseDups_concat, List.filter_append]
    by_cases hlog : strip line.host ∈ offendingHosts log
    · simp [hlog]
    · by_cases ht : some (strip line.host) ∈ starts t <;> simp [hoff, hlog, ht]
  · simp [hoff]

lemma mem_newOffenders {t : IpTable} {log : List LogLine} {host : String} :
    host ∈ newOffenders t log ↔ host ∈ offendingHosts log ∧ some host ∉ starts t := by
  simp [newOffenders]

lemma find_offending {log : List LogLine} {host : String} (h : host ∈ offendingHosts log) :
    (log.find? fun line => line.Offends ∧ strip line.host = host).isSome := by
  obtain ⟨line, hline, rfl⟩ := List.mem_map.mp h
  rw [List.find?_isSome]
  exact ⟨line, (List.mem_filter.mp hline).1, by simpa using (List.mem_filter.mp hline).2⟩

lemma firstNote_concat {log : List LogLine} {host : String} (h : host ∈ offendingHosts log)
    (line : LogLine) : firstNote (log ++ [line]) host = firstNote log host := by
  rw [firstNote, List.find?_append, Option.or_of_isSome (find_offending h), firstNote]

lemma firstNote_new {log : List LogLine} {line : LogLine} (hoff : line.Offends)
    (h : strip line.host ∉ offendingHosts log) :
    firstNote (log ++ [line]) (strip line.host) = line.notes.head? := by
  have hnone : (log.find? fun l => l.Offends ∧ strip l.host = strip line.host) = none := by
    rw [List.find?_eq_none]
    intro l hl hhost
    rw [decide_eq_true_eq] at hhost
    exact h (List.mem_map.mpr ⟨l, List.mem_filter.mpr ⟨hl, by simpa using hhost.1⟩, hhost.2⟩)
  rw [firstNote, List.find?_append, hnone, Option.none_or]
  simp [hoff]

lemma startText_of_reports {log : List LogLine} {hosts : List String} {added : List IpRow}
    (h : List.Forall₂ (Reports log) hosts added) :
    added.map IpRow.startText = hosts.map some := by
  induction h with
  | nil => rfl
  | cons hr _ ih => rw [List.map_cons, List.map_cons, ih, hr]

lemma reports_concat {log : List LogLine} {hosts : List String} {added : List IpRow}
    (h : List.Forall₂ (Reports log) hosts added) (hlog : ∀ host ∈ hosts, host ∈ offendingHosts log)
    (line : LogLine) : List.Forall₂ (Reports (log ++ [line])) hosts added := by
  induction h with
  | nil => exact List.Forall₂.nil
  | cons hr _ ih =>
    refine List.Forall₂.cons ?_ (ih fun host hhost => hlog host (List.mem_cons_of_mem _ hhost))
    rw [Reports, firstNote_concat (hlog _ List.mem_cons_self)]
    exact hr

-- The table after a part of the log has been processed.
structure Processed (t : IpTable) (log : List LogLine) (t' : IpTable) : Prop where
  columns : t'.columns = t.columns
  rows : ∃ added, t'.rows = t.rows ++ added ∧
    List.Forall₂ (Reports log) (newOffenders t log) added

namespace Processed

variable {t t' : IpTable} {log : List LogLine}

lemma mem_starts (h : Processed t log t') (host : String) :
    some host ∈ starts t' ↔ some host ∈ starts t ∨ host ∈ offendingHosts log := by
  obtain ⟨added, hrows, hadded⟩ := h.rows
  rw [starts, hrows, List.map_append, List.mem_append,
    startText_of_reports hadded, ← starts, List.mem_map]
  simp only [Option.some.injEq, exists_eq_right, mem_newOffenders]
  tauto

lemma concat (h : Processed t log t') {line : LogLine} {t'' : IpTable} {rows : List IpRow}
    (hcolumns : t''.columns = t'.columns) (hrows : t''.rows = t'.rows ++ rows)
    (hnew : List.Forall₂ (Reports (log ++ [line]))
      (if line.Offends ∧ some (strip line.host) ∉ starts t ∧ strip line.host ∉ offendingHosts log
        then [strip line.host] else []) rows) :
    Processed t (log ++ [line]) t'' := by
  obtain ⟨added, hr, hadded⟩ := h.rows
  refine ⟨hcolumns.trans h.columns, added ++ rows, by rw [hrows, hr, List.append_assoc], ?_⟩
  rw [newOffenders_concat]
  exact List.rel_append
    (reports_concat hadded (fun host hhost => (mem_newOffenders.mp hhost).1) line) hnew

lemma line (hcols : ∀ c ∈ insertedColumns, c ∈ t.columns) (h : Processed t log t')
    (raises : Bool) (line : LogLine) :
    ∃ t'', processLine raises t' line = some t'' ∧ Processed t (log ++ [line]) t'' := by
  by_cases hknown : line.Offends → some (strip line.host) ∈ starts t'
  · refine ⟨t', processLine_unchanged hknown raises, h.concat rfl (List.append_nil _).symm ?_⟩
    rw [if_neg]
    · exact List.Forall₂.nil
    · rintro ⟨hoff, ht, hlog⟩
      exact ((h.mem_starts _).mp (hknown hoff)).elim ht hlog
  · obtain ⟨hoff, hnew⟩ := Classical.not_imp.mp hknown
    rw [h.mem_starts, not_or] at hnew
    obtain ⟨t'', id, note, hline, hc, hnote, hr⟩ :=
      processLine_new (h.columns ▸ hcols) hoff (mt (h.mem_starts _).mp (not_or.mpr hnew)) raises
    refine ⟨t'', hline, h.concat hc hr ?_⟩
    rw [if_pos ⟨hoff, hnew⟩]
    refine List.Forall₂.cons ?_ List.Forall₂.nil
    rw [Reports, firstNote_new hoff hnew.2, hnote]
    rfl

end Processed

lemma processed_run {t : IpTable} (hcols : ∀ c ∈ insertedColumns, c ∈ t.columns) (raises : Bool)
    (log : List LogLine) :
    ∃ t', log.foldlM (processLine raises) t = some t' ∧ Processed t log t' := by
  induction log using List.reverseRecOn with
  | nil => exact ⟨t, rfl, rfl, [], by simp, by simp [newOffenders, offendingHosts]⟩
  | append_singleton log line ih =>
    obtain ⟨t', hrun, hp⟩ := ih
    obtain ⟨t'', hline, hp'⟩ := hp.line hcols raises line
    refine ⟨t'', ?_, hp'⟩
    rw [List.foldlM_append, hrun]
    simpa using hline

lemma processLog_processed {t : IpTable} (hcols : ∀ c ∈ insertedColumns, c ∈ t.columns)
    (raises : Bool) (log : List LogLine) : Processed t log (processLog raises log t) := by
  obtain ⟨t', hrun, hp⟩ := processed_run hcols raises log
  rw [processLog, hrun]
  exact hp

lemma processLog_unchanged {t : IpTable} {log : List LogLine}
    (h : ∀ line ∈ log, line.Offends → some (strip line.host) ∈ starts t) (raises : Bool) :
    processLog raises log t = t := by
  have hrun : log.foldlM (processLine raises) t = some t := by
    induction log with
    | nil => rfl
    | cons line log ih =>
      rw [List.foldlM_cons, processLine_unchanged (h line List.mem_cons_self) raises]
      exact ih fun l hl => h l (List.mem_cons_of_mem _ hl)
  rw [processLog, hrun, Option.getD_some]

lemma Processed.known {t t' : IpTable} {log : List LogLine} (h : Processed t log t') :
    ∀ line ∈ log, line.Offends → some (strip line.host) ∈ starts t' := by
  intro line hline hoff
  exact (h.mem_starts _).mpr (Or.inr (List.mem_map.mpr
    ⟨line, List.mem_filter.mpr ⟨hline, by simpa using hoff⟩, rfl⟩))

theorem each_offender_once {t : IpTable} (hcols : ∀ c ∈ insertedColumns, c ∈ t.columns)
    (log : List LogLine) (raises : Bool) :
    (∃ added, (processLog raises log t).columns = t.columns ∧
      (processLog raises log t).rows = t.rows ++ added ∧
      List.Forall₂ (Reports log) (newOffenders t log) added) ∧
      processLog raises log (processLog raises log t) = processLog raises log t := by
  have hp := processLog_processed hcols raises log
  obtain ⟨added, hrows, hadded⟩ := hp.rows
  exact ⟨⟨added, hp.columns, hrows, hadded⟩, processLog_unchanged hp.known raises⟩

def notedIp : IpTable where
  columns := insertedColumns
  rows := [⟨7, some "10.0.0.1", none, .null, .null, .null, none, none⟩]
  ordered := List.pairwise_singleton _ _

def visits : List LogLine :=
  [⟨"10.0.0.1", "-", "nutch", by decide⟩, ⟨" 10.0.0.2 ", "x.cn", "Sogou", by decide⟩,
    ⟨"10.0.0.2", "semalt", "-", by decide⟩]

theorem second_visitor_added :
    (∃ id, (processLog true visits notedIp).rows =
      notedIp.rows ++ [offenderRow "10.0.0.2" "China/Australia" id]) ∧
      processLog true visits (processLog true visits notedIp) =
        processLog true visits notedIp := by
  obtain ⟨⟨added, -, hrows, hadded⟩, hagain⟩ :=
    @each_offender_once notedIp (fun _ h => h) visits true
  refine ⟨?_, hagain⟩
  have hnew : newOffenders notedIp visits = ["10.0.0.2"] := by decide +kernel
  have hnote : firstNote visits "10.0.0.2" = some "China/Australia" := by decide +kernel
  rw [hnew] at hadded
  obtain ⟨r, rest, hr, hrest, rfl⟩ := List.forall₂_cons_left_iff.mp hadded
  rw [List.forall₂_nil_left_iff.mp hrest] at hrows
  rw [Reports, hnote] at hr
  exact ⟨r.id, by rw [hrows, hr]; rfl⟩

end ModGate.Tools
